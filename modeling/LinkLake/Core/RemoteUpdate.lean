import LinkLake.Core.Uuid
import LinkLake.Foundations.Fallible
import LinkLake.Foundations.Text

/-!
# The remote-update contract

The types that the update server and its workers exchange, and their `validate` functions. A task
snapshot couples its state, stage, lease, restart binding, payload and three timestamps;
`RemoteUpdateTask.validate` checks all of them, in the order of the source, and every reader of a
stored task runs it.

* `RemoteUpdateTask.validate_eq_ok`: a snapshot passes exactly when it is `Valid`, one named field
  per check.
* `RemoteUpdateTaskEvent.validate_eq_ok` and `RemoteUpdateTaskDetail.validate_eq_ok`: the same for
  one event and for a task with its events.

Semantic versions are parsed by a library; `SemVer` stands for its parser.
-/

namespace LinkLake

open Fallible

/-! ## Limits -/

/-- The schema version of every snapshot and event. -/
def remoteUpdateContractVersion : ℕ := 1

/-- The phrase that confirms a cancellation. -/
def remoteUpdateCancelConfirmation : String := "CANCEL"

/-- The shortest lease a worker may ask for, in seconds. -/
def remoteUpdateMinLeaseSeconds : ℕ := 15

/-- The longest lease a worker may ask for, in seconds. -/
def remoteUpdateMaxLeaseSeconds : ℕ := 300

/-- How long the server keeps a lease for a worker that restarts. -/
def remoteUpdateRestartResumeSeconds : ℕ := 1800

/-- How often a task may be handed out. -/
def remoteUpdateMaxClaimAttempts : ℕ := 16

/-- How many events a task may have. -/
def remoteUpdateMaxEventsPerTask : ℕ := 128

/-! ## Enumerations -/

/-- What a task asks the client to do. -/
inductive RemoteUpdateAction
  | check | download | apply | status | recover | rollback
  deriving DecidableEq, Repr

/-- Where a task is in its life. -/
inductive RemoteUpdateTaskState
  | queued | claimed | running | cancelRequested | succeeded | failed | cancelled
  deriving DecidableEq, Repr

/-- What the holder of a task is doing. -/
inductive RemoteUpdateStage
  | queued | claimed | checking | downloading | applying | inspecting | recovering | rollingBack
  | awaitingRestart | completed | failed | cancelled
  deriving DecidableEq, Repr

/-- What an operator has to do about a failed task. -/
inductive RemoteUpdateRecoveryState
  | none | retryable | statusRequired | rollbackRequired | recovered | failedClosed
  deriving DecidableEq, Repr

/-- What an event records. -/
inductive RemoteUpdateEventKind
  | created | idempotentReplay | claimed | leaseRenewed | stageReported | cancelRequested
  | cancelled | succeeded | failed | leaseExpiredRequeued | leaseExpiredFailedClosed
  | restartReconciled
  deriving DecidableEq, Repr

/-- Why a task failed. -/
inductive RemoteUpdateErrorCode
  | clientDisabled | invalidRequest | confirmationRequired | taskNotFound | targetBusy
  | idempotencyConflict | leaseConflict | leaseExpired | invalidTransition
  | insecureControlChannel | localUpdateBusy | signatureVerificationFailed
  | stableChannelRequired | downgradeForbidden | artifactRejected | checkFailed | downloadFailed
  | applyFailed | statusFailed | recoveryFailed | rollbackFailed | cancelled | failedClosed
  | internal
  deriving DecidableEq, Repr

/-- The state of the client's own updater. -/
inductive RemoteLocalUpdateState
  | idle | scheduled | installing | succeeded | rolledBack | failed | recoveryRequired
  deriving DecidableEq, Repr

/-- The installations the client's updater performs. -/
inductive RemoteLocalUpdateOperation
  | apply | rollback
  deriving DecidableEq, Repr

/-- Why a message breaks the contract. -/
inductive RemoteUpdateContractError
  | invalidIdempotencyKeyLength | invalidIdempotencyKeyCharacter | invalidLeaseDuration
  | confirmationMismatch | invalidStage | resultActionMismatch | invalidRecoveryState
  | invalidTransition | nilUuid | invalidVersion | invalidKeyId | invalidSha256
  | invalidTimestamp | invalidLocalStatus | unsupportedSchema | invalidRequester
  | invalidTaskSnapshot | invalidClaim | invalidTaskEvent
  deriving DecidableEq, Repr

namespace RemoteUpdateAction

/-- The phrase that confirms an action. -/
def confirmationPhrase : RemoteUpdateAction → String
  | check => "CHECK"
  | download => "DOWNLOAD"
  | apply => "UPDATE"
  | status => "STATUS"
  | recover => "RECOVER"
  | rollback => "ROLLBACK"

/-- The stage in which a worker executes an action. -/
def executionStage : RemoteUpdateAction → RemoteUpdateStage
  | check => .checking
  | download => .downloading
  | apply => .applying
  | status => .inspecting
  | recover => .recovering
  | rollback => .rollingBack

/-- Whether an action may run again after its lease is lost. -/
def safeToRequeueAfterLeaseLoss : RemoteUpdateAction → Bool
  | check | download | status => true
  | apply | recover | rollback => false

/-- Whether an action changes the installation. -/
def changesInstallation : RemoteUpdateAction → Bool
  | apply | recover | rollback => true
  | check | download | status => false

/-- Whether the client restarts in the middle of an action. -/
def requiresRestart : RemoteUpdateAction → Bool
  | apply | rollback => true
  | check | download | status | recover => false

end RemoteUpdateAction

namespace RemoteUpdateTaskState

/-- Whether a task in this state has ended. -/
def isTerminal : RemoteUpdateTaskState → Bool
  | succeeded | failed | cancelled => true
  | queued | claimed | running | cancelRequested => false

/-- The states in which a worker holds the task. -/
def isLeased : RemoteUpdateTaskState → Bool
  | claimed | running | cancelRequested => true
  | queued | succeeded | failed | cancelled => false

end RemoteUpdateTaskState

namespace RemoteUpdateStage

/-- Whether the holder of a lease on a task with this action may be in this stage. -/
def validForActiveLease (stage : RemoteUpdateStage) (action : RemoteUpdateAction) : Bool :=
  stage == .claimed || stage == action.executionStage
    || (stage == .awaitingRestart && action.requiresRestart)

/-- The stages in which a worker executes some action or waits for its restart. -/
def isExecuting : RemoteUpdateStage → Bool
  | checking | downloading | applying | inspecting | recovering | rollingBack
  | awaitingRestart => true
  | queued | claimed | completed | failed | cancelled => false

end RemoteUpdateStage

/-- Which stages a recorded state goes with, whatever the action. -/
def RemoteUpdateTaskState.allowsStage (stage : RemoteUpdateStage) : RemoteUpdateTaskState → Bool
  | queued => stage == .queued
  | claimed => stage == .claimed
  | running => stage.isExecuting
  | cancelRequested => stage == .claimed || stage.isExecuting
  | succeeded => stage == .completed
  | failed => stage == .failed
  | cancelled => stage == .cancelled

/-! ## Scalars -/

/-- The parser of semantic versions. -/
class SemVer where
  /-- Whether a text is a semantic version. -/
  parses : String → Bool

/-- Lengths of idempotency keys are 8 to 128 bytes; their characters are ASCII letters, digits
and four marks. -/
def validateIdempotencyKey (value : String) : Except RemoteUpdateContractError Unit := do
  rejectIf (¬ (8 ≤ value.utf8ByteSize ∧ value.utf8ByteSize ≤ 128)) .invalidIdempotencyKeyLength
  rejectIf (¬ value.toList.all fun c => c.isAlphanum || c ∈ ['-', '_', '.', ':'])
    .invalidIdempotencyKeyCharacter

/-- Leases last 15 to 300 seconds. -/
def validateLeaseSeconds (value : ℕ) : Except RemoteUpdateContractError Unit :=
  rejectIf (¬ (remoteUpdateMinLeaseSeconds ≤ value ∧ value ≤ remoteUpdateMaxLeaseSeconds))
    .invalidLeaseDuration

/-- Identifiers are not nil. -/
def validateNonNilUuid (value : Uuid) : Except RemoteUpdateContractError Unit :=
  rejectIf value.isNil .nilUuid

/-- Whether a text may name the requester of a task: 1 to 128 bytes, no control characters. -/
def requesterValid (value : String) : Bool :=
  !(value.isEmpty || value.utf8ByteSize > 128 || value.toList.any Text.isControl)

/-- Versions are at most 64 bytes and, apart from a leading `v`, semantic versions. -/
def validateVersion [SemVer] (value : String) : Except RemoteUpdateContractError Unit := do
  rejectIf (value.isEmpty ∨ value.utf8ByteSize > 64) .invalidVersion
  let normalized := match value.toList with
    | 'v' :: rest => String.ofList rest
    | _ => value
  rejectIf (¬ SemVer.parses normalized) .invalidVersion

/-- Key identifiers are 1 to 64 ASCII letters, digits and three marks. -/
def validateKeyId (value : String) : Except RemoteUpdateContractError Unit :=
  rejectIf (value.isEmpty ∨ value.utf8ByteSize > 64
      ∨ ¬ value.toList.all fun c => c.isAlphanum || c ∈ ['-', '_', '.'])
    .invalidKeyId

/-- Digests are 64 lower-case hexadecimal digits. -/
def validateSha256 (value : String) : Except RemoteUpdateContractError Unit :=
  rejectIf (¬ (value.utf8ByteSize = 64
      ∧ value.toList.all fun c => c.isDigit || ('a' ≤ c && c ≤ 'f')))
    .invalidSha256

/-- Which recovery states go with a reported failure. -/
def validateFailureReport (action : RemoteUpdateAction) (errorCode : RemoteUpdateErrorCode)
    (recoveryState : RemoteUpdateRecoveryState) : Except RemoteUpdateContractError Unit := do
  rejectIf (errorCode = .cancelled ∨ recoveryState = .none ∨ recoveryState = .recovered)
    .invalidRecoveryState
  rejectIf (errorCode = .failedClosed ∧ recoveryState ≠ .failedClosed) .invalidRecoveryState
  if action.changesInstallation then
    rejectIf (¬ (recoveryState = .statusRequired ∨ recoveryState = .rollbackRequired
      ∨ recoveryState = .failedClosed)) .invalidRecoveryState
  else
    rejectIf (¬ (recoveryState = .retryable ∨ recoveryState = .failedClosed))
      .invalidRecoveryState

/-! ## Results and restart plans -/

/-- The installation a worker is about to restart into. -/
structure RemoteUpdateRestartPlan where
  operationId : Uuid
  operation : RemoteLocalUpdateOperation
  fromVersion : String
  toVersion : String
  deriving DecidableEq, Repr

/-- What a successful worker reports. -/
inductive RemoteUpdateResult
  | check (currentVersion latestVersion : String) (updateAvailable : Bool)
      (signatureKeyId : String)
  | downloaded (version archiveSha256 binarySha256 signatureKeyId : String)
  | installed (operationId : Uuid) (operation : RemoteLocalUpdateOperation)
      (fromVersion toVersion installedSha256 backupSha256 : String) (verifiedUnixSeconds : ℕ)
  | status (state : RemoteLocalUpdateState) (operation : Option RemoteLocalUpdateOperation)
      (fromVersion toVersion : Option String) (hasError : Bool) (updatedUnixSeconds : ℕ)
  deriving DecidableEq, Repr

namespace RemoteUpdateResult

/-- Whether a result answers an action. -/
def matchesAction : RemoteUpdateResult → RemoteUpdateAction → Bool
  | check .., .check => true
  | downloaded .., .download => true
  | installed _ .apply .., .apply => true
  | status .., .status => true
  | status .., .recover => true
  | installed _ .rollback .., .rollback => true
  | _, _ => false

/-- Whether a result is that of the planned installation. -/
def matchesRestartPlan (plan : RemoteUpdateRestartPlan) : RemoteUpdateResult → Bool
  | installed operationId operation fromVersion toVersion _ _ _ =>
    operationId == plan.operationId && operation == plan.operation
      && fromVersion == plan.fromVersion && toVersion == plan.toVersion
  | _ => false

/-- Which fields the client's updater fills in in which state. -/
def statusFieldsValid (state : RemoteLocalUpdateState)
    (operation : Option RemoteLocalUpdateOperation) (fromVersion toVersion : Option String)
    (hasError : Bool) : Bool :=
  match state with
  | .idle => operation.isNone && toVersion.isNone && !hasError
  | .scheduled | .installing | .succeeded | .rolledBack =>
    operation.isSome && fromVersion.isSome && toVersion.isSome && !hasError
  | .failed | .recoveryRequired =>
    operation.isSome && fromVersion.isSome && toVersion.isSome && hasError

/-- The check of a result's fields. -/
def validate [SemVer] : RemoteUpdateResult → Except RemoteUpdateContractError Unit
  | check currentVersion latestVersion _ signatureKeyId => do
    validateVersion currentVersion
    validateVersion latestVersion
    validateKeyId signatureKeyId
  | downloaded version archiveSha256 binarySha256 signatureKeyId => do
    validateVersion version
    validateSha256 archiveSha256
    validateSha256 binarySha256
    validateKeyId signatureKeyId
  | installed operationId _ fromVersion toVersion installedSha256 backupSha256 verified => do
    validateNonNilUuid operationId
    validateVersion fromVersion
    validateVersion toVersion
    validateSha256 installedSha256
    validateSha256 backupSha256
    rejectIf (verified = 0) .invalidTimestamp
  | status state operation fromVersion toVersion hasError updated => do
    (fromVersion.elim (pure ()) validateVersion : Except _ _)
    (toVersion.elim (pure ()) validateVersion : Except _ _)
    rejectIf (updated = 0) .invalidTimestamp
    rejectIf (¬ statusFieldsValid state operation fromVersion toVersion hasError)
      .invalidLocalStatus

end RemoteUpdateResult

/-- A plan is checked against the action it belongs to. -/
def RemoteUpdateRestartPlan.validate [SemVer] (plan : RemoteUpdateRestartPlan)
    (action : RemoteUpdateAction) : Except RemoteUpdateContractError Unit := do
  validateNonNilUuid plan.operationId
  let expected ← match action with
    | .apply => .ok RemoteLocalUpdateOperation.apply
    | .rollback => .ok RemoteLocalUpdateOperation.rollback
    | _ => .error .invalidTransition
  rejectIf (plan.operation ≠ expected) .resultActionMismatch
  validateVersion plan.fromVersion
  validateVersion plan.toVersion

/-- A plan the server has accepted, with the time until which it waits for the restart. -/
structure RemoteUpdateRestartBinding where
  operationId : Uuid
  operation : RemoteLocalUpdateOperation
  fromVersion : String
  toVersion : String
  preparedUnixSeconds : ℕ
  resumeDeadlineUnixSeconds : ℕ
  deriving DecidableEq, Repr

namespace RemoteUpdateRestartBinding

/-- The plan that a binding accepts. -/
def plan (binding : RemoteUpdateRestartBinding) : RemoteUpdateRestartPlan where
  operationId := binding.operationId
  operation := binding.operation
  fromVersion := binding.fromVersion
  toVersion := binding.toVersion

/-- Whether a binding accepts this plan. -/
def agreesWith (binding : RemoteUpdateRestartBinding) (plan : RemoteUpdateRestartPlan) : Bool :=
  binding.operationId == plan.operationId && binding.operation == plan.operation
    && binding.fromVersion == plan.fromVersion && binding.toVersion == plan.toVersion

/-- A binding ends at most half an hour after it was prepared, and the lease of its task ends
exactly with it. -/
def validate [SemVer] (binding : RemoteUpdateRestartBinding) (action : RemoteUpdateAction)
    (leaseDeadlineUnixSeconds now : Option ℕ) : Except RemoteUpdateContractError Unit := do
  binding.plan.validate action
  rejectIf (binding.resumeDeadlineUnixSeconds = 0 ∨ binding.preparedUnixSeconds = 0
      ∨ binding.resumeDeadlineUnixSeconds ≤ binding.preparedUnixSeconds
      ∨ binding.resumeDeadlineUnixSeconds - binding.preparedUnixSeconds
          > remoteUpdateRestartResumeSeconds
      ∨ leaseDeadlineUnixSeconds ≠ some binding.resumeDeadlineUnixSeconds
      ∨ now.any (binding.resumeDeadlineUnixSeconds ≤ ·))
    .invalidTimestamp

end RemoteUpdateRestartBinding

/-! ## Worker reports -/

/-- What a worker reports about its task. -/
inductive RemoteUpdateWorkerReport
  | started (stage : RemoteUpdateStage)
  | awaitingRestart (plan : RemoteUpdateRestartPlan)
  | succeeded (result : RemoteUpdateResult)
  | failed (errorCode : RemoteUpdateErrorCode) (recoveryState : RemoteUpdateRecoveryState)
  | cancelled
  deriving DecidableEq, Repr

namespace RemoteUpdateWorkerReport

/-- A report is checked against the action of its task. -/
def validate [SemVer] (action : RemoteUpdateAction) :
    RemoteUpdateWorkerReport → Except RemoteUpdateContractError Unit
  | started stage => rejectIf (stage ≠ action.executionStage) .invalidStage
  | awaitingRestart plan =>
    if action.requiresRestart then plan.validate action else .error .invalidTransition
  | succeeded result =>
    if result.matchesAction action then result.validate else .error .resultActionMismatch
  | failed errorCode recoveryState => validateFailureReport action errorCode recoveryState
  | cancelled => .ok ()

/-- Once an installation change is being executed its worker may no longer report it cancelled. -/
def validateForTask [SemVer] (report : RemoteUpdateWorkerReport) (action : RemoteUpdateAction)
    (currentStage : RemoteUpdateStage) (cancelRequested : Bool) :
    Except RemoteUpdateContractError Unit := do
  report.validate action
  rejectIf (report = .cancelled ∧ (cancelRequested = false
      ∨ (currentStage ≠ .claimed ∧ action.safeToRequeueAfterLeaseLoss = false)))
    .invalidTransition

end RemoteUpdateWorkerReport

/-! ## Task snapshots -/

/-- A task as the server stores it and shows it. -/
structure RemoteUpdateTask where
  schemaVersion : ℕ
  taskId : Uuid
  targetClientId : Uuid
  action : RemoteUpdateAction
  state : RemoteUpdateTaskState
  stage : RemoteUpdateStage
  recoveryState : RemoteUpdateRecoveryState
  requestedBy : String
  idempotencyKey : String
  attempt : ℕ
  cancelRequested : Bool
  leaseOwner : Option Uuid
  leaseDeadlineUnixSeconds : Option ℕ
  restart : Option RemoteUpdateRestartBinding
  result : Option RemoteUpdateResult
  errorCode : Option RemoteUpdateErrorCode
  createdUnixSeconds : ℕ
  updatedUnixSeconds : ℕ
  completedUnixSeconds : Option ℕ
  deriving DecidableEq, Repr

namespace RemoteUpdateTask

variable [SemVer] {task : RemoteUpdateTask}

/-- Whether both halves of a lease are there. -/
def leasePresent (task : RemoteUpdateTask) : Bool :=
  task.leaseOwner.isSome && task.leaseDeadlineUnixSeconds.isSome

/-- Whether a task carries nothing that only an ended task may carry. -/
def activePayloadEmpty (task : RemoteUpdateTask) : Bool :=
  task.result.isNone && task.errorCode.isNone && task.completedUnixSeconds.isNone

/-- Whether a worker executes the action of a task or waits for its restart. -/
def stageExecutes (task : RemoteUpdateTask) : Bool :=
  task.stage == task.action.executionStage
    || (task.stage == .awaitingRestart && task.action.requiresRestart)

/-- The recovery state of a task that succeeded. -/
def successRecoveryState (action : RemoteUpdateAction) : RemoteUpdateRecoveryState :=
  if action = .recover then .recovered else .none

/-- Which fields go with which state. -/
def stateFieldsValid (task : RemoteUpdateTask) : Bool :=
  match task.state with
  | .queued =>
    task.stage == .queued && !task.leasePresent && task.restart.isNone
      && !task.cancelRequested && task.activePayloadEmpty
  | .claimed =>
    task.stage == .claimed && task.leasePresent && task.restart.isNone
      && !task.cancelRequested && task.activePayloadEmpty
  | .running =>
    task.stageExecutes && task.leasePresent
      && (task.stage == .awaitingRestart || task.restart.isNone)
      && !task.cancelRequested && task.activePayloadEmpty
  | .cancelRequested =>
    (task.stage == .claimed || task.stageExecutes) && task.leasePresent
      && (task.stage == .awaitingRestart || task.restart.isNone)
      && task.cancelRequested && task.activePayloadEmpty
  | .succeeded =>
    task.stage == .completed && !task.leasePresent && task.restart.isNone
      && task.completedUnixSeconds.isSome && task.errorCode.isNone
      && (task.result.any fun result =>
        result.matchesAction task.action && result.validate.toOption.isSome)
      && task.recoveryState == successRecoveryState task.action
  | .failed =>
    task.stage == .failed && !task.leasePresent && task.restart.isNone
      && task.completedUnixSeconds.isSome && task.result.isNone
      && (task.errorCode.any fun errorCode =>
        ((RemoteUpdateWorkerReport.failed errorCode task.recoveryState).validate
          task.action).toOption.isSome)
  | .cancelled =>
    task.stage == .cancelled && !task.leasePresent && task.restart.isNone
      && task.cancelRequested && task.completedUnixSeconds.isSome && task.result.isNone
      && task.errorCode == some .cancelled && task.recoveryState == .none

/-- The check that every stored task has to pass. -/
def validate (task : RemoteUpdateTask) : Except RemoteUpdateContractError Unit := do
  rejectIf (task.schemaVersion ≠ remoteUpdateContractVersion) .unsupportedSchema
  validateNonNilUuid task.taskId
  validateNonNilUuid task.targetClientId
  validateIdempotencyKey task.idempotencyKey
  rejectIf (task.attempt > remoteUpdateMaxClaimAttempts) .invalidTaskSnapshot
  rejectIf (¬ requesterValid task.requestedBy) .invalidRequester
  rejectIf (task.createdUnixSeconds = 0 ∨ task.updatedUnixSeconds < task.createdUnixSeconds
      ∨ task.completedUnixSeconds.any (· < task.updatedUnixSeconds))
    .invalidTimestamp
  (task.leaseOwner.elim (pure ()) validateNonNilUuid : Except _ _)
  rejectIf (task.leaseDeadlineUnixSeconds = some 0) .invalidTimestamp
  (task.restart.elim (pure ()) fun restart =>
    restart.validate task.action task.leaseDeadlineUnixSeconds (some task.updatedUnixSeconds)
    : Except _ _)
  rejectIf ((task.stage == .awaitingRestart) ≠ task.restart.isSome) .invalidTaskSnapshot
  rejectIf (¬ task.stateFieldsValid) .invalidTaskSnapshot

/-- What it takes for a snapshot to pass its check. -/
structure Valid (task : RemoteUpdateTask) : Prop where
  schema : task.schemaVersion = remoteUpdateContractVersion
  taskId : task.taskId.isNil = false
  targetClientId : task.targetClientId.isNil = false
  idempotencyKey : validateIdempotencyKey task.idempotencyKey = .ok ()
  attempt : task.attempt ≤ remoteUpdateMaxClaimAttempts
  requestedBy : requesterValid task.requestedBy = true
  created : task.createdUnixSeconds ≠ 0
  updated : task.createdUnixSeconds ≤ task.updatedUnixSeconds
  completed : ∀ completed ∈ task.completedUnixSeconds, task.updatedUnixSeconds ≤ completed
  leaseOwner : ∀ owner ∈ task.leaseOwner, owner.isNil = false
  leaseDeadline : task.leaseDeadlineUnixSeconds ≠ some 0
  restart : ∀ binding ∈ task.restart, binding.validate task.action
    task.leaseDeadlineUnixSeconds (some task.updatedUnixSeconds) = .ok ()
  awaiting : (task.stage == .awaitingRestart) = task.restart.isSome
  fields : task.stateFieldsValid = true

theorem validate_eq_ok : task.validate = .ok () ↔ task.Valid := by
  simp only [validate, validateNonNilUuid, bind_unit_eq_ok, rejectIf_eq_ok, elim_pure_eq_ok,
    Bool.not_eq_true, not_lt, not_or, ne_eq, not_not]
  constructor
  · rintro ⟨hschema, hid, htarget, hkey, hattempt, hreq, ⟨hc, hu, hdone⟩, howner, hdl, hrestart,
      hawait, hfields⟩
    exact {
      schema := hschema, taskId := hid, targetClientId := htarget, idempotencyKey := hkey
      attempt := hattempt, requestedBy := by simpa using hreq, created := hc, updated := hu
      completed := by simpa [Option.any_eq_false] using hdone
      leaseOwner := howner, leaseDeadline := hdl, restart := hrestart, awaiting := hawait
      fields := by simpa using hfields }
  · intro h
    exact ⟨h.schema, h.taskId, h.targetClientId, h.idempotencyKey, h.attempt,
      by simpa using h.requestedBy,
      ⟨h.created, h.updated, by simpa [Option.any_eq_false] using h.completed⟩, h.leaseOwner,
      h.leaseDeadline, h.restart, h.awaiting, by simpa using h.fields⟩

theorem Valid.result_validate (h : task.Valid) :
    ∀ result ∈ task.result, result.validate = .ok () := by
  intro result hresult
  have hfields := h.fields
  rw [Option.mem_def] at hresult
  cases hstate : task.state <;>
    simp [stateFieldsValid, activePayloadEmpty, hstate, hresult] at hfields
  -- only a task that succeeded has a result
  cases hv : result.validate with
  | ok u => rfl
  | error e => simp [hv, Except.toOption] at hfields

/-- What a valid task in the hands of a worker looks like. -/
structure LeasedShape (task : RemoteUpdateTask) : Prop where
  result : task.result = none
  errorCode : task.errorCode = none
  completed : task.completedUnixSeconds = none
  leasePresent : task.leasePresent = true
  stage : task.stage = .claimed ∨ task.stageExecutes = true
  cancel : task.cancelRequested = (task.state == .cancelRequested)
  running : task.state = .running → task.stageExecutes = true
  claimed : task.state = .claimed → task.stage = .claimed

theorem Valid.leasedShape (h : task.Valid)
    (hleased : task.state.isLeased = true) : LeasedShape task := by
  have hfields := h.fields
  cases hstate : task.state <;>
    simp [stateFieldsValid, activePayloadEmpty, RemoteUpdateTaskState.isLeased, hstate]
      at hfields hleased
  · obtain ⟨⟨⟨⟨hstage, hlease⟩, -⟩, hcancel⟩, ⟨hresult, herror⟩, hdone⟩ := hfields
    exact ⟨hresult, herror, hdone, hlease, .inl hstage, by simp [hcancel, hstate],
      by simp [hstate], fun _ => hstage⟩
  · obtain ⟨⟨⟨⟨hstage, hlease⟩, -⟩, hcancel⟩, ⟨hresult, herror⟩, hdone⟩ := hfields
    exact ⟨hresult, herror, hdone, hlease, .inr hstage, by simp [hcancel, hstate],
      fun _ => hstage, by simp [hstate]⟩
  · obtain ⟨⟨⟨⟨hstage, hlease⟩, -⟩, hcancel⟩, ⟨hresult, herror⟩, hdone⟩ := hfields
    exact ⟨hresult, herror, hdone, hlease, hstage, by simp [hcancel, hstate],
      by simp [hstate], by simp [hstate]⟩

/-- What a valid task in the queue looks like. -/
structure QueuedShape (task : RemoteUpdateTask) : Prop where
  stage : task.stage = .queued
  result : task.result = none
  errorCode : task.errorCode = none
  completed : task.completedUnixSeconds = none
  restart : task.restart = none
  leasePresent : task.leasePresent = false
  cancel : task.cancelRequested = false

theorem Valid.queuedShape (h : task.Valid) (hqueued : task.state = .queued) : QueuedShape task := by
  have hfields := h.fields
  simp [stateFieldsValid, activePayloadEmpty, hqueued] at hfields
  obtain ⟨⟨⟨⟨hstage, hlease⟩, hrestart⟩, hcancel⟩, ⟨hresult, herror⟩, hdone⟩ := hfields
  exact ⟨hstage, hresult, herror, hdone, hrestart, hlease, hcancel⟩

end RemoteUpdateTask

/-! ## Events -/

/-- One entry of a task's append-only log. -/
structure RemoteUpdateTaskEvent where
  schemaVersion : ℕ
  eventId : Uuid
  taskId : Uuid
  sequence : ℕ
  kind : RemoteUpdateEventKind
  state : RemoteUpdateTaskState
  stage : RemoteUpdateStage
  recoveryState : RemoteUpdateRecoveryState
  errorCode : Option RemoteUpdateErrorCode
  createdUnixSeconds : ℕ
  deriving DecidableEq, Repr

namespace RemoteUpdateTaskEvent

/-- The check of one event of the task `expectedTaskId`. -/
def validate (event : RemoteUpdateTaskEvent) (expectedTaskId : Uuid) :
    Except RemoteUpdateContractError Unit := do
  rejectIf (event.schemaVersion ≠ remoteUpdateContractVersion) .unsupportedSchema
  validateNonNilUuid event.eventId
  validateNonNilUuid event.taskId
  rejectIf (event.taskId ≠ expectedTaskId ∨ event.sequence = 0 ∨ event.createdUnixSeconds = 0)
    .invalidTaskEvent
  rejectIf (¬ event.state.allowsStage event.stage) .invalidTaskEvent

/-- What it takes for an event to pass its check. -/
structure Valid (event : RemoteUpdateTaskEvent) (expectedTaskId : Uuid) : Prop where
  schema : event.schemaVersion = remoteUpdateContractVersion
  eventId : event.eventId.isNil = false
  taskId_ne_nil : event.taskId.isNil = false
  taskId : event.taskId = expectedTaskId
  sequence : event.sequence ≠ 0
  created : event.createdUnixSeconds ≠ 0
  stage : event.state.allowsStage event.stage = true

theorem validate_eq_ok {event : RemoteUpdateTaskEvent} {expectedTaskId : Uuid} :
    event.validate expectedTaskId = .ok () ↔ event.Valid expectedTaskId := by
  simp only [validate, validateNonNilUuid, bind_unit_eq_ok, rejectIf_eq_ok, not_or, ne_eq,
    not_not, Bool.not_eq_true, Bool.not_eq_false]
  constructor
  · rintro ⟨h1, h2, h3, ⟨h4, h5, h6⟩, h7⟩
    exact ⟨h1, h2, h3, h4, h5, h6, h7⟩
  · intro h
    exact ⟨h.schema, h.eventId, h.taskId_ne_nil, ⟨h.taskId, h.sequence, h.created⟩, h.stage⟩

end RemoteUpdateTaskEvent

/-- A task with its events, oldest first. -/
structure RemoteUpdateTaskDetail where
  task : RemoteUpdateTask
  events : List RemoteUpdateTaskEvent
  deriving DecidableEq, Repr

namespace RemoteUpdateTaskDetail

/-- The loop over the events: each is well formed and has a later sequence number than the one
before it. -/
def validateEvents (expectedTaskId : Uuid) :
    ℕ → List RemoteUpdateTaskEvent → Except RemoteUpdateContractError Unit
  | _, [] => .ok ()
  | previousSequence, event :: events => do
    event.validate expectedTaskId
    rejectIf (event.sequence ≤ previousSequence) .invalidTaskEvent
    validateEvents expectedTaskId event.sequence events

/-- The check of a task with its events: the last event shows the task as it is. -/
def validate [SemVer] (detail : RemoteUpdateTaskDetail) (expectedTaskId : Uuid) :
    Except RemoteUpdateContractError Unit := do
  detail.task.validate
  rejectIf (detail.task.taskId ≠ expectedTaskId ∨ detail.events.isEmpty
      ∨ detail.events.length > remoteUpdateMaxEventsPerTask)
    .invalidTaskEvent
  validateEvents expectedTaskId 0 detail.events
  let last ← okOr detail.events.getLast? .invalidTaskEvent
  rejectIf (last.state ≠ detail.task.state ∨ last.stage ≠ detail.task.stage
      ∨ last.recoveryState ≠ detail.task.recoveryState
      ∨ last.errorCode ≠ detail.task.errorCode)
    .invalidTaskEvent

variable {events : List RemoteUpdateTaskEvent} {expectedTaskId : Uuid} {previous : ℕ}

theorem validate_of_validateEvents (h : validateEvents expectedTaskId previous events = .ok ()) :
    ∀ event ∈ events, event.validate expectedTaskId = .ok () := by
  induction events generalizing previous with
  | nil => simp
  | cons event events ih =>
    simp only [validateEvents, bind_unit_eq_ok] at h
    simpa [h.1] using ih h.2.2

theorem validateEvents_eq_ok (hvalid : ∀ event ∈ events, event.Valid expectedTaskId)
    (hlater : ∀ event ∈ events, previous < event.sequence)
    (hsorted : events.Pairwise fun a b => a.sequence < b.sequence) :
    validateEvents expectedTaskId previous events = .ok () := by
  induction events generalizing previous with
  | nil => rfl
  | cons event events ih =>
    rw [List.pairwise_cons] at hsorted
    rw [validateEvents, RemoteUpdateTaskEvent.validate_eq_ok.mpr (hvalid event (by simp)), ok_bind,
      rejectIf_of_not (not_le.mpr (hlater event (by simp))), ok_bind]
    exact ih (fun e he => hvalid e (by simp [he])) hsorted.1 hsorted.2

end RemoteUpdateTaskDetail

/-! ## Requests and responses -/

/-- The request to create a task. -/
structure CreateRemoteUpdateTaskRequest where
  targetClientId : Uuid
  action : RemoteUpdateAction
  idempotencyKey : String
  confirmation : String
  deriving DecidableEq, Repr

def CreateRemoteUpdateTaskRequest.validate (request : CreateRemoteUpdateTaskRequest) :
    Except RemoteUpdateContractError Unit := do
  validateNonNilUuid request.targetClientId
  validateIdempotencyKey request.idempotencyKey
  rejectIf (request.confirmation ≠ request.action.confirmationPhrase) .confirmationMismatch

/-- The request to cancel a task. -/
structure CancelRemoteUpdateTaskRequest where
  confirmation : String
  deriving DecidableEq, Repr

def CancelRemoteUpdateTaskRequest.validate (request : CancelRemoteUpdateTaskRequest) :
    Except RemoteUpdateContractError Unit :=
  rejectIf (request.confirmation ≠ remoteUpdateCancelConfirmation) .confirmationMismatch

/-- The request for the next task of a client. -/
structure RemoteUpdateClaimRequest where
  workerInstanceId : Uuid
  requestedLeaseSeconds : ℕ
  deriving DecidableEq, Repr

def RemoteUpdateClaimRequest.validate (request : RemoteUpdateClaimRequest) :
    Except RemoteUpdateContractError Unit := do
  validateNonNilUuid request.workerInstanceId
  validateLeaseSeconds request.requestedLeaseSeconds

/-- A task handed out to a worker, with the token that proves the lease. -/
structure RemoteUpdateClaim where
  task : RemoteUpdateTask
  leaseToken : Uuid
  leaseDeadlineUnixSeconds : ℕ
  deriving DecidableEq, Repr

/-- The request to keep a lease, which may also move the stage. -/
structure RemoteUpdateLeaseRenewRequest where
  workerInstanceId : Uuid
  leaseToken : Uuid
  requestedLeaseSeconds : ℕ
  stage : RemoteUpdateStage
  deriving DecidableEq, Repr

def RemoteUpdateLeaseRenewRequest.validate (request : RemoteUpdateLeaseRenewRequest)
    (action : RemoteUpdateAction) : Except RemoteUpdateContractError Unit := do
  validateNonNilUuid request.workerInstanceId
  validateNonNilUuid request.leaseToken
  validateLeaseSeconds request.requestedLeaseSeconds
  rejectIf (¬ request.stage.validForActiveLease action) .invalidStage

/-- The answer to a renewal. -/
structure RemoteUpdateLeaseRenewResponse where
  taskId : Uuid
  leaseDeadlineUnixSeconds : ℕ
  cancelRequested : Bool
  deriving DecidableEq, Repr

/-- The question of a restarted worker what became of its task. -/
structure RemoteUpdateReconcileRequest where
  workerInstanceId : Uuid
  leaseToken : Uuid
  action : RemoteUpdateAction
  plan : RemoteUpdateRestartPlan
  deriving DecidableEq, Repr

def RemoteUpdateReconcileRequest.validate [SemVer] (request : RemoteUpdateReconcileRequest) :
    Except RemoteUpdateContractError Unit := do
  validateNonNilUuid request.workerInstanceId
  validateNonNilUuid request.leaseToken
  rejectIf (request.action.requiresRestart = false) .invalidTransition
  request.plan.validate request.action

/-- Whether a reconciled task still runs. -/
inductive RemoteUpdateReconcileState
  | active | terminal
  deriving DecidableEq, Repr

/-- The answer to a restarted worker. -/
structure RemoteUpdateReconcileResponse where
  state : RemoteUpdateReconcileState
  task : RemoteUpdateTask
  deriving DecidableEq, Repr

/-- A report with the identity of its sender. -/
structure RemoteUpdateReportRequest where
  workerInstanceId : Uuid
  leaseToken : Uuid
  report : RemoteUpdateWorkerReport
  deriving DecidableEq, Repr

def RemoteUpdateReportRequest.validate [SemVer] (request : RemoteUpdateReportRequest)
    (action : RemoteUpdateAction) : Except RemoteUpdateContractError Unit := do
  validateNonNilUuid request.workerInstanceId
  validateNonNilUuid request.leaseToken
  request.report.validate action

end LinkLake
