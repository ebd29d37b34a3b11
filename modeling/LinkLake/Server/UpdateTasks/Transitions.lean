import LinkLake.Core.RemoteUpdate

/-!
# Transitions of a remote-update task

The part of the update server's task ledger that both storage backends share: its errors, the
digests it stores in place of tokens and reports, who may act on a lease, and what a lost lease, a
worker's report, a renewal or a cancellation makes of a task snapshot. Nothing here touches
storage.

Digests come from a library, and so does the encoding of the reports that are digested; `Digests`
stands for both.
-/

namespace LinkLake.UpdateTasks

open Fallible

/-! ## Limits and errors -/

/-- The most tasks one listing returns. -/
def maxTaskListLimit : ℕ := 500

/-- The most tasks a ledger keeps. -/
def maxRetainedTasks : ℕ := 100000

/-- The most events a task may have. -/
def maxEventsPerTask : ℕ := 128

/-- How often a task may be handed out. -/
def maxClaimAttempts : ℕ := 16

/-- The most renewals a task's log records. -/
def maxLeaseEventsPerTask : ℕ := 8

/-- The most replays a task's log records. -/
def maxReplayEventsPerTask : ℕ := 4

/-- The most restarts a task's log records. -/
def maxRestartEventsPerTask : ℕ := 4

/-- Why an operation of the ledger fails. -/
inductive UpdateTaskError
  | contract (error : RemoteUpdateContractError)
  | targetNotFound | invalidRequester | taskNotFound | targetBusy | idempotencyConflict
  | leaseConflict | leaseExpired | invalidTransition | capacityExceeded | notLeader | storage
  deriving DecidableEq, Repr

/-- A broken contract, as the ledger reports it. -/
def contract {α : Type} : Except RemoteUpdateContractError α → Except UpdateTaskError α
  | .ok a => .ok a
  | .error e => .error (.contract e)

/-- A broken contract in what storage holds. -/
def stored {α : Type} : Except RemoteUpdateContractError α → Except UpdateTaskError α
  | .ok a => .ok a
  | .error _ => .error .storage

@[simp] theorem contract_eq_ok {α : Type} {x : Except RemoteUpdateContractError α} {a : α} :
    contract x = .ok a ↔ x = .ok a := by
  cases x <;> simp [contract]

@[simp] theorem stored_eq_ok {α : Type} {x : Except RemoteUpdateContractError α} {a : α} :
    stored x = .ok a ↔ x = .ok a := by
  cases x <;> simp [stored]

/-! ## Clock readings -/

/-- Clock readings are stored as signed 64-bit integers. -/
def nowI64 (value : ℕ) : Except UpdateTaskError Unit := rejectIf (2 ^ 63 ≤ value) .storage

/-- A sum of clock readings that fits an unsigned 64-bit integer. -/
def checkedAdd (now seconds : ℕ) : Except UpdateTaskError ℕ := do
  rejectIf (2 ^ 64 ≤ now + seconds) .storage
  pure (now + seconds)

/-- The end of a lease that begins now. -/
def checkedDeadline (now leaseSeconds : ℕ) : Except UpdateTaskError ℕ :=
  checkedAdd now leaseSeconds

@[simp] theorem nowI64_eq_ok {value : ℕ} {u : Unit} : nowI64 value = .ok u ↔ value < 2 ^ 63 := by
  simp [nowI64]

theorem checkedAdd_eq_ok {now seconds sum : ℕ} :
    checkedAdd now seconds = .ok sum ↔ now + seconds < 2 ^ 64 ∧ sum = now + seconds := by
  simp only [checkedAdd, bind_unit_eq_ok, rejectIf_eq_ok, pure_eq_ok, not_le]
  exact and_congr_right fun _ => eq_comm

/-! ## Digests -/

/-- A SHA-256 digest. It is stored as its 64 lower-case hexadecimal digits, which determine it. -/
structure Sha256Digest where
  /-- The digest as a word. -/
  val : BitVec 256
  deriving DecidableEq, Repr

/-- The digest function, and the encoding of the reports that are digested. -/
class Digests where
  /-- The SHA-256 digest of a message. -/
  sha256 : List UInt8 → Sha256Digest
  /-- The JSON text of a report. -/
  reportJson : RemoteUpdateWorkerReport → List UInt8

/-- The UTF-8 bytes of a text. -/
def textBytes (text : String) : List UInt8 := text.toUTF8.data.toList

/-- The name of an action in storage. -/
def actionText : RemoteUpdateAction → String
  | .check => "check"
  | .download => "download"
  | .apply => "apply"
  | .status => "status"
  | .recover => "recover"
  | .rollback => "rollback"

section Digests

variable [Digests]

/-- What a request to create a task is recognised by when its idempotency key comes again. -/
def requestFingerprint (request : CreateRemoteUpdateTaskRequest) (requestedBy : String) :
    Sha256Digest :=
  Digests.sha256 (textBytes "linklake-remote-update-request-v1\x00"
    ++ request.targetClientId.asBytes ++ textBytes (actionText request.action) ++ [0]
    ++ textBytes requestedBy)

/-- What is stored of a lease token. -/
def leaseTokenSha256 (token : Uuid) : Sha256Digest :=
  Digests.sha256 (textBytes "linklake-remote-update-lease-v1\x00" ++ token.asBytes)

/-- What is stored of the report that ended a task. -/
def workerReportSha256 (report : RemoteUpdateWorkerReport) : Sha256Digest :=
  Digests.sha256 (textBytes "linklake-remote-update-terminal-report-v1\x00"
    ++ Digests.reportJson report)

/-- Who ended a task, with which lease and which report. -/
structure TerminalReportReplay where
  workerInstanceId : Uuid
  leaseTokenSha256 : Sha256Digest
  reportSha256 : Sha256Digest
  deriving DecidableEq, Repr

/-- The record of the request that ends a task. -/
def TerminalReportReplay.fromRequest (request : RemoteUpdateReportRequest) :
    TerminalReportReplay where
  workerInstanceId := request.workerInstanceId
  leaseTokenSha256 := UpdateTasks.leaseTokenSha256 request.leaseToken
  reportSha256 := workerReportSha256 request.report

end Digests

section Authority

variable [SemVer] [Digests]

/-- A requester is named by 1 to 128 bytes without control characters. -/
def validateRequestedBy (value : String) : Except UpdateTaskError Unit :=
  rejectIf (¬ requesterValid value) .invalidRequester

/-- The first half of the authorisation: the task is leased to this worker, and not expired. -/
def authorizeLeaseOwner (task : RemoteUpdateTask) (workerInstanceId : Uuid) (now : ℕ) :
    Except UpdateTaskError Unit := do
  rejectIf (task.state.isLeased = false ∨ task.leaseOwner ≠ some workerInstanceId) .leaseConflict
  rejectIf (task.leaseDeadlineUnixSeconds.all (· ≤ now)) .leaseExpired

/-- The whole authorisation, against the stored digest of the token. -/
def authorizeLeaseToken (task : RemoteUpdateTask) (stored : Option Sha256Digest)
    (workerInstanceId leaseToken : Uuid) (now : ℕ) : Except UpdateTaskError Unit := do
  authorizeLeaseOwner task workerInstanceId now
  rejectIf (stored ≠ some (leaseTokenSha256 leaseToken)) .leaseConflict

/-- A report on an ended task repeats the one that ended it. -/
def validateTerminalReportReplay (stored : TerminalReportReplay)
    (request : RemoteUpdateReportRequest) : Except UpdateTaskError Unit := do
  rejectIf (stored.workerInstanceId ≠ request.workerInstanceId
    ∨ stored.leaseTokenSha256 ≠ leaseTokenSha256 request.leaseToken) .leaseConflict
  rejectIf (stored.reportSha256 ≠ workerReportSha256 request.report) .invalidTransition

/-- A restarted worker asks about a task that it ended itself, as planned. -/
def validateTerminalReconcile (task : RemoteUpdateTask) (stored : TerminalReportReplay)
    (request : RemoteUpdateReconcileRequest) : Except UpdateTaskError Unit := do
  rejectIf (stored.workerInstanceId ≠ request.workerInstanceId
    ∨ stored.leaseTokenSha256 ≠ leaseTokenSha256 request.leaseToken) .leaseConflict
  rejectIf (task.state = .succeeded ∧ ¬ task.result.any (·.matchesRestartPlan request.plan))
    .invalidTransition

/-- A restarted worker asks about a task that waits for it, under the plan it left. -/
def validateActiveReconcile (task : RemoteUpdateTask) (request : RemoteUpdateReconcileRequest) :
    Except UpdateTaskError Unit := do
  let binding ← okOr task.restart .invalidTransition
  rejectIf (task.stage ≠ .awaitingRestart ∨ ¬ binding.agreesWith request.plan) .invalidTransition

/-- The stages a renewal may move between. -/
def validRenewTransition (current requested : RemoteUpdateStage) (action : RemoteUpdateAction) :
    Bool :=
  (current == .claimed && (requested == .claimed || requested == action.executionStage))
    || (current == action.executionStage && (requested == current
      || (requested == .awaitingRestart && action.changesInstallation)))
    || (current == .awaitingRestart && requested == current)

/-- A report has to fit the stage its task is in. -/
def validateWorkerReportTransition (report : RemoteUpdateWorkerReport)
    (action : RemoteUpdateAction) (stage : RemoteUpdateStage) (cancelRequested : Bool) :
    Except UpdateTaskError Unit :=
  match report.validateForTask action stage cancelRequested with
  | .ok () => .ok ()
  | .error .invalidTransition => .error .invalidTransition
  | .error error => .error (.contract error)

end Authority

/-! ## What becomes of a task -/

/-- The task without its lease. -/
def clearTaskLease (task : RemoteUpdateTask) : RemoteUpdateTask :=
  { task with leaseOwner := none, leaseDeadlineUnixSeconds := none, restart := none }

/-- Whether a task can be cancelled without leaving an unknown installation behind. -/
def cancellationIsKnownSafe (task : RemoteUpdateTask) : Bool :=
  task.stage == .claimed || task.action.safeToRequeueAfterLeaseLoss

/-- What a lost lease makes of a task, and the event that records it. -/
def applyLostLease (task : RemoteUpdateTask) (now : ℕ) :
    RemoteUpdateTask × RemoteUpdateEventKind :=
  if task.cancelRequested && cancellationIsKnownSafe task then
    (clearTaskLease { task with
      state := .cancelled, stage := .cancelled, recoveryState := .none
      errorCode := some .cancelled, completedUnixSeconds := some now
      updatedUnixSeconds := now, restart := none }, .cancelled)
  else if task.action.safeToRequeueAfterLeaseLoss then
    (clearTaskLease { task with
      state := .queued, stage := .queued, recoveryState := .retryable, errorCode := none
      updatedUnixSeconds := now, restart := none }, .leaseExpiredRequeued)
  else
    (clearTaskLease { task with
      state := .failed, stage := .failed, recoveryState := .failedClosed
      errorCode := some .failedClosed, completedUnixSeconds := some now
      updatedUnixSeconds := now, restart := none }, .leaseExpiredFailedClosed)

/-- The task that waits for its worker's restart until `resumeDeadline`. -/
def awaitRestart (task : RemoteUpdateTask) (plan : RemoteUpdateRestartPlan)
    (now resumeDeadline : ℕ) : RemoteUpdateTask :=
  { task with
    state := .running, stage := .awaitingRestart
    leaseDeadlineUnixSeconds := some resumeDeadline
    restart := some {
      operationId := plan.operationId, operation := plan.operation
      fromVersion := plan.fromVersion, toVersion := plan.toVersion
      preparedUnixSeconds := now, resumeDeadlineUnixSeconds := resumeDeadline }
    updatedUnixSeconds := now }

/-- What a worker's report makes of a task, and the event that records it. -/
def applyWorkerReport [SemVer] (task : RemoteUpdateTask) (report : RemoteUpdateWorkerReport)
    (now : ℕ) : Except UpdateTaskError (RemoteUpdateTask × RemoteUpdateEventKind) :=
  match report with
  | .started stage =>
    if !task.cancelRequested && task.stage == .claimed && stage == task.action.executionStage then
      .ok ({ task with state := .running, stage := stage, updatedUnixSeconds := now },
        .stageReported)
    else .error .invalidTransition
  | .awaitingRestart plan =>
    if !task.cancelRequested && task.action.requiresRestart
        && task.stage == task.action.executionStage then do
      let resumeDeadline ← checkedAdd now remoteUpdateRestartResumeSeconds
      contract (plan.validate task.action)
      .ok (awaitRestart task plan now resumeDeadline, .stageReported)
    else if task.action.requiresRestart && task.stage == .awaitingRestart
        && task.restart.any (·.agreesWith plan) then
      .ok ({ task with updatedUnixSeconds := now }, .restartReconciled)
    else .error .invalidTransition
  | .succeeded result =>
    if (task.state == .running || task.state == .cancelRequested) && task.stage.isExecuting then
      .ok (clearTaskLease { task with
        state := .succeeded, stage := .completed
        recoveryState := RemoteUpdateTask.successRecoveryState task.action
        result := some result, errorCode := none, updatedUnixSeconds := now
        completedUnixSeconds := some now, restart := none }, .succeeded)
    else .error .invalidTransition
  | .failed errorCode recoveryState =>
    if task.state == .running || task.state == .cancelRequested then
      .ok (clearTaskLease { task with
        state := .failed, stage := .failed, recoveryState := recoveryState
        errorCode := some errorCode, result := none, updatedUnixSeconds := now
        completedUnixSeconds := some now, restart := none }, .failed)
    else .error .invalidTransition
  | .cancelled =>
    if task.cancelRequested && cancellationIsKnownSafe task then
      .ok (clearTaskLease { task with
        state := .cancelled, stage := .cancelled, recoveryState := .none
        errorCode := some .cancelled, result := none, updatedUnixSeconds := now
        completedUnixSeconds := some now, restart := none }, .cancelled)
    else .error .invalidTransition

end LinkLake.UpdateTasks
