import LinkLake.Updater.Transaction.Helper

/-!
# Recovery and verification

What is called after an update, or after what a crash has left of it: `recover` for the client and the
manager, `serverRecover` for the server, and `verifyCompletedUpdate`, which reports a completed update
of the client or the manager.

All three read the journal. `writeOperationJournal` puts the journal of a client or a manager into an
envelope, but `recover` and `verifyCompletedUpdate` read it as a bare journal, with
`readDurableJson`.
-/

namespace LinkLake.Updater

/-- The status file, or that there has been no update. -/
def status : Call UpdateStatus := do
  let present ← sys (.exists .status)
  if present then readDurableJson Content.status? .status
  else do
    let version ← sys (.version .target)
    let now ← sys .clock
    return {
      schemaVersion := updateSchemaVersion
      state := "idle"
      operation := none
      fromVersion := some (version.getD "unknown")
      toVersion := none
      message := "no update operation has been scheduled"
      error := none
      backup := none
      updatedUnixSeconds := now }

section Functions

variable (formats : Formats)

/-! ## The client and the manager -/

def validateNonServerRecoveryPlan (active : ActiveUpdate) (plan : HelperPlan) : Call Unit := do
  ensure (plan.schemaVersion == updateSchemaVersion && plan.operationId == active.operationId
    && plan.product == active.product && plan.product != .server && plan.serverDatabase.isNone)
    .recoveryPlanIdentity
  ensure (active.planOperation == plan.operationId) .recoveryPlanIdentity

def validateNonServerRecoveryBackup (plan : HelperPlan) (backupDirectory : BackupName) :
    Call Unit := do
  let metadata ← readDurableJson Content.metadata? (.metadata backupDirectory)
  ensure (metadata.schemaVersion == updateSchemaVersion
    && metadata.operationId == some plan.operationId && metadata.version == plan.fromVersion
    && metadata.sha256 == plan.expectedTargetSha256
    && metadata.databaseSnapshotMetadata.isNone) .backupUnbound
  let present ← sys (.exists (.backup backupDirectory))
  ensure present .backupExecutableMissing
  let digest ← sha256File (.backup backupDirectory)
  ensure (digest == plan.expectedTargetSha256) .backupExecutableDigest
  verifyInstalledVersion (.backup backupDirectory) plan.fromVersion

/-- The journal says that the update has ended: the installed executable must be the one it says. -/
def recoverTerminal (plan : HelperPlan) (digest version : String) (mismatch : UpdateError) :
    Call UpdateStatus := do
  let current ← sha256File .target
  ensure (current == digest) mismatch
  verifyInstalledVersion .target version
  clearActiveMarker formats plan.product plan.operationId
  status

/-- The update was cut off before it had a backup: nothing has been replaced. -/
def recoverBeforeBackup (plan : HelperPlan) (planSha256 : String) : Call UpdateStatus := do
  let current ← sha256File .target
  ensure (current == plan.expectedTargetSha256) .noTrustedBackup
  restartServiceAfterUpdate plan
  writeStatus plan "rolled_back" "interrupted update was recovered before component replacement"
    none none
  writeOperationJournal formats plan planSha256 .recovered none none
  clearActiveMarker formats plan.product plan.operationId
  status

/-- The update was cut off after it had a backup: the previous executable is put back. -/
def recoverFromBackup (plan : HelperPlan) (planSha256 : String)
    (backupDirectory : Option BackupName) : Call UpdateStatus := do
  let backupDirectory ← expect .noBackupRecorded backupDirectory
  validateNonServerRecoveryBackup plan backupDirectory
  restoreAfterFailure formats plan backupDirectory planSha256
  writeStatus plan "rolled_back" "interrupted update was restored from its bound backup" none
    (some backupDirectory)
  writeOperationJournal formats plan planSha256 .recovered (some backupDirectory) none
  clearActiveMarker formats plan.product plan.operationId
  status

def recoverStage (plan : HelperPlan) (planSha256 : String) (journal : UpdateJournal) :
    Call UpdateStatus :=
  match journal.stage with
  | .completed => recoverTerminal formats plan plan.stagedSha256 plan.toVersion .completedMismatch
  | .rolledBack | .failedBeforeReplacement | .recovered =>
    recoverTerminal formats plan plan.expectedTargetSha256 plan.fromVersion .terminalMismatch
  | .scheduled =>
    if journal.backupDirectory.isNone then recoverBeforeBackup formats plan planSha256
    else throw .unknownStage
  | .helperStarted | .serviceStopped =>
    if journal.backupDirectory.isNone then recoverBeforeBackup formats plan planSha256
    else recoverFromBackup formats plan planSha256 journal.backupDirectory
  | .backupCreated | .recoveryRequired =>
    recoverFromBackup formats plan planSha256 journal.backupDirectory
  | _ => throw .unknownStage

/-- The plan that an active marker refers to. -/
def readActivePlan (active : ActiveUpdate) (mismatch : UpdateError) : Call Content := do
  let content ← readContent (.plan active.planOperation)
  ensure (isSha256 active.planSha256) .malformedSha256
  ensure (formats.sha256 content == active.planSha256) mismatch
  return content

/-- Recover an active update of the client or the manager. -/
def recoverActive (product : UpdateProduct) : Call UpdateStatus := do
  let active ← readDurableJson Content.active? .active
  ensure (active.schemaVersion == updateSchemaVersion && active.product == product)
    .unsupportedMarker
  let _ ← readActivePlan formats active .activePlanDigest
  let plan ← readDurableJson Content.plan? (.plan active.planOperation)
  validateNonServerRecoveryPlan active plan
  let journal ← readDurableJson Content.journal? (.journal plan.operationId)
  ensure (journal.schemaVersion == updateJournalSchemaVersion
    && journal.operationId == plan.operationId && journal.planSha256 == active.planSha256
    && journal.product == product && journal.operation == plan.operation) .journalUnbound
  recoverStage formats plan active.planSha256 journal

def recover (product : UpdateProduct) (confirmed : Bool) : Call UpdateStatus := do
  ensure (product != .server) .serverRecoverySpecific
  ensure confirmed .unconfirmed
  acquireLock
  let present ← sys (.exists .active)
  if present then recoverActive formats product else status

/-! ## Verification -/

structure CompletedUpdateVerification where
  operationId : Uuid
  operation : String
  fromVersion : String
  toVersion : String
  installedSha256 : String
  backupSha256 : String
  backupDirectory : BackupName
  verifiedUnixSeconds : ℕ

def verifyCompletedUpdate (product : UpdateProduct) (expectedOperationId : Uuid) :
    Call CompletedUpdateVerification := do
  ensure (product != .server) .serverVerificationSpecific
  ensure (!expectedOperationId.isNil) .nilOperation
  acquireLock
  let present ← sys (.exists .active)
  ensure (!present) .helperNotCompleted
  let content ← readContent (.plan expectedOperationId)
  let plan ← readDurableJson Content.plan? (.plan expectedOperationId)
  ensure (plan.schemaVersion == updateSchemaVersion && plan.operationId == expectedOperationId
    && plan.product == product && plan.product != .server && plan.serverDatabase.isNone)
    .completedPlanUnbound
  let journal ← readDurableJson Content.journal? (.journal expectedOperationId)
  ensure (journal.schemaVersion == updateJournalSchemaVersion
    && journal.operationId == expectedOperationId && journal.product == product
    && journal.operation == plan.operation && journal.planSha256 == formats.sha256 content
    && journal.stage == .completed) .completedJournalUnbound
  let status ← status
  ensure (status.schemaVersion == updateSchemaVersion
    && status.state == (if plan.operation = .rollback then "rolled_back" else "succeeded")
    && status.operation == some (operationName plan.operation)
    && status.fromVersion == some plan.fromVersion && status.toVersion == some plan.toVersion
    && status.error.isNone) .completedStatusInconsistent
  validateTargetExecutable
  let installedSha256 ← sha256File .target
  ensure (installedSha256 == plan.stagedSha256) .completedDigest
  verifyInstalledVersion .target plan.toVersion
  let backupDirectory ← expect .completedWithoutBackup journal.backupDirectory
  validateNonServerRecoveryBackup plan backupDirectory
  ensure (status.backup == some backupDirectory) .completedBackupMismatch
  return {
    operationId := expectedOperationId
    operation := operationName plan.operation
    fromVersion := plan.fromVersion
    toVersion := plan.toVersion
    installedSha256 := installedSha256
    backupSha256 := plan.expectedTargetSha256
    backupDirectory := backupDirectory
    verifiedUnixSeconds := status.updatedUnixSeconds }

/-! ## The server -/

structure ServerRecoveryConsent where
  restoreAfterCandidateHandoff : Bool
  confirmDataLoss : Bool
  deriving DecidableEq

/-- The stages in which the candidate may have accepted writes. -/
def Stage.needsConsent : Stage → Bool
  | .candidateStarting | .candidateStarted | .candidateReady | .recoveryRequired => true
  | _ => false

/-- The stages in which a server's update has ended. -/
def Stage.isTerminal : Stage → Bool
  | .completed | .rolledBack | .recovered | .failedBeforeReplacement | .helperSpawnFailed => true
  | _ => false

def serverRecoverTerminal (plan : HelperPlan) : Call UpdateStatus := do
  clearServerReadinessContract
  clearActiveMarker formats .server plan.operationId
  status

def serverRecoverWithoutBackup (plan : HelperPlan) (planSha256 : String) : Call UpdateStatus := do
  let current ← sha256File .target
  ensure (current == plan.expectedTargetSha256) .noAuthenticatedBackup
  writeStatus plan "failed" "interrupted update stopped before creating a replacement backup"
    (some .nothingReplaced) none
  writeOperationJournal formats plan planSha256 .failedBeforeReplacement none
    (some .noReplacementBackup)
  clearActiveMarker formats .server plan.operationId
  status

def serverRecoverFailed (plan : HelperPlan) (planSha256 : String) (backupDirectory : BackupName)
    (error : UpdateError) : Call UpdateStatus := do
  let _ ← outcome (writeOperationJournal formats plan planSha256 .recoveryRequired
    (some backupDirectory) (some error))
  let _ ← outcome (writeStatus plan "failed"
    "interrupted update could not be restored automatically" (some error)
    (some backupDirectory))
  throw (.recoveryFailed error)

def serverRecoverFromBackup (plan : HelperPlan) (planSha256 : String)
    (backupDirectory : BackupName) : Call UpdateStatus := do
  match ← outcome (restoreAfterFailure formats plan backupDirectory planSha256) with
  | .ok _ => do
    writeStatus plan "rolled_back" ("interrupted update was recovered to the authenticated " ++
      "previous server and database snapshot") none (some backupDirectory)
    writeOperationJournal formats plan planSha256 .recovered (some backupDirectory) none
    clearActiveMarker formats .server plan.operationId
    status
  | .error error => serverRecoverFailed formats plan planSha256 backupDirectory error

def serverRecoverStage (plan : HelperPlan) (planSha256 : String) (journal : UpdateJournal)
    (consent : ServerRecoveryConsent) : Call UpdateStatus := do
  ensure (!journal.stage.needsConsent
    || (consent.restoreAfterCandidateHandoff && consent.confirmDataLoss)) .consentRequired
  if journal.stage.isTerminal then serverRecoverTerminal formats plan
  else match journal.backupDirectory with
    | none => serverRecoverWithoutBackup formats plan planSha256
    | some backupDirectory => serverRecoverFromBackup formats plan planSha256 backupDirectory

/-- Recover an active update of the server. -/
def serverRecoverActive (consent : ServerRecoveryConsent) : Call UpdateStatus := do
  let active ← readServerAuthenticatedJson formats Content.active? .active .activeMarker
  ensure (active.schemaVersion == updateSchemaVersion && active.product == .server)
    .unsupportedServerMarker
  let _ ← readActivePlan formats active .activeServerPlanDigest
  let plan ← readServerAuthenticatedJson formats Content.plan? (.plan active.planOperation)
    .helperPlan
  ensure (plan.schemaVersion == updateSchemaVersion && plan.operationId == active.operationId
    && plan.product == .server && plan.operationId == active.planOperation) .serverPlanUnbound
  ensure plan.serverDatabase.isSome .noTransaction
  let installed ← sys (.exists .target)
  ensure installed .targetNotInstalled
  let journal ← readServerAuthenticatedJson formats Content.journal? (.journal plan.operationId)
    .operationJournal
  ensure (journal.schemaVersion == updateJournalSchemaVersion
    && journal.operationId == plan.operationId && journal.product == .server
    && journal.operation == plan.operation && journal.planSha256 == active.planSha256)
    .serverJournalUnbound
  serverRecoverStage formats plan active.planSha256 journal consent

def serverRecover (confirmed : Bool) (consent : ServerRecoveryConsent) : Call UpdateStatus := do
  ensure confirmed .serverUnconfirmed
  acquireLock
  let present ← sys (.exists .active)
  if present then serverRecoverActive formats consent else status

/-! ## Updates -/

/-- An update that was scheduled, and that the helper has worked on, up to an error, a crash or its
end. -/
inductive Update (schedule : Schedule) : World → World → Prop
  | scheduled {w0 w : World} {r : Option (Except UpdateError String)}
      (h : (system formats).Ends anywhere (scheduleUpdate formats schedule).run w0 r w) :
      Update schedule w0 w
  | helped {w0 w1 w : World} {r : Option (Except UpdateError String)} {planSha256 : String}
      {r' : Option (Except UpdateError Unit)}
      (h : (system formats).Ends anywhere (scheduleUpdate formats schedule).run w0 r w1)
      (h' : (system formats).Ends anywhere
        (runHelper formats schedule.operationId planSha256).run w1 r' w) :
      Update schedule w0 w

end Functions

end LinkLake.Updater
