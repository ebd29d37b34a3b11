import LinkLake.Updater.Transaction

/-!
# Scheduling an update, and the detached helper

The functions of the updater that write the transaction: `scheduleUpdate` writes the plan, the
journal and the active marker, in this order, and starts the helper; `runHelper` replaces the
executable and records each stage in the journal. A server's documents are authenticated: a tag in a
file of its own is written after the document (`writeServerAuthenticatedJson`).

The paths of the plan are names of the model, so the checks that a path is canonical or lies in the
state directory are left out. The key of the authentication is always there.
-/

namespace LinkLake.Updater

/-- The version of plans, markers, statuses and backup metadata. -/
def updateSchemaVersion : ℕ := 3

/-- The version of journals. -/
def updateJournalSchemaVersion : ℕ := 1

/-- The version of the envelope around a journal. -/
def journalSchemaVersion : ℕ := 1

/-- The version of authentication tags. -/
def serverStateAuthSchemaVersion : ℕ := 1

/-- The version of readiness requests and receipts. -/
def serverReadyProtocolVersion : ℕ := 1

/-- The version of snapshot metadata. -/
def serverDatabaseSnapshotMetadataVersion : ℕ := 1

/-! ## Durable files -/

/-- Read a file that has to be there. -/
def readContent (file : FileName) : Call Content := do
  let content ← sys (.read file)
  expect .io content

/-- Read a document and parse it. -/
def readDurableJson {α : Type} (parse : Content → Option α) (file : FileName) : Call α := do
  let content ← readContent file
  expect .malformedJson (parse content)

/-- Write a document in one atomic step. -/
def writeDurableJson (file : FileName) (document : Document) : Call Unit := do
  let written ← sys (.write file document)
  ensure written .io

/-- Remove a file that has to be there. -/
def removeDurableFile (file : FileName) : Call Unit := do
  let removed ← sys (.remove file)
  ensure removed .io

/-- Copy a file over another; a crash may leave half of it. -/
def copyFile (source destination : FileName) : Call Unit := do
  let copied ← sys (.copy source destination)
  ensure copied .io

/-- The digest of a file that has to be there. -/
def sha256File (file : FileName) : Call String := do
  let digest ← sys (.sha256 file)
  expect .io digest

/-- Take the lock of the update state, or give up. -/
def acquireLock : Call Unit := do
  let acquired ← sys .lock
  ensure acquired .locked

/-- Let a call fail without failing. -/
def outcome {α : Type} (x : Call α) : Call (Except UpdateError α) := ExceptT.lift x.run

section Functions

variable (formats : Formats)

/-- `sha256_bytes` of a serialized document. -/
def sha256Document (document : Document) : String := formats.sha256 (.document document)

/-- Write a document of a server and then its tag. -/
def writeServerAuthenticatedJson (file : FileName) (purpose : Purpose) (document : Document) :
    Call Unit := do
  writeDurableJson file document
  writeDurableJson (.authentication file) (.authentication
    { schemaVersion := serverStateAuthSchemaVersion
      purpose := purpose
      payloadSha256 := formats.sha256 (.document document)
      hmacSha256 := formats.hmac purpose (.document document) })

/-- Read a document of a server whose tag has to match. -/
def readServerAuthenticatedJson {α : Type} (parse : Content → Option α) (file : FileName)
    (purpose : Purpose) : Call α := do
  let content ← readContent file
  let authentication ← readDurableJson Content.authentication? (.authentication file)
  ensure (authentication.schemaVersion == serverStateAuthSchemaVersion
    && authentication.purpose == purpose
    && authentication.payloadSha256 == formats.sha256 content) .authenticationMetadata
  ensure (isSha256 authentication.hmacSha256) .malformedSha256
  ensure (authentication.hmacSha256 == formats.hmac purpose content) .authenticationTag
  expect .authenticatedMalformed (parse content)

/-- Remove a document of a server and its tag. -/
def removeServerAuthenticatedState (file : FileName) : Call Unit := do
  removeDurableFile file
  removeDurableFile (.authentication file)

/-- Remove a file if it is there. -/
def removeIfPresent (file : FileName) : Call Unit := do
  let present ← sys (.exists file)
  if present then removeDurableFile file else pure ()

/-- Remove a document of a server and its tag, as far as they are there. -/
def removeServerAuthenticatedStateIfPresent (file : FileName) : Call Unit := do
  removeIfPresent file
  removeIfPresent (.authentication file)

/-- Remove the readiness request and the receipt. -/
def clearServerReadinessContract : Call Unit := do
  removeServerAuthenticatedStateIfPresent .readinessRequest
  removeServerAuthenticatedStateIfPresent .readinessReceipt

/-- Write a document, authenticated if it is a server's. -/
def writeState (product : UpdateProduct) (file : FileName) (purpose : Purpose)
    (document : Document) : Call Unit :=
  if product = .server then writeServerAuthenticatedJson formats file purpose document
  else writeDurableJson file document

/-- Read a document, authenticated if it is a server's. -/
def readState {α : Type} (product : UpdateProduct) (parse : Content → Option α) (file : FileName)
    (purpose : Purpose) : Call α :=
  if product = .server then readServerAuthenticatedJson formats parse file purpose
  else readDurableJson parse file

/-! ## Journal, marker and status -/

/-- Write a journal in its envelope. -/
def writeJournalJson (file : FileName) (journal : UpdateJournal) : Call Unit :=
  writeDurableJson file (.envelope
    { schemaVersion := journalSchemaVersion
      payloadLength := formats.length (.document (.journal journal))
      payloadSha256 := sha256Document formats (.journal journal)
      payload := journal })

/-- The journal of an operation in a stage. -/
def operationJournal (plan : HelperPlan) (planSha256 : String) (stage : Stage)
    (backupDirectory : Option BackupName) (error : Option UpdateError) (now : ℕ) : UpdateJournal where
  schemaVersion := updateJournalSchemaVersion
  operationId := plan.operationId
  planSha256 := planSha256
  product := plan.product
  operation := plan.operation
  stage := stage
  backupDirectory := backupDirectory
  error := error
  updatedUnixSeconds := now

/-- Record a stage: a server keeps a bare journal with a tag, other products keep an envelope. -/
def writeOperationJournal (plan : HelperPlan) (planSha256 : String) (stage : Stage)
    (backupDirectory : Option BackupName) (error : Option UpdateError) : Call Unit := do
  ensure (isSha256 planSha256) .malformedSha256
  let now ← sys .clock
  let journal := operationJournal plan planSha256 stage backupDirectory error now
  if plan.product = .server then
    ensure plan.serverDatabase.isSome .journalWithoutTransaction
    writeServerAuthenticatedJson formats (.journal plan.operationId) .operationJournal
      (.journal journal)
  else writeJournalJson formats (.journal plan.operationId) journal

/-- Remove the active marker, if it belongs to the operation. -/
def clearActiveMarker (product : UpdateProduct) (operationId : Uuid) : Call Unit := do
  let active ← readState formats product Content.active? .active .activeMarker
  ensure (active.schemaVersion == updateSchemaVersion && active.operationId == operationId)
    .markerOfAnotherOperation
  if product = .server then removeServerAuthenticatedState .active else removeDurableFile .active

/-- The status of an operation of a plan. -/
def planStatus (plan : HelperPlan) (state message : String) (error : Option UpdateError)
    (backup : Option BackupName) (now : ℕ) : UpdateStatus where
  schemaVersion := updateSchemaVersion
  state := state
  operation := some (operationName plan.operation)
  fromVersion := some plan.fromVersion
  toVersion := some plan.toVersion
  message := message
  error := error
  backup := backup
  updatedUnixSeconds := now

/-- Write the status that is shown to the user. -/
def writeStatus (plan : HelperPlan) (state message : String) (error : Option UpdateError)
    (backup : Option BackupName) : Call Unit := do
  let now ← sys .clock
  writeDurableJson .status (.status (planStatus plan state message error backup now))

/-! ## Services -/

/-- Stop the service and wait until it has stopped. -/
def stopService (mayRequest : Bool) (timeout : UpdateError) : Call Unit := do
  let error ← sys (.stop mayRequest timeout)
  match error with
  | none => pure ()
  | some error => throw error

/-- Stop the service that the plan found running. -/
def stopServiceForUpdate (plan : HelperPlan) : Call Unit :=
  if plan.serviceInstalled then stopService plan.serviceWasRunning .serviceDidNotStop else pure ()

/-- Stop the candidate, if the product runs as a service. -/
def stopCandidateServiceAfterFailedHandoff (plan : HelperPlan) : Call Unit :=
  if plan.serviceInstalled then stopService true .candidateDidNotStop else pure ()

/-- Start the service and wait until it is active. -/
def startService : Call Unit := do
  let error ← sys .start
  match error with
  | none => pure ()
  | some error => throw error

/-- Start the service again, if the plan found it running. -/
def restartServiceAfterUpdate (plan : HelperPlan) : Call Unit :=
  if plan.serviceInstalled && plan.serviceWasRunning then startService else pure ()

/-! ## Executables -/

/-- The attempts that fit into `HELPER_RETRY_TIMEOUT`: each failure is followed by a sleep of half a
second. -/
def helperRetryAttempts : ℕ := 120

/-- Rename the incoming file into place, and put the replaced one back if that fails. -/
def renameIncoming (hadTarget : Bool) (id : Uuid) : Call Unit := do
  let renamed ← sys (.rename (.incoming id) .target)
  match renamed, hadTarget with
  | true, true => removeDurableFile (.replaced id)
  | true, false => pure ()
  | false, true => do
    let _ ← sys (.rename (.replaced id) .target)
    throw .io
  | false, false => throw .io

/-- One attempt to replace the target. -/
def replaceAttempt (id : Uuid) (allowMissingTarget : Bool) : Call Unit := do
  removeIfPresent (.replaced id)
  let hadTarget ← sys (.exists .target)
  ensure (hadTarget || allowMissingTarget) .targetMissing
  match hadTarget with
  | true => do
    let renamed ← sys (.rename .target (.replaced id))
    ensure renamed .io
    renameIncoming true id
  | false => renameIncoming false id

/-- Copy the source unless an earlier attempt has. -/
def copyIfMissing (source destination : FileName) : Call Unit := do
  let present ← sys (.exists destination)
  if present then pure () else copyFile source destination

/-- Put the replaced executable back if there is no target. -/
def putBack (id : Uuid) : Call Unit := do
  let present ← sys (.exists .target)
  let kept ← sys (.exists (.replaced id))
  if !present && kept then do
    let _ ← sys (.rename (.replaced id) .target)
  else pure ()

/-- Give up: remove what was copied. -/
def giveUp (id : Uuid) (error : UpdateError) : Call Unit := do
  let _ ← sys (.remove (.incoming id))
  putBack id
  throw error

/-- Attempts to replace the installed executable, until one succeeds or none is left. -/
def retryReplace (source : FileName) (id : Uuid) (allowMissingTarget : Bool) : ℕ → Call Unit
  | 0 => do
    match ← outcome (replaceAttempt id allowMissingTarget) with
    | .ok _ => pure ()
    | .error error => giveUp id error
  | attempts + 1 => do
    match ← outcome (replaceAttempt id allowMissingTarget) with
    | .ok _ => pure ()
    | .error error =>
      let expired ← sys .expired
      if expired then giveUp id error
      else do
        copyIfMissing source (.incoming id)
        putBack id
        retryReplace source id allowMissingTarget attempts

/-- Copy the new executable beside the installed one, and then put it in its place. -/
def atomicReplaceWithRetryInner (source : FileName) (allowMissingTarget : Bool) : Call Unit := do
  let id ← sys .newUuid
  copyFile source (.incoming id)
  let expected ← sha256File source
  let actual ← sha256File (.incoming id)
  ensure (actual == expected) .incomingIncomplete
  retryReplace source id allowMissingTarget helperRetryAttempts

/-- Replace an executable that has to be installed. -/
def atomicReplaceWithRetry (source : FileName) : Call Unit :=
  atomicReplaceWithRetryInner source false

/-- Restoring allows for a target that a crash has left renamed. -/
def atomicRestoreWithRetry (source : FileName) : Call Unit :=
  atomicReplaceWithRetryInner source true

/-- The executable has to report the version, unless that is not known. -/
def verifyInstalledVersion (executable : FileName) (expected : String) : Call Unit :=
  if expected = "unknown" then pure ()
  else do
    let version ← sys (.version executable)
    let actual ← expect .versionUnverified version
    ensure (actual == expected) .versionMismatch

/-- There has to be an installed executable. -/
def validateTargetExecutable : Call Unit := do
  let present ← sys (.exists .target)
  ensure present .invalidTarget

/-! ## Databases -/

/-- Ask an executable for the schema and the ledger of the live database. -/
def inspectServerDatabase (binary : FileName) : Call Inspection := do
  let report ← sys (.inspect binary)
  expect .io report

/-- Check the metadata of a snapshot against its operation, its plan and what is on the disk. -/
def validateSnapshotMetadata (metadata : ServerDatabaseSnapshotMetadata)
    (expectedOperationId : Uuid) (expectedPlanSha256 : String) : Call Unit := do
  ensure (metadata.schemaVersion == serverDatabaseSnapshotMetadataVersion) .snapshotVersion
  ensure (metadata.operationId == expectedOperationId) .snapshotOperation
  ensure (isSha256 expectedPlanSha256 && metadata.planSha256 == expectedPlanSha256) .snapshotPlan
  ensure (isSha256 metadata.planSha256 && isSha256 metadata.sourceLedgerSha256
    && isSha256 metadata.snapshotSha256 && isSha256 metadata.rollbackBinarySha256) .snapshotSha256
  let snapshot ← sys (.snapshotSha256 metadata.snapshotDirectory)
  let snapshot ← expect .io snapshot
  ensure (snapshot == metadata.snapshotSha256) .snapshotDigest
  let binary ← sha256File metadata.rollbackBinaryPath
  ensure (binary == metadata.rollbackBinarySha256) .rollbackBinaryChanged

/-- Read and check the metadata of a snapshot. -/
def readSnapshotMetadata (directory : BackupName) : Call ServerDatabaseSnapshotMetadata := do
  let value ← readDurableJson Content.databaseSnapshot? (.databaseSnapshot directory)
  validateSnapshotMetadata value value.operationId value.planSha256
  return value

/-- Read a snapshot's metadata twice: authenticated, and validated. -/
def readAuthenticatedSnapshot (directory : BackupName) :
    Call ServerDatabaseSnapshotMetadata := do
  let _ ← readServerAuthenticatedJson formats Content.databaseSnapshot?
    (.databaseSnapshot directory) .databaseSnapshot
  readSnapshotMetadata directory

/-- Check the executables and the digests of an update of the database. -/
def validateUpdateContext (context : ServerUpdateContext) : Call Unit := do
  ensure (isSha256 context.installedExecutableSha256 && isSha256 context.stagedExecutableSha256
    && isSha256 context.sourceLedgerSha256) .malformedSha256
  let installed ← sha256File .target
  let staged ← sha256File context.stagedExecutable
  ensure (installed == context.installedExecutableSha256
    && staged == context.stagedExecutableSha256) .contextExecutables

/-- Take a snapshot of the live database, which has to be as it was scheduled. -/
def backupServerDatabase (directory : BackupName) (context : ServerUpdateContext)
    (operationId : Uuid) (planSha256 : String) : Call ServerDatabaseSnapshotMetadata := do
  validateUpdateContext context
  ensure (isSha256 planSha256) .malformedSha256
  let rollbackBinary := FileName.backup directory
  let rollbackBinarySha256 ← sha256File rollbackBinary
  ensure (rollbackBinarySha256 == context.installedExecutableSha256) .rollbackBinaryDigest
  let stopped ← inspectServerDatabase rollbackBinary
  ensure (stopped.observedSchema == context.sourceSchema
    && stopped.ledgerSha256 == context.sourceLedgerSha256) .databaseChanged
  let taken ← sys (.takeSnapshot rollbackBinary directory)
  ensure taken .io
  let snapshot ← sys (.snapshotSha256 directory)
  let snapshotSha256 ← expect .io snapshot
  let now ← sys .clock
  return {
    schemaVersion := serverDatabaseSnapshotMetadataVersion
    operationId := operationId
    planSha256 := planSha256
    sourceSchema := context.sourceSchema
    sourceLedgerSha256 := context.sourceLedgerSha256
    snapshotDirectory := directory
    snapshotSha256 := snapshotSha256
    rollbackBinaryPath := rollbackBinary
    rollbackBinarySha256 := rollbackBinarySha256
    createdUnixSeconds := now }

/-- Overwrite the live database from a snapshot, and check what has become of it. -/
def restoreServerDatabase (rollbackBinary : FileName)
    (snapshot : ServerDatabaseSnapshotMetadata) : Call Unit := do
  validateSnapshotMetadata snapshot snapshot.operationId snapshot.planSha256
  ensure (rollbackBinary == snapshot.rollbackBinaryPath) .rollbackBinaryChanged
  let digest ← sha256File rollbackBinary
  ensure (digest == snapshot.rollbackBinarySha256) .rollbackBinaryChanged
  let restored ← sys (.restore rollbackBinary snapshot.snapshotDirectory)
  ensure restored .io
  let report ← inspectServerDatabase rollbackBinary
  ensure (report.observedSchema == snapshot.sourceSchema) .restoredSchema
  ensure (report.ledgerSha256 == snapshot.sourceLedgerSha256) .restoredLedger

/-- `prepare_server_update_context` for the installed executable on both sides. -/
def installedContext : Call ServerUpdateContext := do
  let installed ← inspectServerDatabase .target
  let staged ← inspectServerDatabase .target
  let digest ← sha256File .target
  ensure (installed.observedSchema == staged.observedSchema
    && installed.ledgerSha256 == staged.ledgerSha256) .databaseChanged
  return {
    stagedExecutable := .target
    installedExecutableSha256 := digest
    stagedExecutableSha256 := digest
    sourceSchema := installed.observedSchema
    sourceLedgerSha256 := installed.ledgerSha256 }

/-- The database is still the one that a rollback was scheduled for. -/
def ensureRollbackDatabase (context : ServerRollbackContext) : Call Unit := do
  let current ← inspectServerDatabase .target
  ensure (current.observedSchema == context.expectedSchema
    && current.ledgerSha256 == context.expectedLedgerSha256)
    .databaseChangedAfterRollbackScheduling

/-- What the snapshot before an update or a rollback has to find. -/
def snapshotContext : ServerDatabaseTransaction → Call ServerUpdateContext
  | .apply context => pure context
  | .rollback context => do
    ensureRollbackDatabase context
    installedContext

/-- Check and write the metadata of a snapshot. -/
def writeSnapshotMetadata (directory : BackupName) (metadata : ServerDatabaseSnapshotMetadata) :
    Call Unit := do
  validateSnapshotMetadata metadata metadata.operationId metadata.planSha256
  writeDurableJson (.databaseSnapshot directory) (.databaseSnapshot metadata)

/-- The snapshot of a backup; only a server has one. -/
def createServerDatabaseSnapshot (plan : HelperPlan) (directory : BackupName)
    (planSha256 : String) : Call (Option BackupName) :=
  match plan.serverDatabase with
  | none => pure none
  | some transaction => do
    ensure (plan.product == .server) .unexpectedTransaction
    let context ← snapshotContext transaction
    let snapshot ← backupServerDatabase directory context plan.operationId planSha256
    writeSnapshotMetadata directory snapshot
    return some directory

/-! ## Backup -/

/-- The metadata of a backup. -/
def backupMetadata (plan : HelperPlan) (digest : String) (snapshot : Option BackupName) (now : ℕ) :
    BackupMetadata where
  schemaVersion := updateSchemaVersion
  operationId := some plan.operationId
  version := plan.fromVersion
  sha256 := digest
  databaseSnapshotMetadata := snapshot
  createdUnixSeconds := now

/-- Authenticate the metadata of a snapshot that has been written. -/
def authenticateSnapshot : Option BackupName → Call Unit
  | none => pure ()
  | some directory => do
    let snapshot ← readSnapshotMetadata directory
    writeServerAuthenticatedJson formats (.databaseSnapshot directory) .databaseSnapshot
      (.databaseSnapshot snapshot)

/-- Write the metadata of a backup, for a server with tags for it and its snapshot. -/
def writeBackupMetadata (plan : HelperPlan) (directory : BackupName) (metadata : BackupMetadata) :
    Call Unit :=
  if plan.product = .server then do
    authenticateSnapshot formats metadata.databaseSnapshotMetadata
    writeServerAuthenticatedJson formats (.metadata directory) .backupMetadata (.metadata metadata)
  else writeDurableJson (.metadata directory) (.metadata metadata)

/-- Back up the installed executable and the database. -/
def createBackup (plan : HelperPlan) (planSha256 : String) : Call BackupName := do
  let created ← sys .clock
  let id ← sys .newUuid
  let directory : BackupName := ⟨plan.fromVersion, created, id⟩
  copyFile .target (.backup directory)
  let digest ← sha256File (.backup directory)
  ensure (digest == plan.expectedTargetSha256) .backupDigest
  let snapshot ← createServerDatabaseSnapshot plan directory planSha256
  let now ← sys .clock
  writeBackupMetadata formats plan directory (backupMetadata plan digest snapshot now)
  return directory

/-! ## The candidate -/

/-- The snapshot of an update has been taken for it: the candidate can migrate it. -/
def preflightServerDatabase (plan : HelperPlan) (context : ServerUpdateContext)
    (snapshot : ServerDatabaseSnapshotMetadata) : Call Unit := do
  validateUpdateContext context
  validateSnapshotMetadata snapshot snapshot.operationId snapshot.planSha256
  ensure (snapshot.sourceSchema == context.sourceSchema
    && snapshot.sourceLedgerSha256 == context.sourceLedgerSha256) .databaseChanged
  ensure (plan.stagedExecutable == context.stagedExecutable) .contextExecutables
  let staged ← sha256File plan.stagedExecutable
  ensure (staged == context.stagedExecutableSha256) .contextExecutables
  let migrated ← sys (.preflight plan.stagedExecutable snapshot.snapshotDirectory)
  ensure migrated .preflightFailed

/-- Restore the selected snapshot, if the rollback was scheduled to. -/
def manualRollback (plan : HelperPlan) (context : ServerRollbackContext)
    (backupDirectory : BackupName) (planSha256 : String) : Call Unit :=
  if context.restoreSnapshot then do
    let snapshot ← readAuthenticatedSnapshot formats context.snapshotDirectory
    validateSnapshotMetadata snapshot context.snapshotOperationId context.snapshotPlanSha256
    ensure (snapshot.rollbackBinaryPath == plan.stagedExecutable) .manualRollbackBinary
    restoreServerDatabase plan.stagedExecutable snapshot
    writeOperationJournal formats plan planSha256 .databaseRestoredForManualRollback
      (some backupDirectory) none
  else pure ()

/-- Prepare the live database for the candidate. -/
def prepareServerDatabaseTransition (plan : HelperPlan) (backupDirectory : BackupName)
    (planSha256 : String) : Call Unit :=
  match plan.serverDatabase with
  | none => pure ()
  | some transaction => do
    let backup ← readServerAuthenticatedJson formats Content.metadata? (.metadata backupDirectory)
      .backupMetadata
    ensure (backup.operationId == some plan.operationId) .backupOfAnotherOperation
    match transaction with
    | .apply context => do
      let directory ← expect .snapshotMissing backup.databaseSnapshotMetadata
      let snapshot ← readAuthenticatedSnapshot formats directory
      validateSnapshotMetadata snapshot plan.operationId planSha256
      preflightServerDatabase plan context snapshot
      writeOperationJournal formats plan planSha256 .databasePreflighted (some backupDirectory) none
    | .rollback context => do
      ensureRollbackDatabase context
      manualRollback formats plan context backupDirectory planSha256

/-- The candidate has to be started as a service and to report ready. -/
def serverCandidateServiceHandoffRequired (plan : HelperPlan) : Bool :=
  plan.product == .server && plan.serviceInstalled && plan.serviceWasRunning

/-- Ask the candidate for a receipt, with a fresh nonce. -/
def prepareServerReadinessRequest (plan : HelperPlan) : Call ServerReadinessRequest := do
  ensure (isSha256 plan.stagedSha256) .malformedSha256
  let nonce ← sys .newUuid
  let now ← sys .clock
  let request : ServerReadinessRequest :=
    { protocolVersion := serverReadyProtocolVersion
      operationId := plan.operationId
      expectedExecutableSha256 := plan.stagedSha256
      expectedVersion := plan.toVersion
      nonce := nonce
      createdUnixSeconds := now }
  removeServerAuthenticatedStateIfPresent .readinessReceipt
  writeServerAuthenticatedJson formats .readinessRequest .readinessRequest
    (.readinessRequest request)
  return request

/-- Wait for a receipt that answers the request. -/
def waitForServerBusinessReadiness (request : ServerReadinessRequest) : Call Unit := do
  let error ← sys (.awaitReadiness request)
  match error with
  | none => pure ()
  | some error => throw error

/-- Start the candidate and wait until it is ready, with a journal for every stage. -/
def executeServerCandidateHandoff (plan : HelperPlan) (planSha256 : String)
    (backup : BackupName) : Call Unit := do
  ensure (serverCandidateServiceHandoffRequired plan) .handoffNotRequired
  let request ← prepareServerReadinessRequest formats plan
  writeOperationJournal formats plan planSha256 .candidateStarting (some backup) none
  restartServiceAfterUpdate plan
  writeOperationJournal formats plan planSha256 .candidateStarted (some backup) none
  waitForServerBusinessReadiness request
  writeOperationJournal formats plan planSha256 .candidateReady (some backup) none

/-! ## The helper -/

/-- The part of `execute_helper_inner` after the backup: install the candidate and start it. -/
def installCandidate (plan : HelperPlan) (planSha256 : String) (backup : BackupName) :
    Call Unit := do
  prepareServerDatabaseTransition formats plan backup planSha256
  atomicReplaceWithRetry plan.stagedExecutable
  let installed ← sha256File .target
  ensure (installed == plan.stagedSha256) .installedDigest
  verifyInstalledVersion .target plan.toVersion
  if serverCandidateServiceHandoffRequired plan then
    executeServerCandidateHandoff formats plan planSha256 backup
  else restartServiceAfterUpdate plan

/-- Restart the service before an error is returned that has left no backup. -/
def abandonUpdate (plan : HelperPlan) (error : UpdateError) :
    Program Action.Answer (Except (UpdateError × Option BackupName) BackupName) := do
  let _ ← (restartServiceAfterUpdate plan).run
  return .error (error, none)

/-- Install the candidate once there is a backup. -/
def executeWithBackup (plan : HelperPlan) (planSha256 : String) (backup : BackupName) :
    Program Action.Answer (Except (UpdateError × Option BackupName) BackupName) := do
  let installed ← ExceptT.run do
    writeOperationJournal formats plan planSha256 .backupCreated (some backup) none
    installCandidate formats plan planSha256 backup
  return installed.map (fun _ => backup) |>.mapError (·, some backup)

/-- Stop, back up, replace and start; the backup is returned also if that fails. -/
def executeHelperInner (plan : HelperPlan) (planSha256 : String) :
    Program Action.Answer (Except (UpdateError × Option BackupName) BackupName) := do
  match ← (stopServiceForUpdate plan).run with
  | .error error => return .error (error, none)
  | .ok _ =>
    match ← (writeOperationJournal formats plan planSha256 .serviceStopped none none).run with
    | .error error => abandonUpdate plan error
    | .ok _ =>
      match ← (createBackup formats plan planSha256).run with
      | .error error => abandonUpdate plan error
      | .ok backup => executeWithBackup formats plan planSha256 backup

/-- The candidate may have been started. -/
def isServerCandidateHandoffStage : Stage → Bool
  | .candidateStarting | .candidateStarted | .candidateReady => true
  | _ => false

/-- Ask the journal whether the candidate may have been started. -/
def serverCandidateHandoffStarted (plan : HelperPlan) : Call Bool := do
  let journal ← readServerAuthenticatedJson formats Content.journal? (.journal plan.operationId)
    .operationJournal
  ensure (journal.operationId == plan.operationId && journal.product == .server
    && journal.operation == plan.operation) .handoffUnbound
  return isServerCandidateHandoffStage journal.stage

/-- Whether a failure has to be recovered by hand, since the candidate may have accepted writes. -/
def serverHandoffFailureRoute (plan : HelperPlan) : Call Bool :=
  if plan.product = .server then do
    let started ← serverCandidateHandoffStarted formats plan
    if started then do
      stopCandidateServiceAfterFailedHandoff plan
      return true
    else return false
  else return false

/-- The snapshot that a server's backup is bound to. -/
def rollbackSnapshot (plan : HelperPlan) (backupDirectory : BackupName) (planSha256 : String) :
    Call ServerDatabaseSnapshotMetadata := do
  let metadata ← readServerAuthenticatedJson formats Content.metadata? (.metadata backupDirectory)
    .backupMetadata
  ensure (metadata.operationId == some plan.operationId) .rollbackBackupOfAnotherOperation
  let directory ← expect .rollbackSnapshotMissing metadata.databaseSnapshotMetadata
  let snapshot ← readAuthenticatedSnapshot formats directory
  validateSnapshotMetadata snapshot plan.operationId planSha256
  return snapshot

/-- Put the previous executable back and start it. -/
def restoreExecutable (plan : HelperPlan) (backupDirectory : BackupName) : Call Unit := do
  atomicRestoreWithRetry (.backup backupDirectory)
  let restored ← sha256File .target
  ensure (restored == plan.expectedTargetSha256) .restoredDigest
  verifyInstalledVersion .target plan.fromVersion
  restartServiceAfterUpdate plan

/-- Put a server's database back, and then its executable. -/
def restoreServer (plan : HelperPlan) (backupDirectory : BackupName) (planSha256 : String) :
    Call Unit := do
  let snapshot ← rollbackSnapshot formats plan backupDirectory planSha256
  stopCandidateServiceAfterFailedHandoff plan
  clearServerReadinessContract
  restoreServerDatabase (.backup backupDirectory) snapshot
  writeOperationJournal formats plan planSha256 .databaseRestoredForRollback
    (some backupDirectory) none
  restoreExecutable plan backupDirectory

/-- Go back to the backup. -/
def restoreAfterFailure (plan : HelperPlan) (backupDirectory : BackupName) (planSha256 : String) :
    Call Unit := do
  let present ← sys (.exists (.backup backupDirectory))
  ensure present .rollbackBackupMissing
  if plan.product = .server then restoreServer formats plan backupDirectory planSha256
  else do
    stopCandidateServiceAfterFailedHandoff plan
    restoreExecutable plan backupDirectory

/-- The candidate may have accepted writes: nothing is rolled back. -/
def requireManualRecovery (plan : HelperPlan) (planSha256 : String) (error : UpdateError)
    (backup : Option BackupName) : Call Unit := do
  let stopped ← outcome (stopCandidateServiceAfterFailedHandoff plan)
  let stopFailure := match stopped with
    | .error stopError => some stopError
    | .ok _ => none
  let finalError := UpdateError.candidateMayHaveWritten error stopFailure
  writeStatus plan "failed"
    "candidate service handoff was interrupted; automatic rollback is intentionally disabled"
    (some finalError) backup
  writeOperationJournal formats plan planSha256 .recoveryRequired backup (some finalError)
  throw finalError

/-- How a failed update ends: its state and message, its error, its last stage, and whether the
active marker is cleared. -/
structure Ending where
  state : String
  message : String
  error : UpdateError
  stage : Stage
  clearActive : Bool

/-- The end of an update that failed, by what came of the rollback. -/
def endingOf (error : UpdateError) : Except UpdateError (Option Unit) → Ending
  | .ok (some _) =>
    ⟨"rolled_back", "the update failed and the previous component was restored", error,
      .rolledBack, true⟩
  | .ok none =>
    ⟨"failed", "the update failed before replacement", error, .failedBeforeReplacement, true⟩
  | .error rollbackError =>
    ⟨"failed", "the update and automatic rollback both failed; recovery is required",
      .rollbackFailed error rollbackError, .recoveryRequired, false⟩

/-- Restore from the backup if there is one. -/
def automaticRollback (plan : HelperPlan) (planSha256 : String) :
    Option BackupName → Call (Option Unit)
  | none => return none
  | some backup => do
    restoreAfterFailure formats plan backup planSha256
    return some ()

/-- Clear the active marker if that is wanted, as well as it goes. -/
def releaseMarker (plan : HelperPlan) (wanted : Bool) : Call Unit :=
  if wanted then do
    let _ ← outcome (clearActiveMarker formats plan.product plan.operationId)
    return ()
  else return ()

/-- Record the end of an update that failed. -/
def finishFailure (plan : HelperPlan) (planSha256 : String) (backup : Option BackupName)
    (ending : Ending) : Call Unit := do
  writeStatus plan ending.state ending.message (some ending.error) backup
  writeOperationJournal formats plan planSha256 ending.stage backup (some ending.error)
  releaseMarker formats plan ending.clearActive
  throw ending.error

/-- Remove the readiness contract of a server. -/
def clearReadiness (plan : HelperPlan) : Call Unit :=
  if plan.product = .server then clearServerReadinessContract else return ()

/-- Record the end of an update that succeeded. -/
def finishSuccess (plan : HelperPlan) (planSha256 : String) (backup : BackupName) :
    Call Unit := do
  writeStatus plan (if plan.operation = .rollback then "rolled_back" else "succeeded")
    "component binary and service state were verified" none (some backup)
  writeOperationJournal formats plan planSha256 .completed (some backup) none
  clearReadiness plan
  releaseMarker formats plan true

/-- A failure of the update: recovery by hand, or automatic rollback. -/
def handleFailure (plan : HelperPlan) (planSha256 : String) (error : UpdateError)
    (backup : Option BackupName) : Call Unit := do
  let manual ← serverHandoffFailureRoute formats plan
  if manual then requireManualRecovery formats plan planSha256 error backup
  else do
    let rollback ← outcome (automaticRollback formats plan planSha256 backup)
    finishFailure formats plan planSha256 backup (endingOf error rollback)

/-- Carry out a plan, and roll back if that fails. -/
def executeHelper (plan : HelperPlan) (planSha256 : String) : Call Unit := do
  writeOperationJournal formats plan planSha256 .helperStarted none none
  writeStatus plan "installing" "verifying and replacing the LinkLake component binary" none none
  match ← ExceptT.lift (executeHelperInner formats plan planSha256) with
  | .ok backup => finishSuccess formats plan planSha256 backup
  | .error (error, backup) => handleFailure formats plan planSha256 error backup

/-! ## Scheduling -/

/-- Check the transaction of the database that an update is scheduled with. -/
def validateServerTransactionAtSchedule (product : UpdateProduct) (staged : FileName)
    (transaction : Option ServerDatabaseTransaction) : Call Unit :=
  match transaction with
  | none => ensure (product != .server) .missingTransaction
  | some (.apply context) => do
    ensure (product == .server) .unexpectedTransaction
    ensure (context.stagedExecutable == staged) .unboundContext
  | some (.rollback context) => do
    ensure (product == .server) .unexpectedTransaction
    let snapshot ← readAuthenticatedSnapshot formats context.snapshotDirectory
    ensure (snapshot.operationId == context.snapshotOperationId
      && snapshot.planSha256 == context.snapshotPlanSha256
      && snapshot.rollbackBinaryPath == staged) .unboundRollbackSnapshot

/-- Check a plan against its directory, the executables and the active marker. -/
def validateHelperPlan (operationId : Uuid) (plan : HelperPlan) : Call Unit := do
  ensure (plan.schemaVersion == updateSchemaVersion) .planVersion
  ensure (plan.operationId == operationId) .planDirectory
  validateTargetExecutable
  let staged ← sha256File plan.stagedExecutable
  ensure (staged == plan.stagedSha256) .stagedChanged
  let installed ← sha256File .target
  ensure (installed == plan.expectedTargetSha256) .installedChanged
  validateServerTransactionAtSchedule formats plan.product plan.stagedExecutable plan.serverDatabase
  let active ← readState formats plan.product Content.active? .active .activeMarker
  ensure (active.schemaVersion == updateSchemaVersion && active.operationId == plan.operationId
    && active.product == plan.product && active.planOperation == operationId) .markerMismatch

/-- The plan that the helper was started with. -/
def readHelperPlan (operationId : Uuid) (expectedPlanSha256 : String) : Call HelperPlan := do
  ensure (isSha256 expectedPlanSha256) .malformedSha256
  let content ← readContent (.plan operationId)
  ensure (formats.sha256 content == expectedPlanSha256) .planDigest
  let plan ← expect .malformedJson content.plan?
  if plan.product = .server then
    readServerAuthenticatedJson formats Content.plan? (.plan operationId) .helperPlan
  else return plan

/-- The helper: check the plan and carry it out. -/
def runHelper (operationId : Uuid) (expectedPlanSha256 : String) : Call Unit := do
  let plan ← readHelperPlan formats operationId expectedPlanSha256
  match ← outcome (validateHelperPlan formats operationId plan) with
  | .error error => do
    let _ ← outcome (writeStatus plan "failed"
      "the update plan or installation changed before replacement" (some error) none)
    throw error
  | .ok _ => do
    acquireLock
    executeHelper formats plan expectedPlanSha256

/-- An update that has been downloaded and verified. -/
structure StagedUpdate where
  product : UpdateProduct
  currentVersion : String
  version : String
  binarySha256 : String
  stagedExecutable : FileName

/-- What an update is scheduled with. -/
structure Schedule where
  product : UpdateProduct
  operation : UpdateOperation
  staged : StagedUpdate
  serverDatabase : Option ServerDatabaseTransaction
  operationId : Uuid

/-- The service is installed or not, and neither in transition nor unknown. -/
def settledRuntime : Call ServiceRuntime := do
  let runtime ← sys .runtime
  match ← expect .io runtime with
  | .transitioning => throw .serviceTransitioning
  | .unknown => throw .serviceUndetermined
  | runtime => return runtime

/-- The checks before anything is written, and the plan they lead to. -/
def preparePlan (schedule : Schedule) : Call HelperPlan := do
  let staged := schedule.staged
  ensure (staged.product == schedule.product) .productMismatch
  ensure ((schedule.product == .server) == schedule.serverDatabase.isSome) .transactionContext
  validateTargetExecutable
  let installed ← sys (.version .target)
  ensure (installed.all fun version => staged.currentVersion == version) .componentChanged
  let stagedDigest ← sha256File staged.stagedExecutable
  ensure (stagedDigest == staged.binarySha256) .stagedComponentChanged
  let service ← settledRuntime
  ensure (!schedule.operationId.isNil) .nilOperation
  let created ← sys (.createDirectory schedule.operationId)
  ensure created .io
  validateServerTransactionAtSchedule formats schedule.product staged.stagedExecutable
    schedule.serverDatabase
  let target ← sha256File .target
  let now ← sys .clock
  return {
    schemaVersion := updateSchemaVersion
    operationId := schedule.operationId
    operation := schedule.operation
    product := schedule.product
    stagedExecutable := staged.stagedExecutable
    expectedTargetSha256 := target
    stagedSha256 := staged.binarySha256
    fromVersion := installed.getD staged.currentVersion
    toVersion := staged.version
    serviceInstalled := service != .notInstalled
    serviceWasRunning := service == .running
    serverDatabase := schedule.serverDatabase
    createdUnixSeconds := now }

/-- Write plan, journal and active marker, in this order. -/
def publishPlan (plan : HelperPlan) : Call Unit := do
  writeState formats plan.product (.plan plan.operationId) .helperPlan (.plan plan)
  let planSha256 := sha256Document formats (.plan plan)
  writeOperationJournal formats plan planSha256 .scheduled none none
  let now ← sys .clock
  writeState formats plan.product .active .activeMarker (.active
    { schemaVersion := updateSchemaVersion
      operationId := plan.operationId
      product := plan.product
      planOperation := plan.operationId
      planSha256 := planSha256
      createdUnixSeconds := now })

/-- The helper could not be started. -/
def spawnFailed (plan : HelperPlan) (planSha256 : String) : Call Unit := do
  writeStatus plan "failed" "the detached update helper could not be started"
    (some .io) none
  let _ ← outcome (writeOperationJournal formats plan planSha256 .helperSpawnFailed none
    (some .io))
  releaseMarker formats plan true
  throw .io

/-- Copy the updater as the helper and start it. -/
def launchHelper (plan : HelperPlan) (planSha256 : String) : Call Unit := do
  copyFile .updater (.helper plan.operationId)
  let helper ← sha256File (.helper plan.operationId)
  let updater ← sha256File .updater
  ensure (helper == updater) .helperIncomplete
  writeStatus plan "scheduled" "the detached update helper has been scheduled" none none
  let spawned ← sys (.spawn plan.operationId planSha256)
  if spawned then pure () else spawnFailed formats plan planSha256

/-- While its guard is armed, an error removes the active marker again. -/
def guarded (plan : HelperPlan) (x : Call Unit) : Call Unit := do
  match ← outcome x with
  | .ok _ => pure ()
  | .error error => do
    releaseMarker formats plan true
    throw error

/-- Write plan, marker, journal and helper, and start the helper; the digest of the plan is
returned. -/
def scheduleUpdate (schedule : Schedule) : Call String := do
  acquireLock
  let active ← sys (.exists .active)
  ensure (!active) .anotherUpdateActive
  let plan ← preparePlan formats schedule
  publishPlan formats plan
  let planSha256 := sha256Document formats (.plan plan)
  guarded formats plan (launchHelper formats plan planSha256)
  return planSha256

end Functions

end LinkLake.Updater
