import LinkLake.Core.Uuid
import LinkLake.Foundations.Crashes
import LinkLake.Foundations.FiniteMap
import LinkLake.Foundations.Runs

/-!
# The state of an update transaction

An update replaces the installed executable of a component. A plan, a journal and an active marker in
the state directory record how far it has come, a backup directory keeps the previous executable and,
for a server, a snapshot of the database. Everything but the service and the database is a file, and
a file holds the JSON text of a document or an executable (`Content`).

* `World` is the state: files, the service, the database. It also keeps what the safety of a server's
  data is about: how many servers the updater has started, and which snapshots have overwritten the
  live database (`World.overwrites`).
* `Action` is a step of the updater and `perform` its effect. The environment decides which actions
  fail, and whether a failing action has taken effect all the same (`Choice`). Writing, removing and
  renaming a file are atomic; a crash in the middle of a copy leaves any content.
* `system` is a machine whose actions may fail, and `reliable` one whose actions do not.
-/

namespace LinkLake.Updater

/-! ## Documents -/

inductive UpdateProduct
  | client
  | server
  | manager
  deriving DecidableEq

inductive UpdateOperation
  | apply
  | rollback
  deriving DecidableEq

def operationName : UpdateOperation → String
  | .apply => "apply"
  | .rollback => "rollback"

/-- The stages that a journal records. -/
inductive Stage
  | scheduled
  | helperSpawnFailed
  | helperStarted
  | serviceStopped
  | backupCreated
  | databasePreflighted
  | databaseRestoredForManualRollback
  | candidateStarting
  | candidateStarted
  | candidateReady
  | completed
  | databaseRestoredForRollback
  | rolledBack
  | failedBeforeReplacement
  | recoveryRequired
  | recovered
  deriving DecidableEq

/-- A directory under `backups`. -/
structure BackupName where
  version : String
  created : ℕ
  id : Uuid
  deriving DecidableEq

/-- The files of a component, its state directory and a server's data directory. -/
inductive FileName
  /-- The installed executable. -/
  | target
  /-- An executable that has been downloaded. -/
  | staged (name : String)
  /-- The executable in a backup directory. -/
  | backup (directory : BackupName)
  | incoming (id : Uuid)
  | replaced (id : Uuid)
  | helper (operation : Uuid)
  /-- The executable of the updater that runs. -/
  | updater
  | active
  | status
  | plan (operation : Uuid)
  | journal (operation : Uuid)
  | metadata (directory : BackupName)
  | databaseSnapshot (directory : BackupName)
  | readinessRequest
  | readinessReceipt
  /-- The snapshot in a backup directory. What it holds is in `World.snapshots`. -/
  | snapshot (directory : BackupName)
  /-- The database of a server. What it holds is in `World.database`. -/
  | liveDatabase
  /-- The authentication of a server's document. -/
  | authentication (payload : FileName)
  deriving DecidableEq

structure ServerUpdateContext where
  stagedExecutable : FileName
  installedExecutableSha256 : String
  stagedExecutableSha256 : String
  sourceSchema : ℕ
  sourceLedgerSha256 : String

structure ServerRollbackContext where
  /-- The directory of `snapshot_metadata_path`. -/
  snapshotDirectory : BackupName
  snapshotOperationId : Uuid
  snapshotPlanSha256 : String
  expectedSchema : ℕ
  expectedLedgerSha256 : String
  restoreSnapshot : Bool

inductive ServerDatabaseTransaction
  | apply (context : ServerUpdateContext)
  | rollback (context : ServerRollbackContext)

structure HelperPlan where
  schemaVersion : ℕ
  operationId : Uuid
  operation : UpdateOperation
  product : UpdateProduct
  stagedExecutable : FileName
  expectedTargetSha256 : String
  stagedSha256 : String
  fromVersion : String
  toVersion : String
  serviceInstalled : Bool
  serviceWasRunning : Bool
  serverDatabase : Option ServerDatabaseTransaction
  createdUnixSeconds : ℕ

structure ActiveUpdate where
  schemaVersion : ℕ
  operationId : Uuid
  product : UpdateProduct
  /-- The operation directory of `plan_path`. -/
  planOperation : Uuid
  planSha256 : String
  createdUnixSeconds : ℕ

/-- What goes wrong in an update. A journal or a status that keeps the text of an error keeps the
error itself here. -/
inductive UpdateError
  | io
  | locked
  | malformedJson
  | malformedSha256
  -- scheduling
  | anotherUpdateActive
  | productMismatch
  | transactionContext
  | invalidTarget
  | componentChanged
  | stagedComponentChanged
  | serviceTransitioning
  | serviceUndetermined
  | nilOperation
  | unboundContext
  | unboundRollbackSnapshot
  | missingTransaction
  | unexpectedTransaction
  | helperIncomplete
  -- authenticated state
  | journalWithoutTransaction
  | authenticationMetadata
  | authenticationTag
  | authenticatedMalformed
  | markerOfAnotherOperation
  -- the helper
  | planDigest
  | planVersion
  | planDirectory
  | stagedChanged
  | installedChanged
  | markerMismatch
  | backupDigest
  | incomingIncomplete
  | targetMissing
  | installedDigest
  | versionUnverified
  | versionMismatch
  | handoffNotRequired
  | handoffUnbound
  | candidateMayHaveWritten (error : UpdateError) (stopFailure : Option UpdateError)
  | rollbackFailed (error rollbackError : UpdateError)
  -- services and candidates
  | serviceStartedAfterScheduling
  | serviceGone
  | serviceUnknown
  | serviceDidNotStop
  | candidateDidNotStop
  | serviceNotRestarted
  | serviceNotActive
  | candidateStopped
  | candidateNotReady
  -- databases
  | databaseChanged
  | databaseChangedAfterRollbackScheduling
  | rollbackBinaryDigest
  | contextExecutables
  | snapshotVersion
  | snapshotOperation
  | snapshotPlan
  | snapshotSha256
  | snapshotDigest
  | rollbackBinaryChanged
  | preflightFailed
  | restoredSchema
  | restoredLedger
  | backupOfAnotherOperation
  | rollbackBackupOfAnotherOperation
  | snapshotMissing
  | rollbackSnapshotMissing
  | manualRollbackBinary
  -- restoring and recovering
  | rollbackBackupMissing
  | restoredDigest
  | serverRecoverySpecific
  | unconfirmed
  | serverUnconfirmed
  | unsupportedMarker
  | unsupportedServerMarker
  | activePlanDigest
  | activeServerPlanDigest
  | serverPlanUnbound
  | recoveryPlanIdentity
  | journalUnbound
  | serverJournalUnbound
  | completedMismatch
  | terminalMismatch
  | noTrustedBackup
  | noBackupRecorded
  | backupUnbound
  | backupExecutableMissing
  | backupExecutableDigest
  | unknownStage
  | noTransaction
  | targetNotInstalled
  | consentRequired
  | noAuthenticatedBackup
  | nothingReplaced
  | noReplacementBackup
  | recoveryFailed (error : UpdateError)
  -- verification of a completed update
  | serverVerificationSpecific
  | helperNotCompleted
  | completedPlanUnbound
  | completedJournalUnbound
  | completedStatusInconsistent
  | completedDigest
  | completedWithoutBackup
  | completedBackupMismatch

structure UpdateJournal where
  schemaVersion : ℕ
  operationId : Uuid
  planSha256 : String
  product : UpdateProduct
  operation : UpdateOperation
  stage : Stage
  backupDirectory : Option BackupName
  error : Option UpdateError
  updatedUnixSeconds : ℕ

/-- A journal in an envelope. The Base64 text of the payload is represented by the journal that it
encodes. -/
structure JournalEnvelope where
  schemaVersion : ℕ
  payloadLength : ℕ
  payloadSha256 : String
  payload : UpdateJournal

structure UpdateStatus where
  schemaVersion : ℕ
  state : String
  operation : Option String
  fromVersion : Option String
  toVersion : Option String
  message : String
  error : Option UpdateError
  backup : Option BackupName
  updatedUnixSeconds : ℕ

structure BackupMetadata where
  schemaVersion : ℕ
  operationId : Option Uuid
  version : String
  sha256 : String
  /-- The directory of `database_snapshot_metadata`. -/
  databaseSnapshotMetadata : Option BackupName
  createdUnixSeconds : ℕ

structure ServerDatabaseSnapshotMetadata where
  schemaVersion : ℕ
  operationId : Uuid
  planSha256 : String
  sourceSchema : ℕ
  sourceLedgerSha256 : String
  /-- The directory of `snapshot_path`. -/
  snapshotDirectory : BackupName
  snapshotSha256 : String
  rollbackBinaryPath : FileName
  rollbackBinarySha256 : String
  createdUnixSeconds : ℕ

structure ServerReadinessRequest where
  protocolVersion : ℕ
  operationId : Uuid
  expectedExecutableSha256 : String
  expectedVersion : String
  nonce : Uuid
  createdUnixSeconds : ℕ

/-- What a tag is for. -/
inductive Purpose
  | activeMarker
  | helperPlan
  | operationJournal
  | backupMetadata
  | databaseSnapshot
  | readinessRequest
  | readinessReceipt
  deriving DecidableEq

structure ServerStateAuthentication where
  schemaVersion : ℕ
  purpose : Purpose
  payloadSha256 : String
  hmacSha256 : String
  deriving DecidableEq

/-- The documents. Their types have different fields and unknown ones are denied, so that the text of
a document is read back as its own type only. -/
inductive Document
  | plan (plan : HelperPlan)
  | active (active : ActiveUpdate)
  | journal (journal : UpdateJournal)
  | envelope (envelope : JournalEnvelope)
  | status (status : UpdateStatus)
  | metadata (metadata : BackupMetadata)
  | databaseSnapshot (snapshot : ServerDatabaseSnapshotMetadata)
  | readinessRequest (request : ServerReadinessRequest)
  | readinessReceipt (request : ServerReadinessRequest)
  | authentication (authentication : ServerStateAuthentication)

/-- What a file holds: the text of a document, or an executable. -/
inductive Content
  | document (document : Document)
  | binary (bytes : List UInt8)

def Content.plan? : Content → Option HelperPlan
  | .document (.plan plan) => some plan
  | _ => none

def Content.active? : Content → Option ActiveUpdate
  | .document (.active active) => some active
  | _ => none

def Content.journal? : Content → Option UpdateJournal
  | .document (.journal journal) => some journal
  | _ => none

def Content.status? : Content → Option UpdateStatus
  | .document (.status status) => some status
  | _ => none

def Content.metadata? : Content → Option BackupMetadata
  | .document (.metadata metadata) => some metadata
  | _ => none

def Content.databaseSnapshot? : Content → Option ServerDatabaseSnapshotMetadata
  | .document (.databaseSnapshot snapshot) => some snapshot
  | _ => none

def Content.authentication? : Content → Option ServerStateAuthentication
  | .document (.authentication authentication) => some authentication
  | _ => none

/-- `normalize_sha256` accepts 64 hexadecimal digits, of either case. -/
def isSha256 (value : String) : Bool :=
  value.toList.length == 64 && value.toList.all fun c =>
    ('0' ≤ c && c ≤ '9') || ('a' ≤ c && c ≤ 'f') || ('A' ≤ c && c ≤ 'F')

/-- What the model takes from elsewhere: the length of a text, the digest and the keyed tag of a
content, and the version that an executable reports. -/
structure Formats where
  length : Content → ℕ
  sha256 : Content → String
  hmac : Purpose → Content → String
  version : Content → Option String
  isSha256_sha256 : ∀ content, isSha256 (sha256 content) = true
  isSha256_hmac : ∀ purpose content, isSha256 (hmac purpose content) = true

/-! ## The world -/

inductive ServiceRuntime
  | notInstalled
  | stopped
  | running
  | transitioning
  | unknown
  deriving DecidableEq

/-- The live database: its schema and migration ledger, the snapshot that it was last restored from,
and the digests of the executables that the updater has started on it since. -/
structure Database where
  schema : ℕ
  ledgerSha256 : String
  restoredFrom : Option BackupName
  openedBy : List String

/-- The file of a snapshot, and how many servers the updater had started when it was taken. -/
structure Snapshot where
  content : Content
  schema : ℕ
  ledgerSha256 : String
  starts : ℕ

/-- The live database was overwritten from a snapshot: which one, and how many servers had been
started when it was taken and when it was restored. -/
structure Overwrite where
  directory : BackupName
  startsAtSnapshot : ℕ
  starts : ℕ
  deriving DecidableEq

structure World where
  files : FiniteMap FileName Content
  /-- The directories under `operations`. -/
  operations : FiniteMap Uuid Unit
  service : ServiceRuntime
  database : Database
  snapshots : FiniteMap BackupName Snapshot
  starts : ℕ
  overwrites : List Overwrite

/-- What an inspection of the database reports. -/
structure Inspection where
  observedSchema : ℕ
  ledgerSha256 : String

/-! ## Actions -/

inductive Action
  | lock
  | clock
  | newUuid
  | createDirectory (operation : Uuid)
  | exists (file : FileName)
  | read (file : FileName)
  | write (file : FileName) (document : Document)
  | remove (file : FileName)
  | copy (source destination : FileName)
  | rename (source destination : FileName)
  | sha256 (file : FileName)
  | version (file : FileName)
  | runtime
  | stop (mayRequest : Bool) (timeout : UpdateError)
  | start
  | awaitReadiness (request : ServerReadinessRequest)
  | spawn (operation : Uuid) (planSha256 : String)
  | expired
  | inspect (binary : FileName)
  | takeSnapshot (binary : FileName) (directory : BackupName)
  | snapshotSha256 (directory : BackupName)
  | preflight (binary : FileName) (directory : BackupName)
  | restore (binary : FileName) (directory : BackupName)

@[reducible] def Action.Answer : Action → Type
  | .lock | .createDirectory _ | .exists _ | .write _ _ | .remove _ | .copy _ _ | .rename _ _ => Bool
  | .spawn _ _ | .expired | .preflight _ _ | .takeSnapshot _ _ | .restore _ _ => Bool
  | .clock => ℕ
  | .newUuid => Uuid
  | .read _ => Option Content
  | .sha256 _ | .version _ | .snapshotSha256 _ => Option String
  | .runtime => Option ServiceRuntime
  | .stop _ _ | .start | .awaitReadiness _ => Option UpdateError
  | .inspect _ => Option Inspection

/-- What the environment decides of an action: whether it fails, whether it has taken effect all the
same, and the values that come from outside. -/
structure Choice where
  fails : Bool
  effective : Bool
  now : ℕ
  uuid : Uuid
  content : Content
  expired : Bool
  error : UpdateError
  schema : ℕ
  ledgerSha256 : String

/-- An action that succeeds or fails. -/
def Choice.settle (choice : Choice) (w w' : World) : Bool × World :=
  if choice.fails then (false, if choice.effective then w' else w) else (true, w')

def World.setFile (w : World) (file : FileName) (content : Content) : World :=
  { w with files := w.files.insert file content }

def World.eraseFile (w : World) (file : FileName) : World :=
  { w with files := w.files.erase file }

section Machine

variable (formats : Formats)

/-- A server has been started, and has migrated the database as it likes. -/
def World.opened (w : World) (choice : Choice) : World :=
  { w with
    service := .running
    starts := w.starts + 1
    database :=
      { schema := choice.schema
        ledgerSha256 := choice.ledgerSha256
        restoredFrom := w.database.restoredFrom
        openedBy := ((w.files.get? .target).elim "" formats.sha256) :: w.database.openedBy } }

def World.restored (w : World) (directory : BackupName) (snapshot : Snapshot) : World :=
  { w with
    database :=
      { schema := snapshot.schema
        ledgerSha256 := snapshot.ledgerSha256
        restoredFrom := some directory
        openedBy := [] }
    overwrites := ⟨directory, snapshot.starts, w.starts⟩ :: w.overwrites }

def World.snapshotted (w : World) (directory : BackupName) (content : Content) : World :=
  { w with
    snapshots := w.snapshots.insert directory
      ⟨content, w.database.schema, w.database.ledgerSha256, w.starts⟩ }

/-- The candidate has published its readiness. -/
def World.published (w : World) (request : ServerReadinessRequest) : World :=
  let receipt := Document.readinessReceipt request
  let authentication := Document.authentication ⟨1, .readinessReceipt,
    formats.sha256 (.document receipt), formats.hmac .readinessReceipt (.document receipt)⟩
  (w.setFile .readinessReceipt (.document receipt)).setFile (.authentication .readinessReceipt)
    (.document authentication)

/-- Wait until the service has stopped, after asking it to stop if that is allowed. -/
def performStop (choice : Choice) (w : World) (mayRequest : Bool) (timeout : UpdateError) :
    Option UpdateError × World :=
  if choice.fails then
    (some choice.error, if choice.effective then { w with service := .stopped } else w)
  else match w.service with
    | .stopped => (none, w)
    | .running =>
      if mayRequest then (none, { w with service := .stopped })
      else (some .serviceStartedAfterScheduling, w)
    | .transitioning => (some timeout, w)
    | .notInstalled => (some .serviceGone, w)
    | .unknown => (some .serviceUnknown, w)

/-- Start the service unless it runs, and wait until it is stable. -/
def performStart (choice : Choice) (w : World) : Option UpdateError × World :=
  if choice.fails then
    (some choice.error, if choice.effective then w.opened formats choice else w)
  else match w.service with
    | .stopped => (none, w.opened formats choice)
    | .running => (none, w)
    | .transitioning => (some .serviceNotActive, w)
    | .notInstalled => (some .serviceGone, w)
    | .unknown => (some .serviceUnknown, w)

/-- The effect of an action. -/
def perform (choice : Choice) (w : World) : (action : Action) → action.Answer × World
  | .lock => (!choice.fails, w)
  | .clock => (choice.now, w)
  | .newUuid => (choice.uuid, w)
  | .createDirectory operation => match w.operations.get? operation with
    | some _ => (false, w)
    | none => choice.settle w { w with operations := w.operations.insert operation () }
  | .exists file => ((w.files.get? file).isSome, w)
  | .read file => (if choice.fails then none else w.files.get? file, w)
  | .write file document => choice.settle w (w.setFile file (.document document))
  | .remove file => match w.files.get? file with
    | none => (false, w)
    | some _ => choice.settle w (w.eraseFile file)
  | .copy source destination => match w.files.get? source with
    | none => (false, w)
    | some content =>
      if choice.fails then
        (false, if choice.effective then w.setFile destination choice.content else w)
      else (true, w.setFile destination content)
  | .rename source destination => match w.files.get? source with
    | none => (false, w)
    | some content => choice.settle w ((w.eraseFile source).setFile destination content)
  | .sha256 file => (if choice.fails then none else (w.files.get? file).map formats.sha256, w)
  | .version file => (if choice.fails then none else (w.files.get? file).bind formats.version, w)
  | .runtime => (if choice.fails then none else some w.service, w)
  | .stop mayRequest timeout => performStop choice w mayRequest timeout
  | .start => performStart formats choice w
  | .awaitReadiness request =>
    if choice.fails then (some choice.error, w) else (none, w.published formats request)
  | .spawn _ _ => (!choice.fails, w)
  | .expired => (choice.expired, w)
  | .inspect _ => (if choice.fails then none else
      some ⟨w.database.schema, w.database.ledgerSha256⟩, w)
  | .takeSnapshot _ directory => choice.settle w (w.snapshotted directory choice.content)
  | .snapshotSha256 directory => (if choice.fails then none else
      (w.snapshots.get? directory).map fun snapshot => formats.sha256 snapshot.content, w)
  | .preflight _ _ => (!choice.fails, w)
  | .restore _ directory => match w.snapshots.get? directory with
    | none => (false, w)
    | some snapshot => choice.settle w (w.restored directory snapshot)

/-- What a crash leaves of an action: only a copy is not atomic. -/
def torn (choice : Choice) (w : World) : Action → World
  | .copy _ destination => w.setFile destination choice.content
  | _ => w

/-- The machine that the updater runs on. -/
def system : CrashMachine Action.Answer Choice World := ⟨perform formats, torn⟩

/-- The same machine while nothing fails. -/
def reliable : CrashMachine Action.Answer Choice World :=
  ⟨fun choice => perform formats { choice with fails := false }, torn⟩

end Machine

/-- All crashes. -/
def anywhere (_ : World) (_ : Action) (_ : World) : Prop := True

/-- No crashes. -/
def nowhere (_ : World) (_ : Action) (_ : World) : Prop := False

/-- The program keeps a condition, wherever it is cut off. -/
abbrev Preserves (formats : Formats) {α : Type} (I : World → Prop) (p : Program Action.Answer α)
    (w : World) : Prop :=
  (system formats).Guards anywhere I (fun _ => I) p w

/-! ## Calls -/

/-- A fallible call. -/
abbrev Call := ExceptT UpdateError (Program Action.Answer)

/-- An action. -/
def sys (action : Action) : Call action.Answer := Program.take action

/-- Fail unless a condition holds. -/
def ensure (condition : Bool) (error : UpdateError) : Call Unit :=
  if condition then pure () else throw error

/-- The value of an option that should be there. -/
def expect (error : UpdateError) {α : Type} : Option α → Call α
  | some a => pure a
  | none => throw error

end LinkLake.Updater
