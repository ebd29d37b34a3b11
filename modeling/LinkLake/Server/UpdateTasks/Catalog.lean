import LinkLake.Foundations.FiniteMap
import LinkLake.Foundations.Runs
import LinkLake.Server.UpdateTasks.Transitions

/-!
# The SQLite task ledger

The ledger of remote-update tasks as the standalone server keeps it: a table of tasks keyed by
task id, and an append-only table of events. Every operation is one immediate transaction, so an
operation either fails and changes nothing or returns a reply and the next ledger; that is the
type `Except UpdateTaskError (reply × Ledger)`.

The constraints that the tables declare are part of the model: a write that breaks one is a
storage error. Identifiers that an operation draws at random are an argument of it (`Draws`), and
so are the clock reading and whether the table of clients lists the target.
-/

namespace LinkLake.UpdateTasks

open Fallible

/-! ## Tables -/

/-- The columns that hold a lease; the table requires that all or none of them are set. -/
structure LeaseColumns where
  leaseOwner : Uuid
  leaseTokenSha256 : Sha256Digest
  leaseDeadlineUnixSeconds : ℕ
  deriving DecidableEq, Repr

/-- A row of `update_tasks`, without its key. -/
structure TaskRow where
  targetClientId : Uuid
  action : RemoteUpdateAction
  state : RemoteUpdateTaskState
  stage : RemoteUpdateStage
  recoveryState : RemoteUpdateRecoveryState
  requestedBy : String
  idempotencyKey : String
  requestFingerprint : Sha256Digest
  attempt : ℕ
  cancelRequested : Bool
  lease : Option LeaseColumns
  restartBinding : Option RemoteUpdateRestartBinding
  terminalReplay : Option TerminalReportReplay
  result : Option RemoteUpdateResult
  errorCode : Option RemoteUpdateErrorCode
  createdUnixSeconds : ℕ
  updatedUnixSeconds : ℕ
  completedUnixSeconds : Option ℕ
  deriving DecidableEq, Repr

namespace TaskRow

/-- The snapshot that a row holds. -/
def task (row : TaskRow) (taskId : Uuid) : RemoteUpdateTask where
  schemaVersion := remoteUpdateContractVersion
  taskId := taskId
  targetClientId := row.targetClientId
  action := row.action
  state := row.state
  stage := row.stage
  recoveryState := row.recoveryState
  requestedBy := row.requestedBy
  idempotencyKey := row.idempotencyKey
  attempt := row.attempt
  cancelRequested := row.cancelRequested
  leaseOwner := row.lease.map (·.leaseOwner)
  leaseDeadlineUnixSeconds := row.lease.map (·.leaseDeadlineUnixSeconds)
  restart := row.restartBinding
  result := row.result
  errorCode := row.errorCode
  createdUnixSeconds := row.createdUnixSeconds
  updatedUnixSeconds := row.updatedUnixSeconds
  completedUnixSeconds := row.completedUnixSeconds

/-- Which payload columns go with which state. -/
def payloadCheck (row : TaskRow) : Bool :=
  match row.state with
  | .queued | .claimed | .running | .cancelRequested =>
    row.completedUnixSeconds.isNone && row.result.isNone && row.errorCode.isNone
  | .succeeded => row.completedUnixSeconds.isSome && row.result.isSome && row.errorCode.isNone
  | .failed =>
    row.completedUnixSeconds.isSome && row.result.isNone && row.errorCode.isSome
      && row.errorCode != some .cancelled
  | .cancelled =>
    row.completedUnixSeconds.isSome && row.result.isNone && row.errorCode == some .cancelled

/-- The `CHECK` constraints of the table. -/
def checks (row : TaskRow) : Bool :=
  (row.stage == .awaitingRestart) == row.restartBinding.isSome
    && (row.terminalReplay.isNone || row.state.isTerminal)
    && row.state.allowsStage row.stage
    && (!row.stage.isExecuting || row.stage == .awaitingRestart
      || row.stage == row.action.executionStage)
    && row.state.isLeased == row.lease.isSome
    && row.payloadCheck

end TaskRow

/-- The two tables. Rows of `update_task_events` are kept in the order of insertion. -/
structure Ledger where
  tasks : FiniteMap Uuid TaskRow
  events : List RemoteUpdateTaskEvent
  deriving DecidableEq

/-- The identifiers that an operation draws at random. A random identifier is never nil. -/
structure Draws where
  /-- The id of a task that is created. -/
  taskId : Uuid
  /-- The token of a lease that is given out. -/
  leaseToken : Uuid
  /-- The id of the event that becomes the `n`-th of the table. -/
  eventId : ℕ → Uuid
  taskId_ne_nil : taskId.isNil = false
  leaseToken_ne_nil : leaseToken.isNil = false
  eventId_ne_nil : ∀ n, (eventId n).isNil = false

namespace Ledger

/-- The ledger of a new database. -/
def empty : Ledger := ⟨∅, []⟩

/-- The rows that a query selects, with their keys, in the order it asks for. -/
def select (l : Ledger) (p : TaskRow → Bool) (before : Uuid × TaskRow → Uuid × TaskRow → Prop)
    [DecidableRel before] : List (Uuid × TaskRow) :=
  (l.tasks.toList.filter fun entry => p entry.2).insertionSort before

/-- Whether another task of the same client has not ended yet; the table forbids a second one. -/
def otherActive (l : Ledger) (taskId targetClientId : Uuid) : Bool :=
  l.tasks.toList.any fun entry => entry.1 != taskId && entry.2.targetClientId == targetClientId
    && !entry.2.state.isTerminal

/-- Store a row under its key, if the constraints of the table allow it. -/
def writeRow (l : Ledger) (taskId : Uuid) (row : TaskRow) : Except UpdateTaskError Ledger := do
  rejectIf (¬ row.checks) .storage
  rejectIf (row.state.isTerminal = false ∧ l.otherActive taskId row.targetClientId) .storage
  .ok { l with tasks := l.tasks.insert taskId row }

end Ledger

/-! ## Reading tasks -/

/-- Tasks by creation, oldest first. -/
def createdBefore (a b : Uuid × TaskRow) : Prop :=
  a.2.createdUnixSeconds < b.2.createdUnixSeconds
    ∨ (a.2.createdUnixSeconds = b.2.createdUnixSeconds ∧ a.1 ≤ b.1)

instance : DecidableRel createdBefore := fun _ _ => inferInstanceAs (Decidable (_ ∨ _))

/-- Leases by their end, soonest first. Rows without a lease come first. -/
def deadlineBefore (a b : Uuid × TaskRow) : Prop :=
  let deadline (row : TaskRow) := row.lease.elim 0 (·.leaseDeadlineUnixSeconds + 1)
  deadline a.2 < deadline b.2 ∨ (deadline a.2 = deadline b.2 ∧ a.1 ≤ b.1)

instance : DecidableRel deadlineBefore := fun _ _ => inferInstanceAs (Decidable (_ ∨ _))

section Reading

variable [SemVer]

/-- The check that every row passes when it is read. -/
def validateLoadedTask (task : RemoteUpdateTask) : Except UpdateTaskError Unit := do
  rejectIf (task.attempt > maxClaimAttempts) .storage
  stored task.validate

/-- Read a row. -/
def readTask (entry : Uuid × TaskRow) : Except UpdateTaskError RemoteUpdateTask := do
  let task := entry.2.task entry.1
  (task.result.elim (pure ()) fun result => stored result.validate : Except _ _)
  validateLoadedTask task
  pure task

/-- Read the first row of a selection, if there is one. -/
def readFirst : List (Uuid × TaskRow) → Except UpdateTaskError (Option RemoteUpdateTask)
  | [] => .ok none
  | entry :: _ => do
    let task ← readTask entry
    pure (some task)

def taskById (l : Ledger) (taskId : Uuid) : Except UpdateTaskError (Option RemoteUpdateTask) :=
  match l.tasks.get? taskId with
  | none => .ok none
  | some row => do
    let task ← readTask (taskId, row)
    pure (some task)

/-- The task with an id, which has to exist. -/
def requireTask (l : Ledger) (taskId : Uuid) : Except UpdateTaskError RemoteUpdateTask := do
  let found ← taskById l taskId
  okOr found .taskNotFound

def taskByIdempotencyKey (l : Ledger) (requestedBy idempotencyKey : String) :
    Except UpdateTaskError (Option RemoteUpdateTask) :=
  readFirst (l.tasks.toList.filter fun entry =>
    entry.2.requestedBy == requestedBy && entry.2.idempotencyKey == idempotencyKey)

def oldestQueuedTask (l : Ledger) (targetClientId : Uuid) :
    Except UpdateTaskError (Option RemoteUpdateTask) :=
  readFirst (l.select (fun row => row.targetClientId == targetClientId && row.state == .queued)
    createdBefore)

/-- Whether a query for one client, or for all of them, selects a row. -/
def ofTarget (targetClientId : Option Uuid) (row : TaskRow) : Bool :=
  targetClientId.all (row.targetClientId == ·)

def activeLeasedTasks (l : Ledger) (targetClientId : Option Uuid) :
    Except UpdateTaskError (List RemoteUpdateTask) :=
  (l.select (fun row => ofTarget targetClientId row && row.state.isLeased)
    createdBefore).mapM readTask

/-- Whether a row is leased and its lease has ended. -/
def leaseExpired (now : ℕ) (row : TaskRow) : Bool :=
  row.state.isLeased && row.lease.all (·.leaseDeadlineUnixSeconds ≤ now)

def expiredLeasedTasks (l : Ledger) (targetClientId : Option Uuid) (now : ℕ) :
    Except UpdateTaskError (List RemoteUpdateTask) := do
  nowI64 now
  (l.select (fun row => ofTarget targetClientId row && leaseExpired now row)
    deadlineBefore).mapM readTask

/-- The record of a report that ended a task, as it is read: it names a worker. -/
def readReplay : Option TerminalReportReplay →
    Except UpdateTaskError (Option TerminalReportReplay)
  | none => .ok none
  | some replay => do
    rejectIf (replay.workerInstanceId.isNil = true) .storage
    pure (some replay)

end Reading

/-! ## Writing -/

/-- The event kinds of which only the first few are recorded. -/
def sampledLimit : RemoteUpdateEventKind → Option ℕ
  | .leaseRenewed => some maxLeaseEventsPerTask
  | .idempotentReplay => some maxReplayEventsPerTask
  | .restartReconciled => some maxRestartEventsPerTask
  | _ => none

/-- The event that records a task as it is. -/
def eventOf (task : RemoteUpdateTask) (kind : RemoteUpdateEventKind) (eventId : Uuid)
    (sequence now : ℕ) : RemoteUpdateTaskEvent where
  schemaVersion := remoteUpdateContractVersion
  eventId := eventId
  taskId := task.taskId
  sequence := sequence
  kind := kind
  state := task.state
  stage := task.stage
  recoveryState := task.recoveryState
  errorCode := task.errorCode
  createdUnixSeconds := now

/-- The events of one task. -/
def eventsOf (taskId : Uuid) (events : List RemoteUpdateTaskEvent) : List RemoteUpdateTaskEvent :=
  events.filter (·.taskId == taskId)

/-- The number of events of one kind. -/
def recorded (kind : RemoteUpdateEventKind) (events : List RemoteUpdateTaskEvent) : ℕ :=
  events.countP (·.kind == kind)

/-- Whether enough events of a kind are recorded. -/
def sampledAway (kind : RemoteUpdateEventKind) (events : List RemoteUpdateTaskEvent) : Bool :=
  (sampledLimit kind).any (· ≤ recorded kind events)

/-- The sequence number after the last one. -/
def nextSequence (events : List RemoteUpdateTaskEvent) : ℕ :=
  (events.map (·.sequence)).foldl max 0 + 1

/-- The log with one more event, unless enough of its kind are recorded. -/
def recordEvent (events : List RemoteUpdateTaskEvent) (task : RemoteUpdateTask)
    (kind : RemoteUpdateEventKind) (now : ℕ) (draws : Draws) :
    Except UpdateTaskError (List RemoteUpdateTaskEvent) :=
  let own := eventsOf task.taskId events
  if sampledAway kind own then .ok events
  else do
    rejectIf (own.length ≥ maxEventsPerTask) .capacityExceeded
    nowI64 now
    rejectIf (events.any (·.eventId == draws.eventId events.length)) .storage
    .ok (events ++ [eventOf task kind (draws.eventId events.length) (nextSequence own) now])

def appendEvent (l : Ledger) (task : RemoteUpdateTask) (kind : RemoteUpdateEventKind) (now : ℕ)
    (draws : Draws) : Except UpdateTaskError Ledger :=
  (recordEvent l.events task kind now draws).map fun events => { l with events := events }

/-- The lease columns of a task that keeps its token; the table rejects half a lease. -/
def leaseColumns (leaseOwner : Option Uuid) (token : Option Sha256Digest)
    (deadline : Option ℕ) : Except UpdateTaskError (Option LeaseColumns) :=
  match leaseOwner, token, deadline with
  | none, _, none => .ok none
  | some owner, some token, some deadline => .ok (some ⟨owner, token, deadline⟩)
  | _, _, _ => .error .storage

/-- The row with the columns that a transition rewrites. -/
def TaskRow.persist (row : TaskRow) (task : RemoteUpdateTask) (lease : Option LeaseColumns)
    (terminalReplay : Option TerminalReportReplay) : TaskRow :=
  { row with
    state := task.state
    stage := task.stage
    recoveryState := task.recoveryState
    cancelRequested := task.cancelRequested
    lease := lease
    restartBinding := task.restart
    terminalReplay := terminalReplay
    result := task.result
    errorCode := task.errorCode
    updatedUnixSeconds := task.updatedUnixSeconds
    completedUnixSeconds := task.completedUnixSeconds }

def persistTaskAfterReport (l : Ledger) (task : RemoteUpdateTask)
    (terminalReplay : Option TerminalReportReplay) : Except UpdateTaskError Ledger := do
  (task.leaseDeadlineUnixSeconds.elim (pure ()) nowI64 : Except _ _)
  nowI64 task.updatedUnixSeconds
  (task.completedUnixSeconds.elim (pure ()) nowI64 : Except _ _)
  let row ← okOr (l.tasks.get? task.taskId) .storage
  let lease ← leaseColumns task.leaseOwner (row.lease.map (·.leaseTokenSha256))
    task.leaseDeadlineUnixSeconds
  l.writeRow task.taskId (row.persist task lease terminalReplay)

def reconcileLostLease (l : Ledger) (task : RemoteUpdateTask) (now : ℕ) (draws : Draws) :
    Except UpdateTaskError Ledger := do
  let lost := applyLostLease task now
  let l ← persistTaskAfterReport l lost.1 none
  appendEvent l lost.1 lost.2 now draws

section Operations

variable [SemVer] [Digests]

def reconcileExpiredLeases (l : Ledger) (targetClientId : Option Uuid) (now : ℕ)
    (draws : Draws) : Except UpdateTaskError Ledger := do
  let tasks ← expiredLeasedTasks l targetClientId now
  tasks.foldlM (fun l task => reconcileLostLease l task now draws) l

/-- The lease of a task, as the row under its id holds it. -/
def authorizeLease (l : Ledger) (task : RemoteUpdateTask) (workerInstanceId leaseToken : Uuid)
    (now : ℕ) : Except UpdateTaskError Unit := do
  authorizeLeaseOwner task workerInstanceId now
  let row ← okOr (l.tasks.get? task.taskId) .storage
  authorizeLeaseToken task (row.lease.map (·.leaseTokenSha256)) workerInstanceId leaseToken now

/-- The record of the report that ended a task. -/
def terminalReportReplay (l : Ledger) (taskId : Uuid) :
    Except UpdateTaskError (Option TerminalReportReplay) :=
  readReplay ((l.tasks.get? taskId).bind (·.terminalReplay))

def replayTerminalReport (l : Ledger) (task : RemoteUpdateTask)
    (request : RemoteUpdateReportRequest) (now : ℕ) (draws : Draws) :
    Except UpdateTaskError (RemoteUpdateTask × Ledger) := do
  let found ← terminalReportReplay l task.taskId
  let replay ← okOr found .invalidTransition
  validateTerminalReportReplay replay request
  let l ← appendEvent l task .idempotentReplay now draws
  pure (task, l)

/-! ## Operations -/

/-- The row of a new task. -/
def newRow (request : CreateRemoteUpdateTaskRequest) (requestedBy : String) (now : ℕ) :
    TaskRow where
  targetClientId := request.targetClientId
  action := request.action
  state := .queued
  stage := .queued
  recoveryState := .none
  requestedBy := requestedBy
  idempotencyKey := request.idempotencyKey
  requestFingerprint := requestFingerprint request requestedBy
  attempt := 0
  cancelRequested := false
  lease := none
  restartBinding := none
  terminalReplay := none
  result := none
  errorCode := none
  createdUnixSeconds := now
  updatedUnixSeconds := now
  completedUnixSeconds := none

/-- A request that repeats an earlier one gives that one's task. -/
def replayCreate (l : Ledger) (existing : RemoteUpdateTask) (fingerprint : Sha256Digest)
    (now : ℕ) (draws : Draws) : Except UpdateTaskError (RemoteUpdateTask × Ledger) := do
  let row ← okOr (l.tasks.get? existing.taskId) .storage
  rejectIf (row.requestFingerprint ≠ fingerprint) .idempotencyConflict
  let l ← reconcileExpiredLeases l (some existing.targetClientId) now draws
  let existing ← requireTask l existing.taskId
  let l ← appendEvent l existing .idempotentReplay now draws
  pure (existing, l)

/-- Insert a new task; its id and its idempotency key have to be new. -/
def insertTask (l : Ledger) (row : TaskRow) (now : ℕ) (draws : Draws) :
    Except UpdateTaskError (RemoteUpdateTask × Ledger) := do
  nowI64 now
  rejectIf (draws.taskId ∈ l.tasks) .storage
  rejectIf (l.tasks.toList.any fun entry => entry.2.requestedBy == row.requestedBy
    && entry.2.idempotencyKey == row.idempotencyKey) .storage
  let l ← l.writeRow draws.taskId row
  let l ← appendEvent l (row.task draws.taskId) .created now draws
  pure (row.task draws.taskId, l)

def create (l : Ledger) (request : CreateRemoteUpdateTaskRequest) (requestedBy : String)
    (targetExists : Bool) (now : ℕ) (draws : Draws) :
    Except UpdateTaskError (RemoteUpdateTask × Ledger) := do
  contract request.validate
  validateRequestedBy requestedBy
  rejectIf (targetExists = false) .targetNotFound
  match ← taskByIdempotencyKey l requestedBy request.idempotencyKey with
  | some existing => replayCreate l existing (requestFingerprint request requestedBy) now draws
  | none => do
    let l ← reconcileExpiredLeases l (some request.targetClientId) now draws
    rejectIf (l.tasks.toList.any fun entry => entry.2.targetClientId == request.targetClientId
      && !entry.2.state.isTerminal) .targetBusy
    rejectIf (l.tasks.size ≥ maxRetainedTasks) .capacityExceeded
    insertTask l (newRow request requestedBy now) now draws

def list (l : Ledger) (targetClientId : Option Uuid) (requestedLimit : ℕ) (now : ℕ)
    (draws : Draws) : Except UpdateTaskError (List RemoteUpdateTask × Ledger) := do
  (targetClientId.elim (pure ()) fun target => contract (validateNonNilUuid target)
    : Except _ _)
  let l ← reconcileExpiredLeases l targetClientId now draws
  let newest := (l.select (ofTarget targetClientId) createdBefore).reverse
  let tasks ← (newest.take (max 1 (min requestedLimit maxTaskListLimit))).mapM readTask
  pure (tasks, l)

/-- Events of one task by their sequence numbers, the first ones first. -/
def sequenceBefore (a b : RemoteUpdateTaskEvent) : Prop := a.sequence ≤ b.sequence

instance : DecidableRel sequenceBefore := fun _ _ => inferInstanceAs (Decidable (_ ≤ _))

/-- The last events of a task, the first ones first. -/
def lastEvents (l : Ledger) (taskId : Uuid) : List RemoteUpdateTaskEvent :=
  let events := (eventsOf taskId l.events).insertionSort sequenceBefore
  events.drop (events.length - maxEventsPerTask)

def detail (l : Ledger) (taskId : Uuid) (now : ℕ) (draws : Draws) :
    Except UpdateTaskError (RemoteUpdateTaskDetail × Ledger) := do
  contract (validateNonNilUuid taskId)
  let task ← requireTask l taskId
  let l ← reconcileExpiredLeases l (some task.targetClientId) now draws
  let task ← requireTask l taskId
  let detail : RemoteUpdateTaskDetail := ⟨task, lastEvents l taskId⟩
  stored (detail.validate taskId)
  pure (detail, l)

/-- Whether a task's lease has survived a restart of the server. -/
def leaseValid (task : RemoteUpdateTask) (now : ℕ) : Bool :=
  task.leaseDeadlineUnixSeconds.any (now < ·) && task.leaseOwner.isSome

/-- What a restart of the server makes of one task. -/
def reconcileRestarted (l : Ledger) (task : RemoteUpdateTask) (now : ℕ) (draws : Draws) :
    Except UpdateTaskError Ledger :=
  if leaseValid task now then appendEvent l task .restartReconciled now draws
  else reconcileLostLease l task now draws

def reconcileAfterRestart (l : Ledger) (now : ℕ) (draws : Draws) :
    Except UpdateTaskError Ledger := do
  let tasks ← activeLeasedTasks l none
  tasks.foldlM (fun l task => reconcileRestarted l task now draws) l

def sweep (l : Ledger) (now : ℕ) (draws : Draws) : Except UpdateTaskError Ledger :=
  reconcileExpiredLeases l none now draws

/-- What becomes of a task that has been handed out too often. -/
def exhaustTask (task : RemoteUpdateTask) (now : ℕ) : RemoteUpdateTask :=
  { task with
    state := .failed, stage := .failed, recoveryState := .failedClosed
    errorCode := some .failedClosed, updatedUnixSeconds := now
    completedUnixSeconds := some now }

/-- The task in the hands of a worker. -/
def claimTask (task : RemoteUpdateTask) (workerInstanceId : Uuid) (leaseDeadline now : ℕ) :
    RemoteUpdateTask :=
  { task with
    state := .claimed, stage := .claimed, recoveryState := .none, restart := none
    attempt := task.attempt + 1, leaseOwner := some workerInstanceId
    leaseDeadlineUnixSeconds := some leaseDeadline, updatedUnixSeconds := now }

/-- The row with the columns that a claim rewrites. -/
def TaskRow.claim (row : TaskRow) (task : RemoteUpdateTask) (lease : LeaseColumns) : TaskRow :=
  { row with
    state := task.state, stage := task.stage, recoveryState := task.recoveryState
    attempt := task.attempt, lease := some lease, updatedUnixSeconds := task.updatedUnixSeconds }

def claim (l : Ledger) (targetClientId : Uuid) (request : RemoteUpdateClaimRequest) (now : ℕ)
    (draws : Draws) : Except UpdateTaskError (Option RemoteUpdateClaim × Ledger) := do
  contract (validateNonNilUuid targetClientId)
  contract request.validate
  let l ← reconcileExpiredLeases l (some targetClientId) now draws
  match ← oldestQueuedTask l targetClientId with
  | none => pure (none, l)
  | some task =>
    if task.attempt ≥ maxClaimAttempts then do
      let task := exhaustTask task now
      let l ← persistTaskAfterReport l task none
      let l ← appendEvent l task .failed now draws
      pure (none, l)
    else do
      let leaseDeadline ← checkedDeadline now request.requestedLeaseSeconds
      let task := claimTask task request.workerInstanceId leaseDeadline now
      nowI64 leaseDeadline
      nowI64 now
      let row ← okOr ((l.tasks.get? task.taskId).filter (·.state == .queued)) .storage
      let l ← l.writeRow task.taskId (row.claim task ⟨request.workerInstanceId,
        leaseTokenSha256 draws.leaseToken, leaseDeadline⟩)
      let l ← appendEvent l task .claimed now draws
      pure (some ⟨task, draws.leaseToken, leaseDeadline⟩, l)

/-- How long a renewed lease lasts: a task that waits for a restart is not kept beyond the time
set for it. -/
def renewDeadline (task : RemoteUpdateTask) (request : RemoteUpdateLeaseRenewRequest)
    (requestedDeadline : ℕ) : Except UpdateTaskError ℕ :=
  if task.stage = .awaitingRestart ∨ request.stage = .awaitingRestart then do
    let binding ← okOr task.restart .invalidTransition
    pure (min requestedDeadline binding.resumeDeadlineUnixSeconds)
  else pure requestedDeadline

/-- What a renewal makes of a task. -/
def renewTask (task : RemoteUpdateTask) (stage : RemoteUpdateStage) (deadline now : ℕ) :
    RemoteUpdateTask :=
  { task with
    stage := stage
    state := if task.cancelRequested then .cancelRequested
      else if stage = .claimed then .claimed else .running
    leaseDeadlineUnixSeconds := some deadline, updatedUnixSeconds := now }

/-- The row with the columns that a renewal rewrites. -/
def TaskRow.renew (row : TaskRow) (task : RemoteUpdateTask) (deadline : ℕ) : TaskRow :=
  { row with
    state := task.state, stage := task.stage
    lease := row.lease.map ({ · with leaseDeadlineUnixSeconds := deadline })
    updatedUnixSeconds := task.updatedUnixSeconds }

def renew (l : Ledger) (targetClientId taskId : Uuid) (request : RemoteUpdateLeaseRenewRequest)
    (now : ℕ) (draws : Draws) :
    Except UpdateTaskError (RemoteUpdateLeaseRenewResponse × Ledger) := do
  contract (validateNonNilUuid targetClientId)
  contract (validateNonNilUuid taskId)
  let task ← requireTask l taskId
  rejectIf (task.targetClientId ≠ targetClientId) .taskNotFound
  contract (request.validate task.action)
  authorizeLease l task request.workerInstanceId request.leaseToken now
  rejectIf (¬ validRenewTransition task.stage request.stage task.action) .invalidTransition
  let requestedDeadline ← checkedDeadline now request.requestedLeaseSeconds
  let deadline ← renewDeadline task request requestedDeadline
  rejectIf (deadline ≤ now) .leaseExpired
  let task := renewTask task request.stage deadline now
  nowI64 deadline
  nowI64 now
  let row ← okOr (l.tasks.get? task.taskId) .storage
  -- a row without a lease cannot be authorised, so this never sets half of one
  let l ← l.writeRow task.taskId (row.renew task deadline)
  let l ← appendEvent l task .leaseRenewed now draws
  pure (⟨taskId, deadline, task.cancelRequested⟩, l)

def report (l : Ledger) (targetClientId taskId : Uuid) (request : RemoteUpdateReportRequest)
    (now : ℕ) (draws : Draws) : Except UpdateTaskError (RemoteUpdateTask × Ledger) := do
  contract (validateNonNilUuid targetClientId)
  contract (validateNonNilUuid taskId)
  let task ← requireTask l taskId
  rejectIf (task.targetClientId ≠ targetClientId) .taskNotFound
  contract (request.validate task.action)
  if task.state.isTerminal then replayTerminalReport l task request now draws
  else do
    validateWorkerReportTransition request.report task.action task.stage task.cancelRequested
    authorizeLease l task request.workerInstanceId request.leaseToken now
    let reported ← applyWorkerReport task request.report now
    let terminalReplay := if reported.1.state.isTerminal then
      some (TerminalReportReplay.fromRequest request) else none
    let l ← persistTaskAfterReport l reported.1 terminalReplay
    let l ← appendEvent l reported.1 reported.2 now draws
    pure (reported.1, l)

def reconcile (l : Ledger) (targetClientId taskId : Uuid)
    (request : RemoteUpdateReconcileRequest) (now : ℕ) (draws : Draws) :
    Except UpdateTaskError (RemoteUpdateReconcileResponse × Ledger) := do
  contract (validateNonNilUuid targetClientId)
  contract (validateNonNilUuid taskId)
  contract request.validate
  let task ← requireTask l taskId
  rejectIf (task.targetClientId ≠ targetClientId ∨ task.action ≠ request.action) .taskNotFound
  let l ← reconcileExpiredLeases l (some targetClientId) now draws
  let task ← requireTask l taskId
  if task.state.isTerminal then do
    let found ← terminalReportReplay l taskId
    let replay ← okOr found .leaseConflict
    validateTerminalReconcile task replay request
    pure (⟨.terminal, task⟩, l)
  else do
    authorizeLease l task request.workerInstanceId request.leaseToken now
    validateActiveReconcile task request
    pure (⟨.active, task⟩, l)

/-- What the administrator's cancellation makes of a task that has not ended, and the event that
records it. -/
def cancelTask (task : RemoteUpdateTask) (now : ℕ) : RemoteUpdateTask × RemoteUpdateEventKind :=
  if task.state = .queued then
    (clearTaskLease { task with
      cancelRequested := true, updatedUnixSeconds := now, state := .cancelled
      stage := .cancelled, recoveryState := .none, errorCode := some .cancelled
      completedUnixSeconds := some now }, .cancelled)
  else
    ({ task with cancelRequested := true, updatedUnixSeconds := now, state := .cancelRequested },
      .cancelRequested)

def cancel (l : Ledger) (taskId : Uuid) (request : CancelRemoteUpdateTaskRequest) (now : ℕ)
    (draws : Draws) : Except UpdateTaskError (RemoteUpdateTask × Ledger) := do
  contract (validateNonNilUuid taskId)
  contract request.validate
  let task ← requireTask l taskId
  let l ← reconcileExpiredLeases l (some task.targetClientId) now draws
  let task ← requireTask l taskId
  if task.state.isTerminal || task.cancelRequested then pure (task, l)
  else do
    let cancelled := cancelTask task now
    let l ← persistTaskAfterReport l cancelled.1 none
    let l ← appendEvent l cancelled.1 cancelled.2 now draws
    pure (cancelled.1, l)

/-! ## The ledger as a system -/

/-- What the API and the background maintenance ask of the ledger. Whether the table of clients
lists the target of a new task is part of the request. -/
inductive Operation
  | create (request : CreateRemoteUpdateTaskRequest) (requestedBy : String) (targetExists : Bool)
  | list (targetClientId : Option Uuid) (requestedLimit : ℕ)
  | detail (taskId : Uuid)
  | reconcileAfterRestart
  | sweep
  | claim (targetClientId : Uuid) (request : RemoteUpdateClaimRequest)
  | renew (targetClientId taskId : Uuid) (request : RemoteUpdateLeaseRenewRequest)
  | report (targetClientId taskId : Uuid) (request : RemoteUpdateReportRequest)
  | reconcile (targetClientId taskId : Uuid) (request : RemoteUpdateReconcileRequest)
  | cancel (taskId : Uuid) (request : CancelRemoteUpdateTaskRequest)

/-- One call: an operation, the clock reading it is made at, and the identifiers it draws. -/
structure Call where
  operation : Operation
  now : ℕ
  draws : Draws

/-- What a call returns. -/
inductive Reply
  | task (task : RemoteUpdateTask)
  | tasks (tasks : List RemoteUpdateTask)
  | detail (detail : RemoteUpdateTaskDetail)
  | done
  | claim (claim : Option RemoteUpdateClaim)
  | renewed (response : RemoteUpdateLeaseRenewResponse)
  | reconciled (response : RemoteUpdateReconcileResponse)
  deriving DecidableEq, Repr

/-- Make a call. -/
def call (l : Ledger) (c : Call) : Except UpdateTaskError (Reply × Ledger) :=
  match c.operation with
  | .create request requestedBy targetExists =>
    (create l request requestedBy targetExists c.now c.draws).map fun r => (.task r.1, r.2)
  | .list targetClientId requestedLimit =>
    (list l targetClientId requestedLimit c.now c.draws).map fun r => (.tasks r.1, r.2)
  | .detail taskId => (detail l taskId c.now c.draws).map fun r => (.detail r.1, r.2)
  | .reconcileAfterRestart => (reconcileAfterRestart l c.now c.draws).map fun l => (.done, l)
  | .sweep => (sweep l c.now c.draws).map fun l => (.done, l)
  | .claim targetClientId request =>
    (claim l targetClientId request c.now c.draws).map fun r => (.claim r.1, r.2)
  | .renew targetClientId taskId request =>
    (renew l targetClientId taskId request c.now c.draws).map fun r => (.renewed r.1, r.2)
  | .report targetClientId taskId request =>
    (report l targetClientId taskId request c.now c.draws).map fun r => (.task r.1, r.2)
  | .reconcile targetClientId taskId request =>
    (reconcile l targetClientId taskId request c.now c.draws).map fun r => (.reconciled r.1, r.2)
  | .cancel taskId request => (cancel l taskId request c.now c.draws).map fun r => (.task r.1, r.2)

/-- A successful call with its reply. A call that fails is rolled back and is no step. -/
def Step (l : Ledger) (e : Call × Reply) (l' : Ledger) : Prop := call l e.1 = .ok (e.2, l')

end Operations

/-- The clock reading of a call. -/
def callTime (e : Call × Reply) : Option ℕ := some e.1.now

theorem now_le_of_clocked {past es : List (Call × Reply)} {e : Call × Reply}
    (hclock : Clocked callTime es) (hpre : past ++ [e] <+: es) :
    ∀ earlier ∈ past, earlier.1.now ≤ e.1.now := fun earlier hearlier =>
  (hclock.of_initial hpre).le_last rfl (List.mem_filterMap.mpr ⟨earlier, hearlier, rfl⟩)

/-! ## Sample values -/

namespace Sample

/-- A version parser that knows the versions below. -/
scoped instance semVer : SemVer where
  parses text := text == "1.0.0" || text == "1.1.0"

/-- A digest that keeps the last 32 bytes, and the JSON texts of the reports below. -/
scoped instance digests : Digests where
  sha256 message := ⟨BitVec.ofNat 256 (BigEndian.ofBeBytes message)⟩
  reportJson
    | .failed .. => textBytes
      "\x7b\"kind\":\"failed\",\"error_code\":\"apply_failed\",\"recovery_state\":\"status_required\"\x7d"
    | _ => textBytes "\x7b\"kind\":\"cancelled\"\x7d"

theorem isNil_odd (n : ℕ) : (Uuid.fromU128 (2 * n + 1)).isNil = false := by
  simp only [Uuid.fromU128, Uuid.isNil, beq_eq_false_iff_ne, ne_eq]
  intro h
  have hzero : (2 * n + 1) % 2 ^ 128 = 0 := congrArg BitVec.toNat h
  omega

/-- Identifiers drawn by the `n`-th call of a sample run. -/
def draws (n : ℕ) : Draws where
  taskId := .fromU128 (2 * (1000 + n) + 1)
  leaseToken := .fromU128 (2 * (2000 + n) + 1)
  eventId k := .fromU128 (2 * (3000 + k) + 1)
  taskId_ne_nil := isNil_odd _
  leaseToken_ne_nil := isNil_odd _
  eventId_ne_nil _ := isNil_odd _

/-- The client of the sample runs. -/
def client : Uuid := .fromU128 7

/-- The worker of the sample runs. -/
def worker : Uuid := .fromU128 9

/-- The installation that the sample worker performs. -/
def plan : RemoteUpdateRestartPlan := ⟨.fromU128 11, .apply, "1.0.0", "1.1.0"⟩

/-- The administrator asks for an installation. -/
def createApply (now n : ℕ) : Call :=
  ⟨.create ⟨client, .apply, "release-1.1.0", "UPDATE"⟩ "admin" true, now, draws n⟩

/-- The worker asks for a task. -/
def claimNext (now n : ℕ) : Call := ⟨.claim client ⟨worker, 300⟩, now, draws n⟩

/-- The worker reports on the task of call `0` under the lease of call `1`. -/
def reportOn (report : RemoteUpdateWorkerReport) (now n : ℕ) : Call :=
  ⟨.report client (draws 0).taskId ⟨worker, (draws 1).leaseToken, report⟩, now, draws n⟩

/-- The worker renews the lease of call `1` on the task of call `0`. -/
def renewAs (stage : RemoteUpdateStage) (seconds now n : ℕ) : Call :=
  ⟨.renew client (draws 0).taskId ⟨worker, (draws 1).leaseToken, seconds, stage⟩, now, draws n⟩

/-- A worker that has come as far as the restart: created, handed out, started, prepared. -/
def untilRestart : List Call :=
  [createApply 1000 0, claimNext 1001 1, reportOn (.started .applying) 1002 2,
    reportOn (.awaitingRestart plan) 1003 3]

end Sample

end LinkLake.UpdateTasks
