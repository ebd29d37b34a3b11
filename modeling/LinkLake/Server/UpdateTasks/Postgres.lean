import LinkLake.Server.UpdateTasks.Catalog

/-!
# The PostgreSQL task ledger

The ledger of remote-update tasks as a cluster keeps it in PostgreSQL. It shares the transitions
of a task with the SQLite ledger and reimplements everything else: a row holds the snapshot as a
whole beside the few columns that queries need, every snapshot and every event is checked before
it is written, and how the digest of the lease token follows a write is said by the caller
(`TokenUpdate`).

Only the leader of the cluster may write; `leader` says whether the fence of this server holds.
The JSON texts of snapshots and events are modelled by the values they encode. The clock is that
of the database, and its readings are signed 64-bit integers.

Before it looks for an earlier task, a creation takes a lock on the requester and the key of the
request, joined by U+0000 (`lockText`). PostgreSQL refuses a text with that character.
-/

namespace LinkLake.UpdateTasks.Postgres

open Fallible

/-! ## Tables -/

/-- A row of `linklake_update_tasks`, without its key. -/
structure StoredRow where
  targetClientId : Uuid
  requestedBy : String
  idempotencyKey : String
  requestFingerprint : Sha256Digest
  state : RemoteUpdateTaskState
  createdUnixSeconds : ℕ
  leaseDeadlineUnixSeconds : Option ℕ
  leaseTokenSha256 : Option Sha256Digest
  terminalReplay : Option TerminalReportReplay
  snapshot : RemoteUpdateTask
  deriving DecidableEq, Repr

/-- The `CHECK` constraints of the table. -/
def StoredRow.checks (row : StoredRow) : Bool :=
  0 < row.createdUnixSeconds
    && (match row.leaseDeadlineUnixSeconds, row.leaseTokenSha256 with
      | none, none => true
      | some deadline, some _ => 0 < deadline
      | _, _ => false)
    && (row.terminalReplay.isNone || row.state.isTerminal)

/-- The two tables. -/
structure Tables where
  tasks : FiniteMap Uuid StoredRow
  events : List RemoteUpdateTaskEvent
  deriving DecidableEq

/-- What a query for one task returns. -/
structure StoredTask where
  task : RemoteUpdateTask
  leaseTokenSha256 : Option Sha256Digest
  requestFingerprint : Sha256Digest
  terminalReplay : Option TerminalReportReplay
  deriving DecidableEq, Repr

/-- What a write does to the digest of the lease token and to the record of an ending report. -/
inductive TokenUpdate
  | preserve
  | set (token : Sha256Digest)
  | clear
  | terminal (replay : TerminalReportReplay)
  deriving DecidableEq, Repr

namespace Tables

/-- The tables of a new database. -/
def empty : Tables := ⟨∅, []⟩

/-- The rows that a query selects, with their keys, in the order it asks for. -/
def select (t : Tables) (p : StoredRow → Bool)
    (before : Uuid × StoredRow → Uuid × StoredRow → Prop) [DecidableRel before] :
    List (Uuid × StoredRow) :=
  (t.tasks.toList.filter fun entry => p entry.2).insertionSort before

/-- Whether another task of the same client has not ended yet; a unique index forbids a second
one. -/
def otherActive (t : Tables) (taskId targetClientId : Uuid) : Bool :=
  t.tasks.toList.any fun entry => entry.1 != taskId && entry.2.targetClientId == targetClientId
    && !entry.2.state.isTerminal

/-- Store a row under its key, if the constraints of the table allow it. -/
def writeRow (t : Tables) (taskId : Uuid) (row : StoredRow) : Except UpdateTaskError Tables := do
  rejectIf (¬ row.checks) .storage
  rejectIf (row.state.isTerminal = false ∧ t.otherActive taskId row.targetClientId) .storage
  .ok { t with tasks := t.tasks.insert taskId row }

end Tables

/-! ## Reading -/

/-- Tasks by creation, oldest first. -/
def createdBefore (a b : Uuid × StoredRow) : Prop :=
  a.2.createdUnixSeconds < b.2.createdUnixSeconds
    ∨ (a.2.createdUnixSeconds = b.2.createdUnixSeconds ∧ a.1 ≤ b.1)

instance : DecidableRel createdBefore := fun _ _ => inferInstanceAs (Decidable (_ ∨ _))

/-- Leases by their end, soonest first. Unlike in SQLite, rows without a deadline come last. -/
def deadlineBefore (a b : Uuid × StoredRow) : Prop :=
  let deadline (row : StoredRow) := row.leaseDeadlineUnixSeconds
  (deadline a.2).isSome ∧ (deadline b.2).isNone
    ∨ (deadline a.2).isSome = (deadline b.2).isSome
      ∧ ((deadline a.2).getD 0 < (deadline b.2).getD 0
        ∨ (deadline a.2).getD 0 = (deadline b.2).getD 0 ∧ a.1 ≤ b.1)

instance : DecidableRel deadlineBefore := fun _ _ => inferInstanceAs (Decidable (_ ∨ _))

section Operations

variable [SemVer] [Digests]

omit [Digests] in
/-- The snapshot of a row. -/
def taskSnapshot (row : StoredRow) : Except UpdateTaskError RemoteUpdateTask := do
  validateLoadedTask row.snapshot
  pure row.snapshot

/-- A row as a query returns it, with its record of an ending report read. -/
def storedTask (row : StoredRow) : Except UpdateTaskError StoredTask := do
  let terminalReplay ← readReplay row.terminalReplay
  let task ← taskSnapshot row
  pure ⟨task, row.leaseTokenSha256, row.requestFingerprint, terminalReplay⟩

/-- Read the first row of a selection, if there is one. -/
def readFirst : List (Uuid × StoredRow) → Except UpdateTaskError (Option StoredTask)
  | [] => .ok none
  | entry :: _ => do
    let stored ← storedTask entry.2
    pure (some stored)

/-- The task with an id, if there is one. -/
def taskById (t : Tables) (taskId : Uuid) : Except UpdateTaskError (Option StoredTask) :=
  match t.tasks.get? taskId with
  | none => .ok none
  | some row => do
    let stored ← storedTask row
    pure (some stored)

/-- The task with an id, which has to exist. -/
def requireTask (t : Tables) (taskId : Uuid) : Except UpdateTaskError StoredTask := do
  let found ← taskById t taskId
  okOr found .taskNotFound

/-- The task that a requester asked for under a key. -/
def taskByIdempotency (t : Tables) (requestedBy idempotencyKey : String) :
    Except UpdateTaskError (Option StoredTask) :=
  readFirst (t.tasks.toList.filter fun entry =>
    entry.2.requestedBy == requestedBy && entry.2.idempotencyKey == idempotencyKey)

/-- An event as it is read back. -/
def eventSnapshot (event : RemoteUpdateTaskEvent) :
    Except UpdateTaskError RemoteUpdateTaskEvent := do
  stored (event.validate event.taskId)
  pure event

/-- Whether a query for one client, or for all of them, selects a row. -/
def ofTarget (targetClientId : Option Uuid) (row : StoredRow) : Bool :=
  targetClientId.all (row.targetClientId == ·)

/-! ## Writing -/

/-- Store a new task. -/
def insertTask (t : Tables) (task : RemoteUpdateTask) (fingerprint : Sha256Digest) :
    Except UpdateTaskError Tables := do
  stored task.validate
  nowI64 task.createdUnixSeconds
  rejectIf (task.taskId ∈ t.tasks) .storage
  rejectIf (t.tasks.toList.any fun entry => entry.2.requestedBy == task.requestedBy
    && entry.2.idempotencyKey == task.idempotencyKey) .storage
  t.writeRow task.taskId {
    targetClientId := task.targetClientId
    requestedBy := task.requestedBy
    idempotencyKey := task.idempotencyKey
    requestFingerprint := fingerprint
    state := task.state
    createdUnixSeconds := task.createdUnixSeconds
    leaseDeadlineUnixSeconds := none
    leaseTokenSha256 := none
    terminalReplay := none
    snapshot := task }

/-- The row with the columns that a write sets. -/
def StoredRow.update (row : StoredRow) (task : RemoteUpdateTask) (token : TokenUpdate) :
    StoredRow :=
  { row with
    state := task.state
    leaseDeadlineUnixSeconds := task.leaseDeadlineUnixSeconds
    leaseTokenSha256 := match token with
      | .preserve => row.leaseTokenSha256
      | .set token => some token
      | .clear => none
      | .terminal _ => none
    terminalReplay := match token with
      | .terminal replay => some replay
      | _ => row.terminalReplay
    snapshot := task }

/-- Store a task in the place of its row. -/
def writeTask (t : Tables) (task : RemoteUpdateTask) (token : TokenUpdate) :
    Except UpdateTaskError Tables := do
  stored task.validate
  (task.leaseDeadlineUnixSeconds.elim (pure ()) nowI64 : Except _ _)
  let row ← okOr (t.tasks.get? task.taskId) .storage
  t.writeRow task.taskId (row.update task token)

/-- Log an event, unless it is one of many renewals. -/
def appendEvent (t : Tables) (task : RemoteUpdateTask) (kind : RemoteUpdateEventKind) (now : ℕ)
    (draws : Draws) : Except UpdateTaskError Tables :=
  let own := eventsOf task.taskId t.events
  if sampledAway kind own then .ok t
  else do
    rejectIf (own.length ≥ maxEventsPerTask) .capacityExceeded
    let event := eventOf task kind (draws.eventId t.events.length) (nextSequence own) now
    stored (event.validate task.taskId)
    nowI64 now
    rejectIf (t.events.any (·.eventId == event.eventId)) .storage
    rejectIf (task.taskId ∉ t.tasks) .storage
    .ok { t with events := t.events ++ [event] }

/-- What becomes of a task whose lease is lost. -/
def loseLease (t : Tables) (task : RemoteUpdateTask) (now : ℕ) (draws : Draws) :
    Except UpdateTaskError Tables := do
  let lost := applyLostLease task now
  let t ← writeTask t lost.1 .clear
  appendEvent t lost.1 lost.2 now draws

/-- Take the leases back that have ended. -/
def reconcileExpired (t : Tables) (targetClientId : Option Uuid) (now : ℕ) (draws : Draws) :
    Except UpdateTaskError Tables := do
  nowI64 now
  (t.select (fun row => ofTarget targetClientId row && row.state.isLeased
      && row.leaseDeadlineUnixSeconds.all (· ≤ now)) deadlineBefore).foldlM
    (fun t entry => do
      let task ← taskSnapshot entry.2
      loseLease t task now draws) t

/-- The fence: only the leader of the cluster goes on. -/
def assertLeader (leader : Bool) : Except UpdateTaskError Unit :=
  rejectIf (leader = false) .notLeader

/-- The lock on a text. PostgreSQL refuses to read one with U+0000. The other locks, on ids and on
fixed words, are taken without an error. -/
def lockText (value : String) : Except UpdateTaskError Unit :=
  rejectIf ('\x00' ∈ value.toList) .storage

/-! ## Operations -/

/-- A request that repeats an earlier one gives that one's task. -/
def replayCreate (t : Tables) (existing : StoredTask) (fingerprint : Sha256Digest) (now : ℕ)
    (draws : Draws) : Except UpdateTaskError (RemoteUpdateTask × Tables) := do
  rejectIf (existing.requestFingerprint ≠ fingerprint) .idempotencyConflict
  let t ← reconcileExpired t (some existing.task.targetClientId) now draws
  let existing ← requireTask t existing.task.taskId
  let t ← appendEvent t existing.task .idempotentReplay now draws
  pure (existing.task, t)

/-- A new task. -/
def newTask (request : CreateRemoteUpdateTaskRequest) (requestedBy : String) (now : ℕ)
    (taskId : Uuid) : RemoteUpdateTask where
  schemaVersion := remoteUpdateContractVersion
  taskId := taskId
  targetClientId := request.targetClientId
  action := request.action
  state := .queued
  stage := .queued
  recoveryState := .none
  requestedBy := requestedBy
  idempotencyKey := request.idempotencyKey
  attempt := 0
  cancelRequested := false
  leaseOwner := none
  leaseDeadlineUnixSeconds := none
  restart := none
  result := none
  errorCode := none
  createdUnixSeconds := now
  updatedUnixSeconds := now
  completedUnixSeconds := none

/-- Ask for a task. -/
def create (leader : Bool) (t : Tables) (request : CreateRemoteUpdateTaskRequest)
    (requestedBy : String) (targetExists : Bool) (now : ℕ) (draws : Draws) :
    Except UpdateTaskError (RemoteUpdateTask × Tables) := do
  contract request.validate
  validateRequestedBy requestedBy
  assertLeader leader
  rejectIf (targetExists = false) .targetNotFound
  lockText (requestedBy ++ "\x00" ++ request.idempotencyKey)
  match ← taskByIdempotency t requestedBy request.idempotencyKey with
  | some existing => replayCreate t existing (requestFingerprint request requestedBy) now draws
  | none => do
    let t ← reconcileExpired t (some request.targetClientId) now draws
    rejectIf (t.tasks.toList.any fun entry => entry.2.targetClientId == request.targetClientId
      && !entry.2.state.isTerminal) .targetBusy
    rejectIf (t.tasks.size ≥ maxRetainedTasks) .capacityExceeded
    let task := newTask request requestedBy now draws.taskId
    let t ← insertTask t task (requestFingerprint request requestedBy)
    let t ← appendEvent t task .created now draws
    pure (task, t)

/-- The newest tasks. -/
def list (leader : Bool) (t : Tables) (targetClientId : Option Uuid) (requestedLimit : ℕ)
    (now : ℕ) (draws : Draws) : Except UpdateTaskError (List RemoteUpdateTask × Tables) := do
  (targetClientId.elim (pure ()) fun target => contract (validateNonNilUuid target)
    : Except _ _)
  assertLeader leader
  let t ← reconcileExpired t targetClientId now draws
  let newest := (t.select (ofTarget targetClientId) createdBefore).reverse
  let tasks ← (newest.take (max 1 (min requestedLimit maxTaskListLimit))).mapM
    fun entry => taskSnapshot entry.2
  pure (tasks, t)

/-- A task with its newest events. -/
def detail (leader : Bool) (t : Tables) (taskId : Uuid) (now : ℕ) (draws : Draws) :
    Except UpdateTaskError (RemoteUpdateTaskDetail × Tables) := do
  contract (validateNonNilUuid taskId)
  assertLeader leader
  let preliminary ← requireTask t taskId
  let t ← reconcileExpired t (some preliminary.task.targetClientId) now draws
  let found ← requireTask t taskId
  let recent := (eventsOf taskId t.events).insertionSort sequenceBefore
  let events ← (recent.drop (recent.length - maxEventsPerTask)).mapM eventSnapshot
  let detail : RemoteUpdateTaskDetail := ⟨found.task, events⟩
  stored (detail.validate taskId)
  pure (detail, t)

/-- What a restart of the server makes of one task. -/
def reconcileRestarted (t : Tables) (row : StoredRow) (now : ℕ) (draws : Draws) :
    Except UpdateTaskError Tables := do
  let task ← taskSnapshot row
  if leaseValid task now then appendEvent t task .restartReconciled now draws
  else loseLease t task now draws

/-- Look through the leases after a restart of the server. -/
def reconcileAfterRestart (leader : Bool) (t : Tables) (now : ℕ) (draws : Draws) :
    Except UpdateTaskError Tables := do
  assertLeader leader
  (t.select (·.state.isLeased) createdBefore).foldlM
    (fun t entry => reconcileRestarted t entry.2 now draws) t

/-- Take all ended leases back. -/
def sweep (leader : Bool) (t : Tables) (now : ℕ) (draws : Draws) :
    Except UpdateTaskError Tables := do
  assertLeader leader
  reconcileExpired t none now draws

/-- Hand a worker the oldest task that waits. -/
def claim (leader : Bool) (t : Tables) (targetClientId : Uuid)
    (request : RemoteUpdateClaimRequest) (now : ℕ) (draws : Draws) :
    Except UpdateTaskError (Option RemoteUpdateClaim × Tables) := do
  contract (validateNonNilUuid targetClientId)
  contract request.validate
  assertLeader leader
  let t ← reconcileExpired t (some targetClientId) now draws
  match ← readFirst (t.select (fun row => row.targetClientId == targetClientId
      && row.state == .queued) createdBefore) with
  | none => pure (none, t)
  | some stored =>
    if stored.task.attempt ≥ maxClaimAttempts then do
      let task := clearTaskLease (exhaustTask stored.task now)
      let t ← writeTask t task .clear
      let t ← appendEvent t task .failed now draws
      pure (none, t)
    else do
      let leaseDeadline ← checkedDeadline now request.requestedLeaseSeconds
      let task := claimTask stored.task request.workerInstanceId leaseDeadline now
      let t ← writeTask t task (.set (leaseTokenSha256 draws.leaseToken))
      let t ← appendEvent t task .claimed now draws
      pure (some ⟨task, draws.leaseToken, leaseDeadline⟩, t)

/-- Prolong a lease. -/
def renew (leader : Bool) (t : Tables) (targetClientId taskId : Uuid)
    (request : RemoteUpdateLeaseRenewRequest) (now : ℕ) (draws : Draws) :
    Except UpdateTaskError (RemoteUpdateLeaseRenewResponse × Tables) := do
  contract (validateNonNilUuid targetClientId)
  contract (validateNonNilUuid taskId)
  assertLeader leader
  let found ← requireTask t taskId
  rejectIf (found.task.targetClientId ≠ targetClientId) .taskNotFound
  contract (request.validate found.task.action)
  authorizeLeaseToken found.task found.leaseTokenSha256 request.workerInstanceId
    request.leaseToken now
  rejectIf (¬ validRenewTransition found.task.stage request.stage found.task.action)
    .invalidTransition
  let requestedDeadline ← checkedDeadline now request.requestedLeaseSeconds
  let deadline ← renewDeadline found.task request requestedDeadline
  rejectIf (deadline ≤ now) .leaseExpired
  let task := renewTask found.task request.stage deadline now
  let t ← writeTask t task .preserve
  let t ← appendEvent t task .leaseRenewed now draws
  pure (⟨taskId, deadline, task.cancelRequested⟩, t)

/-- Tell a worker after a restart how its task stands. -/
def reconcile (leader : Bool) (t : Tables) (targetClientId taskId : Uuid)
    (request : RemoteUpdateReconcileRequest) (now : ℕ) (draws : Draws) :
    Except UpdateTaskError (RemoteUpdateReconcileResponse × Tables) := do
  contract (validateNonNilUuid targetClientId)
  contract (validateNonNilUuid taskId)
  contract request.validate
  assertLeader leader
  let found ← requireTask t taskId
  rejectIf (found.task.targetClientId ≠ targetClientId ∨ found.task.action ≠ request.action)
    .taskNotFound
  let t ← reconcileExpired t (some targetClientId) now draws
  let found ← requireTask t taskId
  if found.task.state.isTerminal then do
    let replay ← okOr found.terminalReplay .leaseConflict
    validateTerminalReconcile found.task replay request
    pure (⟨.terminal, found.task⟩, t)
  else do
    authorizeLeaseToken found.task found.leaseTokenSha256 request.workerInstanceId
      request.leaseToken now
    validateActiveReconcile found.task request
    pure (⟨.active, found.task⟩, t)

/-- What a report or a cancellation does to the token: it stays with its lease. -/
def tokenOf (task : RemoteUpdateTask) : TokenUpdate :=
  if task.leaseOwner.isSome then .preserve else .clear

/-- A worker's report. -/
def report (leader : Bool) (t : Tables) (targetClientId taskId : Uuid)
    (request : RemoteUpdateReportRequest) (now : ℕ) (draws : Draws) :
    Except UpdateTaskError (RemoteUpdateTask × Tables) := do
  contract (validateNonNilUuid targetClientId)
  contract (validateNonNilUuid taskId)
  assertLeader leader
  let found ← requireTask t taskId
  rejectIf (found.task.targetClientId ≠ targetClientId) .taskNotFound
  contract (request.validate found.task.action)
  if found.task.state.isTerminal then do
    let replay ← okOr found.terminalReplay .invalidTransition
    validateTerminalReportReplay replay request
    let t ← appendEvent t found.task .idempotentReplay now draws
    pure (found.task, t)
  else do
    validateWorkerReportTransition request.report found.task.action found.task.stage
      found.task.cancelRequested
    authorizeLeaseToken found.task found.leaseTokenSha256 request.workerInstanceId
      request.leaseToken now
    let reported ← applyWorkerReport found.task request.report now
    let token := if reported.1.state.isTerminal then
      .terminal (TerminalReportReplay.fromRequest request) else tokenOf reported.1
    let t ← writeTask t reported.1 token
    let t ← appendEvent t reported.1 reported.2 now draws
    pure (reported.1, t)

/-- Cancel a task, or ask its worker to. -/
def cancel (leader : Bool) (t : Tables) (taskId : Uuid) (request : CancelRemoteUpdateTaskRequest)
    (now : ℕ) (draws : Draws) : Except UpdateTaskError (RemoteUpdateTask × Tables) := do
  contract (validateNonNilUuid taskId)
  contract request.validate
  assertLeader leader
  let preliminary ← requireTask t taskId
  let t ← reconcileExpired t (some preliminary.task.targetClientId) now draws
  let found ← requireTask t taskId
  if found.task.state.isTerminal || found.task.cancelRequested then pure (found.task, t)
  else do
    let cancelled := cancelTask found.task now
    let t ← writeTask t cancelled.1 (tokenOf cancelled.1)
    let t ← appendEvent t cancelled.1 cancelled.2 now draws
    pure (cancelled.1, t)

/-- Make a call. -/
def call (leader : Bool) (t : Tables) (c : Call) : Except UpdateTaskError (Reply × Tables) :=
  match c.operation with
  | .create request requestedBy targetExists =>
    (create leader t request requestedBy targetExists c.now c.draws).map fun r => (.task r.1, r.2)
  | .list targetClientId requestedLimit =>
    (list leader t targetClientId requestedLimit c.now c.draws).map fun r => (.tasks r.1, r.2)
  | .detail taskId => (detail leader t taskId c.now c.draws).map fun r => (.detail r.1, r.2)
  | .reconcileAfterRestart =>
    (reconcileAfterRestart leader t c.now c.draws).map fun t => (.done, t)
  | .sweep => (sweep leader t c.now c.draws).map fun t => (.done, t)
  | .claim targetClientId request =>
    (claim leader t targetClientId request c.now c.draws).map fun r => (.claim r.1, r.2)
  | .renew targetClientId taskId request =>
    (renew leader t targetClientId taskId request c.now c.draws).map fun r => (.renewed r.1, r.2)
  | .report targetClientId taskId request =>
    (report leader t targetClientId taskId request c.now c.draws).map fun r => (.task r.1, r.2)
  | .reconcile targetClientId taskId request =>
    (reconcile leader t targetClientId taskId request c.now c.draws).map fun r =>
      (.reconciled r.1, r.2)
  | .cancel taskId request =>
    (cancel leader t taskId request c.now c.draws).map fun r => (.task r.1, r.2)

end Operations

end LinkLake.UpdateTasks.Postgres
