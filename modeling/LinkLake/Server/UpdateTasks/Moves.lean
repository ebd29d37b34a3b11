import LinkLake.Server.UpdateTasks.Catalog

/-!
# What the operations do to single tasks

Every operation of the ledger is a sequence of moves of single tasks: leases that are found lost,
and at most one move of its own. This module says once what each move needs and what it does, so
that every invariant of the ledger is a case analysis over moves.

* `TaskMove` is the abstract state machine: what can happen to one snapshot, why, and which event
  records it.
* `LedgerMove` lifts it to the ledger: one task moves, its event is recorded or sampled away, and
  everything else stays.
* `claim_moves`, `renew_moves`, `report_moves`, … decompose the operations, and `Step.moves` any
  call.
-/

namespace LinkLake.UpdateTasks

open Fallible

/-! ## Reading -/

variable {l l' : Ledger} {taskId : Uuid} {row : TaskRow} {tasks : List RemoteUpdateTask}

section Reading

variable [SemVer] {task : RemoteUpdateTask} {before : Uuid × TaskRow → Uuid × TaskRow → Prop}
  {p : TaskRow → Bool} {entry : Uuid × TaskRow}

theorem readTask_eq_ok :
    readTask entry = .ok task ↔ (entry.2.task entry.1).Valid ∧ task = entry.2.task entry.1 := by
  simp only [readTask, validateLoadedTask, bind_unit_eq_ok, elim_pure_eq_ok, stored_eq_ok,
    rejectIf_eq_ok, pure_eq_ok, RemoteUpdateTask.validate_eq_ok]
  constructor
  · rintro ⟨-, ⟨-, hvalid⟩, rfl⟩
    exact ⟨hvalid, rfl⟩
  · rintro ⟨hvalid, rfl⟩
    exact ⟨hvalid.result_validate, ⟨not_lt.mpr hvalid.attempt, hvalid⟩, rfl⟩

theorem taskById_eq_ok_some :
    taskById l taskId = .ok (some task) ↔
      ∃ row, l.tasks.get? taskId = some row ∧ (row.task taskId).Valid ∧ task = row.task taskId := by
  rw [taskById]
  cases hget : l.tasks.get? taskId with
  | none => simp
  | some row =>
    simp only [bind_eq_ok, pure_eq_ok, readTask_eq_ok, Option.some.injEq, exists_eq_left']
    exact ⟨fun ⟨a, h, heq⟩ => heq ▸ h, fun h => ⟨task, h, rfl⟩⟩

theorem requireTask_eq_ok :
    requireTask l taskId = .ok task ↔
      ∃ row, l.tasks.get? taskId = some row ∧ (row.task taskId).Valid ∧ task = row.task taskId := by
  rw [requireTask, bind_eq_ok, ← taskById_eq_ok_some]
  simp only [okOr_eq_ok]
  constructor
  · rintro ⟨found, h, rfl⟩
    exact h
  · exact fun h => ⟨_, h, rfl⟩

theorem readFirst_eq_ok_some {entries : List (Uuid × TaskRow)}
    (h : readFirst entries = .ok (some task)) :
    ∃ entry ∈ entries, (entry.2.task entry.1).Valid ∧ task = entry.2.task entry.1 := by
  cases entries with
  | nil => simp [readFirst] at h
  | cons entry entries =>
    obtain ⟨a, ha, heq⟩ := bind_eq_ok.mp h
    obtain rfl := Option.some.inj (pure_eq_ok.mp heq)
    exact ⟨entry, by simp, readTask_eq_ok.mp ha⟩

omit [SemVer] in
theorem readReplay_eq_ok {stored found : Option TerminalReportReplay} :
    readReplay stored = .ok found ↔
      found = stored ∧ ∀ replay ∈ stored, replay.workerInstanceId.isNil = false := by
  cases stored with
  | none =>
    rw [readReplay, Except.ok.injEq]
    exact ⟨fun h => ⟨h.symm, by simp⟩, fun h => h.1.symm⟩
  | some replay =>
    simp only [readReplay, bind_unit_eq_ok, rejectIf_eq_ok, pure_eq_ok, Bool.not_eq_true,
      Option.mem_def, Option.some.injEq, forall_eq']
    exact ⟨fun h => ⟨h.2.symm, h.1⟩, fun h => ⟨h.2, h.1.symm⟩⟩

omit [SemVer] in
theorem mem_select [DecidableRel before] :
    entry ∈ l.select p before ↔ l.tasks.get? entry.1 = some entry.2 ∧ p entry.2 = true := by
  rw [Ledger.select, List.mem_insertionSort, List.mem_filter, ← FiniteMap.mem_toList]

omit [SemVer] in
theorem nodup_select (p : TaskRow → Bool) (before : Uuid × TaskRow → Uuid × TaskRow → Prop)
    [DecidableRel before] : ((l.select p before).map Prod.fst).Nodup := by
  have hsub : ((l.tasks.toList.filter fun entry => p entry.2).map Prod.fst).Nodup :=
    List.Nodup.sublist (List.filter_sublist.map Prod.fst) l.tasks.nodup_keys
  exact ((List.perm_insertionSort before _).map Prod.fst).nodup_iff.mpr hsub

/-- Tasks that were just read: their rows hold them, and they pass their check. -/
def Fresh (l : Ledger) (p : TaskRow → Prop) (tasks : List RemoteUpdateTask) : Prop :=
  (tasks.map (·.taskId)).Nodup ∧ ∀ task ∈ tasks, task.Valid ∧
    ∃ row, l.tasks.get? task.taskId = some row ∧ p row ∧ task = row.task task.taskId

theorem ids_of_read [DecidableRel before] (h : (l.select p before).mapM readTask = .ok tasks) :
    tasks.map (·.taskId) = (l.select p before).map Prod.fst := by
  refine List.forall₂_eq_eq_eq ▸ ?_
  rw [List.forall₂_map_left_iff, List.forall₂_map_right_iff]
  refine (mapM_eq_ok_iff.mp h).flip.imp fun task entry hread => ?_
  obtain ⟨-, rfl⟩ := readTask_eq_ok.mp hread
  rfl

theorem fresh_of_read [DecidableRel before] (h : (l.select p before).mapM readTask = .ok tasks) :
    Fresh l (p · = true) tasks := by
  refine ⟨ids_of_read h ▸ nodup_select p before, fun task htask => ?_⟩
  obtain ⟨entry, hentry, hread⟩ := exists_mem_of_ok h htask
  obtain ⟨hvalid, rfl⟩ := readTask_eq_ok.mp hread
  obtain ⟨hget, hp⟩ := mem_select.mp hentry
  exact ⟨hvalid, entry.2, hget, hp, rfl⟩

end Reading

section Writing

variable {task : RemoteUpdateTask} {replay : Option TerminalReportReplay}
  {lease : Option LeaseColumns}

theorem writeRow_eq_ok :
    l.writeRow taskId row = .ok l' ↔ row.checks = true ∧
      (row.state.isTerminal = false → l.otherActive taskId row.targetClientId = false) ∧
      l' = { l with tasks := l.tasks.insert taskId row } := by
  simp only [Ledger.writeRow, bind_unit_eq_ok, rejectIf_eq_ok, not_and, Bool.not_eq_true,
    Bool.not_eq_false, Except.ok.injEq]
  exact and_congr_right fun _ => and_congr_right fun _ => eq_comm

theorem leaseColumns_ok {owner : Option Uuid} {token : Option Sha256Digest} {deadline : Option ℕ}
    (h : leaseColumns owner token deadline = .ok lease) :
    lease.map (·.leaseOwner) = owner ∧ lease.map (·.leaseDeadlineUnixSeconds) = deadline ∧
      ∀ columns ∈ lease, token = some columns.leaseTokenSha256 := by
  cases owner <;> cases token <;> cases deadline <;> simp_all [leaseColumns] <;> simp [← h]

/-- Two snapshots of one task, as far as its creation fixes it. -/
structure SameIdentity (a b : RemoteUpdateTask) : Prop where
  schemaVersion : b.schemaVersion = a.schemaVersion
  taskId : b.taskId = a.taskId
  targetClientId : b.targetClientId = a.targetClientId
  action : b.action = a.action
  requestedBy : b.requestedBy = a.requestedBy
  idempotencyKey : b.idempotencyKey = a.idempotencyKey
  created : b.createdUnixSeconds = a.createdUnixSeconds

theorem SameIdentity.trans {a b c : RemoteUpdateTask} (h : SameIdentity a b) (h' : SameIdentity b c) :
    SameIdentity a c where
  schemaVersion := h'.schemaVersion.trans h.schemaVersion
  taskId := h'.taskId.trans h.taskId
  targetClientId := h'.targetClientId.trans h.targetClientId
  action := h'.action.trans h.action
  requestedBy := h'.requestedBy.trans h.requestedBy
  idempotencyKey := h'.idempotencyKey.trans h.idempotencyKey
  created := h'.created.trans h.created

/-- Two snapshots of one task that has been handed out equally often. -/
structure SameOrigin (a b : RemoteUpdateTask) : Prop extends SameIdentity a b where
  attempt : b.attempt = a.attempt

theorem TaskRow.persist_task (horigin : SameOrigin (row.task taskId) task)
    (howner : lease.map (·.leaseOwner) = task.leaseOwner)
    (hdeadline : lease.map (·.leaseDeadlineUnixSeconds) = task.leaseDeadlineUnixSeconds) :
    (row.persist task lease replay).task taskId = task := by
  obtain ⟨⟨h1, h2, h3, h4, h5, h6, h7⟩, h8⟩ := horigin
  obtain ⟨_, _, _, _, _, _, _, _, _, _, _, _, _, _, _, _, _, _, _⟩ := task
  simp only [TaskRow.task] at h1 h2 h3 h4 h5 h6 h7 h8
  subst h1 h2 h3 h4 h5 h6 h7 h8
  simp [TaskRow.task, TaskRow.persist, howner, hdeadline]

/-- What a written transition leaves behind: a row that holds the new snapshot, with the token it
had, in place of the old one. -/
structure Persisted (l : Ledger) (row : TaskRow) (task : RemoteUpdateTask)
    (replay : Option TerminalReportReplay) (row' : TaskRow) (l' : Ledger) : Prop where
  task_eq : row'.task task.taskId = task
  fingerprint : row'.requestFingerprint = row.requestFingerprint
  token : ∀ columns ∈ row'.lease,
    row.lease.map (·.leaseTokenSha256) = some columns.leaseTokenSha256
  replay_eq : row'.terminalReplay = replay
  ledger : l' = { l with tasks := l.tasks.insert task.taskId row' }

theorem persistTaskAfterReport_ok
    (hget : l.tasks.get? task.taskId = some row) (horigin : SameOrigin (row.task task.taskId) task)
    (h : persistTaskAfterReport l task replay = .ok l') :
    ∃ row', Persisted l row task replay row' l' := by
  simp only [persistTaskAfterReport, hget, okOr_some, ok_bind, bind_unit_eq_ok] at h
  obtain ⟨-, -, -, h⟩ := h
  obtain ⟨lease, hlease, h⟩ := bind_eq_ok.mp h
  obtain ⟨-, -, rfl⟩ := writeRow_eq_ok.mp h
  obtain ⟨howner, hdeadline, htoken⟩ := leaseColumns_ok hlease
  exact ⟨row.persist task lease replay, TaskRow.persist_task horigin howner hdeadline, rfl, htoken,
    rfl, rfl⟩

theorem appendEvent_eq_ok {kind : RemoteUpdateEventKind} {now : ℕ} {draws : Draws} :
    appendEvent l task kind now draws = .ok l' ↔
      ∃ events, recordEvent l.events task kind now draws = .ok events ∧
        { l with events := events } = l' :=
  map_eq_ok

end Writing

/-! ## What a report does -/

/-- The effect of a report, case by case. -/
inductive ReportMove [SemVer] (now : ℕ) (task : RemoteUpdateTask) :
    RemoteUpdateWorkerReport → RemoteUpdateEventKind → RemoteUpdateTask → Prop
  | started (hcancel : task.cancelRequested = false) (hstage : task.stage = .claimed) :
      ReportMove now task (.started task.action.executionStage) .stageReported
        { task with
          state := .running, stage := task.action.executionStage, updatedUnixSeconds := now }
  | awaiting {plan : RemoteUpdateRestartPlan} (hcancel : task.cancelRequested = false)
      (hrestart : task.action.requiresRestart = true)
      (hstage : task.stage = task.action.executionStage)
      (hplan : plan.validate task.action = .ok ()) :
      ReportMove now task (.awaitingRestart plan) .stageReported
        (awaitRestart task plan now (now + remoteUpdateRestartResumeSeconds))
  | waits {plan : RemoteUpdateRestartPlan} (hstage : task.stage = .awaitingRestart)
      (hplan : task.restart.any (·.agreesWith plan) = true) :
      ReportMove now task (.awaitingRestart plan) .restartReconciled
        { task with updatedUnixSeconds := now }
  | succeeded {result : RemoteUpdateResult}
      (hstate : task.state = .running ∨ task.state = .cancelRequested)
      (hstage : task.stage.isExecuting = true) :
      ReportMove now task (.succeeded result) .succeeded (clearTaskLease { task with
        state := .succeeded, stage := .completed
        recoveryState := RemoteUpdateTask.successRecoveryState task.action
        result := some result, errorCode := none, updatedUnixSeconds := now
        completedUnixSeconds := some now, restart := none })
  | failed {errorCode : RemoteUpdateErrorCode} {recoveryState : RemoteUpdateRecoveryState}
      (hstate : task.state = .running ∨ task.state = .cancelRequested) :
      ReportMove now task (.failed errorCode recoveryState) .failed (clearTaskLease { task with
        state := .failed, stage := .failed, recoveryState := recoveryState
        errorCode := some errorCode, result := none, updatedUnixSeconds := now
        completedUnixSeconds := some now, restart := none })
  | cancelled (hcancel : task.cancelRequested = true)
      (hsafe : cancellationIsKnownSafe task = true) :
      ReportMove now task .cancelled .cancelled (clearTaskLease { task with
        state := .cancelled, stage := .cancelled, recoveryState := .none
        errorCode := some .cancelled, result := none, updatedUnixSeconds := now
        completedUnixSeconds := some now, restart := none })

variable {kind : RemoteUpdateEventKind} {now : ℕ} {task task' : RemoteUpdateTask}
  {report : RemoteUpdateWorkerReport}

theorem applyWorkerReport_cases [SemVer] (h : applyWorkerReport task report now = .ok (task', kind)) :
    ReportMove now task report kind task' := by
  cases report with
  | started stage =>
    simp only [applyWorkerReport] at h
    split at h
    · rename_i hcond
      simp only [Bool.and_eq_true, Bool.not_eq_true', beq_iff_eq] at hcond
      obtain ⟨⟨hcancel, hstage⟩, rfl⟩ := hcond
      cases h
      exact .started hcancel hstage
    · cases h
  | awaitingRestart plan =>
    simp only [applyWorkerReport] at h
    split at h
    · rename_i hcond
      simp only [Bool.and_eq_true, Bool.not_eq_true', beq_iff_eq] at hcond
      obtain ⟨resume, hresume, h⟩ := bind_eq_ok.mp h
      obtain ⟨-, rfl⟩ := checkedAdd_eq_ok.mp hresume
      obtain ⟨hplan, h⟩ := bind_unit_eq_ok.mp h
      cases h
      exact .awaiting hcond.1.1 hcond.1.2 hcond.2 (contract_eq_ok.mp hplan)
    · split at h
      · rename_i hcond
        simp only [Bool.and_eq_true, beq_iff_eq] at hcond
        cases h
        exact .waits hcond.1.2 hcond.2
      · cases h
  | succeeded result =>
    simp only [applyWorkerReport] at h
    split at h
    · rename_i hcond
      simp only [Bool.and_eq_true, Bool.or_eq_true, beq_iff_eq] at hcond
      cases h
      exact .succeeded hcond.1 hcond.2
    · cases h
  | failed errorCode recoveryState =>
    simp only [applyWorkerReport] at h
    split at h
    · rename_i hcond
      simp only [Bool.or_eq_true, beq_iff_eq] at hcond
      cases h
      exact .failed hcond
    · cases h
  | cancelled =>
    simp only [applyWorkerReport] at h
    split at h
    · rename_i hcond
      simp only [Bool.and_eq_true] at hcond
      cases h
      exact .cancelled hcond.1 hcond.2
    · cases h

theorem sameOrigin_applyLostLease (task : RemoteUpdateTask) (now : ℕ) :
    SameOrigin task (applyLostLease task now).1 := by
  rw [applyLostLease]
  split_ifs <;> exact ⟨⟨rfl, rfl, rfl, rfl, rfl, rfl, rfl⟩, rfl⟩

theorem sameOrigin_cancelTask (task : RemoteUpdateTask) (now : ℕ) :
    SameOrigin task (cancelTask task now).1 := by
  rw [cancelTask]
  split_ifs <;> exact ⟨⟨rfl, rfl, rfl, rfl, rfl, rfl, rfl⟩, rfl⟩

theorem ReportMove.sameOrigin [SemVer] (h : ReportMove now task report kind task') :
    SameOrigin task task' := by
  cases h <;> exact ⟨⟨rfl, rfl, rfl, rfl, rfl, rfl, rfl⟩, rfl⟩

/-! ## Moves of one task -/

/-- Why a task moves. -/
inductive Cause
  | created
  | recorded
  | leaseLost
  | exhausted
  | claimed (workerInstanceId leaseToken : Uuid)
  | renewed (request : RemoteUpdateLeaseRenewRequest)
  | reported (request : RemoteUpdateReportRequest)
  | cancelled
  deriving DecidableEq

namespace Cause

/-- The token that a move hands out. -/
def issued : Cause → Option Uuid
  | claimed _ leaseToken => some leaseToken
  | _ => none

/-- The token that a worker presents for a move. -/
def presented : Cause → Option Uuid
  | renewed request => some request.leaseToken
  | reported request => some request.leaseToken
  | _ => none

/-- What the move leaves as the record of the report that ended the task. -/
def replay [Digests] (state : RemoteUpdateTaskState) : Cause → Option TerminalReportReplay
  | reported request =>
    if state.isTerminal then some (TerminalReportReplay.fromRequest request) else none
  | _ => none

end Cause

/-- The worker holds the lease of the task, and the lease has not ended. -/
structure Holds (now : ℕ) (task : RemoteUpdateTask) (workerInstanceId : Uuid) : Prop where
  leased : task.state.isLeased = true
  owner : task.leaseOwner = some workerInstanceId
  deadline : ∃ deadline ∈ task.leaseDeadlineUnixSeconds, now < deadline

/-- **The state machine of one task**: what can happen to a snapshot, why, and which event records
it. -/
inductive TaskMove [SemVer] (now : ℕ) (task : RemoteUpdateTask) :
    Cause → RemoteUpdateEventKind → RemoteUpdateTask → Prop
  | replayed : TaskMove now task .recorded .idempotentReplay task
  | restartReconciled (hleased : task.state.isLeased = true) :
      TaskMove now task .recorded .restartReconciled task
  | leaseLost (hleased : task.state.isLeased = true)
      (hdue : ∀ deadline ∈ task.leaseDeadlineUnixSeconds, deadline ≤ now) :
      TaskMove now task .leaseLost (applyLostLease task now).2 (applyLostLease task now).1
  | exhausted (hqueued : task.state = .queued) (hattempt : maxClaimAttempts ≤ task.attempt) :
      TaskMove now task .exhausted .failed (exhaustTask task now)
  | claimed {workerInstanceId leaseToken : Uuid} {leaseDeadline : ℕ}
      (hqueued : task.state = .queued) (hattempt : task.attempt < maxClaimAttempts)
      (hworker : workerInstanceId.isNil = false) (hlater : now < leaseDeadline) :
      TaskMove now task (.claimed workerInstanceId leaseToken) .claimed
        (claimTask task workerInstanceId leaseDeadline now)
  | renewed {request : RemoteUpdateLeaseRenewRequest} {deadline : ℕ}
      (hholds : Holds now task request.workerInstanceId)
      (hrequest : request.validate task.action = .ok ())
      (hstage : validRenewTransition task.stage request.stage task.action = true)
      (hdeadline : renewDeadline task request (now + request.requestedLeaseSeconds) = .ok deadline)
      (hlater : now < deadline) :
      TaskMove now task (.renewed request) .leaseRenewed
        (renewTask task request.stage deadline now)
  | reported {request : RemoteUpdateReportRequest} {kind : RemoteUpdateEventKind}
      {reported : RemoteUpdateTask}
      (hholds : Holds now task request.workerInstanceId)
      (hrequest : request.validate task.action = .ok ())
      (hreport : request.report.validateForTask task.action task.stage task.cancelRequested
        = .ok ())
      (happly : applyWorkerReport task request.report now = .ok (reported, kind)) :
      TaskMove now task (.reported request) kind reported
  | cancelled (hactive : task.state.isTerminal = false) (hnew : task.cancelRequested = false)
      (hopen : task.state.isLeased = true →
        ∃ deadline ∈ task.leaseDeadlineUnixSeconds, now < deadline) :
      TaskMove now task .cancelled (cancelTask task now).2 (cancelTask task now).1

theorem TaskMove.of_leaseLost [SemVer] (h : TaskMove now task .leaseLost kind task') :
    task' = (applyLostLease task now).1 ∧ kind = (applyLostLease task now).2 := by
  cases h
  exact ⟨rfl, rfl⟩

theorem TaskMove.worker_of_reported [SemVer] {request : RemoteUpdateReportRequest}
    (h : TaskMove now task (.reported request) kind task') :
    request.workerInstanceId.isNil = false := by
  cases h with
  | reported _ hrequest =>
    simp only [RemoteUpdateReportRequest.validate, validateNonNilUuid, bind_unit_eq_ok,
      rejectIf_eq_ok, Bool.not_eq_true] at hrequest
    exact hrequest.1

theorem TaskMove.sameIdentity [SemVer] {cause : Cause} (h : TaskMove now task cause kind task') :
    SameIdentity task task' := by
  cases h with
  | leaseLost => exact (sameOrigin_applyLostLease _ _).toSameIdentity
  | reported _ _ _ happly => exact (applyWorkerReport_cases happly).sameOrigin.toSameIdentity
  | cancelled => exact (sameOrigin_cancelTask _ _).toSameIdentity
  | _ => exact ⟨rfl, rfl, rfl, rfl, rfl, rfl, rfl⟩

theorem isTerminal_of_leased {state : RemoteUpdateTaskState} (h : state.isLeased = true) :
    state.isTerminal = false := by
  cases state <;> first | rfl | cases h

theorem TaskMove.recorded_of_terminal [SemVer] {cause : Cause}
    (h : TaskMove now task cause kind task') (hterminal : task.state.isTerminal = true) :
    cause = .recorded ∧ task' = task := by
  have hnot : task.state.isTerminal ≠ false := by simp [hterminal]
  cases h with
  | replayed => exact ⟨rfl, rfl⟩
  | restartReconciled => exact ⟨rfl, rfl⟩
  | leaseLost hleased => exact absurd (isTerminal_of_leased hleased) hnot
  | exhausted hqueued => exact absurd (by rw [hqueued]; rfl) hnot
  | claimed hqueued => exact absurd (by rw [hqueued]; rfl) hnot
  | renewed hholds => exact absurd (isTerminal_of_leased hholds.leased) hnot
  | reported hholds => exact absurd (isTerminal_of_leased hholds.leased) hnot
  | cancelled hactive => exact absurd hactive hnot

/-- A move of a row: the snapshot moves, and the columns beside it follow. -/
structure RowMove [SemVer] [Digests] (now : ℕ) (taskId : Uuid) (row : TaskRow) (cause : Cause)
    (kind : RemoteUpdateEventKind) (row' : TaskRow) : Prop where
  move : TaskMove now (row.task taskId) cause kind (row'.task taskId)
  fingerprint : row'.requestFingerprint = row.requestFingerprint
  /-- Whoever presents a token presents the one that is stored. -/
  presented : ∀ token ∈ cause.presented,
    row.lease.map (·.leaseTokenSha256) = some (leaseTokenSha256 token)
  /-- A lease has the token that was handed out, now or before. -/
  token : ∀ columns ∈ row'.lease, match cause.issued with
    | some token => columns.leaseTokenSha256 = leaseTokenSha256 token
    | none => row.lease.map (·.leaseTokenSha256) = some columns.leaseTokenSha256
  replay : cause ≠ .recorded → row'.terminalReplay = cause.replay row'.state
  recorded : cause = .recorded → row' = row

/-- One row takes its new value, and its event is recorded. -/
structure Moved (now : ℕ) (draws : Draws) (l : Ledger) (taskId : Uuid) (row' : TaskRow)
    (kind : RemoteUpdateEventKind) (l' : Ledger) : Prop where
  tasks : ∀ j, l'.tasks.get? j = if j = taskId then some row' else l.tasks.get? j
  events : recordEvent l.events (row'.task taskId) kind now draws = .ok l'.events

/-- **The state machine of the ledger**: one task is created or moves. -/
inductive LedgerMove [SemVer] [Digests] (now : ℕ) (draws : Draws) (l : Ledger) :
    Uuid × Cause → Ledger → Prop
  | created {taskId : Uuid} {request : CreateRemoteUpdateTaskRequest} {requestedBy : String}
      {l' : Ledger} (hfresh : l.tasks.get? taskId = none) (hid : taskId.isNil = false)
      (hrequest : request.validate = .ok ()) (hrequester : requesterValid requestedBy = true)
      (hactive : l.otherActive taskId request.targetClientId = false)
      (hmoved : Moved now draws l taskId (newRow request requestedBy now) .created l') :
      LedgerMove now draws l (taskId, .created) l'
  | moved {taskId : Uuid} {cause : Cause} {kind : RemoteUpdateEventKind} {row row' : TaskRow}
      {l' : Ledger} (hget : l.tasks.get? taskId = some row) (hvalid : (row.task taskId).Valid)
      (hrow : RowMove now taskId row cause kind row')
      (hmoved : Moved now draws l taskId row' kind l') :
      LedgerMove now draws l (taskId, cause) l'

section Moves

variable [SemVer] [Digests] {l1 : Ledger} {row' : TaskRow} {draws : Draws} {cause : Cause}
  {j : Uuid} {ms : List (Uuid × Cause)} {p : TaskRow → Prop} {m : Uuid × Cause}

omit [SemVer] [Digests] in
theorem Moved.of_insert (hledger : l1 = { l with tasks := l.tasks.insert taskId row' })
    (happend : appendEvent l1 (row'.task taskId) kind now draws = .ok l') :
    Moved now draws l taskId row' kind l' := by
  subst hledger
  obtain ⟨events, hevents, rfl⟩ := appendEvent_eq_ok.mp happend
  exact ⟨fun j => FiniteMap.get?_insert _ _ _ _, hevents⟩

section

variable (hget : l.tasks.get? taskId = some row)
include hget

variable (hvalid : (row.task taskId).Valid)
include hvalid

theorem LedgerMove.of_recorded
    (hmove : TaskMove now (row.task taskId) .recorded kind (row.task taskId))
    (happend : appendEvent l (row.task taskId) kind now draws = .ok l') :
    LedgerMove now draws l (taskId, .recorded) l' := by
  obtain ⟨events, hevents, rfl⟩ := appendEvent_eq_ok.mp happend
  refine .moved hget hvalid ⟨hmove, rfl, by simp [Cause.presented], ?_, by simp, by simp⟩
    ⟨fun j => ?_, hevents⟩
  · intro columns hcolumns
    simp only [Cause.issued]
    rw [Option.mem_def.mp hcolumns, Option.map_some]
  · by_cases hj : j = taskId
    · rw [if_pos hj, hj, hget]
    · rw [if_neg hj]

theorem LedgerMove.of_persisted {replay : Option TerminalReportReplay}
    (hmove : TaskMove now (row.task taskId) cause kind task)
    (hpresented : ∀ token ∈ cause.presented,
      row.lease.map (·.leaseTokenSha256) = some (leaseTokenSha256 token))
    (hissued : cause.issued = none) (hcause : cause ≠ .recorded)
    (hreplay : replay = cause.replay task.state) (horigin : SameOrigin (row.task taskId) task)
    (hpersist : persistTaskAfterReport l task replay = .ok l1)
    (happend : appendEvent l1 task kind now draws = .ok l') :
    LedgerMove now draws l (taskId, cause) l' := by
  have hid : task.taskId = taskId := horigin.taskId
  obtain ⟨row', htask, hfinger, htoken, hrep, hledger⟩ :=
    persistTaskAfterReport_ok (by rw [hid]; exact hget) (by rw [hid]; exact horigin) hpersist
  rw [hid] at htask hledger
  have hstate : row'.state = task.state := congrArg (·.state) htask
  have hrow : RowMove now taskId row cause kind row' := {
    move := by rwa [htask]
    fingerprint := hfinger
    presented := hpresented
    token := by
      rw [hissued]
      exact htoken
    replay := fun _ => by rw [hrep, hreplay, hstate]
    recorded := fun h => absurd h hcause }
  exact .moved hget hvalid hrow (.of_insert hledger (by rwa [htask]))

theorem reconcileLostLease_move (hleased : row.state.isLeased = true)
    (hdue : ∀ columns ∈ row.lease, columns.leaseDeadlineUnixSeconds ≤ now)
    (h : reconcileLostLease l (row.task taskId) now draws = .ok l') :
    LedgerMove now draws l (taskId, .leaseLost) l' := by
  obtain ⟨l1, hpersist, happend⟩ := bind_eq_ok.mp h
  refine .of_persisted hget hvalid (.leaseLost hleased ?_) (by simp [Cause.presented]) rfl
    (by simp) rfl (sameOrigin_applyLostLease _ _) hpersist happend
  intro deadline hdeadline
  obtain ⟨columns, hcolumns, rfl⟩ := Option.map_eq_some_iff.mp hdeadline
  exact hdue columns hcolumns

end

theorem LedgerMove.get?_of_ne (h : LedgerMove now draws l (taskId, cause) l') (hj : j ≠ taskId) :
    l'.tasks.get? j = l.tasks.get? j := by
  cases h with
  | created _ _ _ _ _ hmoved => rw [hmoved.tasks, if_neg hj]
  | moved _ _ _ hmoved => rw [hmoved.tasks, if_neg hj]

/-- Where the row of a task comes from after a move. -/
inductive RowOrigin (now : ℕ) (l : Ledger) (j : Uuid) (m : Uuid × Cause) : TaskRow → Prop
  | kept {row : TaskRow} (hold : l.tasks.get? j = some row) : RowOrigin now l j m row
  | created {request : CreateRemoteUpdateTaskRequest} {requestedBy : String} (htask : j = m.1)
      (hid : j.isNil = false) (hrequest : request.validate = .ok ())
      (hrequester : requesterValid requestedBy = true)
      (hactive : l.otherActive j request.targetClientId = false) :
      RowOrigin now l j m (newRow request requestedBy now)
  | moved {old row : TaskRow} {kind : RemoteUpdateEventKind} (htask : j = m.1)
      (hold : l.tasks.get? j = some old) (hvalid : (old.task j).Valid)
      (hrow : RowMove now j old m.2 kind row) : RowOrigin now l j m row

theorem LedgerMove.origin (h : LedgerMove now draws l m l') (hget : l'.tasks.get? j = some row) :
    RowOrigin now l j m row := by
  obtain ⟨taskId, cause⟩ := m
  by_cases hj : j = taskId
  · subst hj
    cases h with
    | created _ hid hrequest hrequester hactive hmoved =>
      rw [hmoved.tasks, if_pos rfl] at hget
      cases hget
      exact .created rfl hid hrequest hrequester hactive
    | moved hold hvalid hrow hmoved =>
      rw [hmoved.tasks, if_pos rfl] at hget
      cases hget
      exact .moved rfl hold hvalid hrow
  · exact .kept ((h.get?_of_ne hj).symm.trans hget)

theorem LedgerMove.get?_some (h : LedgerMove now draws l m l') (hget : l.tasks.get? j = some row) :
    ∃ row', l'.tasks.get? j = some row' ∧ SameIdentity (row.task j) (row'.task j) := by
  obtain ⟨taskId, cause⟩ := m
  by_cases hj : j = taskId
  · subst hj
    cases h with
    | created hfresh => simp [hfresh] at hget
    | @moved _ _ _ old new _ hold _ hrow hmoved =>
      cases hget.symm.trans hold
      exact ⟨new, (hmoved.tasks j).trans (if_pos rfl), hrow.move.sameIdentity⟩
  · exact ⟨row, (h.get?_of_ne hj).trans hget, ⟨rfl, rfl, rfl, rfl, rfl, rfl, rfl⟩⟩

theorem run_get?_some (h : Run (LedgerMove now draws) l ms l') (hget : l.tasks.get? j = some row) :
    ∃ row', l'.tasks.get? j = some row' ∧ SameIdentity (row.task j) (row'.task j) := by
  induction h generalizing row with
  | nil => exact ⟨row, hget, ⟨rfl, rfl, rfl, rfl, rfl, rfl, rfl⟩⟩
  | cons hstep _ ih =>
    obtain ⟨row1, hget1, hsame1⟩ := hstep.get?_some hget
    obtain ⟨row2, hget2, hsame2⟩ := ih hget1
    exact ⟨row2, hget2, hsame1.trans hsame2⟩

theorem Fresh.tail
    (h : Fresh l p (task :: tasks)) (hmove : LedgerMove now draws l (task.taskId, cause) l1) :
    Fresh l1 p tasks := by
  obtain ⟨hnodup, hrows⟩ := h
  rw [List.map_cons, List.nodup_cons] at hnodup
  refine ⟨hnodup.2, fun other hother => ?_⟩
  obtain ⟨hvalid, row, hget, hp, htask⟩ := hrows other (by simp [hother])
  have hne : other.taskId ≠ task.taskId := fun heq => hnodup.1 (heq ▸ List.mem_map_of_mem hother)
  exact ⟨hvalid, row, (hmove.get?_of_ne hne).trans hget, hp, htask⟩

theorem foldlM_moves {f : Ledger → RemoteUpdateTask → Except UpdateTaskError Ledger}
    {q : Cause → Prop}
    (hf : ∀ l taskId row l', l.tasks.get? taskId = some row → (row.task taskId).Valid → p row →
      f l (row.task taskId) = .ok l' → ∃ cause, q cause ∧ LedgerMove now draws l (taskId, cause) l')
    (hfresh : Fresh l p tasks) (h : tasks.foldlM f l = .ok l') :
    ∃ ms, Run (LedgerMove now draws) l ms l' ∧ (∀ m ∈ ms, q m.2) ∧
      ms.map Prod.fst = tasks.map (·.taskId) := by
  induction tasks generalizing l with
  | nil =>
    cases h
    exact ⟨[], .nil _, by simp, rfl⟩
  | cons task tasks ih =>
    rw [List.foldlM_cons] at h
    obtain ⟨l1, hfirst, h⟩ := bind_eq_ok.mp h
    obtain ⟨hvalid, row, hget, hp, htask⟩ := hfresh.2 task (by simp)
    rw [htask] at hfirst
    obtain ⟨cause, hq, hmove⟩ := hf l task.taskId row l1 hget (htask ▸ hvalid) hp hfirst
    obtain ⟨ms, hrun, hqs, hids⟩ := ih (hfresh.tail hmove) h
    refine ⟨(task.taskId, cause) :: ms, .cons hmove hrun, ?_, by simp [hids]⟩
    intro m hm
    rcases List.mem_cons.mp hm with rfl | hm
    · exact hq
    · exact hqs m hm

omit [SemVer] [Digests] in
theorem lease_applyLostLease (task : RemoteUpdateTask) (now : ℕ) :
    (applyLostLease task now).1.leaseOwner = none ∧
      (applyLostLease task now).1.leaseDeadlineUnixSeconds = none := by
  rw [applyLostLease]
  split_ifs <;> exact ⟨rfl, rfl⟩

omit [SemVer] [Digests] in
theorem isLeased_applyLostLease (task : RemoteUpdateTask) (now : ℕ) :
    (applyLostLease task now).1.state.isLeased = false := by
  rw [applyLostLease]
  split_ifs <;> rfl

theorem get?_of_leaseLost
    (h : Run (LedgerMove now draws) l ms l') (hms : ∀ m ∈ ms, m.2 = .leaseLost)
    (hget : l'.tasks.get? j = some row) (hleased : row.state.isLeased = true) :
    l.tasks.get? j = some row ∧ j ∉ ms.map Prod.fst := by
  induction h with
  | nil => exact ⟨hget, by simp⟩
  | @cons l l1 l' m ms hstep hrun ih =>
    obtain ⟨hget1, hj⟩ := ih (fun m hm => hms m (by simp [hm])) hget
    have hne : j ≠ m.1 := by
      rintro rfl
      obtain ⟨taskId, cause⟩ := m
      obtain rfl : cause = .leaseLost := hms (taskId, cause) (by simp)
      cases hstep with
      | @moved _ _ _ old new _ _ _ hrow hmoved =>
        rw [hmoved.tasks, if_pos rfl] at hget1
        obtain rfl := Option.some.inj hget1
        have hlost : new.state = (applyLostLease (old.task taskId) now).1.state :=
          congrArg (·.state) hrow.move.of_leaseLost.1
        rw [hlost, isLeased_applyLostLease] at hleased
        cases hleased
    exact ⟨(hstep.get?_of_ne hne).symm.trans hget1, by simp [hne, hj]⟩

theorem reconcileExpiredLeases_moves {target : Option Uuid}
    (h : reconcileExpiredLeases l target now draws = .ok l') :
    ∃ ms, Run (LedgerMove now draws) l ms l' ∧ (∀ m ∈ ms, m.2 = .leaseLost) ∧
      ∀ j row, l'.tasks.get? j = some row → ofTarget target row = true →
        leaseExpired now row = false := by
  obtain ⟨tasks, hread, hfold⟩ := bind_eq_ok.mp h
  obtain ⟨-, hread⟩ := bind_unit_eq_ok.mp hread
  have hmove : ∀ l taskId row l', l.tasks.get? taskId = some row → (row.task taskId).Valid →
      (ofTarget target row && leaseExpired now row) = true →
      reconcileLostLease l (row.task taskId) now draws = .ok l' →
      ∃ cause, cause = .leaseLost ∧ LedgerMove now draws l (taskId, cause) l' := by
    intro l taskId row l' hget hvalid hp hlost
    simp only [leaseExpired, Bool.and_eq_true, Option.all_eq_true, decide_eq_true_eq] at hp
    exact ⟨_, rfl, reconcileLostLease_move hget hvalid hp.2.1 hp.2.2 hlost⟩
  obtain ⟨ms, hrun, hms, hids⟩ := foldlM_moves hmove (fresh_of_read hread) hfold
  refine ⟨ms, hrun, hms, fun j row hget htarget => ?_⟩
  by_contra hexpired
  rw [Bool.not_eq_false] at hexpired
  have hleased := (Bool.and_eq_true_iff.mp hexpired).1
  obtain ⟨hget0, hj⟩ := get?_of_leaseLost hrun hms hget hleased
  -- it was expired before, so it was selected
  refine hj ?_
  rw [hids, ids_of_read hread]
  exact List.mem_map.mpr ⟨(j, row), mem_select.mpr ⟨hget0, by simp [htarget, hexpired]⟩, rfl⟩

end Moves

end LinkLake.UpdateTasks
