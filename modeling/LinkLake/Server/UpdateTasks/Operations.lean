import LinkLake.Server.UpdateTasks.Moves

/-!
# The operations as sequences of moves

Each operation of the ledger, when it succeeds, is a sequence of lost leases followed by at most
one move of its own; this module proves one decomposition per operation (`claim_moves`,
`renew_moves`, `report_moves`, `create_moves`, `cancel_moves`, …) and from them `Step.moves` for
any call.
-/

namespace LinkLake.UpdateTasks

open Fallible

variable [SemVer] [Digests] {l l' : Ledger} {taskId target worker : Uuid} {row : TaskRow}
  {now deadline : ℕ} {draws : Draws} {c : Call} {l1 : Ledger} {task : RemoteUpdateTask}
  {request : CreateRemoteUpdateTaskRequest} {stage : RemoteUpdateStage} {columns : LeaseColumns}
  {requestedBy : String} {client : Option Uuid} {e : Call × Reply}

attribute [local simp] Cause.presented

/-! ## The holder's operations -/

omit [SemVer] in
theorem authorizeLease_ok {token : Uuid} (hget : l.tasks.get? taskId = some row)
    (h : authorizeLease l (row.task taskId) worker token now = .ok ()) :
    Holds now (row.task taskId) worker ∧
      row.lease.map (·.leaseTokenSha256) = some (leaseTokenSha256 token) := by
  have hget' : l.tasks.get? (row.task taskId).taskId = some row := hget
  simp only [authorizeLease, authorizeLeaseOwner, authorizeLeaseToken, bind_unit_eq_ok, hget',
    okOr_some, ok_bind, rejectIf_eq_ok, not_or, ne_eq, not_not, Bool.not_eq_false] at h
  obtain ⟨⟨⟨hleased, howner⟩, hopen⟩, -, htoken⟩ := h
  refine ⟨⟨hleased, howner, ?_⟩, htoken⟩
  cases hdeadline : (row.task taskId).leaseDeadlineUnixSeconds with
  | none => simp [hdeadline] at hopen
  | some deadline => exact ⟨deadline, rfl, by simpa [hdeadline] using hopen⟩

omit [SemVer] [Digests] in
theorem TaskRow.terminalReplay_eq_none (hchecks : row.checks = true)
    (hstate : row.state.isTerminal = false) : row.terminalReplay = none := by
  simp only [TaskRow.checks, Bool.and_eq_true, hstate, Bool.or_false] at hchecks
  exact Option.isNone_iff_eq_none.mp hchecks.1.1.1.1.2

omit [SemVer] [Digests] in
theorem TaskRow.renew_task (hlease : row.lease = some columns) :
    (row.renew (renewTask (row.task taskId) stage deadline now) deadline).task taskId =
      renewTask (row.task taskId) stage deadline now := by
  simp [TaskRow.renew, TaskRow.task, renewTask, hlease]

omit [SemVer] [Digests] in
theorem isTerminal_renewTask (task : RemoteUpdateTask) (stage : RemoteUpdateStage)
    (deadline now : ℕ) : (renewTask task stage deadline now).state.isTerminal = false := by
  simp only [renewTask]
  split_ifs <;> rfl

theorem renew_moves {request : RemoteUpdateLeaseRenewRequest}
    {response : RemoteUpdateLeaseRenewResponse}
    (h : renew l target taskId request now draws = .ok (response, l')) :
    LedgerMove now draws l (taskId, .renewed request) l' := by
  simp only [renew, bind_unit_eq_ok, contract_eq_ok] at h
  obtain ⟨-, -, h⟩ := h
  obtain ⟨task, htask, h⟩ := bind_eq_ok.mp h
  obtain ⟨row, hget, hvalid, rfl⟩ := requireTask_eq_ok.mp htask
  simp only [bind_unit_eq_ok, contract_eq_ok, rejectIf_eq_ok, not_not] at h
  obtain ⟨-, hrequest, hauth, hstage, h⟩ := h
  obtain ⟨requested, hrequested, h⟩ := bind_eq_ok.mp h
  obtain ⟨-, rfl⟩ := checkedAdd_eq_ok.mp hrequested
  obtain ⟨deadline, hdeadline, h⟩ := bind_eq_ok.mp h
  have hget' : l.tasks.get? (renewTask (row.task taskId) request.stage deadline now).taskId
      = some row := hget
  simp only [bind_unit_eq_ok, rejectIf_eq_ok, not_le, hget', okOr_some, ok_bind] at h
  obtain ⟨hlater, -, -, h⟩ := h
  obtain ⟨l1, hwrite, h⟩ := bind_eq_ok.mp h
  obtain ⟨l2, happend, h⟩ := bind_eq_ok.mp h
  cases h
  obtain ⟨hholds, htoken⟩ := authorizeLease_ok hget hauth
  obtain ⟨hchecks, -, hledger⟩ := writeRow_eq_ok.mp hwrite
  obtain ⟨columns, hlease, -⟩ := Option.map_eq_some_iff.mp htoken
  have htask' : (row.renew (renewTask (row.task taskId) request.stage deadline now) deadline).task
      taskId = renewTask (row.task taskId) request.stage deadline now := TaskRow.renew_task hlease
  have hrow : RowMove now taskId row (.renewed request) .leaseRenewed
      (row.renew (renewTask (row.task taskId) request.stage deadline now) deadline) := {
    move := by
      rw [htask']
      exact .renewed hholds hrequest hstage hdeadline hlater
    fingerprint := rfl
    presented := by simpa using htoken
    token := by simp [Cause.issued, TaskRow.renew, hlease]
    replay := fun _ => TaskRow.terminalReplay_eq_none hchecks
      (isTerminal_renewTask (row.task taskId) request.stage deadline now)
    recorded := fun h => nomatch h }
  exact .moved hget hvalid hrow (.of_insert hledger (by rwa [htask']))

/-- A report on a task that has not ended. -/
structure Reports (now : ℕ) (draws : Draws) (l : Ledger) (taskId : Uuid)
    (request : RemoteUpdateReportRequest) (task : RemoteUpdateTask) (l' : Ledger) : Prop where
  move : LedgerMove now draws l (taskId, .reported request) l'
  reply : ∃ row', l'.tasks.get? taskId = some row' ∧ task = row'.task taskId

/-- A report on a task that has ended. -/
structure Replays (now : ℕ) (draws : Draws) (l : Ledger) (taskId : Uuid) (row : TaskRow)
    (request : RemoteUpdateReportRequest) (task : RemoteUpdateTask) (l' : Ledger) : Prop where
  replay : ∃ replay, row.terminalReplay = some replay ∧
    validateTerminalReportReplay replay request = .ok ()
  move : LedgerMove now draws l (taskId, .recorded) l'
  reply : task = row.task taskId

theorem replayTerminalReport_moves {request : RemoteUpdateReportRequest}
    (hget : l.tasks.get? taskId = some row) (hvalid : (row.task taskId).Valid)
    (h : replayTerminalReport l (row.task taskId) request now draws = .ok (task, l')) :
    Replays now draws l taskId row request task l' := by
  have hrow : (l.tasks.get? (row.task taskId).taskId).bind (·.terminalReplay)
      = row.terminalReplay := by
    simp [TaskRow.task, hget]
  obtain ⟨found, hfound, h⟩ := bind_eq_ok.mp h
  rw [terminalReportReplay, hrow, readReplay_eq_ok] at hfound
  obtain ⟨replay, hreplay, h⟩ := bind_eq_ok.mp h
  rw [okOr_eq_ok, hfound.1] at hreplay
  obtain ⟨hsame, h⟩ := bind_unit_eq_ok.mp h
  obtain ⟨l1, happend, h⟩ := bind_eq_ok.mp h
  cases h
  exact ⟨⟨replay, hreplay, hsame⟩, .of_recorded hget hvalid .replayed happend, rfl⟩

omit [Digests] in
theorem validateWorkerReportTransition_eq_ok {report : RemoteUpdateWorkerReport}
    {action : RemoteUpdateAction} {cancelRequested : Bool} :
    validateWorkerReportTransition report action stage cancelRequested = .ok () ↔
      report.validateForTask action stage cancelRequested = .ok () := by
  rw [validateWorkerReportTransition]
  split <;> simp_all

theorem report_moves {request : RemoteUpdateReportRequest}
    (h : report l target taskId request now draws = .ok (task, l')) :
    ∃ row, l.tasks.get? taskId = some row ∧ (row.task taskId).Valid ∧
      row.targetClientId = target ∧ request.validate row.action = .ok () ∧
      (row.state.isTerminal = true ∧ Replays now draws l taskId row request task l' ∨
        row.state.isTerminal = false ∧ Reports now draws l taskId request task l') := by
  simp only [report, bind_unit_eq_ok, contract_eq_ok] at h
  obtain ⟨-, -, h⟩ := h
  obtain ⟨_, htask, h⟩ := bind_eq_ok.mp h
  obtain ⟨row, hget, hvalid, rfl⟩ := requireTask_eq_ok.mp htask
  simp only [bind_unit_eq_ok, contract_eq_ok, rejectIf_eq_ok, ne_eq, not_not] at h
  obtain ⟨htarget, hrequest, h⟩ := h
  refine ⟨row, hget, hvalid, htarget, hrequest, ?_⟩
  by_cases hstate : (row.task taskId).state.isTerminal = true
  · rw [if_pos hstate] at h
    exact .inl ⟨hstate, replayTerminalReport_moves hget hvalid h⟩
  · rw [if_neg hstate] at h
    simp only [bind_unit_eq_ok, validateWorkerReportTransition_eq_ok] at h
    obtain ⟨hreport, hauth, h⟩ := h
    obtain ⟨⟨reported, kind⟩, happly, h⟩ := bind_eq_ok.mp h
    obtain ⟨l1, hpersist, h⟩ := bind_eq_ok.mp h
    obtain ⟨l2, happend, h⟩ := bind_eq_ok.mp h
    cases h
    obtain ⟨hholds, htoken⟩ := authorizeLease_ok hget hauth
    have horigin := (applyWorkerReport_cases happly).sameOrigin
    have hid : reported.taskId = taskId := horigin.taskId
    refine .inr ⟨Bool.eq_false_iff.mpr hstate, ?_, ?_⟩
    · exact .of_persisted hget hvalid (.reported hholds hrequest hreport happly)
        (by simpa using htoken) rfl (by simp) rfl horigin hpersist happend
    · obtain ⟨row', hrow', -, -, -, rfl⟩ :=
        persistTaskAfterReport_ok (by rw [hid]; exact hget) (by rw [hid]; exact horigin) hpersist
      obtain ⟨events, -, rfl⟩ := appendEvent_eq_ok.mp happend
      exact ⟨row', by simp [hid], by rw [← hrow', hid]⟩

/-! ## Handing out -/

omit [Digests] in
theorem oldestQueuedTask_ok (h : oldestQueuedTask l target = .ok (some task)) :
    ∃ taskId row, l.tasks.get? taskId = some row ∧ (row.task taskId).Valid ∧
      row.state = .queued ∧ task = row.task taskId := by
  obtain ⟨⟨taskId, row⟩, hmem, hvalid, rfl⟩ := readFirst_eq_ok_some h
  obtain ⟨hget, hp⟩ := mem_select.mp hmem
  simp only [Bool.and_eq_true, beq_iff_eq] at hp
  exact ⟨taskId, row, hget, hvalid, hp.2, rfl⟩

omit [SemVer] [Digests] in
theorem TaskRow.claim_task (hrestart : row.restartBinding = none) :
    (row.claim (claimTask (row.task taskId) columns.leaseOwner columns.leaseDeadlineUnixSeconds now)
      columns).task taskId =
      claimTask (row.task taskId) columns.leaseOwner columns.leaseDeadlineUnixSeconds now := by
  simp [TaskRow.claim, TaskRow.task, claimTask, hrestart]

/-- What a claim that hands out a task does. -/
structure Claims (now : ℕ) (draws : Draws) (l : Ledger) (worker : Uuid)
    (claim : RemoteUpdateClaim) (l' : Ledger) : Prop where
  move : LedgerMove now draws l (claim.task.taskId, .claimed worker draws.leaseToken) l'
  token : claim.leaseToken = draws.leaseToken
  owner : claim.task.leaseOwner = some worker
  reply : ∃ row', l'.tasks.get? claim.task.taskId = some row' ∧
    claim.task = row'.task claim.task.taskId

theorem claims_of_write (hget : l.tasks.get? taskId = some row) (hvalid : (row.task taskId).Valid)
    (hqueued : row.state = .queued) (hattempt : row.attempt < maxClaimAttempts)
    (hworker : worker.isNil = false) (hlater : now < deadline)
    (hwrite : l.writeRow taskId (row.claim (claimTask (row.task taskId) worker deadline now)
      ⟨worker, leaseTokenSha256 draws.leaseToken, deadline⟩) = .ok l1)
    (happend : appendEvent l1 (claimTask (row.task taskId) worker deadline now) .claimed now draws
      = .ok l') : Claims now draws l worker
      ⟨claimTask (row.task taskId) worker deadline now, draws.leaseToken, deadline⟩ l' := by
  let row' := row.claim (claimTask (row.task taskId) worker deadline now)
    ⟨worker, leaseTokenSha256 draws.leaseToken, deadline⟩
  have htask : row'.task taskId = claimTask (row.task taskId) worker deadline now :=
    TaskRow.claim_task (hvalid.queuedShape hqueued).restart
  obtain ⟨hchecks, -, hledger⟩ := writeRow_eq_ok.mp hwrite
  have hrow : RowMove now taskId row (.claimed worker draws.leaseToken) .claimed row' := {
    move := by
      rw [htask]
      exact .claimed hqueued hattempt hworker hlater
    fingerprint := rfl
    presented := by simp
    token := by simp [Cause.issued, row', TaskRow.claim]
    replay := fun _ => TaskRow.terminalReplay_eq_none hchecks rfl
    recorded := fun h => nomatch h }
  have hmoved : Moved now draws l taskId row' .claimed l' := .of_insert hledger (by rwa [htask])
  exact ⟨.moved hget hvalid hrow hmoved, rfl, rfl, row',
    (hmoved.tasks taskId).trans (if_pos rfl), htask.symm⟩

/-- Lost leases, and then perhaps one move. -/
def Tidied (now : ℕ) (draws : Draws) (l l1 : Ledger) : Prop :=
  ∃ ms, Run (LedgerMove now draws) l ms l1 ∧ ∀ m ∈ ms, m.2 = .leaseLost

theorem tidied_of_reconcile
    (h : reconcileExpiredLeases l client now draws = .ok l1) : Tidied now draws l l1 := by
  obtain ⟨ms, hrun, hms, -⟩ := reconcileExpiredLeases_moves h
  exact ⟨ms, hrun, hms⟩

theorem claim_moves {request : RemoteUpdateClaimRequest} {reply : Option RemoteUpdateClaim}
    (h : claim l target request now draws = .ok (reply, l')) :
    ∃ l1, Tidied now draws l l1 ∧
      ((reply = none ∧ l' = l1) ∨
        (reply = none ∧ ∃ taskId, LedgerMove now draws l1 (taskId, .exhausted) l') ∨
        ∃ claim, reply = some claim ∧ Claims now draws l1 request.workerInstanceId claim l') := by
  simp only [claim, bind_unit_eq_ok, contract_eq_ok, RemoteUpdateClaimRequest.validate,
    validateNonNilUuid, validateLeaseSeconds, rejectIf_eq_ok, Bool.not_eq_true, not_not] at h
  obtain ⟨-, ⟨hworker, hlease⟩, h⟩ := h
  obtain ⟨l1, hexpired, h⟩ := bind_eq_ok.mp h
  refine ⟨l1, tidied_of_reconcile hexpired, ?_⟩
  obtain ⟨found, hfound, h⟩ := bind_eq_ok.mp h
  cases found with
  | none =>
    cases h
    exact .inl ⟨rfl, rfl⟩
  | some task =>
    obtain ⟨taskId, row, hget, hvalid, hqueued, rfl⟩ := oldestQueuedTask_ok hfound
    refine .inr ?_
    by_cases hattempt : (row.task taskId).attempt ≥ maxClaimAttempts
    · simp only [if_pos hattempt] at h
      obtain ⟨l2, hpersist, h⟩ := bind_eq_ok.mp h
      obtain ⟨l3, happend, h⟩ := bind_eq_ok.mp h
      cases h
      exact .inl ⟨rfl, taskId, .of_persisted hget hvalid (.exhausted hqueued hattempt)
        (by simp) rfl (by simp) rfl ⟨⟨rfl, rfl, rfl, rfl, rfl, rfl, rfl⟩, rfl⟩
        hpersist happend⟩
    · simp only [if_neg hattempt] at h
      obtain ⟨deadline, hdeadline, h⟩ := bind_eq_ok.mp h
      have hlater : now < deadline := by
        rw [(checkedAdd_eq_ok.mp hdeadline).2]
        simp only [remoteUpdateMinLeaseSeconds] at hlease
        omega
      have hgetq : (l1.tasks.get? taskId).filter (·.state == .queued) = some row := by
        simp [hget, hqueued]
      have hid : (claimTask (row.task taskId) request.workerInstanceId deadline now).taskId
          = taskId := rfl
      simp only [bind_unit_eq_ok, hid, hgetq, okOr_some, ok_bind] at h
      obtain ⟨-, -, h⟩ := h
      obtain ⟨l2, hwrite, h⟩ := bind_eq_ok.mp h
      obtain ⟨l3, happend, h⟩ := bind_eq_ok.mp h
      cases h
      refine .inr ⟨_, rfl, ?_⟩
      exact claims_of_write hget hvalid hqueued (not_le.mp hattempt) hworker hlater hwrite happend

/-! ## Creation and cancellation -/

theorem insertTask_moves
    (hrequest : request.validate = .ok ()) (hrequester : requesterValid requestedBy = true)
    (h : insertTask l (newRow request requestedBy now) now draws = .ok (task, l')) :
    LedgerMove now draws l (draws.taskId, .created) l' := by
  simp only [insertTask, bind_unit_eq_ok, rejectIf_eq_ok] at h
  obtain ⟨-, hfresh, -, h⟩ := h
  obtain ⟨l1, hwrite, h⟩ := bind_eq_ok.mp h
  obtain ⟨l2, happend, h⟩ := bind_eq_ok.mp h
  cases h
  obtain ⟨-, hactive, hledger⟩ := writeRow_eq_ok.mp hwrite
  exact .created (FiniteMap.get?_eq_none.mpr hfresh) draws.taskId_ne_nil hrequest hrequester
    (hactive rfl) (.of_insert hledger happend)

theorem create_moves {targetExists : Bool}
    (h : create l request requestedBy targetExists now draws = .ok (task, l')) :
    ∃ l1 taskId cause, Tidied now draws l l1 ∧ (cause = .created ∨ cause = .recorded) ∧
      LedgerMove now draws l1 (taskId, cause) l' := by
  simp only [create, bind_unit_eq_ok, contract_eq_ok, validateRequestedBy, rejectIf_eq_ok,
    not_not] at h
  obtain ⟨hrequest, hrequester, -, h⟩ := h
  obtain ⟨found, -, h⟩ := bind_eq_ok.mp h
  cases found with
  | none =>
    obtain ⟨l1, hexpired, h⟩ := bind_eq_ok.mp h
    simp only [bind_unit_eq_ok] at h
    exact ⟨l1, draws.taskId, .created, tidied_of_reconcile hexpired, .inl rfl,
      insertTask_moves hrequest hrequester h.2.2⟩
  | some existing =>
    obtain ⟨row, -, h⟩ := bind_eq_ok.mp h
    obtain ⟨-, h⟩ := bind_unit_eq_ok.mp h
    obtain ⟨l1, hexpired, h⟩ := bind_eq_ok.mp h
    obtain ⟨again, hagain, h⟩ := bind_eq_ok.mp h
    obtain ⟨row', hget, hvalid, rfl⟩ := requireTask_eq_ok.mp hagain
    obtain ⟨l2, happend, h⟩ := bind_eq_ok.mp h
    cases h
    exact ⟨l1, existing.taskId, .recorded, tidied_of_reconcile hexpired, .inr rfl,
      .of_recorded hget hvalid .replayed happend⟩

omit [SemVer] [Digests] in
theorem lease_open (h : leaseExpired now row = false) (hleased : row.state.isLeased = true) :
    ∃ deadline ∈ (row.task taskId).leaseDeadlineUnixSeconds, now < deadline := by
  simp only [leaseExpired, hleased, Bool.true_and] at h
  cases hlease : row.lease with
  | none => simp [hlease] at h
  | some columns => exact ⟨columns.leaseDeadlineUnixSeconds, by simp [TaskRow.task, hlease],
      by simpa [hlease] using h⟩

theorem lease_open_of_reconciled {row1 : TaskRow}
    (h : reconcileExpiredLeases l (some (row.task taskId).targetClientId) now draws = .ok l1)
    (hget : l.tasks.get? taskId = some row) (hget1 : l1.tasks.get? taskId = some row1)
    (hleased : row1.state.isLeased = true) :
    ∃ deadline ∈ (row1.task taskId).leaseDeadlineUnixSeconds, now < deadline := by
  obtain ⟨ms, hrun, -, hopen⟩ := reconcileExpiredLeases_moves h
  -- the task is still the same client's, so its lease is one of those that were looked at
  have htarget : ofTarget (some (row.task taskId).targetClientId) row1 = true := by
    obtain ⟨row2, hget2, hsame⟩ := run_get?_some hrun hget
    cases hget1.symm.trans hget2
    simpa [ofTarget, TaskRow.task] using hsame.targetClientId
  exact lease_open (hopen taskId row1 hget1 htarget) hleased

theorem cancel_moves {request : CancelRemoteUpdateTaskRequest}
    (h : cancel l taskId request now draws = .ok (task, l')) : ∃ l1, Tidied now draws l l1 ∧
      (l' = l1 ∨ LedgerMove now draws l1 (taskId, .cancelled) l') := by
  simp only [cancel, bind_unit_eq_ok] at h
  obtain ⟨-, -, h⟩ := h
  obtain ⟨before, hbefore, h⟩ := bind_eq_ok.mp h
  obtain ⟨row, hget, hvalid, rfl⟩ := requireTask_eq_ok.mp hbefore
  obtain ⟨l1, hexpired, h⟩ := bind_eq_ok.mp h
  obtain ⟨again, hagain, h⟩ := bind_eq_ok.mp h
  obtain ⟨row1, hget1, hvalid1, rfl⟩ := requireTask_eq_ok.mp hagain
  refine ⟨l1, tidied_of_reconcile hexpired, ?_⟩
  split at h
  · exact .inl (pair_eq_ok.mp h).2.symm
  · rename_i hcond
    simp only [Bool.or_eq_true, not_or, Bool.not_eq_true] at hcond
    obtain ⟨l2, hpersist, h⟩ := bind_eq_ok.mp h
    obtain ⟨l3, happend, h⟩ := bind_eq_ok.mp h
    cases h
    have hmove := TaskMove.cancelled hcond.1 hcond.2
      fun hleased => lease_open_of_reconciled hexpired hget hget1 hleased
    exact .inr (.of_persisted hget1 hvalid1 hmove (by simp) rfl (by simp) rfl
      (sameOrigin_cancelTask _ _) hpersist happend)

/-! ## Maintenance -/

theorem reconcile_moves {request : RemoteUpdateReconcileRequest}
    {response : RemoteUpdateReconcileResponse}
    (h : reconcile l target taskId request now draws = .ok (response, l')) :
    Tidied now draws l l' := by
  simp only [reconcile, bind_unit_eq_ok] at h
  obtain ⟨-, -, -, h⟩ := h
  obtain ⟨before, -, h⟩ := bind_eq_ok.mp h
  obtain ⟨-, h⟩ := bind_unit_eq_ok.mp h
  obtain ⟨l1, hexpired, h⟩ := bind_eq_ok.mp h
  obtain ⟨again, -, h⟩ := bind_eq_ok.mp h
  split at h
  · obtain ⟨found, -, h⟩ := bind_eq_ok.mp h
    obtain ⟨replay, -, h⟩ := bind_eq_ok.mp h
    obtain ⟨-, h⟩ := bind_unit_eq_ok.mp h
    cases h
    exact tidied_of_reconcile hexpired
  · simp only [bind_unit_eq_ok] at h
    cases h.2.2
    exact tidied_of_reconcile hexpired

theorem list_moves {limit : ℕ} {tasks : List RemoteUpdateTask}
    (h : list l client limit now draws = .ok (tasks, l')) : Tidied now draws l l' := by
  obtain ⟨-, h⟩ := bind_unit_eq_ok.mp h
  obtain ⟨l1, hexpired, h⟩ := bind_eq_ok.mp h
  obtain ⟨read, -, h⟩ := bind_eq_ok.mp h
  cases h
  exact tidied_of_reconcile hexpired

theorem detail_moves {reply : RemoteUpdateTaskDetail}
    (h : detail l taskId now draws = .ok (reply, l')) : Tidied now draws l l' := by
  obtain ⟨-, h⟩ := bind_unit_eq_ok.mp h
  obtain ⟨before, -, h⟩ := bind_eq_ok.mp h
  obtain ⟨l1, hexpired, h⟩ := bind_eq_ok.mp h
  obtain ⟨again, -, h⟩ := bind_eq_ok.mp h
  obtain ⟨-, h⟩ := bind_unit_eq_ok.mp h
  cases h
  exact tidied_of_reconcile hexpired

theorem reconcileRestarted_move (hget : l.tasks.get? taskId = some row)
    (hvalid : (row.task taskId).Valid) (hleased : row.state.isLeased = true)
    (h : reconcileRestarted l (row.task taskId) now draws = .ok l') :
    ∃ cause, (cause = .leaseLost ∨ cause = .recorded) ∧
      LedgerMove now draws l (taskId, cause) l' := by
  rw [reconcileRestarted] at h
  split at h
  · exact ⟨_, .inr rfl, .of_recorded hget hvalid (.restartReconciled hleased) h⟩
  · rename_i hlease
    refine ⟨_, .inl rfl, reconcileLostLease_move hget hvalid hleased ?_ h⟩
    intro columns hcolumns
    simpa [leaseValid, TaskRow.task, Option.mem_def.mp hcolumns] using hlease

theorem reconcileAfterRestart_moves (h : reconcileAfterRestart l now draws = .ok l') :
    ∃ ms, Run (LedgerMove now draws) l ms l' ∧ ∀ m ∈ ms, m.2 = .leaseLost ∨ m.2 = .recorded := by
  obtain ⟨tasks, hread, hfold⟩ := bind_eq_ok.mp h
  obtain ⟨ms, hrun, hms, -⟩ := foldlM_moves
    (fun _ _ _ _ hget hvalid hp hpass =>
      reconcileRestarted_move hget hvalid (Bool.and_eq_true_iff.mp hp).2 hpass)
    (fresh_of_read hread) hfold
  exact ⟨ms, hrun, hms⟩

theorem sweep_moves (h : sweep l now draws = .ok l') : Tidied now draws l l' :=
  tidied_of_reconcile h

/-! ## Any call -/

/-- Which calls make a worker's move: the worker's own call, with the same request. -/
def Call.Makes (c : Call) (m : Uuid × Cause) : Prop :=
  match m.2 with
  | .renewed request => ∃ target, c.operation = .renew target m.1 request
  | .reported request => ∃ target, c.operation = .report target m.1 request
  | .claimed worker token => token = c.draws.leaseToken ∧
    ∃ target request, c.operation = .claim target request ∧ request.workerInstanceId = worker
  | _ => True

theorem Tidied.moves (h : Tidied c.now c.draws l l1) :
    ∃ ms, Run (LedgerMove c.now c.draws) l ms l1 ∧ ∀ m ∈ ms, c.Makes m := by
  obtain ⟨ms, hrun, hms⟩ := h
  exact ⟨ms, hrun, fun m hm => by simp [Call.Makes, hms m hm]⟩

theorem Tidied.moves_snoc {m : Uuid × Cause}
    (h : Tidied c.now c.draws l l1) (hmove : LedgerMove c.now c.draws l1 m l')
    (hm : c.Makes m) : ∃ ms, Run (LedgerMove c.now c.draws) l ms l' ∧ ∀ m ∈ ms, c.Makes m := by
  obtain ⟨ms, hrun, hms⟩ := h.moves
  refine ⟨ms ++ [m], hrun.snoc hmove, fun m' hm' => ?_⟩
  rcases List.mem_append.mp hm' with hm' | hm'
  · exact hms m' hm'
  · rwa [List.mem_singleton.mp hm']

/-- **Every call is a sequence of moves**, and only a worker's own call makes a worker's move. -/
theorem Step.moves (h : Step l e l') :
    ∃ ms, Run (LedgerMove e.1.now e.1.draws) l ms l' ∧ ∀ m ∈ ms, e.1.Makes m := by
  obtain ⟨⟨operation, now, draws⟩, reply⟩ := e
  simp only [Step, call] at h
  cases operation with
  | create request requestedBy targetExists =>
    obtain ⟨task, hok, -⟩ := map_fst_eq_ok.mp h
    obtain ⟨l1, taskId, cause, htidy, rfl | rfl, hmove⟩ := create_moves hok
    · exact htidy.moves_snoc hmove trivial
    · exact htidy.moves_snoc hmove trivial
  | list client limit =>
    obtain ⟨tasks, hok, -⟩ := map_fst_eq_ok.mp h
    exact (list_moves hok).moves
  | detail taskId =>
    obtain ⟨detail, hok, -⟩ := map_fst_eq_ok.mp h
    exact (detail_moves hok).moves
  | reconcileAfterRestart =>
    obtain ⟨l2, hok, heq⟩ := map_eq_ok.mp h
    cases heq
    obtain ⟨ms, hrun, hms⟩ := reconcileAfterRestart_moves hok
    refine ⟨ms, hrun, fun m hm => ?_⟩
    rcases hms m hm with hcause | hcause <;> simp [Call.Makes, hcause]
  | sweep =>
    obtain ⟨l2, hok, heq⟩ := map_eq_ok.mp h
    cases heq
    exact (sweep_moves hok).moves
  | claim target request =>
    obtain ⟨claim, hok, -⟩ := map_fst_eq_ok.mp h
    obtain ⟨l1, htidy, ⟨-, rfl⟩ | ⟨-, taskId, hmove⟩ | ⟨claim, -, hclaim⟩⟩ := claim_moves hok
    · exact htidy.moves
    · exact htidy.moves_snoc hmove trivial
    · exact htidy.moves_snoc hclaim.move ⟨rfl, target, request, rfl, rfl⟩
  | renew target taskId request =>
    obtain ⟨response, hok, -⟩ := map_fst_eq_ok.mp h
    exact Tidied.moves_snoc ⟨[], .nil l, by simp⟩ (renew_moves hok) ⟨target, rfl⟩
  | report target taskId request =>
    obtain ⟨task, hok, -⟩ := map_fst_eq_ok.mp h
    obtain ⟨row, -, -, -, -, ⟨-, hreplays⟩ | ⟨-, hreports⟩⟩ := report_moves hok
    · exact Tidied.moves_snoc ⟨[], .nil l, by simp⟩ hreplays.move trivial
    · exact Tidied.moves_snoc ⟨[], .nil l, by simp⟩ hreports.move ⟨target, rfl⟩
  | reconcile target taskId request =>
    obtain ⟨response, hok, -⟩ := map_fst_eq_ok.mp h
    exact (reconcile_moves hok).moves
  | cancel taskId request =>
    obtain ⟨task, hok, -⟩ := map_fst_eq_ok.mp h
    obtain ⟨l1, htidy, rfl | hmove⟩ := cancel_moves hok
    · exact htidy.moves
    · exact htidy.moves_snoc hmove trivial

theorem Step.issues_or_moves (h : Step l e l') :
    (∃ ms l1 target request claim, e.1.operation = .claim target request ∧
      e.2 = .claim (some claim) ∧ Run (LedgerMove e.1.now e.1.draws) l ms l1 ∧
      (∀ m ∈ ms, m.2.issued = none) ∧
      Claims e.1.now e.1.draws l1 request.workerInstanceId claim l') ∨
    ∃ ms, Run (LedgerMove e.1.now e.1.draws) l ms l' ∧ (∀ m ∈ ms, m.2.issued = none) ∧
      ∀ claim, e.2 ≠ .claim (some claim) := by
  obtain ⟨ms, hrun, hms⟩ := h.moves
  obtain ⟨⟨operation, now, draws⟩, reply⟩ := e
  cases operation with
  | claim target request =>
    obtain ⟨found, hok, rfl⟩ := map_fst_eq_ok.mp h
    obtain ⟨l1, ⟨ms, hrun, hms⟩, hlast⟩ := claim_moves hok
    have hlost : ∀ m ∈ ms, m.2.issued = none := fun m hm => by simp [hms m hm, Cause.issued]
    obtain ⟨rfl, rfl⟩ | ⟨rfl, taskId, hmove⟩ | ⟨claim, rfl, hclaim⟩ := hlast
    · exact .inr ⟨ms, hrun, hlost, by simp⟩
    · refine .inr ⟨ms ++ [(taskId, .exhausted)], hrun.snoc hmove, fun m hm => ?_, by simp⟩
      rcases List.mem_append.mp hm with hm | hm
      · exact hlost m hm
      · rw [List.mem_singleton.mp hm]
        rfl
    · exact .inl ⟨ms, l1, target, request, claim, rfl, rfl, hrun, hlost, hclaim⟩
  | _ =>
    refine .inr ⟨ms, hrun, fun m hm => ?_, fun claim hreply => ?_⟩
    · have hmade := hms m hm
      obtain ⟨taskId, cause⟩ := m
      cases cause with
      | claimed worker token =>
        obtain ⟨-, _, _, hop, -⟩ := hmade
        cases hop
      | _ => rfl
    · obtain ⟨_, -, heq⟩ := map_eq_ok.mp h
      cases (Prod.mk.inj heq).1.trans hreply

theorem Step.renews_or_moves {reply : Reply} (h : Step l (c, reply) l') :
    (∃ target taskId request, c.operation = .renew target taskId request ∧
      LedgerMove c.now c.draws l (taskId, .renewed request) l') ∨
    ∃ ms, Run (LedgerMove c.now c.draws) l ms l' ∧ ∀ m ∈ ms, ∀ request, m.2 ≠ .renewed request := by
  obtain ⟨ms, hrun, hms⟩ := h.moves
  obtain ⟨operation, now, draws⟩ := c
  cases operation with
  | renew target taskId request =>
    obtain ⟨response, hok, -⟩ := map_fst_eq_ok.mp h
    exact .inl ⟨target, taskId, request, rfl, renew_moves hok⟩
  | _ =>
    refine .inr ⟨ms, hrun, fun m hm request heq => ?_⟩
    have hmade := hms m hm
    simp only [Call.Makes, heq] at hmade
    obtain ⟨target, hop⟩ := hmade
    cases hop

end LinkLake.UpdateTasks
