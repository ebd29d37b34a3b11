import LinkLake.Server.UpdateTasks.Postgres.Correspondence

/-!
# The operations in SQLite and in PostgreSQL

Every operation of the task ledger but the creation, run on an orderly SQLite ledger and on the
PostgreSQL tables that correspond to it, fails on both sides or returns the same on both sides and
leaves tables that correspond again: one theorem per operation, each following the program text.

A renewal needs one condition. PostgreSQL checks a snapshot before it writes it and SQLite does
not, so a renewal that cuts a restart short is refused by the one and stored by the other. The
creation never succeeds in PostgreSQL (`create_fails`).
-/

namespace LinkLake.UpdateTasks

open Fallible

/-- The same reply, and ledgers that correspond. -/
def Corresponds {α : Type} (r : α × Ledger) (s : α × Postgres.Tables) : Prop :=
  s = (r.1, r.2.toPostgres)

variable [SemVer] [Digests] {l : Ledger} {taskId target : Uuid} {row : TaskRow} {now deadline : ℕ}
  {draws : Draws} {kind : RemoteUpdateEventKind} {task : RemoteUpdateTask}

omit [SemVer] [Digests] in
@[simp] theorem assertLeader_true : Postgres.assertLeader true = .ok () := rfl

omit [SemVer] [Digests] in
theorem Corresponds.of_eq {α : Type} {reply : α} {t : Postgres.Tables} (h : t = l.toPostgres) :
    Corresponds (reply, l) (reply, t) := congrArg (Prod.mk reply) h

omit [SemVer] in
theorem authorizeLease_iff {worker token : Uuid} (hget : l.tasks.get? taskId = some row) :
    authorizeLease l (row.task taskId) worker token now = .ok () ↔
      authorizeLeaseToken (row.found taskId).task (row.found taskId).leaseTokenSha256 worker token
        now = .ok () := by
  have hget' : l.tasks.get? (row.task taskId).taskId = some row := hget
  simp only [authorizeLease, authorizeLeaseToken, TaskRow.found, bind_unit_eq_ok, hget', okOr_some,
    ok_bind]
  tauto

omit [Digests] in
theorem terminalReportReplay_eq_ok (hl : Orderly now l) (hget : l.tasks.get? taskId = some row) :
    terminalReportReplay l taskId = .ok row.terminalReplay := by
  rw [terminalReportReplay, hget, Option.bind_some]
  exact readReplay_eq_ok.mpr ⟨rfl, fun replay hmem => (hl.replays taskId row hget replay hmem).2⟩

omit [Digests] in
theorem replace_agrees {α : Type} {row' : TaskRow} {token : Postgres.TokenUpdate} {reply : α}
    (h : Replaces l taskId row row') (htask : row'.task taskId = task) (hpos : 0 < now)
    (hnow : now < 2 ^ 63) (hdeadline : task.leaseDeadlineUnixSeconds = some deadline)
    (htoken : ((row.toPostgres taskId).update task token).leaseTokenSha256
      = row'.lease.map (·.leaseTokenSha256))
    (hreplay : ((row.toPostgres taskId).update task token).terminalReplay = row'.terminalReplay) :
    Agree Corresponds
      (do nowI64 deadline
          nowI64 now
          let l ← l.writeRow taskId row'
          let l ← appendEvent l task kind now draws
          pure (reply, l))
      (do let t ← Postgres.writeTask l.toPostgres task token
          let t ← Postgres.appendEvent t task kind now draws
          pure (reply, t)) := by
  subst htask
  have hfits : nowI64 now = .ok () := nowI64_eq_ok.mpr hnow
  rw [h.writeTask htoken hreplay, hdeadline, bind_assoc]
  refine .same fun _ _ => ?_
  rw [hfits, ok_bind, h.writeRow, ok_bind, ok_bind]
  refine .bind (append_agrees h.valid hpos (FiniteMap.mem_insert.mpr (.inl rfl))) ?_
  rintro l2 t2 - - rfl
  exact .pure rfl

/-! ## Listing and looking up -/

theorem list_agrees (hl : Orderly now l) (hpos : 0 < now) (client : Option Uuid) (limit : ℕ) :
    Agree Corresponds (list l client limit now draws)
      (Postgres.list true l.toPostgres client limit now draws) := by
  simp only [list, Postgres.list, assertLeader_true, ok_bind]
  refine .same fun _ _ => .bind (reconcileExpired_agrees hl hpos client) ?_
  rintro l1 t1 - - ⟨rfl, hl1⟩
  have hselect : l1.toPostgres.select (Postgres.ofTarget client) Postgres.createdBefore =
      (l1.select (ofTarget client) createdBefore).map
        fun entry => (entry.1, entry.2.toPostgres entry.1) :=
    select_toPostgres (fun _ _ => rfl) fun _ _ _ _ _ _ => Iff.rfl
  simp only [hselect, ← List.map_reverse, ← List.map_take, List.mapM_map, Function.comp_def]
  have hvalid : ∀ entry ∈ (l1.select (ofTarget client) createdBefore).reverse.take
      (max 1 (min limit maxTaskListLimit)), (entry.2.task entry.1).Valid := by
    intro entry hentry
    have hmem := mem_select.mp (List.mem_reverse.mp (List.mem_of_mem_take hentry))
    exact (hl1.valid entry.1 entry.2 hmem.1).1
  rw [mapM_eq_ok_map fun entry hentry => readTask_eq_ok.mpr ⟨hvalid entry hentry, rfl⟩,
    mapM_eq_ok_map (g := fun entry => entry.2.task entry.1) fun entry hentry =>
      taskSnapshot_toPostgres (hvalid entry hentry)]
  exact .pure rfl

omit [SemVer] [Digests] in
theorem eventSnapshots_eq {events found : List RemoteUpdateTaskEvent}
    (h : events.mapM Postgres.eventSnapshot = .ok found) : found = events := by
  refine List.forall₂_eq_eq_eq ▸ ((mapM_eq_ok_iff.mp h).imp fun event read hread => ?_).flip
  exact (pure_eq_ok.mp (bind_unit_eq_ok.mp hread).2).symm

omit [Digests] in
theorem eventSnapshots_eq_ok {detail : RemoteUpdateTaskDetail} (h : detail.validate taskId = .ok ()) :
    detail.events.mapM Postgres.eventSnapshot = .ok detail.events := by
  simp only [RemoteUpdateTaskDetail.validate, bind_unit_eq_ok] at h
  obtain ⟨-, -, hevents, -⟩ := h
  have hvalid := RemoteUpdateTaskDetail.validate_of_validateEvents hevents
  have hself : ∀ event ∈ detail.events, Postgres.eventSnapshot event = .ok event := by
    intro event hevent
    have hok := hvalid event hevent
    rw [← (RemoteUpdateTaskEvent.validate_eq_ok.mp hok).taskId] at hok
    exact bind_unit_eq_ok.mpr ⟨stored_eq_ok.mpr hok, rfl⟩
  rw [mapM_eq_ok_map hself, List.map_id']

section

variable (hl : Orderly now l)
include hl

variable (hpos : 0 < now)
include hpos

theorem detail_agrees : Agree Corresponds (detail l taskId now draws)
      (Postgres.detail true l.toPostgres taskId now draws) := by
  simp only [detail, Postgres.detail, assertLeader_true, ok_bind]
  refine .same fun _ _ => .bind (requireTask_agrees hl) ?_
  rintro _ _ - - ⟨row, hget, rfl, rfl⟩
  refine .bind (reconcileExpired_agrees hl hpos _) ?_
  rintro l1 t1 - - ⟨rfl, hl1⟩
  refine .bind (requireTask_agrees hl1) ?_
  rintro _ _ - - ⟨row1, hget1, rfl, rfl⟩
  change Agree _ (stored (RemoteUpdateTaskDetail.validate ⟨_, lastEvents l1 taskId⟩ taskId) >>= _)
    ((lastEvents l1 taskId).mapM Postgres.eventSnapshot >>= _)
  generalize lastEvents l1 taskId = events
  by_cases hdetail : RemoteUpdateTaskDetail.validate ⟨row1.task taskId, events⟩ taskId = .ok ()
  · have hevents := eventSnapshots_eq_ok hdetail
    rw [hevents, ok_bind]
    exact .same fun _ _ => .pure rfl
  · refine .of_failed (fun a h => ?_) fun b h => ?_
    · exact hdetail (stored_eq_ok.mp (bind_unit_eq_ok.mp h).1)
    · obtain ⟨found, hfound, hcheck⟩ := bind_eq_ok.mp h
      obtain rfl := eventSnapshots_eq hfound
      exact hdetail (stored_eq_ok.mp (bind_unit_eq_ok.mp hcheck).1)

/-! ## Maintenance -/

theorem sweep_agrees : Agree (fun l' t' => t' = l'.toPostgres) (sweep l now draws)
      (Postgres.sweep true l.toPostgres now draws) := by
  rw [sweep, Postgres.sweep, assertLeader_true, ok_bind]
  exact (reconcileExpired_agrees hl hpos none).imp fun _ _ _ h => h.1

theorem reconcileAfterRestart_agrees (hnow : now < 2 ^ 63) :
    Agree (fun l' t' => t' = l'.toPostgres) (reconcileAfterRestart l now draws)
      (Postgres.reconcileAfterRestart true l.toPostgres now draws) := by
  have hselect : l.toPostgres.select (·.state.isLeased) Postgres.createdBefore =
      (l.select (fun row => ofTarget none row && row.state.isLeased) createdBefore).map
        fun entry => (entry.1, entry.2.toPostgres entry.1) :=
    select_toPostgres (fun _ _ => rfl) fun _ _ _ _ _ _ => Iff.rfl
  rw [reconcileAfterRestart, activeLeasedTasks, read_ok hl.valid, ok_bind,
    Postgres.reconcileAfterRestart, assertLeader_true, ok_bind, hselect]
  refine foldlM_agrees draws (p := fun row => row.state.isLeased = true)
    (g := fun t task => if leaseValid task now
      then Postgres.appendEvent t task .restartReconciled now draws
      else Postgres.loseLease t task now draws)
    (fun l taskId row hl hget hleased => ?_) (fun l taskId row l' hget hvalid hleased h => ?_) hpos hl
    (nodup_select _ _) fun entry hentry => ?_
  · rw [reconcileRestarted]
    split_ifs
    · exact append_agrees (hl.valid taskId row hget).1 hpos (FiniteMap.mem_of_get? hget)
    · exact loseLease_agrees hl hpos hnow hget hleased
  · obtain ⟨cause, hcause, hmove⟩ := reconcileRestarted_move hget hvalid hleased h
    exact ⟨cause, fun request heq => by simp [heq] at hcause, hmove⟩
  · obtain ⟨hget, hp⟩ := mem_select.mp hentry
    exact ⟨hget, (Bool.and_eq_true_iff.mp hp).2⟩

theorem reconcile_agrees (request : RemoteUpdateReconcileRequest) :
    Agree Corresponds (reconcile l target taskId request now draws)
      (Postgres.reconcile true l.toPostgres target taskId request now draws) := by
  simp only [reconcile, Postgres.reconcile, assertLeader_true, ok_bind]
  refine .same fun _ _ => .same fun _ _ => .same fun _ _ =>
    .bind (requireTask_agrees hl) ?_
  rintro _ _ - - ⟨row, hget, rfl, rfl⟩
  refine .same fun _ _ => .bind (reconcileExpired_agrees hl hpos _) ?_
  rintro l1 t1 - - ⟨rfl, hl1⟩
  refine .bind (requireTask_agrees hl1) ?_
  rintro _ _ - - ⟨row1, hget1, rfl, rfl⟩
  by_cases hended : (row1.task taskId).state.isTerminal = true
  · rw [if_pos hended, if_pos (show (row1.found taskId).task.state.isTerminal = true from hended),
      terminalReportReplay_eq_ok hl1 hget1, ok_bind]
    exact .same fun _ _ => .same fun _ _ => .pure rfl
  · rw [if_neg hended, if_neg (show ¬ (row1.found taskId).task.state.isTerminal = true from hended)]
    exact .check (authorizeLease_iff hget1) fun _ => .same fun _ _ => .pure rfl

end

/-! ## Creation and cancellation -/

theorem create_fails {leader targetExists : Bool} {t : Postgres.Tables} {requestedBy : String}
    {request : CreateRemoteUpdateTaskRequest} {r : RemoteUpdateTask × Postgres.Tables} :
    Postgres.create leader t request requestedBy targetExists now draws ≠ .ok r := by
  intro h
  simp only [Postgres.create, Postgres.lockText, bind_unit_eq_ok, rejectIf_eq_ok] at h
  obtain ⟨-, -, -, -, hlock, -⟩ := h
  exact hlock (by simp)

omit [SemVer] [Digests] in
theorem update_tokenOf (taskId : Uuid) {lease : Option LeaseColumns}
    (h : leaseColumns task.leaseOwner (row.lease.map (·.leaseTokenSha256))
      task.leaseDeadlineUnixSeconds = .ok lease) :
    ((row.toPostgres taskId).update task (Postgres.tokenOf task)).leaseTokenSha256 =
        lease.map (·.leaseTokenSha256) ∧
      ((row.toPostgres taskId).update task (Postgres.tokenOf task)).terminalReplay =
        row.terminalReplay := by
  obtain ⟨howner, -, htoken⟩ := leaseColumns_ok h
  rw [Postgres.tokenOf, ← howner]
  cases lease with
  | none => exact ⟨rfl, rfl⟩
  | some columns => exact ⟨htoken columns rfl, rfl⟩

omit [SemVer] [Digests] in
theorem leaseColumns_cancelTask (row : TaskRow) (taskId : Uuid) (now : ℕ) :
    ∃ lease, leaseColumns (cancelTask (row.task taskId) now).1.leaseOwner
      (row.lease.map (·.leaseTokenSha256))
      (cancelTask (row.task taskId) now).1.leaseDeadlineUnixSeconds = .ok lease := by
  rw [cancelTask]
  split_ifs
  · exact ⟨none, rfl⟩
  · cases hlease : row.lease <;> simp [TaskRow.task, hlease, leaseColumns]

theorem cancel_agrees (hl : Orderly now l) (hpos : 0 < now) (hnow : now < 2 ^ 63)
    (request : CancelRemoteUpdateTaskRequest) :
    Agree Corresponds (cancel l taskId request now draws)
      (Postgres.cancel true l.toPostgres taskId request now draws) := by
  simp only [cancel, Postgres.cancel, assertLeader_true, ok_bind]
  refine .same fun _ _ => .same fun _ _ => .bind (requireTask_agrees hl) ?_
  rintro _ _ - - ⟨row, hget, rfl, rfl⟩
  refine .bind (reconcileExpired_agrees hl hpos _) ?_
  rintro l1 t1 hexpired - ⟨rfl, hl1⟩
  refine .bind (requireTask_agrees hl1) ?_
  rintro _ _ - - ⟨row1, hget1, rfl, rfl⟩
  change Agree _ _ (if ((row1.task taskId).state.isTerminal || (row1.task taskId).cancelRequested)
    = true then _ else _)
  split_ifs with hcond
  · exact .pure rfl
  · simp only [Bool.or_eq_true, not_or, Bool.not_eq_true] at hcond
    obtain ⟨lease, hlease⟩ := leaseColumns_cancelTask row1 taskId now
    obtain ⟨htoken, hreplay⟩ := update_tokenOf taskId hlease
    have hchange := validChange_cancelled (hl1.valid taskId row1 hget1).1 hcond.1
        fun hleased => lease_open_of_reconciled hexpired hget hget1 hleased
    rw [← bind_assoc, ← bind_assoc]
    refine .bind (transition_agrees hl1 hpos hnow hget1 hcond.1 (sameOrigin_cancelTask _ _) hchange
      hlease (by simp) htoken (hreplay.trans (hl1.replay_eq_none hget1 hcond.1))) ?_
    rintro l2 t2 - - rfl
    exact .pure rfl

/-! ## The worker's operations -/

omit [Digests] in
theorem lease_of_queued (h : (row.task taskId).Valid) (hqueued : row.state = .queued) :
    row.lease = none := by
  have hpresent := isLeased_of_valid h
  simpa [RemoteUpdateTask.leasePresent, TaskRow.task, hqueued,
    RemoteUpdateTaskState.isLeased] using hpresent

omit [Digests] in
theorem clearTaskLease_exhaustTask (h : (row.task taskId).Valid) (hqueued : row.state = .queued) :
    clearTaskLease (exhaustTask (row.task taskId) now) = exhaustTask (row.task taskId) now := by
  have hlease := lease_of_queued h hqueued
  have hrestart : row.restartBinding = none := (h.queuedShape hqueued).restart
  simp [clearTaskLease, exhaustTask, TaskRow.task, hlease, hrestart]

omit [Digests] in
theorem replaces_claim {columns : LeaseColumns} (hl : Orderly now l)
    (hget : l.tasks.get? taskId = some row) (hqueued : row.state = .queued)
    (hattempt : row.attempt < maxClaimAttempts) (hworker : columns.leaseOwner.isNil = false)
    (hlater : now < columns.leaseDeadlineUnixSeconds) :
    Replaces l taskId row (row.claim (claimTask (row.task taskId) columns.leaseOwner
      columns.leaseDeadlineUnixSeconds now) columns) := by
  obtain ⟨hvalid, hcreated⟩ := hl.valid taskId row hget
  have hactive : row.state.isTerminal = false := by rw [hqueued]; rfl
  have hidentity : SameIdentity (row.task taskId) (claimTask (row.task taskId) columns.leaseOwner
      columns.leaseDeadlineUnixSeconds now) := ⟨rfl, rfl, rfl, rfl, rfl, rfl, rfl⟩
  refine .of_active hl.oneActive hget hactive ?_ ?_ rfl
    (by simp [TaskRow.claim, hl.replay_eq_none hget hactive])
  · rw [TaskRow.claim_task (hvalid.queuedShape hqueued).restart]
    exact (validChange_claimed hvalid hqueued hattempt hworker hlater).valid hvalid hidentity hcreated
  · rw [TaskRow.claim_task (hvalid.queuedShape hqueued).restart]
    exact hidentity

omit [Digests] in
theorem exhaust_agrees (hl : Orderly now l) (hpos : 0 < now) (hnow : now < 2 ^ 63)
    (hget : l.tasks.get? taskId = some row) (hqueued : row.state = .queued) :
    Agree (fun l' t' => t' = l'.toPostgres)
      (do let l ← persistTaskAfterReport l (exhaustTask (row.task taskId) now) none
          appendEvent l (exhaustTask (row.task taskId) now) .failed now draws)
      (do let t ← Postgres.writeTask l.toPostgres
            (clearTaskLease (exhaustTask (row.task taskId) now)) .clear
          Postgres.appendEvent t (clearTaskLease (exhaustTask (row.task taskId) now)) .failed now
            draws) := by
  have hvalid := (hl.valid taskId row hget).1
  have hactive : row.state.isTerminal = false := by rw [hqueued]; rfl
  have hlease : leaseColumns (exhaustTask (row.task taskId) now).leaseOwner
      (row.lease.map (·.leaseTokenSha256))
      (exhaustTask (row.task taskId) now).leaseDeadlineUnixSeconds = .ok none := by
    simp [exhaustTask, TaskRow.task, lease_of_queued hvalid hqueued, leaseColumns]
  rw [clearTaskLease_exhaustTask hvalid hqueued]
  exact transition_agrees hl hpos hnow hget hactive ⟨⟨rfl, rfl, rfl, rfl, rfl, rfl, rfl⟩, rfl⟩
    (validChange_exhausted hvalid hqueued) hlease (by simp) rfl (hl.replay_eq_none hget hactive)

theorem claim_agrees (hl : Orderly now l) (hpos : 0 < now) (hnow : now < 2 ^ 63)
    (request : RemoteUpdateClaimRequest) :
    Agree Corresponds (claim l target request now draws)
      (Postgres.claim true l.toPostgres target request now draws) := by
  simp only [claim, Postgres.claim, assertLeader_true, ok_bind]
  refine .same fun _ _ => .same fun _ hrequest =>
    .bind (reconcileExpired_agrees hl hpos _) ?_
  rintro l1 t1 - - ⟨rfl, hl1⟩
  have hselect : l1.toPostgres.select (fun row => row.targetClientId == target
        && row.state == .queued) Postgres.createdBefore =
      (l1.select (fun row => row.targetClientId == target && row.state == .queued)
        createdBefore).map fun entry => (entry.1, entry.2.toPostgres entry.1) :=
    select_toPostgres (fun _ _ => rfl) fun _ _ _ _ _ _ => Iff.rfl
  rw [oldestQueuedTask, hselect]
  refine .bind (readFirst_agrees hl1 fun entry hentry => (mem_select.mp hentry).1) ?_
  rintro (_ | task) (_ | found) - - hfound
  · exact .pure rfl
  · exact hfound.elim
  · exact hfound.elim
  obtain ⟨taskId, row, hmem, rfl, rfl⟩ := hfound
  obtain ⟨hget, hp⟩ := mem_select.mp hmem
  have hqueued : row.state = .queued := by simpa using (Bool.and_eq_true_iff.mp hp).2
  dsimp only
  by_cases hattempt : (row.task taskId).attempt ≥ maxClaimAttempts
  · rw [if_pos hattempt, if_pos (show (row.found taskId).task.attempt ≥ _ from hattempt),
      ← bind_assoc, ← bind_assoc]
    refine .bind (exhaust_agrees hl1 hpos hnow hget hqueued) ?_
    rintro l2 t2 - - rfl
    exact .pure rfl
  · rw [if_neg hattempt, if_neg (show ¬ (row.found taskId).task.attempt ≥ _ from hattempt)]
    refine .same fun deadline hdeadline => ?_
    simp only [contract_eq_ok, RemoteUpdateClaimRequest.validate, validateLeaseSeconds,
      validateNonNilUuid, bind_unit_eq_ok, rejectIf_eq_ok, not_not, Bool.not_eq_true] at hrequest
    obtain ⟨hworker, hseconds⟩ := hrequest
    have hlater : now < deadline := by
      rw [(checkedAdd_eq_ok.mp hdeadline).2]
      simp only [remoteUpdateMinLeaseSeconds] at hseconds
      omega
    have hqueue : (l1.tasks.get? taskId).filter (·.state == .queued) = some row := by
      simp [hget, hqueued]
    let columns : LeaseColumns :=
      ⟨request.workerInstanceId, leaseTokenSha256 draws.leaseToken, deadline⟩
    have hreplaces : Replaces l1 taskId row (row.claim (claimTask (row.task taskId)
        columns.leaseOwner columns.leaseDeadlineUnixSeconds now) columns) :=
      replaces_claim hl1 hget hqueued (not_le.mp hattempt) hworker hlater
    change Agree _ (nowI64 deadline >>= fun _ => nowI64 now >>= fun _ =>
      okOr ((l1.tasks.get? taskId).filter (·.state == .queued)) .storage >>= _) _
    rw [hqueue]
    exact replace_agrees hreplaces (TaskRow.claim_task
      ((hl1.valid taskId row hget).1.queuedShape hqueued).restart) hpos hnow rfl rfl rfl

omit [Digests] in
theorem replaces_renew {request : RemoteUpdateLeaseRenewRequest}
    (hl : Orderly now l) (hget : l.tasks.get? taskId = some row)
    (hholds : Holds now (row.task taskId) request.workerInstanceId)
    (hrequest : request.validate (row.task taskId).action = .ok ())
    (hstage : validRenewTransition (row.task taskId).stage request.stage (row.task taskId).action
      = true)
    (hdeadline : renewDeadline (row.task taskId) request (now + request.requestedLeaseSeconds)
      = .ok deadline)
    (hlater : now < deadline) (hwindow : KeepsWindow now (row.task taskId) (.renewed request)) :
    Replaces l taskId row
      (row.renew (renewTask (row.task taskId) request.stage deadline now) deadline) := by
  obtain ⟨hvalid, hcreated⟩ := hl.valid taskId row hget
  have hactive := isTerminal_of_leased hholds.leased
  obtain ⟨columns, hlease⟩ := Option.isSome_iff_exists.mp (lease_isSome hl hget hholds.leased)
  have hidentity : SameIdentity (row.task taskId)
      (renewTask (row.task taskId) request.stage deadline now) :=
    ⟨rfl, rfl, rfl, rfl, rfl, rfl, rfl⟩
  refine .of_active hl.oneActive hget hactive ?_ ?_ rfl
    (by simp [TaskRow.renew, hl.replay_eq_none hget hactive])
  · rw [TaskRow.renew_task hlease]
    exact (validChange_renewed hvalid hholds hrequest hstage hdeadline hlater hwindow).valid hvalid
      hidentity hcreated
  · rw [TaskRow.renew_task hlease]
    exact hidentity

theorem renew_agrees (hl : Orderly now l) (hpos : 0 < now) (hnow : now < 2 ^ 63)
    (request : RemoteUpdateLeaseRenewRequest)
    (hwindow : ∀ row, l.tasks.get? taskId = some row →
      KeepsWindow now (row.task taskId) (.renewed request)) :
    Agree Corresponds (renew l target taskId request now draws)
      (Postgres.renew true l.toPostgres target taskId request now draws) := by
  simp only [renew, Postgres.renew, assertLeader_true, ok_bind]
  refine .same fun _ _ => .same fun _ _ => .bind (requireTask_agrees hl) ?_
  rintro _ _ - - ⟨row, hget, rfl, rfl⟩
  refine .same fun _ _ => .same fun _ hrequest => .check (authorizeLease_iff hget) fun hauth =>
    .same fun _ hstage => .same fun requested hrequested => .same fun deadline hdeadline =>
    .same fun _ hlater => ?_
  rw [contract_eq_ok] at hrequest
  rw [rejectIf_eq_ok, not_not] at hstage
  rw [rejectIf_eq_ok, not_le] at hlater
  obtain ⟨-, rfl⟩ := checkedAdd_eq_ok.mp hrequested
  obtain ⟨hholds, htoken⟩ := authorizeLease_ok hget hauth
  obtain ⟨columns, hlease, -⟩ := Option.map_eq_some_iff.mp htoken
  have hreplaces := replaces_renew hl hget hholds hrequest hstage hdeadline hlater (hwindow row hget)
  change Agree _ (nowI64 deadline >>= fun _ => nowI64 now >>= fun _ =>
    okOr (l.tasks.get? taskId) .storage >>= _) _
  rw [hget]
  exact replace_agrees hreplaces (TaskRow.renew_task hlease) hpos hnow rfl
    (by simp [Postgres.StoredRow.update, TaskRow.toPostgres, TaskRow.renew, hlease]) rfl

omit [Digests] in
theorem ReportMove.lease {task' : RemoteUpdateTask} {report : RemoteUpdateWorkerReport}
    (h : ReportMove now task report kind task') (hleased : task.state.isLeased = true)
    (hdeadline : ∃ deadline, task.leaseDeadlineUnixSeconds = some deadline) :
    (task'.state.isTerminal = true ∧ task'.leaseOwner = none ∧
        task'.leaseDeadlineUnixSeconds = none) ∨
      (task'.state.isTerminal = false ∧ task'.leaseOwner = task.leaseOwner ∧
        ∃ deadline, task'.leaseDeadlineUnixSeconds = some deadline) := by
  cases h with
  | started => exact .inr ⟨rfl, rfl, hdeadline⟩
  | awaiting => exact .inr ⟨rfl, rfl, _, rfl⟩
  | waits => exact .inr ⟨isTerminal_of_leased hleased, rfl, hdeadline⟩
  | succeeded => exact .inl ⟨rfl, rfl, rfl⟩
  | failed => exact .inl ⟨rfl, rfl, rfl⟩
  | cancelled => exact .inl ⟨rfl, rfl, rfl⟩

theorem reported_agrees {request : RemoteUpdateReportRequest} {reported : RemoteUpdateTask}
    (hl : Orderly now l) (hpos : 0 < now) (hnow : now < 2 ^ 63)
    (hget : l.tasks.get? taskId = some row)
    (hholds : Holds now (row.task taskId) request.workerInstanceId)
    (hreport : request.report.validate (row.task taskId).action = .ok ())
    (happly : ReportMove now (row.task taskId) request.report kind reported) :
    Agree (fun l' t' => t' = l'.toPostgres)
      (do let l ← persistTaskAfterReport l reported (if reported.state.isTerminal then
            some (TerminalReportReplay.fromRequest request) else none)
          appendEvent l reported kind now draws)
      (do let t ← Postgres.writeTask l.toPostgres reported (if reported.state.isTerminal then
            .terminal (TerminalReportReplay.fromRequest request) else Postgres.tokenOf reported)
          Postgres.appendEvent t reported kind now draws) := by
  obtain ⟨hvalid, -⟩ := hl.valid taskId row hget
  have hactive := isTerminal_of_leased hholds.leased
  obtain ⟨columns, hcolumns⟩ := Option.isSome_iff_exists.mp (lease_isSome hl hget hholds.leased)
  have hchange := validChange_reported hvalid hpos hholds hreport happly
  have hdeadline : ∃ deadline, (row.task taskId).leaseDeadlineUnixSeconds = some deadline :=
    ⟨columns.leaseDeadlineUnixSeconds, by simp [TaskRow.task, hcolumns]⟩
  obtain ⟨hended, howner, hnone⟩ | ⟨hopen, howner, deadline, hsome⟩ :=
    happly.lease hholds.leased hdeadline
  · have hlease : leaseColumns reported.leaseOwner (row.lease.map (·.leaseTokenSha256))
        reported.leaseDeadlineUnixSeconds = .ok none := by
      rw [howner, hnone]
      rfl
    rw [if_pos hended, if_pos hended]
    exact transition_agrees hl hpos hnow hget hactive happly.sameOrigin hchange hlease
      (fun _ => hended) rfl rfl
  · have hlease : leaseColumns reported.leaseOwner (row.lease.map (·.leaseTokenSha256))
        reported.leaseDeadlineUnixSeconds =
        .ok (some ⟨columns.leaseOwner, columns.leaseTokenSha256, deadline⟩) := by
      rw [howner, hsome]
      simp [TaskRow.task, hcolumns, leaseColumns]
    obtain ⟨htoken, hreplay⟩ := update_tokenOf taskId hlease
    have hopen' : ¬ reported.state.isTerminal = true := by simp [hopen]
    rw [if_neg hopen', if_neg hopen']
    exact transition_agrees hl hpos hnow hget hactive happly.sameOrigin hchange hlease (by simp)
      htoken (hreplay.trans (hl.replay_eq_none hget hactive))

theorem report_agrees (hl : Orderly now l) (hpos : 0 < now) (hnow : now < 2 ^ 63)
    (request : RemoteUpdateReportRequest) :
    Agree Corresponds (report l target taskId request now draws)
      (Postgres.report true l.toPostgres target taskId request now draws) := by
  simp only [report, Postgres.report, assertLeader_true, ok_bind]
  refine .same fun _ _ => .same fun _ _ => .bind (requireTask_agrees hl) ?_
  rintro _ _ - - ⟨row, hget, rfl, rfl⟩
  refine .same fun _ _ => .same fun _ hrequest => ?_
  by_cases hended : (row.task taskId).state.isTerminal = true
  · rw [if_pos hended, if_pos (show (row.found taskId).task.state.isTerminal = true from hended),
      replayTerminalReport]
    have hreplay : terminalReportReplay l (row.task taskId).taskId = .ok row.terminalReplay :=
      terminalReportReplay_eq_ok hl hget
    rw [hreplay, ok_bind]
    refine .same fun _ _ => .same fun _ _ =>
      .bind (append_agrees (hl.valid taskId row hget).1 hpos (FiniteMap.mem_of_get? hget)) ?_
    rintro l1 t1 - - rfl
    exact .pure rfl
  · rw [if_neg hended, if_neg (show ¬ (row.found taskId).task.state.isTerminal = true from hended)]
    refine .same fun _ _ => .check (authorizeLease_iff hget) fun hauth =>
      .same fun reported happly => ?_
    have hreport : request.report.validate (row.task taskId).action = .ok () := by
      simp only [contract_eq_ok, RemoteUpdateReportRequest.validate, bind_unit_eq_ok] at hrequest
      exact hrequest.2.2
    rw [← bind_assoc, ← bind_assoc]
    refine .bind (reported_agrees hl hpos hnow hget (authorizeLease_ok hget hauth).1 hreport
      (applyWorkerReport_cases happly)) ?_
    rintro l1 t1 - - rfl
    exact .pure rfl

end LinkLake.UpdateTasks
