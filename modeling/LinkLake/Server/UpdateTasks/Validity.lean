import LinkLake.Server.UpdateTasks.Operations

/-!
# Which rows the ledger writes

A row that does not pass `RemoteUpdateTask.validate` can never be read again, and every later
operation that comes across it fails. Every move of the state machine keeps a snapshot valid, with
one exception: a renewal of a task that waits for a restart, for less than is left of the time set
for it, moves the lease deadline away from the end of the restart binding.

* `TaskMove.valid`: every other move leads from a valid snapshot to a valid one.
* `valid_of_run`: in every run without such renewals every stored row passes its check and can be
  read.
* `restart_renewal_poisons`: one such renewal makes a row that nothing can read.
-/

namespace LinkLake.UpdateTasks

open Fallible

variable {now : ℕ}

section Shapes

variable [SemVer] {task task' : RemoteUpdateTask} {binding : RemoteUpdateRestartBinding}
  {cause : Cause}

attribute [local simp] RemoteUpdateTask.stateFieldsValid RemoteUpdateTask.leasePresent
  RemoteUpdateTask.activePayloadEmpty RemoteUpdateTask.stageExecutes clearTaskLease Except.toOption

theorem deadline_of_restart (h : task.Valid) (hbinding : task.restart = some binding) :
    task.leaseDeadlineUnixSeconds = some binding.resumeDeadlineUnixSeconds := by
  have hvalid := h.restart binding hbinding
  simp only [RemoteUpdateRestartBinding.validate, bind_unit_eq_ok, rejectIf_eq_ok, not_or,
    ne_eq, not_not] at hvalid
  exact hvalid.2.2.2.2.2.1

theorem binding_valid_later {action : RemoteUpdateAction} {deadline : Option ℕ} {before : ℕ}
    (h : binding.validate action deadline (some before) = .ok ())
    (hopen : now < binding.resumeDeadlineUnixSeconds) :
    binding.validate action deadline (some now) = .ok () := by
  simp only [RemoteUpdateRestartBinding.validate, bind_unit_eq_ok, rejectIf_eq_ok, not_or,
    Option.any_some, decide_eq_true_eq, not_le] at h ⊢
  exact ⟨h.1, h.2.1, h.2.2.1, h.2.2.2.1, h.2.2.2.2.1, h.2.2.2.2.2.1, hopen⟩

omit [SemVer] in
theorem awaits_or_free {stage : RemoteUpdateStage} {restart : Option RemoteUpdateRestartBinding}
    (h : (stage == .awaitingRestart) = restart.isSome) :
    stage = .awaitingRestart ∨ restart = none := by
  cases restart with
  | none => exact .inr rfl
  | some binding => exact .inl (by simpa using h)

/-- The part of a snapshot that a move changes, once the rest is known to be valid. -/
structure ValidChange (now : ℕ) (task' : RemoteUpdateTask) : Prop where
  attempt : task'.attempt ≤ remoteUpdateMaxClaimAttempts
  updated : task'.updatedUnixSeconds = now
  completed : ∀ completed ∈ task'.completedUnixSeconds, completed = now
  leaseOwner : ∀ owner ∈ task'.leaseOwner, owner.isNil = false
  leaseDeadline : task'.leaseDeadlineUnixSeconds ≠ some 0
  restart : ∀ binding ∈ task'.restart,
    binding.validate task'.action task'.leaseDeadlineUnixSeconds (some now) = .ok ()
  awaiting : (task'.stage == .awaitingRestart) = task'.restart.isSome
  fields : task'.stateFieldsValid = true

theorem ValidChange.valid (h' : ValidChange now task') (h : task.Valid)
    (hid : SameIdentity task task') (hnow : task.createdUnixSeconds ≤ now) : task'.Valid where
  schema := hid.schemaVersion.trans h.schema
  taskId := hid.taskId ▸ h.taskId
  targetClientId := hid.targetClientId ▸ h.targetClientId
  idempotencyKey := hid.idempotencyKey ▸ h.idempotencyKey
  attempt := h'.attempt
  requestedBy := hid.requestedBy ▸ h.requestedBy
  created := hid.created ▸ h.created
  updated := by
    rw [hid.created, h'.updated]
    exact hnow
  completed := fun completed hcompleted =>
    (h'.updated.trans (h'.completed completed hcompleted).symm).le
  leaseOwner := h'.leaseOwner
  leaseDeadline := h'.leaseDeadline
  restart := h'.updated ▸ h'.restart
  awaiting := h'.awaiting
  fields := h'.fields

theorem validChange_of_ended (hattempt : task'.attempt ≤ remoteUpdateMaxClaimAttempts)
    (hupdated : task'.updatedUnixSeconds = now) (hdone : task'.completedUnixSeconds = some now)
    (howner : task'.leaseOwner = none) (hdeadline : task'.leaseDeadlineUnixSeconds = none)
    (hrestart : task'.restart = none) (hstage : task'.stage ≠ .awaitingRestart)
    (hfields : task'.stateFieldsValid = true) : ValidChange now task' where
  attempt := hattempt
  updated := hupdated
  completed := by simp [hdone]
  leaseOwner := by simp [howner]
  leaseDeadline := by simp [hdeadline]
  restart := by simp [hrestart]
  awaiting := by simp [hrestart, hstage]
  fields := hfields

/-! ## The moves one by one -/

theorem failedClosed_legal (action : RemoteUpdateAction) :
    (RemoteUpdateWorkerReport.failed .failedClosed .failedClosed).validate action = .ok () := by
  cases action <;> rfl

section

variable (h : task.Valid)
include h

theorem validChange_leaseLost (hleased : task.state.isLeased = true) :
    ValidChange now (applyLostLease task now).1 := by
  have hshape := h.leasedShape hleased
  rw [applyLostLease]
  split_ifs with hcancel hsafe
  · simp only [Bool.and_eq_true] at hcancel
    refine validChange_of_ended h.attempt rfl rfl rfl rfl rfl (by simp) ?_
    simp [hcancel.1, hshape.result]
  · -- a cancelled task of a repeatable action would have ended in the case before
    have hkeep : task.cancelRequested = false := by
      simpa [cancellationIsKnownSafe, hsafe] using hcancel
    exact {
      attempt := h.attempt
      updated := rfl
      completed := by simp [hshape.completed]
      leaseOwner := by simp
      leaseDeadline := by simp
      restart := by simp
      awaiting := rfl
      fields := by
        simp [hkeep, hshape.result, hshape.completed] }
  · refine validChange_of_ended h.attempt rfl rfl rfl rfl rfl (by simp) ?_
    simp [hshape.result, failedClosed_legal]

theorem validChange_exhausted (hqueued : task.state = .queued) :
    ValidChange now (exhaustTask task now) where
  attempt := h.attempt
  updated := rfl
  completed := by simp [exhaustTask]
  leaseOwner := h.leaseOwner
  leaseDeadline := h.leaseDeadline
  restart := by simp [exhaustTask, (h.queuedShape hqueued).restart]
  awaiting := by simp [exhaustTask, (h.queuedShape hqueued).restart]
  fields := by
    have hshape := h.queuedShape hqueued
    have hlease : task.leaseOwner = none ∨ task.leaseDeadlineUnixSeconds = none := by
      simpa [Option.isSome_iff_ne_none, ← or_iff_not_imp_left] using hshape.leasePresent
    simp [exhaustTask, hshape.result, hshape.restart, failedClosed_legal, hlease]

variable {deadline : ℕ} {worker : Uuid}

theorem validChange_claimed
    (hqueued : task.state = .queued) (hattempt : task.attempt < maxClaimAttempts)
    (hworker : worker.isNil = false) (hlater : now < deadline) :
    ValidChange now (claimTask task worker deadline now) where
  attempt := hattempt
  updated := rfl
  completed := by simp [claimTask, (h.queuedShape hqueued).completed]
  leaseOwner := by simp [claimTask, hworker]
  leaseDeadline := by
    simp only [claimTask, ne_eq, Option.some.injEq]
    omega
  restart := by simp [claimTask]
  awaiting := by simp [claimTask]
  fields := by
    have hshape := h.queuedShape hqueued
    simp [claimTask, hshape.result, hshape.errorCode, hshape.completed, hshape.cancel]

variable {request : RemoteUpdateLeaseRenewRequest}

theorem renewed_restart {requested : ℕ}
    (hstage : validRenewTransition task.stage request.stage task.action = true)
    (hdeadline : renewDeadline task request requested = .ok deadline) :
    (request.stage == .awaitingRestart) = task.restart.isSome ∧
      ∀ binding ∈ task.restart, deadline = min requested binding.resumeDeadlineUnixSeconds := by
  have hawait := h.awaiting
  rw [renewDeadline] at hdeadline
  split at hdeadline
  · rename_i hcond
    obtain ⟨binding, hbinding, hdeadline⟩ := bind_eq_ok.mp hdeadline
    rw [okOr_eq_ok] at hbinding
    cases hdeadline
    rw [hbinding, Option.isSome_some, beq_iff_eq] at hawait
    refine ⟨?_, by simp [hbinding]⟩
    -- a task that waits for a restart can only be renewed as waiting for it
    rw [hbinding, Option.isSome_some, beq_iff_eq]
    cases haction : task.action <;>
      simpa [validRenewTransition, hawait, haction, RemoteUpdateAction.executionStage] using hstage
  · rename_i hcond
    rw [not_or] at hcond
    have hnone : task.restart = none := (awaits_or_free hawait).resolve_left hcond.1
    exact ⟨by simp [hcond.2, hnone], by simp [hnone]⟩

theorem validChange_renewed (hholds : Holds now task request.workerInstanceId)
    (hrequest : request.validate task.action = .ok ())
    (hstage : validRenewTransition task.stage request.stage task.action = true)
    (hdeadline : renewDeadline task request (now + request.requestedLeaseSeconds) = .ok deadline)
    (hlater : now < deadline) (hwindow : ∀ binding ∈ task.restart,
      binding.resumeDeadlineUnixSeconds ≤ now + request.requestedLeaseSeconds) :
    ValidChange now (renewTask task request.stage deadline now) := by
  have hshape := h.leasedShape hholds.leased
  obtain ⟨hawait, hend⟩ := renewed_restart h hstage hdeadline
  have hvalidStage : request.stage.validForActiveLease task.action = true := by
    simp only [RemoteUpdateLeaseRenewRequest.validate, bind_unit_eq_ok, rejectIf_eq_ok,
      not_not] at hrequest
    exact hrequest.2.2.2
  refine {
    attempt := h.attempt
    updated := rfl
    completed := by simp [renewTask, hshape.completed]
    leaseOwner := h.leaseOwner
    leaseDeadline := by
      simp only [renewTask, ne_eq, Option.some.injEq]
      omega
    restart := ?_
    awaiting := hawait
    fields := ?_ }
  · intro binding hbinding
    have hsame : deadline = binding.resumeDeadlineUnixSeconds := by
      rw [hend binding hbinding, min_eq_right (hwindow binding hbinding)]
    have hbound := binding_valid_later (h.restart binding hbinding) (hsame ▸ hlater)
    rw [deadline_of_restart h hbinding, ← hsame] at hbound
    exact hbound
  · have hrestart := awaits_or_free hawait
    simp only [RemoteUpdateStage.validForActiveLease, Bool.or_eq_true, Bool.and_eq_true,
      beq_iff_eq] at hvalidStage
    by_cases hcancel : task.cancelRequested = true
    · simp [renewTask, hcancel, hholds.owner, hshape.result, hshape.errorCode, hshape.completed,
        hrestart]
      tauto
    · by_cases hclaimed : request.stage = .claimed
      · simp [renewTask, hcancel, hholds.owner, hshape.result, hshape.errorCode, hshape.completed,
          hclaimed]
        simpa [hclaimed] using hrestart
      · simp [renewTask, hcancel, hholds.owner, hshape.result, hshape.errorCode, hshape.completed,
          hclaimed, hrestart]
        tauto

theorem restart_open (hopen : ∃ deadline ∈ task.leaseDeadlineUnixSeconds, now < deadline) :
    ∀ binding ∈ task.restart,
      binding.validate task.action task.leaseDeadlineUnixSeconds (some now) = .ok () := by
  intro binding hbinding
  obtain ⟨deadline, hdeadline, hlater⟩ := hopen
  rw [Option.mem_def, deadline_of_restart h hbinding, Option.some.injEq] at hdeadline
  exact binding_valid_later (h.restart binding hbinding) (hdeadline ▸ hlater)

theorem validChange_cancelled (hactive : task.state.isTerminal = false)
    (hopen : task.state.isLeased = true →
      ∃ deadline ∈ task.leaseDeadlineUnixSeconds, now < deadline) :
    ValidChange now (cancelTask task now).1 := by
  rw [cancelTask]
  split_ifs with hqueued
  · have hshape := h.queuedShape hqueued
    refine validChange_of_ended h.attempt rfl rfl rfl rfl rfl (by simp) ?_
    simp [hshape.result]
  · have hleased : task.state.isLeased = true := by
      cases hstate : task.state <;>
        simp [hstate, RemoteUpdateTaskState.isTerminal, RemoteUpdateTaskState.isLeased]
          at hactive hqueued ⊢
    have hshape := h.leasedShape hleased
    have hrestart := restart_open h (hopen hleased)
    refine {
      attempt := h.attempt
      updated := rfl
      completed := by simp [hshape.completed]
      leaseOwner := h.leaseOwner
      leaseDeadline := h.leaseDeadline
      restart := hrestart
      awaiting := h.awaiting
      fields := ?_ }
    have hawait := awaits_or_free h.awaiting
    have hlease := hshape.leasePresent
    have hstage := hshape.stage
    simp only [RemoteUpdateTask.leasePresent, RemoteUpdateTask.stageExecutes, Bool.or_eq_true,
      Bool.and_eq_true, beq_iff_eq] at hlease hstage
    simp [hshape.result, hshape.errorCode, hshape.completed, hawait]
    exact ⟨hstage, hlease⟩

theorem validChange_reported {report : RemoteUpdateWorkerReport} {kind : RemoteUpdateEventKind}
    (hnow : 0 < now) (hholds : Holds now task worker)
    (hreport : report.validate task.action = .ok ())
    (happly : ReportMove now task report kind task') : ValidChange now task' := by
  have hshape := h.leasedShape hholds.leased
  have hlease := hshape.leasePresent
  simp only [RemoteUpdateTask.leasePresent, Bool.and_eq_true] at hlease
  cases happly with
  | started hcancel hstage =>
    have hfree : task.restart = none := (awaits_or_free h.awaiting).resolve_left (by simp [hstage])
    refine {
      attempt := h.attempt
      updated := rfl
      completed := by simp [hshape.completed]
      leaseOwner := h.leaseOwner
      leaseDeadline := h.leaseDeadline
      restart := by simp [hfree]
      awaiting := ?_
      fields := ?_ }
    · cases haction : task.action <;> simp [hfree, RemoteUpdateAction.executionStage]
    · simp [hshape.result, hshape.errorCode, hshape.completed, hcancel, hfree, hlease]
  | @awaiting plan hcancel hrestart hstage hplan =>
    refine {
      attempt := h.attempt
      updated := rfl
      completed := by simp [awaitRestart, hshape.completed]
      leaseOwner := h.leaseOwner
      leaseDeadline := by
        simp only [awaitRestart, ne_eq, Option.some.injEq]
        omega
      restart := ?_
      awaiting := rfl
      fields := ?_ }
    · intro binding hbinding
      cases hbinding
      simp only [RemoteUpdateRestartBinding.validate, bind_unit_eq_ok, rejectIf_eq_ok]
      refine ⟨hplan, ?_⟩
      simp [awaitRestart, remoteUpdateRestartResumeSeconds]
      omega
    · simp [awaitRestart, hshape.result, hshape.errorCode, hshape.completed, hcancel, hrestart,
        hlease]
  | waits hstage hplan =>
    have hopen := restart_open h hholds.deadline
    exact {
      attempt := h.attempt
      updated := rfl
      completed := by simp [hshape.completed]
      leaseOwner := h.leaseOwner
      leaseDeadline := h.leaseDeadline
      restart := hopen
      awaiting := h.awaiting
      fields := h.fields }
  | @succeeded result hstate hstage =>
    have hresult : result.matchesAction task.action = true ∧ result.validate = .ok () := by
      simp only [RemoteUpdateWorkerReport.validate] at hreport
      split at hreport
      · exact ⟨‹_›, hreport⟩
      · cases hreport
    refine validChange_of_ended h.attempt rfl rfl rfl rfl rfl (by simp) ?_
    simp [hresult.1, hresult.2]
  | failed hstate =>
    refine validChange_of_ended h.attempt rfl rfl rfl rfl rfl (by simp) ?_
    simp [hreport]
  | cancelled hcancel hsafe =>
    refine validChange_of_ended h.attempt rfl rfl rfl rfl rfl (by simp) ?_
    simp [hcancel]

end

/-! ## Any move -/

/-- A renewal of a task that waits for a restart asks for at least the time that is left. -/
def KeepsWindow (now : ℕ) (task : RemoteUpdateTask) : Cause → Prop
  | .renewed request => ∀ binding ∈ task.restart,
    binding.resumeDeadlineUnixSeconds ≤ now + request.requestedLeaseSeconds
  | _ => True

omit [SemVer] in
theorem keepsWindow_of_ne (h : ∀ request, cause ≠ .renewed request) :
    KeepsWindow now task cause := by
  cases cause with
  | renewed request => exact absurd rfl (h request)
  | _ => trivial

/-- **Every move keeps a snapshot valid**, apart from the renewals that cut a restart short. -/
theorem TaskMove.valid {kind : RemoteUpdateEventKind} (hmove : TaskMove now task cause kind task')
    (h : task.Valid) (hnow : task.createdUnixSeconds ≤ now) (hwindow : KeepsWindow now task cause) :
    task'.Valid := by
  have hpos : 0 < now := lt_of_lt_of_le (Nat.pos_of_ne_zero h.created) hnow
  have hid := hmove.sameIdentity
  cases hmove with
  | replayed => exact h
  | restartReconciled => exact h
  | leaseLost hleased _ => exact (validChange_leaseLost h hleased).valid h hid hnow
  | exhausted hqueued _ => exact (validChange_exhausted h hqueued).valid h hid hnow
  | claimed hqueued hattempt hworker hlater =>
    exact (validChange_claimed h hqueued hattempt hworker hlater).valid h hid hnow
  | renewed hholds hrequest hstage hdeadline hlater =>
    exact (validChange_renewed h hholds hrequest hstage hdeadline hlater hwindow).valid h hid hnow
  | @reported request _ _ hholds hrequest _ happly =>
    have hreport : request.report.validate task.action = .ok () := by
      simp only [RemoteUpdateReportRequest.validate, bind_unit_eq_ok] at hrequest
      exact hrequest.2.2
    exact (validChange_reported h hpos hholds hreport (applyWorkerReport_cases happly)).valid h hid
      hnow
  | cancelled hactive _ hopen => exact (validChange_cancelled h hactive hopen).valid h hid hnow

end Shapes

section Runs

variable [SemVer] [Digests] {l l' : Ledger} {draws : Draws} {taskId : Uuid}

/-- Every stored snapshot passes its check, and no task was created later than now. -/
def AllValid (now : ℕ) (l : Ledger) : Prop :=
  ∀ taskId row, l.tasks.get? taskId = some row →
    (row.task taskId).Valid ∧ row.createdUnixSeconds ≤ now

omit [Digests] in
theorem AllValid.mono {later : ℕ} (h : AllValid now l) (hle : now ≤ later) : AllValid later l :=
  fun taskId row hget => ⟨(h taskId row hget).1, (h taskId row hget).2.trans hle⟩

theorem newRow_valid {request : CreateRemoteUpdateTaskRequest}
    {requestedBy : String} (hid : taskId.isNil = false) (hrequest : request.validate = .ok ())
    (hrequester : requesterValid requestedBy = true) (hnow : 0 < now) :
    ((newRow request requestedBy now).task taskId).Valid := by
  simp only [CreateRemoteUpdateTaskRequest.validate, validateNonNilUuid, bind_unit_eq_ok,
    rejectIf_eq_ok, Bool.not_eq_true] at hrequest
  exact {
    schema := rfl
    taskId := hid
    targetClientId := hrequest.1
    idempotencyKey := hrequest.2.1
    attempt := Nat.zero_le _
    requestedBy := hrequester
    created := hnow.ne'
    updated := le_refl now
    completed := by simp [TaskRow.task, newRow]
    leaseOwner := by simp [TaskRow.task, newRow]
    leaseDeadline := by simp [TaskRow.task, newRow]
    restart := by simp [TaskRow.task, newRow]
    awaiting := rfl
    fields := rfl }

theorem LedgerMove.allValid {m : Uuid × Cause} (h : LedgerMove now draws l m l')
    (hl : AllValid now l) (hnow : 0 < now)
    (hwindow : ∀ row, l.tasks.get? m.1 = some row → KeepsWindow now (row.task m.1) m.2) :
    AllValid now l' := by
  intro j row hget
  cases h.origin hget with
  | kept hold => exact hl j row hold
  | created _ hid hrequest hrequester =>
    exact ⟨newRow_valid hid hrequest hrequester hnow, le_refl now⟩
  | @moved old _ _ htask hold hvalid hrow =>
    subst htask
    have hcreated := (hl m.1 old hold).2
    refine ⟨hrow.move.valid hvalid hcreated (hwindow old hold), ?_⟩
    exact hrow.move.sameIdentity.created.le.trans hcreated

theorem allValid_of_moves {ms : List (Uuid × Cause)} (h : Run (LedgerMove now draws) l ms l')
    (hms : ∀ m ∈ ms, ∀ request, m.2 ≠ .renewed request) (hl : AllValid now l) (hnow : 0 < now) :
    AllValid now l' :=
  h.invariant_on (fun _ _ _ hcause hl hmove => hmove.allValid hl hnow
    fun _ _ => keepsWindow_of_ne hcause) hms hl

/-- The call does not cut a restart short: a renewal of a task that waits for a restart asks for
at least the time that is left. -/
def keepsRestartWindow (l : Ledger) (c : Call) : Bool :=
  match c.operation with
  | .renew _ taskId request => (l.tasks.get? taskId).all fun row => row.restartBinding.all fun
      binding => binding.resumeDeadlineUnixSeconds ≤ c.now + request.requestedLeaseSeconds
  | _ => true

omit [SemVer] [Digests] in
theorem keepsWindow_of_call {c : Call} {target : Uuid} {request : RemoteUpdateLeaseRenewRequest}
    {row : TaskRow} (hop : c.operation = .renew target taskId request)
    (h : keepsRestartWindow l c = true) (hget : l.tasks.get? taskId = some row) :
    KeepsWindow c.now (row.task taskId) (.renewed request) := by
  simp only [keepsRestartWindow, hop, hget, Option.all_some, Option.all_eq_true,
    decide_eq_true_eq] at h
  exact h

/-- **One call.** What is stored stays valid. -/
theorem Step.allValid {c : Call} {reply : Reply} (h : Step l (c, reply) l')
    (hwindow : keepsRestartWindow l c = true) (hl : AllValid c.now l) (hnow : 0 < c.now) :
    AllValid c.now l' := by
  obtain ⟨target, taskId, request, hop, hmove⟩ | ⟨ms, hrun, hms⟩ := h.renews_or_moves
  · exact hmove.allValid hl hnow fun row hget => keepsWindow_of_call hop hwindow hget
  · exact allValid_of_moves hrun hms hl hnow

/-- **Every stored row passes its check**, in every run from the empty ledger whose calls do not
cut a restart short; so every stored row can be read. -/
theorem valid_of_run {es : List (Call × Reply)}
    (hrun : Run (fun l e l' => Step l e l' ∧ keepsRestartWindow l e.1 = true) Ledger.empty es l)
    (hclock : Clocked callTime es) (hpos : ∀ e ∈ es, 0 < e.1.now) :
    ∀ taskId row, l.tasks.get? taskId = some row →
      (row.task taskId).validate = .ok () ∧ readTask (taskId, row) = .ok (row.task taskId) := by
  have hall : ∀ now, (∀ e ∈ es, e.1.now ≤ now) → AllValid now l := by
    refine Run.history (I := fun past l => ∀ now, (∀ e ∈ past, e.1.now ≤ now) → AllValid now l)
      (fun now _ taskId row hget => by simp [Ledger.empty] at hget) ?_ hrun
    intro past l1 e l2 _ hpre ih hstep now hnow
    have hvalid := hstep.1.allValid hstep.2 (ih e.1.now (now_le_of_clocked hclock hpre))
      (hpos e (hpre.subset (by simp)))
    exact hvalid.mono (hnow e (by simp))
  intro taskId row hget
  obtain ⟨now, hnow⟩ : ∃ now, ∀ e ∈ es, e.1.now ≤ now :=
    ⟨(es.map (·.1.now)).sum, fun e he => List.le_sum_of_mem (List.mem_map_of_mem he)⟩
  have hvalid := (hall now hnow taskId row hget).1
  exact ⟨RemoteUpdateTask.validate_eq_ok.mpr hvalid, readTask_eq_ok.mpr ⟨hvalid, rfl⟩⟩

end Runs

open Sample in
/-- A worker that renews shortly before its time for the restart ends keeps its row readable. -/
theorem valid_of_run_resumed :
    ∃ es l row, Run (fun l e l' => Step l e l' ∧ keepsRestartWindow l e.1 = true) Ledger.empty es l ∧
      Clocked callTime es ∧ (∀ e ∈ es, 0 < e.1.now) ∧
      l.tasks.get? (draws 0).taskId = some row ∧ row.stage = .awaitingRestart ∧
      (row.task (draws 0).taskId).validate = .ok () := by
  have h : ∃ x ∈ perform call (fun l e => keepsRestartWindow l e.1 = true) Ledger.empty
      (untilRestart ++ [renewAs .awaitingRestart 300 2600 4]),
      Clocked callTime x.1 ∧ (∀ e ∈ x.1, 0 < e.1.now) ∧
        ∃ row ∈ x.2.tasks.get? (draws 0).taskId, row.stage = .awaitingRestart := by
    decide +kernel
  obtain ⟨⟨es, l⟩, hcalls, hclock, hpos, row, hget, hstage⟩ := h
  have hrun := Run.of_perform hcalls
  exact ⟨es, l, row, hrun, hclock, hpos, hget, hstage, (valid_of_run hrun hclock hpos _ row hget).1⟩

open Sample in
/-- **A renewal can make a row that nothing reads.** After the worker has prepared its restart it
renews for a minute; the stored deadline is then no longer that of the restart binding. The row
fails its check, and a sweep after that minute fails with it. -/
theorem restart_renewal_poisons :
    ∃ es l row, Run Step Ledger.empty es l ∧ Clocked callTime es ∧ (∀ e ∈ es, 0 < e.1.now) ∧
      l.tasks.get? (draws 0).taskId = some row ∧
      (row.task (draws 0).taskId).validate = .error .invalidTimestamp ∧
      readTask ((draws 0).taskId, row) = .error .storage ∧
      sweep l 1100 (draws 5) = .error .storage := by
  have h : ∃ x ∈ perform call (fun _ _ => True) Ledger.empty
      (untilRestart ++ [renewAs .awaitingRestart 60 1004 4]),
      Clocked callTime x.1 ∧ (∀ e ∈ x.1, 0 < e.1.now) ∧
        ∃ row ∈ x.2.tasks.get? (draws 0).taskId,
          (row.task (draws 0).taskId).validate = .error .invalidTimestamp ∧
          readTask ((draws 0).taskId, row) = .error .storage ∧
          sweep x.2 1100 (draws 5) = .error .storage := by
    decide +kernel
  obtain ⟨⟨es, l⟩, hcalls, hclock, hpos, row, hget, hrow⟩ := h
  exact ⟨es, l, row, Run.of_calls hcalls, hclock, hpos, hget, hrow⟩

end LinkLake.UpdateTasks
