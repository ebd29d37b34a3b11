import LinkLake.Server.UpdateTasks.Operations

/-!
# Installation changes fail closed

A task that changes the installation must not run twice, and once its worker has begun nobody may
call it cancelled: its outcome is unknown until the worker reports it.

* `attempt_of_run`: the attempt counter of a task is the number of times it was handed out.
* `fail_closed_of_run`: a task that changes the installation is handed out at most once, does not
  go back to the queue, and, once its stage has left `claimed`, ends as succeeded or failed only.
-/

namespace LinkLake.UpdateTasks

open Fallible

section FailClosed

variable [SemVer] [Digests] {l l' : Ledger} {now : ℕ} {draws : Draws} {taskId : Uuid}
  {cause : Cause} {e : Call × Reply} {es : List (Call × Reply)} {kind : RemoteUpdateEventKind}
  {m : Uuid × Cause} {task task' : RemoteUpdateTask} {report : RemoteUpdateWorkerReport}

attribute [local simp] clearTaskLease

/-! ## Counting hand-outs -/

/-- Whether a call hands out this task. -/
def handsOut (taskId : Uuid) (e : Call × Reply) : Bool :=
  match e.2 with
  | .claim (some claim) => claim.task.taskId == taskId
  | _ => false

/-- How often a task has been handed out. -/
def handedOut (taskId : Uuid) (es : List (Call × Reply)) : ℕ := es.countP (handsOut taskId)

/-- The attempt counter of a task; a task that does not exist has not been attempted. -/
def attemptOf (l : Ledger) (taskId : Uuid) : ℕ := (l.tasks.get? taskId).elim 0 (·.attempt)

omit [Digests] in
theorem TaskMove.attempt (h : TaskMove now task cause kind task') :
    task'.attempt = task.attempt + if cause.issued.isSome then 1 else 0 := by
  cases h with
  | leaseLost => simp [Cause.issued, (sameOrigin_applyLostLease _ _).attempt]
  | reported _ _ _ happly =>
    simp [Cause.issued, (applyWorkerReport_cases happly).sameOrigin.attempt]
  | cancelled => simp [Cause.issued, (sameOrigin_cancelTask _ _).attempt]
  | _ => rfl

theorem LedgerMove.attemptOf (h : LedgerMove now draws l m l') (j : Uuid) :
    attemptOf l' j = attemptOf l j + if j = m.1 ∧ m.2.issued.isSome then 1 else 0 := by
  obtain ⟨taskId, cause⟩ := m
  by_cases hj : j = taskId
  · subst hj
    cases h with
    | created hfresh _ _ _ _ hmoved =>
      simp [UpdateTasks.attemptOf, hmoved.tasks, hfresh, newRow, Cause.issued]
    | @moved _ _ _ old new _ hold _ hrow hmoved =>
      have hattempt : new.attempt = old.attempt + if cause.issued.isSome then 1 else 0 :=
        hrow.move.attempt
      simp [UpdateTasks.attemptOf, hmoved.tasks, hold, hattempt]
  · simp [UpdateTasks.attemptOf, h.get?_of_ne hj, hj]

theorem attemptOf_of_moves {ms : List (Uuid × Cause)} (h : Run (LedgerMove now draws) l ms l')
    (hms : ∀ m ∈ ms, m.2.issued = none) (j : Uuid) : attemptOf l' j = attemptOf l j := by
  induction h with
  | nil => rfl
  | cons hmove _ ih =>
    rw [ih fun m hm => hms m (by simp [hm]), hmove.attemptOf, hms _ (by simp)]
    simp

/-- **One call** counts an attempt exactly when it hands the task out. -/
theorem Step.attemptOf (h : Step l e l') (j : Uuid) :
    attemptOf l' j = attemptOf l j + if handsOut j e then 1 else 0 := by
  obtain ⟨ms, l1, target, request, claim, -, hreply, hrun, hms, hclaim⟩ | ⟨ms, hrun, hms, hreply⟩ :=
    h.issues_or_moves
  · rw [hclaim.move.attemptOf, attemptOf_of_moves hrun hms]
    by_cases hj : j = claim.task.taskId
    · simp [handsOut, hreply, Cause.issued, hj]
    · simp [handsOut, hreply, hj, Ne.symm hj]
  · have hnot : handsOut j e = false := by
      rw [handsOut]
      split
      · exact absurd ‹_› (hreply _)
      · rfl
    simp [attemptOf_of_moves hrun hms, hnot]

/-- **The attempt counter of a task is the number of times it was handed out.** -/
theorem attempt_of_run (h : Run Step Ledger.empty es l) (j : Uuid) :
    handedOut j es = attemptOf l j := by
  refine Run.history (I := fun past l => handedOut j past = attemptOf l j) rfl ?_ h
  intro past l1 e l2 _ _ ih hstep
  rw [hstep.attemptOf, ← ih, handedOut, List.countP_append, List.countP_singleton]
  rfl

/-! ## Installation changes -/

/-- Whether the worker of a task has begun: its stage has left the queue and the hand-out, and not
because the task was cancelled there. -/
def Begun (task : RemoteUpdateTask) : Prop :=
  task.stage ≠ .queued ∧ task.stage ≠ .claimed ∧ task.state ≠ .cancelled

omit [SemVer] [Digests] in
theorem not_safe_of_changes {action : RemoteUpdateAction} (h : action.changesInstallation = true) :
    action.safeToRequeueAfterLeaseLoss = false := by
  cases action <;> first | rfl | cases h

omit [Digests] in
theorem ReportMove.begun (h : ReportMove now task report kind task')
    (hrisky : cancellationIsKnownSafe task = false) (hbegun : Begun task) : Begun task' := by
  cases h with
  | started _ hclaimed => exact absurd hclaimed hbegun.2.1
  | cancelled _ hsafe => simp [hrisky] at hsafe
  | waits => exact hbegun
  | awaiting => simp [Begun, awaitRestart]
  | succeeded => simp [Begun]
  | failed => simp [Begun]

omit [Digests] in
theorem ReportMove.state_ne_queued
    (h : ReportMove now task report kind task') (hqueued : task.state ≠ .queued) :
    task'.state ≠ .queued := by
  cases h with
  | waits => exact hqueued
  | _ => simp [awaitRestart]

omit [Digests] in
theorem TaskMove.begun (hmove : TaskMove now task cause kind task') (h : task.Valid)
    (hchanges : task.action.changesInstallation = true) (hbegun : Begun task) : Begun task' := by
  obtain ⟨hnotQueued, hnotClaimed, hnotCancelled⟩ := hbegun
  have hrisky : cancellationIsKnownSafe task = false := by
    simp [cancellationIsKnownSafe, hnotClaimed, not_safe_of_changes hchanges]
  cases hmove with
  | replayed => exact ⟨hnotQueued, hnotClaimed, hnotCancelled⟩
  | restartReconciled => exact ⟨hnotQueued, hnotClaimed, hnotCancelled⟩
  | leaseLost =>
    simp [applyLostLease, hrisky, not_safe_of_changes hchanges, Begun]
  | exhausted hqueued => exact absurd (h.queuedShape hqueued).stage hnotQueued
  | claimed hqueued => exact absurd (h.queuedShape hqueued).stage hnotQueued
  | @renewed request _ _ _ hstage =>
    simp only [validRenewTransition, Bool.or_eq_true, Bool.and_eq_true, beq_iff_eq, hnotClaimed,
      false_and, false_or] at hstage
    -- the stage stays, or waits for the restart
    have hkept : request.stage = task.stage ∨ request.stage = .awaitingRestart := by tauto
    have hrequested : request.stage ≠ .queued ∧ request.stage ≠ .claimed := by
      rcases hkept with hkept | hkept <;> simp [hkept, hnotQueued, hnotClaimed]
    refine ⟨hrequested.1, hrequested.2, ?_⟩
    simp only [renewTask]
    split_ifs <;> simp
  | reported _ _ _ happly =>
    exact (applyWorkerReport_cases happly).begun hrisky ⟨hnotQueued, hnotClaimed, hnotCancelled⟩
  | cancelled =>
    rw [cancelTask]
    split_ifs with hqueued
    · exact absurd (h.queuedShape hqueued).stage hnotQueued
    · exact ⟨hnotQueued, hnotClaimed, by simp⟩

omit [Digests] in
theorem TaskMove.once (hmove : TaskMove now task cause kind task')
    (hchanges : task.action.changesInstallation = true)
    (honce : task.state = .queued → task.attempt = 0) (hattempt : task.attempt ≤ 1) :
    (task'.state = .queued → task'.attempt = 0) ∧ task'.attempt ≤ 1 := by
  have hcount := hmove.attempt
  cases hmove with
  | replayed => exact ⟨honce, hattempt⟩
  | restartReconciled => exact ⟨honce, hattempt⟩
  | leaseLost =>
    refine ⟨fun hqueued => ?_, by simpa [hcount, Cause.issued] using hattempt⟩
    rw [applyLostLease] at hqueued
    split_ifs at hqueued with hcancel hsafe
    · simp at hqueued
    · simp [not_safe_of_changes hchanges] at hsafe
    · simp at hqueued
  | exhausted => exact ⟨by simp [exhaustTask], hattempt⟩
  | claimed hqueued => exact ⟨by simp [claimTask], by simp [hcount, honce hqueued, Cause.issued]⟩
  | renewed =>
    refine ⟨fun hqueued => ?_, hattempt⟩
    simp only [renewTask] at hqueued
    split_ifs at hqueued
  | reported hholds _ _ happly =>
    have hreport := applyWorkerReport_cases happly
    refine ⟨fun hqueued => absurd hqueued (hreport.state_ne_queued fun hstate => ?_),
      hreport.sameOrigin.attempt ▸ hattempt⟩
    simpa [hstate, RemoteUpdateTaskState.isLeased] using hholds.leased
  | cancelled =>
    refine ⟨fun hqueued => ?_, (sameOrigin_cancelTask task now).attempt ▸ hattempt⟩
    rw [cancelTask] at hqueued
    split_ifs at hqueued
    simp at hqueued

/-! ## Runs -/

/-- What holds of every stored task that changes the installation. -/
def Once (row : TaskRow) : Prop :=
  row.action.changesInstallation = true →
    (row.state = .queued → row.attempt = 0) ∧ row.attempt ≤ 1

theorem LedgerMove.once (h : LedgerMove now draws l m l')
    (hl : ∀ j row, l.tasks.get? j = some row → Once row) :
    ∀ j row, l'.tasks.get? j = some row → Once row := by
  intro j row hget
  cases h.origin hget with
  | kept hold => exact hl j row hold
  | created => exact fun _ => ⟨fun _ => rfl, Nat.zero_le 1⟩
  | @moved old _ _ _ hold _ hrow =>
    intro hchanges
    have haction : row.action = old.action := hrow.move.sameIdentity.action
    rw [haction] at hchanges
    obtain ⟨hqueued, hattempt⟩ := hl j old hold hchanges
    exact hrow.move.once hchanges hqueued hattempt

theorem Step.once (h : Step l e l') (hl : ∀ j row, l.tasks.get? j = some row → Once row) :
    ∀ j row, l'.tasks.get? j = some row → Once row := by
  obtain ⟨ms, hrun, -⟩ := h.moves
  exact hrun.invariant (fun _ _ _ hl hmove => hmove.once hl) hl

/-- The task is there, it has begun, and it is a change of the installation. -/
def Underway (taskId : Uuid) (l : Ledger) : Prop :=
  ∃ row, l.tasks.get? taskId = some row ∧ row.action.changesInstallation = true ∧
    Begun (row.task taskId)

theorem LedgerMove.underway (h : LedgerMove now draws l m l') (hl : Underway taskId l) :
    Underway taskId l' := by
  obtain ⟨row, hget, hchanges, hbegun⟩ := hl
  obtain ⟨j, cause⟩ := m
  by_cases hj : taskId = j
  · subst hj
    cases h with
    | created hfresh => simp [hfresh] at hget
    | @moved _ _ _ old new _ hold hvalid hrow hmoved =>
      cases hget.symm.trans hold
      refine ⟨new, (hmoved.tasks taskId).trans (if_pos rfl), ?_,
        hrow.move.begun hvalid hchanges hbegun⟩
      rwa [show new.action = row.action from hrow.move.sameIdentity.action]
  · exact ⟨row, (h.get?_of_ne hj).trans hget, hchanges, hbegun⟩

theorem Step.underway (h : Step l e l') (hl : Underway taskId l) : Underway taskId l' := by
  obtain ⟨ms, hrun, -⟩ := h.moves
  exact hrun.invariant (fun _ _ _ hl hmove => hmove.underway hl) hl

theorem once_of_run (h : Run Step Ledger.empty es l) :
    ∀ j row, l.tasks.get? j = some row → Once row :=
  h.invariant (fun _ _ _ hl hstep => hstep.once hl) fun _ _ hget => by simp [Ledger.empty] at hget

theorem run_get? {row : TaskRow} (h : Run Step l es l') (hget : l.tasks.get? taskId = some row) :
    ∃ row', l'.tasks.get? taskId = some row' ∧
      SameIdentity (row.task taskId) (row'.task taskId) := by
  refine h.invariant (I := fun l => ∃ row', l.tasks.get? taskId = some row' ∧
    SameIdentity (row.task taskId) (row'.task taskId)) ?_
    ⟨row, hget, ⟨rfl, rfl, rfl, rfl, rfl, rfl, rfl⟩⟩
  rintro l1 e l2 ⟨row1, hget1, hsame1⟩ hstep
  obtain ⟨ms, hrun, -⟩ := hstep.moves
  obtain ⟨row2, hget2, hsame2⟩ := run_get?_some hrun hget1
  exact ⟨row2, hget2, hsame1.trans hsame2⟩

/-- **Installation changes fail closed.** From any reachable ledger on, whatever workers and
administrators do: a task that changes the installation is handed out at most once in its life, is
not in the queue again once it was handed out, and, once its stage has left `claimed` without its
being cancelled there, is never cancelled, so that it can only end as succeeded or failed. -/
theorem fail_closed_of_run {past future : List (Call × Reply)} {l0 : Ledger} {row0 : TaskRow}
    (hpast : Run Step Ledger.empty past l0) (hfuture : Run Step l0 future l)
    (hget0 : l0.tasks.get? taskId = some row0) (hchanges : row0.action.changesInstallation = true) :
    ∃ row, l.tasks.get? taskId = some row ∧ row.attempt ≤ 1 ∧
      handedOut taskId (past ++ future) ≤ 1 ∧
      (1 ≤ row0.attempt → row.state ≠ .queued) ∧
      (row0.stage ≠ .queued → row0.stage ≠ .claimed → row0.state ≠ .cancelled →
        row.state ≠ .cancelled ∧
        (row.state.isTerminal = true → row.state = .succeeded ∨ row.state = .failed)) := by
  have hrun := hpast.append hfuture
  obtain ⟨row, hget, hsame⟩ := run_get? hfuture hget0
  have haction : row.action = row0.action := hsame.action
  obtain ⟨honce, hattempt⟩ := once_of_run hrun taskId row hget (by rw [haction]; exact hchanges)
  have hcount : handedOut taskId (past ++ future) = row.attempt := by
    simp [attempt_of_run hrun, attemptOf, hget]
  have hcount0 : handedOut taskId past = row0.attempt := by
    simp [attempt_of_run hpast, attemptOf, hget0]
  refine ⟨row, hget, hattempt, hcount ▸ hattempt, fun hclaimed hqueued => ?_, ?_⟩
  · -- hand-outs are never taken back, so the counter cannot be zero again
    have hzero := honce hqueued
    rw [handedOut, List.countP_append] at hcount
    rw [handedOut] at hcount0
    omega
  · intro hnotQueued hnotClaimed hnotCancelled
    obtain ⟨row', hget', -, hbegun⟩ := hfuture.invariant (fun _ _ _ hl hstep => hstep.underway hl)
      ⟨row0, hget0, hchanges, hnotQueued, hnotClaimed, hnotCancelled⟩
    cases hget.symm.trans hget'
    have hstate : row.state ≠ .cancelled := hbegun.2.2
    refine ⟨hstate, fun hterminal => ?_⟩
    cases hs : row.state <;> simp [hs, RemoteUpdateTaskState.isTerminal] at hterminal hstate ⊢

end FailClosed

open Sample in
/-- An installation that was cancelled while it ran, and whose worker then went silent, ends as
failed. -/
theorem fail_closed_of_run_silent :
    ∃ past future l0 l row0 row, Run Step Ledger.empty past l0 ∧ Run Step l0 future l ∧
      l0.tasks.get? (draws 0).taskId = some row0 ∧
      row0.action.changesInstallation = true ∧ row0.stage = .applying ∧
      l.tasks.get? (draws 0).taskId = some row ∧ row.cancelRequested = true ∧
      row.state.isTerminal = true ∧ (row.state = .succeeded ∨ row.state = .failed) := by
  have h : ∃ x ∈ perform call (fun _ _ => True) Ledger.empty (untilRestart.take 3),
      (∃ row0 ∈ x.2.tasks.get? (draws 0).taskId,
        row0.action.changesInstallation = true ∧ row0.stage = .applying ∧ row0.state = .running) ∧
      ∃ y ∈ perform call (fun _ _ => True) x.2 [⟨.cancel (draws 0).taskId ⟨"CANCEL"⟩, 1003,
        draws 3⟩, ⟨.sweep, 2000, draws 4⟩],
        ∃ row ∈ y.2.tasks.get? (draws 0).taskId,
          row.cancelRequested = true ∧ row.state.isTerminal = true := by
    decide +kernel
  obtain ⟨⟨past, l0⟩, hpast, ⟨row0, hget0, hchanges, hstage, hstate⟩, ⟨future, l⟩, hfuture,
    row, hget, hcancel, hterminal⟩ := h
  have hpast' := Run.of_calls hpast
  have hfuture' : Run Step l0 future l := Run.of_calls hfuture
  obtain ⟨row', hget', -, -, -, hend⟩ := fail_closed_of_run hpast' hfuture' hget0 hchanges
  cases hget.symm.trans hget'
  have hdone := hend (by simp [hstage]) (by simp [hstage]) (by simp [hstate])
  exact ⟨past, future, l0, l, row0, row, hpast', hfuture', hget0, hchanges, hstage, hget,
    hcancel, hterminal, hdone.2 hterminal⟩

end LinkLake.UpdateTasks
