import LinkLake.Server.UpdateTasks.Validity

/-!
# The event log

Every move of a task appends an event, except that of renewals, replays and restarts only the
first few are recorded. So the log of a task stays bounded, and its last entry shows the task as it
is unless a renewal that also moved the stage went unrecorded.

* `Logged` says that the events of a task are numbered from one without gaps, that each sampled
  kind keeps to its budget, and that the others are paid for by the progress of the task (`rank`).
* `logged_of_run`: in every run the log of a task stays far below its capacity.
-/

namespace LinkLake.UpdateTasks

open Fallible

/-! ## Appending -/

variable {task : RemoteUpdateTask} {kind : RemoteUpdateEventKind} {now : ℕ} {draws : Draws}
  {own : List RemoteUpdateTaskEvent}

section Appending

variable {events events' : List RemoteUpdateTaskEvent} {j : Uuid}

theorem recordEvent_cases (h : recordEvent events task kind now draws = .ok events') :
    (sampledAway kind (eventsOf task.taskId events) = true ∧ events' = events) ∨
    (sampledAway kind (eventsOf task.taskId events) = false ∧ events' = events ++
      [eventOf task kind (draws.eventId events.length)
        (nextSequence (eventsOf task.taskId events)) now]) := by
  rw [recordEvent] at h
  by_cases hsampled : sampledAway kind (eventsOf task.taskId events) = true
  · rw [if_pos hsampled] at h
    exact .inl ⟨hsampled, (Except.ok.inj h).symm⟩
  · rw [if_neg hsampled] at h
    simp only [bind_unit_eq_ok] at h
    exact .inr ⟨Bool.eq_false_iff.mpr hsampled, (Except.ok.inj h.2.2.2).symm⟩

section

variable (hroom : (eventsOf task.taskId events).length < maxEventsPerTask)
include hroom

theorem recordEvent_ok
    (hnow : now < 2 ^ 63) (hfresh : ∀ event ∈ events, event.eventId ≠ draws.eventId events.length) :
    ∃ events', recordEvent events task kind now draws = .ok events' := by
  rw [recordEvent]
  split
  · exact ⟨_, rfl⟩
  · have hnew : ¬ events.any (·.eventId == draws.eventId events.length) = true := by
      simpa using hfresh
    have hfits : nowI64 now = .ok () := nowI64_eq_ok.mpr hnow
    rw [rejectIf_of_not (not_le.mpr hroom), ok_bind, hfits, ok_bind, rejectIf_of_not hnew, ok_bind]
    exact ⟨_, rfl⟩

theorem recordEvent_ne_capacityExceeded :
    recordEvent events task kind now draws ≠ .error .capacityExceeded := by
  rw [recordEvent]
  split
  · simp
  · rw [rejectIf_of_not (not_le.mpr hroom), ok_bind, nowI64, rejectIf, rejectIf]
    split_ifs <;> simp

end

@[simp] theorem eventsOf_append (events2 : List RemoteUpdateTaskEvent) :
    eventsOf j (events ++ events2) = eventsOf j events ++ eventsOf j events2 :=
  List.filter_append ..

theorem eventsOf_eventOf {eventId : Uuid} {sequence : ℕ} :
    eventsOf j [eventOf task kind eventId sequence now] =
      if task.taskId = j then [eventOf task kind eventId sequence now] else [] := by
  simp only [eventsOf, List.filter_cons, List.filter_nil, eventOf, beq_iff_eq]

variable (h : recordEvent events task kind now draws = .ok events')
include h

theorem eventsOf_recordEvent_of_ne
    (hj : task.taskId ≠ j) : eventsOf j events' = eventsOf j events := by
  rcases recordEvent_cases h with ⟨-, rfl⟩ | ⟨-, rfl⟩
  · rfl
  · rw [eventsOf_append, eventsOf_eventOf, if_neg hj, List.append_nil]

theorem eventsOf_recordEvent : let own := eventsOf task.taskId events
    (sampledAway kind own = true ∧ eventsOf task.taskId events' = own) ∨
    (sampledAway kind own = false ∧ eventsOf task.taskId events' = own ++
      [eventOf task kind (draws.eventId events.length) (nextSequence own) now]) := by
  rcases recordEvent_cases h with ⟨hsampled, rfl⟩ | ⟨hsampled, rfl⟩
  · exact .inl ⟨hsampled, rfl⟩
  · exact .inr ⟨hsampled, by rw [eventsOf_append, eventsOf_eventOf, if_pos rfl]⟩

end Appending

/-! ## Numbering -/

/-- Events are numbered from one without gaps. -/
def Numbered (own : List RemoteUpdateTaskEvent) : Prop :=
  own.map (·.sequence) = List.range' 1 own.length

theorem nextSequence_of_numbered (h : Numbered own) : nextSequence own = own.length + 1 := by
  rw [nextSequence, h]
  generalize own.length = n
  induction n with
  | zero => rfl
  | succ n ih =>
    rw [List.range'_concat, List.foldl_append, Nat.succ_inj.mp ih]
    simp
    omega

theorem Numbered.snoc {event : RemoteUpdateTaskEvent} (h : Numbered own)
    (hevent : event.sequence = nextSequence own) : Numbered (own ++ [event]) := by
  rw [Numbered, List.map_append, h, List.length_append, List.length_singleton,
    List.range'_concat, List.map_singleton, hevent, nextSequence_of_numbered h]
  simp [Nat.add_comm]

/-! ## Progress pays for events -/

/-- How far a stage is on the way from one hand-out to the next. -/
def stageRank : RemoteUpdateStage → ℕ
  | .claimed => 0
  | .awaitingRestart => 2
  | .queued => 3
  | _ => 1

/-- The progress of a task: every move that is always recorded makes some. -/
def rank (task : RemoteUpdateTask) : ℕ :=
  if task.state.isTerminal then 70
  else 4 * task.attempt + stageRank task.stage + task.cancelRequested.toNat

@[simp] theorem stageRank_claimed : stageRank .claimed = 0 := rfl

@[simp] theorem stageRank_awaitingRestart : stageRank .awaitingRestart = 2 := rfl

@[simp] theorem stageRank_queued : stageRank .queued = 3 := rfl

/-- Whether every event of a kind is recorded. -/
def alwaysRecorded (kind : RemoteUpdateEventKind) : Bool := (sampledLimit kind).isNone

section Rank

variable {task' : RemoteUpdateTask}

theorem rank_of_terminal (h : task.state.isTerminal = true) : rank task = 70 := if_pos h

theorem rank_of_active (h : task.state.isTerminal = false) :
    rank task = 4 * task.attempt + stageRank task.stage + task.cancelRequested.toNat :=
  if_neg (by simp [h])

@[simp] theorem stageRank_executionStage (action : RemoteUpdateAction) :
    stageRank action.executionStage = 1 := by
  cases action <;> rfl

theorem stageRank_le (stage : RemoteUpdateStage) : stageRank stage ≤ 3 := by
  cases stage <;> decide

section

variable (hattempt : task.attempt ≤ maxClaimAttempts)
include hattempt

theorem rank_lt_of_active (h : task.state.isTerminal = false) : rank task < 70 := by
  have hstage := stageRank_le task.stage
  have hcancel := Bool.toNat_le task.cancelRequested
  rw [rank_of_active h]
  simp only [maxClaimAttempts] at hattempt
  omega

theorem rank_le : rank task ≤ 70 := by
  by_cases h : task.state.isTerminal = true
  · exact (rank_of_terminal h).le
  · exact (rank_lt_of_active hattempt (Bool.eq_false_iff.mpr h)).le

theorem rank_ended (h : task.state.isTerminal = false) (h' : task'.state.isTerminal = true) :
    rank task + 1 ≤ rank task' := by
  rw [rank_of_terminal h']
  exact rank_lt_of_active hattempt h

end

variable [SemVer] {cause : Cause}

theorem stageRank_of_leased (h : task.Valid) (hleased : task.state.isLeased = true) :
    stageRank task.stage ≤ 2 := by
  rcases (h.leasedShape hleased).stage with hstage | hstage
  · simp [hstage]
  · simp only [RemoteUpdateTask.stageExecutes, Bool.or_eq_true, Bool.and_eq_true,
      beq_iff_eq] at hstage
    rcases hstage with hstage | hstage
    · simp [hstage]
    · simp [hstage.1]

theorem rank_leaseLost (h : task.Valid) (hleased : task.state.isLeased = true) :
    rank task + 1 ≤ rank (applyLostLease task now).1 := by
  have hactive := isTerminal_of_leased hleased
  rw [applyLostLease]
  split_ifs with hcancel hsafe
  · exact rank_ended h.attempt hactive rfl
  · -- back into the queue: the stage of the queue is the last one of a round
    have hkeep : task.cancelRequested = false := by
      simpa [cancellationIsKnownSafe, hsafe] using hcancel
    have hstage := stageRank_of_leased h hleased
    rw [rank_of_active hactive, rank_of_active rfl]
    simp only [clearTaskLease, hkeep, stageRank_queued, Bool.toNat_false]
    omega
  · exact rank_ended h.attempt hactive rfl

omit [SemVer] in
theorem rank_renewed {request : RemoteUpdateLeaseRenewRequest} {deadline : ℕ}
    (hleased : task.state.isLeased = true)
    (hstage : validRenewTransition task.stage request.stage task.action = true) :
    rank task ≤ rank (renewTask task request.stage deadline now) := by
  have hstages : stageRank task.stage ≤ stageRank request.stage := by
    simp only [validRenewTransition, Bool.or_eq_true, Bool.and_eq_true, beq_iff_eq] at hstage
    rcases hstage with (⟨hcurrent, -⟩ | ⟨hcurrent, hrequested | ⟨hrequested, -⟩⟩) | ⟨-, hrequested⟩
    · simp [hcurrent]
    · rw [hrequested]
    · rw [hcurrent, hrequested, stageRank_executionStage]
      decide
    · rw [hrequested]
  rw [rank_of_active (isTerminal_of_leased hleased), rank_of_active (isTerminal_renewTask _ _ _ _)]
  simp only [renewTask]
  omega

theorem rank_reported {report : RemoteUpdateWorkerReport} (h : task.Valid)
    (hleased : task.state.isLeased = true) (hreport : ReportMove now task report kind task') :
    rank task + (alwaysRecorded kind).toNat ≤ rank task' := by
  have hactive := isTerminal_of_leased hleased
  cases hreport with
  | started hcancel hstage =>
    rw [rank_of_active hactive, rank_of_active rfl]
    simp [hstage, hcancel, alwaysRecorded, sampledLimit]
  | awaiting hcancel _ hstage =>
    rw [rank_of_active hactive, rank_of_active rfl]
    simp [awaitRestart, hstage, hcancel, alwaysRecorded, sampledLimit]
  | waits => exact le_refl _
  | succeeded => exact rank_ended h.attempt hactive rfl
  | failed => exact rank_ended h.attempt hactive rfl
  | cancelled => exact rank_ended h.attempt hactive rfl

theorem rank_cancelled (h : task.Valid) (hactive : task.state.isTerminal = false)
    (hnew : task.cancelRequested = false) : rank task + 1 ≤ rank (cancelTask task now).1 := by
  rw [cancelTask]
  split_ifs
  · exact rank_ended h.attempt hactive rfl
  · rw [rank_of_active hactive, rank_of_active rfl]
    simp [hnew]

/-- **Every move that is always recorded makes progress**, and no move loses any. -/
theorem TaskMove.rank_le (hmove : TaskMove now task cause kind task')
    (h : task.Valid) : rank task + (alwaysRecorded kind).toNat ≤ rank task' := by
  have hpaid : ∀ {a b : ℕ}, a + 1 ≤ b → a + (alwaysRecorded kind).toNat ≤ b := fun hab =>
    (Nat.add_le_add_left (Bool.toNat_le _) _).trans hab
  cases hmove with
  | replayed => exact le_refl _
  | restartReconciled => exact le_refl _
  | leaseLost hleased => exact hpaid (rank_leaseLost h hleased)
  | exhausted hqueued => exact hpaid (rank_ended h.attempt (by rw [hqueued]; rfl) rfl)
  | claimed hqueued =>
    have hshape := h.queuedShape hqueued
    rw [rank_of_active (by rw [hqueued]; rfl), rank_of_active rfl]
    simp only [claimTask, hshape.cancel, hshape.stage, stageRank_queued,
      stageRank_claimed, Bool.toNat_false]
    exact hpaid (by omega)
  | renewed hholds _ hstage => exact rank_renewed hholds.leased hstage
  | reported hholds _ _ happly =>
    exact rank_reported h hholds.leased (applyWorkerReport_cases happly)
  | cancelled hactive hnew => exact hpaid (rank_cancelled h hactive hnew)

theorem TaskMove.attempt_le (hmove : TaskMove now task cause kind task')
    (h : task.Valid) : task'.attempt ≤ maxClaimAttempts := by
  cases hmove with
  | claimed _ hattempt => exact hattempt
  | leaseLost => exact (sameOrigin_applyLostLease task now).attempt ▸ h.attempt
  | reported _ _ _ happly => exact (applyWorkerReport_cases happly).sameOrigin.attempt ▸ h.attempt
  | cancelled => exact (sameOrigin_cancelTask task now).attempt ▸ h.attempt
  | _ => exact h.attempt

end Rank

/-! ## The log of one task -/

/-- The log of a task: numbered without gaps, each sampled kind within its budget, and the rest
paid for by the progress of the task. -/
structure Logged (task : RemoteUpdateTask) (own : List RemoteUpdateTaskEvent) : Prop where
  numbered : Numbered own
  budget : ∀ kind, ∀ limit ∈ sampledLimit kind, recorded kind own ≤ limit
  paid : own.countP (alwaysRecorded ·.kind) ≤ rank task
  bounded : rank task ≤ 70

theorem length_eq_recorded (own : List RemoteUpdateTaskEvent) :
    own.length = own.countP (alwaysRecorded ·.kind) + recorded .leaseRenewed own +
      recorded .idempotentReplay own + recorded .restartReconciled own := by
  induction own with
  | nil => rfl
  | cons event own ih =>
    have hone : (if alwaysRecorded event.kind = true then 1 else 0)
        + (if (event.kind == .leaseRenewed) = true then 1 else 0)
        + (if (event.kind == .idempotentReplay) = true then 1 else 0)
        + (if (event.kind == .restartReconciled) = true then 1 else 0) = 1 := by
      cases event.kind <;> rfl
    simp only [recorded, List.length_cons, List.countP_cons] at ih ⊢
    omega

theorem Logged.length_le (h : Logged task own) : own.length ≤ 86 := by
  have hpaid := h.paid
  have hbounded := h.bounded
  have hrenewed := h.budget .leaseRenewed _ rfl
  have hreplayed := h.budget .idempotentReplay _ rfl
  have hrestarted := h.budget .restartReconciled _ rfl
  simp only [maxLeaseEventsPerTask, maxReplayEventsPerTask, maxRestartEventsPerTask]
    at hrenewed hreplayed hrestarted
  rw [length_eq_recorded]
  omega

theorem logged_record {events events' : List RemoteUpdateTaskEvent} {now : ℕ} {draws : Draws}
    (hnumbered : Numbered (eventsOf task.taskId events))
    (hbudget : ∀ kind, ∀ limit ∈ sampledLimit kind,
      recorded kind (eventsOf task.taskId events) ≤ limit)
    (hpaid : (eventsOf task.taskId events).countP (alwaysRecorded ·.kind)
      + (alwaysRecorded kind).toNat ≤ rank task)
    (hbounded : rank task ≤ 70) (h : recordEvent events task kind now draws = .ok events') :
    Logged task (eventsOf task.taskId events') := by
  rcases eventsOf_recordEvent h with ⟨-, heq⟩ | ⟨hsampled, heq⟩ <;> rw [heq]
  · exact ⟨hnumbered, hbudget, by omega, hbounded⟩
  · refine ⟨hnumbered.snoc rfl, fun other limit hlimit => ?_, ?_, hbounded⟩
    · have hother := hbudget other limit hlimit
      simp only [recorded, List.countP_append, List.countP_singleton] at hother ⊢
      by_cases hkind : kind = other
      · -- the budget was not used up, or the event would have been sampled away
        subst hkind
        have hroom : recorded kind (eventsOf task.taskId events) < limit := by
          simpa [sampledAway, Option.mem_def.mp hlimit] using hsampled
        simpa [eventOf, recorded] using hroom
      · simpa [eventOf, hkind] using hother
    · rw [List.countP_append]
      refine (Nat.add_le_add_left (le_of_eq ?_) _).trans hpaid
      rw [List.countP_singleton]
      change (if alwaysRecorded kind = true then 1 else 0) = (alwaysRecorded kind).toNat
      cases alwaysRecorded kind <;> rfl

section Runs

variable [SemVer] [Digests] {l l' : Ledger} {taskId : Uuid}

/-- Every event belongs to a task, and every task has its log. -/
structure LoggedLedger (l : Ledger) : Prop where
  known : ∀ event ∈ l.events, event.taskId ∈ l.tasks
  logged : ∀ taskId row, l.tasks.get? taskId = some row →
    Logged (row.task taskId) (eventsOf taskId l.events)

omit [SemVer] [Digests] in
theorem LoggedLedger.eventsOf_eq_nil (h : LoggedLedger l)
    (hfresh : l.tasks.get? taskId = none) : eventsOf taskId l.events = [] := by
  rw [eventsOf, List.filter_eq_nil_iff]
  intro event hevent heq
  rw [beq_iff_eq] at heq
  exact FiniteMap.get?_eq_none.mp hfresh (heq ▸ h.known event hevent)

omit [SemVer] [Digests] in
theorem LoggedLedger.room (h : LoggedLedger l) (taskId : Uuid) :
    (eventsOf taskId l.events).length < maxEventsPerTask := by
  cases hget : l.tasks.get? taskId with
  | none =>
    rw [h.eventsOf_eq_nil hget]
    decide
  | some row => exact lt_of_le_of_lt (h.logged taskId row hget).length_le (by decide)

omit [SemVer] [Digests] in
theorem LoggedLedger.of_moved {row' : TaskRow} {kind : RemoteUpdateEventKind}
    (h : LoggedLedger l) (hmoved : Moved now draws l taskId row' kind l')
    (hnumbered : Numbered (eventsOf taskId l.events))
    (hbudget : ∀ kind, ∀ limit ∈ sampledLimit kind,
      recorded kind (eventsOf taskId l.events) ≤ limit)
    (hpaid : (eventsOf taskId l.events).countP (alwaysRecorded ·.kind)
      + (alwaysRecorded kind).toNat ≤ rank (row'.task taskId))
    (hbounded : rank (row'.task taskId) ≤ 70) : LoggedLedger l' := by
  have hmem : ∀ j, j ∈ l'.tasks ↔ j = taskId ∨ j ∈ l.tasks := by
    intro j
    simp only [FiniteMap.mem_iff, hmoved.tasks]
    by_cases hj : j = taskId <;> simp [hj]
  constructor
  · intro event hevent
    rw [hmem]
    rcases recordEvent_cases hmoved.events with ⟨-, heq⟩ | ⟨-, heq⟩ <;> rw [heq] at hevent
    · exact .inr (h.known event hevent)
    · rcases List.mem_append.mp hevent with hevent | hevent
      · exact .inr (h.known event hevent)
      · rw [List.mem_singleton.mp hevent]
        exact .inl rfl
  · intro j row hget
    by_cases hj : j = taskId
    · subst hj
      rw [hmoved.tasks, if_pos rfl] at hget
      cases hget
      exact logged_record hnumbered hbudget hpaid hbounded hmoved.events
    · rw [hmoved.tasks, if_neg hj] at hget
      rw [eventsOf_recordEvent_of_ne hmoved.events (Ne.symm hj)]
      exact h.logged j row hget

theorem LedgerMove.logged {m : Uuid × Cause} (h : LedgerMove now draws l m l')
    (hl : LoggedLedger l) : LoggedLedger l' := by
  cases h with
  | created hfresh _ _ _ _ hmoved =>
    have hnil := hl.eventsOf_eq_nil hfresh
    refine hl.of_moved hmoved ?_ ?_ ?_ ?_
    · rw [hnil]; rfl
    · rw [hnil]; simp [recorded]
    · rw [hnil]
      exact (by decide : 0 + 1 ≤ 3)
    · exact (by decide : 3 ≤ 70)
  | moved hget hvalid hrow hmoved =>
    have hlog := hl.logged _ _ hget
    have hrank := hrow.move.rank_le hvalid
    exact hl.of_moved hmoved hlog.numbered hlog.budget
      ((Nat.add_le_add_right hlog.paid _).trans hrank) (rank_le (hrow.move.attempt_le hvalid))

theorem Step.logged {e : Call × Reply} (h : Step l e l') (hl : LoggedLedger l) :
    LoggedLedger l' := by
  obtain ⟨ms, hrun, -⟩ := h.moves
  exact hrun.invariant (fun _ _ _ hl hmove => hmove.logged hl) hl

omit [SemVer] [Digests] in
theorem logged_empty : LoggedLedger Ledger.empty :=
  ⟨fun _ hevent => by simp [Ledger.empty] at hevent, fun _ _ hget => by simp [Ledger.empty] at hget⟩

/-- **The log of every task stays bounded**, in every run. -/
theorem logged_of_run {es : List (Call × Reply)} (h : Run Step Ledger.empty es l) :
    LoggedLedger l :=
  h.invariant (fun _ _ _ hl hstep => hstep.logged hl) logged_empty

end Runs

end LinkLake.UpdateTasks
