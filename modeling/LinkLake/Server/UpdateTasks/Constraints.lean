import LinkLake.Server.UpdateTasks.Validity

/-!
# The constraints of the tables

The tables check some of what the operations rely on: which columns go together, and that no
client has two tasks at once. This module shows that a ledger whose rows pass their check meets
these constraints anyway, so that no write is refused for them.

* `checks_of_valid`: a row that holds a valid snapshot passes the `CHECK` constraints.
* `Orderly` collects what a ledger needs for that, and `orderly_of_run` says that every run keeps
  it whose calls do not cut a restart short.
-/

namespace LinkLake.UpdateTasks

open Fallible

/-! ## One row -/

variable {taskId : Uuid} {row : TaskRow} {now : ℕ}

section Rows

variable [SemVer] {task : RemoteUpdateTask} {kind : RemoteUpdateEventKind}

theorem allowsStage_of_valid (h : task.Valid) : task.state.allowsStage task.stage = true := by
  have hfields := h.fields
  have hexec : task.stageExecutes = true → task.stage.isExecuting = true := by
    intro hexec
    simp only [RemoteUpdateTask.stageExecutes, Bool.or_eq_true, Bool.and_eq_true,
      beq_iff_eq] at hexec
    rcases hexec with hexec | ⟨hexec, -⟩ <;> rw [hexec]
    · cases task.action <;> rfl
    · rfl
  cases hstate : task.state <;>
    simp only [RemoteUpdateTask.stateFieldsValid, hstate, Bool.and_eq_true, Bool.or_eq_true,
      beq_iff_eq] at hfields <;>
    simp only [RemoteUpdateTaskState.allowsStage, Bool.or_eq_true, beq_iff_eq]
  · exact hfields.1.1.1.1
  · exact hfields.1.1.1.1
  · exact hexec hfields.1.1.1.1
  · exact hfields.1.1.1.1.imp id hexec
  · exact hfields.1.1.1.1.1.1
  · exact hfields.1.1.1.1.1
  · exact hfields.1.1.1.1.1.1.1

theorem isLeased_of_valid (h : task.Valid) : task.state.isLeased = task.leasePresent := by
  have hfields := h.fields
  cases hstate : task.state <;>
    simp only [RemoteUpdateTask.stateFieldsValid, hstate, Bool.and_eq_true,
      Bool.not_eq_true'] at hfields <;>
    simp [RemoteUpdateTaskState.isLeased, hfields]

theorem stage_of_valid (h : task.Valid) (hexec : task.stage.isExecuting = true) :
    task.stage = .awaitingRestart ∨ task.stage = task.action.executionStage := by
  have hfields := h.fields
  cases hstate : task.state <;>
    simp only [RemoteUpdateTask.stateFieldsValid, RemoteUpdateTask.stageExecutes, hstate,
      Bool.and_eq_true, Bool.or_eq_true, beq_iff_eq] at hfields
  case running => exact hfields.1.1.1.1.symm.imp And.left id
  case cancelRequested =>
    rcases hfields.1.1.1.1 with hstage | hstage
    · simp [hstage, RemoteUpdateStage.isExecuting] at hexec
    · exact hstage.symm.imp And.left id
  all_goals simp [hfields, RemoteUpdateStage.isExecuting] at hexec

theorem payloadCheck_of_valid (h : (row.task taskId).Valid) : row.payloadCheck = true := by
  have hfields := h.fields
  cases hstate : row.state <;>
    simp [RemoteUpdateTask.stateFieldsValid, RemoteUpdateTask.activePayloadEmpty, TaskRow.task,
      hstate] at hfields <;>
    simp [TaskRow.payloadCheck, hstate, hfields]
  case succeeded =>
    obtain ⟨result, hresult, -⟩ := (Option.any_eq_true _ _).mp hfields.1.2
    simp [hresult]
  case failed =>
    -- a failure is never reported as a cancellation
    obtain ⟨errorCode, herror, hcode⟩ := (Option.any_eq_true _ _).mp hfields.2
    refine ⟨by simp [herror], fun hcancelled => ?_⟩
    cases herror.symm.trans hcancelled
    simp [RemoteUpdateWorkerReport.validate, validateFailureReport, rejectIf,
      Except.toOption] at hcode

theorem checks_of_valid (h : (row.task taskId).Valid)
    (hreplay : row.terminalReplay.isSome = true → row.state.isTerminal = true) :
    row.checks = true := by
  have hallows : row.state.allowsStage row.stage = true := allowsStage_of_valid h
  have hawait := h.awaiting
  have hrecord : (row.terminalReplay.isNone || row.state.isTerminal) = true := by
    cases hrep : row.terminalReplay with
    | none => rfl
    | some replay => simpa using hreplay (by simp [hrep])
  have hstage : (!row.stage.isExecuting || row.stage == .awaitingRestart
      || row.stage == row.action.executionStage) = true := by
    cases hexec : row.stage.isExecuting with
    | false => rfl
    | true => simpa [TaskRow.task] using stage_of_valid h hexec
  have hlease : row.state.isLeased = row.lease.isSome := by
    refine (isLeased_of_valid h).trans ?_
    simp [RemoteUpdateTask.leasePresent, TaskRow.task]
  simp only [TaskRow.checks, hrecord, hallows, hstage, hlease, payloadCheck_of_valid h,
    Bool.and_true, beq_self_eq_true, beq_iff_eq]
  exact hawait

theorem eventOf_valid {eventId : Uuid} {sequence : ℕ} (h : task.Valid)
    (hid : eventId.isNil = false) (hsequence : sequence ≠ 0) (hnow : now ≠ 0) :
    (eventOf task kind eventId sequence now).Valid task.taskId where
  schema := rfl
  eventId := hid
  taskId_ne_nil := h.taskId
  taskId := rfl
  sequence := hsequence
  created := hnow
  stage := allowsStage_of_valid h

end Rows

section Ledger

variable [SemVer] [Digests] {l l' : Ledger} {draws : Draws} {row' : TaskRow} {cause : Cause}
  {kind : RemoteUpdateEventKind} {target : Uuid}

/-- At most one task of a client has not ended. -/
def OneActive (l : Ledger) : Prop :=
  ∀ i j row row', l.tasks.get? i = some row → l.tasks.get? j = some row' →
    row.state.isTerminal = false → row'.state.isTerminal = false →
    row.targetClientId = row'.targetClientId → i = j

omit [SemVer] [Digests] in
theorem otherActive_eq_false :
    l.otherActive taskId target = false ↔ ∀ j row, l.tasks.get? j = some row → j ≠ taskId →
      row.targetClientId = target → row.state.isTerminal = true := by
  simp only [Ledger.otherActive, List.any_eq_false, Prod.forall, FiniteMap.mem_toList, bne_iff_ne,
    Bool.and_eq_true, beq_iff_eq, Bool.not_eq_true', not_and, Bool.not_eq_false, and_imp]

omit [SemVer] [Digests] in
omit [SemVer] [Digests] in
theorem otherActive_of_active (hl : OneActive l) (hget : l.tasks.get? taskId = some row)
    (hactive : row.state.isTerminal = false) :
    l.otherActive taskId row.targetClientId = false := by
  refine otherActive_eq_false.mpr fun j other hj hne htarget => ?_
  by_contra hopen
  exact hne (hl j taskId other row hj hget (Bool.eq_false_iff.mpr hopen) hactive htarget)

omit [Digests] in
theorem TaskMove.active {task task' : RemoteUpdateTask}
    (h : TaskMove now task cause kind task') (hactive : task'.state.isTerminal = false) :
    task.state.isTerminal = false := by
  by_contra hterminal
  obtain ⟨-, rfl⟩ := h.recorded_of_terminal (by simpa using hterminal)
  exact hterminal hactive

theorem LedgerMove.oneActive (h : LedgerMove now draws l (taskId, cause) l') (hl : OneActive l) :
    OneActive l' := by
  -- whoever is active now was active before for the same client, or has just been created
  have hback : ∀ j row, l'.tasks.get? j = some row → row.state.isTerminal = false →
      (∃ old, l.tasks.get? j = some old ∧ old.state.isTerminal = false ∧
        old.targetClientId = row.targetClientId) ∨
      (j = taskId ∧ l.otherActive j row.targetClientId = false) := by
    intro j row hget hactive
    cases h.origin hget with
    | kept hold => exact .inl ⟨row, hold, hactive, rfl⟩
    | created htask _ _ _ hother => exact .inr ⟨htask, hother⟩
    | moved _ hold _ hrow =>
      exact .inl ⟨_, hold, hrow.move.active hactive, hrow.move.sameIdentity.targetClientId.symm⟩
  intro i j row row' hi hj hactive hactive' htarget
  rcases hback i row hi hactive with ⟨old, hold, hact, hsame⟩ | ⟨rfl, hother⟩ <;>
    rcases hback j row' hj hactive' with ⟨old', hold', hact', hsame'⟩ | ⟨rfl, hother'⟩
  · exact hl i j old old' hold hold' hact hact' (by rw [hsame, hsame', htarget])
  · by_contra hne
    have hended := otherActive_eq_false.mp hother' i old hold hne (by rw [hsame, htarget])
    simp [hact] at hended
  · by_contra hne
    have hended := otherActive_eq_false.mp hother j old' hold' (Ne.symm hne)
      (by rw [hsame', htarget])
    simp [hact'] at hended
  · rfl

omit [Digests] in
theorem read_ok (hl : AllValid now l) (p : TaskRow → Bool)
    (before : Uuid × TaskRow → Uuid × TaskRow → Prop) [DecidableRel before] :
    (l.select p before).mapM readTask =
      .ok ((l.select p before).map fun entry => entry.2.task entry.1) :=
  mapM_eq_ok_map fun entry hentry =>
    readTask_eq_ok.mpr ⟨(hl entry.1 entry.2 (mem_select.mp hentry).1).1, rfl⟩

/-- A ledger whose rows pass their check, with at most one active task for each client, and with
records of ending reports only where they belong. -/
structure Orderly (now : ℕ) (l : Ledger) : Prop where
  valid : AllValid now l
  oneActive : OneActive l
  replays : ∀ taskId row, l.tasks.get? taskId = some row → ∀ replay ∈ row.terminalReplay,
    row.state.isTerminal = true ∧ replay.workerInstanceId.isNil = false

omit [Digests] in
theorem Orderly.mono {later : ℕ} (h : Orderly now l) (hle : now ≤ later) : Orderly later l :=
  { h with valid := h.valid.mono hle }

omit [Digests] in
theorem Orderly.replay_eq_none (h : Orderly now l) (hget : l.tasks.get? taskId = some row)
    (hactive : row.state.isTerminal = false) : row.terminalReplay = none := by
  cases hreplay : row.terminalReplay with
  | none => rfl
  | some replay => simpa [hactive] using h.replays taskId row hget replay hreplay

omit [Digests] in
theorem orderly_empty : Orderly now Ledger.empty :=
  ⟨fun _ _ hget => by simp [Ledger.empty] at hget, fun _ _ _ _ hget => by simp [Ledger.empty] at hget,
    fun _ _ hget => by simp [Ledger.empty] at hget⟩

theorem RowMove.replay_named
    (h : RowMove now taskId row cause kind row') (hcause : cause ≠ .recorded) :
    ∀ replay ∈ row'.terminalReplay,
      row'.state.isTerminal = true ∧ replay.workerInstanceId.isNil = false := by
  intro replay hreplay
  rw [h.replay hcause] at hreplay
  cases cause with
  | reported request =>
    simp only [Cause.replay] at hreplay
    split_ifs at hreplay with hterminal
    · cases hreplay
      exact ⟨hterminal, h.move.worker_of_reported⟩
    · cases hreplay
  | _ => cases hreplay

theorem LedgerMove.orderly {m : Uuid × Cause} (h : LedgerMove now draws l m l')
    (hl : Orderly now l) (hnow : 0 < now)
    (hwindow : ∀ row, l.tasks.get? m.1 = some row → KeepsWindow now (row.task m.1) m.2) :
    Orderly now l' := by
  refine ⟨h.allValid hl.valid hnow hwindow, h.oneActive hl.oneActive, fun j row hget => ?_⟩
  cases h.origin hget with
  | kept hold => exact hl.replays j row hold
  | created => simp [newRow]
  | moved _ hold _ hrow =>
    by_cases hcause : m.2 = .recorded
    · rw [hrow.recorded hcause]
      exact hl.replays j _ hold
    · exact hrow.replay_named hcause

theorem orderly_of_moves {ms : List (Uuid × Cause)} (h : Run (LedgerMove now draws) l ms l')
    (hms : ∀ m ∈ ms, ∀ request, m.2 ≠ .renewed request) (hl : Orderly now l) (hnow : 0 < now) :
    Orderly now l' :=
  h.invariant_on (fun _ _ _ hcause hl hmove => hmove.orderly hl hnow
    fun _ _ => keepsWindow_of_ne hcause) hms hl

/-- **One call.** An orderly ledger stays orderly. -/
theorem Step.orderly {c : Call} {reply : Reply} (h : Step l (c, reply) l')
    (hwindow : keepsRestartWindow l c = true) (hl : Orderly c.now l) (hnow : 0 < c.now) :
    Orderly c.now l' := by
  obtain ⟨target, taskId, request, hop, hmove⟩ | ⟨ms, hrun, hms⟩ := h.renews_or_moves
  · exact hmove.orderly hl hnow fun row hget => keepsWindow_of_call hop hwindow hget
  · exact orderly_of_moves hrun hms hl hnow

/-- **The ledger stays orderly**, in every run whose calls do not cut a restart short. -/
theorem orderly_of_run {es : List (Call × Reply)}
    (hrun : Run (fun l e l' => Step l e l' ∧ keepsRestartWindow l e.1 = true) Ledger.empty es l)
    (hclock : Clocked callTime es) (hpos : ∀ e ∈ es, 0 < e.1.now) :
    ∀ now, (∀ e ∈ es, e.1.now ≤ now) → Orderly now l := by
  refine Run.history (I := fun past l => ∀ now, (∀ e ∈ past, e.1.now ≤ now) → Orderly now l)
    (fun now _ => orderly_empty) ?_ hrun
  intro past l1 e l2 _ hpre ih hstep now hnow
  have horderly := hstep.1.orderly hstep.2 (ih e.1.now (now_le_of_clocked hclock hpre))
    (hpos e (hpre.subset (by simp)))
  exact horderly.mono (hnow e (by simp))

end Ledger

end LinkLake.UpdateTasks
