import LinkLake.Server.UpdateTasks.Constraints
import LinkLake.Server.UpdateTasks.Events

/-!
# What the log shows

The detail of a task is its snapshot with its events, and the server only hands it out if the last
event shows the snapshot as it is. A renewal may move the stage, and only the first few renewals
of a task are recorded; a renewal that does both leaves the log behind.

* `log_agrees_of_run`: in every run in which that does not happen, and no restart is cut short,
  the log of every task is complete and agrees with it, its detail can be read, and a lost lease
  can be dealt with.
* `unrecorded_stage_hides_task`: the ninth renewal may move the stage without a trace.
-/

namespace LinkLake.UpdateTasks

open Fallible

variable {now : ℕ} {l l' : Ledger} {draws : Draws} {taskId : Uuid} {row : TaskRow}

section Shown

variable [SemVer] {task task' : RemoteUpdateTask} {kind : RemoteUpdateEventKind}
  {own : List RemoteUpdateTaskEvent} {cause : Cause}

/-- An event shows a task as it is. -/
structure Shows (event : RemoteUpdateTaskEvent) (task : RemoteUpdateTask) : Prop where
  state : event.state = task.state
  stage : event.stage = task.stage
  recoveryState : event.recoveryState = task.recoveryState
  errorCode : event.errorCode = task.errorCode

/-- The last event shows the task. -/
def LastShows (own : List RemoteUpdateTaskEvent) (task : RemoteUpdateTask) : Prop :=
  ∃ last, own.getLast? = some last ∧ Shows last task

/-- A renewal that moves the stage is one of those that are recorded. -/
def RecordsStage (task : RemoteUpdateTask) (own : List RemoteUpdateTaskEvent) : Cause → Prop
  | .renewed request =>
    request.stage ≠ task.stage → recorded .leaseRenewed own < maxLeaseEventsPerTask
  | _ => True

omit [SemVer] in
theorem recordsStage_of_ne (h : ∀ request, cause ≠ .renewed request) :
    RecordsStage task own cause := by
  cases cause with
  | renewed request => exact absurd rfl (h request)
  | _ => trivial

theorem renewTask_state (h : task.Valid) (hleased : task.state.isLeased = true) (deadline : ℕ) :
    (renewTask task task.stage deadline now).state = task.state := by
  have hshape := h.leasedShape hleased
  have hcancel := hshape.cancel
  cases hstate : task.state <;>
    simp [hstate, RemoteUpdateTaskState.isLeased] at hleased hcancel
  · simp [renewTask, hcancel, hshape.claimed hstate]
  · have hexec := hshape.running hstate
    have hne : task.stage ≠ .claimed := by
      intro hclaimed
      cases haction : task.action <;>
        simp [RemoteUpdateTask.stageExecutes, hclaimed, haction,
          RemoteUpdateAction.executionStage] at hexec
    simp [renewTask, hcancel, hne]
  · simp [renewTask, hcancel]

theorem TaskMove.shows_of_sampled {event : RemoteUpdateTaskEvent}
    (hmove : TaskMove now task cause kind task') (h : task.Valid)
    (hsampled : sampledAway kind own = true) (hrecords : RecordsStage task own cause)
    (hshows : Shows event task) : Shows event task' := by
  have hnever : ∀ {k : RemoteUpdateEventKind}, sampledLimit k = none → k = kind → False := by
    rintro k hk rfl
    simp [sampledAway, hk] at hsampled
  cases hmove with
  | replayed => exact hshows
  | restartReconciled => exact hshows
  | leaseLost =>
    refine (hnever ?_ rfl).elim
    rw [applyLostLease]
    split_ifs <;> rfl
  | exhausted => exact (hnever rfl rfl).elim
  | claimed => exact (hnever rfl rfl).elim
  | @renewed request deadline hholds =>
    have hstage : request.stage = task.stage := by
      by_contra hne
      have hroom := hrecords hne
      simp only [sampledAway, sampledLimit, Option.any_some, decide_eq_true_eq] at hsampled
      omega
    rw [hstage]
    exact ⟨hshows.state.trans (renewTask_state h hholds.leased deadline).symm, hshows.stage,
      hshows.recoveryState, hshows.errorCode⟩
  | @reported request kind reported _ _ _ happly =>
    have hreport := applyWorkerReport_cases happly
    generalize request.report = report at hreport
    cases hreport with
    | waits => exact ⟨hshows.state, hshows.stage, hshows.recoveryState, hshows.errorCode⟩
    | _ => exact (hnever rfl rfl).elim
  | cancelled =>
    refine (hnever ?_ rfl).elim
    rw [cancelTask]
    split_ifs <;> rfl

end Shown

section Sound

variable [SemVer] [Digests] {row' : TaskRow} {cause : Cause} {kind : RemoteUpdateEventKind}

/-- A ledger in order: its rows pass their check, each has its log, and is shown by the last entry
of it. -/
structure Sound (now : ℕ) (l : Ledger) : Prop extends Orderly now l where
  logged : LoggedLedger l
  shown : ∀ taskId row, l.tasks.get? taskId = some row →
    LastShows (eventsOf taskId l.events) (row.task taskId)
  eventsValid : ∀ taskId row, l.tasks.get? taskId = some row →
    ∀ event ∈ eventsOf taskId l.events, event.Valid taskId

omit [Digests] in
theorem Sound.mono {later : ℕ} (h : Sound now l) (hle : now ≤ later) : Sound later l :=
  { h with toOrderly := h.toOrderly.mono hle }

omit [SemVer] [Digests] in
theorem lastShows_of_moved (hmoved : Moved now draws l taskId row' kind l')
    (hsampled : sampledAway kind (eventsOf taskId l.events) = true →
      LastShows (eventsOf taskId l.events) (row'.task taskId)) :
    LastShows (eventsOf taskId l'.events) (row'.task taskId) := by
  rcases eventsOf_recordEvent hmoved.events with ⟨haway, heq⟩ | ⟨-, heq⟩
  · exact (congrArg (LastShows · (row'.task taskId)) heq).mpr (hsampled haway)
  · refine (congrArg (LastShows · (row'.task taskId)) heq).mpr
      ⟨_, List.getLast?_concat, ⟨rfl, rfl, rfl, rfl⟩⟩

omit [Digests] in
theorem eventsValid_of_moved
    (hmoved : Moved now draws l taskId row' kind l') (hvalid : (row'.task taskId).Valid)
    (hnow : 0 < now) (hevents : ∀ event ∈ eventsOf taskId l.events, event.Valid taskId) :
    ∀ event ∈ eventsOf taskId l'.events, event.Valid taskId := by
  intro event hevent
  rcases eventsOf_recordEvent hmoved.events with ⟨-, heq⟩ | ⟨-, heq⟩
  · exact hevents event ((congrArg (event ∈ ·) heq).mp hevent)
  · rcases List.mem_append.mp ((congrArg (event ∈ ·) heq).mp hevent) with hevent | hevent
    · exact hevents event hevent
    · rw [List.mem_singleton.mp hevent]
      exact eventOf_valid hvalid (draws.eventId_ne_nil _) (Nat.succ_ne_zero _) hnow.ne'

theorem LedgerMove.sound {m : Uuid × Cause} (h : LedgerMove now draws l m l') (hl : Sound now l)
    (hnow : 0 < now)
    (hwindow : ∀ row, l.tasks.get? m.1 = some row → KeepsWindow now (row.task m.1) m.2)
    (hrecords : ∀ row, l.tasks.get? m.1 = some row →
      RecordsStage (row.task m.1) (eventsOf m.1 l.events) m.2) : Sound now l' := by
  obtain ⟨taskId, cause⟩ := m
  have horderly := h.orderly hl.toOrderly hnow hwindow
  have hrow : ∀ row, l'.tasks.get? taskId = some row →
      LastShows (eventsOf taskId l'.events) (row.task taskId) ∧
      ∀ event ∈ eventsOf taskId l'.events, event.Valid taskId := by
    intro row hget
    have hvalidRow := (horderly.valid taskId row hget).1
    cases h with
    | created hfresh _ _ _ _ hmoved =>
      have hnil := hl.logged.eventsOf_eq_nil hfresh
      rw [hmoved.tasks, if_pos rfl] at hget
      cases hget
      refine ⟨lastShows_of_moved hmoved (by simp [sampledAway, sampledLimit]), ?_⟩
      exact eventsValid_of_moved hmoved hvalidRow hnow (by simp [hnil])
    | @moved _ _ _ old new _ hold holdValid hmove hmoved =>
      rw [hmoved.tasks, if_pos rfl] at hget
      cases hget
      refine ⟨lastShows_of_moved hmoved fun haway => ?_,
        eventsValid_of_moved hmoved hvalidRow hnow (hl.eventsValid taskId old hold)⟩
      obtain ⟨last, hlast, hshows⟩ := hl.shown taskId old hold
      exact ⟨last, hlast, hmove.move.shows_of_sampled holdValid haway (hrecords old hold) hshows⟩
  have hothers : ∀ j, j ≠ taskId → eventsOf j l'.events = eventsOf j l.events := by
    intro j hj
    cases h with
    | created _ _ _ _ _ hmoved => exact eventsOf_recordEvent_of_ne hmoved.events (Ne.symm hj)
    | moved _ _ _ hmoved => exact eventsOf_recordEvent_of_ne hmoved.events (Ne.symm hj)
  refine ⟨horderly, h.logged hl.logged, fun j row hget => ?_, fun j row hget => ?_⟩
  · by_cases hj : j = taskId
    · subst hj
      exact (hrow row hget).1
    · rw [hothers j hj]
      exact hl.shown j row ((h.get?_of_ne hj).symm.trans hget)
  · by_cases hj : j = taskId
    · subst hj
      exact (hrow row hget).2
    · rw [hothers j hj]
      exact hl.eventsValid j row ((h.get?_of_ne hj).symm.trans hget)

theorem sound_of_moves {ms : List (Uuid × Cause)} (h : Run (LedgerMove now draws) l ms l')
    (hms : ∀ m ∈ ms, ∀ request, m.2 ≠ .renewed request) (hl : Sound now l) (hnow : 0 < now) :
    Sound now l' :=
  h.invariant_on (fun _ _ _ hcause hl hmove => hmove.sound hl hnow
    (fun _ _ => keepsWindow_of_ne hcause) fun _ _ => recordsStage_of_ne hcause) hms hl

/-- A renewal that moves the stage of its task is one of those that are recorded. -/
def recordsStageMove (l : Ledger) (c : Call) : Bool :=
  match c.operation with
  | .renew _ taskId request => (l.tasks.get? taskId).all fun row => request.stage == row.stage
      || recorded .leaseRenewed (eventsOf taskId l.events) < maxLeaseEventsPerTask
  | _ => true

/-- **One call.** A ledger in order stays in order. -/
theorem Step.sound {c : Call} {reply : Reply} (h : Step l (c, reply) l')
    (hwindow : keepsRestartWindow l c = true) (hrecords : recordsStageMove l c = true)
    (hl : Sound c.now l) (hnow : 0 < c.now) : Sound c.now l' := by
  obtain ⟨target, taskId, request, hop, hmove⟩ | ⟨ms, hrun, hms⟩ := h.renews_or_moves
  · refine hmove.sound hl hnow (fun row hget => ?_) (fun row hget hne => ?_)
    · exact keepsWindow_of_call hop hwindow hget
    · simp only [recordsStageMove, hop, hget, Option.all_some, Bool.or_eq_true, beq_iff_eq,
        decide_eq_true_eq] at hrecords
      exact hrecords.resolve_left hne
  · exact sound_of_moves hrun hms hl hnow

/-- **The ledger stays in order**, in every run whose calls do not cut a restart short and record
every move of a stage. -/
theorem sound_of_run {es : List (Call × Reply)}
    (hrun : Run (fun l e l' => Step l e l' ∧ keepsRestartWindow l e.1 = true ∧
      recordsStageMove l e.1 = true) Ledger.empty es l)
    (hclock : Clocked callTime es) (hpos : ∀ e ∈ es, 0 < e.1.now) :
    ∀ now, (∀ e ∈ es, e.1.now ≤ now) → Sound now l := by
  refine Run.history (I := fun past l => ∀ now, (∀ e ∈ past, e.1.now ≤ now) → Sound now l)
    (fun now _ => ?_) ?_ hrun
  · exact ⟨orderly_empty, logged_empty, fun _ _ hget => by simp [Ledger.empty] at hget,
      fun _ _ hget => by simp [Ledger.empty] at hget⟩
  · intro past l1 e l2 _ hpre ih hstep now hnow
    have hsound := hstep.1.sound hstep.2.1 hstep.2.2 (ih e.1.now (now_le_of_clocked hclock hpre))
      (hpos e (hpre.subset (by simp)))
    exact hsound.mono (hnow e (by simp))

end Sound

section Reconciling

variable [SemVer] [Digests] {events : List RemoteUpdateTaskEvent} {task : RemoteUpdateTask}

/-- The next `count` event ids that are drawn are new. -/
structure FreshIds (draws : Draws) (events : List RemoteUpdateTaskEvent) (count : ℕ) : Prop where
  unused : ∀ n, events.length ≤ n → n < events.length + count →
    ∀ event ∈ events, event.eventId ≠ draws.eventId n
  distinct : ∀ m n, events.length ≤ m → m < n → n < events.length + count →
    draws.eventId m ≠ draws.eventId n

omit [SemVer] [Digests] in
theorem FreshIds.mono {count fewer : ℕ} (h : FreshIds draws events count) (hle : fewer ≤ count) :
    FreshIds draws events fewer where
  unused n hn hlt := h.unused n hn (by omega)
  distinct m n hm hmn hlt := h.distinct m n hm hmn (by omega)

omit [SemVer] [Digests] in
theorem FreshIds.record {events' : List RemoteUpdateTaskEvent} {count : ℕ}
    {kind : RemoteUpdateEventKind} (h : FreshIds draws events (count + 1))
    (hrecord : recordEvent events task kind now draws = .ok events') :
    FreshIds draws events' count := by
  rcases recordEvent_cases hrecord with ⟨-, rfl⟩ | ⟨-, rfl⟩
  · exact h.mono (Nat.le_succ count)
  · refine ⟨fun n hn hlt event hevent => ?_, fun m n hm hmn hlt => ?_⟩ <;>
      simp only [List.length_append, List.length_singleton] at *
    · rcases List.mem_append.mp hevent with hevent | hevent
      · exact h.unused n (by omega) (by omega) event hevent
      · rw [List.mem_singleton.mp hevent]
        exact h.distinct events.length n le_rfl (by omega) (by omega)
    · exact h.distinct m n (by omega) hmn (by omega)

omit [Digests] in
theorem persist_ok (hl : OneActive l) (hget : l.tasks.get? taskId = some row)
    (hactive : row.state.isTerminal = false) (hvalid : task.Valid)
    (horigin : SameOrigin (row.task taskId) task) (howner : task.leaseOwner = none)
    (hdeadline : task.leaseDeadlineUnixSeconds = none) (hupdated : task.updatedUnixSeconds = now)
    (hnow : now < 2 ^ 63) (hcompleted : ∀ completed ∈ task.completedUnixSeconds, completed = now) :
    ∃ l', persistTaskAfterReport l task none = .ok l' := by
  have hid : task.taskId = taskId := horigin.taskId
  have htask : (row.persist task none none).task taskId = task :=
    TaskRow.persist_task horigin howner.symm hdeadline.symm
  have hchecks := checks_of_valid (htask ▸ hvalid) (by simp [TaskRow.persist])
  have hother := otherActive_of_active hl hget hactive
  have hdone : (task.completedUnixSeconds.elim (pure ()) nowI64 : Except _ _) = .ok () :=
    elim_pure_eq_ok.mpr fun completed hmem => nowI64_eq_ok.mpr (hcompleted completed hmem ▸ hnow)
  have hfits : nowI64 now = .ok () := nowI64_eq_ok.mpr hnow
  refine ⟨{ l with tasks := l.tasks.insert taskId (row.persist task none none) }, ?_⟩
  rw [persistTaskAfterReport, hdeadline, hupdated, hdone, hid, hget, howner]
  simp only [Option.elim_none, pure_bind, hfits, ok_bind, okOr_some, leaseColumns]
  exact writeRow_eq_ok.mpr ⟨hchecks, fun _ => hother, rfl⟩

omit [Digests] in
theorem reconcileLostLease_ok (hl : Sound now l) (hnow : now < 2 ^ 63)
    (hget : l.tasks.get? taskId = some row) (hleased : row.state.isLeased = true)
    (hids : FreshIds draws l.events 1) :
    ∃ l', reconcileLostLease l (row.task taskId) now draws = .ok l' := by
  obtain ⟨hvalid, hcreated⟩ := hl.valid taskId row hget
  have hchange : ValidChange now (applyLostLease (row.task taskId) now).1 :=
    validChange_leaseLost hvalid hleased
  have horigin := sameOrigin_applyLostLease (row.task taskId) now
  obtain ⟨howner, hdeadline⟩ := lease_applyLostLease (row.task taskId) now
  obtain ⟨l1, hpersist⟩ := persist_ok hl.oneActive hget (isTerminal_of_leased hleased)
    (hchange.valid hvalid horigin.toSameIdentity hcreated) horigin howner hdeadline
    hchange.updated hnow hchange.completed
  have hid := horigin.taskId
  have hevents : l1.events = l.events := by
    obtain ⟨row', hrow'⟩ := persistTaskAfterReport_ok (by rw [hid]; exact hget)
      (by rw [hid]; exact horigin) hpersist
    rw [hrow'.ledger]
  obtain ⟨events', hrecord⟩ : ∃ events', recordEvent l1.events (applyLostLease (row.task taskId)
      now).1 (applyLostLease (row.task taskId) now).2 now draws = .ok events' := by
    rw [hevents]
    exact recordEvent_ok (hl.logged.room _) hnow (hids.unused _ le_rfl (Nat.lt_succ_self _))
  exact ⟨_, bind_eq_ok.mpr ⟨l1, hpersist, appendEvent_eq_ok.mpr ⟨events', hrecord, rfl⟩⟩⟩

theorem foldlM_lost_ok {p : TaskRow → Prop} {tasks : List RemoteUpdateTask}
    (hp : ∀ row, p row → row.state.isLeased = true ∧
      ∀ columns ∈ row.lease, columns.leaseDeadlineUnixSeconds ≤ now)
    (hl : Sound now l) (hnow : now < 2 ^ 63) (hfresh : Fresh l p tasks)
    (hids : FreshIds draws l.events tasks.length) :
    ∃ l', tasks.foldlM (fun l task => reconcileLostLease l task now draws) l = .ok l' := by
  induction tasks generalizing l with
  | nil => exact ⟨l, rfl⟩
  | cons task tasks ih =>
    obtain ⟨hvalid, row, hget, hrow, htask⟩ := hfresh.2 task (by simp)
    obtain ⟨hleased, hdue⟩ := hp row hrow
    have hpos : 0 < now :=
      lt_of_lt_of_le (Nat.pos_of_ne_zero (htask ▸ hvalid).created) (hl.valid _ row hget).2
    obtain ⟨l1, hlost⟩ := reconcileLostLease_ok hl hnow hget hleased (hids.mono (by simp))
    have hmove := reconcileLostLease_move hget (htask ▸ hvalid) hleased hdue hlost
    have hsound : Sound now l1 := hmove.sound hl hpos (fun _ _ => trivial) (fun _ _ => trivial)
    have hids1 : FreshIds draws l1.events tasks.length := by
      cases hmove with
      | moved _ _ _ hmoved => exact hids.record hmoved.events
    obtain ⟨l', hrest⟩ := ih hsound (hfresh.tail hmove) hids1
    refine ⟨l', ?_⟩
    rw [List.foldlM_cons, htask]
    exact bind_eq_ok.mpr ⟨l1, hlost, hrest⟩

/-- **The expired leases of a client, or of all, can be dealt with.** -/
theorem reconcileExpiredLeases_ok (hl : Sound now l) (hpos : 0 < now) (hnow : now < 2 ^ 63)
    (hids : FreshIds draws l.events l.tasks.size) (target : Option Uuid) :
    ∃ l', reconcileExpiredLeases l target now draws = .ok l' ∧ Sound now l' := by
  have hread := read_ok hl.valid (fun row => ofTarget target row && leaseExpired now row)
    deadlineBefore
  have hlength : (l.select (fun row => ofTarget target row && leaseExpired now row)
      deadlineBefore).length ≤ l.tasks.size := by
    rw [Ledger.select, List.length_insertionSort]
    exact List.length_filter_le ..
  obtain ⟨l', hfold⟩ := foldlM_lost_ok (fun row hrow => by
      simpa [leaseExpired, Option.all_eq_true] using (Bool.and_eq_true_iff.mp hrow).2)
    hl hnow (fresh_of_read hread) (hids.mono (by simpa using hlength))
  have hok : reconcileExpiredLeases l target now draws = .ok l' :=
    bind_eq_ok.mpr ⟨_, bind_unit_eq_ok.mpr ⟨nowI64_eq_ok.mpr hnow, hread⟩, hfold⟩
  obtain ⟨ms, hrun, hms, -⟩ := reconcileExpiredLeases_moves hok
  exact ⟨l', hok, sound_of_moves hrun (fun m hm request heq => by simp [hms m hm] at heq) hl hpos⟩

omit [SemVer] [Digests] in
theorem lastEvents_eq (hlog : Logged (row.task taskId) (eventsOf taskId l.events)) :
    lastEvents l taskId = eventsOf taskId l.events ∧
      (eventsOf taskId l.events).Pairwise fun a b => a.sequence < b.sequence := by
  have hsorted : (eventsOf taskId l.events).Pairwise fun a b => a.sequence < b.sequence := by
    rw [← List.pairwise_map, hlog.numbered]
    exact List.pairwise_lt_range'
  have hfew : (eventsOf taskId l.events).length - maxEventsPerTask = 0 := by
    have hlength := hlog.length_le
    simp only [maxEventsPerTask]
    omega
  have hordered : (eventsOf taskId l.events).Pairwise sequenceBefore := hsorted.imp le_of_lt
  exact ⟨by rw [lastEvents, hordered.insertionSort_eq, hfew, List.drop_zero], hsorted⟩

/-- **The detail of every task can be read.** -/
theorem detail_ok (hl : Sound now l) (hpos : 0 < now) (hnow : now < 2 ^ 63)
    (hids : FreshIds draws l.events l.tasks.size) (hget : l.tasks.get? taskId = some row) :
    ∃ reply l', detail l taskId now draws = .ok (reply, l') := by
  have hvalid := (hl.valid taskId row hget).1
  have htask := requireTask_eq_ok.mpr ⟨row, hget, hvalid, rfl⟩
  obtain ⟨l', hok, hl'⟩ := reconcileExpiredLeases_ok hl hpos hnow hids
    (some (row.task taskId).targetClientId)
  obtain ⟨ms, hrun, -⟩ := reconcileExpiredLeases_moves hok
  obtain ⟨row', hget', -⟩ := run_get?_some hrun hget
  have hvalid' := (hl'.valid taskId row' hget').1
  have htask' := requireTask_eq_ok.mpr ⟨row', hget', hvalid', rfl⟩
  obtain ⟨last, hlast, hshows⟩ := hl'.shown taskId row' hget'
  obtain ⟨hevents, hsorted⟩ := lastEvents_eq (hl'.logged.logged taskId row' hget')
  have heventsValid := hl'.eventsValid taskId row' hget'
  have hdetail : (RemoteUpdateTaskDetail.mk (row'.task taskId) (lastEvents l' taskId)).validate
      taskId = .ok () := by
    have hsome : (eventsOf taskId l'.events).isEmpty = false := by
      rw [List.isEmpty_eq_false_iff]
      rintro hnil
      simp [hnil] at hlast
    have hlength := (hl'.logged.logged taskId row' hget').length_le
    simp only [RemoteUpdateTaskDetail.validate, bind_unit_eq_ok, rejectIf_eq_ok, not_or, hevents,
      hlast, okOr_some, ok_bind, not_not, ne_eq]
    exact ⟨RemoteUpdateTask.validate_eq_ok.mpr hvalid', ⟨rfl, by simp [hsome], by
        simp only [remoteUpdateMaxEventsPerTask]; omega⟩,
      RemoteUpdateTaskDetail.validateEvents_eq_ok heventsValid
        (fun event hevent => Nat.pos_of_ne_zero (heventsValid event hevent).sequence) hsorted,
      hshows.state, hshows.stage, hshows.recoveryState, hshows.errorCode⟩
  refine ⟨⟨row'.task taskId, lastEvents l' taskId⟩, l', ?_⟩
  have hnil : taskId.isNil = false := hvalid.taskId
  have hid : contract (validateNonNilUuid taskId) = .ok () :=
    contract_eq_ok.mpr (rejectIf_of_not (by simp [hnil]))
  simp only [detail, hid, htask, hok, htask', ok_bind, stored_eq_ok.mpr hdetail]
  rfl

end Reconciling

section Runs

variable [SemVer] [Digests]

/-- **The log agrees with the ledger**, in every run from the empty ledger whose calls do not cut
a restart short and record every move of a stage. The events of each task are numbered from one
without gaps, stay within their capacity and end with one that shows the task; another event
always finds room; and at any later time the detail of every task can be read and the leases that
were lost can be dealt with. -/
theorem log_agrees_of_run {es : List (Call × Reply)}
    (hrun : Run (fun l e l' => Step l e l' ∧ keepsRestartWindow l e.1 = true ∧
      recordsStageMove l e.1 = true) Ledger.empty es l)
    (hclock : Clocked callTime es) (hpos : ∀ e ∈ es, 0 < e.1.now) :
    (∀ taskId row, l.tasks.get? taskId = some row →
      (eventsOf taskId l.events).map (·.sequence)
        = List.range' 1 (eventsOf taskId l.events).length ∧
      (eventsOf taskId l.events).length ≤ maxEventsPerTask ∧
      ∃ last, (eventsOf taskId l.events).getLast? = some last ∧ last.state = row.state ∧
        last.stage = row.stage ∧ last.recoveryState = row.recoveryState ∧
        last.errorCode = row.errorCode) ∧
    (∀ task kind now draws, recordEvent l.events task kind now draws ≠ .error .capacityExceeded) ∧
    ∀ now draws, (∀ e ∈ es, e.1.now ≤ now) → 0 < now → now < 2 ^ 63 →
      FreshIds draws l.events l.tasks.size →
      (∃ l', sweep l now draws = .ok l') ∧
      ∀ taskId, taskId ∈ l.tasks → ∃ reply l', detail l taskId now draws = .ok (reply, l') := by
  have hsound := sound_of_run hrun hclock hpos
  obtain ⟨late, hlate⟩ : ∃ now, ∀ e ∈ es, e.1.now ≤ now :=
    ⟨(es.map (·.1.now)).sum, fun e he => List.le_sum_of_mem (List.mem_map_of_mem he)⟩
  have hl := hsound late hlate
  refine ⟨fun taskId row hget => ?_, fun task kind now draws => ?_,
    fun now draws hafter hnow hfits hids => ⟨?_, fun taskId htask => ?_⟩⟩
  · obtain ⟨last, hlast, hshows⟩ := hl.shown taskId row hget
    exact ⟨(hl.logged.logged taskId row hget).numbered, (hl.logged.room taskId).le, last, hlast,
      hshows.state, hshows.stage, hshows.recoveryState, hshows.errorCode⟩
  · exact recordEvent_ne_capacityExceeded (hl.logged.room task.taskId)
  · obtain ⟨l', hok, -⟩ := reconcileExpiredLeases_ok (hsound now hafter) hnow hfits hids none
    exact ⟨l', hok⟩
  · obtain ⟨row, hget⟩ := FiniteMap.mem_iff.mp htask
    exact detail_ok (hsound now hafter) hnow hfits hids hget

end Runs

open Sample in
/-- A worker that starts and then renews: its log ends with the renewal, and a sweep after its
lease has ended closes the task. -/
theorem log_agrees_of_run_renewed :
    ∃ es l row last, Run (fun l e l' => Step l e l' ∧ keepsRestartWindow l e.1 = true ∧
        recordsStageMove l e.1 = true) Ledger.empty es l ∧
      Clocked callTime es ∧ (∀ e ∈ es, 0 < e.1.now) ∧
      l.tasks.get? (Sample.draws 0).taskId = some row ∧ row.stage = .applying ∧
      (eventsOf (Sample.draws 0).taskId l.events).getLast? = some last ∧ last.stage = row.stage ∧
      (∃ l', sweep l 2000 (Sample.draws 4) = .ok l') ∧
      ∃ reply l', detail l (Sample.draws 0).taskId 2000 (Sample.draws 4) = .ok (reply, l') := by
  have h : ∃ x ∈ perform call (fun l e => keepsRestartWindow l e.1 = true ∧
      recordsStageMove l e.1 = true) Ledger.empty [createApply 1000 0,
        claimNext 1001 1, reportOn (.started .applying) 1002 2,
        renewAs .applying 300 1003 3],
      Clocked callTime x.1 ∧ (∀ e ∈ x.1, 0 < e.1.now) ∧
        (∃ row ∈ x.2.tasks.get? (Sample.draws 0).taskId, row.stage = .applying) ∧
        (∀ e ∈ x.1, e.1.now ≤ 2000) ∧ x.2.tasks.size = 1 ∧ x.2.events.length = 4 ∧
        ∀ event ∈ x.2.events, event.eventId ≠ (Sample.draws 4).eventId 4 := by
    decide +kernel
  obtain ⟨⟨es, l⟩, hcalls, hclock, hpos, ⟨row, hget, hstage⟩, hlate, hsize, hlength, hnew⟩ := h
  have hrun := Run.of_perform hcalls
  have hids : FreshIds (Sample.draws 4) l.events l.tasks.size := by
    rw [hsize]
    refine ⟨fun n hn hlt event hevent => ?_, fun m n hm hmn hlt => by omega⟩
    change l.events.length = 4 at hlength
    obtain rfl : n = 4 := by omega
    exact hnew event hevent
  obtain ⟨hlog, -, hlater⟩ := log_agrees_of_run hrun hclock hpos
  obtain ⟨-, -, last, hlast, -, hlastStage, -⟩ := hlog _ row hget
  obtain ⟨hsweep, hdetail⟩ := hlater 2000 (Sample.draws 4) hlate (by decide) (by decide) hids
  exact ⟨es, l, row, last, hrun, hclock, hpos, hget, hstage, hlast, hlastStage,
    hsweep, hdetail _ (FiniteMap.mem_of_get? hget)⟩

open Sample in
/-- **A stage can move without a trace.** After eight recorded renewals the worker renews once
more, as executing; the event is sampled away, the last event still shows the task as claimed, and
its detail can no longer be read. -/
theorem unrecorded_stage_hides_task :
    ∃ es l row last, Run Step Ledger.empty es l ∧ Clocked callTime es ∧ (∀ e ∈ es, 0 < e.1.now) ∧
      l.tasks.get? (Sample.draws 0).taskId = some row ∧
      (eventsOf (Sample.draws 0).taskId l.events).getLast? = some last ∧
      last.stage = .claimed ∧ row.stage = .applying ∧
      detail l (Sample.draws 0).taskId 1011 (Sample.draws 11) = .error .storage := by
  have h : ∃ x ∈ perform call (fun _ _ => True) Ledger.empty
      ([createApply 1000 0, claimNext 1001 1] ++
        (List.range 8).map (fun n => renewAs .claimed 300 (1002 + n) (2 + n)) ++
        [renewAs .applying 300 1010 10]),
      Clocked callTime x.1 ∧ (∀ e ∈ x.1, 0 < e.1.now) ∧
        (∃ row ∈ x.2.tasks.get? (Sample.draws 0).taskId, row.stage = .applying) ∧
        (∃ last ∈ (eventsOf (Sample.draws 0).taskId x.2.events).getLast?, last.stage = .claimed) ∧
        detail x.2 (Sample.draws 0).taskId 1011 (Sample.draws 11) = .error .storage := by
    decide +kernel
  obtain ⟨⟨es, l⟩, hcalls, hclock, hpos, ⟨row, hget, hstage⟩, ⟨last, hlast, hlastStage⟩,
    hdetail⟩ := h
  exact ⟨es, l, row, last, Run.of_calls hcalls, hclock, hpos, hget, hlast, hlastStage, hstage,
    hdetail⟩

end LinkLake.UpdateTasks
