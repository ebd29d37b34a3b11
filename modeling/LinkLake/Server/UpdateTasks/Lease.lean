import LinkLake.Server.UpdateTasks.Events

/-!
# Who may move a task

A task in the hands of a worker belongs to the holder of the lease that was handed out last. The
row keeps the holder, a digest of the token and the end of the lease, and every request of a
worker is checked against all three.

* `leased_of_run`: the lease in a row is always that of the most recent claim of its task.
* `LedgerMove.terminal`: a task that has ended does not move any more.
* `lease_exclusive_of_run`: renewals and reports come only from the holder of the last lease,
  while it lasts; and once a report has ended a task, it alone can be repeated.
-/

namespace LinkLake.UpdateTasks

open Fallible

section Lease

variable [SemVer] [Digests] {l l1 l' : Ledger} {now : ℕ} {draws : Draws} {taskId j : Uuid}
  {cause : Cause} {row row' : TaskRow} {columns : LeaseColumns} {es : List (Call × Reply)}
  {e : Call × Reply} {ended request : RemoteUpdateReportRequest} {kind : RemoteUpdateEventKind}
  {target token worker : Uuid} {task task' : RemoteUpdateTask} {m : Uuid × Cause}

/-! ## The lease that was handed out last -/

/-- The worker and the token of a call that hands out the task. -/
def issuedBy (taskId : Uuid) (e : Call × Reply) : Option (Uuid × Uuid) :=
  match e.1.operation, e.2 with
  | .claim _ request, .claim (some claim) =>
    if claim.task.taskId = taskId then some (request.workerInstanceId, claim.leaseToken) else none
  | _, _ => none

/-- The worker and the token of the most recent claim of a task. -/
def lastClaim (taskId : Uuid) (es : List (Call × Reply)) : Option (Uuid × Uuid) :=
  es.reverse.findSome? (issuedBy taskId)

omit [SemVer] [Digests] in
theorem lastClaim_snoc :
    lastClaim taskId (es ++ [e]) = (issuedBy taskId e).or (lastClaim taskId es) := by
  rw [lastClaim, List.reverse_append, List.reverse_singleton, List.singleton_append,
    List.findSome?_cons]
  cases issuedBy taskId e <;> rfl

/-- Every stored lease is the one that was handed out last. -/
def Leased (es : List (Call × Reply)) (l : Ledger) : Prop :=
  ∀ taskId row columns, l.tasks.get? taskId = some row → columns ∈ row.lease →
    ∃ token, lastClaim taskId es = some (columns.leaseOwner, token) ∧
      columns.leaseTokenSha256 = leaseTokenSha256 token

omit [Digests] in
theorem ReportMove.leaseOwner {report : RemoteUpdateWorkerReport}
    (h : ReportMove now task report kind task') :
    task'.leaseOwner = none ∨ task'.leaseOwner = task.leaseOwner := by
  cases h with
  | succeeded => exact .inl rfl
  | failed => exact .inl rfl
  | cancelled => exact .inl rfl
  | _ => exact .inr rfl

omit [Digests] in
theorem TaskMove.leaseOwner (h : TaskMove now task cause kind task') (hissued : cause.issued = none) :
    task'.leaseOwner = none ∨ task'.leaseOwner = task.leaseOwner := by
  cases h with
  | leaseLost =>
    rw [applyLostLease]
    split_ifs <;> exact .inl rfl
  | claimed => simp [Cause.issued] at hissued
  | reported _ _ _ happly => exact (applyWorkerReport_cases happly).leaseOwner
  | cancelled =>
    rw [cancelTask]
    split_ifs
    · exact .inl rfl
    · exact .inr rfl
  | _ => exact .inr rfl

omit [Digests] in
theorem TaskMove.leaseOwner_of_claimed (h : TaskMove now task (.claimed worker token) kind task') :
    task'.leaseOwner = some worker := by
  cases h
  rfl

theorem LedgerMove.lease_kept (h : LedgerMove now draws l (taskId, cause) l')
    (hissued : j = taskId → cause.issued = none) (hget : l'.tasks.get? j = some row')
    (hcolumns : columns ∈ row'.lease) :
    ∃ row old, l.tasks.get? j = some row ∧ old ∈ row.lease ∧
      old.leaseOwner = columns.leaseOwner ∧ old.leaseTokenSha256 = columns.leaseTokenSha256 := by
  cases h.origin hget with
  | kept hold => exact ⟨row', columns, hold, hcolumns, rfl, rfl⟩
  | created => simp [newRow] at hcolumns
  | @moved old _ _ htask hold _ hrow =>
    have htoken := hrow.token columns hcolumns
    rw [hissued htask] at htoken
    obtain ⟨before, hbefore, hsame⟩ := Option.map_eq_some_iff.mp htoken
    have howner := hrow.move.leaseOwner (hissued htask)
    simp only [TaskRow.task, Option.mem_def.mp hcolumns, hbefore, Option.map_some,
      Option.some.injEq, reduceCtorEq, false_or] at howner
    exact ⟨old, before, hold, hbefore, howner.symm, hsame⟩

theorem LedgerMove.lease_issued (h : LedgerMove now draws l (taskId, .claimed worker token) l')
    (hget : l'.tasks.get? taskId = some row') (hcolumns : columns ∈ row'.lease) :
    columns.leaseOwner = worker ∧ columns.leaseTokenSha256 = leaseTokenSha256 token := by
  cases h with
  | @moved _ _ _ old new _ _ _ hrow hmoved =>
    rw [hmoved.tasks, if_pos rfl] at hget
    cases hget
    refine ⟨?_, hrow.token columns hcolumns⟩
    simpa [TaskRow.task, Option.mem_def.mp hcolumns] using hrow.move.leaseOwner_of_claimed

theorem Leased.of_moves {ms : List (Uuid × Cause)} (h : Run (LedgerMove now draws) l ms l')
    (hms : ∀ m ∈ ms, m.2.issued = none) (hl : Leased es l) : Leased es l' := by
  refine h.invariant_on (fun l m l' hissued hl hmove => ?_) hms hl
  intro taskId row columns hget hcolumns
  obtain ⟨old, before, hold, hbefore, howner, htoken⟩ :=
    hmove.lease_kept (fun _ => hissued) hget hcolumns
  rw [← howner, ← htoken]
  exact hl taskId old before hold hbefore

/-- **One call.** The stored leases stay those that were handed out last. -/
theorem Step.leased (h : Step l e l') (hl : Leased es l) : Leased (es ++ [e]) l' := by
  intro taskId row columns hget hcolumns
  rw [lastClaim_snoc]
  obtain ⟨ms, l1, target, request, claim, hop, hreply, hrun, hms, hclaim⟩ |
    ⟨ms, hrun, hms, hreply⟩ := h.issues_or_moves
  · have hl1 : Leased es l1 := hl.of_moves hrun hms
    by_cases htask : claim.task.taskId = taskId
    · subst htask
      obtain ⟨howner, htoken⟩ := hclaim.move.lease_issued hget hcolumns
      refine ⟨claim.leaseToken, ?_, hclaim.token ▸ htoken⟩
      simp [issuedBy, hop, hreply, howner]
    · obtain ⟨old, before, hold, hbefore, howner, htoken⟩ :=
        hclaim.move.lease_kept (fun heq => absurd heq.symm htask) hget hcolumns
      rw [← howner, ← htoken]
      simpa [issuedBy, hop, hreply, htask] using hl1 taskId old before hold hbefore
  · have hnone : issuedBy taskId e = none := by
      rw [issuedBy]
      split
      · exact absurd ‹_› (hreply _)
      · rfl
    rw [hnone, Option.none_or]
    exact hl.of_moves hrun hms taskId row columns hget hcolumns

/-- **The stored lease of a task is always that of its most recent claim.** -/
theorem leased_of_run (h : Run Step Ledger.empty es l) : Leased es l := by
  refine Run.history (I := fun past l => Leased past l) ?_ ?_ h
  · exact fun _ _ _ hget => by simp [Ledger.empty] at hget
  · exact fun _ _ _ _ _ _ hl hstep => hstep.leased hl

/-! ## Only the holder moves a task -/

/-- The worker presents the lease that was handed out last, and it has not ended. -/
def HoldsLast (es : List (Call × Reply)) (l : Ledger) (taskId worker token : Uuid) (now : ℕ) :
    Prop :=
  lastClaim taskId es = some (worker, token) ∧
    ∃ row columns, l.tasks.get? taskId = some row ∧ columns ∈ row.lease ∧
      now < columns.leaseDeadlineUnixSeconds

omit [SemVer] in
theorem Leased.holdsLast (hl : Leased es l) (hinj : Function.Injective leaseTokenSha256)
    (hget : l.tasks.get? taskId = some row) (hholds : Holds now (row.task taskId) worker)
    (htoken : row.lease.map (·.leaseTokenSha256) = some (leaseTokenSha256 token)) :
    HoldsLast es l taskId worker token now := by
  obtain ⟨columns, hcolumns, hstored⟩ := Option.map_eq_some_iff.mp htoken
  obtain ⟨issued, hclaim, hissued⟩ := hl taskId row columns hget hcolumns
  obtain rfl : issued = token := hinj (hissued.symm.trans hstored)
  have howner := hholds.owner
  obtain ⟨deadline, hdeadline, hlater⟩ := hholds.deadline
  simp only [TaskRow.task, hcolumns, Option.map_some, Option.some.injEq,
    Option.mem_def] at howner hdeadline
  exact ⟨howner ▸ hclaim, row, columns, hget, hcolumns, hdeadline ▸ hlater⟩

theorem LedgerMove.holds_of_renewed {request : RemoteUpdateLeaseRenewRequest}
    (h : LedgerMove now draws l (taskId, .renewed request) l') :
    ∃ row, l.tasks.get? taskId = some row ∧ Holds now (row.task taskId) request.workerInstanceId ∧
      row.lease.map (·.leaseTokenSha256) = some (leaseTokenSha256 request.leaseToken) := by
  cases h with
  | @moved _ _ _ old new _ hold _ hrow _ =>
    have hmove := hrow.move
    generalize new.task taskId = task' at hmove
    cases hmove with
    | renewed hholds => exact ⟨old, hold, hholds, hrow.presented _ rfl⟩

theorem LedgerMove.holds_of_reported (h : LedgerMove now draws l (taskId, .reported request) l') :
    ∃ row, l.tasks.get? taskId = some row ∧ Holds now (row.task taskId) request.workerInstanceId ∧
      row.lease.map (·.leaseTokenSha256) = some (leaseTokenSha256 request.leaseToken) := by
  cases h with
  | @moved _ _ _ old new _ hold _ hrow _ =>
    have hmove := hrow.move
    generalize new.task taskId = task' at hmove
    cases hmove with
    | reported hholds => exact ⟨old, hold, hholds, hrow.presented _ rfl⟩

/-! ## A task that has ended -/

theorem LedgerMove.terminal (h : LedgerMove now draws l m l')
    (hget : l.tasks.get? j = some row) (hterminal : row.state.isTerminal = true) :
    l'.tasks.get? j = some row := by
  obtain ⟨taskId, cause⟩ := m
  by_cases hj : j = taskId
  · subst hj
    cases h with
    | created hfresh => simp [hfresh] at hget
    | @moved _ _ _ old new _ hold _ hrow hmoved =>
      cases hget.symm.trans hold
      rw [hmoved.tasks, if_pos rfl, hrow.recorded (hrow.move.recorded_of_terminal hterminal).1]
  · exact (h.get?_of_ne hj).trans hget

/-- **A task that has ended stays as it is**, whatever happens. -/
theorem terminal_of_run (h : Run Step l es l') (hget : l.tasks.get? taskId = some row)
    (hterminal : row.state.isTerminal = true) : l'.tasks.get? taskId = some row := by
  refine h.invariant (I := fun l => l.tasks.get? taskId = some row) (fun l1 e l2 hget hstep => ?_)
    hget
  obtain ⟨ms, hrun, -⟩ := hstep.moves
  exact hrun.invariant (I := fun l => l.tasks.get? taskId = some row)
    (fun _ _ _ hget hmove => hmove.terminal hget hterminal) hget

/-! ## Repeating the report that ended a task -/

theorem LedgerMove.created_eq (h : LedgerMove now draws l m l') (hget : l'.tasks.get? j = some row') :
    row'.createdUnixSeconds = now ∨
      ∃ row, l.tasks.get? j = some row ∧ row'.createdUnixSeconds = row.createdUnixSeconds := by
  cases h.origin hget with
  | kept hold => exact .inr ⟨row', hold, rfl⟩
  | created => exact .inl rfl
  | moved _ hold _ hrow => exact .inr ⟨_, hold, hrow.move.sameIdentity.created⟩

theorem created_of_run (h : Run Step Ledger.empty es l) :
    ∀ taskId row, l.tasks.get? taskId = some row → ∃ e ∈ es, row.createdUnixSeconds = e.1.now := by
  refine Run.history (I := fun past l => ∀ taskId row, l.tasks.get? taskId = some row →
    ∃ e ∈ past, row.createdUnixSeconds = e.1.now) (fun _ _ hget => by simp [Ledger.empty] at hget)
    ?_ h
  intro past l1 e l2 _ _ ih hstep
  obtain ⟨ms, hrun, -⟩ := hstep.moves
  refine hrun.invariant (I := fun l => ∀ taskId row, l.tasks.get? taskId = some row →
    ∃ e' ∈ past ++ [e], row.createdUnixSeconds = e'.1.now) ?_ ?_
  · intro l m l' hl hmove taskId row' hget
    rcases hmove.created_eq hget with hnow | ⟨row, hold, hsame⟩
    · exact ⟨e, by simp, hnow⟩
    · obtain ⟨e', he', hcreated⟩ := hl taskId row hold
      exact ⟨e', he', hsame.trans hcreated⟩
  · intro taskId row hget
    obtain ⟨e', he', hcreated⟩ := ih taskId row hget
    exact ⟨e', by simp [he'], hcreated⟩

/-- A report of the run ended the task. -/
def EndedByReport (es : List (Call × Reply)) (taskId : Uuid) : Prop :=
  ∃ early c task late target ended l0 l1 row0, es = early ++ (c, .task task) :: late ∧
    c.operation = .report target taskId ended ∧ Run Step Ledger.empty early l0 ∧
    Step l0 (c, .task task) l1 ∧ l0.tasks.get? taskId = some row0 ∧
    row0.state.isTerminal = false ∧ task.state.isTerminal = true

theorem EndedByReport.snoc (h : EndedByReport es taskId) (e : Call × Reply) :
    EndedByReport (es ++ [e]) taskId := by
  obtain ⟨early, c, task, late, target, ended, l0, l1, row0, rfl, hrest⟩ := h
  exact ⟨early, c, task, late ++ [e], target, ended, l0, l1, row0, by simp, hrest⟩

theorem LedgerMove.replay_kept (h : LedgerMove now draws l m l')
    (hcause : ∀ request, m.2 ≠ .reported request) (hget : l'.tasks.get? j = some row')
    (hsome : row'.terminalReplay.isSome = true) :
    ∃ row, l.tasks.get? j = some row ∧ row.terminalReplay.isSome = true := by
  obtain ⟨taskId, cause⟩ := m
  cases h.origin hget with
  | kept hold => exact ⟨row', hold, hsome⟩
  | created => simp [newRow] at hsome
  | moved _ hold _ hrow =>
    by_cases hrecorded : cause = .recorded
    · exact ⟨_, hold, hrow.recorded hrecorded ▸ hsome⟩
    · have hnone : cause.replay row'.state = none := by
        cases cause with
        | reported request => exact absurd rfl (hcause request)
        | _ => rfl
      simp [hrow.replay hrecorded, hnone] at hsome

theorem LedgerMove.replay_of_reported (h : LedgerMove now draws l (taskId, .reported request) l')
    (hget : l'.tasks.get? taskId = some row') :
    row'.terminalReplay = Cause.replay row'.state (.reported request) := by
  cases h with
  | moved _ _ hrow hmoved =>
    rw [hmoved.tasks, if_pos rfl] at hget
    cases hget
    exact hrow.replay (by simp)

/-- **One call.** Every record of an ending report is that of a report of the run. -/
theorem Step.endedByReport (h : Step l e l') (hrun : Run Step Ledger.empty es l)
    (hl : ∀ j row, l.tasks.get? j = some row → row.terminalReplay.isSome = true →
      EndedByReport es j) (hget : l'.tasks.get? j = some row')
    (hsome : row'.terminalReplay.isSome = true) : EndedByReport (es ++ [e]) j := by
  have hkept : (∃ row, l.tasks.get? j = some row ∧ row.terminalReplay.isSome = true) →
      EndedByReport (es ++ [e]) j := by
    rintro ⟨row, hold, hrow⟩
    exact (hl j row hold hrow).snoc e
  obtain ⟨ms, hmoves, hms⟩ := h.moves
  by_cases hreport : ∃ target taskId request, e.1.operation = .report target taskId request
  · obtain ⟨⟨operation, now, draws⟩, reply⟩ := e
    obtain ⟨target, taskId, request, rfl⟩ := hreport
    obtain ⟨task, hok, rfl⟩ := map_fst_eq_ok.mp h
    obtain ⟨row, hold, -, -, -, ⟨-, hreplays⟩ | ⟨hactive, hreports⟩⟩ := report_moves hok
    · exact hkept (hreplays.move.replay_kept (by simp) hget hsome)
    by_cases hj : j = taskId
    · subst hj
      obtain ⟨row1, hrow1, rfl⟩ := hreports.reply
      cases hget.symm.trans hrow1
      refine ⟨es, _, _, [], target, request, l, l', row, rfl, rfl, hrun, h, hold, hactive, ?_⟩
      rw [hreports.move.replay_of_reported hget, Cause.replay] at hsome
      split_ifs at hsome with hterminal
      · exact hterminal
      · cases hsome
    · exact hkept ⟨row', (hreports.move.get?_of_ne hj).symm.trans hget, hsome⟩
  · refine hkept ?_
    refine hmoves.invariant_on (I := fun l1 => (∃ row, l1.tasks.get? j = some row ∧
      row.terminalReplay.isSome = true) → ∃ row, l.tasks.get? j = some row ∧
        row.terminalReplay.isSome = true) (p := fun m => ∀ request, m.2 ≠ .reported request)
      ?_ ?_ id ⟨row', hget, hsome⟩
    · rintro l1 m l2 hcause ih hmove ⟨row, hrow, hrowSome⟩
      exact ih (hmove.replay_kept hcause hrow hrowSome)
    · intro m hm request heq
      have hmade := hms m hm
      simp only [Call.Makes, heq] at hmade
      obtain ⟨target, hop⟩ := hmade
      exact hreport ⟨target, m.1, request, hop⟩

theorem endedByReport_of_run (h : Run Step Ledger.empty es l) :
    ∀ j row, l.tasks.get? j = some row → row.terminalReplay.isSome = true → EndedByReport es j := by
  refine Run.history (I := fun past l => ∀ j row, l.tasks.get? j = some row →
    row.terminalReplay.isSome = true → EndedByReport past j)
    (fun _ _ hget => by simp [Ledger.empty] at hget) ?_ h
  exact fun past l1 e l2 hpast _ ih hstep j row => hstep.endedByReport hpast ih

/-- What is stored of a task that a report has ended. -/
structure EndedBy (l : Ledger) (target taskId : Uuid) (ended : RemoteUpdateReportRequest)
    (task : RemoteUpdateTask) (row : TaskRow) : Prop where
  get : l.tasks.get? taskId = some row
  task_eq : row.task taskId = task
  valid : task.Valid
  terminal : row.state.isTerminal = true
  replay : row.terminalReplay = some (TerminalReportReplay.fromRequest ended)
  target_eq : row.targetClientId = target
  request : ended.validate row.action = .ok ()

theorem endedBy_of_report (h : report l target taskId ended now draws = .ok (task, l'))
    (hget : l.tasks.get? taskId = some row) (hcreated : row.createdUnixSeconds ≤ now)
    (hactive : row.state.isTerminal = false) (hended : task.state.isTerminal = true) :
    ∃ row', EndedBy l' target taskId ended task row' := by
  obtain ⟨_, hget', hvalid, htarget, hrequest, hcases⟩ := report_moves h
  cases hget.symm.trans hget'
  obtain ⟨hmove, new, hnew, rfl⟩ : Reports now draws l taskId ended task l' := by
    rcases hcases with ⟨hterminal, -⟩ | ⟨-, hreports⟩
    · simp [hactive] at hterminal
    · exact hreports
  cases hmove with
  | @moved _ _ _ old next _ hold _ hrow hmoved =>
    cases hget.symm.trans hold
    obtain rfl : next = new := by
      rw [hmoved.tasks, if_pos rfl] at hnew
      exact Option.some.inj hnew
    have hsame := hrow.move.sameIdentity
    exact ⟨next, hnew, rfl, hrow.move.valid hvalid hcreated trivial, hended,
      (hrow.replay (by simp)).trans (if_pos hended), hsame.targetClientId.trans htarget,
      (show next.action = row.action from hsame.action) ▸ hrequest⟩

omit [SemVer] in
theorem validateTerminalReportReplay_eq_ok (hinj : Function.Injective leaseTokenSha256)
    (hreport : workerReportSha256 request.report = workerReportSha256 ended.report →
      request.report = ended.report) :
    validateTerminalReportReplay (.fromRequest ended) request = .ok () ↔
      request.workerInstanceId = ended.workerInstanceId ∧
        request.leaseToken = ended.leaseToken ∧ request.report = ended.report := by
  rw [validateTerminalReportReplay, bind_unit_eq_ok, rejectIf_eq_ok, rejectIf_eq_ok, not_or,
    not_ne_iff, not_ne_iff, not_ne_iff]
  constructor
  · rintro ⟨⟨hworker, htoken⟩, hdigest⟩
    exact ⟨hworker.symm, hinj htoken.symm, hreport hdigest.symm⟩
  · rintro ⟨hworker, htoken, hsame⟩
    rw [hworker, htoken, hsame]
    exact ⟨⟨rfl, rfl⟩, rfl⟩

theorem EndedBy.report_eq {reply : RemoteUpdateTask} (h : EndedBy l target taskId ended task row)
    (hok : report l target taskId request now draws = .ok (reply, l')) :
    validateTerminalReportReplay (.fromRequest ended) request = .ok () ∧ reply = task := by
  obtain ⟨_, hget', -, -, -, hcases⟩ := report_moves hok
  cases h.get.symm.trans hget'
  rcases hcases with ⟨-, ⟨stored, hstored, hsame⟩, -, rfl⟩ | ⟨hactive, -⟩
  · cases h.replay.symm.trans hstored
    exact ⟨hsame, h.task_eq⟩
  · simp [h.terminal] at hactive

theorem EndedBy.report_ok (h : EndedBy l target taskId ended task row)
    (hlog : LoggedLedger l) (hnow : now < 2 ^ 63)
    (hfresh : ∀ event ∈ l.events, event.eventId ≠ draws.eventId l.events.length) :
    ∃ reply l', report l target taskId ended now draws = .ok (reply, l') := by
  have hvalid : (row.task taskId).Valid := h.task_eq ▸ h.valid
  have hnil : ∀ {id : Uuid}, id.isNil = false → validateNonNilUuid id = .ok () := fun hid =>
    rejectIf_of_not (by simp [hid])
  have htask := requireTask_eq_ok.mpr ⟨row, h.get, hvalid, rfl⟩
  obtain ⟨events', hrecord⟩ : ∃ events', recordEvent l.events (row.task taskId) .idempotentReplay
      now draws = .ok events' := recordEvent_ok (hlog.room taskId) hnow hfresh
  have hreplay : replayTerminalReport l (row.task taskId) ended now draws
      = .ok (row.task taskId, { l with events := events' }) := by
    have hworker : ended.workerInstanceId.isNil = false := by
      have hrequest := h.request
      simp only [RemoteUpdateReportRequest.validate, validateNonNilUuid, bind_unit_eq_ok,
        rejectIf_eq_ok, Bool.not_eq_true] at hrequest
      exact hrequest.1
    refine bind_eq_ok.mpr ⟨some (.fromRequest ended), ?_, bind_eq_ok.mpr ⟨_, rfl,
      bind_unit_eq_ok.mpr ⟨?_, bind_eq_ok.mpr
        ⟨_, appendEvent_eq_ok.mpr ⟨events', hrecord, rfl⟩, rfl⟩⟩⟩⟩
    · rw [terminalReportReplay, readReplay_eq_ok]
      simp [TaskRow.task, h.get, h.replay, TerminalReportReplay.fromRequest, hworker]
    · simp [validateTerminalReportReplay, TerminalReportReplay.fromRequest, bind_unit_eq_ok]
  refine ⟨row.task taskId, { l with events := events' }, ?_⟩
  simp only [report, bind_unit_eq_ok, contract_eq_ok]
  refine ⟨hnil (h.target_eq ▸ hvalid.targetClientId), hnil hvalid.taskId,
    bind_eq_ok.mpr ⟨_, htask, ?_⟩⟩
  simp only [bind_unit_eq_ok, contract_eq_ok, rejectIf_eq_ok, not_not]
  have hterminal : (row.task taskId).state.isTerminal = true := h.terminal
  rw [if_pos hterminal]
  exact ⟨h.target_eq, h.request, hreplay⟩

/-! ## Runs -/

/-- **Leases are exclusive.** In every run from the empty ledger, if digests of tokens do not
collide: a renewal succeeds only for the holder of the lease that was handed out last, before it
ends, and changes no other row; a report on a task that has not ended likewise, while one on a
task that has ended succeeds only if a report ended it, and changes no row at all; the row of a
task that has ended never changes; and once a report has ended a task, a report on it succeeds
exactly when its worker, its token and what it reports are those of that report, and gives the same
snapshot. -/
theorem lease_exclusive_of_run (hinj : Function.Injective leaseTokenSha256)
    (hrun : Run Step Ledger.empty es l) (hclock : Clocked callTime es) :
    (∀ target taskId request now draws response l',
      renew l target taskId request now draws = .ok (response, l') →
      HoldsLast es l taskId request.workerInstanceId request.leaseToken now ∧
      ∀ j ≠ taskId, l'.tasks.get? j = l.tasks.get? j) ∧
    (∀ target taskId request now draws task l',
      report l target taskId request now draws = .ok (task, l') →
      (HoldsLast es l taskId request.workerInstanceId request.leaseToken now ∧
        ∀ j ≠ taskId, l'.tasks.get? j = l.tasks.get? j) ∨
      ((∃ row, l.tasks.get? taskId = some row ∧ row.state.isTerminal = true) ∧
        EndedByReport es taskId ∧ ∀ j, l'.tasks.get? j = l.tasks.get? j)) ∧
    (∀ taskId row future l', l.tasks.get? taskId = some row → row.state.isTerminal = true →
      Run Step l future l' → l'.tasks.get? taskId = some row) ∧
    (∀ early c late l0 l1 target taskId ended task0 row0,
      es = early ++ (c, .task task0) :: late → c.operation = .report target taskId ended →
      Run Step Ledger.empty early l0 → Step l0 (c, .task task0) l1 → Run Step l1 late l →
      l0.tasks.get? taskId = some row0 → row0.state.isTerminal = false →
      task0.state.isTerminal = true →
      ∀ request now draws,
        (workerReportSha256 request.report = workerReportSha256 ended.report →
          request.report = ended.report) →
        now < 2 ^ 63 → (∀ event ∈ l.events, event.eventId ≠ draws.eventId l.events.length) →
        ((∃ reply l', report l target taskId request now draws = .ok (reply, l')) ↔
          request.workerInstanceId = ended.workerInstanceId ∧
            request.leaseToken = ended.leaseToken ∧ request.report = ended.report) ∧
        ∀ reply l', report l target taskId request now draws = .ok (reply, l') →
          reply = task0) := by
  have hleased := leased_of_run hrun
  refine ⟨?_, ?_, fun taskId row future l' hget hterminal hfuture =>
    terminal_of_run hfuture hget hterminal, ?_⟩
  · intro target taskId request now draws response l' h
    have hmove := renew_moves h
    obtain ⟨row, hget, hholds, htoken⟩ := hmove.holds_of_renewed
    exact ⟨hleased.holdsLast hinj hget hholds htoken, fun j hj => hmove.get?_of_ne hj⟩
  · intro target taskId request now draws task l' h
    obtain ⟨row, hget, -, -, -, ⟨hterminal, hreplays⟩ | ⟨-, hreports⟩⟩ := report_moves h
    · obtain ⟨replay, hreplay, -⟩ := hreplays.replay
      have hended := endedByReport_of_run hrun taskId row hget (by rw [hreplay]; rfl)
      refine .inr ⟨⟨row, hget, hterminal⟩, hended, fun j => ?_⟩
      by_cases hj : j = taskId
      · rw [hj, hget, hreplays.move.terminal hget hterminal]
      · exact hreplays.move.get?_of_ne hj
    · obtain ⟨row, hget, hholds, htoken⟩ := hreports.move.holds_of_reported
      exact .inl ⟨hleased.holdsLast hinj hget hholds htoken,
        fun j hj => hreports.move.get?_of_ne hj⟩
  · intro early c late l0 l1 target taskId ended task0 row0 hes hop hearly hstep hlate hget0 hactive
      hended request now draws hreport hnow hfresh
    have hok : report l0 target taskId ended c.now c.draws = .ok (task0, l1) := by
      simp only [Step, call, hop] at hstep
      obtain ⟨task, hok, htask⟩ := map_fst_eq_ok.mp hstep
      exact Reply.task.inj htask ▸ hok
    have hcreated : row0.createdUnixSeconds ≤ c.now := by
      obtain ⟨e, he, hcreated⟩ := created_of_run hearly taskId row0 hget0
      rw [hcreated]
      have hpre : early ++ [(c, Reply.task task0)] <+: es := ⟨late, by simp [hes]⟩
      exact now_le_of_clocked hclock hpre e he
    obtain ⟨row1, hrow1⟩ := endedBy_of_report hok hget0 hcreated hactive hended
    have hrow : EndedBy l target taskId ended task0 row1 :=
      { hrow1 with get := terminal_of_run hlate hrow1.get hrow1.terminal }
    refine ⟨⟨?_, ?_⟩, fun reply l' h => (hrow.report_eq h).2⟩
    · rintro ⟨reply, l', h⟩
      exact (validateTerminalReportReplay_eq_ok hinj hreport).mp (hrow.report_eq h).1
    · rintro ⟨hworker, htoken, hsame⟩
      obtain ⟨worker, token, reported⟩ := request
      obtain rfl := hworker
      obtain rfl := htoken
      obtain rfl := hsame
      exact hrow.report_ok (logged_of_run hrun) hnow hfresh

end Lease

theorem Sample.leaseTokenSha256_injective :
    Function.Injective (@leaseTokenSha256 Sample.digests) := by
  intro a b h
  have hval : BitVec.ofNat 256 (BigEndian.ofBeBytes
        (textBytes "linklake-remote-update-lease-v1\x00" ++ a.asBytes))
      = BitVec.ofNat 256 (BigEndian.ofBeBytes
        (textBytes "linklake-remote-update-lease-v1\x00" ++ b.asBytes)) :=
    congrArg Sha256Digest.val h
  have hlow : ∀ u : Uuid, BigEndian.ofBeBytes
      (textBytes "linklake-remote-update-lease-v1\x00" ++ u.asBytes) % 256 ^ 16
      = u.val.toNat := by
    intro u
    rw [BigEndian.ofBeBytes_append, Uuid.length_asBytes, Nat.mul_add_mod_self_right, Uuid.asBytes,
      BigEndian.ofBeBytes_beBytes u.toNat_lt, Nat.mod_eq_of_lt u.toNat_lt]
  have hmod := congrArg (fun w : BitVec 256 => w.toNat % 256 ^ 16) hval
  simp only [BitVec.toNat_ofNat] at hmod
  rw [Nat.mod_mod_of_dvd _ (by norm_num), Nat.mod_mod_of_dvd _ (by norm_num), hlow, hlow] at hmod
  exact congrArg Uuid.mk (BitVec.eq_of_toNat_eq hmod)

open Sample in
/-- A worker that reports a failure and repeats its report gets the same answer; with another
token it gets none. -/
theorem lease_exclusive_of_run_repeated :
    ∃ es l, Function.Injective leaseTokenSha256 ∧ Run Step Ledger.empty es l ∧ Clocked callTime es ∧
      (∃ row, l.tasks.get? (draws 0).taskId = some row ∧ row.state = .failed) ∧
      (∃ reply l', report l client (draws 0).taskId ⟨worker,
        (draws 1).leaseToken, .failed .applyFailed .statusRequired⟩ 1004 (draws 4)
        = .ok (reply, l')) ∧
      ¬ ∃ reply l', report l client (draws 0).taskId ⟨worker,
        (draws 2).leaseToken, .failed .applyFailed .statusRequired⟩ 1004 (draws 4)
        = .ok (reply, l') := by
  have h : ∃ x ∈ perform call (fun _ _ => True) Ledger.empty (untilRestart.take 3),
      (∃ row0 ∈ x.2.tasks.get? (draws 0).taskId, row0.state = .running) ∧
      ∃ y ∈ (call x.2 (reportOn (.failed .applyFailed .statusRequired) 1003 3)).toOption,
        Clocked callTime (x.1 ++ [(reportOn (.failed .applyFailed .statusRequired) 1003 3, y.1)]) ∧
        (∀ event ∈ y.2.events, event.eventId ≠ (draws 4).eventId y.2.events.length) ∧
        (∃ row ∈ y.2.tasks.get? (draws 0).taskId, row.state = .failed) ∧
        (match y.1 with
          | .task task0 => task0.state.isTerminal
          | _ => false) = true := by
    decide +kernel
  obtain ⟨⟨early, l0⟩, hearly, ⟨row0, hget0, hrow0⟩, ⟨reply, l1⟩, hcall, hclock, hfresh,
    ⟨row, hget, hstate⟩, h⟩ := h
  have hcall' : call l0 (reportOn (.failed .applyFailed .statusRequired) 1003 3)
      = .ok (reply, l1) := by
    cases hc : call l0 (reportOn (.failed .applyFailed .statusRequired) 1003 3) with
    | error _ => simp [hc, Except.toOption] at hcall
    | ok y => simpa [hc, Except.toOption] using hcall
  cases reply with
  | task task0 =>
    have hended := h
    have hearly' := Run.of_calls hearly
    have hstep : Step l0 (reportOn (.failed .applyFailed .statusRequired) 1003 3,
        .task task0) l1 := hcall'
    have hrun := hearly'.snoc hstep
    obtain ⟨-, -, -, hrepeat⟩ :=
      lease_exclusive_of_run leaseTokenSha256_injective hrun hclock
    have hagain := hrepeat early _ [] l0 l1 client _ _ task0 row0 rfl rfl hearly' hstep
      (.nil l1) hget0 (by simp [hrow0, RemoteUpdateTaskState.isTerminal]) hended
    refine ⟨_, l1, leaseTokenSha256_injective, hrun, hclock,
      ⟨row, hget, hstate⟩, ?_, fun hother => ?_⟩
    · exact (hagain _ 1004 (draws 4) (fun _ => rfl) (by decide) hfresh).1.mpr ⟨rfl, rfl, rfl⟩
    · obtain ⟨-, htoken, -⟩ := (hagain ⟨worker, (draws 2).leaseToken,
        .failed .applyFailed .statusRequired⟩ 1004 (draws 4) (fun _ => rfl) (by decide)
        hfresh).1.mp hother
      exact absurd htoken (by decide)
  | _ => simp at h

end LinkLake.UpdateTasks
