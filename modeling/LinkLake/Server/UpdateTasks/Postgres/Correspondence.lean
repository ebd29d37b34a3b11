import LinkLake.Foundations.Agreement
import LinkLake.Server.UpdateTasks.Constraints
import LinkLake.Server.UpdateTasks.Postgres

/-!
# Rows in SQLite and rows in PostgreSQL

What PostgreSQL holds in place of a SQLite ledger (`Ledger.toPostgres`), and that the two backends
read it and write it alike as long as the ledger is orderly and what is written is valid:

* `requireTask_agrees`, `select_toPostgres`: they find the same tasks.
* `persist_agrees`, `append_agrees`: they accept the same transitions and events.
* `reconcileExpired_agrees`: they deal with lost leases alike.
-/

namespace LinkLake.UpdateTasks

open Fallible FiniteMap

/-! ## Rows -/

/-- The row that PostgreSQL holds in place of this one. -/
def TaskRow.toPostgres (row : TaskRow) (taskId : Uuid) : Postgres.StoredRow where
  targetClientId := row.targetClientId
  requestedBy := row.requestedBy
  idempotencyKey := row.idempotencyKey
  requestFingerprint := row.requestFingerprint
  state := row.state
  createdUnixSeconds := row.createdUnixSeconds
  leaseDeadlineUnixSeconds := row.lease.map (·.leaseDeadlineUnixSeconds)
  leaseTokenSha256 := row.lease.map (·.leaseTokenSha256)
  terminalReplay := row.terminalReplay
  snapshot := row.task taskId

/-- What PostgreSQL returns of this row. -/
def TaskRow.found (row : TaskRow) (taskId : Uuid) : Postgres.StoredTask :=
  ⟨row.task taskId, row.lease.map (·.leaseTokenSha256), row.requestFingerprint, row.terminalReplay⟩

/-- The tables that PostgreSQL holds in place of this ledger. -/
def Ledger.toPostgres (l : Ledger) : Postgres.Tables :=
  ⟨l.tasks.map fun taskId row => row.toPostgres taskId, l.events⟩

variable {l : Ledger} {taskId : Uuid} {row : TaskRow} {now : ℕ}
  {replay : Option TerminalReportReplay} {entries : List (Uuid × TaskRow)}
  {kind : RemoteUpdateEventKind} {lease : Option LeaseColumns}

@[simp] theorem events_toPostgres : l.toPostgres.events = l.events := rfl

@[simp] theorem get?_toPostgres :
    l.toPostgres.tasks.get? taskId = (l.tasks.get? taskId).map (·.toPostgres taskId) :=
  get?_map _ _ _

@[simp] theorem mem_toPostgres : taskId ∈ l.toPostgres.tasks ↔ taskId ∈ l.tasks :=
  mem_map

theorem toList_toPostgres : l.toPostgres.tasks.toList =
    l.tasks.toList.map fun entry => (entry.1, entry.2.toPostgres entry.1) :=
  toList_map _ _

theorem insert_toPostgres : ({ l with tasks := l.tasks.insert taskId row } : Ledger).toPostgres =
    { l.toPostgres with tasks := l.toPostgres.tasks.insert taskId (row.toPostgres taskId) } := by
  simp only [Ledger.toPostgres, map_insert]

theorem otherActive_toPostgres (target : Uuid) :
    l.toPostgres.otherActive taskId target = l.otherActive taskId target := by
  simp only [Postgres.Tables.otherActive, Ledger.otherActive, toList_toPostgres, List.any_map]
  rfl

theorem select_toPostgres {p : TaskRow → Bool} {q : Postgres.StoredRow → Bool}
    {before : Uuid × TaskRow → Uuid × TaskRow → Prop} [DecidableRel before]
    {before' : Uuid × Postgres.StoredRow → Uuid × Postgres.StoredRow → Prop}
    [DecidableRel before'] (hp : ∀ taskId row, q (row.toPostgres taskId) = p row)
    (hbefore : ∀ a b : Uuid × TaskRow, l.tasks.get? a.1 = some a.2 → p a.2 = true →
      l.tasks.get? b.1 = some b.2 → p b.2 = true →
      (before a b ↔ before' (a.1, a.2.toPostgres a.1) (b.1, b.2.toPostgres b.1))) :
    l.toPostgres.select q before' =
      (l.select p before).map fun entry => (entry.1, entry.2.toPostgres entry.1) := by
  have hfilter : (l.toPostgres.tasks.toList.filter fun entry => q entry.2) =
      (l.tasks.toList.filter fun entry => p entry.2).map
        fun entry => (entry.1, entry.2.toPostgres entry.1) := by
    rw [toList_toPostgres, List.filter_map]
    refine congrArg (List.map _) (List.filter_congr fun entry _ => ?_)
    exact hp entry.1 entry.2
  rw [Postgres.Tables.select, Ledger.select, hfilter]
  refine (List.map_insertionSort before before' _ _ fun a ha b hb => ?_).symm
  rw [List.mem_filter] at ha hb
  exact hbefore a b (mem_toList.mp ha.1) ha.2 (mem_toList.mp hb.1) hb.2

section Reading

variable [SemVer]

theorem taskSnapshot_toPostgres (h : (row.task taskId).Valid) :
    Postgres.taskSnapshot (row.toPostgres taskId) = .ok (row.task taskId) := by
  have hread : validateLoadedTask (row.task taskId) = .ok () := by
    rw [validateLoadedTask, bind_unit_eq_ok, rejectIf_eq_ok, stored_eq_ok,
      RemoteUpdateTask.validate_eq_ok]
    exact ⟨not_lt.mpr h.attempt, h⟩
  exact bind_unit_eq_ok.mpr ⟨hread, rfl⟩

variable (hl : Orderly now l)
include hl

theorem storedTask_toPostgres (hget : l.tasks.get? taskId = some row) :
    Postgres.storedTask (row.toPostgres taskId) = .ok (row.found taskId) := by
  have hreplay :=
    readReplay_eq_ok.mpr ⟨rfl, fun replay hmem => (hl.replays taskId row hget replay hmem).2⟩
  exact bind_eq_ok.mpr ⟨_, hreplay,
    bind_eq_ok.mpr ⟨_, taskSnapshot_toPostgres (hl.valid taskId row hget).1, rfl⟩⟩

theorem requireTask_agrees :
    Agree (fun task found => ∃ row, l.tasks.get? taskId = some row ∧ task = row.task taskId ∧
      found = row.found taskId) (requireTask l taskId)
      (Postgres.requireTask l.toPostgres taskId) := by
  cases hget : l.tasks.get? taskId with
  | none =>
    rw [requireTask, taskById, hget, Postgres.requireTask, Postgres.taskById, get?_toPostgres, hget]
    exact .error _ _
  | some row =>
    have hread := requireTask_eq_ok.mpr ⟨row, hget, (hl.valid taskId row hget).1, rfl⟩
    have hfound : Postgres.requireTask l.toPostgres taskId = .ok (row.found taskId) := by
      rw [Postgres.requireTask, Postgres.taskById, get?_toPostgres, hget, Option.map_some]
      simp only [storedTask_toPostgres hl hget, ok_bind]
      rfl
    rw [hread, hfound]
    exact .ok ⟨row, rfl, rfl, rfl⟩

theorem readFirst_agrees (hentries : ∀ entry ∈ entries, l.tasks.get? entry.1 = some entry.2) :
    Agree (fun task found => match task, found with
        | none, none => True
        | some task, some found => ∃ taskId row, (taskId, row) ∈ entries ∧
            task = row.task taskId ∧ found = row.found taskId
        | _, _ => False) (readFirst entries)
      (Postgres.readFirst (entries.map fun entry => (entry.1, entry.2.toPostgres entry.1))) := by
  cases entries with
  | nil => exact .ok trivial
  | cons entry entries =>
    have hget := hentries entry (by simp)
    have hread := readTask_eq_ok.mpr ⟨(hl.valid entry.1 entry.2 hget).1, rfl⟩
    rw [List.map_cons, readFirst, Postgres.readFirst, hread, storedTask_toPostgres hl hget]
    exact .ok ⟨entry.1, entry.2, by simp, rfl, rfl⟩

end Reading

section Writing

variable [SemVer] {row' : TaskRow} {task : RemoteUpdateTask} {token : Postgres.TokenUpdate}

/-- A row that may be written in place of another one. -/
structure Replaces (l : Ledger) (taskId : Uuid) (row row' : TaskRow) : Prop where
  get : l.tasks.get? taskId = some row
  valid : (row'.task taskId).Valid
  identity : SameIdentity (row.task taskId) (row'.task taskId)
  fingerprint : row'.requestFingerprint = row.requestFingerprint
  replay : row'.terminalReplay.isSome = true → row'.state.isTerminal = true
  free : l.otherActive taskId row'.targetClientId = false

theorem Replaces.of_active (hl : OneActive l) (hget : l.tasks.get? taskId = some row)
    (hactive : row.state.isTerminal = false) (hvalid : (row'.task taskId).Valid)
    (hidentity : SameIdentity (row.task taskId) (row'.task taskId))
    (hfingerprint : row'.requestFingerprint = row.requestFingerprint)
    (hreplay : row'.terminalReplay.isSome = true → row'.state.isTerminal = true) :
    Replaces l taskId row row' := by
  refine ⟨hget, hvalid, hidentity, hfingerprint, hreplay, ?_⟩
  rw [show row'.targetClientId = row.targetClientId from hidentity.targetClientId]
  exact otherActive_of_active hl hget hactive

theorem Replaces.writeRow (h : Replaces l taskId row row') :
    l.writeRow taskId row' = .ok { l with tasks := l.tasks.insert taskId row' } :=
  writeRow_eq_ok.mpr ⟨checks_of_valid h.valid h.replay, fun _ => h.free, rfl⟩

theorem checks_toPostgres (h : (row.task taskId).Valid)
    (hreplay : row.terminalReplay.isSome = true → row.state.isTerminal = true) :
    (row.toPostgres taskId).checks = true := by
  have hcreated : 0 < row.createdUnixSeconds := Nat.pos_of_ne_zero h.created
  have hdeadline : row.lease.map (·.leaseDeadlineUnixSeconds) ≠ some 0 := h.leaseDeadline
  have hrecord : (row.terminalReplay.isNone || row.state.isTerminal) = true := by
    cases hrep : row.terminalReplay with
    | none => rfl
    | some replay => simpa using hreplay (by simp [hrep])
  simp only [Postgres.StoredRow.checks, TaskRow.toPostgres, hrecord, hcreated, decide_true,
    Bool.true_and, Bool.and_true]
  cases hlease : row.lease with
  | none => rfl
  | some columns =>
    simp only [hlease, Option.map_some, ne_eq, Option.some.injEq] at hdeadline
    simpa using Nat.pos_of_ne_zero hdeadline

theorem writeRow_toPostgres (hvalid : (row'.task taskId).Valid)
    (hreplay : row'.terminalReplay.isSome = true → row'.state.isTerminal = true)
    (hfree : l.otherActive taskId row'.targetClientId = false) :
    l.toPostgres.writeRow taskId (row'.toPostgres taskId) =
      .ok ({ l with tasks := l.tasks.insert taskId row' } : Ledger).toPostgres := by
  have hother : l.toPostgres.otherActive taskId (row'.toPostgres taskId).targetClientId = false :=
    (otherActive_toPostgres _).trans hfree
  rw [Postgres.Tables.writeRow, rejectIf_of_not (by simp [checks_toPostgres hvalid hreplay]),
    ok_bind, rejectIf_of_not (by simp [hother]), ok_bind, insert_toPostgres]

omit [SemVer] in
theorem update_toPostgres (hidentity : SameIdentity (row.task taskId) (row'.task taskId))
    (hfingerprint : row'.requestFingerprint = row.requestFingerprint)
    (htoken : ((row.toPostgres taskId).update (row'.task taskId) token).leaseTokenSha256
      = row'.lease.map (·.leaseTokenSha256))
    (hreplay : ((row.toPostgres taskId).update (row'.task taskId) token).terminalReplay
      = row'.terminalReplay) :
    (row.toPostgres taskId).update (row'.task taskId) token = row'.toPostgres taskId := by
  have htarget : row'.targetClientId = row.targetClientId := hidentity.targetClientId
  have hrequester : row'.requestedBy = row.requestedBy := hidentity.requestedBy
  have hkey : row'.idempotencyKey = row.idempotencyKey := hidentity.idempotencyKey
  have hcreated : row'.createdUnixSeconds = row.createdUnixSeconds := hidentity.created
  simp only [Postgres.StoredRow.update] at htoken hreplay ⊢
  rw [htoken, hreplay]
  simp only [TaskRow.toPostgres, htarget, hrequester, hkey, hcreated, hfingerprint]
  rfl

theorem Replaces.writeTask (h : Replaces l taskId row row')
    (htoken : ((row.toPostgres taskId).update (row'.task taskId) token).leaseTokenSha256
      = row'.lease.map (·.leaseTokenSha256))
    (hreplay : ((row.toPostgres taskId).update (row'.task taskId) token).terminalReplay
      = row'.terminalReplay) :
    Postgres.writeTask l.toPostgres (row'.task taskId) token = (do
      ((row'.task taskId).leaseDeadlineUnixSeconds.elim (pure ()) nowI64 : Except _ _)
      .ok ({ l with tasks := l.tasks.insert taskId row' } : Ledger).toPostgres) := by
  have hvalid := stored_eq_ok.mpr (RemoteUpdateTask.validate_eq_ok.mpr h.valid)
  have hget : l.toPostgres.tasks.get? (row'.task taskId).taskId = some (row.toPostgres taskId) := by
    rw [get?_toPostgres]
    exact congrArg (Option.map _) h.get
  have hwrite := writeRow_toPostgres h.valid h.replay h.free
  rw [← update_toPostgres h.identity h.fingerprint htoken hreplay] at hwrite
  rw [Postgres.writeTask, hvalid, ok_bind, hget]
  exact congrArg _ (funext fun _ => hwrite)

theorem persist_agrees (hl : OneActive l) (hget : l.tasks.get? taskId = some row)
    (hactive : row.state.isTerminal = false) (horigin : SameOrigin (row.task taskId) task)
    (hvalid : task.Valid) (hupdated : task.updatedUnixSeconds < 2 ^ 63)
    (hcompleted : ∀ completed ∈ task.completedUnixSeconds, completed < 2 ^ 63)
    (hlease : leaseColumns task.leaseOwner (row.lease.map (·.leaseTokenSha256))
      task.leaseDeadlineUnixSeconds = .ok lease)
    (hterminal : replay.isSome = true → task.state.isTerminal = true)
    (htoken : ((row.toPostgres taskId).update task token).leaseTokenSha256
      = lease.map (·.leaseTokenSha256))
    (hreplay : ((row.toPostgres taskId).update task token).terminalReplay = replay) :
    Agree (fun l' t' => l' = { l with tasks := l.tasks.insert taskId (row.persist task lease replay) }
        ∧ t' = l'.toPostgres)
      (persistTaskAfterReport l task replay) (Postgres.writeTask l.toPostgres task token) := by
  have hid : task.taskId = taskId := horigin.taskId
  obtain ⟨howner, hdeadline, -⟩ := leaseColumns_ok hlease
  have htask : (row.persist task lease replay).task taskId = task :=
    TaskRow.persist_task horigin howner hdeadline
  have hreplaces : Replaces l taskId row (row.persist task lease replay) :=
    .of_active hl hget hactive (htask.symm ▸ hvalid) (htask.symm ▸ horigin.toSameIdentity) rfl
      hterminal
  have hpostgres := hreplaces.writeTask (htask.symm ▸ htoken) (htask.symm ▸ hreplay)
  rw [htask] at hpostgres
  have hfits : nowI64 task.updatedUnixSeconds = .ok () := nowI64_eq_ok.mpr hupdated
  have hdone : (task.completedUnixSeconds.elim (pure ()) nowI64 : Except _ _) = .ok () :=
    elim_pure_eq_ok.mpr fun completed hmem => nowI64_eq_ok.mpr (hcompleted completed hmem)
  rw [hpostgres, persistTaskAfterReport, hid, hget, hfits, hdone]
  refine .same fun _ _ => ?_
  simp only [ok_bind, okOr_some, hlease, hreplaces.writeRow]
  exact .ok ⟨rfl, rfl⟩

theorem append_agrees {draws : Draws} (hvalid : task.Valid)
    (hnow : 0 < now) (hmem : task.taskId ∈ l.tasks) :
    Agree (fun l' t' => t' = l'.toPostgres) (appendEvent l task kind now draws)
      (Postgres.appendEvent l.toPostgres task kind now draws) := by
  refine .map_left ?_
  rw [recordEvent, Postgres.appendEvent, events_toPostgres]
  by_cases hsampled : sampledAway kind (eventsOf task.taskId l.events) = true
  · rw [if_pos hsampled, if_pos hsampled]
    exact .ok rfl
  · have hevent : stored ((eventOf task kind (draws.eventId l.events.length)
        (nextSequence (eventsOf task.taskId l.events)) now).validate task.taskId) = .ok () :=
      stored_eq_ok.mpr (RemoteUpdateTaskEvent.validate_eq_ok.mpr
        (eventOf_valid hvalid (draws.eventId_ne_nil _) (Nat.succ_ne_zero _) hnow.ne'))
    rw [if_neg hsampled, if_neg hsampled]
    refine .same fun _ _ => ?_
    simp only
    rw [hevent, ok_bind]
    refine .same fun _ _ => .same fun _ _ => ?_
    rw [rejectIf_of_not (by simpa using hmem), ok_bind]
    exact .ok rfl

end Writing

section Reconciling

variable [SemVer] [Digests] {draws : Draws}

omit [Digests] in
theorem transition_agrees {task : RemoteUpdateTask} {token : Postgres.TokenUpdate}
    (hl : Orderly now l) (hpos : 0 < now) (hnow : now < 2 ^ 63)
    (hget : l.tasks.get? taskId = some row) (hactive : row.state.isTerminal = false)
    (horigin : SameOrigin (row.task taskId) task) (hchange : ValidChange now task)
    (hlease : leaseColumns task.leaseOwner (row.lease.map (·.leaseTokenSha256))
      task.leaseDeadlineUnixSeconds = .ok lease)
    (hterminal : replay.isSome = true → task.state.isTerminal = true)
    (htoken : ((row.toPostgres taskId).update task token).leaseTokenSha256
      = lease.map (·.leaseTokenSha256))
    (hreplay : ((row.toPostgres taskId).update task token).terminalReplay = replay) :
    Agree (fun l' t' => t' = l'.toPostgres)
      (do let l ← persistTaskAfterReport l task replay; appendEvent l task kind now draws)
      (do let t ← Postgres.writeTask l.toPostgres task token
          Postgres.appendEvent t task kind now draws) := by
  obtain ⟨hvalid, hcreated⟩ := hl.valid taskId row hget
  have hvalid' := hchange.valid hvalid horigin.toSameIdentity hcreated
  refine .bind (persist_agrees hl.oneActive hget hactive horigin hvalid'
    (by rw [hchange.updated]; exact hnow)
    (fun completed hmem => by rw [hchange.completed completed hmem]; exact hnow)
    hlease hterminal htoken hreplay) ?_
  rintro l1 t1 - - ⟨rfl, rfl⟩
  refine append_agrees hvalid' hpos ?_
  rw [show task.taskId = taskId from horigin.taskId]
  exact mem_insert.mpr (.inl rfl)

omit [Digests] in
theorem loseLease_agrees (hl : Orderly now l) (hpos : 0 < now) (hnow : now < 2 ^ 63)
    (hget : l.tasks.get? taskId = some row) (hleased : row.state.isLeased = true) :
    Agree (fun l' t' => t' = l'.toPostgres) (reconcileLostLease l (row.task taskId) now draws)
      (Postgres.loseLease l.toPostgres (row.task taskId) now draws) := by
  have hactive := isTerminal_of_leased hleased
  obtain ⟨howner, hdeadline⟩ := lease_applyLostLease (row.task taskId) now
  have hlease : leaseColumns (applyLostLease (row.task taskId) now).1.leaseOwner
      (row.lease.map (·.leaseTokenSha256))
      (applyLostLease (row.task taskId) now).1.leaseDeadlineUnixSeconds = .ok none := by
    rw [howner, hdeadline]
    rfl
  exact transition_agrees hl hpos hnow hget hactive (sameOrigin_applyLostLease _ _)
    (validChange_leaseLost (hl.valid taskId row hget).1 hleased) hlease (by simp) rfl
    (hl.replay_eq_none hget hactive)

theorem foldlM_agrees (draws : Draws)
    {f : Ledger → RemoteUpdateTask → Except UpdateTaskError Ledger}
    {g : Postgres.Tables → RemoteUpdateTask → Except UpdateTaskError Postgres.Tables}
    {p : TaskRow → Prop}
    (hpass : ∀ l taskId row, Orderly now l → l.tasks.get? taskId = some row → p row →
      Agree (fun l' t' => t' = l'.toPostgres) (f l (row.task taskId))
        (g l.toPostgres (row.task taskId)))
    (hmove : ∀ l taskId row l', l.tasks.get? taskId = some row → (row.task taskId).Valid →
      p row → f l (row.task taskId) = .ok l' →
      ∃ cause, (∀ request, cause ≠ .renewed request) ∧ LedgerMove now draws l (taskId, cause) l')
    (hpos : 0 < now) (hl : Orderly now l) (hnodup : (entries.map Prod.fst).Nodup)
    (hentries : ∀ entry ∈ entries, l.tasks.get? entry.1 = some entry.2 ∧ p entry.2) :
    Agree (fun l' t' => t' = l'.toPostgres)
      ((entries.map fun entry => entry.2.task entry.1).foldlM f l)
      ((entries.map fun entry => (entry.1, entry.2.toPostgres entry.1)).foldlM
        (fun t entry => do
          let task ← Postgres.taskSnapshot entry.2
          g t task) l.toPostgres) := by
  induction entries generalizing l with
  | nil => exact .ok rfl
  | cons entry entries ih =>
    obtain ⟨taskId, row⟩ := entry
    rw [List.map_cons, List.nodup_cons] at hnodup
    obtain ⟨hget, hp⟩ := hentries (taskId, row) (by simp)
    have hvalid := (hl.valid taskId row hget).1
    rw [List.map_cons, List.map_cons, List.foldlM_cons, List.foldlM_cons]
    simp only [taskSnapshot_toPostgres hvalid, ok_bind]
    refine .bind (hpass l taskId row hl hget hp) ?_
    rintro l1 t1 hfirst - rfl
    obtain ⟨cause, hcause, hstep⟩ := hmove l taskId row l1 hget hvalid hp hfirst
    have hl1 : Orderly now l1 := hstep.orderly hl hpos fun _ _ => keepsWindow_of_ne hcause
    refine ih hl1 hnodup.2 fun other hother => ?_
    -- the move was another task's
    have hne : other.1 ≠ taskId := fun heq =>
      hnodup.1 (List.mem_map.mpr ⟨other, hother, heq⟩)
    obtain ⟨hget', hp'⟩ := hentries other (by simp [hother])
    exact ⟨(hstep.get?_of_ne hne).trans hget', hp'⟩

omit [SemVer] [Digests] in
theorem deadlineBefore_toPostgres {a b : Uuid × TaskRow} (ha : a.2.lease.isSome = true)
    (hb : b.2.lease.isSome = true) :
    deadlineBefore a b ↔
      Postgres.deadlineBefore (a.1, a.2.toPostgres a.1) (b.1, b.2.toPostgres b.1) := by
  obtain ⟨first, hfirst⟩ := Option.isSome_iff_exists.mp ha
  obtain ⟨second, hsecond⟩ := Option.isSome_iff_exists.mp hb
  simp [deadlineBefore, Postgres.deadlineBefore, TaskRow.toPostgres, hfirst, hsecond]

omit [Digests] in
theorem lease_isSome (hl : Orderly now l) (hget : l.tasks.get? taskId = some row)
    (hleased : row.state.isLeased = true) : row.lease.isSome = true := by
  have hpresent := isLeased_of_valid (hl.valid taskId row hget).1
  simpa [RemoteUpdateTask.leasePresent, TaskRow.task, hleased] using hpresent

/-- **Both backends deal with the expired leases** of a client, or of all, alike. -/
theorem reconcileExpired_agrees (hl : Orderly now l) (hpos : 0 < now) (target : Option Uuid) :
    Agree (fun l' t' => t' = l'.toPostgres ∧ Orderly now l')
      (reconcileExpiredLeases l target now draws)
      (Postgres.reconcileExpired l.toPostgres target now draws) := by
  let p (row : TaskRow) : Bool := ofTarget target row && leaseExpired now row
  have hselect : l.toPostgres.select (fun row => Postgres.ofTarget target row && row.state.isLeased
      && row.leaseDeadlineUnixSeconds.all (· ≤ now)) Postgres.deadlineBefore =
      (l.select p deadlineBefore).map fun entry => (entry.1, entry.2.toPostgres entry.1) := by
    refine select_toPostgres (fun taskId row => ?_) fun a b hgeta ha hgetb hb => ?_
    · cases hlease : row.lease <;> simp [p, leaseExpired, Postgres.ofTarget, ofTarget,
        TaskRow.toPostgres, Bool.and_assoc, hlease]
    · simp only [p, leaseExpired, Bool.and_eq_true] at ha hb
      exact deadlineBefore_toPostgres (lease_isSome hl hgeta ha.2.1) (lease_isSome hl hgetb hb.2.1)
  have hloop : Agree (fun l' t' => t' = l'.toPostgres) (reconcileExpiredLeases l target now draws)
      (Postgres.reconcileExpired l.toPostgres target now draws) := by
    rw [reconcileExpiredLeases, expiredLeasedTasks, bind_assoc, Postgres.reconcileExpired, hselect]
    refine .same fun _ hnow => ?_
    rw [nowI64_eq_ok] at hnow
    rw [read_ok hl.valid p deadlineBefore, ok_bind]
    have hdue : ∀ {row : TaskRow}, p row = true → row.state.isLeased = true ∧
        ∀ columns ∈ row.lease, columns.leaseDeadlineUnixSeconds ≤ now := fun hp => by
      simpa [leaseExpired, Option.all_eq_true] using (Bool.and_eq_true_iff.mp hp).2
    refine foldlM_agrees draws (p := fun row => p row = true) (fun l taskId row hl hget hp => ?_)
      (fun l taskId row l' hget hvalid hp h => ?_) hpos hl (nodup_select p deadlineBefore)
      fun entry hentry => mem_select.mp hentry
    · exact loseLease_agrees hl hpos hnow hget (hdue hp).1
    · exact ⟨_, by simp, reconcileLostLease_move hget hvalid (hdue hp).1 (hdue hp).2 h⟩
  refine hloop.imp fun l' t' hok heq => ⟨heq, ?_⟩
  obtain ⟨ms, hrun, hms, -⟩ := reconcileExpiredLeases_moves hok
  exact orderly_of_moves hrun (fun m hm request heq => by simp [hms m hm] at heq) hl hpos

end Reconciling

end LinkLake.UpdateTasks
