import LinkLake.Server.UpdateTasks.Postgres.Agreement

/-!
# The two ledgers side by side

From the agreement of the single operations: on a ledger that SQLite can reach and on the tables
that PostgreSQL holds in its place, a call is answered alike if and only if SQLite refuses it, too,
or it neither creates a task nor cuts a restart short (`backends_agree_of_run`). PostgreSQL refuses
every creation (`create_splits_backends`).
-/

namespace LinkLake.UpdateTasks

open Fallible

/-- The call neither creates a task nor cuts a restart short. -/
def sharedCall (l : Ledger) (c : Call) : Bool :=
  (match c.operation with
    | .create .. => false
    | _ => true) && keepsRestartWindow l c

section Runs

variable [SemVer] [Digests] {l : Ledger} {t : Postgres.Tables} {c : Call}

/-- A successful call of the leader in PostgreSQL, with its reply. -/
def Postgres.Step (t : Postgres.Tables) (e : Call × Reply) (t' : Postgres.Tables) : Prop :=
  Postgres.call true t e.1 = .ok (e.2, t')

/-- **Every call agrees**, on a ledger in order, unless it creates a task or cuts a restart
short. -/
theorem call_agrees (hl : Orderly c.now l) (hpos : 0 < c.now) (hnow : c.now < 2 ^ 63)
    (hshared : sharedCall l c = true) :
    Agree Corresponds (call l c) (Postgres.call true l.toPostgres c) := by
  have hreply : ∀ {α : Type} (f : α → Reply) (r : α × Ledger) (s : α × Postgres.Tables),
      Corresponds r s → Corresponds (f r.1, r.2) (f s.1, s.2) := by
    rintro α f r s rfl
    rfl
  obtain ⟨operation, now, draws⟩ := c
  cases operation with
  | create => cases hshared
  | list client limit => exact (list_agrees hl hpos client limit).map (hreply _)
  | detail taskId => exact (detail_agrees hl hpos).map (hreply _)
  | reconcileAfterRestart =>
    exact (reconcileAfterRestart_agrees hl hpos hnow).map fun _ _ h => .of_eq h
  | sweep => exact (sweep_agrees hl hpos).map fun _ _ h => .of_eq h
  | claim target request => exact (claim_agrees hl hpos hnow request).map (hreply _)
  | renew target taskId request =>
    exact (renew_agrees hl hpos hnow request fun row hget =>
      keepsWindow_of_call rfl hshared hget).map (hreply _)
  | report target taskId request => exact (report_agrees hl hpos hnow request).map (hreply _)
  | reconcile target taskId request => exact (reconcile_agrees hl hpos request).map (hreply _)
  | cancel taskId request => exact (cancel_agrees hl hpos hnow request).map (hreply _)

theorem sharedCall_of_postgres {reply : Reply} (hl : Orderly c.now l)
    (h : Postgres.Step l.toPostgres (c, reply) t) : sharedCall l c = true := by
  obtain ⟨operation, now, draws⟩ := c
  cases operation with
  | create request requestedBy targetExists =>
    obtain ⟨r, h, -⟩ := map_eq_ok.mp h
    exact absurd h create_fails
  | renew target taskId request =>
    obtain ⟨r, h, -⟩ := map_eq_ok.mp h
    simp only [Postgres.renew, assertLeader_true, ok_bind, bind_unit_eq_ok] at h
    obtain ⟨-, -, h⟩ := h
    obtain ⟨found, hfound, h⟩ := bind_eq_ok.mp h
    obtain ⟨-, -, row, hget, -, rfl⟩ := (requireTask_agrees hl).of_ok_right hfound
    simp only [bind_unit_eq_ok, rejectIf_eq_ok, not_not] at h
    obtain ⟨-, -, -, hstage, h⟩ := h
    obtain ⟨requested, hrequested, h⟩ := bind_eq_ok.mp h
    obtain ⟨-, rfl⟩ := checkedAdd_eq_ok.mp hrequested
    obtain ⟨deadline, hdeadline, h⟩ := bind_eq_ok.mp h
    obtain ⟨-, h⟩ := bind_unit_eq_ok.mp h
    obtain ⟨t1, hwrite, -⟩ := bind_eq_ok.mp h
    have hvalid :=
      RemoteUpdateTask.validate_eq_ok.mp (stored_eq_ok.mp (bind_unit_eq_ok.mp hwrite).1)
    simp only [sharedCall, keepsRestartWindow, hget, Bool.true_and, Option.all_some,
      Option.all_eq_true, decide_eq_true_eq]
    intro binding hbinding
    -- the renewed lease ends with the restart, and no later than it was asked for
    have hend := (renewed_restart (hl.valid taskId row hget).1 hstage hdeadline).2 binding hbinding
    have hsame : some deadline = some binding.resumeDeadlineUnixSeconds :=
      deadline_of_restart hvalid hbinding
    rw [Option.some.injEq] at hsame
    omega
  | _ => rfl

theorem call_agrees_iff (hl : Orderly c.now l) (hpos : 0 < c.now) (hnow : c.now < 2 ^ 63) :
    ((Postgres.call true l.toPostgres c).toOption =
        (call l c).toOption.map fun r => (r.1, r.2.toPostgres)) ↔
      ((call l c).toOption.isSome = true → sharedCall l c = true) := by
  constructor
  · intro h hok
    obtain ⟨r, hr⟩ := Option.isSome_iff_exists.mp hok
    rw [hr, Option.map_some, toOption_eq_some] at h
    exact sharedCall_of_postgres hl h
  · intro hshared
    cases hcall : call l c with
    | ok r => exact hcall ▸ (call_agrees hl hpos hnow (hshared (by rw [hcall]; rfl))).toOption_eq
    | error e =>
      cases hpostgres : Postgres.call true l.toPostgres c with
      | error e' => rfl
      | ok s =>
        have hagree := call_agrees hl hpos hnow (sharedCall_of_postgres hl hpostgres)
        obtain ⟨r, hr, -⟩ := hagree.of_ok_right hpostgres
        cases hcall.symm.trans hr

/-- A run in SQLite whose calls do not cut a restart short. -/
abbrev KeepingRun (es : List (Call × Reply)) (l : Ledger) : Prop :=
  Run (fun l e l' => Step l e l' ∧ keepsRestartWindow l e.1 = true) Ledger.empty es l

/-- A run in SQLite of calls that the backends share. -/
abbrev SharedRun (l : Ledger) (es : List (Call × Reply)) (l' : Ledger) : Prop :=
  Run (fun l e l' => Step l e l' ∧ sharedCall l e.1 = true) l es l'

theorem KeepingRun.append {es fs : List (Call × Reply)} {l' : Ledger} (hrun : KeepingRun es l)
    (hfurther : SharedRun l fs l') : KeepingRun (es ++ fs) l' :=
  Run.append hrun (hfurther.mono fun _ _ _ h => ⟨h.1, (Bool.and_eq_true_iff.mp h.2).2⟩)

/-- **The backends agree on all but the creation of tasks.** Take a ledger that SQLite reaches
without cutting a restart short, and the tables that PostgreSQL holds in its place. A call either
fails in both backends, or returns the same in both and leads to tables that correspond again, with
the same snapshots, digests of lease tokens, records of ending reports and events, if and only if
SQLite refuses it or it neither creates a task nor cuts a restart short. The runs of the leader in
PostgreSQL from these tables are the runs in SQLite of such calls. -/
theorem backends_agree_of_run {es : List (Call × Reply)} (hrun : KeepingRun es l)
    (hclock : Clocked callTime es) (hpos : ∀ e ∈ es, 0 < e.1.now) :
    (∀ c : Call, (∀ e ∈ es, e.1.now ≤ c.now) → 0 < c.now → c.now < 2 ^ 63 →
      ((Postgres.call true l.toPostgres c).toOption =
          (call l c).toOption.map (fun r => (r.1, r.2.toPostgres)) ↔
        ((call l c).toOption.isSome = true → sharedCall l c = true))) ∧
    ∀ fs t, Clocked callTime (es ++ fs) → (∀ e ∈ fs, 0 < e.1.now ∧ e.1.now < 2 ^ 63) →
      (Run Postgres.Step l.toPostgres fs t ↔ ∃ l', SharedRun l fs l' ∧ t = l'.toPostgres) := by
  refine ⟨fun c hlater hc hfits => ?_, fun fs t hclock' htimes => ?_⟩
  · exact call_agrees_iff (orderly_of_run hrun hclock hpos c.now hlater) hc hfits
  -- the past of the further run, appended to the run so far, leaves the ledger in order
  have horderly : ∀ past e l1, SharedRun l past l1 → past ++ [e] <+: fs → Orderly e.1.now l1 := by
    intro past e l1 hpast hpre
    have hinitial : (es ++ past) ++ [e] <+: es ++ fs := by
      rw [List.append_assoc]
      exact (List.prefix_append_right_inj es).mpr hpre
    refine orderly_of_run (hrun.append hpast)
      (hclock'.of_initial ((List.prefix_append _ [e]).trans hinitial)) ?_ e.1.now
      (now_le_of_clocked hclock' hinitial)
    intro e' he'
    refine (List.mem_append.mp he').elim (hpos e') fun hpast' => (htimes e' ?_).1
    exact hpre.subset (List.mem_append_left _ hpast')
  constructor
  · refine Run.history (I := fun past t => ∃ l', SharedRun l past l' ∧ t = l'.toPostgres)
      ⟨l, .nil _, rfl⟩ ?_
    rintro past _ e t' - hpre ⟨l1, hpast, rfl⟩ hstep
    have hl := horderly past e l1 hpast hpre
    have htime := htimes e (hpre.subset (by simp))
    have hshared := sharedCall_of_postgres hl hstep
    obtain ⟨r, hcall, hr⟩ := (call_agrees hl htime.1 htime.2 hshared).of_ok_right hstep
    obtain ⟨hreply, rfl⟩ := Prod.mk.inj hr
    exact ⟨r.2, hpast.snoc ⟨by rw [Step, hcall, hreply], hshared⟩, rfl⟩
  · rintro ⟨l', hfurther, rfl⟩
    refine Run.history (I := fun past l1 => Run Postgres.Step l.toPostgres past l1.toPostgres)
      (.nil _) ?_ hfurther
    intro past l1 e l2 hpast hpre ih hstep
    have hl := horderly past e l1 hpast hpre
    have htime := htimes e (hpre.subset (by simp))
    obtain ⟨s, hcall, hs⟩ := (call_agrees hl htime.1 htime.2 hstep.2).of_ok_left hstep.1
    exact ih.snoc (by rw [Postgres.Step, hcall, hs])

end Runs

open Sample in
/-- A worker that renews shortly before its time for the restart ends is answered alike. -/
theorem backends_agree_of_run_resumed :
    ∃ es l reply l', KeepingRun es l ∧ Clocked callTime es ∧ (∀ e ∈ es, 0 < e.1.now) ∧
      (call l (renewAs .awaitingRestart 300 2600 4)).toOption = some (reply, l') ∧
      (Postgres.call true l.toPostgres (renewAs .awaitingRestart 300 2600 4)).toOption =
        some (reply, l'.toPostgres) ∧
      Run Postgres.Step l.toPostgres [(renewAs .awaitingRestart 300 2600 4, reply)]
        l'.toPostgres := by
  have h : ∃ x ∈ perform call (fun l e => keepsRestartWindow l e.1 = true) Ledger.empty
      untilRestart, Clocked callTime x.1 ∧ (∀ e ∈ x.1, 0 < e.1.now ∧ e.1.now ≤ 2600) ∧
        sharedCall x.2 (renewAs .awaitingRestart 300 2600 4) = true ∧
        ∃ r ∈ (call x.2 (renewAs .awaitingRestart 300 2600 4)).toOption,
          Clocked callTime (x.1 ++ [(renewAs .awaitingRestart 300 2600 4, r.1)]) := by
    decide +kernel
  obtain ⟨⟨es, l⟩, hcalls, hclock, htimes, hshared, ⟨reply, l'⟩, hok, hclock'⟩ := h
  have hrun := Run.of_perform hcalls
  have hpos := fun e he => (htimes e he).1
  obtain ⟨hagree, hruns⟩ := backends_agree_of_run hrun hclock hpos
  have hsame := (hagree (renewAs .awaitingRestart 300 2600 4)
    (fun e he => (htimes e he).2) (by decide) (by decide)).mpr fun _ => hshared
  rw [Option.mem_def.mp hok] at hsame
  refine ⟨es, l, reply, l', hrun, hclock, hpos, hok, hsame, ?_⟩
  refine (hruns _ _ hclock' ?_).mpr ⟨l', .single ⟨toOption_eq_some.mp hok, hshared⟩, rfl⟩
  intro e he
  rw [List.mem_singleton.mp he]
  exact show 0 < 2600 ∧ 2600 < 2 ^ 63 by decide

open Sample in
/-- **A creation splits the backends.** SQLite stores the task; PostgreSQL refuses the lock that the
creation asks for. -/
theorem create_splits_backends :
    (call Ledger.empty (createApply 1000 0)).toOption.isSome = true ∧
      Postgres.call true Postgres.Tables.empty (createApply 1000 0) = .error .storage ∧
      Postgres.Tables.empty = Ledger.empty.toPostgres := by
  refine ⟨by decide +kernel, by decide +kernel, rfl⟩

end LinkLake.UpdateTasks
