import LinkLake.Foundations.Runs

/-!
# Fencing tokens

An authority grants a privilege to one holder at a time. Every grant has a token of its own, taken
from a sequence that only goes up, so that whoever guards a resource can tell an old grant from
the current one. Leases on resources are acquired under the current grant, and carry it.

* `Authority.Move` is what may happen to the authority, and `LeaseMove` what may happen to a table
  of leases.
* `Authority.grants_of_run`: the grants that a run issues have increasing tokens, and none of them
  comes after the current one.
* `fenced_of_run`: no lease is newer than the current grant, and a lease with its token is the
  holder's own.
* `superseded_of_run`: a lease that was replaced does not come back.
-/

namespace LinkLake

/-- Who holds the privilege, and under which token. -/
structure Grant (ω : Type*) where
  holder : ω
  token : ℕ
  deriving DecidableEq, Repr

namespace Grant

variable {ω : Type*} {g g1 g2 : Grant ω}

/-- The second grant is the first one, or has a later token. -/
def Precedes (g1 g2 : Grant ω) : Prop := g1 = g2 ∨ g1.token < g2.token

theorem Precedes.refl (g : Grant ω) : g.Precedes g := .inl rfl

theorem Precedes.token_le (h : g1.Precedes g2) : g1.token ≤ g2.token := by
  obtain rfl | hlt := h
  · exact le_rfl
  · exact hlt.le

/-- Grants with one token are one grant. -/
theorem Precedes.eq_of_token_eq (h : g1.Precedes g2) (htoken : g1.token = g2.token) : g1 = g2 :=
  h.resolve_right htoken.not_lt

end Grant

/-- The last grant, which may have lapsed, and the next token. -/
structure Authority (ω : Type*) where
  grant : Option (Grant ω)
  next : ℕ

namespace Authority

variable {ω : Type*} {a a' : Authority ω} {g : Grant ω}

/-- The authority stays as it is, or issues the next token. -/
inductive Move : Authority ω → Authority ω → Prop
  | keep (a : Authority ω) : Move a a
  | issue (a : Authority ω) (holder : ω) : Move a ⟨some ⟨holder, a.next⟩, a.next + 1⟩

/-- The next token has not been used. -/
def Bounded (a : Authority ω) : Prop := ∀ g, a.grant = some g → g.token < a.next

/-- The grant is the current one, or an earlier one. -/
def Knows (a : Authority ω) (g : Grant ω) : Prop := ∃ g', a.grant = some g' ∧ g.Precedes g'

theorem Bounded.move (h : a.Bounded) (hmove : Move a a') : a'.Bounded := by
  cases hmove with
  | keep => exact h
  | issue holder =>
    intro g hg
    cases hg
    exact Nat.lt_succ_self _

/-- What the authority has granted stays an earlier grant. -/
theorem Knows.move (h : a.Knows g) (hbounded : a.Bounded) (hmove : Move a a') : a'.Knows g := by
  cases hmove with
  | keep => exact h
  | issue holder =>
    obtain ⟨g', hg', hprecedes⟩ := h
    exact ⟨_, rfl, .inr (hprecedes.token_le.trans_lt (hbounded g' hg'))⟩

theorem Knows.token_le {g' : Grant ω} (h : a.Knows g) (hg' : a.grant = some g') :
    g.token ≤ g'.token := by
  obtain ⟨g'', hg'', hprecedes⟩ := h
  obtain rfl : g'' = g' := Option.some.inj (hg''.symm.trans hg')
  exact hprecedes.token_le

section Runs

variable {σ ε : Type*} {step : σ → ε → σ → Prop} {authority : σ → Authority ω}
  {issued : ε → Option (Grant ω)} {s s' : σ} {es : List ε}

variable (hmove : ∀ s e s', step s e s' → Move (authority s) (authority s'))
include hmove

theorem bounded_of_run
    (hrun : Run step s es s') (hs : (authority s).Bounded) : (authority s').Bounded :=
  hrun.invariant (I := fun s => (authority s).Bounded)
    (fun s e s' h hstep => h.move (hmove s e s' hstep)) hs

/-- **The grants of a run.** They are grants of the authority at the end, and two of them with one
token are the same; `issued` gives the grant that the reply of an event mentions. -/
theorem grants_of_run
    (hissued : ∀ s e s' g, step s e s' → issued e = some g → (authority s').grant = some g)
    (hrun : Run step s es s') (hs : (authority s).Bounded) :
    (∀ g ∈ es.filterMap issued, (authority s').Knows g) ∧
      ∀ g1 ∈ es.filterMap issued, ∀ g2 ∈ es.filterMap issued, g1.token = g2.token → g1 = g2 := by
  refine hrun.history (I := fun es s' => (∀ g ∈ es.filterMap issued, (authority s').Knows g) ∧
    ∀ g1 ∈ es.filterMap issued, ∀ g2 ∈ es.filterMap issued, g1.token = g2.token → g1 = g2)
    (by simp) ?_
  intro past s1 e s2 hpast _ ih hstep
  have hbounded := bounded_of_run hmove hpast hs
  have hknows : ∀ g ∈ past.filterMap issued, (authority s2).Knows g := fun g hg =>
    (ih.1 g hg).move hbounded (hmove _ _ _ hstep)
  have hsplit : ∀ g ∈ (past ++ [e]).filterMap issued,
      g ∈ past.filterMap issued ∨ (authority s2).grant = some g := by
    intro g hg
    obtain ⟨e', he', hsome⟩ := List.mem_filterMap.mp hg
    obtain hold | rfl := List.mem_append.mp he' |>.imp_right List.mem_singleton.mp
    · exact .inl (List.mem_filterMap.mpr ⟨e', hold, hsome⟩)
    · exact .inr (hissued _ _ _ g hstep hsome)
  -- a grant of the past precedes the current one, so with its token it is the current one
  have hcurrent : ∀ g1 ∈ past.filterMap issued, ∀ g2, (authority s2).grant = some g2 →
      g1.token = g2.token → g1 = g2 := by
    intro g1 hg1 g2 hg2 htoken
    obtain ⟨g', hg', hprecedes⟩ := hknows g1 hg1
    obtain rfl : g' = g2 := Option.some.inj (hg'.symm.trans hg2)
    exact hprecedes.eq_of_token_eq htoken
  refine ⟨fun g hg => ?_, fun g1 hg1 g2 hg2 htoken => ?_⟩
  · obtain hold | hnew := hsplit g hg
    · exact hknows g hold
    · exact ⟨g, hnew, .refl g⟩
  · obtain hold1 | hnew1 := hsplit g1 hg1 <;> obtain hold2 | hnew2 := hsplit g2 hg2
    · exact ih.2 g1 hold1 g2 hold2 htoken
    · exact hcurrent g1 hold1 g2 hnew2 htoken
    · exact (hcurrent g2 hold2 g1 hnew1 htoken.symm).symm
    · exact Option.some.inj (hnew1.symm.trans hnew2)

end Runs

end Authority

/-! ## Leases -/

/-- A lease, with the grant under which it was acquired. -/
structure Lease (ι ω : Type*) where
  id : ι
  grant : Grant ω

section Leases

variable {κ ι ω : Type*} {a : Authority ω} {t t' : κ → Option (Lease ι ω)}

/-- What may happen to a table of leases: leases go away, or one is acquired, under the current
grant, in the place of the one that was there. -/
inductive LeaseMove (a : Authority ω) (t t' : κ → Option (Lease ι ω)) : Option (κ × ι) → Prop
  | shrink (h : ∀ k l, t' k = some l → t k = some l) : LeaseMove a t t' none
  | acquire {k : κ} {id : ι} {g : Grant ω} (hgrant : a.grant = some g)
      (hnew : t' k = some ⟨id, g⟩) (hold : ∀ j ≠ k, t' j = t j) : LeaseMove a t t' (some (k, id))

/-- Every lease belongs to the current grant, or to an earlier one. -/
def Fenced (a : Authority ω) (t : κ → Option (Lease ι ω)) : Prop :=
  ∀ k l, t k = some l → a.Knows l.grant

theorem Fenced.move {acquired : Option (κ × ι)} (h : Fenced a t)
    (hmove : LeaseMove a t t' acquired) : Fenced a t' := by
  cases hmove with
  | shrink hkept => exact fun k l hl => h k l (hkept k l hl)
  | acquire hgrant hnew hold =>
    rename_i k id g
    intro j l hl
    by_cases hj : j = k
    · rw [hj, hnew] at hl
      cases hl
      exact ⟨g, hgrant, .refl g⟩
    · rw [hold j hj] at hl
      exact h j l hl

variable {σ ε : Type*} {step : σ → ε → σ → Prop} {authority : σ → Authority ω}
  {table : σ → κ → Option (Lease ι ω)} {acquired : ε → Option (κ × ι)} {s s' : σ} {es : List ε}

/-- **Every lease is fenced, in every run.** -/
theorem fenced_of_run (hmove : ∀ s e s', step s e s' → Authority.Move (authority s) (authority s'))
    (htable : ∀ s e s', step s e s' → LeaseMove (authority s) (table s) (table s') (acquired e))
    (hrun : Run step s es s') (hbounded : (authority s).Bounded)
    (hs : Fenced (authority s) (table s)) : Fenced (authority s') (table s') := by
  refine (hrun.invariant (I := fun s => (authority s).Bounded ∧ Fenced (authority s) (table s))
    ?_ ⟨hbounded, hs⟩).2
  rintro s e s' ⟨hbounded, h⟩ hstep
  refine ⟨hbounded.move (hmove s e s' hstep), fun k l hl => ?_⟩
  exact ((h.move (htable s e s' hstep)) k l hl).move hbounded (hmove s e s' hstep)

variable (htable : ∀ s e s', step s e s' → LeaseMove (authority s) (table s) (table s') (acquired e))
include htable

variable {l : Lease ι ω}

/-- A lease was there before the run, or the run acquired it. -/
theorem lease_of_run (hrun : Run step s es s') {k : κ} (hl : table s' k = some l) :
    table s k = some l ∨ (k, l.id) ∈ es.filterMap acquired := by
  induction hrun with
  | nil => exact .inl hl
  | @cons s s1 s' e es hstep _ ih =>
    obtain hold | hnew := ih hl
    · have hcase := htable s e s1 hstep
      cases hacquired : acquired e with
      | none =>
        rw [hacquired] at hcase
        cases hcase with
        | shrink hkept => exact .inl (hkept k l hold)
      | some p =>
        rw [hacquired] at hcase
        cases hcase with
        | @acquire k' id g hgrant hnew hother =>
          by_cases hk : k = k'
          · subst hk
            cases hold.symm.trans hnew
            exact .inr (List.mem_filterMap.mpr ⟨e, by simp, hacquired⟩)
          · exact .inl ((hother k hk).symm.trans hold)
    · obtain ⟨e', he', hnew⟩ := List.mem_filterMap.mp hnew
      exact .inr (List.mem_filterMap.mpr ⟨e', by simp [he'], hnew⟩)

/-- **A lease that was replaced does not come back**, if no identifier is drawn twice. -/
theorem superseded_of_run {past between future : List ε} {e1 e2 : ε} {k : κ} {i1 i2 : ι}
    (hrun : Run step s (past ++ e1 :: (between ++ e2 :: future)) s')
    (hfresh : (((past ++ e1 :: (between ++ e2 :: future)).filterMap acquired).map Prod.snd).Nodup)
    (h1 : acquired e1 = some (k, i1)) (h2 : acquired e2 = some (k, i2))
    (hl : table s' k = some l) : l.id ≠ i1 := by
  obtain ⟨s1, -, hrun⟩ := Run.of_append hrun
  obtain ⟨s2, -, hrun⟩ := Run.of_cons hrun
  obtain ⟨s3, -, hrun⟩ := Run.of_append hrun
  obtain ⟨s4, hstep, hfuture⟩ := Run.of_cons hrun
  have hlater : (k, l.id) ∈ (between ++ e2 :: future).filterMap acquired := by
    rw [List.filterMap_append, List.mem_append]
    right
    obtain hnow | hnew := lease_of_run htable hfuture hl
    · have hcase := htable s3 e2 s4 hstep
      rw [h2] at hcase
      cases hcase with
      | acquire hgrant hnew hother =>
        cases hnow.symm.trans hnew
        exact List.mem_filterMap.mpr ⟨e2, by simp, h2⟩
    · obtain ⟨e', he', hnew⟩ := List.mem_filterMap.mp hnew
      exact List.mem_filterMap.mpr ⟨e', by simp [he'], hnew⟩
  rintro rfl
  rw [List.filterMap_append, List.filterMap_cons, h1, List.map_append, List.map_cons,
    List.nodup_append] at hfresh
  have hnodup := (List.nodup_cons.mp hfresh.2.1).1
  exact hnodup (List.mem_map.mpr ⟨_, hlater, rfl⟩)

end Leases

end LinkLake
