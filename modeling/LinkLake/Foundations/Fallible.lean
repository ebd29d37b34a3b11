import Mathlib

/-!
# Fallible computations

Inversion rules for computations in `Except`: what a successful sequence, traversal or loop says
about its parts. Modelled functions are written with `do`, and proofs about them take a success
apart with `bind_eq_ok` and put one together again from its parts.
-/

namespace LinkLake.Fallible

variable {ε α β γ : Type} {b : β} {e : ε} {f : α → Except ε β} {x : Except ε α} {xs : List α}
  {ys : List β} {o : Option α} {g : α → β}

/-- A sequence succeeds when its first part does and the rest does on that value. -/
theorem bind_eq_ok : (x >>= f) = .ok b ↔ ∃ a, x = .ok a ∧ f a = .ok b := by
  cases x with
  | error e => simp [bind, Except.bind]
  | ok a => simp [bind, Except.bind]

theorem pure_eq_ok {a b : α} : (pure a : Except ε α) = .ok b ↔ a = b := by
  simp [pure, Except.pure]

theorem pair_eq_ok {a c : α} {b d : β} :
    (pure (a, b) : Except ε (α × β)) = .ok (c, d) ↔ a = c ∧ b = d := pure_eq_ok.trans Prod.mk_inj

theorem toOption_eq_some {a : α} : x.toOption = some a ↔ x = .ok a := by
  cases x <;> simp [Except.toOption]

theorem map_eq_ok {f : α → β} : x.map f = .ok b ↔ ∃ a, x = .ok a ∧ f a = b := by
  cases x <;> simp [Except.map]

theorem map_fst_eq_ok {x : Except ε (α × γ)} {c : γ} :
    x.map (fun r => (g r.1, r.2)) = .ok (b, c) ↔ ∃ a, x = .ok (a, c) ∧ g a = b := by
  cases x <;> simp [Except.map, Prod.ext_iff, and_comm]

theorem map_eq_error {f : α → β} : x.map f = .error e ↔ x = .error e := by
  cases x <;> simp [Except.map]

/-- A sequence fails as its first part does, or as the rest does on that value. -/
theorem bind_eq_error : (x >>= f) = .error e ↔ x = .error e ∨ ∃ a, x = .ok a ∧ f a = .error e := by
  cases x with
  | error e' => simp [bind, Except.bind]
  | ok a => simp [bind, Except.bind]

@[simp] theorem ok_bind (a : α) (f : α → Except ε β) : (Except.ok a >>= f) = f a := rfl

@[simp] theorem error_bind (e : ε) (f : α → Except ε β) : (Except.error e >>= f) = .error e := rfl

/-- Reject with `e` when the condition holds. -/
def rejectIf (c : Prop) [Decidable c] (e : ε) : Except ε Unit := if c then .error e else .ok ()

@[simp] theorem rejectIf_eq_ok {c : Prop} [Decidable c] {e : ε} {u : Unit} :
    rejectIf c e = .ok u ↔ ¬ c := by
  by_cases hc : c <;> simp [rejectIf, hc]

theorem rejectIf_of_not {c : Prop} [Decidable c] (h : ¬ c) : rejectIf c e = .ok () :=
  rejectIf_eq_ok.mpr h

/-- The value of an option, or rejection with `e`. -/
def okOr (o : Option α) (e : ε) : Except ε α :=
  match o with
  | some a => .ok a
  | none => .error e

@[simp] theorem okOr_some (a : α) (e : ε) : okOr (some a) e = .ok a := rfl

@[simp] theorem okOr_none (e : ε) : okOr (none : Option α) e = .error e := rfl

@[simp] theorem okOr_eq_ok {e : ε} {a : α} : okOr o e = .ok a ↔ o = some a := by
  cases o <;> simp [okOr]

@[simp] theorem elim_pure_eq_ok {f : α → Except ε Unit} {u : Unit} :
    o.elim (pure ()) f = .ok u ↔ ∀ a ∈ o, f a = .ok () := by
  cases o <;> simp [pure, Except.pure]

/-- A sequence of checks succeeds when both parts do. -/
theorem bind_unit_eq_ok {x : Except ε Unit} {f : Unit → Except ε β} :
    (x >>= f) = .ok b ↔ x = .ok () ∧ f () = .ok b :=
  bind_eq_ok.trans ⟨fun ⟨(), h⟩ => h, fun h => ⟨(), h⟩⟩

/-- A traversal succeeds when it succeeds at every element. -/
theorem mapM_eq_ok_iff : xs.mapM f = .ok ys ↔ List.Forall₂ (fun x y => f x = .ok y) xs ys := by
  induction xs generalizing ys with
  | nil => cases ys <;> simp [pure, Except.pure]
  | cons x xs ih =>
    rw [List.mapM_cons, bind_eq_ok]
    constructor
    · rintro ⟨y, hy, h⟩
      obtain ⟨rest, hrest, h⟩ := bind_eq_ok.mp h
      cases h
      exact .cons hy (ih.mp hrest)
    · intro h
      cases h with
      | cons hy hrest => exact ⟨_, hy, bind_eq_ok.mpr ⟨_, ih.mpr hrest, rfl⟩⟩

/-- A traversal that succeeds at every element is a map. -/
theorem mapM_eq_ok_map (h : ∀ x ∈ xs, f x = .ok (g x)) : xs.mapM f = .ok (xs.map g) := by
  rw [mapM_eq_ok_iff, List.forall₂_map_right_iff, List.forall₂_same]
  exact h

/-- A successful traversal succeeded at each of its elements. -/
theorem exists_ok_of_mem
    (h : xs.mapM f = .ok ys) {x : α} (hx : x ∈ xs) : ∃ y ∈ ys, f x = .ok y := by
  rw [mapM_eq_ok_iff] at h
  induction h with
  | nil => simp at hx
  | cons hy _ ih =>
    rcases List.mem_cons.mp hx with rfl | hx
    · exact ⟨_, by simp, hy⟩
    · obtain ⟨y, hmem, hfy⟩ := ih hx
      exact ⟨y, by simp [hmem], hfy⟩

/-- Every result of a successful traversal comes from one of its elements. -/
theorem exists_mem_of_ok
    (h : xs.mapM f = .ok ys) {y : β} (hy : y ∈ ys) : ∃ x ∈ xs, f x = .ok y := by
  rw [mapM_eq_ok_iff] at h
  induction h with
  | nil => simp at hy
  | cons hx _ ih =>
    rcases List.mem_cons.mp hy with rfl | hy
    · exact ⟨_, by simp, hx⟩
    · obtain ⟨x, hmem, hfx⟩ := ih hy
      exact ⟨x, by simp [hmem], hfx⟩

/-- **The loop rule.** What holds before the loop and is kept by every successful pass holds
after it; the invariant may depend on the elements still to come. -/
theorem foldlM_invariant {f : β → α → Except ε β} {I : List α → β → Prop}
    (hstep : ∀ x xs b b', I (x :: xs) b → f b x = .ok b' → I xs b')
    {b' : β} (h : xs.foldlM f b = .ok b') (h0 : I xs b) : I [] b' := by
  induction xs generalizing b with
  | nil =>
    cases h
    exact h0
  | cons x xs ih =>
    rw [List.foldlM_cons] at h
    obtain ⟨b1, h1, h⟩ := bind_eq_ok.mp h
    exact ih h (hstep x xs b b1 h0 h1)

/-! ## Postconditions -/

/-- A computation ends in `post` when it succeeds, and fails only as `fail` allows. -/
def Ensures (x : Except ε α) (post : α → Prop) (fail : ε → Prop) : Prop :=
  match x with
  | .ok a => post a
  | .error e => fail e

section Ensures

variable {post : α → Prop} {post' : β → Prop} {fail : ε → Prop} {a : α}

@[simp] theorem ensures_ok : Ensures (.ok a : Except ε α) post fail ↔ post a := Iff.rfl

@[simp] theorem ensures_pure : Ensures (pure a : Except ε α) post fail ↔ post a := Iff.rfl

@[simp] theorem ensures_error : Ensures (.error e : Except ε α) post fail ↔ fail e := Iff.rfl

theorem Ensures.bind (hx : Ensures x post fail) (hf : ∀ a, post a → Ensures (f a) post' fail) :
    Ensures (x >>= f) post' fail := by
  cases x with
  | ok a => exact hf a hx
  | error e => exact hx

/-- The loop rule: an invariant that every pass ensures is ensured by the loop. -/
theorem Ensures.foldlM {f : β → α → Except ε β} {inv : β → Prop}
    (hf : ∀ b a, inv b → Ensures (f b a) inv fail) (xs : List α) {b : β} (h0 : inv b) :
    Ensures (xs.foldlM f b) inv fail := by
  induction xs generalizing b with
  | nil => exact h0
  | cons x xs ih =>
    rw [List.foldlM_cons]
    exact (hf b x h0).bind fun b' hb' => ih hb'

theorem Ensures.of_ok (h : Ensures x post fail) (hx : x = .ok a) : post a := by
  subst hx
  exact h

theorem Ensures.of_error (h : Ensures x post fail) (hx : x = .error e) : fail e := by
  subst hx
  exact h

end Ensures

end LinkLake.Fallible
