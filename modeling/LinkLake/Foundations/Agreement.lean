import LinkLake.Foundations.Fallible

/-!
# Computations that agree

Two fallible computations agree up to a relation when they fail together, and otherwise end in
related values. The rules follow the program text: two programs that are written alike are
compared step by step, and each step may use what the steps before it have established.
-/

namespace LinkLake.Fallible

variable {ε ε' α β γ δ : Type}

/-- Both computations fail, or both succeed with related values. -/
def Agree (r : α → β → Prop) : Except ε α → Except ε' β → Prop
  | .ok a, .ok b => r a b
  | .error _, .error _ => True
  | _, _ => False

namespace Agree

variable {r : α → β → Prop} {s : γ → δ → Prop} {x : Except ε α} {y : Except ε' β}
  {f : α → Except ε γ} {g : β → Except ε' δ} {b : β} {a : α}

theorem ok (h : r a b) : Agree r (.ok a : Except ε α) (.ok b : Except ε' β) := h

theorem pure (h : r a b) : Agree r (Pure.pure a : Except ε α) (Pure.pure b : Except ε' β) := h

theorem error (e : ε) (e' : ε') : Agree r (.error e : Except ε α) (.error e' : Except ε' β) :=
  trivial

theorem of_failed (hx : ∀ a, x ≠ .ok a) (hy : ∀ b, y ≠ .ok b) : Agree r x y := by
  cases x with
  | error e => cases y with
    | error e' => trivial
    | ok b => exact absurd rfl (hy b)
  | ok a => exact absurd rfl (hx a)

/-- What one side returns, the other returns, too. -/
theorem of_ok_left (h : Agree r x y) (hx : x = .ok a) : ∃ b, y = .ok b ∧ r a b := by
  subst hx
  cases y with
  | error e' => exact h.elim
  | ok b => exact ⟨b, rfl, h⟩

theorem of_ok_right (h : Agree r x y) (hy : y = .ok b) : ∃ a, x = .ok a ∧ r a b := by
  subst hy
  cases x with
  | error e => exact h.elim
  | ok a => exact ⟨a, rfl, h⟩

/-- The relation may be weakened, and may be given what is known of the results. -/
theorem imp {r' : α → β → Prop} (h : Agree r x y) (himp : ∀ a b, x = .ok a → r a b → r' a b) :
    Agree r' x y := by
  cases x with
  | error e => cases y with
    | error e' => trivial
    | ok b => exact h.elim
  | ok a => cases y with
    | error e' => exact h.elim
    | ok b => exact himp a b rfl h

theorem bind (hxy : Agree r x y) (hfg : ∀ a b, x = .ok a → y = .ok b → r a b → Agree s (f a) (g b)) :
    Agree s (x >>= f) (y >>= g) := by
  cases x with
  | error e => cases y with
    | error e' => trivial
    | ok b => exact hxy.elim
  | ok a => cases y with
    | error e' => exact hxy.elim
    | ok b => exact hfg a b rfl rfl hxy

theorem same {x : Except ε α} {f : α → Except ε γ} {g : α → Except ε δ}
    (hfg : ∀ a, x = .ok a → Agree s (f a) (g a)) : Agree s (x >>= f) (x >>= g) := by
  cases x with
  | error e => trivial
  | ok a => exact hfg a rfl

theorem check {x : Except ε Unit} {y : Except ε' Unit} {f : Unit → Except ε γ}
    {g : Unit → Except ε' δ} (hxy : x = .ok () ↔ y = .ok ())
    (hfg : x = .ok () → Agree s (f ()) (g ())) : Agree s (x >>= f) (y >>= g) := by
  cases x with
  | error e => cases y with
    | error e' => trivial
    | ok b => simp at hxy
  | ok a => cases y with
    | error e' => simp at hxy
    | ok b => exact hfg rfl

theorem map {f : α → γ} {g : β → δ} (hxy : Agree r x y) (hfg : ∀ a b, r a b → s (f a) (g b)) :
    Agree s (x.map f) (y.map g) := by
  cases x <;> cases y
  · trivial
  · exact hxy.elim
  · exact hxy.elim
  · exact hfg _ _ hxy

theorem map_left {f : α → γ} {r : γ → β → Prop} (h : Agree (fun a b => r (f a) b) x y) :
    Agree r (x.map f) y := by
  cases x <;> cases y <;> exact h

/-- Agreement up to a function determines the result of one side from that of the other. -/
theorem toOption_eq {f : α → β} (h : Agree (fun a b => b = f a) x y) :
    y.toOption = x.toOption.map f := by
  cases x <;> cases y
  · rfl
  · exact h.elim
  · exact h.elim
  · exact congrArg some h

end Agree

end LinkLake.Fallible
