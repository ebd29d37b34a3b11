import Mathlib

/-!
# Hysteresis

A switch that is fed with good and bad readings. It goes on after `s` good readings in a row, and off
after `f` bad ones in a row; otherwise it stays as it is.

`On` says, of the readings as a whole, when the switch is on: somewhere there are `s` good readings in
a row, and behind them nowhere `f` bad ones in a row. `on_concat_true` and `on_concat_false` say what
one more reading does to it, in terms of the run at the end of the readings (`trailing`). This is the
rule that a program follows with two counters.

`LastChange` marks the last reading at which something changed.
-/

namespace LinkLake.Hysteresis

variable {s f n : ℕ} {b : Bool} {l : List Bool}

/-! ## The run at the end -/

/-- How many readings `b` stand in a row at the end. -/
def trailing (b : Bool) (l : List Bool) : ℕ := (l.rtakeWhile (· == b)).length

@[simp] theorem trailing_nil : trailing b [] = 0 := rfl

@[simp] theorem trailing_concat_self : trailing b (l ++ [b]) = trailing b l + 1 := by
  simp [trailing]

@[simp] theorem trailing_concat_not : trailing b (l ++ [!b]) = 0 := by
  unfold trailing
  rw [List.rtakeWhile_concat_neg]
  · rfl
  · simp

theorem trailing_singleton (x : Bool) : trailing b [x] = if x = b then 1 else 0 := by
  by_cases hx : x = b
  · subst hx
    simp [trailing, List.rtakeWhile]
  · simp [trailing, List.rtakeWhile, hx]

/-- The run at the end does not see past another reading. -/
theorem trailing_append_not (a t : List Bool) : trailing b (a ++ [!b] ++ t) = trailing b t := by
  induction t using List.reverseRecOn with
  | nil => simp
  | append_singleton t x ih =>
    rw [← List.append_assoc]
    by_cases hx : x = b
    · subst hx
      rw [trailing_concat_self, trailing_concat_self, ih]
    · obtain rfl : x = !b := by
        cases x <;> cases b <;> simp_all
      rw [trailing_concat_not, trailing_concat_not]

theorem replicate_suffix_iff : List.replicate n b <:+ l ↔ n ≤ trailing b l := by
  induction l using List.reverseRecOn generalizing n with
  | nil => cases n <;> simp
  | append_singleton l x ih =>
    cases n with
    | zero => simp
    | succ n =>
      rw [List.replicate_succ', List.suffix_concat_iff]
      by_cases hx : x = b
      · subst hx
        simp [ih]
      · obtain rfl : x = !b := by
          cases x <;> cases b <;> simp_all
        simp

/-! ## The switch -/

/-- Somewhere there are `s` good readings in a row, and behind them nowhere `f` bad ones. -/
def On (s f : ℕ) (l : List Bool) : Prop :=
  ∃ before after, l = before ++ List.replicate s true ++ after ∧ ¬ List.replicate f false <:+: after

theorem not_on_nil (hs : 0 < s) : ¬ On s f [] := by
  rintro ⟨before, after, hl, -⟩
  have := congrArg List.length hl
  simp at this
  omega

/-- A good reading switches on if it completes a run of good ones. -/
theorem on_concat_true (hf : 0 < f) :
    On s f (l ++ [true]) ↔ On s f l ∨ s ≤ trailing true (l ++ [true]) := by
  constructor
  · rintro ⟨before, after, hl, hafter⟩
    induction after using List.reverseRecOn with
    | nil =>
      right
      rw [← replicate_suffix_iff, hl, List.append_nil]
      exact List.suffix_append _ _
    | append_singleton after x _ =>
      rw [← List.append_assoc] at hl
      obtain ⟨hl, -⟩ := List.append_inj' hl rfl
      exact .inl ⟨before, after, hl, fun h => hafter (h.trans (List.prefix_append _ _).isInfix)⟩
  · rintro (⟨before, after, rfl, hafter⟩ | hrun)
    · refine ⟨before, after ++ [true], by simp, fun h => ?_⟩
      rcases List.infix_concat_iff.mp h with h | h
      · -- a run of bad readings does not end with a good one
        rw [replicate_suffix_iff] at h
        have : trailing false (after ++ [true]) = 0 := trailing_concat_not
        omega
      · exact hafter h
    · obtain ⟨before, hl⟩ := replicate_suffix_iff.mpr hrun
      refine ⟨before, [], by simp [hl], fun h => ?_⟩
      have := h.length_le
      simp at this
      omega

/-- A bad reading switches off if it completes a run of bad ones. -/
theorem on_concat_false (hs : 0 < s) :
    On s f (l ++ [false]) ↔ On s f l ∧ trailing false (l ++ [false]) < f := by
  constructor
  · rintro ⟨before, after, hl, hafter⟩
    have hgood : ¬ List.replicate s true <:+ l ++ [false] := by
      rw [replicate_suffix_iff]
      have : trailing true (l ++ [false]) = 0 := trailing_concat_not
      omega
    induction after using List.reverseRecOn with
    | nil =>
      rw [List.append_nil] at hl
      exact absurd ⟨before, hl.symm⟩ hgood
    | append_singleton after x _ =>
      have hl' := hl
      rw [← List.append_assoc] at hl'
      obtain ⟨hl', -⟩ := List.append_inj' hl' rfl
      refine ⟨⟨before, after, hl', fun h => hafter (h.trans (List.prefix_append _ _).isInfix)⟩, ?_⟩
      -- the run at the end lies behind the good readings
      obtain ⟨m, rfl⟩ : ∃ m, s = m + 1 := ⟨s - 1, by omega⟩
      have hlast : l ++ [false] = before ++ List.replicate m true ++ [!false] ++ (after ++ [x]) := by
        rw [hl, List.replicate_succ']
        simp
      rw [hlast, trailing_append_not]
      by_contra hlong
      exact hafter (replicate_suffix_iff.mpr (Nat.le_of_not_lt hlong)).isInfix
  · rintro ⟨⟨before, after, rfl, hafter⟩, hshort⟩
    refine ⟨before, after ++ [false], by simp, fun h => ?_⟩
    rcases List.infix_concat_iff.mp h with h | h
    · have hend : List.replicate f false <:+
          before ++ List.replicate s true ++ after ++ [false] := by
        rw [List.append_assoc]
        exact h.trans (List.suffix_append _ _)
      rw [replicate_suffix_iff] at hend
      omega
    · exact hafter h

/-! ## Changes -/

section

variable {β : Type*} {p : List β → Prop} {t : List β} {o x : β}

/-- The element `o` is the first one, or `p` changed when it came, and nothing has changed since. -/
def LastChange (p : List β → Prop) (t : List β) (o : β) : Prop :=
  ∃ before after, t = before ++ o :: after ∧ (before = [] ∨ ¬ (p before ↔ p (before ++ [o]))) ∧
    ∀ mid x rest, after = mid ++ x :: rest →
      (p (before ++ o :: mid) ↔ p (before ++ o :: mid ++ [x]))

theorem lastChange_singleton : LastChange p [o] o :=
  ⟨[], [], rfl, .inl rfl, fun mid x rest h => by simp at h⟩

theorem lastChange_concat (h : ¬ (p t ↔ p (t ++ [x]))) : LastChange p (t ++ [x]) x :=
  ⟨t, [], rfl, .inr h, fun mid x rest h => by simp at h⟩

theorem LastChange.concat (h : LastChange p t o) (hp : p t ↔ p (t ++ [x])) :
    LastChange p (t ++ [x]) o := by
  obtain ⟨before, after, rfl, hbefore, hafter⟩ := h
  refine ⟨before, after ++ [x], by simp, hbefore, fun mid y rest heq => ?_⟩
  induction rest using List.reverseRecOn with
  | nil =>
    obtain ⟨rfl, hy⟩ := List.append_inj' heq rfl
    obtain rfl : x = y := by simpa using hy
    simpa using hp
  | append_singleton rest z _ =>
    rw [← List.cons_append, ← List.append_assoc] at heq
    obtain ⟨heq, -⟩ := List.append_inj' heq rfl
    exact hafter mid y rest heq

end

end LinkLake.Hysteresis
