import Mathlib

/-!
# Choosing by weight

Slots are dealt out to the entries of a list, each taking as many as its weight says. Walking the list
with a slot number finds the entry that the slot belongs to (`pick`), and over any stretch of numbers as
long as the sum of the weights every entry is found as often as its weight says (`card_pick`).
-/

namespace LinkLake.WeightedChoice

/-- The entry that the slot belongs to. -/
def pick : List ℕ → ℕ → Option ℕ
  | [], _ => none
  | weight :: weights, slot =>
    if slot < weight then some 0 else (pick weights (slot - weight)).map (· + 1)

variable {weights : List ℕ} {slot i : ℕ}

theorem isSome_pick (h : slot < weights.sum) : (pick weights slot).isSome = true := by
  induction weights generalizing slot with
  | nil => simp at h
  | cons weight weights ih =>
    rw [pick]
    split
    · rfl
    · rw [List.sum_cons] at h
      rw [Option.isSome_map]
      exact ih (by omega)

theorem lt_of_pick (h : pick weights slot = some i) : i < weights.length := by
  induction weights generalizing slot i with
  | nil => cases h
  | cons weight weights ih =>
    rw [pick] at h
    split at h
    · cases h
      exact Nat.zero_lt_succ _
    · obtain ⟨j, hj, rfl⟩ := Option.map_eq_some_iff.mp h
      exact Nat.succ_lt_succ (ih hj)

theorem pick_add (weight : ℕ) (weights : List ℕ) (slot : ℕ) :
    pick (weight :: weights) (weight + slot) = (pick weights slot).map (· + 1) := by
  rw [pick, if_neg (by omega), Nat.add_sub_cancel_left]

/-- Every entry has as many slots as its weight says. -/
theorem count_pick (hi : i < weights.length) :
    Nat.count (fun slot => pick weights slot = some i) weights.sum = weights[i] := by
  induction weights generalizing i with
  | nil => simp at hi
  | cons weight weights ih =>
    simp only [List.sum_cons, Nat.count_add, pick_add]
    cases i with
    | zero =>
      have hfirst : Nat.count (fun slot => pick (weight :: weights) slot = some 0) weight = weight :=
        Nat.count_iff_forall.mpr fun slot hslot => by rw [pick, if_pos hslot]
      have hrest : ∀ slot, ¬ (pick weights slot).map (· + 1) = some 0 := by simp
      simp [hfirst, hrest]
    | succ i =>
      have hfirst : Nat.count (fun slot => pick (weight :: weights) slot = some (i + 1)) weight = 0 :=
        Nat.count_iff_forall_not.mpr fun slot hslot => by simp [pick, if_pos hslot]
      have hrest : ∀ slot, (pick weights slot).map (· + 1) = some (i + 1) ↔
          pick weights slot = some i := by simp
      simp only [hfirst, hrest, Nat.zero_add, List.getElem_cons_succ]
      exact ih (Nat.lt_of_succ_lt_succ hi)

/-- **Every stretch of numbers is dealt out by weight.** -/
theorem card_pick (hi : i < weights.length) (start : ℕ) :
    ((Finset.Ico start (start + weights.sum)).filter
      fun n => pick weights (n % weights.sum) = some i).card = weights[i] := by
  have hperiodic : Function.Periodic (fun n => pick weights (n % weights.sum) = some i)
      weights.sum := fun n => by simp
  have hcongr : (Finset.range weights.sum).filter (fun n => pick weights (n % weights.sum) = some i) =
      (Finset.range weights.sum).filter fun n => pick weights n = some i :=
    Finset.filter_congr fun n hn => by rw [Nat.mod_eq_of_lt (Finset.mem_range.mp hn)]
  rw [Nat.filter_Ico_card_eq_of_periodic _ _ _ hperiodic, ← count_pick hi,
    Nat.count_eq_card_filter_range, Nat.count_eq_card_filter_range, hcongr]

end LinkLake.WeightedChoice
