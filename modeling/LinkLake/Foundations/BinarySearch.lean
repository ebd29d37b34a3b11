import Mathlib

/-!
# Binary search

The search of a sorted list by comparison, as a standard library does it: an interval is halved until
one index is left, and that index is looked at.

The comparison says where an element lies relative to what is searched for. `Partitioned` says that
the elements that lie below come first and those that lie above come last. On such a list the search
finds something exactly if there is something to be found (`isSome_binarySearchBy`).
-/

namespace LinkLake.BinarySearch

variable {α : Type*} {compare : α → Ordering} {l : List α}

/-- The index that is left of the `size` indices from `base` on. -/
def narrow (compare : ℕ → Ordering) (base size : ℕ) : ℕ :=
  if 1 < size then
    let half := size / 2
    let mid := base + half
    narrow compare (if compare mid = .gt then base else mid) (size - half)
  else base
termination_by size

/-- The comparison at an index; there is nothing beyond the end. -/
def compareAt (l : List α) (compare : α → Ordering) (i : ℕ) : Ordering := (l[i]?).elim .gt compare

/-- An index at which the comparison answers `eq`. -/
def binarySearchBy (l : List α) (compare : α → Ordering) : Option ℕ :=
  if l.isEmpty then none
  else
    let base := narrow (compareAt l compare) 0 l.length
    if compareAt l compare base = .eq then some base else none

/-- What lies below comes first, and what lies above comes last. -/
def Partitioned (compare : ℕ → Ordering) : Prop :=
  ∀ i j, i ≤ j → (compare j = .lt → compare i = .lt) ∧ (compare i = .gt → compare j = .gt)

/-- If something is to be found in the interval, it is found. -/
theorem narrow_eq {compare : ℕ → Ordering} (h : Partitioned compare) {base size i : ℕ}
    (hi : compare i = .eq) (hbase : base ≤ i) (hsize : i < base + size) :
    compare (narrow compare base size) = .eq := by
  fun_induction narrow compare base size generalizing i with
  | case1 base size hlarge half mid =>
    rename_i ih
    by_cases hmid : compare mid = .gt
    · -- nothing from the middle on
      have hlt : i < mid := by
        by_contra hle
        have := (h mid i (by omega)).2 hmid
        simp [hi] at this
      simp only [hmid, if_true, dite_true] at ih ⊢
      exact ih hi hbase (by omega)
    · -- nothing before the middle, unless at the middle, too
      simp only [hmid, if_false, dite_false] at ih ⊢
      by_cases hle : mid ≤ i
      · exact ih hi hle (by omega)
      · have hfound : compare mid = .eq := by
          cases hcompare : compare mid with
          | eq => rfl
          | gt => exact absurd hcompare hmid
          | lt => simpa [hi] using (h i mid (by omega)).1 hcompare
        exact ih hfound le_rfl (by omega)
  | case2 base size hsmall =>
    obtain rfl : i = base := by omega
    exact hi

/-- Of a list in order, the comparison at an index is partitioned. -/
theorem partitioned_compareAt (h : l.Pairwise fun a b => (compare b = .lt → compare a = .lt) ∧
      (compare a = .gt → compare b = .gt)) : Partitioned (compareAt l compare) := by
  intro i j hij
  rcases Nat.eq_or_lt_of_le hij with rfl | hlt
  · exact ⟨id, id⟩
  · by_cases hj : j < l.length
    · have hi : i < l.length := by omega
      simp only [compareAt, List.getElem?_eq_getElem hi, List.getElem?_eq_getElem hj,
        Option.elim_some]
      exact List.pairwise_iff_getElem.mp h i j hi hj hlt
    · have hend : compareAt l compare j = .gt := by
        rw [compareAt, List.getElem?_eq_none (by omega), Option.elim_none]
      rw [hend]
      exact ⟨nofun, fun _ => rfl⟩

/-- **Binary search agrees with linear search.** -/
theorem isSome_binarySearchBy (h : l.Pairwise fun a b => (compare b = .lt → compare a = .lt) ∧
      (compare a = .gt → compare b = .gt)) :
    (binarySearchBy l compare).isSome ↔ ∃ a ∈ l, compare a = .eq := by
  constructor
  · intro hsome
    obtain ⟨i, hi⟩ := Option.isSome_iff_exists.mp hsome
    simp only [binarySearchBy, Option.ite_none_left_eq_some, Option.ite_none_right_eq_some] at hi
    obtain ⟨-, hfound, -⟩ := hi
    generalize narrow (compareAt l compare) 0 l.length = base at hfound
    rw [compareAt] at hfound
    cases hget : l[base]? with
    | none => simp [hget] at hfound
    | some a =>
      rw [hget, Option.elim_some] at hfound
      exact ⟨a, List.mem_of_getElem? hget, hfound⟩
  · rintro ⟨a, ha, hfound⟩
    obtain ⟨i, hi, rfl⟩ := List.mem_iff_getElem.mp ha
    have hat : compareAt l compare i = .eq := by
      rw [compareAt, List.getElem?_eq_getElem hi, Option.elim_some, hfound]
    have hbase : compareAt l compare (narrow (compareAt l compare) 0 l.length) = .eq :=
      narrow_eq (partitioned_compareAt h) hat (Nat.zero_le i) (by omega)
    have hne : l ≠ [] := List.ne_nil_of_mem ha
    simp [binarySearchBy, hne, hbase]

end LinkLake.BinarySearch
