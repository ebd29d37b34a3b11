import Mathlib

/-!
# Splitting lists at delimiters

A list is cut at its first delimiter (`splitOnce`), at its last one (`rsplitOnce`), or at all of them
(`List.splitOn`), and the lemmas say how a list put together with delimiters is taken apart again.
-/

namespace LinkLake.Splitting

variable {β : Type*} [DecidableEq β] {a b l part : List β} {d : β}

/-! ## Once -/

/-- What comes before and after the first `d`. -/
def splitOnce (d : β) : List β → Option (List β × List β)
  | [] => none
  | b :: bs => if b = d then some ([], bs) else (splitOnce d bs).map fun p => (b :: p.1, p.2)

theorem splitOnce_append (ha : d ∉ a) : splitOnce d (a ++ d :: b) = some (a, b) := by
  induction a with
  | nil => simp [splitOnce]
  | cons x a ih =>
    obtain ⟨hx, ha⟩ : d ≠ x ∧ d ∉ a := by simpa using ha
    simp [splitOnce, Ne.symm hx, ih ha]

theorem splitOnce_eq_some (h : splitOnce d l = some (a, b)) : l = a ++ d :: b ∧ d ∉ a := by
  induction l generalizing a with
  | nil => simp [splitOnce] at h
  | cons x l ih =>
    rw [splitOnce] at h
    split at h
    · obtain ⟨rfl, rfl⟩ : [] = a ∧ l = b := by simpa using h
      simp_all
    · rename_i hx
      obtain ⟨p, hp, hab⟩ := Option.map_eq_some_iff.mp h
      obtain ⟨rfl, rfl⟩ : x :: p.1 = a ∧ p.2 = b := by simpa using hab
      obtain ⟨rfl, hmem⟩ := ih hp
      exact ⟨rfl, by simp [hmem, Ne.symm hx]⟩

theorem splitOnce_eq_none (h : d ∉ l) : splitOnce d l = none := by
  induction l with
  | nil => rfl
  | cons x l ih =>
    obtain ⟨hx, hl⟩ : d ≠ x ∧ d ∉ l := by simpa using h
    simp [splitOnce, Ne.symm hx, ih hl]

/-- What comes before and after the last `d`. -/
def rsplitOnce (d : β) (l : List β) : Option (List β × List β) :=
  (splitOnce d l.reverse).map fun p => (p.2.reverse, p.1.reverse)

theorem rsplitOnce_append (hb : d ∉ b) : rsplitOnce d (a ++ d :: b) = some (a, b) := by
  have hrev : (a ++ d :: b).reverse = b.reverse ++ d :: a.reverse := by simp
  rw [rsplitOnce, hrev, splitOnce_append (by simpa using hb)]
  simp

theorem rsplitOnce_eq_some (h : rsplitOnce d l = some (a, b)) : l = a ++ d :: b ∧ d ∉ b := by
  obtain ⟨p, hp, hab⟩ := Option.map_eq_some_iff.mp h
  obtain ⟨rfl, rfl⟩ : p.2.reverse = a ∧ p.1.reverse = b := by simpa using hab
  obtain ⟨hl, hmem⟩ := splitOnce_eq_some hp
  refine ⟨?_, by simpa using hmem⟩
  rw [← List.reverse_reverse l, hl]
  simp

theorem rsplitOnce_eq_none (h : d ∉ l) : rsplitOnce d l = none := by
  rw [rsplitOnce, splitOnce_eq_none (by simpa using h), Option.map_none]

/-! ## All parts -/

/-- An element is a delimiter or in one of the parts. -/
theorem mem_splitOn_or {x : β} (hx : x ∈ l) : x = d ∨ ∃ part ∈ l.splitOn d, x ∈ part := by
  induction l with
  | nil => simp at hx
  | cons y l ih =>
    obtain ⟨part, parts, hparts⟩ := List.exists_cons_of_ne_nil (List.splitOn_ne_nil d l)
    rw [hparts] at ih
    rw [List.splitOn_cons_eq_if_modifyHead, hparts]
    by_cases hy : y = d
    · rcases List.mem_cons.mp hx with rfl | hx
      · exact .inl hy
      · exact (ih hx).imp_right fun ⟨p, hp, hxp⟩ => ⟨p, by simp [hy, hp], hxp⟩
    · simp only [beq_eq_false_iff_ne.mpr hy, Bool.false_eq_true, if_false, List.modifyHead_cons]
      rcases List.mem_cons.mp hx with rfl | hx
      · exact .inr ⟨x :: part, by simp, by simp⟩
      · refine (ih hx).imp_right ?_
        rintro ⟨p, hp, hxp⟩
        rcases List.mem_cons.mp hp with rfl | hp
        · exact ⟨y :: p, by simp, by simp [hxp]⟩
        · exact ⟨p, by simp [hp], hxp⟩

/-- The parts hold elements of the list, but for the delimiters. -/
theorem mem_and_ne_of_mem_splitOn {x : β} (h : part ∈ l.splitOn d)
    (hx : x ∈ part) : x ∈ l ∧ x ≠ d := by
  induction l generalizing part with
  | nil => simp_all
  | cons y l ih =>
    rw [List.splitOn_cons_eq_if_modifyHead] at h
    by_cases hy : y = d
    · rcases (by simpa [hy] using h : part = [] ∨ part ∈ l.splitOn d) with rfl | h
      · cases hx
      · exact (ih h hx).imp_left (List.mem_cons_of_mem _)
    · obtain ⟨first, parts, hparts⟩ := List.exists_cons_of_ne_nil (List.splitOn_ne_nil d l)
      simp only [beq_eq_false_iff_ne.mpr hy, Bool.false_eq_true, if_false, hparts,
        List.modifyHead_cons, List.mem_cons] at h ih
      rcases h with rfl | h
      · rcases List.mem_cons.mp hx with rfl | hx
        · exact ⟨List.mem_cons_self, hy⟩
        · exact (ih (.inl rfl) hx).imp_left (List.mem_cons_of_mem _)
      · exact (ih (.inr h) hx).imp_left (List.mem_cons_of_mem _)

/-- Splitting a list and leaving elements out, but no delimiters, commute. -/
theorem splitOn_filter {p : β → Bool} (hd : p d = true) (l : List β) :
    (l.filter p).splitOn d = (l.splitOn d).map (List.filter p) := by
  induction l with
  | nil => simp
  | cons x l ih =>
    obtain ⟨first, parts, hparts⟩ := List.exists_cons_of_ne_nil (List.splitOn_ne_nil d l)
    rw [List.splitOn_cons_eq_if_modifyHead, List.filter_cons]
    by_cases hx : x = d
    · simp [hx, hd, List.splitOn_cons_eq_if_modifyHead, ih]
    · by_cases hp : p x = true
      · simp [hx, hp, List.splitOn_cons_eq_if_modifyHead, ih, hparts]
      · simp [hx, hp, ih, hparts]

theorem notMem_of_mem_splitOn (h : part ∈ l.splitOn d) : d ∉ part :=
  fun hd => (mem_and_ne_of_mem_splitOn h hd).2 rfl

/-- A list whose later parts are not empty does not end in a delimiter. -/
theorem getLast?_ne_of_splitOn (h : ∀ s ∈ (l.splitOn d).tail, s ≠ []) : l.getLast? ≠ some d := by
  induction l with
  | nil => simp
  | cons c l ih =>
    obtain ⟨first, parts, hparts⟩ := List.exists_cons_of_ne_nil (List.splitOn_ne_nil d l)
    rw [List.splitOn_cons_eq_if_modifyHead, hparts] at h
    rw [hparts] at ih
    by_cases hc : c = d
    · simp only [hc, beq_self_eq_true, if_true, List.tail_cons] at h
      have hl : l ≠ [] := by
        rintro rfl
        cases hparts
        simp at h
      rw [List.getLast?_cons_of_ne_nil hl]
      exact ih fun s hs => h s (List.mem_cons_of_mem _ hs)
    · simp only [beq_eq_false_iff_ne.mpr hc, Bool.false_eq_true, if_false, List.modifyHead_cons,
        List.tail_cons] at h
      by_cases hl : l = []
      · simpa [hl] using hc
      · rw [List.getLast?_cons_of_ne_nil hl]
        exact ih h

end LinkLake.Splitting
