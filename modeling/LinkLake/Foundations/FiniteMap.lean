import Mathlib

/-!
# Finite maps and their totals

A finite map is an association list with distinct keys (`AList`), read at a fixed type of values.
The lemmas on `total`, `size` and `countKeys` say how a sum over the values and a count over the
keys move under `insert` and `erase`: they are the bookkeeping rules behind every counter a
program keeps beside a map.
-/

namespace LinkLake

/-- Finite maps from `κ` to `ν`. -/
def FiniteMap (κ ν : Type*) := AList fun _ : κ => ν

namespace FiniteMap

variable {κ ν : Type*} {j k : κ} {m : FiniteMap κ ν} {v : ν}

instance : EmptyCollection (FiniteMap κ ν) := ⟨(∅ : AList fun _ : κ => ν)⟩

instance [DecidableEq κ] [DecidableEq ν] : DecidableEq (FiniteMap κ ν) :=
  inferInstanceAs (DecidableEq (AList fun _ : κ => ν))

/-- The entries. -/
def toList (m : FiniteMap κ ν) : List (κ × ν) := (AList.entries m).map fun e => (e.1, e.2)

/-- The keys. -/
def keys (m : FiniteMap κ ν) : List κ := m.toList.map Prod.fst

instance : Membership κ (FiniteMap κ ν) := ⟨fun m k => k ∈ m.keys⟩

/-- The number of entries. -/
def size (m : FiniteMap κ ν) : ℕ := m.toList.length

/-- The sum of a weight over the values. -/
def total (w : ν → ℕ) (m : FiniteMap κ ν) : ℕ := (m.toList.map fun e => w e.2).sum

/-- The number of keys with a property. -/
def countKeys (p : κ → Bool) (m : FiniteMap κ ν) : ℕ := m.keys.countP p

theorem keys_eq (m : FiniteMap κ ν) : m.keys = AList.keys m := by
  simp [keys, toList, AList.keys, List.keys]

theorem nodup_keys (m : FiniteMap κ ν) : m.keys.Nodup := by
  rw [keys_eq]
  exact AList.keys_nodup m

theorem mem_keys : k ∈ m.keys ↔ k ∈ m := Iff.rfl

@[simp] theorem toList_empty : (∅ : FiniteMap κ ν).toList = [] := rfl

@[simp] theorem size_empty : (∅ : FiniteMap κ ν).size = 0 := rfl

@[simp] theorem total_empty (w : ν → ℕ) : total w (∅ : FiniteMap κ ν) = 0 := rfl

@[simp] theorem countKeys_empty (p : κ → Bool) : countKeys p (∅ : FiniteMap κ ν) = 0 := rfl

@[simp] theorem length_keys (m : FiniteMap κ ν) : m.keys.length = m.size := by
  simp [keys, size]

variable [DecidableEq κ]

instance (k : κ) (m : FiniteMap κ ν) : Decidable (k ∈ m) :=
  inferInstanceAs (Decidable (k ∈ m.keys))

/-- The value at a key. -/
def get? (m : FiniteMap κ ν) (k : κ) : Option ν := AList.lookup k m

/-- The map with one key set to a value. -/
def insert (m : FiniteMap κ ν) (k : κ) (v : ν) : FiniteMap κ ν := AList.insert k v m

/-- The map without one key. -/
def erase (m : FiniteMap κ ν) (k : κ) : FiniteMap κ ν := AList.erase k m

/-! ## Reading -/

@[simp] theorem get?_empty (k : κ) : (∅ : FiniteMap κ ν).get? k = none := rfl

theorem mem_toList : (k, v) ∈ m.toList ↔ m.get? k = some v := by
  have h : ⟨k, v⟩ ∈ AList.entries m ↔ m.get? k = some v := AList.mem_lookup_iff.symm
  rw [← h, toList, List.mem_map]
  constructor
  · rintro ⟨⟨k', v'⟩, hmem, heq⟩
    cases heq
    exact hmem
  · exact fun hmem => ⟨⟨k, v⟩, hmem, rfl⟩

theorem mem_iff : k ∈ m ↔ ∃ v, m.get? k = some v := by
  rw [← mem_keys, keys, List.mem_map]
  constructor
  · rintro ⟨⟨k', v⟩, hmem, rfl⟩
    exact ⟨v, mem_toList.mp hmem⟩
  · rintro ⟨v, hv⟩
    exact ⟨(k, v), mem_toList.mpr hv, rfl⟩

theorem mem_of_get? (h : m.get? k = some v) : k ∈ m :=
  mem_iff.mpr ⟨v, h⟩

theorem get?_eq_none : m.get? k = none ↔ k ∉ m := by
  rw [mem_iff]
  cases m.get? k <;> simp

/-- A read after an insertion gives the new value at its key, and is as before elsewhere. -/
theorem get?_insert (m : FiniteMap κ ν) (k j : κ) (v : ν) :
    (m.insert k v).get? j = if j = k then some v else m.get? j := by
  by_cases hj : j = k
  · subst hj
    rw [if_pos rfl]
    exact AList.lookup_insert m
  · rw [if_neg hj]
    exact AList.lookup_insert_ne hj

/-- A read after an erasure finds nothing at the erased key, and is as before elsewhere. -/
theorem get?_erase (m : FiniteMap κ ν) (k j : κ) :
    (m.erase k).get? j = if j = k then none else m.get? j := by
  by_cases hj : j = k
  · subst hj
    rw [if_pos rfl]
    exact AList.lookup_erase j m
  · rw [if_neg hj]
    exact AList.lookup_erase_ne hj

@[simp] theorem get?_insert_self (m : FiniteMap κ ν) (k : κ) (v : ν) :
    (m.insert k v).get? k = some v := by
  simp [get?_insert]

@[simp] theorem get?_erase_self (m : FiniteMap κ ν) (k : κ) : (m.erase k).get? k = none := by
  simp [get?_erase]

theorem get?_insert_of_ne (h : j ≠ k) : (m.insert k v).get? j = m.get? j := by
  simp [get?_insert, h]

theorem get?_erase_of_ne (h : j ≠ k) : (m.erase k).get? j = m.get? j := by
  simp [get?_erase, h]

theorem get?_of_erase (h : (m.erase k).get? j = some v) : m.get? j = some v := by
  rw [get?_erase] at h
  split_ifs at h
  exact h

/-- What holds of every entry and of a new one. -/
theorem forall_insert {P : κ → ν → Prop} (hm : ∀ j u, m.get? j = some u → P j u) (hv : P k v) :
    ∀ j u, (m.insert k v).get? j = some u → P j u := by
  intro j u h
  rw [get?_insert] at h
  split_ifs at h with hj
  · cases h
    rwa [hj]
  · exact hm j u h

@[simp] theorem mem_insert {k j : κ} {v : ν} : j ∈ m.insert k v ↔ j = k ∨ j ∈ m := by
  simp only [mem_iff, get?_insert]
  by_cases hj : j = k <;> simp [hj]

@[simp] theorem mem_erase {k j : κ} : j ∈ m.erase k ↔ j ≠ k ∧ j ∈ m := by
  simp only [mem_iff, get?_erase]
  by_cases hj : j = k <;> simp [hj]

theorem get?_foldl_erase (keys : List κ) (m : FiniteMap κ ν) (j : κ) :
    (keys.foldl erase m).get? j = if j ∈ keys then none else m.get? j := by
  induction keys generalizing m with
  | nil => simp
  | cons k keys ih =>
    rw [List.foldl_cons, ih, get?_erase]
    by_cases hj : j ∈ keys
    · rw [if_pos hj, if_pos (List.mem_cons_of_mem k hj)]
    · rw [if_neg hj]
      simp only [List.mem_cons, hj, or_false]

/-- The entries with a property. -/
def filter (p : κ → ν → Bool) (m : FiniteMap κ ν) : FiniteMap κ ν :=
  ((m.toList.filter fun e => !p e.1 e.2).map Prod.fst).foldl erase m

theorem get?_filter (p : κ → ν → Bool) (m : FiniteMap κ ν) (k : κ) :
    (m.filter p).get? k = (m.get? k).filter (p k) := by
  rw [filter, get?_foldl_erase]
  cases h : m.get? k with
  | none => simp
  | some v =>
    have hmem : k ∈ (m.toList.filter fun e => !p e.1 e.2).map Prod.fst ↔ p k v = false := by
      simp [mem_toList, h]
    cases hp : p k v <;> simp [Option.filter, hmem, hp]

theorem erase_of_notMem (h : k ∉ m) : m.erase k = m := by
  rw [← mem_keys, keys_eq] at h
  exact AList.ext (List.kerase_of_notMem_keys h)

/-! ## Totals -/

theorem toList_perm_cons_erase (h : m.get? k = some v) :
    m.toList.Perm ((k, v) :: (m.erase k).toList) := by
  have hmem : k ∈ (AList.entries m).keys := by
    have hkey := mem_keys.mpr (mem_of_get? h)
    rwa [keys_eq] at hkey
  obtain ⟨v', l1, l2, hk, hm, he⟩ := List.exists_of_kerase hmem
  have hv : m.get? k = some v' := mem_toList.mp (by rw [toList, hm]; simp)
  obtain rfl : v = v' := Option.some.inj (h.symm.trans hv)
  have he' : (m.erase k).toList = (l1 ++ l2).map fun e => (e.1, e.2) := by
    rw [← he]
    rfl
  rw [he', toList, hm, List.map_append, List.map_append, List.map_cons]
  exact List.perm_middle

theorem size_erase (h : m.get? k = some v) : (m.erase k).size + 1 = m.size := by
  simpa [size] using (toList_perm_cons_erase h).length_eq.symm

theorem total_erase (w : ν → ℕ) (h : m.get? k = some v) :
    (m.erase k).total w + w v = m.total w := by
  have hp := ((toList_perm_cons_erase h).map fun e : κ × ν => w e.2).sum_eq
  rw [List.map_cons, List.sum_cons] at hp
  rw [total, total, hp, Nat.add_comm]

theorem countKeys_erase (p : κ → Bool) (h : m.get? k = some v) :
    (m.erase k).countKeys p + (if p k then 1 else 0) = m.countKeys p := by
  have hp := ((toList_perm_cons_erase h).map Prod.fst).countP_eq p
  rw [List.map_cons, List.countP_cons] at hp
  exact hp.symm

theorem toList_insert (m : FiniteMap κ ν) (k : κ) (v : ν) :
    (m.insert k v).toList = (k, v) :: (m.erase k).toList := rfl

theorem size_insert (m : FiniteMap κ ν) (k : κ) (v : ν) :
    (m.insert k v).size = (m.erase k).size + 1 := by
  simp [size, toList_insert]

theorem total_insert (w : ν → ℕ) (m : FiniteMap κ ν) (k : κ) (v : ν) :
    (m.insert k v).total w = w v + (m.erase k).total w := by
  simp [total, toList_insert]

/-- How a total moves when one value is replaced. -/
theorem total_replace (w : ν → ℕ) (h : m.get? k = some v)
    (v' : ν) : (m.insert k v').total w + w v = m.total w + w v' := by
  have hinsert := total_insert w m k v'
  have herase := total_erase w h
  omega

theorem countKeys_insert (p : κ → Bool) (m : FiniteMap κ ν) (k : κ) (v : ν) :
    (m.insert k v).countKeys p = (m.erase k).countKeys p + if p k then 1 else 0 := by
  rw [countKeys, keys, toList_insert, List.map_cons, List.countP_cons]
  rfl

theorem countKeys_pos {p : κ → Bool}
    (h : m.get? k = some v) (hp : p k = true) : 0 < m.countKeys p := by
  have := countKeys_erase p h
  rw [if_pos hp] at this
  omega

/-- A map whose entries are all in another one is no larger. -/
theorem size_le_of_get? {m' : FiniteMap κ ν}
    (h : ∀ k v, m'.get? k = some v → m.get? k = some v) : m'.size ≤ m.size := by
  have hnodup : m'.toList.Nodup := m'.nodup_keys.of_map
  refine (hnodup.subperm fun entry hentry => ?_).length_le
  exact mem_toList.mpr (h entry.1 entry.2 (mem_toList.mp hentry))

theorem le_total (w : ν → ℕ) (h : m.get? k = some v) : w v ≤ m.total w := by
  have := total_erase w h
  omega

/-- The values at different keys weigh no more than all of them. -/
theorem sum_le_total (w : ν → ℕ) {ks : List κ} {vs : List ν} (hks : ks.Nodup)
    (h : ks.map m.get? = vs.map some) : (vs.map w).sum ≤ m.total w := by
  induction ks generalizing m vs with
  | nil =>
    obtain rfl : vs = [] := by simpa using h.symm
    exact Nat.zero_le _
  | cons k ks ih =>
    cases vs with
    | nil => simp at h
    | cons v vs =>
      rw [List.map_cons, List.map_cons, List.cons.injEq] at h
      obtain ⟨hk, hks⟩ := List.nodup_cons.mp hks
      have hrest : ks.map (m.erase k).get? = vs.map some := by
        rw [← h.2]
        exact List.map_congr_left fun j hj => get?_erase_of_ne fun heq => hk (heq ▸ hj)
      have herase := total_erase w h.1
      have hsum := ih hks hrest
      rw [List.map_cons, List.sum_cons]
      omega

/-! ## Sums over the entries -/

omit [DecidableEq κ] in
/-- The sum of a weight over the entries. -/
def sum (f : κ → ν → ℕ) (m : FiniteMap κ ν) : ℕ := (m.toList.map fun e => f e.1 e.2).sum

omit [DecidableEq κ] in
@[simp] theorem sum_empty (f : κ → ν → ℕ) : sum f (∅ : FiniteMap κ ν) = 0 := rfl

omit [DecidableEq κ] in
theorem sum_mono {f g : κ → ν → ℕ} (m : FiniteMap κ ν) (h : ∀ k v, f k v ≤ g k v) :
    m.sum f ≤ m.sum g :=
  List.sum_le_sum fun e _ => h e.1 e.2

theorem sum_erase (f : κ → ν → ℕ) (h : m.get? k = some v) :
    (m.erase k).sum f + f k v = m.sum f := by
  have hp := ((toList_perm_cons_erase h).map fun e : κ × ν => f e.1 e.2).sum_eq
  rw [List.map_cons, List.sum_cons] at hp
  rw [sum, sum, hp, Nat.add_comm]

theorem sum_insert (f : κ → ν → ℕ) (m : FiniteMap κ ν) (k : κ) (v : ν) :
    (m.insert k v).sum f = f k v + (m.erase k).sum f := by
  simp [sum, toList_insert]

/-- How a sum moves when one value is replaced. -/
theorem sum_replace (f : κ → ν → ℕ) (h : m.get? k = some v)
    (v' : ν) : (m.insert k v').sum f + f k v = m.sum f + f k v' := by
  have hinsert := sum_insert f m k v'
  have herase := sum_erase f h
  omega

theorem sum_insert_new (f : κ → ν → ℕ) (h : m.get? k = none)
    (v : ν) : (m.insert k v).sum f = m.sum f + f k v := by
  rw [sum_insert, erase_of_notMem (get?_eq_none.mp h), Nat.add_comm]

theorem total_insert_new (w : ν → ℕ) (h : m.get? k = none) (v : ν) :
    (m.insert k v).total w = m.total w + w v := sum_insert_new (fun _ => w) h v

theorem size_insert_new (h : m.get? k = none) (v : ν) : (m.insert k v).size = m.size + 1 := by
  rw [size_insert, erase_of_notMem (get?_eq_none.mp h)]

theorem size_replace (h : m.get? k = some v) (v' : ν) : (m.insert k v').size = m.size := by
  rw [size_insert, size_erase h]

section Map

variable {μ : Type*}

/-- The map with every value replaced by its image, which may depend on the key. -/
def map (f : κ → ν → μ) (m : FiniteMap κ ν) : FiniteMap κ μ :=
  ⟨(AList.entries m).map fun e => ⟨e.1, f e.1 e.2⟩, by
    have hkeys : ((AList.entries m).map fun e => (⟨e.1, f e.1 e.2⟩ : Σ _ : κ, μ)).keys
        = (AList.entries m).keys := by
      simp [List.keys]
    rw [List.NodupKeys, hkeys]
    exact m.nodupKeys⟩

omit [DecidableEq κ] in
theorem toList_map (f : κ → ν → μ) (m : FiniteMap κ ν) :
    (m.map f).toList = m.toList.map fun e => (e.1, f e.1 e.2) := by
  simp [toList, map]

omit [DecidableEq κ] in
@[simp] theorem map_empty (f : κ → ν → μ) : (∅ : FiniteMap κ ν).map f = ∅ := rfl

omit [DecidableEq κ] in
@[simp] theorem size_map (f : κ → ν → μ) (m : FiniteMap κ ν) : (m.map f).size = m.size := by
  simp [size, toList_map]

omit [DecidableEq κ] in
@[simp] theorem mem_map {f : κ → ν → μ} {k : κ} : k ∈ m.map f ↔ k ∈ m := by
  simp [← mem_keys, keys, toList_map]

@[simp] theorem get?_map (f : κ → ν → μ) (m : FiniteMap κ ν) (k : κ) :
    (m.map f).get? k = (m.get? k).map (f k) := by
  cases h : m.get? k with
  | none =>
    rw [Option.map_none, get?_eq_none, mem_map]
    exact get?_eq_none.mp h
  | some v =>
    rw [Option.map_some, ← mem_toList, toList_map]
    exact List.mem_map.mpr ⟨(k, v), mem_toList.mpr h, rfl⟩

theorem map_insert (f : κ → ν → μ) (m : FiniteMap κ ν) (k : κ) (v : ν) :
    (m.insert k v).map f = (m.map f).insert k (f k v) := by
  have herase : ((AList.entries m).map fun e => (⟨e.1, f e.1 e.2⟩ : Σ _ : κ, μ)).kerase k
      = ((AList.entries m).kerase k).map fun e => ⟨e.1, f e.1 e.2⟩ := by
    simp only [List.kerase, List.eraseP_map]
    rfl
  refine AList.ext ?_
  change (⟨k, f k v⟩ : Σ _ : κ, μ) :: ((AList.entries m).kerase k).map _
    = ⟨k, f k v⟩ :: ((AList.entries m).map _).kerase k
  rw [herase]

end Map

end FiniteMap

end LinkLake
