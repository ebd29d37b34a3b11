import Mathlib

/-!
# Address prefixes

A network of `w`-bit addresses is given by the leading bits that its addresses share. A program tests
membership with a mask; in numbers, the addresses of a network with `length` leading bits are those
with the same quotient by `2 ^ (w - length)`.
-/

namespace LinkLake

/-- The bits that a network of so many leading bits fixes. -/
def networkMask (bits length : ℕ) : BitVec bits :=
  if length = 0 then 0 else BitVec.allOnes bits <<< (bits - length)

variable {w length length' : ℕ}

theorem getLsbD_and_allOnes_shiftLeft (x : BitVec w) (k i : ℕ) :
    (x &&& BitVec.allOnes w <<< k).getLsbD i = (decide (k ≤ i) && x.getLsbD i) := by
  by_cases hi : i < w
  · by_cases hk : i < k
    · simp [hi, hk, Nat.not_le.mpr hk]
    · simp [hi, hk, Nat.not_lt.mp hk]
  · rw [BitVec.getLsbD_of_ge _ _ (Nat.not_lt.mp hi), BitVec.getLsbD_of_ge _ _ (Nat.not_lt.mp hi),
      Bool.and_false]

/-- A mask compares the leading bits. -/
theorem and_networkMask_eq_iff (x y : BitVec w) :
    x &&& networkMask w length = y &&& networkMask w length ↔
      x.toNat / 2 ^ (w - length) = y.toNat / 2 ^ (w - length) := by
  unfold networkMask
  split
  · rename_i h
    subst h
    simp [Nat.div_eq_of_lt x.isLt, Nat.div_eq_of_lt y.isLt]
  · rw [← Nat.shiftRight_eq_div_pow, ← Nat.shiftRight_eq_div_pow, ← BitVec.toNat_ushiftRight,
      ← BitVec.toNat_ushiftRight, BitVec.toNat_inj]
    generalize w - length = k
    constructor
    · intro h
      apply BitVec.eq_of_getLsbD_eq
      intro i _
      have hbit := congrArg (BitVec.getLsbD · (k + i)) h
      simp only [getLsbD_and_allOnes_shiftLeft, Nat.le_add_right, decide_true,
        Bool.true_and] at hbit
      simpa using hbit
    · intro h
      apply BitVec.eq_of_getLsbD_eq
      intro i _
      rw [getLsbD_and_allOnes_shiftLeft, getLsbD_and_allOnes_shiftLeft]
      by_cases hk : k ≤ i
      · have hbit := congrArg (BitVec.getLsbD · (i - k)) h
        simp only [BitVec.getLsbD_ushiftRight, Nat.add_sub_cancel' hk] at hbit
        rw [hbit]
      · simp [hk]

/-! ## Networks as sets -/

/-- The addresses that share the leading bits of `x`. -/
def network (length : ℕ) (x : BitVec w) : Set (BitVec w) :=
  {y | x &&& networkMask w length = y &&& networkMask w length}

theorem mem_network {x y : BitVec w} :
    y ∈ network length x ↔ x.toNat / 2 ^ (w - length) = y.toNat / 2 ^ (w - length) :=
  and_networkMask_eq_iff x y

theorem self_mem_network (length : ℕ) (x : BitVec w) : x ∈ network length x := rfl

/-- A larger network does not fit into a smaller one. -/
theorem le_of_network_subset {x x' : BitVec w}
    (h : network length x ⊆ network length' x') : w - length ≤ w - length' := by
  by_contra hlt
  have hk : 2 ^ (w - length' + 1) ≤ 2 ^ (w - length) := Nat.pow_le_pow_right (by decide) (by omega)
  have hpos : 0 < 2 ^ (w - length') := by positivity
  generalize hlow : x.toNat / 2 ^ (w - length) * 2 ^ (w - length) = low
  -- the first and the last address of the larger network
  have hfits : low + 2 ^ (w - length) ≤ 2 ^ w := by
    have hlt : x.toNat / 2 ^ (w - length) < 2 ^ (w - (w - length)) := by
      rw [Nat.div_lt_iff_lt_mul (by positivity), ← Nat.pow_add, Nat.sub_add_cancel (Nat.sub_le _ _)]
      exact x.isLt
    calc low + 2 ^ (w - length) = (x.toNat / 2 ^ (w - length) + 1) * 2 ^ (w - length) := by
          rw [← hlow, Nat.succ_mul]
      _ ≤ 2 ^ (w - (w - length)) * 2 ^ (w - length) := Nat.mul_le_mul_right _ hlt
      _ = 2 ^ w := by rw [← Nat.pow_add, Nat.sub_add_cancel (Nat.sub_le _ _)]
  have hmem : ∀ k < 2 ^ (w - length), x'.toNat / 2 ^ (w - length') =
      (low + k) / 2 ^ (w - length') := by
    intro k hk
    have hlt : low + k < 2 ^ w := by omega
    have hin : BitVec.ofNat w (low + k) ∈ network length x := by
      rw [mem_network, BitVec.toNat_ofNat, Nat.mod_eq_of_lt hlt, ← hlow, Nat.mul_comm,
        Nat.mul_add_div (by positivity), Nat.div_eq_of_lt hk, Nat.add_zero]
    have hin' := mem_network.mp (h hin)
    rwa [BitVec.toNat_ofNat, Nat.mod_eq_of_lt hlt] at hin'
  rw [Nat.pow_succ] at hk
  have hfirst := hmem 0 (by omega)
  have hlast := hmem (2 ^ (w - length')) (by omega)
  rw [Nat.add_div_right _ hpos] at hlast
  rw [Nat.add_zero] at hfirst
  omega

/-- **Networks are equal only if they are given by the same leading bits.** -/
theorem network_eq_iff (hlength : length ≤ w) (hlength' : length' ≤ w)
    {x x' : BitVec w} : network length x = network length' x' ↔
      length = length' ∧ x &&& networkMask w length = x' &&& networkMask w length' := by
  constructor
  · intro h
    have hle := le_of_network_subset h.subset
    have hle' := le_of_network_subset h.superset
    obtain rfl : length = length' := by omega
    have hmem : x' ∈ network length x := h ▸ self_mem_network length x'
    exact ⟨rfl, hmem⟩
  · rintro ⟨rfl, h⟩
    ext y
    simp only [network, Set.mem_ofPred_eq, h]

theorem toNat_append_eq {m n : ℕ} (high : BitVec m) (low : BitVec n) :
    (high ++ low).toNat = high.toNat * 2 ^ n + low.toNat := by
  rw [BitVec.toNat_append, ← Nat.shiftLeft_add_eq_or_of_lt low.isLt, Nat.shiftLeft_eq]

/-- The leading bits of a concatenation are those of its first part, and then those of its second. -/
theorem append_mem_network {m n : ℕ} {high high' : BitVec m} {low low' : BitVec n} :
    high' ++ low' ∈ network length (high ++ low) ↔
      high' ∈ network length high ∧ low' ∈ network (length - m) low := by
  simp only [mem_network, toNat_append_eq]
  have hlow := low.isLt
  have hlow' := low'.isLt
  by_cases hlength : length ≤ m
  · have hsplit : m + n - length = n + (m - length) := by omega
    rw [hsplit, Nat.pow_add, ← Nat.div_div_eq_div_mul, ← Nat.div_div_eq_div_mul,
      Nat.sub_eq_zero_of_le hlength, Nat.sub_zero, Nat.div_eq_of_lt hlow, Nat.div_eq_of_lt hlow',
      Nat.mul_comm, Nat.mul_add_div (by positivity), Nat.mul_comm high'.toNat,
      Nat.mul_add_div (by positivity), Nat.div_eq_of_lt hlow, Nat.div_eq_of_lt hlow']
    simp
  · -- the second part is divided by `2 ^ k`, and the first one stands in front of what is left
    obtain ⟨k, j, hk, rfl⟩ : ∃ k j, n - (length - m) = k ∧ n = k + j :=
      ⟨_, n - (n - (length - m)), rfl, by omega⟩
    have hm : m - length = 0 := by omega
    have hsplit : m + (k + j) - length = k := by omega
    have hdiv : ∀ high low, (high * 2 ^ (k + j) + low) / 2 ^ k = high * 2 ^ j + low / 2 ^ k := by
      intro high low
      rw [Nat.pow_add, Nat.mul_left_comm, Nat.mul_add_div (by positivity)]
    have hlt : ∀ low < 2 ^ (k + j), low / 2 ^ k < 2 ^ j := fun low hlow => by
      rwa [Nat.div_lt_iff_lt_mul (by positivity), ← Nat.pow_add, Nat.add_comm]
    rw [hm, hk, hsplit, hdiv, hdiv, Nat.pow_zero, Nat.div_one, Nat.div_one]
    constructor
    · intro heq
      have hmod := congrArg (· % 2 ^ j) heq
      simp only [Nat.mul_add_mod', Nat.mod_eq_of_lt (hlt _ hlow),
        Nat.mod_eq_of_lt (hlt _ hlow')] at hmod
      rw [hmod] at heq
      exact ⟨Nat.eq_of_mul_eq_mul_right (by positivity) (Nat.add_right_cancel heq), hmod⟩
    · rintro ⟨hhigh, hmod⟩
      rw [hhigh, hmod]

end LinkLake
