import Mathlib

/-!
# Big-endian words

The fixed-width big-endian encoding of natural numbers as byte strings, and its inverse. The
round trip `ofBeBytes_beBytes` holds below `256 ^ w`, which is the range of a `w`-byte word; the
other direction, `beBytes_ofBeBytes`, holds for every byte string of width `w`.
-/

namespace LinkLake.BigEndian

/-- The `w` low-order bytes of `n`, most significant first. -/
def beBytes : ℕ → ℕ → List UInt8
  | 0, _ => []
  | w + 1, n => beBytes w (n / 256) ++ [UInt8.ofNat (n % 256)]

/-- The number whose big-endian digits are `bs`. -/
def ofBeBytes (bs : List UInt8) : ℕ := bs.foldl (fun acc b => acc * 256 + b.toNat) 0

@[simp] theorem length_beBytes (w n : ℕ) : (beBytes w n).length = w := by
  induction w generalizing n with
  | zero => rfl
  | succ w ih => simp [beBytes, ih]

@[simp] theorem ofBeBytes_nil : ofBeBytes [] = 0 := rfl

@[simp] theorem ofBeBytes_append_singleton (bs : List UInt8) (b : UInt8) :
    ofBeBytes (bs ++ [b]) = ofBeBytes bs * 256 + b.toNat := by
  simp [ofBeBytes]

/-- A word is recovered from its bytes. -/
theorem ofBeBytes_beBytes {w n : ℕ} (h : n < 256 ^ w) : ofBeBytes (beBytes w n) = n := by
  induction w generalizing n with
  | zero => simp_all [beBytes]
  | succ w ih =>
    have hdiv : n / 256 < 256 ^ w := by
      rw [Nat.div_lt_iff_lt_mul (by norm_num)]
      simpa [pow_succ] using h
    have hdigit : (UInt8.ofNat (n % 256)).toNat = n % 256 := by
      simp [UInt8.toNat_ofNat']
    rw [beBytes, ofBeBytes_append_singleton, ih hdiv, hdigit]
    omega

/-- Bytes are recovered from the word they spell. -/
theorem beBytes_ofBeBytes (bs : List UInt8) : beBytes bs.length (ofBeBytes bs) = bs := by
  induction bs using List.reverseRecOn with
  | nil => rfl
  | append_singleton bs b ih =>
    have hb : b.toNat < 256 := b.toNat_lt
    have hquot : (ofBeBytes bs * 256 + b.toNat) / 256 = ofBeBytes bs := by omega
    have hrem : (ofBeBytes bs * 256 + b.toNat) % 256 = b.toNat := by omega
    rw [List.length_append, List.length_singleton, beBytes, ofBeBytes_append_singleton, hquot,
      hrem, ih, UInt8.ofNat_toNat]

theorem beBytes_injOn {w m n : ℕ} (hm : m < 256 ^ w) (hn : n < 256 ^ w)
    (h : beBytes w m = beBytes w n) : m = n := by
  rw [← ofBeBytes_beBytes hm, h, ofBeBytes_beBytes hn]

theorem ofBeBytes_lt (bs : List UInt8) : ofBeBytes bs < 256 ^ bs.length := by
  induction bs using List.reverseRecOn with
  | nil => simp
  | append_singleton bs b ih =>
    have hb : b.toNat < 256 := b.toNat_lt
    rw [ofBeBytes_append_singleton, List.length_append, List.length_singleton, pow_succ]
    omega

/-- A number is written as its high bytes followed by its low bytes. -/
theorem ofBeBytes_append (as bs : List UInt8) :
    ofBeBytes (as ++ bs) = ofBeBytes as * 256 ^ bs.length + ofBeBytes bs := by
  induction bs using List.reverseRecOn with
  | nil => simp
  | append_singleton bs b ih =>
    rw [← List.append_assoc, ofBeBytes_append_singleton, ih, ofBeBytes_append_singleton,
      List.length_append, List.length_singleton, pow_succ]
    ring

end LinkLake.BigEndian
