import LinkLake.Foundations.Utf8

/-!
# Percent-encoding

In a percent-encoded text `%` and two hexadecimal digits stand for a byte, and what is left is
UTF-8. A `%` that no two digits follow stands for itself.
-/

namespace LinkLake.PercentEncoding

/-- The value of a hexadecimal digit. -/
def hexValue (c : Char) : Option ℕ :=
  if '0' ≤ c ∧ c ≤ '9' then some (c.toNat - '0'.toNat)
  else if 'a' ≤ c ∧ c ≤ 'f' then some (c.toNat - 'a'.toNat + 10)
  else if 'A' ≤ c ∧ c ≤ 'F' then some (c.toNat - 'A'.toNat + 10)
  else none

/-- The bytes with every escape replaced by the byte it stands for. -/
def decodeBytes : List UInt8 → List UInt8
  | b :: high :: low :: rest =>
    if b = 0x25 then
      match hexValue (Char.ofNat high.toNat), hexValue (Char.ofNat low.toNat) with
      | some h, some l => UInt8.ofNat (16 * h + l) :: decodeBytes rest
      | _, _ => b :: decodeBytes (high :: low :: rest)
    else b :: decodeBytes (high :: low :: rest)
  | short => short

/-- The text that a percent-encoded text stands for, if it is UTF-8. -/
def decode (text : List Char) : Option (List Char) := Utf8.decode (decodeBytes (Utf8.encode text))

theorem decodeBytes_of_notMem {bytes : List UInt8} (h : 0x25 ∉ bytes) :
    decodeBytes bytes = bytes := by
  fun_induction decodeBytes bytes with
  | case1 high low rest => simp at h
  | case2 high low rest => simp at h
  | case3 b high low rest hb ih => rw [ih (List.not_mem_of_not_mem_cons h)]
  | case4 short => rfl

theorem decode_of_notMem {text : List Char} (h : '%' ∉ text) : decode text = some text := by
  have hbytes : 0x25 ∉ Utf8.encode text := fun hmem => h (Utf8.mem_encode_ascii hmem (by decide))
  rw [decode, decodeBytes_of_notMem hbytes, Utf8.decode_encode]

end LinkLake.PercentEncoding
