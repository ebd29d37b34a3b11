import Mathlib

/-!
# UTF-8

Text as lists of characters and its encoding as lists of bytes. `decode` and `encode` are inverse
to each other.
-/

namespace LinkLake.Utf8

/-- The UTF-8 encoding of a text. -/
def encode (text : List Char) : List UInt8 := text.flatMap String.utf8EncodeChar

/-- The text that the bytes encode, if they are UTF-8. -/
def decode (bytes : List UInt8) : Option (List Char) :=
  bytes.toByteArray.utf8Decode?.map Array.toList

@[simp]
theorem encode_nil : encode [] = [] := rfl

@[simp]
theorem encode_append (a b : List Char) : encode (a ++ b) = encode a ++ encode b :=
  List.flatMap_append

theorem encode_cons (c : Char) (text : List Char) :
    encode (c :: text) = String.utf8EncodeChar c ++ encode text := rfl

@[simp]
theorem decode_encode (text : List Char) : decode (encode text) = some text := by
  have h : (encode text).toByteArray = text.utf8Encode := rfl
  rw [decode, h, List.utf8Decode?_utf8Encode]
  simp

variable {text : List Char}

theorem encode_of_decode {bytes : List UInt8} (h : decode bytes = some text) :
    encode text = bytes := by
  obtain ⟨chars, hchars, rfl⟩ := Option.map_eq_some_iff.mp h
  have hsome : bytes.toByteArray.utf8Decode?.isSome := by simp [hchars]
  have hget : bytes.toByteArray.utf8Decode?.get hsome = chars := by simp [hchars]
  have henc : chars.toList.utf8Encode = bytes.toByteArray := by
    rw [← hget]
    exact ByteArray.utf8Encode_get_utf8Decode?
  exact List.toByteArray_inj.mp henc

variable {c : Char}

theorem encodeChar_ascii (h : c.toNat < 128) : String.utf8EncodeChar c = [UInt8.ofNat c.toNat] := by
  have hle : c.val.toNat ≤ 127 := Nat.le_of_lt_succ h
  simp only [String.utf8EncodeChar, hle, if_true]
  rfl

/-- The bytes of a character that is not ASCII are not, either. -/
theorem encodeChar_not_ascii (h : 128 ≤ c.toNat) {b : UInt8}
    (hb : b ∈ String.utf8EncodeChar c) : 128 ≤ b.toNat := by
  have hnot : ¬ c.val.toNat ≤ 127 := Nat.not_le.mpr h
  simp only [String.utf8EncodeChar, hnot, if_false] at hb
  split_ifs at hb
  all_goals
    simp only [List.mem_cons, List.not_mem_nil, or_false] at hb
    rcases hb with rfl | rfl | rfl | rfl <;> rw [UInt8.toNat_ofNat'] <;> omega

/-- A byte below 128 stands for the ASCII character of that number. -/
theorem mem_encode_ascii {b : UInt8} (hb : b ∈ encode text)
    (hascii : b.toNat < 128) : Char.ofNat b.toNat ∈ text := by
  obtain ⟨c, hc, hbc⟩ := List.mem_flatMap.mp hb
  by_cases hlt : c.toNat < 128
  · rw [encodeChar_ascii hlt, List.mem_singleton] at hbc
    have hval : b.toNat = c.toNat := by
      rw [hbc, UInt8.toNat_ofNat']
      omega
    rwa [hval, Char.ofNat_toNat]
  · have := encodeChar_not_ascii (by omega) hbc
    omega

/-- What holds of the first 128 characters holds of every ASCII character. -/
theorem ascii_forall {P : Char → Prop} (h : ∀ n : Fin 128, P (Char.ofNat n))
    (hc : c.toNat < 128) : P c := by
  simpa using h ⟨c.toNat, hc⟩

end LinkLake.Utf8
