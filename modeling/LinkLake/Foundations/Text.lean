import Mathlib

/-!
# Text

The character classes that the code takes from Unicode, and trimming. The length of a text is its
length in UTF-8.

What is parsed character by character is a list of characters: `trimChars` trims it, `lower` makes
its ASCII letters small, and `parseUnsigned` reads it as an unsigned decimal number.
-/

namespace LinkLake.Text

/-- Unicode's `White_Space`. -/
def isWhitespace (c : Char) : Bool :=
  (0x09 ≤ c.val && c.val ≤ 0x0d) || c.val == 0x20 || c.val == 0x85 || c.val == 0xa0
    || c.val == 0x1680 || (0x2000 ≤ c.val && c.val ≤ 0x200a) || c.val == 0x2028
    || c.val == 0x2029 || c.val == 0x202f || c.val == 0x205f || c.val == 0x3000

/-- Unicode's control characters, the category `Cc`. -/
def isControl (c : Char) : Bool := c.val ≤ 0x1f || (0x7f ≤ c.val && c.val ≤ 0x9f)

/-- The text form that a library gives to the values of a type. -/
structure TextForm (α : Type*) where
  parse : List Char → Option α
  format : α → List Char

/-! ## Lists of characters -/

/-- A list of characters without the white space around it. -/
def trimChars (s : List Char) : List Char := (s.dropWhile isWhitespace).rdropWhile isWhitespace

/-- A text without the white space around it. -/
def trim (s : String) : String := String.ofList (trimChars s.toList)

/-- The ASCII letters made small. -/
def lower (s : List Char) : List Char := s.map Char.toLower

/-- A decimal number of at most so many bits. A plus sign may stand in front of it. -/
def parseUnsigned (bits : ℕ) (s : List Char) : Option ℕ :=
  let digits := match s with
    | '+' :: digits => digits
    | digits => digits
  if digits.isEmpty || !digits.all Char.isDigit then none
  else
    let n := Nat.ofDigitChars 10 digits 0
    if n < 2 ^ bits then some n else none

/-- A text without white space is trimmed. -/
theorem trimChars_eq_self {s : List Char} (h : ∀ c ∈ s, isWhitespace c = false) :
    trimChars s = s := by
  have hfront : s.dropWhile isWhitespace = s := by
    rw [List.dropWhile_eq_self_iff]
    intro hpos
    simp [h _ (List.getElem_mem hpos)]
  rw [trimChars, hfront, List.rdropWhile_eq_self_iff]
  intro hne
  simp [h _ (List.getLast_mem hne)]

/-- Trimming takes only white space away. -/
theorem filter_trimChars (s : List Char) :
    (trimChars s).filter (!isWhitespace ·) = s.filter (!isWhitespace ·) := by
  have hdrop : ∀ s : List Char,
      (s.dropWhile isWhitespace).filter (!isWhitespace ·) = s.filter (!isWhitespace ·) := by
    intro s
    induction s with
    | nil => rfl
    | cons c s ih => by_cases hc : isWhitespace c = true <;> simp [hc, ih]
  rw [trimChars, List.rdropWhile, List.filter_reverse, hdrop, List.filter_reverse, hdrop,
    List.reverse_reverse]

theorem parseUnsigned_of_digits {bits n : ℕ} {s : List Char} (hdigits : ∀ c ∈ s, c.isDigit = true)
    (h : parseUnsigned bits s = some n) : Nat.ofDigitChars 10 s 0 = n ∧ n < 2 ^ bits := by
  unfold parseUnsigned at h
  split at h
  · exact absurd (hdigits '+' (by simp)) (by decide)
  · dsimp only at h
    split_ifs at h with hempty hlt
    cases h
    exact ⟨rfl, hlt⟩

theorem parseUnsigned_toDigits {bits n : ℕ} (hn : n < 2 ^ bits) :
    parseUnsigned bits (Nat.toDigits 10 n) = some n := by
  have hdigit : ∀ c ∈ Nat.toDigits 10 n, c.isDigit := fun c hc =>
    Nat.isDigit_of_mem_toDigits (by decide) (by decide) hc
  cases hs : Nat.toDigits 10 n with
  | nil => exact absurd hs Nat.toDigits_ne_nil
  | cons c s =>
    have hplus : c ≠ '+' := by
      rintro rfl
      simpa using hdigit '+' (by simp [hs])
    have hall := List.all_eq_true.mpr (hs ▸ hdigit)
    have hval := hs ▸ Nat.ofDigitChars_ten_toDigits
    unfold parseUnsigned
    split
    · rename_i heq
      exact absurd (List.cons.inj heq).1 hplus
    · simp only [hall, hval, hn, List.isEmpty_cons, Bool.not_true, Bool.or_self, Bool.false_eq_true,
        if_false, if_true]

theorem isAlphanum_ascii {c : Char} (h : c.isAlphanum) : c.toNat < 128 := by
  simp only [Char.isAlphanum, Char.isAlpha, Char.isUpper, Char.isLower, Char.isDigit, Bool.or_eq_true,
    Bool.and_eq_true, decide_eq_true_eq, UInt32.le_iff_toNat_le, ge_iff_le] at h
  have : c.toNat = c.val.toNat := rfl
  simp at h
  omega

end LinkLake.Text
