import LinkLake.Foundations.BigEndian

/-!
# Self-delimiting codes

A code is self-delimiting if a reader who knows where a codeword starts also knows where it ends, and
what it stands for. A sequence of such codes is one again (`SelfDelimiting.pair`); a code with words
of one length is (`selfDelimiting_of_length_eq`), and so is a string of bytes behind its length
(`selfDelimiting_lengthPrefixed`). What is gained is that no codeword is a proper initial part of
another, and different values have different codewords.
-/

namespace LinkLake

open BigEndian

variable {α β γ : Type*}

/-- Where one codeword with something behind it begins another, the values and the rest agree. -/
def SelfDelimiting (encode : α → List β) : Prop :=
  ∀ a b r r', encode a ++ r <+: encode b ++ r' → a = b ∧ r <+: r'

namespace SelfDelimiting

variable {encode : α → List β} {encode' : γ → List β}

variable (h : SelfDelimiting encode)
include h

/-- No codeword begins the codeword of another value. -/
theorem eq_of_isPrefix {a b : α} (hab : encode a <+: encode b) : a = b := by
  have happend : encode a ++ [] <+: encode b ++ [] := by simpa using hab
  exact (h a b [] [] happend).1

theorem injective : Function.Injective encode := fun _ _ hab =>
  h.eq_of_isPrefix (hab ▸ List.prefix_rfl)

theorem pair (h' : SelfDelimiting encode') :
    SelfDelimiting fun x : α × γ => encode x.1 ++ encode' x.2 := by
  rintro ⟨a, c⟩ ⟨b, d⟩ r r' hpre
  simp only [List.append_assoc] at hpre
  obtain ⟨rfl, hrest⟩ := h a b _ _ hpre
  obtain ⟨rfl, hlast⟩ := h' c d _ _ hrest
  exact ⟨rfl, hlast⟩

theorem const_append (text : List β) : SelfDelimiting fun a => text ++ encode a := by
  intro a b r r' hpre
  simp only [List.append_assoc, List.prefix_append_right_inj] at hpre
  exact h a b r r' hpre

theorem comp {f : γ → α} (hf : Function.Injective f) : SelfDelimiting fun c => encode (f c) := by
  intro c d r r' hpre
  obtain ⟨heq, hrest⟩ := h (f c) (f d) r r' hpre
  exact ⟨hf heq, hrest⟩

end SelfDelimiting

theorem selfDelimiting_of_length_eq {encode : α → List β} {n : ℕ}
    (hlength : ∀ a, (encode a).length = n) (hinj : Function.Injective encode) :
    SelfDelimiting encode := by
  intro a b r r' hpre
  have hfirst := (List.prefix_append _ _).trans hpre
  have hle : encode a <+: encode b :=
    List.prefix_of_prefix_length_le hfirst (List.prefix_append _ _) (by simp [hlength])
  have heq : encode a = encode b := hle.eq_of_length (by simp [hlength])
  rw [heq, List.prefix_append_right_inj] at hpre
  exact ⟨hinj heq, hpre⟩

/-- A string of bytes whose length is a word of `w` bytes. -/
structure Sized (w : ℕ) where
  bytes : List UInt8
  length_lt : bytes.length < 256 ^ w
  deriving DecidableEq

/-- The length, and then the bytes. -/
def lengthPrefixed {w : ℕ} (s : Sized w) : List UInt8 := beBytes w s.bytes.length ++ s.bytes

theorem selfDelimiting_lengthPrefixed (w : ℕ) :
    SelfDelimiting (lengthPrefixed : Sized w → List UInt8) := by
  rintro ⟨s, hs⟩ ⟨t, ht⟩ r r' hpre
  simp only [lengthPrefixed, List.append_assoc] at hpre
  -- the lengths have the same number of bytes, so they are read alike
  have hword : SelfDelimiting fun n : Fin (256 ^ w) => beBytes w n :=
    selfDelimiting_of_length_eq (fun n => length_beBytes w n) fun m n h =>
      Fin.ext (beBytes_injOn m.isLt n.isLt h)
  obtain ⟨heq, hrest⟩ := hword ⟨s.length, hs⟩ ⟨t.length, ht⟩ _ _ hpre
  have hlength : s.length = t.length := congrArg Fin.val heq
  have hle : s <+: t :=
    List.prefix_of_prefix_length_le ((List.prefix_append s r).trans hrest)
      (List.prefix_append t r') hlength.le
  obtain rfl := hle.eq_of_length hlength
  rw [List.prefix_append_right_inj] at hrest
  exact ⟨rfl, hrest⟩

end LinkLake
