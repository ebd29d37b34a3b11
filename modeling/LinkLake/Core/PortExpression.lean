import LinkLake.Foundations.Splitting
import LinkLake.Foundations.Text
import LinkLake.Foundations.Utf8

/-!
# Port expressions

How ports and closed ranges of ports are written: `80`, `8000-8010`, and lists of these with commas.
The port sets (`public_ports.rs`) and the port mappings (`port_mapping.rs`) are printed in this form,
and the lemmas say how a printed expression is taken apart again.
-/

namespace LinkLake.Ports

open Text Splitting

/-- A port in decimal. -/
def portText (port : UInt16) : List Char := Nat.toDigits 10 port.toNat

/-- A closed range, or a single port. -/
def rangeText (start stop : UInt16) : List Char :=
  if start = stop then portText start else portText start ++ '-' :: portText stop

/-- Parts with commas between them. -/
def joinText (parts : List (List Char)) : List Char := [','].intercalate parts

/-- The next port; the last one stays. -/
def saturatingSucc (port : UInt16) : UInt16 := if port = 65535 then port else port + 1

theorem toNat_saturatingSucc (port : UInt16) :
    (saturatingSucc port).toNat = min (port.toNat + 1) 65535 := by
  have hlt := port.toNat_lt
  unfold saturatingSucc
  split
  · rename_i h
    subst h
    rfl
  · rename_i h
    have hne : port.toNat ≠ 65535 := fun heq => h (UInt16.toNat_inj.mp heq)
    rw [UInt16.toNat_add]
    simp only [UInt16.reduceToNat]
    omega

/-! ## The characters of an expression -/

variable {c : Char}

theorem isDigit_of_mem_portText {port : UInt16} (hc : c ∈ portText port) : c.isDigit = true :=
  Nat.isDigit_of_mem_toDigits (by decide) (by decide) hc

theorem portText_ne_nil (port : UInt16) : portText port ≠ [] := Nat.toDigits_ne_nil

theorem isDigit_separate (hc : c.isDigit = true) : isWhitespace c = false ∧ c ≠ ',' ∧ c ≠ '-' := by
  have hascii : c.toNat < 128 := isAlphanum_ascii (by simp [Char.isAlphanum, hc])
  exact Utf8.ascii_forall
    (P := fun c => c.isDigit = true → isWhitespace c = false ∧ c ≠ ',' ∧ c ≠ '-')
    (by decide +kernel) hascii hc

theorem trimChars_portText (port : UInt16) : trimChars (portText port) = portText port :=
  trimChars_eq_self fun _ hc => (isDigit_separate (isDigit_of_mem_portText hc)).1

theorem dash_notMem_portText (port : UInt16) : '-' ∉ portText port :=
  fun hc => (isDigit_separate (isDigit_of_mem_portText hc)).2.2 rfl

theorem rangeText_ne_nil (start stop : UInt16) : rangeText start stop ≠ [] := by
  unfold rangeText
  split
  · exact portText_ne_nil start
  · simp

theorem of_mem_rangeText {start stop : UInt16} (hc : c ∈ rangeText start stop) :
    isWhitespace c = false ∧ c ≠ ',' := by
  have hdigit : ∀ port, c ∈ portText port → isWhitespace c = false ∧ c ≠ ',' := fun port h =>
    let hseparate := isDigit_separate (isDigit_of_mem_portText h)
    ⟨hseparate.1, hseparate.2.1⟩
  unfold rangeText at hc
  split at hc
  · exact hdigit start hc
  · rcases List.mem_append.mp hc with hc | hc
    · exact hdigit start hc
    · rcases List.mem_cons.mp hc with rfl | hc
      · decide
      · exact hdigit stop hc

theorem trimChars_rangeText (start stop : UInt16) :
    trimChars (rangeText start stop) = rangeText start stop :=
  trimChars_eq_self fun _ hc => (of_mem_rangeText hc).1

/-! ## Lists -/

/-- Every part is a range. -/
def AreRanges (parts : List (List Char)) : Prop :=
  ∀ part ∈ parts, ∃ start stop, part = rangeText start stop

variable {parts : List (List Char)}

theorem splitOn_joinText (h : AreRanges parts) (hne : parts ≠ []) :
    (joinText parts).splitOn ',' = parts := by
  apply List.splitOn_intercalate _ _ hne
  intro part hpart hcomma
  obtain ⟨start, stop, rfl⟩ := h part hpart
  exact (of_mem_rangeText hcomma).2 rfl

theorem trimChars_joinText (h : AreRanges parts) : trimChars (joinText parts) = joinText parts := by
  by_cases hne : parts = []
  · subst hne
    rfl
  · apply trimChars_eq_self
    intro c hc
    rcases mem_splitOn_or (d := ',') hc with rfl | ⟨part, hpart, hc⟩
    · decide
    · rw [splitOn_joinText h hne] at hpart
      obtain ⟨start, stop, rfl⟩ := h part hpart
      exact (of_mem_rangeText hc).1

theorem joinText_eq_nil (h : AreRanges parts) : joinText parts = [] ↔ parts = [] := by
  constructor
  · intro hnil
    by_contra hne
    have hsplit := splitOn_joinText h hne
    rw [hnil] at hsplit
    obtain ⟨start, stop, hpart⟩ := h [] (by simp [← hsplit])
    exact rangeText_ne_nil start stop hpart.symm
  · rintro rfl
    rfl

theorem parseUnsigned_portText (port : UInt16) :
    parseUnsigned 16 (portText port) = some port.toNat :=
  parseUnsigned_toDigits port.toNat_lt

end LinkLake.Ports
