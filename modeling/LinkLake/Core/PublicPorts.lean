import LinkLake.Core.PortExpression
import LinkLake.Foundations.BinarySearch
import LinkLake.Foundations.Fallible

/-!
# Sets of ports

Sets of ports as lists of ranges (`public_ports.rs`). An expression is parsed into its segments, and
those are brought into a normal form: sorted, with at least one port missing between two ranges. Only
then is the binary search in `contains` right.

A range is not empty and does not contain the port 0, and a `PortRanges` is in normal form; both carry
that as a field.
-/

namespace LinkLake.Ports

open Text Splitting Fallible BinarySearch

/-! ## Ranges -/

structure PortRange where
  start : UInt16
  stop : UInt16
  start_pos : start ≠ 0
  start_le : start ≤ stop
  deriving DecidableEq, Repr

instance : Membership UInt16 PortRange := ⟨fun range port => range.start ≤ port ∧ port ≤ range.stop⟩

instance (port : UInt16) (range : PortRange) : Decidable (port ∈ range) :=
  inferInstanceAs (Decidable (_ ∧ _))

variable {port : UInt16} {range : PortRange} {ranges : List PortRange}

theorem PortRange.mem_iff :
    port ∈ range ↔ range.start.toNat ≤ port.toNat ∧ port.toNat ≤ range.stop.toNat := by
  rw [← UInt16.le_iff_toNat_le, ← UInt16.le_iff_toNat_le]
  rfl

/-- Some range of the list contains the port. -/
def Covers (ranges : List PortRange) (port : UInt16) : Prop := ∃ range ∈ ranges, port ∈ range

/-- The ranges are sorted, and between two of them a port is missing. -/
def Separated (ranges : List PortRange) : Prop :=
  ranges.IsChain fun a b => a.stop.toNat + 1 < b.start.toNat

inductive PortRangesError
  | empty
  | invalidPort
  | descendingRange
  | emptySegment
  deriving DecidableEq, Repr

/-! ## The normal form -/

/-- The order by start, and then by end. -/
def SortsBefore (a b : PortRange) : Prop :=
  toLex (a.start.toNat, a.stop.toNat) ≤ toLex (b.start.toNat, b.stop.toNat)

instance : DecidableRel SortsBefore := fun a b =>
  inferInstanceAs (Decidable
    (toLex (a.start.toNat, a.stop.toNat) ≤ toLex (b.start.toNat, b.stop.toNat)))

/-- The range, reaching as far as the other one. -/
def PortRange.extend (previous range : PortRange) : PortRange where
  start := previous.start
  stop := max previous.stop range.stop
  start_pos := previous.start_pos
  start_le := by
    have := UInt16.le_iff_toNat_le.mp previous.start_le
    rw [UInt16.le_iff_toNat_le, UInt16.toNat_max]
    omega

/-- One round of the loop: the range is merged into the last one, if they overlap or touch. -/
def mergeRange (normalized : List PortRange) (range : PortRange) : List PortRange :=
  match normalized.getLast? with
  | some previous =>
    if range.start ≤ saturatingSucc previous.stop then
      normalized.dropLast ++ [previous.extend range]
    else normalized ++ [range]
  | none => normalized ++ [range]

/-- The ranges in normal form. -/
def normalizeRanges (ranges : List PortRange) : List PortRange :=
  (ranges.insertionSort SortsBefore).foldl mergeRange []

theorem covers_concat : Covers (ranges ++ [range]) port ↔ Covers ranges port ∨ port ∈ range := by
  simp only [Covers, List.mem_append, List.mem_singleton, or_and_right, exists_or, exists_eq_left]

/-- What the loop has made of the ranges `past`. -/
structure Merged (past normalized : List PortRange) : Prop where
  separated : Separated normalized
  covers : ∀ port, Covers normalized port ↔ Covers past port
  starts : ∀ a ∈ normalized, ∃ range ∈ past, a.start = range.start

theorem PortRange.mem_extend {previous : PortRange}
    (hle : previous.start ≤ range.start) (htouch : range.start ≤ saturatingSucc previous.stop) :
    port ∈ previous.extend range ↔ port ∈ previous ∨ port ∈ range := by
  have hrange := UInt16.le_iff_toNat_le.mp range.start_le
  rw [UInt16.le_iff_toNat_le] at hle htouch
  rw [toNat_saturatingSucc] at htouch
  have := range.stop.toNat_lt
  simp only [mem_iff, PortRange.extend, UInt16.toNat_max]
  omega

theorem Merged.step {past normalized : List PortRange}
    (h : Merged past normalized) (hle : ∀ r ∈ past, r.start ≤ range.start) :
    Merged (past ++ [range]) (mergeRange normalized range) := by
  have hstarts : ∀ a ∈ normalized, ∃ r ∈ past ++ [range], a.start = r.start := fun a ha =>
    (h.starts a ha).imp fun r hr => ⟨by simp [hr.1], hr.2⟩
  unfold mergeRange
  split
  · rename_i previous hlast
    obtain ⟨init, rfl⟩ := List.getLast?_eq_some_iff.mp hlast
    obtain ⟨r, hr, hstart⟩ := h.starts previous (by simp)
    have hprevious := hstart ▸ hle r hr
    have hseparated := List.isChain_append.mp h.separated
    split
    · rename_i htouch
      rw [List.dropLast_concat]
      refine ⟨?_, ?_, ?_⟩
      · refine List.isChain_append.mpr ⟨hseparated.1, List.isChain_singleton _, ?_⟩
        intro a ha b hb
        obtain rfl : previous.extend range = b := by simpa using hb
        exact hseparated.2.2 a ha previous rfl
      · intro port
        rw [covers_concat, covers_concat, PortRange.mem_extend hprevious htouch, ← h.covers,
          covers_concat, or_assoc]
      · intro a ha
        rcases List.mem_append.mp ha with ha | ha
        · exact hstarts a (by simp [ha])
        · obtain rfl := List.mem_singleton.mp ha
          exact hstarts previous (by simp)
    · rename_i htouch
      refine ⟨?_, ?_, ?_⟩
      · refine List.isChain_append.mpr ⟨h.separated, List.isChain_singleton _, ?_⟩
        intro a ha b hb
        obtain rfl : previous = a := by simpa using ha
        obtain rfl : range = b := by simpa using hb
        rw [UInt16.le_iff_toNat_le, toNat_saturatingSucc] at htouch
        have := range.start.toNat_lt
        omega
      · intro port
        rw [covers_concat, h.covers, covers_concat]
      · intro a ha
        rcases List.mem_append.mp ha with ha | ha
        · exact hstarts a ha
        · exact ⟨range, by simp, by rw [List.mem_singleton.mp ha]⟩
  · rename_i hlast
    obtain rfl := List.getLast?_eq_none_iff.mp hlast
    refine ⟨List.isChain_singleton _, ?_, ?_⟩
    · intro port
      rw [covers_concat, covers_concat, h.covers]
    · intro a ha
      exact ⟨range, by simp, by rw [List.mem_singleton.mp ha]⟩

theorem merged_foldl (h : ranges.Pairwise SortsBefore) :
    Merged ranges (ranges.foldl mergeRange []) := by
  induction ranges using List.reverseRecOn with
  | nil => exact ⟨.nil, fun _ => Iff.rfl, by simp⟩
  | append_singleton ranges range ih =>
    rw [List.pairwise_append] at h
    rw [List.foldl_append]
    apply (ih h.1).step
    intro r hr
    have hbefore : SortsBefore r range := h.2.2 r hr range (by simp)
    rw [UInt16.le_iff_toNat_le]
    rcases Prod.Lex.toLex_le_toLex.mp hbefore with hlt | ⟨heq, -⟩
    · exact hlt.le
    · exact heq.le

instance : Std.Total SortsBefore := ⟨fun _ _ => le_total _ _⟩

instance : IsTrans PortRange SortsBefore := ⟨fun _ _ _ => le_trans⟩

/-- **The normal form.** The ranges in normal form are separated and cover the same ports. -/
theorem merged_normalizeRanges (ranges : List PortRange) :
    Separated (normalizeRanges ranges) ∧
      ∀ port, Covers (normalizeRanges ranges) port ↔ Covers ranges port := by
  have h := merged_foldl (ranges.pairwise_insertionSort SortsBefore)
  refine ⟨h.separated, fun port => (h.covers port).trans ?_⟩
  simp only [Covers, (ranges.perm_insertionSort SortsBefore).mem_iff]

theorem normalizeRanges_eq_self (h : Separated ranges) : normalizeRanges ranges = ranges := by
  have hstop : ∀ r : PortRange, r.start.toNat ≤ r.stop.toNat := fun r =>
    UInt16.le_iff_toNat_le.mp r.start_le
  have hsorted : ranges.Pairwise SortsBefore := by
    apply List.IsChain.pairwise
    apply h.imp
    intro a b hab
    have := hstop a
    exact Prod.Lex.toLex_le_toLex.mpr (.inl (by simp only; omega))
  rw [normalizeRanges, hsorted.insertionSort_eq]
  induction ranges using List.reverseRecOn with
  | nil => rfl
  | append_singleton ranges range ih =>
    have hinit := List.isChain_append.mp h
    rw [List.foldl_append, ih hinit.1 (List.pairwise_append.mp hsorted).1]
    simp only [List.foldl_cons, List.foldl_nil, mergeRange]
    split
    · rename_i previous hlast
      have hgap := hinit.2.2 previous hlast range rfl
      rw [if_neg]
      rw [UInt16.le_iff_toNat_le, toNat_saturatingSucc]
      omega
    · rfl

/-! ## Sets of ports -/

structure PortRanges where
  ranges : List PortRange
  separated : Separated ranges
  deriving DecidableEq, Repr

namespace PortRanges

/-- The normal form of a list of ranges. -/
def ofRanges (ranges : List PortRange) : PortRanges :=
  ⟨normalizeRanges ranges, (merged_normalizeRanges ranges).1⟩

def empty : PortRanges := ⟨[], .nil⟩

/-- Where the range lies relative to the port. -/
def compareTo (port : UInt16) (range : PortRange) : Ordering :=
  if port < range.start then .gt else if range.stop < port then .lt else .eq

def contains (set : PortRanges) (port : UInt16) : Bool :=
  port != 0 && (binarySearchBy set.ranges (compareTo port)).isSome

def expression (set : PortRanges) : String :=
  String.ofList (joinText (set.ranges.map fun range => rangeText range.start range.stop))

/-- The range of one port. -/
def single (port : UInt16) (h : port ≠ 0) : PortRange := ⟨port, port, h, UInt16.le_refl port⟩

def includingPorts (set : PortRanges) (ports : List UInt16) : PortRanges :=
  ofRanges (set.ranges ++ ports.filterMap fun port =>
    if h : port ≠ 0 then some (single port h) else none)

end PortRanges

/-! ## Parsing -/

def parsePort (value : List Char) : Except PortRangesError { port : UInt16 // port ≠ 0 } :=
  match parseUnsigned 16 (trimChars value) with
  | none => .error .invalidPort
  | some port =>
    if h : UInt16.ofNat port ≠ 0 then .ok ⟨UInt16.ofNat port, h⟩ else .error .invalidPort

/-- One segment of an expression. -/
def parseSegment (segment : List Char) : Except PortRangesError PortRange :=
  let segment := trimChars segment
  if segment.isEmpty then .error .emptySegment
  else
    match splitOnce '-' segment with
    | some (start, stop) =>
      if '-' ∈ stop then .error .invalidPort
      else do
        let start ← parsePort start
        let stop ← parsePort stop
        if h : start.1 ≤ stop.1 then return ⟨start.1, stop.1, start.2, h⟩
        else .error .descendingRange
    | none => do
      let port ← parsePort segment
      return PortRanges.single port.1 port.2

/-- The segments of an expression. -/
def segments (expression : String) : List (List Char) :=
  if (trimChars expression.toList).isEmpty then [] else (trimChars expression.toList).splitOn ','

def parseRanges (expression : String) (allowEmpty : Bool) : Except PortRangesError PortRanges :=
  if (trimChars expression.toList).isEmpty then
    if allowEmpty then .ok .empty else .error .empty
  else do
    let ranges ← (segments expression).mapM parseSegment
    return .ofRanges ranges

namespace PortRanges

def parse (expression : String) : Except PortRangesError PortRanges := parseRanges expression false

def parseOptional (expression : String) : Except PortRangesError PortRanges :=
  parseRanges expression true

end PortRanges

/-! ## Membership -/

theorem ne_zero_of_covers (h : Covers ranges port) : port ≠ 0 := by
  rintro rfl
  obtain ⟨range, -, hmem⟩ := h
  have hpos : range.start.toNat ≠ 0 := fun h0 => range.start_pos (UInt16.toNat_inj.mp h0)
  have hzero : (0 : UInt16).toNat = 0 := rfl
  rw [PortRange.mem_iff] at hmem
  omega

theorem pairwise_of_separated (h : Separated ranges) :
    ranges.Pairwise fun a b => a.stop.toNat + 1 < b.start.toNat := by
  have htrans : IsTrans PortRange fun a b => a.stop.toNat + 1 < b.start.toNat := by
    refine ⟨fun a b c hab hbc => ?_⟩
    have := UInt16.le_iff_toNat_le.mp b.start_le
    omega
  exact List.isChain_iff_pairwise.mp h

namespace PortRanges

variable {set : PortRanges}

theorem compareTo_eq {range : PortRange} : compareTo port range = .eq ↔ port ∈ range := by
  rw [PortRange.mem_iff, compareTo]
  split_ifs <;> simp only [UInt16.lt_iff_toNat_lt] at * <;> simp <;> omega

/-- **Binary search agrees with membership.** -/
theorem contains_eq_true :
    set.contains port = true ↔ Covers set.ranges port := by
  have hordered : set.ranges.Pairwise fun a b =>
      (compareTo port b = .lt → compareTo port a = .lt) ∧
        (compareTo port a = .gt → compareTo port b = .gt) := by
    apply (pairwise_of_separated set.separated).imp
    intro a b hab
    have ha := UInt16.le_iff_toNat_le.mp a.start_le
    have hb := UInt16.le_iff_toNat_le.mp b.start_le
    unfold compareTo
    simp only [UInt16.lt_iff_toNat_lt]
    constructor
    · split_ifs <;> simp <;> omega
    · split_ifs <;> simp <;> omega
  rw [contains, Bool.and_eq_true, isSome_binarySearchBy hordered]
  simp only [compareTo_eq, bne_iff_ne]
  exact ⟨fun h => h.2, fun h => ⟨ne_zero_of_covers h, h⟩⟩

theorem covers_includingPorts {ports : List UInt16} :
    Covers (set.includingPorts ports).ranges port ↔
      port ≠ 0 ∧ (Covers set.ranges port ∨ port ∈ ports) := by
  have hsingle : ∀ (p : UInt16) (h : p ≠ 0), port ∈ single p h ↔ port = p := by
    intro p h
    rw [PortRange.mem_iff, ← UInt16.toNat_inj]
    simp only [single]
    omega
  have hadded : Covers (ports.filterMap fun port =>
      if h : port ≠ 0 then some (single port h) else none) port ↔ port ≠ 0 ∧ port ∈ ports := by
    constructor
    · rintro ⟨range, hrange, hmem⟩
      obtain ⟨p, hp, hsome⟩ := List.mem_filterMap.mp hrange
      split at hsome
      · rename_i hpos
        cases hsome
        obtain rfl := (hsingle p hpos).mp hmem
        exact ⟨hpos, hp⟩
      · cases hsome
    · rintro ⟨hpos, hp⟩
      exact ⟨single port hpos, List.mem_filterMap.mpr ⟨port, hp, dif_pos hpos⟩,
        (hsingle port hpos).mpr rfl⟩
  have happend : ∀ a b, Covers (a ++ b) port ↔ Covers a port ∨ Covers b port := by
    intro a b
    simp only [Covers, List.mem_append, or_and_right, exists_or]
  rw [includingPorts, ofRanges, (merged_normalizeRanges _).2, happend, hadded]
  constructor
  · rintro (h | h)
    · exact ⟨ne_zero_of_covers h, .inl h⟩
    · exact ⟨h.1, .inr h.2⟩
  · rintro ⟨hpos, h | h⟩
    · exact .inl h
    · exact .inr ⟨hpos, h⟩

end PortRanges

/-- The port lies in the segment. -/
def InSegment (segment : List Char) (port : UInt16) : Prop :=
  ∃ range, parseSegment segment = .ok range ∧ port ∈ range

theorem covers_parseRanges {expression : String} {allowEmpty : Bool} {set : PortRanges}
    (h : parseRanges expression allowEmpty = .ok set) (port : UInt16) :
    Covers set.ranges port ↔ ∃ segment ∈ segments expression, InSegment segment port := by
  unfold parseRanges at h
  split at h
  · rename_i hempty
    split at h
    · cases h
      simp [segments, hempty, PortRanges.empty, Covers]
    · cases h
  · obtain ⟨ranges, hranges, h⟩ := bind_eq_ok.mp h
    cases h
    rw [PortRanges.ofRanges, (merged_normalizeRanges ranges).2]
    constructor
    · rintro ⟨range, hrange, hmem⟩
      obtain ⟨segment, hsegment, hparse⟩ := exists_mem_of_ok hranges hrange
      exact ⟨segment, hsegment, range, hparse, hmem⟩
    · rintro ⟨segment, hsegment, range, hparse, hmem⟩
      obtain ⟨range', hrange, hparse'⟩ := exists_ok_of_mem hranges hsegment
      cases hparse.symm.trans hparse'
      exact ⟨range, hrange, hmem⟩

/-! ## Printing and parsing -/

theorem parsePort_portText (h : port ≠ 0) : parsePort (portText port) = .ok ⟨port, h⟩ := by
  simp [parsePort, trimChars_portText, parseUnsigned_portText, h]

theorem parseSegment_rangeText (range : PortRange) :
    parseSegment (rangeText range.start range.stop) = .ok range := by
  obtain ⟨start, stop, hpos, hle⟩ := range
  have hstop : stop ≠ 0 := by
    rintro rfl
    exact hpos (UInt16.le_zero_iff.mp hle)
  simp only [parseSegment, trimChars_rangeText, List.isEmpty_iff, rangeText_ne_nil, if_false]
  unfold rangeText
  by_cases heq : start = stop
  · subst heq
    rw [if_pos rfl, splitOnce_eq_none (dash_notMem_portText start)]
    simp only [parsePort_portText hpos, ok_bind]
    rfl
  · rw [if_neg heq, splitOnce_append (dash_notMem_portText start)]
    simp only [dash_notMem_portText, if_false, parsePort_portText hpos, parsePort_portText hstop,
      ok_bind, dif_pos hle]
    rfl

/-- **The expression of a set is parsed into the same set.** -/
theorem parseOptional_expression (set : PortRanges) :
    PortRanges.parseOptional set.expression = .ok set := by
  have hparts : AreRanges (set.ranges.map fun range => rangeText range.start range.stop) := by
    intro part hpart
    obtain ⟨range, -, rfl⟩ := List.mem_map.mp hpart
    exact ⟨range.start, range.stop, rfl⟩
  obtain ⟨ranges, hseparated⟩ := set
  simp only [PortRanges.parseOptional, parseRanges, segments, PortRanges.expression,
    String.toList_ofList, trimChars_joinText hparts, List.isEmpty_iff, joinText_eq_nil hparts]
  split
  · rename_i hnil
    obtain rfl := List.map_eq_nil_iff.mp hnil
    rfl
  · rename_i hne
    rw [splitOn_joinText hparts hne]
    have hmap : (ranges.map fun range => rangeText range.start range.stop).mapM parseSegment =
        .ok ranges := by
      rw [mapM_eq_ok_iff, List.forall₂_map_left_iff, List.forall₂_same]
      exact fun range _ => parseSegment_rangeText range
    rw [hmap, ok_bind]
    simp only [PortRanges.ofRanges, normalizeRanges_eq_self hseparated]
    rfl

/-! ## Main result -/

/-- The set is exactly the ports other than 0 with a property: its ranges are sorted, disjoint and not
adjacent, `contains` says which ports it has, and its expression is parsed into the same set. -/
structure Denotes (set : PortRanges) (P : UInt16 → Prop) : Prop where
  ordered : set.ranges.Pairwise fun a b => a.stop.toNat + 1 < b.start.toNat
  contains_iff : ∀ port, set.contains port = true ↔ port ≠ 0 ∧ P port
  reparsed : PortRanges.parseOptional set.expression = .ok set

theorem denotes_of_covers {set : PortRanges} {P : UInt16 → Prop}
    (h : ∀ port, Covers set.ranges port ↔ port ≠ 0 ∧ P port) : Denotes set P where
  ordered := pairwise_of_separated set.separated
  contains_iff port := PortRanges.contains_eq_true.trans (h port)
  reparsed := parseOptional_expression set

/-- **A set of ports denotes exactly what was written.** A parsed expression denotes the ports in its
segments, and a set with more ports denotes those as well. -/
theorem denotes_exactly {expression : String} {set : PortRanges}
    (h : PortRanges.parse expression = .ok set ∨ PortRanges.parseOptional expression = .ok set) :
    Denotes set (fun port => ∃ segment ∈ segments expression, InSegment segment port) ∧
      (∀ ports, Denotes (set.includingPorts ports) fun port =>
        (∃ segment ∈ segments expression, InSegment segment port) ∨ port ∈ ports) ∧
      ∀ (other : PortRanges) (ports : List UInt16), Denotes (other.includingPorts ports) fun port =>
        other.contains port = true ∨ port ∈ ports := by
  have hcovers : ∀ port, Covers set.ranges port ↔
      ∃ segment ∈ segments expression, InSegment segment port := by
    rcases h with h | h
    · exact covers_parseRanges h
    · exact covers_parseRanges h
  refine ⟨denotes_of_covers fun port => ?_, fun ports => denotes_of_covers fun port => ?_,
    fun other ports => denotes_of_covers fun port => ?_⟩
  · rw [← hcovers]
    exact ⟨fun hc => ⟨ne_zero_of_covers hc, hc⟩, fun hc => hc.2⟩
  · rw [PortRanges.covers_includingPorts, hcovers]
  · rw [PortRanges.covers_includingPorts, PortRanges.contains_eq_true]

/-- Overlapping, adjacent and unordered segments. -/
theorem denotes_exactly_unordered : ∃ set, PortRanges.parse "443,80,100-110,108-120,81" = .ok set ∧
    (set.includingPorts [82, 65535]).contains 115 = true ∧
    Denotes (set.includingPorts [82, 65535]) fun port =>
      (∃ segment ∈ segments "443,80,100-110,108-120,81", InSegment segment port) ∨
        port ∈ [82, 65535] := by
  have hparse : ∃ set, PortRanges.parse "443,80,100-110,108-120,81" = .ok set ∧
      (set.includingPorts [82, 65535]).contains 115 = true := by
    refine ⟨⟨[⟨80, 81, by decide, by decide⟩, ⟨100, 120, by decide, by decide⟩,
      ⟨443, 443, by decide, by decide⟩], ?_⟩, ?_, ?_⟩
    · simp [Separated]
    · decide +kernel
    · rw [PortRanges.contains_eq_true, PortRanges.covers_includingPorts]
      exact ⟨by decide, .inl ⟨⟨100, 120, by decide, by decide⟩, by simp, by decide⟩⟩
  obtain ⟨set, hset, hcontains⟩ := hparse
  exact ⟨set, hset, hcontains, (denotes_exactly (.inl hset)).2.1 [82, 65535]⟩

end LinkLake.Ports
