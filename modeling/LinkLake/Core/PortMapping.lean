import LinkLake.Core.PortExpression
import LinkLake.Foundations.Fallible

/-!
# Port mappings

Lists of ports and the mappings between them (`port_mapping.rs`). An expression is expanded into a
list of distinct ports, in the order in which it names them; two lists of the same length are mapped
onto each other. The normal form of a list merges ports that follow each other, but keeps the order.

What an expression stands for is said apart from the parser (`portsOf`), and what is parsed is that
(`portsOf_of_parse`). The normal form is expanded into the list it was made from, so that a mapping
in normal form is parsed into itself.
-/

namespace LinkLake.Ports

open Text Fallible

/-! ## Model -/

def maxPortMappings : ℕ := 256

structure PortPair where
  publicPort : UInt16
  targetPort : UInt16
  deriving DecidableEq, Repr

structure ParsedPortMappings where
  publicPorts : String
  targetPorts : String
  pairs : List PortPair
  deriving DecidableEq, Repr

inductive PortMappingError
  | empty
  | invalidSyntax
  | descendingRange
  | portOutOfRange
  | duplicatePort
  | tooManyPorts
  | countMismatch
  deriving DecidableEq, Repr

namespace Mapping

def parsePort (value : List Char) : Except PortMappingError UInt16 :=
  if value.isEmpty || !value.all Char.isDigit then .error .invalidSyntax
  else
    match parseUnsigned 16 value with
    | some port => .ok (UInt16.ofNat port)
    | none => .error .portOutOfRange

/-- The bounds of an item. -/
def parseBounds (item : List Char) : Except PortMappingError (UInt16 × UInt16) :=
  match (item.splitOn '-').map trimChars with
  | [port] => do
    let port ← parsePort port
    return (port, port)
  | [start, stop] =>
    if !start.isEmpty && !stop.isEmpty then do
      let start ← parsePort start
      let stop ← parsePort stop
      return (start, stop)
    else .error .invalidSyntax
  | _ => .error .invalidSyntax

/-- One item of an expression, up to the expansion. -/
def parseItem (minimum maximum : UInt16) (item : List Char) :
    Except PortMappingError (UInt16 × UInt16) := do
  let item := trimChars item
  rejectIf (item.isEmpty = true) .invalidSyntax
  let bounds ← parseBounds item
  rejectIf (bounds.2 < bounds.1) .descendingRange
  rejectIf (bounds.1 < minimum ∨ maximum < bounds.2) .portOutOfRange
  return bounds

/-- The ports of a closed range. -/
def expand (start stop : UInt16) : List UInt16 :=
  (List.range' start.toNat (stop.toNat + 1 - start.toNat)).map UInt16.ofNat

/-- One more port. The set of ports that were seen is that of the ports in the list. -/
def pushPort (maximumCount : ℕ) (ports : List UInt16) (port : UInt16) :
    Except PortMappingError (List UInt16) := do
  rejectIf (port ∈ ports) .duplicatePort
  rejectIf (maximumCount < (ports ++ [port]).length) .tooManyPorts
  return ports ++ [port]

/-- One more item. -/
def pushItem (minimum maximum : UInt16) (maximumCount : ℕ) (ports : List UInt16)
    (item : List Char) : Except PortMappingError (List UInt16) := do
  let bounds ← parseItem minimum maximum item
  (expand bounds.1 bounds.2).foldlM (pushPort maximumCount) ports

/-- The bounds and consecutive ports of a list, as ranges. The two loops of the source are one here:
`start` and `stop` are the range in progress. -/
def groupRuns (start stop : UInt16) : List UInt16 → List (UInt16 × UInt16)
  | [] => [(start, stop)]
  | port :: ports =>
    if port = saturatingSucc stop then groupRuns start port ports
    else (start, stop) :: groupRuns port port ports

end Mapping

open Mapping

def parsePortSet (expression : String) (minimum maximum : UInt16) (maximumCount : ℕ) :
    Except PortMappingError (List UInt16) := do
  rejectIf ((trimChars expression.toList).isEmpty = true) .empty
  rejectIf (minimum = 0 ∨ maximum < minimum ∨ maximumCount = 0) .portOutOfRange
  (expression.toList.splitOn ',').foldlM (pushItem minimum maximum maximumCount) []

/-- The ranges of the normal form. -/
def normalRanges : List UInt16 → List (UInt16 × UInt16)
  | [] => []
  | port :: ports => groupRuns port port ports

def normalizePortSet (ports : List UInt16) : String :=
  String.ofList (joinText ((normalRanges ports).map fun range => rangeText range.1 range.2))

def parsePortMappings (publicExpression targetExpression : String)
    (publicMinimum publicMaximum : UInt16) (maximumCount : ℕ) :
    Except PortMappingError ParsedPortMappings := do
  let publicPorts ← parsePortSet publicExpression publicMinimum publicMaximum maximumCount
  let targetPorts ← parsePortSet targetExpression 1 65535 maximumCount
  rejectIf (publicPorts.length ≠ targetPorts.length) .countMismatch
  return ⟨normalizePortSet publicPorts, normalizePortSet targetPorts,
    List.zipWith PortPair.mk publicPorts targetPorts⟩

/-! ## What an expression stands for -/

/-- The ports of an item: those from its first to its last number. -/
def itemPorts (item : List Char) : List ℕ :=
  let bounds := (item.splitOn '-').map (Nat.ofDigitChars 10 · 0)
  List.range' (bounds.headD 0) (bounds.getLastD 0 + 1 - bounds.headD 0)

/-- What an expression stands for, if white space does not count: the ports of its items, one item
after the other. -/
def portsOf (expression : String) : List ℕ :=
  ((expression.toList.filter (!isWhitespace ·)).splitOn ',').flatMap itemPorts

/-! ## Expansion -/

namespace Mapping

variable {minimum maximum start stop port : UInt16} {count : ℕ} {ports acc l : List UInt16}
  {item : List Char}

theorem mem_expand : port ∈ expand start stop ↔ start ≤ port ∧ port ≤ stop := by
  have hport := port.toNat_lt
  have hstop := stop.toNat_lt
  simp only [expand, List.mem_map, List.mem_range'_1, UInt16.le_iff_toNat_le]
  constructor
  · rintro ⟨n, hn, rfl⟩
    have hsize : n < UInt16.size := by
      rw [UInt16.size]
      omega
    rw [UInt16.toNat_ofNat_of_lt' hsize]
    omega
  · intro h
    exact ⟨port.toNat, by omega, UInt16.ofNat_toNat⟩

theorem expand_ne_nil (h : start ≤ stop) : expand start stop ≠ [] :=
  List.ne_nil_of_mem (mem_expand.mpr ⟨UInt16.le_refl start, h⟩)

theorem expand_self (port : UInt16) : expand port port = [port] := by
  simp [expand]

theorem map_toNat_expand (start stop : UInt16) : (expand start stop).map UInt16.toNat =
    List.range' start.toNat (stop.toNat + 1 - start.toNat) := by
  have hstop := stop.toNat_lt
  rw [expand, List.map_map]
  refine (List.map_congr_left fun n hn => ?_).trans (List.map_id _)
  have := List.mem_range'_1.mp hn
  exact UInt16.toNat_ofNat_of_lt' (by rw [UInt16.size]; omega)

theorem expand_succ (h : start ≤ stop) (hport : port.toNat = stop.toNat + 1) :
    expand start port = expand start stop ++ [port] := by
  have hle := UInt16.le_iff_toNat_le.mp h
  have hlength : port.toNat + 1 - start.toNat = stop.toNat + 1 - start.toNat + 1 := by omega
  have hlast : start.toNat + 1 * (stop.toNat + 1 - start.toNat) = port.toNat := by omega
  rw [expand, hlength, List.range'_concat, List.map_append, List.map_singleton, hlast,
    UInt16.ofNat_toNat]
  rfl

theorem flatMap_groupRuns (hle : start ≤ stop) (hnodup : (expand start stop ++ ports).Nodup) :
    (groupRuns start stop ports).flatMap (fun range => expand range.1 range.2) =
      expand start stop ++ ports := by
  induction ports generalizing start stop with
  | nil => simp [groupRuns]
  | cons port ports ih =>
    rw [groupRuns]
    split
    · rename_i hnext
      -- the port is new, so the successor did not saturate
      have hne : port ≠ stop := by
        rintro rfl
        have hmem := mem_expand.mpr ⟨hle, UInt16.le_refl port⟩
        exact List.disjoint_of_nodup_append hnodup hmem (by simp)
      have hport : port.toNat = stop.toNat + 1 := by
        have hvalue := toNat_saturatingSucc stop
        rw [← hnext] at hvalue
        have hne' : port.toNat ≠ stop.toNat := fun h => hne (UInt16.toNat_inj.mp h)
        have := stop.toNat_lt
        omega
      have hexpand := expand_succ hle hport
      have hle' : start ≤ port := by
        rw [UInt16.le_iff_toNat_le] at hle ⊢
        omega
      rw [ih hle' (by simpa [hexpand] using hnodup), hexpand]
      simp
    · rw [List.flatMap_cons, ih (UInt16.le_refl port)]
      · simp [expand_self]
      · rw [expand_self]
        exact (List.nodup_append.mp hnodup).2.1

theorem le_of_mem_groupRuns (hle : start ≤ stop) {range : UInt16 × UInt16}
    (h : range ∈ groupRuns start stop ports) : range.1 ≤ range.2 := by
  induction ports generalizing start stop with
  | nil =>
    obtain rfl := List.mem_singleton.mp h
    exact hle
  | cons port ports ih =>
    rw [groupRuns] at h
    split at h
    · rename_i hnext
      refine ih ?_ h
      rw [UInt16.le_iff_toNat_le] at hle ⊢
      have := toNat_saturatingSucc stop
      have := stop.toNat_lt
      rw [hnext]
      omega
    · rcases List.mem_cons.mp h with rfl | h
      · exact hle
      · exact ih (UInt16.le_refl port) h

/-! ## The loops -/

theorem foldlM_pushPort_eq_ok (hacc : acc.Nodup) (hcount : acc.length ≤ count) :
    l.foldlM (pushPort count) acc = .ok ports ↔
      ports = acc ++ l ∧ ports.Nodup ∧ ports.length ≤ count := by
  induction l generalizing acc with
  | nil =>
    rw [List.foldlM_nil, pure_eq_ok, List.append_nil]
    constructor
    · rintro rfl
      exact ⟨rfl, hacc, hcount⟩
    · rintro ⟨rfl, -⟩
      rfl
  | cons port l ih =>
    have hpush : ∀ acc', pushPort count acc port = .ok acc' ↔
        acc' = acc ++ [port] ∧ port ∉ acc ∧ (acc ++ [port]).length ≤ count := by
      intro acc'
      rw [pushPort, bind_unit_eq_ok, rejectIf_eq_ok, bind_unit_eq_ok, rejectIf_eq_ok, pure_eq_ok,
        not_lt]
      constructor
      · rintro ⟨hnew, hle, rfl⟩
        exact ⟨rfl, hnew, hle⟩
      · rintro ⟨rfl, hnew, hle⟩
        exact ⟨hnew, hle, rfl⟩
    have hnodup : (acc ++ [port]).Nodup ↔ port ∉ acc := by
      rw [List.nodup_append]
      constructor
      · intro h hmem
        exact h.2.2 port hmem port (by simp) rfl
      · intro h
        exact ⟨hacc, List.nodup_singleton port, fun a ha b hb => by
          rw [List.mem_singleton.mp hb]
          rintro rfl
          exact h ha⟩
    rw [List.foldlM_cons, bind_eq_ok]
    constructor
    · rintro ⟨acc', hacc', h⟩
      obtain ⟨rfl, hnew, hle⟩ := (hpush acc').mp hacc'
      rw [ih (hnodup.mpr hnew) hle] at h
      simpa using h
    · rintro ⟨rfl, hall, hle⟩
      have hsplit : acc ++ port :: l = acc ++ [port] ++ l := by simp
      rw [hsplit] at hall hle
      have hinit : (acc ++ [port]).Nodup := (List.nodup_append.mp hall).1
      have hshort : (acc ++ [port]).length ≤ count := by
        rw [List.length_append] at hle
        omega
      refine ⟨acc ++ [port], (hpush _).mpr ⟨rfl, hnodup.mp hinit, hshort⟩, ?_⟩
      exact (ih hinit hshort).mpr ⟨hsplit, hsplit ▸ hall, hsplit ▸ hle⟩

/-- What an expression expands to: distinct ports within bounds, and not too many. -/
structure Expanded (minimum maximum : UInt16) (count : ℕ) (ports : List UInt16) : Prop where
  nodup : ports.Nodup
  length_le : ports.length ≤ count
  bounded : ∀ port ∈ ports, minimum ≤ port ∧ port ≤ maximum

theorem Expanded.of_append (h : Expanded minimum maximum count (acc ++ l)) :
    Expanded minimum maximum count acc where
  nodup := (List.nodup_append.mp h.nodup).1
  length_le := (List.prefix_append acc l).length_le.trans h.length_le
  bounded port hport := h.bounded port (List.mem_append_left l hport)

theorem parseItem_eq_ok {bounds : UInt16 × UInt16} (h : parseItem minimum maximum item = .ok bounds) :
    bounds.1 ≤ bounds.2 ∧ minimum ≤ bounds.1 ∧ bounds.2 ≤ maximum := by
  unfold parseItem at h
  obtain ⟨-, h⟩ := bind_unit_eq_ok.mp h
  obtain ⟨bounds', -, h⟩ := bind_eq_ok.mp h
  obtain ⟨horder, h⟩ := bind_unit_eq_ok.mp h
  obtain ⟨hbounds, h⟩ := bind_unit_eq_ok.mp h
  cases h
  rw [rejectIf_eq_ok] at horder hbounds
  simp only [UInt16.lt_iff_toNat_lt, not_or, not_lt] at horder hbounds
  simp only [UInt16.le_iff_toNat_le]
  exact ⟨horder, hbounds⟩

theorem Expanded.pushItem (h : Expanded minimum maximum count acc)
    (hpush : pushItem minimum maximum count acc item = .ok ports) :
    Expanded minimum maximum count ports ∧ ports ≠ [] := by
  obtain ⟨bounds, hitem, hpush⟩ := bind_eq_ok.mp hpush
  obtain ⟨hle, hmin, hmax⟩ := parseItem_eq_ok hitem
  obtain ⟨rfl, hnodup, hlength⟩ := (foldlM_pushPort_eq_ok h.nodup h.length_le).mp hpush
  refine ⟨⟨hnodup, hlength, ?_⟩, ?_⟩
  · intro port hport
    rcases List.mem_append.mp hport with hport | hport
    · exact h.bounded port hport
    · obtain ⟨hstart, hstop⟩ := mem_expand.mp hport
      exact ⟨UInt16.le_trans hmin hstart, UInt16.le_trans hstop hmax⟩
  · simp [expand_ne_nil hle]

/-- **What is parsed is distinct, within bounds and not too long.** -/
theorem expanded_of_parse {expression : String}
    (h : parsePortSet expression minimum maximum count = .ok ports) :
    Expanded minimum maximum count ports ∧ ports ≠ [] := by
  obtain ⟨-, h⟩ := bind_unit_eq_ok.mp h
  obtain ⟨-, h⟩ := bind_unit_eq_ok.mp h
  have hloop := foldlM_invariant (f := pushItem minimum maximum count)
    (I := fun items acc => Expanded minimum maximum count acc ∧ (items = [] → acc ≠ []))
    (fun item items acc acc' hacc hpush =>
      have hnext := hacc.1.pushItem hpush
      ⟨hnext.1, fun _ => hnext.2⟩) h
    ⟨⟨.nil, by simp, by simp⟩, fun hnil => absurd hnil (List.splitOn_ne_nil _ _)⟩
  exact ⟨hloop.1, hloop.2 rfl⟩

theorem toNat_of_parsePort {value : List Char} (h : parsePort value = .ok port) :
    Nat.ofDigitChars 10 value 0 = port.toNat ∧ value.filter (!isWhitespace ·) = value := by
  unfold parsePort at h
  split_ifs at h with hdigits
  simp only [Bool.or_eq_true, Bool.not_eq_true', not_or, Bool.not_eq_false, List.all_eq_true,
    Bool.not_eq_true, List.isEmpty_eq_false_iff] at hdigits
  obtain ⟨hne, hdigits⟩ := hdigits
  refine ⟨?_, List.filter_eq_self.mpr fun c hc => by simp [(isDigit_separate (hdigits c hc)).1]⟩
  split at h
  · rename_i n hn
    obtain rfl := Except.ok.inj h
    obtain ⟨hvalue, hlt⟩ := parseUnsigned_of_digits hdigits hn
    rw [hvalue, UInt16.toNat_ofNat_of_lt' hlt]
  · cases h

theorem itemPorts_of_parseItem {bounds : UInt16 × UInt16}
    (h : parseItem minimum maximum item = .ok bounds) :
    itemPorts (item.filter (!isWhitespace ·)) = (expand bounds.1 bounds.2).map UInt16.toNat := by
  obtain ⟨bounds', hbounds, h⟩ := bind_eq_ok.mp (bind_unit_eq_ok.mp h).2
  obtain ⟨-, h⟩ := bind_unit_eq_ok.mp h
  cases (bind_unit_eq_ok.mp h).2
  have hpieces : (item.filter (!isWhitespace ·)).splitOn '-' =
      (((trimChars item).splitOn '-').map trimChars).map (List.filter (!isWhitespace ·)) := by
    rw [← filter_trimChars, Splitting.splitOn_filter (by decide), List.map_map]
    exact List.map_congr_left fun piece _ => (filter_trimChars piece).symm
  unfold parseBounds at hbounds
  rw [itemPorts, hpieces]
  split at hbounds
  · rename_i port hport
    obtain ⟨port', hparse, hbounds⟩ := bind_eq_ok.mp hbounds
    cases hbounds
    obtain ⟨hvalue, hplain⟩ := toNat_of_parsePort hparse
    simp [hport, hplain, hvalue, expand_self]
  · rename_i start stop hport
    split_ifs at hbounds
    obtain ⟨start', hstart, hbounds⟩ := bind_eq_ok.mp hbounds
    obtain ⟨stop', hstop, hbounds⟩ := bind_eq_ok.mp hbounds
    cases hbounds
    obtain ⟨hvalue, hplain⟩ := toNat_of_parsePort hstart
    obtain ⟨hvalue', hplain'⟩ := toNat_of_parsePort hstop
    simp [hport, hplain, hvalue, hplain', hvalue', map_toNat_expand]
  · cases hbounds

/-- **What is parsed is what the expression stands for.** -/
theorem portsOf_of_parse {expression : String}
    (h : parsePortSet expression minimum maximum count = .ok ports) :
    ports.map UInt16.toNat = portsOf expression := by
  obtain ⟨-, h⟩ := bind_unit_eq_ok.mp h
  obtain ⟨-, h⟩ := bind_unit_eq_ok.mp h
  -- what has been pushed, and what the other items stand for
  have hloop := foldlM_invariant (f := pushItem minimum maximum count)
    (I := fun items acc => Expanded minimum maximum count acc ∧
      acc.map UInt16.toNat ++ items.flatMap (fun item => itemPorts (item.filter (!isWhitespace ·))) =
        portsOf expression)
    (fun item items acc acc' hacc hpush => ?_) h ?_
  · simpa using hloop.2
  · refine ⟨(hacc.1.pushItem hpush).1, ?_⟩
    obtain ⟨bounds, hitem, hpush⟩ := bind_eq_ok.mp hpush
    obtain ⟨rfl, -⟩ := (foldlM_pushPort_eq_ok hacc.1.nodup hacc.1.length_le).mp hpush
    rw [← hacc.2, List.flatMap_cons, itemPorts_of_parseItem hitem, List.map_append,
      List.append_assoc]
  · refine ⟨⟨.nil, by simp, by simp⟩, ?_⟩
    rw [portsOf, Splitting.splitOn_filter (by decide), List.flatMap_map]
    rfl

/-! ## Parsing the normal form -/

theorem parsePort_portText (port : UInt16) : parsePort (portText port) = .ok port := by
  have hall : (portText port).all Char.isDigit = true :=
    List.all_eq_true.mpr fun c hc => isDigit_of_mem_portText hc
  simp [parsePort, portText_ne_nil, hall, parseUnsigned_portText]

theorem parseBounds_rangeText (start stop : UInt16) :
    parseBounds (rangeText start stop) = .ok (start, stop) := by
  unfold rangeText parseBounds
  by_cases heq : start = stop
  · subst heq
    have hsplit : (portText start).splitOn '-' = [portText start] := by
      have h := @List.splitOn_intercalate _ [portText start] _ _ '-'
        (by simp [dash_notMem_portText]) (by simp)
      simpa [List.intercalate] using h
    rw [if_pos rfl, hsplit]
    simp only [List.map_cons, List.map_nil, trimChars_portText, parsePort_portText, ok_bind]
    rfl
  · have hsplit : (portText start ++ '-' :: portText stop).splitOn '-' =
        [portText start, portText stop] := by
      have h := @List.splitOn_intercalate _ [portText start, portText stop] _ _ '-'
        (by simp [dash_notMem_portText]) (by simp)
      simpa [List.intercalate] using h
    rw [if_neg heq, hsplit]
    simp [trimChars_portText, portText_ne_nil, parsePort_portText]

theorem parseItem_rangeText (hle : start ≤ stop) (hmin : minimum ≤ start) (hmax : stop ≤ maximum) :
    parseItem minimum maximum (rangeText start stop) = .ok (start, stop) := by
  have horder : ¬ stop < start := UInt16.not_lt.mpr hle
  have hbounds := not_or.mpr ⟨UInt16.not_lt.mpr hmin, UInt16.not_lt.mpr hmax⟩
  simp only [parseItem, trimChars_rangeText, List.isEmpty_iff, rangeText_ne_nil,
    parseBounds_rangeText, rejectIf_of_not, horder, hbounds, ok_bind, not_false_eq_true]
  rfl

theorem foldlM_pushItem {ranges : List (UInt16 × UInt16)} (hle : ∀ range ∈ ranges, range.1 ≤ range.2)
    (h : Expanded minimum maximum count
      (acc ++ ranges.flatMap fun range => expand range.1 range.2)) :
    (ranges.map fun range => rangeText range.1 range.2).foldlM (pushItem minimum maximum count)
      acc = .ok (acc ++ ranges.flatMap fun range => expand range.1 range.2) := by
  induction ranges generalizing acc with
  | nil => simp [pure, Except.pure]
  | cons range ranges ih =>
    rw [List.flatMap_cons, ← List.append_assoc] at h ⊢
    have hrange := hle range (by simp)
    have hfirst := h.bounded range.1 (by simp [mem_expand, hrange])
    have hlast := h.bounded range.2 (by simp [mem_expand, hrange])
    have hnext := h.of_append
    have hpush : pushItem minimum maximum count acc (rangeText range.1 range.2) =
        .ok (acc ++ expand range.1 range.2) := by
      rw [Mapping.pushItem, parseItem_rangeText hrange hfirst.1 hlast.2, ok_bind,
        foldlM_pushPort_eq_ok hnext.of_append.nodup hnext.of_append.length_le]
      exact ⟨rfl, hnext.nodup, hnext.length_le⟩
    rw [List.map_cons, List.foldlM_cons, hpush, ok_bind]
    exact ih (fun range hmem => hle range (by simp [hmem])) h

/-- **The normal form is expanded into the list it was made from.** -/
theorem parse_normalizePortSet (h : Expanded minimum maximum count ports) (hne : ports ≠ [])
    (hmin : minimum ≠ 0) :
    parsePortSet (normalizePortSet ports) minimum maximum count = .ok ports := by
  obtain ⟨first, rest, rfl⟩ := List.exists_cons_of_ne_nil hne
  have hbounds := h.bounded first (by simp)
  have hflat : (normalRanges (first :: rest)).flatMap (fun range => expand range.1 range.2) =
      first :: rest := by
    rw [normalRanges, flatMap_groupRuns (UInt16.le_refl first)]
    · simp [expand_self]
    · simpa [expand_self] using h.nodup
  have hranges : normalRanges (first :: rest) ≠ [] := by
    intro hnil
    simp [hnil] at hflat
  have hparts : AreRanges
      ((normalRanges (first :: rest)).map fun range => rangeText range.1 range.2) := by
    intro part hpart
    obtain ⟨range, -, rfl⟩ := List.mem_map.mp hpart
    exact ⟨range.1, range.2, rfl⟩
  have hconfig : ¬ (minimum = 0 ∨ maximum < minimum ∨ count = 0) := by
    have := h.length_le
    simp only [List.length_cons] at this
    refine not_or.mpr ⟨hmin, not_or.mpr ⟨?_, by omega⟩⟩
    exact UInt16.not_lt.mpr (UInt16.le_trans hbounds.1 hbounds.2)
  have hle : ∀ range ∈ normalRanges (first :: rest), range.1 ≤ range.2 := fun range hmem =>
    le_of_mem_groupRuns (UInt16.le_refl first) hmem
  have hloop := @foldlM_pushItem minimum maximum count [] _ hle
  rw [List.nil_append, hflat] at hloop
  rw [parsePortSet, normalizePortSet, String.toList_ofList, trimChars_joinText hparts,
    rejectIf_of_not, ok_bind, rejectIf_of_not hconfig, ok_bind,
    splitOn_joinText hparts (by simpa using hranges)]
  · exact hloop h
  · simpa [joinText_eq_nil hparts] using hranges

end Mapping

/-! ## Mappings -/

section

variable {publicExpression targetExpression : String} {minimum maximum : UInt16} {count : ℕ}
  {result : ParsedPortMappings}

theorem parsePortMappings_eq_ok :
    parsePortMappings publicExpression targetExpression minimum maximum count = .ok result ↔
      ∃ publicPorts targetPorts,
        parsePortSet publicExpression minimum maximum count = .ok publicPorts ∧
        parsePortSet targetExpression 1 65535 count = .ok targetPorts ∧
        publicPorts.length = targetPorts.length ∧
        result = ⟨normalizePortSet publicPorts, normalizePortSet targetPorts,
          List.zipWith PortPair.mk publicPorts targetPorts⟩ := by
  simp only [parsePortMappings, bind_eq_ok, rejectIf_eq_ok, pure_eq_ok, not_not]
  constructor
  · rintro ⟨publicPorts, hpublic, targetPorts, htarget, -, hlength, rfl⟩
    exact ⟨publicPorts, targetPorts, hpublic, htarget, hlength, rfl⟩
  · rintro ⟨publicPorts, targetPorts, hpublic, htarget, hlength, rfl⟩
    exact ⟨publicPorts, hpublic, targetPorts, htarget, (), hlength, rfl⟩

/-- Two lists of ports that can be mapped onto each other. -/
structure Maps (minimum maximum : UInt16) (count : ℕ) (publicPorts targetPorts : List UInt16) :
    Prop where
  expanded : Expanded minimum maximum count publicPorts
  target : Expanded 1 65535 count targetPorts
  length_eq : publicPorts.length = targetPorts.length
  ne_nil : publicPorts ≠ []

variable {publicPorts targetPorts : List UInt16}

theorem maps_of_parse
    (hpublic : parsePortSet publicExpression minimum maximum count = .ok publicPorts)
    (htarget : parsePortSet targetExpression 1 65535 count = .ok targetPorts)
    (hlength : publicPorts.length = targetPorts.length) :
    Maps minimum maximum count publicPorts targetPorts :=
  ⟨(expanded_of_parse hpublic).1, (expanded_of_parse htarget).1, hlength,
    (expanded_of_parse hpublic).2⟩

theorem Maps.parse_normal (h : Maps minimum maximum count publicPorts targetPorts)
    (hmin : minimum ≠ 0) :
    parsePortMappings (normalizePortSet publicPorts) (normalizePortSet targetPorts) minimum maximum
      count = .ok ⟨normalizePortSet publicPorts, normalizePortSet targetPorts,
        List.zipWith PortPair.mk publicPorts targetPorts⟩ := by
  have hne : targetPorts ≠ [] := by
    rw [← List.length_pos_iff, ← h.length_eq]
    exact List.length_pos_iff.mpr h.ne_nil
  exact parsePortMappings_eq_ok.mpr ⟨publicPorts, targetPorts,
    parse_normalizePortSet h.expanded h.ne_nil hmin,
    parse_normalizePortSet h.target hne (by decide), h.length_eq, rfl⟩

theorem parsePortMappings_self
    (h : parsePortMappings publicExpression targetExpression minimum maximum count = .ok result) :
    parsePortMappings result.publicPorts result.targetPorts minimum maximum count = .ok result := by
  obtain ⟨publicPorts, targetPorts, hpublic, htarget, hlength, rfl⟩ := parsePortMappings_eq_ok.mp h
  refine (maps_of_parse hpublic htarget hlength).parse_normal fun hzero => ?_
  obtain ⟨-, hpublic⟩ := bind_unit_eq_ok.mp hpublic
  obtain ⟨hconfig, -⟩ := bind_unit_eq_ok.mp hpublic
  exact rejectIf_eq_ok.mp hconfig (.inl hzero)

section Pairs

variable (hlength : publicPorts.length = targetPorts.length)
include hlength

theorem map_publicPort_pairs :
    (List.zipWith PortPair.mk publicPorts targetPorts).map PortPair.publicPort = publicPorts := by
  rw [← List.map_uncurry_zip_eq_zipWith, List.map_map]
  exact List.map_fst_zip hlength.le

theorem map_targetPort_pairs :
    (List.zipWith PortPair.mk publicPorts targetPorts).map PortPair.targetPort = targetPorts := by
  rw [← List.map_uncurry_zip_eq_zipWith, List.map_map]
  exact List.map_snd_zip hlength.ge

end Pairs

theorem pairs_of_parse
    (h : parsePortMappings publicExpression targetExpression minimum maximum count = .ok result) :
    (portsOf publicExpression).length = (portsOf targetExpression).length ∧
      result.pairs.map (fun pair => (pair.publicPort.toNat, pair.targetPort.toNat)) =
        (portsOf publicExpression).zip (portsOf targetExpression) ∧
      result.publicPorts = normalizePortSet (result.pairs.map PortPair.publicPort) ∧
      result.targetPorts = normalizePortSet (result.pairs.map PortPair.targetPort) := by
  obtain ⟨publicPorts, targetPorts, hpublic, htarget, hlength, rfl⟩ := parsePortMappings_eq_ok.mp h
  rw [← portsOf_of_parse hpublic, ← portsOf_of_parse htarget]
  simp [hlength, List.map_zipWith, List.zip, map_publicPort_pairs hlength,
    map_targetPort_pairs hlength]

theorem parsePortMappings_canonical {publicExpression' targetExpression' : String}
    {minimum' maximum' : UInt16} {count' : ℕ} {result' : ParsedPortMappings}
    (h : parsePortMappings publicExpression targetExpression minimum maximum count = .ok result)
    (h' : parsePortMappings publicExpression' targetExpression' minimum' maximum' count' =
      .ok result') (hpairs : result.pairs = result'.pairs) :
    result.publicPorts = result'.publicPorts ∧ result.targetPorts = result'.targetPorts := by
  obtain ⟨-, -, hpublic, htarget⟩ := pairs_of_parse h
  obtain ⟨-, -, hpublic', htarget'⟩ := pairs_of_parse h'
  rw [hpublic, htarget, hpublic', htarget', hpairs]
  exact ⟨rfl, rfl⟩

end

end LinkLake.Ports
