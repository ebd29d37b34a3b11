import LinkLake.Core.FleetPortGroup
import LinkLake.Foundations.WeightedChoice

/-!
# Target pools

Several addresses for one target, with weights (`target_pool.rs`): `10.0.0.1:80@3,db.internal:80`. A
connection goes to the address whose slot its sequence number falls into. A fleet bundle takes a pool
only in the form in which it is written back (`validate_target_pool` of `fleet_protocol.rs`).

Which texts are addresses of the two families is a parameter.
-/

namespace LinkLake.TargetPool

open Fallible Splitting Text WeightedChoice

def maxTargets : ℕ := 16

def maxTargetWeight : ℕ := 10000

structure WeightedTarget where
  address : List Char
  weight : ℕ
  deriving DecidableEq, Repr

inductive TargetPoolError
  | empty
  | tooMany
  | invalidAddress
  | invalidWeight
  deriving DecidableEq, Repr

/-- Which texts the standard library reads as addresses. -/
structure AddressTexts where
  isIpv4 : List Char → Bool
  isIpv6 : List Char → Bool

/-! ## Addresses -/

def utf8Length (text : List Char) : ℕ := (String.ofList text).utf8ByteSize

/-- What comes before and after the first occurrence of a text. -/
def splitAtText (separator : List Char) : List Char → Option (List Char × List Char)
  | [] => none
  | c :: cs =>
    if separator.isPrefixOf (c :: cs) then some ([], (c :: cs).drop separator.length)
    else (splitAtText separator cs).map fun parts => (c :: parts.1, parts.2)

def validDnsName (host : List Char) : Bool :=
  decide (utf8Length host ≤ 253) && (host.splitOn '.').all Fleet.validLabel

def forbidden (c : Char) : Bool :=
  isWhitespace c || Text.isControl c || ['/', '\\', '?', '#', '@'].contains c

/-- The host and the port of an address. -/
def hostAndPort (texts : AddressTexts) (value : List Char) :
    Except TargetPoolError (List Char × List Char) :=
  match value with
  | '[' :: rest => do
    let (host, port) ← okOr (splitAtText [']', ':'] rest) .invalidAddress
    rejectIf (texts.isIpv6 host = false) .invalidAddress
    return (host, port)
  | _ => do
    let (host, port) ← okOr (rsplitOnce ':' value) .invalidAddress
    rejectIf (':' ∈ host) .invalidAddress
    return (host, port)

def validateAddress (texts : AddressTexts) (value : List Char) : Except TargetPoolError Unit := do
  rejectIf (value = [] ∨ 255 < utf8Length value ∨ value.any forbidden = true ∨
    [':', '/', '/'] <:+: value) .invalidAddress
  let (host, port) ← hostAndPort texts value
  rejectIf (host = [] ∨ '[' ∈ host ∨ ']' ∈ host) .invalidAddress
  let port ← okOr (parseUnsigned 16 port) .invalidAddress
  rejectIf (port = 0) .invalidAddress
  rejectIf (value.head? ≠ some '[' ∧ texts.isIpv4 host = false ∧ validDnsName host = false)
    .invalidAddress

/-! ## Pools -/

def parseTarget (texts : AddressTexts) (segment : List Char) :
    Except TargetPoolError WeightedTarget :=
  let segment := trimChars segment
  match rsplitOnce '@' segment with
  | some (address, weight) => do
    let weight ← okOr (parseUnsigned 32 weight) .invalidWeight
    rejectIf (weight = 0 ∨ maxTargetWeight < weight) .invalidWeight
    let address := trimChars address
    validateAddress texts address
    return ⟨address, weight⟩
  | none => do
    validateAddress texts segment
    return ⟨segment, 1⟩

def parseTargetPool (texts : AddressTexts) (value : List Char) :
    Except TargetPoolError (List WeightedTarget) := do
  let value := trimChars value
  rejectIf (value = []) .empty
  let segments := value.splitOn ','
  rejectIf (maxTargets < segments.length) .tooMany
  segments.mapM (parseTarget texts)

/-- The loop of `selectWeightedTarget`: the entry whose slots hold the slot. -/
def walk : List WeightedTarget → ℕ → Option (List Char)
  | [], _ => none
  | target :: targets, slot =>
    if slot < target.weight then some target.address else walk targets (slot - target.weight)

def selectWeightedTarget (targets : List WeightedTarget) (sequence : ℕ) : Option (List Char) :=
  let total := (targets.map WeightedTarget.weight).sum
  if total = 0 then none else walk targets (sequence % total)

end LinkLake.TargetPool

namespace LinkLake.Fleet

open TargetPool

def maxTargetPoolBytes : ℕ := 4096

/-- A target as it is written back. -/
def targetText (target : WeightedTarget) : List Char :=
  if target.weight = 1 then target.address
  else target.address ++ '@' :: Nat.toDigits 10 target.weight

/-- A pool as it is written back. -/
def canonicalPool (targets : List WeightedTarget) : List Char :=
  Ports.joinText (targets.map targetText)

def validateTargetPool (texts : AddressTexts) (value : List Char) :
    Except FleetBundleError Unit := do
  require "resources.target_addr" (utf8Length value ≤ maxTargetPoolBytes)
  match parseTargetPool texts value with
  | .error _ => .error (.invalidField "resources.target_addr")
  | .ok targets => require "resources.target_addr" (canonicalPool targets = value)

end LinkLake.Fleet

namespace LinkLake.TargetPool

open Fallible Splitting Text WeightedChoice

variable {texts : AddressTexts} {target : WeightedTarget} {targets : List WeightedTarget}
  {value segment : List Char}

/-! ## Selection -/

/-- The entry that a sequence number selects. -/
def selectedIndex (targets : List WeightedTarget) (sequence : ℕ) : Option ℕ :=
  pick (targets.map WeightedTarget.weight)
    (sequence % (targets.map WeightedTarget.weight).sum)

theorem walk_eq (targets : List WeightedTarget) (slot : ℕ) :
    walk targets slot = (pick (targets.map WeightedTarget.weight) slot).bind
      fun i => targets[i]?.map WeightedTarget.address := by
  induction targets generalizing slot with
  | nil => rfl
  | cons target targets ih =>
    rw [walk, List.map_cons, pick]
    split
    · rfl
    · rw [ih, Option.bind_map]
      rfl

theorem exists_selected (h : (targets.map WeightedTarget.weight).sum ≠ 0) (sequence : ℕ) :
    ∃ i target, selectedIndex targets sequence = some i ∧ targets[i]? = some target ∧
      selectWeightedTarget targets sequence = some target.address := by
  have hslot := Nat.mod_lt sequence (Nat.pos_of_ne_zero h)
  obtain ⟨i, hi⟩ := Option.isSome_iff_exists.mp (isSome_pick hslot)
  have hlt : i < targets.length := by simpa using lt_of_pick hi
  refine ⟨i, targets[i], hi, List.getElem?_eq_getElem hlt, ?_⟩
  rw [selectWeightedTarget, if_neg h, walk_eq, hi]
  simp [hlt]

/-! ## Reading -/

theorem plain_of_validateAddress (h : validateAddress texts value = .ok ()) :
    value ≠ [] ∧ ∀ c ∈ value, isWhitespace c = false ∧ c ≠ '@' := by
  simp only [validateAddress, bind_eq_ok, rejectIf_eq_ok, not_or] at h
  obtain ⟨-, ⟨hne, -, hplain, -⟩, -⟩ := h
  refine ⟨hne, fun c hc => ?_⟩
  have hc := mt (List.any_of_mem hc) hplain
  simp_all [forbidden]

/-- What an entry of a pool is. -/
structure WeightedTarget.Valid (texts : AddressTexts) (target : WeightedTarget) : Prop where
  address : validateAddress texts target.address = .ok ()
  weight : target.weight ≠ 0 ∧ target.weight ≤ maxTargetWeight
  comma : ',' ∉ target.address

theorem mem_of_mem_trimChars {c : Char} {s : List Char} (h : c ∈ trimChars s) : c ∈ s :=
  (List.dropWhile_suffix _).subset ((List.rdropWhile_prefix _ _).subset h)

theorem valid_of_parseTarget (h : parseTarget texts segment = .ok target) (hcomma : ',' ∉ segment) :
    target.Valid texts := by
  unfold parseTarget at h
  dsimp only at h
  split at h
  · rename_i address weight hsplit
    simp only [bind_eq_ok, okOr_eq_ok, rejectIf_eq_ok, pure_eq_ok, not_or, Nat.not_lt] at h
    obtain ⟨number, -, -, hweight, _, haddress, rfl⟩ := h
    refine ⟨haddress, hweight, fun hmem => hcomma (mem_of_mem_trimChars ?_)⟩
    rw [(rsplitOnce_eq_some hsplit).1]
    exact List.mem_append_left _ (mem_of_mem_trimChars hmem)
  · simp only [bind_eq_ok, pure_eq_ok] at h
    obtain ⟨_, haddress, rfl⟩ := h
    refine ⟨haddress, ⟨Nat.one_ne_zero, ?_⟩, fun hmem => hcomma (mem_of_mem_trimChars hmem)⟩
    exact Nat.le_of_ble_eq_true rfl

/-- What a pool is. -/
structure ValidPool (texts : AddressTexts) (targets : List WeightedTarget) : Prop where
  ne_nil : targets ≠ []
  length_le : targets.length ≤ maxTargets
  valid : ∀ target ∈ targets, target.Valid texts

theorem validPool_of_parse (h : parseTargetPool texts value = .ok targets) :
    ValidPool texts targets := by
  simp only [parseTargetPool, bind_eq_ok, rejectIf_eq_ok, Nat.not_lt] at h
  obtain ⟨-, -, -, hcount, hmap⟩ := h
  have hlength := (mapM_eq_ok_iff.mp hmap).length_eq
  refine ⟨?_, hlength ▸ hcount, fun target htarget => ?_⟩
  · rintro rfl
    exact List.splitOn_ne_nil _ _ (List.length_eq_zero_iff.mp hlength)
  · obtain ⟨segment, hsegment, hparse⟩ := exists_mem_of_ok hmap htarget
    exact valid_of_parseTarget hparse (notMem_of_mem_splitOn hsegment)

theorem ValidPool.sum_ne_zero (h : ValidPool texts targets) :
    (targets.map WeightedTarget.weight).sum ≠ 0 := by
  obtain ⟨target, rest, rfl⟩ := List.exists_cons_of_ne_nil h.ne_nil
  have hweight := (h.valid target List.mem_cons_self).weight.1
  simp [hweight]

/-! ## Writing -/

theorem WeightedTarget.Valid.plain (h : target.Valid texts) :
    ∀ c ∈ Fleet.targetText target, isWhitespace c = false ∧ c ≠ ',' := by
  have haddress : ∀ c ∈ target.address, isWhitespace c = false ∧ c ≠ ',' := fun c hc =>
    ⟨((plain_of_validateAddress h.address).2 c hc).1, fun heq => h.comma (heq ▸ hc)⟩
  intro c hc
  unfold Fleet.targetText at hc
  split at hc
  · exact haddress c hc
  · rcases List.mem_append.mp hc with hc | hc
    · exact haddress c hc
    · rcases List.mem_cons.mp hc with rfl | hc
      · decide
      · have hdigit := Nat.isDigit_of_mem_toDigits (by decide) (by decide) hc
        exact ⟨(Ports.isDigit_separate hdigit).1, (Ports.isDigit_separate hdigit).2.1⟩

theorem WeightedTarget.Valid.parse (h : target.Valid texts) :
    parseTarget texts (Fleet.targetText target) = .ok target := by
  obtain ⟨address, weight⟩ := target
  obtain ⟨-, hplain⟩ := plain_of_validateAddress h.address
  have htrim := trimChars_eq_self fun c hc => (h.plain c hc).1
  have htrim' := trimChars_eq_self fun c hc => (hplain c hc).1
  by_cases hweight : weight = 1
  · subst hweight
    have hat : '@' ∉ address := fun hmem => (hplain _ hmem).2 rfl
    have htext : Fleet.targetText ⟨address, 1⟩ = address := if_pos rfl
    simp only [parseTarget, htext, htrim', rsplitOnce_eq_none hat, h.address, ok_bind]
    rfl
  · have hdigits : '@' ∉ Nat.toDigits 10 weight := fun hmem => by
      have hdigit := Nat.isDigit_of_mem_toDigits (by decide) (by decide) hmem
      cases hdigit
    have htext : Fleet.targetText ⟨address, weight⟩ = address ++ '@' :: Nat.toDigits 10 weight :=
      if_neg hweight
    have hlimits := not_or.mpr ⟨h.weight.1, Nat.not_lt.mpr h.weight.2⟩
    have hle : weight ≤ 10000 := h.weight.2
    have hnumber := parseUnsigned_toDigits (show weight < 2 ^ 32 by omega)
    rw [htext] at htrim ⊢
    simp only [parseTarget, htrim, rsplitOnce_append hdigits, hnumber, okOr_some, ok_bind,
      rejectIf_of_not hlimits, htrim', h.address]
    rfl

/-- **A pool that is written back is read again.** -/
theorem ValidPool.parse (h : ValidPool texts targets) :
    parseTargetPool texts (Fleet.canonicalPool targets) = .ok targets := by
  have hcomma : ∀ part ∈ targets.map Fleet.targetText, ',' ∉ part := fun part hpart hmem => by
    obtain ⟨target, htarget, rfl⟩ := List.mem_map.mp hpart
    exact ((h.valid target htarget).plain _ hmem).2 rfl
  have hsplit : (Fleet.canonicalPool targets).splitOn ',' = targets.map Fleet.targetText :=
    List.splitOn_intercalate _ hcomma (by simpa using h.ne_nil)
  have htrim : trimChars (Fleet.canonicalPool targets) = Fleet.canonicalPool targets := by
    apply trimChars_eq_self
    intro c hc
    rcases mem_splitOn_or (d := ',') hc with rfl | ⟨part, hpart, hc⟩
    · decide
    · rw [hsplit] at hpart
      obtain ⟨target, htarget, rfl⟩ := List.mem_map.mp hpart
      exact ((h.valid target htarget).plain c hc).1
  have hne : Fleet.canonicalPool targets ≠ [] := by
    intro hnil
    rw [hnil] at hsplit
    obtain ⟨target, rest, rfl⟩ := List.exists_cons_of_ne_nil h.ne_nil
    have hvalid := h.valid target List.mem_cons_self
    have htext := (List.cons.inj hsplit).1.symm
    unfold Fleet.targetText at htext
    split at htext
    · exact (plain_of_validateAddress hvalid.address).1 htext
    · simp at htext
  have hmap : (targets.map Fleet.targetText).mapM (parseTarget texts) = .ok targets := by
    rw [mapM_eq_ok_iff, List.forall₂_map_left_iff, List.forall₂_same]
    exact fun target htarget => (h.valid target htarget).parse
  have hcount : ¬ maxTargets < (targets.map Fleet.targetText).length := by
    simpa using h.length_le
  simp only [parseTargetPool, htrim, rejectIf_of_not hne, hsplit, rejectIf_of_not hcount, ok_bind]
  exact hmap

theorem validateTargetPool_eq_ok : Fleet.validateTargetPool texts value = .ok () ↔
    utf8Length value ≤ Fleet.maxTargetPoolBytes ∧
      ∃ targets, parseTargetPool texts value = .ok targets ∧
        Fleet.canonicalPool targets = value := by
  rw [Fleet.validateTargetPool, bind_unit_eq_ok, Fleet.require, rejectIf_eq_ok, not_not]
  cases parseTargetPool texts value with
  | error error => simp
  | ok targets => simp [Fleet.require]

/-- **A target pool is fair and has one text.** In every stretch of sequence numbers as long as the sum
of the weights, every entry of a pool that has been read is selected as often as its weight says, and
every number selects an entry. What is written back is read as the same pool, and a fleet bundle
accepts exactly the texts that are written back as they are. -/
theorem targetPool_fair_canonical (texts : AddressTexts) :
    (∀ value targets, parseTargetPool texts value = .ok targets →
      (∀ sequence, ∃ i target, selectedIndex targets sequence = some i ∧ targets[i]? = some target ∧
        selectWeightedTarget targets sequence = some target.address) ∧
      (∀ start i target, targets[i]? = some target →
        ((Finset.Ico start (start + (targets.map WeightedTarget.weight).sum)).filter
          fun sequence => selectedIndex targets sequence = some i).card = target.weight) ∧
      parseTargetPool texts (Fleet.canonicalPool targets) = .ok targets ∧
      (utf8Length (Fleet.canonicalPool targets) ≤ Fleet.maxTargetPoolBytes →
        Fleet.validateTargetPool texts (Fleet.canonicalPool targets) = .ok ())) ∧
    ∀ value, Fleet.validateTargetPool texts value = .ok () ↔
      utf8Length value ≤ Fleet.maxTargetPoolBytes ∧
        ∃ targets, parseTargetPool texts value = .ok targets ∧
          Fleet.canonicalPool targets = value := by
  refine ⟨fun value targets h => ?_, fun value => validateTargetPool_eq_ok⟩
  have hpool := validPool_of_parse h
  refine ⟨exists_selected hpool.sum_ne_zero, fun start i target htarget => ?_, hpool.parse,
    fun hlength => ?_⟩
  · obtain ⟨hi, rfl⟩ := List.getElem?_eq_some_iff.mp htarget
    have hi' : i < (targets.map WeightedTarget.weight).length := by simpa using hi
    exact (card_pick hi' start).trans (List.getElem_map _)
  · exact validateTargetPool_eq_ok.mpr ⟨hlength, targets, hpool.parse, rfl⟩

/-- A pool of two, the first of which is taken twice as often. -/
theorem targetPool_fair_canonical_two :
    let targets : List WeightedTarget := [⟨"a:80".toList, 2⟩, ⟨"b:80".toList, 1⟩]
    ((Finset.Ico 7 10).filter fun sequence => selectedIndex targets sequence = some 0).card = 2 ∧
      parseTargetPool ⟨fun _ => false, fun _ => false⟩ "a:80@2,b:80".toList = .ok targets := by
  have h : parseTargetPool ⟨fun _ => false, fun _ => false⟩ " a:80 @2, b:80@1".toList =
      .ok [⟨"a:80".toList, 2⟩, ⟨"b:80".toList, 1⟩] := by decide +kernel
  obtain ⟨-, hfair, hparse, -⟩ := (targetPool_fair_canonical ⟨fun _ => false, fun _ => false⟩).1 _ _ h
  have htext : Fleet.canonicalPool [⟨"a:80".toList, 2⟩, ⟨"b:80".toList, 1⟩] =
      "a:80@2,b:80".toList := by
    decide +kernel
  exact ⟨hfair 7 0 _ rfl, htext ▸ hparse⟩

end LinkLake.TargetPool
