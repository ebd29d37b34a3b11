import LinkLake.Core.PortExpression
import LinkLake.Server.TrafficControl.Admission

/-!
# Source networks

What the entries of the source lists mean, and what becomes of them when settings are stored. An entry
is an address with the number of leading bits that count. The traffic control writes it back as it
was read (`Cidr.normalized`); a Fleet bundle clears the remaining bits as well (`Fleet.normalizeCidr`,
from `fleet_protocol.rs`), and accepts no white space around an entry.

The two text forms denote the same addresses, and clearing the remaining bits makes the form unique:
two entries have the same Fleet form exactly if they match the same addresses.

An entry of one family matches no address of the other, so an IPv4 source is treated differently when
a dual-stack listener reports it in its IPv4-mapped form (`mappedSource_slips_through`).
-/

namespace LinkLake.TrafficControl

open Fallible Splitting Text
open Socks5 (IpAddr)

/-- What is assumed of the standard library's text form of addresses. -/
structure LawfulText (ip : IpText) : Prop where
  parse_format : ∀ address, ip.parse (ip.format address) = some address
  format_plain : ∀ address, ∀ c ∈ ip.format address, c ≠ '/' ∧ isWhitespace c = false
  parse_nil : ip.parse [] = none

/-! ## Entries and the addresses they match -/

/-- Is the address in the network? -/
def Cidr.holds (cidr : Cidr) (source : IpAddr) : Bool :=
  match cidr.address, source with
  | .v4 network, .v4 source =>
    network &&& networkMask 32 cidr.prefixLength == source &&& networkMask 32 cidr.prefixLength
  | .v6 network, .v6 source =>
    network &&& networkMask 128 cidr.prefixLength == source &&& networkMask 128 cidr.prefixLength
  | _, _ => false

/-- The network with the bits cleared that do not count. -/
def Cidr.masked (cidr : Cidr) : Cidr :=
  match cidr.address with
  | .v4 network => ⟨.v4 (network &&& networkMask 32 cidr.prefixLength), cidr.prefixLength⟩
  | .v6 network => ⟨.v6 (network &&& networkMask 128 cidr.prefixLength), cidr.prefixLength⟩

/-- The prefix is not longer than the address. -/
def Cidr.Valid (cidr : Cidr) : Prop := cidr.prefixLength ≤ addressBits cidr.address

theorem Cidr.holds_masked (cidr : Cidr) : cidr.masked.holds = cidr.holds := by
  obtain ⟨address, length⟩ := cidr
  funext source
  cases address <;> cases source <;> simp [holds, masked, BitVec.and_assoc]

theorem Cidr.masked_masked (cidr : Cidr) : cidr.masked.masked = cidr.masked := by
  obtain ⟨address, length⟩ := cidr
  cases address <;> simp [masked, BitVec.and_assoc]

theorem Cidr.Valid.masked {cidr : Cidr} (h : cidr.Valid) : cidr.masked.Valid := by
  obtain ⟨address, length⟩ := cidr
  cases address <;> exact h

variable {length length' : ℕ}

theorem Cidr.holds_v4 {x y : BitVec 32} :
    Cidr.holds ⟨.v4 x, length⟩ (.v4 y) = true ↔ y ∈ network length x := beq_iff_eq

theorem Cidr.holds_v6 {x y : BitVec 128} :
    Cidr.holds ⟨.v6 x, length⟩ (.v6 y) = true ↔ y ∈ network length x := beq_iff_eq

theorem Cidr.holds_eq_iff_v4 {x x' : BitVec 32} :
    Cidr.holds ⟨.v4 x, length⟩ = Cidr.holds ⟨.v4 x', length'⟩ ↔
      network length x = network length' x' := by
  constructor
  · intro h
    ext y
    rw [← holds_v4, ← holds_v4, h]
  · intro h
    funext source
    cases source with
    | v4 y => rw [Bool.eq_iff_iff, holds_v4, holds_v4, h]
    | v6 y => rfl

theorem Cidr.holds_eq_iff_v6 {x x' : BitVec 128} :
    Cidr.holds ⟨.v6 x, length⟩ = Cidr.holds ⟨.v6 x', length'⟩ ↔
      network length x = network length' x' := by
  constructor
  · intro h
    ext y
    rw [← holds_v6, ← holds_v6, h]
  · intro h
    funext source
    cases source with
    | v4 y => rfl
    | v6 y => rw [Bool.eq_iff_iff, holds_v6, holds_v6, h]

theorem Cidr.holds_self (cidr : Cidr) : cidr.holds cidr.address = true := by
  obtain ⟨address, length⟩ := cidr
  cases address <;> simp [holds]

/-- **Networks hold the same addresses exactly if they agree on the bits that count.** -/
theorem Cidr.holds_eq_iff {cidr cidr' : Cidr} (h : cidr.Valid) (h' : cidr'.Valid) :
    cidr.holds = cidr'.holds ↔ cidr.masked = cidr'.masked := by
  obtain ⟨address, length⟩ := cidr
  obtain ⟨address', length'⟩ := cidr'
  cases address with
  | v4 x =>
    cases address' with
    | v4 x' =>
      have hlength : length ≤ 32 := h
      have hlength' : length' ≤ 32 := h'
      rw [holds_eq_iff_v4, network_eq_iff hlength hlength']
      simp [masked, and_comm]
    | v6 x' =>
      have hne : Cidr.holds ⟨.v4 x, length⟩ ≠ Cidr.holds ⟨.v6 x', length'⟩ := fun heq => by
        have hself := (congrFun heq (.v4 x)).symm.trans (holds_self ⟨.v4 x, length⟩)
        cases hself
      simp [hne, masked]
  | v6 x =>
    cases address' with
    | v4 x' =>
      have hne : Cidr.holds ⟨.v6 x, length⟩ ≠ Cidr.holds ⟨.v4 x', length'⟩ := fun heq => by
        have hself := (congrFun heq (.v6 x)).symm.trans (holds_self ⟨.v6 x, length⟩)
        cases hself
      simp [hne, masked]
    | v6 x' =>
      have hlength : length ≤ 128 := h
      have hlength' : length' ≤ 128 := h'
      rw [holds_eq_iff_v6, network_eq_iff hlength hlength']
      simp [masked, and_comm]

end LinkLake.TrafficControl

namespace LinkLake.Fleet

open Splitting Text TrafficControl
open Socks5 (IpAddr)

/-- The address and the prefix of an entry. -/
def cidrParts (ip : IpText) (value : String) : Option (IpAddr × ℕ) :=
  match splitOnce '/' value.toList with
  | some (address, number) => do
    let address ← ip.parse address
    let length ← parseUnsigned 8 number
    return (address, length)
  | none => do
    let address ← ip.parse value.toList
    return (address, addressBits address)

/-- An entry of a bundle. -/
def normalizeCidr (ip : IpText) (value : String) : Option String :=
  if value.toList ≠ trimChars value.toList ∨ value.toList = [] then none
  else
    match cidrParts ip value with
    | some (.v4 address, length) =>
      if length ≤ 32 then
        some (Cidr.normalized ip ⟨.v4 (address &&& networkMask 32 length), length⟩)
      else none
    | some (.v6 address, length) =>
      if length ≤ 128 then
        some (Cidr.normalized ip ⟨.v6 (address &&& networkMask 128 length), length⟩)
      else none
    | none => none

end LinkLake.Fleet

namespace LinkLake.TrafficControl

open Fallible Splitting Text
open Socks5 (IpAddr)

/-! ## Text forms -/

variable {ip : IpText}

section Text

variable {value value' : String} {cidr cidr' : Cidr}

theorem valid_of_parseCidr (h : parseCidr ip value = .ok cidr) : cidr.Valid := by
  unfold parseCidr at h
  split at h
  · simp only [bind_eq_ok, okOr_eq_ok, rejectIf_eq_ok, pure_eq_ok] at h
    obtain ⟨address, -, length, -, -, hlength, rfl⟩ := h
    exact Nat.le_of_not_lt hlength
  · simp only [bind_eq_ok, okOr_eq_ok, pure_eq_ok] at h
    obtain ⟨address, -, rfl⟩ := h
    exact le_rfl

theorem cidrMatches_of_parse (h : parseCidr ip value = .ok cidr) :
    cidrMatches ip value = cidr.holds := by
  funext source
  rw [cidrMatches, h]
  rfl

theorem cidrParts_of_parse (htrim : trimChars value.toList = value.toList)
    (h : parseCidr ip value = .ok cidr) :
    Fleet.cidrParts ip value = some (cidr.address, cidr.prefixLength) := by
  unfold parseCidr at h
  unfold Fleet.cidrParts
  rw [htrim] at h
  cases hsplit : splitOnce '/' value.toList with
  | some parts =>
    simp only [hsplit, bind_eq_ok, okOr_eq_ok, rejectIf_eq_ok, pure_eq_ok] at h
    obtain ⟨address, haddress, length, hlength, -, -, rfl⟩ := h
    simp [haddress, hlength]
  | none =>
    simp only [hsplit, bind_eq_ok, okOr_eq_ok, pure_eq_ok] at h
    obtain ⟨address, haddress, rfl⟩ := h
    simp [haddress]

variable (hip : LawfulText ip)
include hip

theorem plain_normalized (cidr : Cidr) :
    ∀ c ∈ (cidr.normalized ip).toList, isWhitespace c = false := by
  intro c hc
  simp only [Cidr.normalized, String.toList_ofList, List.mem_append, List.mem_cons] at hc
  rcases hc with hc | rfl | hc
  · exact (hip.format_plain _ c hc).2
  · decide
  · exact (Ports.isDigit_separate (Nat.isDigit_of_mem_toDigits (by decide) (by decide) hc)).1

theorem trimmed_normalized (cidr : Cidr) :
    trimChars (cidr.normalized ip).toList = (cidr.normalized ip).toList :=
  trimChars_eq_self (plain_normalized hip cidr)

theorem parseCidr_normalized (h : cidr.Valid) : parseCidr ip (cidr.normalized ip) = .ok cidr := by
  have hslash : '/' ∉ ip.format cidr.address := fun hmem => (hip.format_plain _ _ hmem).1 rfl
  have hlength : cidr.prefixLength < 2 ^ 8 := by
    have hbits : addressBits cidr.address ≤ 128 := by cases cidr.address <;> simp [addressBits]
    have hvalid : cidr.prefixLength ≤ addressBits cidr.address := h
    omega
  have hsplit : splitOnce '/' (trimChars (cidr.normalized ip).toList) =
      some (ip.format cidr.address, Nat.toDigits 10 cidr.prefixLength) := by
    rw [trimmed_normalized hip, Cidr.normalized, String.toList_ofList, splitOnce_append hslash]
  rw [parseCidr, hsplit]
  simp only [hip.parse_format, parseUnsigned_toDigits hlength, okOr_some, ok_bind,
    rejectIf_of_not (Nat.not_lt.mpr h)]
  rfl

theorem fleet_normalizeCidr (htrim : trimChars value.toList = value.toList)
    (h : parseCidr ip value = .ok cidr) :
    Fleet.normalizeCidr ip value = some (cidr.masked.normalized ip) := by
  have hnil : value.toList ≠ [] := by
    intro hnil
    rw [parseCidr, htrim, hnil] at h
    simp [splitOnce, hip.parse_nil] at h
  have hvalid := valid_of_parseCidr h
  rw [Fleet.normalizeCidr, if_neg (by simp [htrim, hnil]), cidrParts_of_parse htrim h]
  obtain ⟨address, length⟩ := cidr
  cases address with
  | v4 x => exact if_pos hvalid
  | v6 x => exact if_pos hvalid

/-! ## Normal forms -/

/-- What a normalisation makes of an entry: one that both parsers accept, that stays as it is, and that
matches the same addresses. -/
structure NormalForm (ip : IpText) (normalize : String → Option String) (value normal : String) :
    Prop where
  eq : normalize value = some normal
  accepted : ∃ cidr, parseCidr ip normal = .ok cidr
  accepted_fleet : ∃ text, Fleet.normalizeCidr ip normal = some text
  fixed : normalize normal = some normal
  matches_iff : ∀ source, cidrMatches ip normal source = cidrMatches ip value source

/-- The traffic control's normalisation of one entry. -/
def normalizeEntry (ip : IpText) (value : String) : Option String :=
  ((parseCidr ip value).map (Cidr.normalized ip)).toOption

omit hip in
theorem normalizeEntry_of_parse (h : parseCidr ip value = .ok cidr) :
    normalizeEntry ip value = some (cidr.normalized ip) := by
  rw [normalizeEntry, h]
  rfl

theorem normalForm_normalized (h : parseCidr ip value = .ok cidr) :
    NormalForm ip (normalizeEntry ip) value (cidr.normalized ip) := by
  have hparse := parseCidr_normalized hip (valid_of_parseCidr h)
  refine ⟨normalizeEntry_of_parse h, ⟨cidr, hparse⟩,
    ⟨_, fleet_normalizeCidr hip (trimmed_normalized hip cidr) hparse⟩,
    normalizeEntry_of_parse hparse, fun source => ?_⟩
  rw [cidrMatches_of_parse hparse, cidrMatches_of_parse h]

variable (htrim : trimChars value.toList = value.toList)
include htrim

theorem normalForm_masked (h : parseCidr ip value = .ok cidr) :
    NormalForm ip (Fleet.normalizeCidr ip) value (cidr.masked.normalized ip) := by
  have hparse := parseCidr_normalized hip (valid_of_parseCidr h).masked
  have hfixed := fleet_normalizeCidr hip (trimmed_normalized hip cidr.masked) hparse
  rw [Cidr.masked_masked] at hfixed
  refine ⟨fleet_normalizeCidr hip htrim h, ⟨_, hparse⟩, ⟨_, hfixed⟩, hfixed, fun source => ?_⟩
  rw [cidrMatches_of_parse hparse, cidrMatches_of_parse h, Cidr.holds_masked]

theorem fleet_normalizeCidr_eq_iff (htrim' : trimChars value'.toList = value'.toList)
    (h : parseCidr ip value = .ok cidr) (h' : parseCidr ip value' = .ok cidr') :
    Fleet.normalizeCidr ip value = Fleet.normalizeCidr ip value' ↔
      ∀ source, cidrMatches ip value source = cidrMatches ip value' source := by
  have hvalid := valid_of_parseCidr h
  have hvalid' := valid_of_parseCidr h'
  rw [← funext_iff, cidrMatches_of_parse h, cidrMatches_of_parse h',
    Cidr.holds_eq_iff hvalid hvalid', fleet_normalizeCidr hip htrim h,
    fleet_normalizeCidr hip htrim' h', Option.some.injEq]
  constructor
  · intro heq
    have hparse := parseCidr_normalized hip hvalid.masked
    rw [heq, parseCidr_normalized hip hvalid'.masked] at hparse
    exact (Except.ok.inj hparse).symm
  · intro heq
    rw [heq]

end Text

section Settings

variable {values normals : List String} {request settings : UpsertTrafficControl}

theorem normalizeCidrs_eq_ok : normalizeCidrs ip values = .ok normals ↔
    List.Forall₂ (fun value normal => ∃ cidr, parseCidr ip value = .ok cidr ∧
      cidr.normalized ip = normal) values normals := by
  simp only [normalizeCidrs, mapM_eq_ok_iff, map_eq_ok]

theorem any_cidrMatches (hip : LawfulText ip) (h : normalizeCidrs ip values = .ok normals)
    (source : IpAddr) :
    normals.any (cidrMatches ip · source) = values.any (cidrMatches ip · source) := by
  rw [normalizeCidrs_eq_ok] at h
  induction h with
  | nil => rfl
  | cons hvalue _ ih =>
    obtain ⟨cidr, hparse, rfl⟩ := hvalue
    rw [List.any_cons, List.any_cons, ih, (normalForm_normalized hip hparse).matches_iff]

theorem normalizeCidrs_fixed (hip : LawfulText ip) (h : normalizeCidrs ip values = .ok normals) :
    normalizeCidrs ip normals = .ok normals := by
  rw [normalizeCidrs_eq_ok] at h ⊢
  induction h with
  | nil => exact .nil
  | cons hvalue _ ih =>
    obtain ⟨cidr, hparse, rfl⟩ := hvalue
    exact .cons ⟨cidr, parseCidr_normalized hip (valid_of_parseCidr hparse), rfl⟩ ih

theorem length_normalizeCidrs (h : normalizeCidrs ip values = .ok normals) :
    normals.length = values.length := (normalizeCidrs_eq_ok.mp h).length_eq.symm

/-- The weekdays in order, each of them once. -/
def sortedWeekdays (days : List ℕ) : List ℕ := (days.mergeSort (· ≤ ·)).dedup

theorem mem_sortedWeekdays {days : List ℕ} {day : ℕ} : day ∈ sortedWeekdays days ↔ day ∈ days := by
  simp [sortedWeekdays]

theorem sortedWeekdays_sortedWeekdays (days : List ℕ) :
    sortedWeekdays (sortedWeekdays days) = sortedWeekdays days := by
  have hsorted : (sortedWeekdays days).Pairwise (fun a b => decide (a ≤ b) = true) :=
    (List.pairwise_mergeSort (by simp; omega) (by simp; omega) days).sublist (List.dedup_sublist _)
  rw [sortedWeekdays, List.mergeSort_of_pairwise hsorted, sortedWeekdays, List.dedup_idem]

theorem normalizedSettings_eq_ok : normalizedSettings ip request = .ok settings ↔
    validate ip request = .ok () ∧ normalizeCidrs ip request.allowedCidrs = .ok settings.allowedCidrs ∧
      normalizeCidrs ip request.deniedCidrs = .ok settings.deniedCidrs ∧
      settings = { request with
        allowedCidrs := settings.allowedCidrs, deniedCidrs := settings.deniedCidrs
        activeWeekdaysUtc := sortedWeekdays request.activeWeekdaysUtc } := by
  rw [normalizedSettings, bind_unit_eq_ok]
  simp only [bind_eq_ok, pure_eq_ok]
  constructor
  · rintro ⟨hvalidate, allowed, hallowed, denied, hdenied, rfl⟩
    exact ⟨hvalidate, hallowed, hdenied, rfl⟩
  · rintro ⟨hvalidate, hallowed, hdenied, heq⟩
    exact ⟨hvalidate, _, hallowed, _, hdenied, heq.symm⟩

theorem normalizedSettings_fixed (hip : LawfulText ip)
    (h : normalizedSettings ip request = .ok settings) :
    normalizedSettings ip settings = .ok settings := by
  obtain ⟨hvalidate, hallowed, hdenied, heq⟩ := normalizedSettings_eq_ok.mp h
  have hallowed' := normalizeCidrs_fixed hip hallowed
  have hdenied' := normalizeCidrs_fixed hip hdenied
  refine normalizedSettings_eq_ok.mpr ⟨?_, hallowed', hdenied', ?_⟩
  · simp only [validate, bind_eq_ok, rejectIf_eq_ok] at hvalidate ⊢
    obtain ⟨-, hcount, -, -, -, -, -, hrate, -, hquota, -, hdays, -, hschedule, hminutes⟩ :=
      hvalidate
    rw [← length_normalizeCidrs hallowed, ← length_normalizeCidrs hdenied] at hcount
    refine ⟨(), hcount, _, hallowed', _, hdenied', ?_⟩
    rw [heq]
    refine ⟨(), hrate, (), hquota, (), ?_, (), hschedule, hminutes⟩
    simpa only [mem_sortedWeekdays] using hdays
  · rw [heq]
    simp only [sortedWeekdays_sortedWeekdays]

theorem deniesSource_normalized (hip : LawfulText ip)
    (h : normalizedSettings ip request = .ok settings) (source : IpAddr) :
    TrafficControlCatalog.deniesSource ip settings source =
      TrafficControlCatalog.deniesSource ip request source := by
  obtain ⟨-, hallowed, hdenied, -⟩ := normalizedSettings_eq_ok.mp h
  have hempty : settings.allowedCidrs.isEmpty = request.allowedCidrs.isEmpty := by
    rw [Bool.eq_iff_iff, List.isEmpty_iff_length_eq_zero, List.isEmpty_iff_length_eq_zero,
      length_normalizeCidrs hallowed]
  simp only [TrafficControlCatalog.deniesSource, any_cidrMatches hip hallowed,
    any_cidrMatches hip hdenied, hempty]

theorem scheduleAllows_normalized (h : normalizedSettings ip request = .ok settings) (now : ℕ) :
    scheduleAllows settings now = scheduleAllows request now := by
  obtain ⟨-, -, -, heq⟩ := normalizedSettings_eq_ok.mp h
  have hempty : (sortedWeekdays request.activeWeekdaysUtc).isEmpty =
      request.activeWeekdaysUtc.isEmpty := by
    rw [Bool.eq_iff_iff, List.isEmpty_iff, List.isEmpty_iff, List.eq_nil_iff_forall_not_mem,
      List.eq_nil_iff_forall_not_mem]
    simp only [mem_sortedWeekdays]
  have hcontains : ∀ day, (sortedWeekdays request.activeWeekdaysUtc).contains day =
      request.activeWeekdaysUtc.contains day := by
    simp [mem_sortedWeekdays]
  rw [heq]
  simp only [scheduleAllows, hempty, hcontains]

end Settings

/-! ## Decisions -/

namespace TrafficControlCatalog

/-- The catalog with other settings for the policy. -/
def withRow (catalog : TrafficControlCatalog) (policy : Policy) (row : ControlRow) :
    TrafficControlCatalog :=
  { catalog with controls := catalog.controls.insert policy row }

theorem authorize_withRow {ip : IpText} {catalog : TrafficControlCatalog} {kind : TrafficPolicyKind}
    {policyId : Uuid} {settings request : UpsertTrafficControl} {updated now : ℕ} {source : IpAddr}
    (henabled : settings.enabled = request.enabled)
    (hsource : deniesSource ip settings source = deniesSource ip request source)
    (hschedule : scheduleAllows settings now = scheduleAllows request now)
    (hquota : settings.dailyQuotaBytes = request.dailyQuotaBytes)
    (hrate : settings.maxConnectionsPerMinute = request.maxConnectionsPerMinute) :
    ((catalog.withRow (kind, policyId) ⟨settings, updated⟩).authorize ip kind policyId source now).1 =
      ((catalog.withRow (kind, policyId) ⟨request, updated⟩).authorize ip kind policyId
        source now).1 := by
  simp only [authorize, get, withRow, FiniteMap.get?_insert_self]
  cases catalog.tables.usage kind policyId (utcDay now) with
  | error error => rfl
  | ok used =>
    simp only [henabled, hsource, hschedule, hquota, hrate, admission]
    split_ifs
    · rfl
    · rfl
    · rfl
    · rfl
    · cases request.maxConnectionsPerMinute with
      | none => rfl
      | some limit =>
        dsimp only
        split_ifs
        · rfl
        · rfl

end TrafficControlCatalog

/-- **Storing an entry changes its text and not its meaning.** An entry that is accepted has a normal
form, which both parsers accept, which stays as it is, and which matches the same addresses; so has
an entry of a bundle, where the Fleet form is the same for two entries exactly if they match the
same addresses. A bundle refuses white space around an entry. Settings that have been stored are
stored unchanged, and decide as they did when they were sent. -/
theorem cidr_normalForms (ip : IpText) (hip : LawfulText ip) :
    (∀ value cidr, parseCidr ip value = .ok cidr →
      ∃ normal, NormalForm ip (normalizeEntry ip) value normal) ∧
    (∀ value cidr, parseCidr ip value = .ok cidr → trimChars value.toList = value.toList →
      ∃ normal, NormalForm ip (Fleet.normalizeCidr ip) value normal) ∧
    (∀ value, trimChars value.toList ≠ value.toList → Fleet.normalizeCidr ip value = none) ∧
    (∀ value value' cidr cidr', parseCidr ip value = .ok cidr → parseCidr ip value' = .ok cidr' →
      trimChars value.toList = value.toList → trimChars value'.toList = value'.toList →
      (Fleet.normalizeCidr ip value = Fleet.normalizeCidr ip value' ↔
        ∀ source, cidrMatches ip value source = cidrMatches ip value' source)) ∧
    ∀ request settings, normalizedSettings ip request = .ok settings →
      normalizedSettings ip settings = .ok settings ∧
      ∀ (catalog : TrafficControlCatalog) kind policyId updated source now,
        ((catalog.withRow (kind, policyId) ⟨settings, updated⟩).authorize ip kind policyId
            source now).1 =
          ((catalog.withRow (kind, policyId) ⟨request, updated⟩).authorize ip kind policyId
            source now).1 := by
  refine ⟨fun value cidr h => ⟨_, normalForm_normalized hip h⟩,
    fun value cidr h htrim => ⟨_, normalForm_masked hip htrim h⟩, fun value htrim => ?_,
    fun value value' cidr cidr' h h' htrim htrim' =>
      fleet_normalizeCidr_eq_iff hip htrim htrim' h h', fun request settings h => ⟨?_, ?_⟩⟩
  · exact if_pos (.inl htrim.symm)
  · exact normalizedSettings_fixed hip h
  · intro catalog kind policyId updated source now
    obtain ⟨-, -, -, heq⟩ := normalizedSettings_eq_ok.mp h
    apply TrafficControlCatalog.authorize_withRow
    · rw [heq]
    · exact deniesSource_normalized hip h source
    · exact scheduleAllows_normalized h now
    · rw [heq]
    · rw [heq]

/-- The IPv6 address that a dual-stack listener reports for an IPv4 peer. -/
def ipv4Mapped (address : BitVec 32) : IpAddr := .v6 (0xffff#96 ++ address)

namespace Sample

/-- One of the four numbers of an IPv4 address. It has no sign and no leading zero. -/
def parseOctet (text : List Char) : Option ℕ :=
  (parseUnsigned 8 text).filter fun n => Nat.toDigits 10 n = text

/-- Four numbers with dots in between. -/
def parseQuad (text : List Char) : Option (BitVec 32) :=
  match text.splitOn '.' with
  | [a, b, c, d] => do
    let a ← parseOctet a
    let b ← parseOctet b
    let c ← parseOctet c
    let d ← parseOctet d
    return BitVec.ofNat 32 (((a * 256 + b) * 256 + c) * 256 + d)
  | _ => none

def octets (address : BitVec 32) : List ℕ :=
  [address.toNat / 2 ^ 24, address.toNat / 2 ^ 16 % 256, address.toNat / 2 ^ 8 % 256,
    address.toNat % 256]

def quad (address : BitVec 32) : List Char :=
  ['.'].intercalate ((octets address).map (Nat.toDigits 10))

/-- What stands between the colons of an address: an IPv4 address is written in dotted form, and
behind `::ffff:` where it is mapped; another IPv6 address is written as a number. -/
def fields : IpAddr → List (List Char)
  | .v4 address => [quad address]
  | .v6 address =>
    if address.toNat / 2 ^ 32 = 0xffff then
      [[], [], ['f', 'f', 'f', 'f'], quad (address.setWidth 32)]
    else [[], Nat.toDigits 10 address.toNat]

/-- A text form that reads IPv4 addresses and their mapped forms as the standard library does. -/
def quadText : IpText where
  parse text :=
    match text.splitOn ':' with
    | [quad] => (parseQuad quad).map .v4
    | [[], number] => (parseUnsigned 128 number).map fun n => .v6 (BitVec.ofNat 128 n)
    | [[], [], group, quad] =>
      if group = ['f', 'f', 'f', 'f'] then (parseQuad quad).map ipv4Mapped else none
    | _ => none
  format address := [':'].intercalate (fields address)

theorem digits_plain {n : ℕ} {c : Char} (hc : c ∈ Nat.toDigits 10 n) :
    c ≠ '/' ∧ c ≠ ':' ∧ c ≠ '.' ∧ isWhitespace c = false := by
  have hdigit : c.isDigit = true := Nat.isDigit_of_mem_toDigits (by decide) (by decide) hc
  refine ⟨?_, ?_, ?_, (Ports.isDigit_separate hdigit).1⟩ <;> rintro rfl <;> cases hdigit

theorem parseOctet_toDigits {n : ℕ} (h : n < 256) : parseOctet (Nat.toDigits 10 n) = some n := by
  simp [parseOctet, parseUnsigned_toDigits (show n < 2 ^ 8 from h)]

theorem splitOn_quad (address : BitVec 32) :
    (quad address).splitOn '.' = (octets address).map (Nat.toDigits 10) := by
  apply List.splitOn_intercalate
  · intro text htext hdot
    obtain ⟨n, -, rfl⟩ := List.mem_map.mp htext
    exact (digits_plain hdot).2.2.1 rfl
  · simp [octets]

theorem quad_plain {address : BitVec 32} {c : Char} (hc : c ∈ quad address) :
    c ≠ '/' ∧ c ≠ ':' ∧ isWhitespace c = false := by
  rcases mem_splitOn_or (d := '.') hc with rfl | ⟨text, htext, hc⟩
  · decide
  · rw [splitOn_quad] at htext
    obtain ⟨n, -, rfl⟩ := List.mem_map.mp htext
    obtain ⟨hslash, hcolon, -, hspace⟩ := digits_plain hc
    exact ⟨hslash, hcolon, hspace⟩

theorem parseQuad_quad (address : BitVec 32) : parseQuad (quad address) = some address := by
  have hlt := address.isLt
  rw [parseQuad, splitOn_quad]
  simp only [octets, List.map_cons, List.map_nil]
  rw [parseOctet_toDigits (by omega), parseOctet_toDigits (by omega),
    parseOctet_toDigits (by omega), parseOctet_toDigits (by omega)]
  refine congrArg some (BitVec.eq_of_toNat_eq ?_)
  rw [BitVec.toNat_ofNat, Nat.mod_eq_of_lt] <;> omega

theorem field_plain {address : IpAddr} {text : List Char} {c : Char} (htext : text ∈ fields address)
    (hc : c ∈ text) : c ≠ '/' ∧ c ≠ ':' ∧ isWhitespace c = false := by
  unfold fields at htext
  split at htext
  · obtain rfl := List.mem_singleton.mp htext
    exact quad_plain hc
  · split_ifs at htext
    · simp only [List.mem_cons, List.not_mem_nil, or_false] at htext
      rcases htext with rfl | rfl | rfl | rfl
      · cases hc
      · cases hc
      · obtain rfl : c = 'f' := by simpa using hc
        decide
      · exact quad_plain hc
    · simp only [List.mem_cons, List.not_mem_nil, or_false] at htext
      rcases htext with rfl | rfl
      · cases hc
      · obtain ⟨hslash, hcolon, -, hspace⟩ := digits_plain hc
        exact ⟨hslash, hcolon, hspace⟩

theorem splitOn_format (address : IpAddr) :
    (quadText.format address).splitOn ':' = fields address := by
  apply List.splitOn_intercalate
  · exact fun text htext hcolon => (field_plain htext hcolon).2.1 rfl
  · unfold fields
    split
    · simp
    · split_ifs <;> simp

theorem lawful_quadText : LawfulText quadText := by
  refine ⟨fun address => ?_, fun address c hc => ?_, rfl⟩
  · simp only [quadText]
    rw [show [':'].intercalate (fields address) = quadText.format address from rfl, splitOn_format]
    cases address with
    | v4 x => simp [fields, parseQuad_quad]
    | v6 x =>
      by_cases hx : x.toNat / 2 ^ 32 = 0xffff
      · have hmapped : 0xffff#96 ++ x.setWidth 32 = x := by
          apply BitVec.eq_of_toNat_eq
          rw [toNat_append_eq, BitVec.toNat_setWidth, BitVec.toNat_ofNat]
          omega
        rw [fields, if_pos hx]
        simp [parseQuad_quad, ipv4Mapped, hmapped]
      · rw [fields, if_neg hx]
        simp [parseUnsigned_toDigits x.isLt]
  · rcases mem_splitOn_or (d := ':') hc with rfl | ⟨text, htext, hc⟩
    · decide
    · rw [splitOn_format] at htext
      exact ⟨(field_plain htext hc).1, (field_plain htext hc).2.2⟩

end Sample

/-- An entry with a blank in front of it is accepted here, and has no Fleet form. -/
theorem fleet_refuses_blank : (∃ cidr, parseCidr Sample.quadText " 10.0.0.0/8" = .ok cidr) ∧
    Fleet.normalizeCidr Sample.quadText " 10.0.0.0/8" = none :=
  ⟨⟨⟨.v4 0x0a000000#32, 8⟩, by decide +kernel⟩, by decide +kernel⟩

/-- A network and one of its addresses with the same prefix have the same Fleet form. -/
theorem cidr_normalForms_ten : LawfulText Sample.quadText ∧
    ∀ source, cidrMatches Sample.quadText "10.0.0.0/8" source =
      cidrMatches Sample.quadText "10.0.0.1/8" source := by
  refine ⟨Sample.lawful_quadText, ?_⟩
  have h : parseCidr Sample.quadText "10.0.0.0/8" = .ok ⟨.v4 0x0a000000#32, 8⟩ := by decide +kernel
  have h' : parseCidr Sample.quadText "10.0.0.1/8" = .ok ⟨.v4 0x0a000001#32, 8⟩ := by decide +kernel
  exact ((cidr_normalForms Sample.quadText Sample.lawful_quadText).2.2.2.1 _ _ _ _ h h'
    (by decide +kernel) (by decide +kernel)).mp (by decide +kernel)

/-! ## IPv4-mapped sources -/

/-- The IPv4 addresses that the entry matches. -/
def Cidr.plainPart : Cidr → Set (BitVec 32)
  | ⟨.v4 x, length⟩ => network length x
  | ⟨.v6 _, _⟩ => ∅

/-- The IPv4 addresses whose mapped form the entry matches: its first 96 bits are, as far as they
count, those of `::ffff:0:0`, and the others are bits of the IPv4 address. -/
def Cidr.mappedPart : Cidr → Set (BitVec 32)
  | ⟨.v4 _, _⟩ => ∅
  | ⟨.v6 x, length⟩ => {address | 0xffff#96 ∈ network length (x.extractLsb' 32 96) ∧
      address ∈ network (length - 96) (x.setWidth 32)}

theorem Cidr.holds_plain {cidr : Cidr} {address : BitVec 32} :
    cidr.holds (.v4 address) = true ↔ address ∈ cidr.plainPart := by
  obtain ⟨x | x, length⟩ := cidr
  · exact holds_v4
  · simp [holds, plainPart]

theorem Cidr.holds_mapped {cidr : Cidr} {address : BitVec 32} :
    cidr.holds (ipv4Mapped address) = true ↔ address ∈ cidr.mappedPart := by
  obtain ⟨x | x, length⟩ := cidr
  · simp [holds, mappedPart, ipv4Mapped]
  · have hx : x.extractLsb' 32 96 ++ x.setWidth 32 = x := by
      apply BitVec.eq_of_toNat_eq
      rw [toNat_append_eq, BitVec.toNat_setWidth, BitVec.extractLsb'_toNat,
        Nat.shiftRight_eq_div_pow]
      omega
    have hmem : 0xffff#96 ++ address ∈ network length (x.extractLsb' 32 96 ++ x.setWidth 32) ↔
        address ∈ mappedPart ⟨.v6 x, length⟩ := append_mem_network
    rw [hx] at hmem
    exact holds_v6.trans hmem

/-- The list has an entry that is parsed as `cidr`. -/
def Lists (ip : IpText) (cidrs : List String) (cidr : Cidr) : Prop :=
  ∃ value ∈ cidrs, parseCidr ip value = .ok cidr

/-- The lists turn an address away if only these parts of their entries are looked at: it is in a
denied entry, or there are allowed ones and it is in none of them. -/
def TurnsAway (ip : IpText) (settings : UpsertTrafficControl) (part : Cidr → Set (BitVec 32))
    (address : BitVec 32) : Prop :=
  (∃ cidr, Lists ip settings.deniedCidrs cidr ∧ address ∈ part cidr) ∨
    settings.allowedCidrs ≠ [] ∧ ∀ cidr, Lists ip settings.allowedCidrs cidr → address ∉ part cidr

section Mapped

variable {cidrs : List String} {settings : UpsertTrafficControl} {source : IpAddr}
  {part : Cidr → Set (BitVec 32)} {address : BitVec 32}
  (hpart : ∀ cidr : Cidr, cidr.holds source = true ↔ address ∈ part cidr)
include hpart

theorem any_cidrMatches_iff : cidrs.any (cidrMatches ip · source) = true ↔
    ∃ cidr, Lists ip cidrs cidr ∧ address ∈ part cidr := by
  rw [List.any_eq_true]
  constructor
  · rintro ⟨value, hvalue, hmatches⟩
    cases hparse : parseCidr ip value with
    | error error => simp [cidrMatches, hparse] at hmatches
    | ok cidr =>
      rw [cidrMatches_of_parse hparse] at hmatches
      exact ⟨cidr, ⟨value, hvalue, hparse⟩, (hpart cidr).mp hmatches⟩
  · rintro ⟨cidr, ⟨value, hvalue, hparse⟩, hmem⟩
    refine ⟨value, hvalue, ?_⟩
    rw [cidrMatches_of_parse hparse]
    exact (hpart cidr).mpr hmem

theorem deniesSource_iff : TrafficControlCatalog.deniesSource ip settings source = true ↔
    TurnsAway ip settings part address := by
  simp only [TrafficControlCatalog.deniesSource, TurnsAway, Bool.or_eq_true, Bool.and_eq_true,
    Bool.not_eq_true', List.isEmpty_eq_false_iff, ← Bool.not_eq_true (List.any _ _),
    any_cidrMatches_iff hpart, not_exists, not_and]

end Mapped

theorem TrafficControlCatalog.authorize_eq_sourceDenied {ip : IpText}
    {catalog : TrafficControlCatalog} {kind : TrafficPolicyKind} {policyId : Uuid}
    {source : IpAddr} {now : ℕ} :
    (catalog.authorize ip kind policyId source now).1 = .ok .sourceDenied ↔
      ∃ record, catalog.get kind policyId now = .ok (some record) ∧
        record.settings.enabled = true ∧ deniesSource ip record.settings source = true := by
  unfold authorize
  split
  · simp [*]
  · simp [*]
  · rename_i record hrecord
    simp only [hrecord, Except.ok.injEq, Option.some.injEq, exists_eq_left']
    split_ifs with henabled hdenies
    · simp_all
    · simp_all
    · simp_all
    · simp_all
    · simp_all
      split
      · simp
      · simp only [admission]
        split_ifs <;> simp

/-- The settings treat both forms of an IPv4 address alike. -/
def TreatsAlike (ip : IpText) (settings : UpsertTrafficControl) (address : BitVec 32) : Prop :=
  settings.enabled = true →
    (TurnsAway ip settings Cidr.plainPart address ↔ TurnsAway ip settings Cidr.mappedPart address)

/-- **Which of its forms an IPv4 source is reported in does not matter exactly if** the policy is
disabled, or the IPv4 entries of its lists turn the address away exactly if their IPv6 entries turn
its mapped form away. -/
theorem authorize_ipv4Mapped (ip : IpText) (catalog : TrafficControlCatalog)
    (kind : TrafficPolicyKind) (policyId : Uuid) (address : BitVec 32) (now : ℕ) :
    (((catalog.authorize ip kind policyId (.v4 address) now).1 = .ok .sourceDenied ↔
        (catalog.authorize ip kind policyId (ipv4Mapped address) now).1 = .ok .sourceDenied) ↔
      ∀ record, catalog.get kind policyId now = .ok (some record) →
        TreatsAlike ip record.settings address) ∧
    ((∀ record, catalog.get kind policyId now = .ok (some record) →
        TreatsAlike ip record.settings address) →
      catalog.authorize ip kind policyId (.v4 address) now =
        catalog.authorize ip kind policyId (ipv4Mapped address) now) := by
  constructor
  · simp only [TrafficControlCatalog.authorize_eq_sourceDenied,
      deniesSource_iff fun _ => Cidr.holds_plain, deniesSource_iff fun _ => Cidr.holds_mapped]
    cases catalog.get kind policyId now with
    | error error => simp
    | ok found =>
      cases found with
      | none => simp
      | some record => simp [TreatsAlike]
  · intro h
    unfold TrafficControlCatalog.authorize
    cases hrecord : catalog.get kind policyId now with
    | error error => rfl
    | ok found =>
      cases found with
      | none => rfl
      | some record =>
        by_cases henabled : record.settings.enabled = true
        · have hdenies : TrafficControlCatalog.deniesSource ip record.settings (.v4 address) =
              TrafficControlCatalog.deniesSource ip record.settings (ipv4Mapped address) := by
            rw [Bool.eq_iff_iff, deniesSource_iff fun _ => Cidr.holds_plain,
              deniesSource_iff fun _ => Cidr.holds_mapped]
            exact h record hrecord henabled
          simp only [hdenies]
        · simp [henabled]

namespace Sample

def settingsOf (allowed denied : List String) : UpsertTrafficControl :=
  ⟨allowed, denied, none, none, [], none, none, true⟩

/-- A catalog with one policy. -/
def withSettings (settings : UpsertTrafficControl) : TrafficControlCatalog :=
  ⟨(∅ : FiniteMap Policy ControlRow).insert (.tcp, ⟨1⟩) ⟨settings, 0⟩, UsageTables.empty, ∅⟩

/-- The decision on a source, once the settings have been accepted. -/
def decision (settings : UpsertTrafficControl) (source : IpAddr) :
    Except TrafficControlError TrafficDecision := do
  let settings ← normalizedSettings quadText settings
  ((withSettings settings).authorize quadText .tcp ⟨1⟩ source 0).1

end Sample

/-- **A denied network is entered, and an allowed one is locked out**, through a dual-stack listener:
10.1.2.3 is refused where 10.0.0.0/8 is denied and ::ffff:10.1.2.3 is not, and the other way round
where 10.0.0.0/8 is allowed. -/
theorem mappedSource_slips_through :
    Sample.decision (Sample.settingsOf [] ["10.0.0.0/8"]) (.v4 0x0a010203#32) = .ok .sourceDenied ∧
      Sample.decision (Sample.settingsOf [] ["10.0.0.0/8"]) (ipv4Mapped 0x0a010203#32) =
        .ok .allowed ∧
      Sample.decision (Sample.settingsOf ["10.0.0.0/8"] []) (.v4 0x0a010203#32) = .ok .allowed ∧
      Sample.decision (Sample.settingsOf ["10.0.0.0/8"] []) (ipv4Mapped 0x0a010203#32) =
        .ok .sourceDenied := by
  decide +kernel

/-- Two IPv4 entries that turn an address away in both of its forms: one form is denied, and the other
is not allowed. -/
theorem authorize_ipv4Mapped_ten :
    TreatsAlike Sample.quadText (Sample.settingsOf ["10.0.0.0/32"] ["10.0.0.0/8"]) 0x0a010203#32 :=
  (authorize_ipv4Mapped Sample.quadText (Sample.withSettings _) .tcp ⟨1⟩ _ 0).1.mp
    (by decide +kernel) _ rfl

end LinkLake.TrafficControl
