import LinkLake.Core.UdpReassembly
import LinkLake.Foundations.Runs

/-!
# What a call of the reassembler can do

One inversion lemma for each operation, saying everything a successful call can have done to the
datagrams in progress, the remembered deliveries and the delivery queue. Every invariant of the
reassembler is derived from these, without unfolding the operations again.

* `removePartial_spec`, `releaseAll_spec`: dropping datagrams in progress;
* `expire_cases`: a cleanup is throttled, or drops exactly what has timed out;
* `discardSession_spec`: closing a session drops what is under its keys;
* `AcceptStep`, `push_cases`: the ways a push can end.
-/

namespace LinkLake.Udp

open Fallible FiniteMap

/-- The parts of the state that dropping a datagram in progress leaves alone. -/
structure SameDelivered (r r' : UdpReassembler) : Prop where
  config : r'.config = r.config
  completed : r'.completed = r.completed
  completedOrder : r'.completedOrder = r.completedOrder
  nextCleanupAt : r'.nextCleanupAt = r.nextCleanupAt

theorem SameDelivered.refl (r : UdpReassembler) : SameDelivered r r := ⟨rfl, rfl, rfl, rfl⟩

variable {r r' : UdpReassembler}

theorem SameDelivered.trans {r1 : UdpReassembler} (h : SameDelivered r r1)
    (h' : SameDelivered r1 r') : SameDelivered r r' :=
  ⟨h'.config.trans h.config, h'.completed.trans h.completed,
    h'.completedOrder.trans h.completedOrder, h'.nextCleanupAt.trans h.nextCleanupAt⟩

namespace UdpReassembler

variable {key : DatagramKey} {fragment : UdpFragment} {now : Instant} {d : PartialDatagram}
  {r1 : UdpReassembler} {x : UdpReassemblyExpiration}

/-! ## Dropping datagrams in progress -/

theorem removePartial_spec {d : Option PartialDatagram} (h : r.removePartial key = .ok (d, r')) :
    d = r.partials.get? key ∧ r'.partials = r.partials.erase key ∧ SameDelivered r r' := by
  simp only [removePartial] at h
  split at h
  · rename_i hnone
    cases h
    exact ⟨hnone.symm, (erase_of_notMem (get?_eq_none.mp hnone)).symm, .refl r⟩
  · rename_i datagram hsome
    split at h
    · cases h
      exact ⟨hsome.symm, rfl, rfl, rfl, rfl, rfl⟩
    · split_ifs at h
      · cases h
        exact ⟨hsome.symm, rfl, rfl, rfl, rfl, rfl⟩
      · cases h
        exact ⟨hsome.symm, rfl, rfl, rfl, rfl, rfl⟩

theorem releasePartial_spec {acc acc' : UdpReassemblyExpiration × UdpReassembler}
    (h : releasePartial acc key = .ok acc') :
    ∃ d, acc.2.removePartial key = .ok (d, acc'.2) := by
  obtain ⟨⟨d, r1⟩, hremove, h⟩ := bind_eq_ok.mp h
  cases d with
  | none =>
    cases h
    exact ⟨none, hremove⟩
  | some datagram =>
    cases h
    exact ⟨some datagram, hremove⟩

theorem releaseAll_spec {keys : List DatagramKey} {x' : UdpReassemblyExpiration}
    (h : keys.foldlM releasePartial (x, r) = .ok (x', r')) :
    (∀ k, r'.partials.get? k = if k ∈ keys then none else r.partials.get? k) ∧
      SameDelivered r r' := by
  induction keys generalizing x r with
  | nil =>
    cases h
    exact ⟨by simp, .refl _⟩
  | cons key keys ih =>
    rw [List.foldlM_cons] at h
    obtain ⟨⟨x1, r1⟩, h1, h⟩ := bind_eq_ok.mp h
    obtain ⟨d, hremove⟩ := releasePartial_spec h1
    obtain ⟨-, hpartials, hsame⟩ := removePartial_spec hremove
    obtain ⟨hlookup, hsame'⟩ := ih h
    refine ⟨fun k => ?_, hsame.trans hsame'⟩
    rw [hlookup k, hpartials]
    by_cases hk : k = key
    · subst hk
      simp
    · rw [get?_erase_of_ne hk]
      simp [hk]

/-! ## The cleanup -/

/-- What a cleanup that is not throttled does. -/
structure Expired (r : UdpReassembler) (now : Instant) (r' : UdpReassembler) : Prop where
  config : r'.config = r.config
  nextCleanupAt : r'.nextCleanupAt = some (now + reassemblyCleanupInterval)
  partials : ∀ k, r'.partials.get? k = (r.partials.get? k).filter fun d =>
    !elapsedAtLeast now d.startedAt r.config.timeout
  delivered : ∃ count, expireCompleted now r.config.completedRetention r.completedOrder
    r.completed 0 = (r'.completedOrder, r'.completed, count)

theorem lookup_expiredKeys {partials : FiniteMap DatagramKey PartialDatagram} {timeout : Duration}
    (k : DatagramKey) :
    (if k ∈ partials.toList.filterMap (fun entry =>
        if elapsedAtLeast now entry.2.startedAt timeout then some entry.1 else none) then none
      else partials.get? k) =
      (partials.get? k).filter fun d => !elapsedAtLeast now d.startedAt timeout := by
  have hmem : k ∈ partials.toList.filterMap (fun entry =>
      if elapsedAtLeast now entry.2.startedAt timeout then some entry.1 else none) ↔
      ∃ d, partials.get? k = some d ∧ elapsedAtLeast now d.startedAt timeout = true := by
    simp only [List.mem_filterMap, Option.ite_none_right_eq_some, Option.some.injEq]
    constructor
    · rintro ⟨⟨k', d⟩, hd, helapsed, rfl⟩
      exact ⟨d, mem_toList.mp hd, helapsed⟩
    · rintro ⟨d, hd, helapsed⟩
      exact ⟨(k, d), mem_toList.mpr hd, helapsed, rfl⟩
  cases hk : partials.get? k with
  | none => simp
  | some d =>
    by_cases helapsed : elapsedAtLeast now d.startedAt timeout = true
    · rw [if_pos (hmem.mpr ⟨d, hk, helapsed⟩)]
      simp [Option.filter_some, helapsed]
    · rw [if_neg (fun h => ?_)]
      · simp [Option.filter_some, helapsed]
      · obtain ⟨d', hd', h'⟩ := hmem.mp h
        obtain rfl : d = d' := Option.some.inj (hk.symm.trans hd')
        exact helapsed h'

theorem expire_cases (h : r.expire now = .ok (x, r')) :
    (r' = r ∧ ∃ deadline, r.nextCleanupAt = some deadline ∧ now < deadline) ∨
      ((∀ deadline, r.nextCleanupAt = some deadline → deadline ≤ now) ∧ Expired r now r') := by
  simp only [expire] at h
  split_ifs at h with hthrottled
  · obtain ⟨-, rfl⟩ := Prod.mk.inj (Except.ok.inj h)
    obtain ⟨deadline, hd, hlt⟩ := (Option.any_eq_true _ _).mp hthrottled
    exact .inl ⟨rfl, deadline, hd, of_decide_eq_true hlt⟩
  · refine .inr ⟨fun deadline hd => ?_, ?_⟩
    · by_contra hlt
      exact hthrottled ((Option.any_eq_true _ _).mpr ⟨deadline, hd, by simpa using hlt⟩)
    · obtain ⟨⟨expiration, r1⟩, hloop, h⟩ := bind_eq_ok.mp h
      obtain ⟨hlookup, hsame⟩ := releaseAll_spec hloop
      cases h
      refine ⟨hsame.config, hsame.nextCleanupAt, fun k => ?_, ?_⟩
      · rw [← lookup_expiredKeys k]
        exact hlookup k
      · obtain ⟨hconfig, hcompleted, horder, -⟩ := hsame
        rw [hconfig, hcompleted, horder]
        exact ⟨_, rfl⟩

/-! ## Closing a session -/

/-- What closing a session does: everything under its keys is dropped, nothing else. -/
structure Discarded (r : UdpReassembler) (sessionId : Uuid) (r' : UdpReassembler) : Prop where
  config : r'.config = r.config
  nextCleanupAt : r'.nextCleanupAt = r.nextCleanupAt
  partials : ∀ k, r'.partials.get? k =
    if k.sessionId = sessionId then none else r.partials.get? k
  completed : ∀ k, r'.completed.get? k =
    if k.sessionId = sessionId then none else r.completed.get? k
  completedOrder : r'.completedOrder = r.completedOrder

theorem lookup_sessionKeys {ν : Type} (m : FiniteMap DatagramKey ν) (sessionId : Uuid)
    (k : DatagramKey) :
    (if k ∈ m.keys.filter (fun key => key.sessionId = sessionId) then none else m.get? k) =
      if k.sessionId = sessionId then none else m.get? k := by
  by_cases hs : k.sessionId = sessionId
  · by_cases hk : k ∈ m.keys
    · simp [hs, hk]
    · have : m.get? k = none := get?_eq_none.mpr hk
      simp [this]
  · simp [hs]

theorem discardSession_spec {sessionId : Uuid}
    (h : r.discardSession sessionId = .ok (x, r')) : Discarded r sessionId r' := by
  simp only [discardSession] at h
  obtain ⟨⟨expiration, r1⟩, hloop, h⟩ := bind_eq_ok.mp h
  obtain ⟨hlookup, hsame⟩ := releaseAll_spec hloop
  cases h
  refine ⟨hsame.config, hsame.nextCleanupAt, fun k => ?_, fun k => ?_, hsame.completedOrder⟩
  · rw [← lookup_sessionKeys r.partials sessionId k]
    exact hlookup k
  · rw [get?_foldl_erase, lookup_sessionKeys, hsame.completed]

/-! ## Remembering a delivery -/

@[simp] theorem rememberCompleted_partials :
    (r.rememberCompleted key now).partials = r.partials := rfl

@[simp] theorem rememberCompleted_config : (r.rememberCompleted key now).config = r.config := rfl

/-! ## Taking in a fragment -/

/-- The datagram a first fragment opens. -/
def freshDatagram (fragment : UdpFragment) (now : Instant) : PartialDatagram :=
  { startedAt := now
    originalLength := fragment.originalLength.toNat
    fragmentCount := fragment.fragmentCount
    fragments := List.replicate fragment.fragmentCount.toNat none
    receivedFragments := 0
    receivedBytes := 0 }

/-- The state with a reservation for the datagram of a fragment. -/
def reserved (r : UdpReassembler) (fragment : UdpFragment) (now : Instant) : UdpReassembler :=
  { r with
    partials := r.partials.insert fragment.key (freshDatagram fragment now)
    bufferedBytes := r.bufferedBytes + fragment.originalLength.toNat
    incompleteBySession := r.incompleteBySession.insert fragment.sessionId
      ((r.incompleteBySession.get? fragment.sessionId).getD 0 + 1) }

/-- The limits that can turn a new datagram away. -/
def IsLimit (e : UdpReassemblyError) : Prop :=
  e = .incompleteDatagramLimit ∨ e = .sessionIncompleteLimit ∨ e = .memoryLimit

theorem insertPartial_error {e : UdpReassemblyError}
    (h : r.insertPartial key fragment now = .ok (.error e)) : IsLimit e := by
  simp only [insertPartial] at h
  split_ifs at h
  · exact .inl (Except.error.inj (Except.ok.inj h)).symm
  · exact .inr (.inl (Except.error.inj (Except.ok.inj h)).symm)
  · exact .inr (.inr (Except.error.inj (Except.ok.inj h)).symm)
  · cases Except.ok.inj h

theorem insertPartial_ok (h : r.insertPartial fragment.key fragment now = .ok (.ok r')) :
    r' = r.reserved fragment now ∧ r.partials.size < r.config.maxIncompleteDatagrams ∧
      (r.incompleteBySession.get? fragment.sessionId).getD 0 < r.config.maxIncompletePerSession ∧
      r.bufferedBytes + fragment.originalLength.toNat ≤ r.config.maxBufferedBytes := by
  simp only [insertPartial] at h
  split_ifs at h with hsize hsession hmemory hoverflow
  · cases Except.ok.inj h
  · cases Except.ok.inj h
  · cases Except.ok.inj h
  · obtain rfl := Except.ok.inj (Except.ok.inj h)
    refine ⟨rfl, by omega, by omega, ?_⟩
    rw [saturatingAdd] at hmemory
    omega

/-- The state and the datagram in which a fragment looks for its slot: the datagram in progress
under its key, or a fresh one. -/
inductive Opened (r : UdpReassembler) (fragment : UdpFragment) (now : Instant) :
    UdpReassembler → PartialDatagram → Prop
  | existing {d : PartialDatagram} (h : r.partials.get? fragment.key = some d) :
      Opened r fragment now r d
  | fresh (hnew : fragment.key ∉ r.partials)
      (h : r.insertPartial fragment.key fragment now = .ok (.ok (r.reserved fragment now))) :
      Opened r fragment now (r.reserved fragment now) (freshDatagram fragment now)

/-- The ways in which a valid fragment can be taken in, after the cleanup. -/
inductive AcceptStep (r : UdpReassembler) (fragment : UdpFragment) (now : Instant) :
    Except UdpReassemblyError UdpReassemblyOutcome → UdpReassembler → Prop
  /-- The datagram was delivered before. -/
  | remembered (hdone : fragment.key ∈ r.completed) : AcceptStep r fragment now (.ok .duplicate) r
  /-- An empty datagram is delivered at once. -/
  | empty (hdone : fragment.key ∉ r.completed) (hlen : fragment.originalLength = 0) :
      AcceptStep r fragment now (.ok (.complete [])) (r.rememberCompleted fragment.key now)
  /-- There is no room for a new datagram. -/
  | limited {e : UdpReassemblyError} (hdone : fragment.key ∉ r.completed)
      (hlen : fragment.originalLength ≠ 0) (hnew : fragment.key ∉ r.partials) (he : IsLimit e) :
      AcceptStep r fragment now (.error e) r
  /-- The fragment contradicts its datagram, which is dropped. -/
  | failed {r1 r' : UdpReassembler} {d : PartialDatagram} {e : UdpReassemblyError}
      (hdone : fragment.key ∉ r.completed) (hlen : fragment.originalLength ≠ 0)
      (hopen : Opened r fragment now r1 d) (hoffer : offer d fragment = .ok (.failure e))
      (hremove : r1.removePartial fragment.key = .ok (some d, r')) :
      AcceptStep r fragment now (.error e) r'
  /-- The fragment is there already. -/
  | repeated {r1 : UdpReassembler} {d : PartialDatagram}
      (hdone : fragment.key ∉ r.completed) (hlen : fragment.originalLength ≠ 0)
      (hopen : Opened r fragment now r1 d) (hoffer : offer d fragment = .ok .duplicate) :
      AcceptStep r fragment now (.ok .duplicate) r1
  /-- The fragment fills a slot, and others are missing. -/
  | pending {r1 : UdpReassembler} {d d' : PartialDatagram}
      (hdone : fragment.key ∉ r.completed) (hlen : fragment.originalLength ≠ 0)
      (hopen : Opened r fragment now r1 d) (hoffer : offer d fragment = .ok (.filled d'))
      (hmissing : d'.receivedFragments ≠ d'.fragmentCount.toNat) :
      AcceptStep r fragment now (.ok .pending)
        { r1 with partials := r1.partials.insert fragment.key d' }
  /-- The last slot is filled, but the bytes are not as many as declared. -/
  | mismatched {r1 r' : UdpReassembler} {d d' : PartialDatagram}
      (hdone : fragment.key ∉ r.completed) (hlen : fragment.originalLength ≠ 0)
      (hopen : Opened r fragment now r1 d) (hoffer : offer d fragment = .ok (.filled d'))
      (hall : d'.receivedFragments = d'.fragmentCount.toNat)
      (hremove : ({ r1 with partials := r1.partials.insert fragment.key d' } :
        UdpReassembler).removePartial fragment.key = .ok (some d', r'))
      (hbytes : d'.receivedBytes ≠ d'.originalLength ∨ ∃ payload,
        collectSlots d'.fragments = .ok payload ∧ payload.length ≠ d'.originalLength) :
      AcceptStep r fragment now (.error .completedLengthMismatch) r'
  /-- The last slot is filled, and the datagram delivered. -/
  | completed {r1 r' : UdpReassembler} {d d' : PartialDatagram} {payload : List UInt8}
      (hdone : fragment.key ∉ r.completed) (hlen : fragment.originalLength ≠ 0)
      (hopen : Opened r fragment now r1 d) (hoffer : offer d fragment = .ok (.filled d'))
      (hall : d'.receivedFragments = d'.fragmentCount.toNat)
      (hremove : ({ r1 with partials := r1.partials.insert fragment.key d' } :
        UdpReassembler).removePartial fragment.key = .ok (some d', r'))
      (hslots : collectSlots d'.fragments = .ok payload)
      (hpayload : payload.length = d'.originalLength) :
      AcceptStep r fragment now (.ok (.complete payload)) (r'.rememberCompleted fragment.key now)

variable {result : Except UdpReassemblyError UdpReassemblyOutcome}

theorem fill_cases (hdone : fragment.key ∉ r.completed) (hlen : fragment.originalLength ≠ 0)
    (hopen : Opened r fragment now r1 d) (hd : r1.partials.get? fragment.key = some d)
    (h : r1.fill fragment.key fragment now = .ok (result, r')) :
    AcceptStep r fragment now result r' := by
  simp only [fill, hd] at h
  obtain ⟨verdict, hoffer, h⟩ := bind_eq_ok.mp h
  cases verdict with
  | failure e =>
    obtain ⟨⟨d1, r2⟩, hremove, h⟩ := bind_eq_ok.mp h
    cases h
    obtain ⟨rfl, -, -⟩ := removePartial_spec hremove
    rw [hd] at hremove
    exact .failed hdone hlen hopen hoffer hremove
  | duplicate =>
    cases h
    exact .repeated hdone hlen hopen hoffer
  | filled d' =>
    dsimp only at h
    split_ifs at h with hall
    · obtain ⟨⟨d1, r2⟩, hremove, h⟩ := bind_eq_ok.mp h
      obtain ⟨rfl, -, -⟩ := removePartial_spec hremove
      simp only [get?_insert_self] at hremove h
      split_ifs at h with hbytes
      · cases h
        exact .mismatched hdone hlen hopen hoffer hall hremove (.inl hbytes)
      · obtain ⟨payload, hslots, h⟩ := bind_eq_ok.mp h
        split_ifs at h with hpayload
        · cases h
          exact .mismatched hdone hlen hopen hoffer hall hremove (.inr ⟨payload, hslots, hpayload⟩)
        · cases h
          exact .completed hdone hlen hopen hoffer hall hremove hslots (not_not.mp hpayload)
    · cases h
      exact .pending hdone hlen hopen hoffer hall

theorem accept_cases (h : r.accept fragment now = .ok (result, r')) :
    AcceptStep r fragment now result r' := by
  simp only [accept] at h
  split_ifs at h with hdone hlen hold
  · cases h
    exact .remembered hdone
  · cases h
    exact .empty hdone hlen
  · obtain ⟨d, hd⟩ := mem_iff.mp hold
    exact fill_cases hdone hlen (.existing hd) hd h
  · obtain ⟨inserted, hinsert, h⟩ := bind_eq_ok.mp h
    cases inserted with
    | error e =>
      cases h
      exact .limited hdone hlen hold (insertPartial_error hinsert)
    | ok r1 =>
      obtain ⟨rfl, -, -, -⟩ := insertPartial_ok hinsert
      exact fill_cases hdone hlen (.fresh hold hinsert) (by simp [reserved]) h

/-- **The ways a push can end**: the fragment is invalid and nothing changes, or a cleanup is
followed by one of the ways of taking it in. -/
theorem push_cases (h : r.push fragment now = .ok (result, r')) :
    (∃ e, fragment.validate = .error e ∧ result = .error (.invalidFragment e) ∧ r' = r) ∨
      (ValidFragment fragment ∧ ∃ x r1, r.expire now = .ok (x, r1) ∧
        AcceptStep r1 fragment now result r') := by
  simp only [push] at h
  cases hvalid : fragment.validate with
  | error e =>
    rw [hvalid] at h
    cases h
    exact .inl ⟨e, rfl, rfl, rfl⟩
  | ok u =>
    rw [hvalid] at h
    obtain ⟨⟨x, r1⟩, hexpire, h⟩ := bind_eq_ok.mp h
    exact .inr ⟨validate_eq_ok_iff.mp hvalid, x, r1, hexpire, accept_cases h⟩

/-! ## Frame lemmas -/

section

variable (h : Opened r fragment now r1 d)
include h

theorem Opened.sameDelivered : SameDelivered r r1 := by
  cases h with
  | existing => exact .refl r
  | fresh => exact ⟨rfl, rfl, rfl, rfl⟩

theorem Opened.lookup : r1.partials.get? fragment.key = some d := by
  cases h with
  | existing h => exact h
  | fresh => simp [reserved]

theorem Opened.lookup_of_ne (hk : key ≠ fragment.key) :
    r1.partials.get? key = r.partials.get? key := by
  cases h with
  | existing => rfl
  | fresh => simp [reserved, get?_insert_of_ne hk]

end

theorem AcceptStep.lookup_of_ne (h : AcceptStep r fragment now result r')
    (hne : key ≠ fragment.key) : r'.partials.get? key = r.partials.get? key := by
  cases h with
  | remembered => rfl
  | empty => rfl
  | limited => rfl
  | failed _ _ hopen _ hremove =>
    rw [(removePartial_spec hremove).2.1, get?_erase_of_ne hne, hopen.lookup_of_ne hne]
  | repeated _ _ hopen => exact hopen.lookup_of_ne hne
  | pending _ _ hopen => exact (get?_insert_of_ne hne).trans (hopen.lookup_of_ne hne)
  | mismatched _ _ hopen _ _ hremove =>
    rw [(removePartial_spec hremove).2.1, get?_erase_of_ne hne,
      get?_insert_of_ne hne, hopen.lookup_of_ne hne]
  | completed _ _ hopen _ _ hremove =>
    rw [rememberCompleted_partials, (removePartial_spec hremove).2.1,
      get?_erase_of_ne hne, get?_insert_of_ne hne, hopen.lookup_of_ne hne]

/-! ## Filling a slot -/

/-- A fragment that fills a slot agrees with its datagram, finds the slot empty and fits. -/
structure Fills (d : PartialDatagram) (fragment : UdpFragment) (d' : PartialDatagram) : Prop where
  length_eq : d.originalLength = fragment.originalLength.toNat
  count_eq : d.fragmentCount = fragment.fragmentCount
  slot : d.fragments[fragment.fragmentIndex.toNat]? = some none
  fits : d.receivedBytes + fragment.payload.length ≤ d.originalLength
  result : d' = { d with
    receivedBytes := d.receivedBytes + fragment.payload.length
    receivedFragments := d.receivedFragments + 1
    fragments := d.fragments.set fragment.fragmentIndex.toNat (some fragment.payload) }

theorem offer_filled {d' : PartialDatagram} (h : offer d fragment = .ok (.filled d')) :
    Fills d fragment d' := by
  simp only [offer] at h
  by_cases hmeta : d.originalLength = fragment.originalLength.toNat ∧
      d.fragmentCount = fragment.fragmentCount
  · rw [if_neg (by tauto)] at h
    split at h
    · cases h
    · split at h <;> cases h
    · rename_i hslot
      split at h
      · cases h
      · obtain rfl := SlotVerdict.filled.inj (Except.ok.inj h)
        exact ⟨hmeta.1, hmeta.2, hslot, by omega, rfl⟩
  · rw [if_pos (by tauto)] at h
    cases h

end UdpReassembler

/-! ## Steps -/

theorem Step.cases {e : Call × Reply} (h : Step r e r') :
    (∃ fragment now result, e = (.push fragment now, .push result) ∧
        r.push fragment now = .ok (result, r')) ∨
      (∃ now x, e = (.expire now, .expiration x) ∧ r.expire now = .ok (x, r')) ∨
      (∃ sessionId x, e = (.discardSession sessionId, .expiration x) ∧
        r.discardSession sessionId = .ok (x, r')) := by
  obtain ⟨c, reply⟩ := e
  cases c with
  | push fragment now =>
    obtain ⟨⟨result, r1⟩, hpush, h⟩ := bind_eq_ok.mp h
    cases h
    exact .inl ⟨fragment, now, result, rfl, hpush⟩
  | expire now =>
    obtain ⟨⟨x, r1⟩, hexpire, h⟩ := bind_eq_ok.mp h
    cases h
    exact .inr (.inl ⟨now, x, rfl, hexpire⟩)
  | discardSession sessionId =>
    obtain ⟨⟨x, r1⟩, hdiscard, h⟩ := bind_eq_ok.mp h
    cases h
    exact .inr (.inr ⟨sessionId, x, rfl, hdiscard⟩)

end LinkLake.Udp
