import LinkLake.Core.UdpProtocol.RoundTrip
import LinkLake.Core.UdpReassembly.Retention

/-!
# Delivery from end to end

A datagram is cut into frames, the frames are decoded and pushed into the reassembler in any
order, any number of times, among the fragments of other datagrams. As long as the exchange is
short, no limit turns the datagram away and its session stays open (`Exchange`), it is delivered
once, whole, and at the first moment possible.

What is known of the datagram during the exchange is a function of the indices seen so far: its
slots (`slotsOf`), whether it has been delivered (`AllSeen`), and the reply to the next fragment.

* `InTransit`: the invariant of the exchange;
* `own_push`, `other_step`: what the pushes of the datagram reply, and that the other calls do not
  interfere;
* `delivery_of_run`: the datagram is delivered exactly once, by the push that completes it.
-/

namespace LinkLake.Udp

open Fallible FiniteMap UdpReassembler

/-! ## The slots of a datagram -/

/-- Every index of the datagram has been seen. -/
def AllSeen (parts : List UdpFragment) (seen : List ℕ) : Prop := ∀ i < parts.length, i ∈ seen

instance (parts : List UdpFragment) (seen : List ℕ) : Decidable (AllSeen parts seen) :=
  inferInstanceAs (Decidable (∀ i < parts.length, i ∈ seen))

/-- The slots of a datagram when the fragments of certain indices have arrived. -/
def slotsOf (parts : List UdpFragment) (seen : List ℕ) : List (Option (List UInt8)) :=
  parts.map fun part => if part.fragmentIndex.toNat ∈ seen then some part.payload else none

variable {direction : UdpDirection} {sessionId : Uuid} {datagramId : UInt64} {payload : List UInt8}
  {parts : List UdpFragment} {seen : List ℕ} {fragment : UdpFragment} {start now : Instant}
  {key : DatagramKey} {r r' : UdpReassembler}

section Slots

theorem slotsOf_nil (parts : List UdpFragment) :
    slotsOf parts [] = List.replicate parts.length none := by
  simp [slotsOf, List.map_const']

theorem slotsOf_append_of_mem {i : ℕ} (hi : i ∈ seen) :
    slotsOf parts (seen ++ [i]) = slotsOf parts seen := by
  have hiff : ∀ j, j ∈ seen ++ [i] ↔ j ∈ seen := fun j => by
    simp only [List.mem_append, List.mem_singleton, or_iff_left_iff_imp]
    rintro rfl
    exact hi
  simp only [slotsOf, hiff]

theorem AllSeen.append (h : AllSeen parts seen) (more : List ℕ) : AllSeen parts (seen ++ more) :=
  fun i hi => List.mem_append_left _ (h i hi)

theorem allSeen_append_of_mem {i : ℕ} (hi : i ∈ seen) :
    AllSeen parts (seen ++ [i]) ↔ AllSeen parts seen := by
  refine ⟨fun h j hj => ?_, fun h => h.append _⟩
  rcases List.mem_append.mp (h j hj) with hj | hj
  · exact hj
  · rwa [List.mem_singleton.mp hj]

variable (hcut : IsCut direction sessionId datagramId payload parts)
include hcut

section

variable (hf : fragment ∈ parts)
include hf

theorem IsCut.getElem? : parts[fragment.fragmentIndex.toNat]? = some fragment := by
  obtain ⟨i, hi⟩ := List.mem_iff_getElem?.mp hf
  rwa [hcut.index_eq i fragment hi]

theorem IsCut.index_lt : fragment.fragmentIndex.toNat < parts.length :=
  (List.getElem?_eq_some_iff.mp (hcut.getElem? hf)).1

theorem IsCut.key_eq : fragment.key = ⟨direction, sessionId, datagramId⟩ := by
  rw [UdpFragment.key, hcut.direction_eq _ hf, hcut.sessionId_eq _ hf, hcut.datagramId_eq _ hf]

theorem slotsOf_getElem? : (slotsOf parts seen)[fragment.fragmentIndex.toNat]? =
      some (if fragment.fragmentIndex.toNat ∈ seen then some fragment.payload else none) := by
  rw [slotsOf, List.getElem?_map, hcut.getElem? hf]
  rfl

theorem slotsOf_set :
    (slotsOf parts seen).set fragment.fragmentIndex.toNat (some fragment.payload) =
      slotsOf parts (seen ++ [fragment.fragmentIndex.toNat]) := by
  refine List.ext_getElem? fun j => ?_
  rw [List.getElem?_set]
  simp only [slotsOf, List.length_map, List.getElem?_map, List.mem_append, List.mem_singleton]
  split_ifs with hj hlt
  · subst hj
    rw [hcut.getElem? hf]
    simp
  · exact absurd (hj ▸ hcut.index_lt hf) (by omega)
  · cases hq : parts[j]? with
    | none => rfl
    | some q =>
      have hne : q.fragmentIndex.toNat ≠ fragment.fragmentIndex.toNat := by
        rw [hcut.index_eq j q hq]
        exact Ne.symm hj
      simp [hne]

end

theorem filledBytes_slotsOf_le : filledBytes (slotsOf parts seen) ≤ payload.length := by
  rw [← hcut.flatten_eq, List.length_flatten, filledBytes, slotsOf, List.map_map, List.map_map]
  refine List.sum_le_sum fun part _ => ?_
  simp only [Function.comp_apply]
  split_ifs <;> simp

theorem allSeen_iff : AllSeen parts seen ↔ ∀ part ∈ parts, part.fragmentIndex.toNat ∈ seen := by
  constructor
  · exact fun h part hpart => h _ (hcut.index_lt hpart)
  · intro h i hi
    have hget := List.getElem?_eq_getElem hi
    rw [← hcut.index_eq i _ hget]
    exact h _ (List.getElem_mem hi)

theorem filledSlots_slotsOf :
    filledSlots (slotsOf parts seen) = parts.length ↔ AllSeen parts seen := by
  have hlen : (slotsOf parts seen).length = parts.length := by simp [slotsOf]
  rw [allSeen_iff hcut, filledSlots, ← hlen, List.countP_eq_length, slotsOf]
  simp only [List.mem_map, forall_exists_index, and_imp, forall_apply_eq_imp_iff₂]
  refine forall₂_congr fun part _ => ?_
  split_ifs with h <;> simp [h]

theorem collectSlots_slotsOf (hall : AllSeen parts seen) :
    collectSlots (slotsOf parts seen) = .ok payload := by
  rw [allSeen_iff hcut] at hall
  rw [← hcut.flatten_eq, slotsOf]
  clear hcut
  induction parts with
  | nil => rfl
  | cons part parts ih =>
    rw [List.map_cons, if_pos (hall part (by simp)), List.map_cons, List.flatten_cons]
    exact bind_eq_ok.mpr ⟨_, ih fun q hq => hall q (by simp [hq]), rfl⟩

end Slots

/-! ## A datagram in progress -/

/-- A datagram in progress as it is when certain indices have been seen since `start`. -/
structure Matches (payload : List UInt8) (parts : List UdpFragment) (start : Instant)
    (seen : List ℕ) (d : PartialDatagram) : Prop where
  length_eq : d.originalLength = payload.length
  count_eq : d.fragmentCount.toNat = parts.length
  slots : d.fragments = slotsOf parts seen
  started : start ≤ d.startedAt

section Matches

open UdpReassembler

variable {d d' : PartialDatagram}

variable (hcut : IsCut direction sessionId datagramId payload parts)
include hcut

theorem matches_fresh (hf : fragment ∈ parts) (hle : start ≤ now) :
    Matches payload parts start [] (freshDatagram fragment now) := by
  refine ⟨hcut.length_eq _ hf, hcut.count_eq _ hf, ?_, hle⟩
  rw [slotsOf_nil, ← hcut.count_eq _ hf]
  rfl

variable (hm : Matches payload parts start seen d)
include hm

theorem Matches.metadata (hf : fragment ∈ parts) :
    ¬ (d.originalLength ≠ fragment.originalLength.toNat ∨
      d.fragmentCount ≠ fragment.fragmentCount) := by
  rw [hm.length_eq, hcut.length_eq _ hf, not_or, not_ne_iff, not_ne_iff]
  exact ⟨rfl, UInt16.toNat_inj.mp (hm.count_eq.trans (hcut.count_eq _ hf).symm)⟩

theorem Matches.offer_seen (hf : fragment ∈ parts) (hseen : fragment.fragmentIndex.toNat ∈ seen) :
    offer d fragment = .ok .duplicate := by
  simp only [offer, if_neg (hm.metadata hcut hf), hm.slots, slotsOf_getElem? hcut hf, if_pos hseen,
    if_true]

theorem Matches.offer_unseen (hd : d.Accounted) (hf : fragment ∈ parts)
    (hseen : fragment.fragmentIndex.toNat ∉ seen) : ∃ d', offer d fragment = .ok (.filled d') := by
  have hslot : d.fragments[fragment.fragmentIndex.toNat]? = some none := by
    rw [hm.slots, slotsOf_getElem? hcut hf, if_neg hseen]
  have hfits : ¬ d.receivedBytes + fragment.payload.length > d.originalLength := by
    have hle : filledBytes (slotsOf parts (seen ++ [fragment.fragmentIndex.toNat])) ≤
        payload.length := filledBytes_slotsOf_le hcut
    rw [← slotsOf_set hcut hf, ← hm.slots, filledBytes_set hslot, ← hd.receivedBytes] at hle
    rw [hm.length_eq]
    omega
  simp only [offer, if_neg (hm.metadata hcut hf), hslot, if_neg hfits]
  exact ⟨_, rfl⟩

theorem Matches.unseen_of_filled (hf : fragment ∈ parts)
    (hoffer : offer d fragment = .ok (.filled d')) : fragment.fragmentIndex.toNat ∉ seen := by
  intro hseen
  rw [hm.offer_seen hcut hf hseen] at hoffer
  cases hoffer

theorem Matches.fills (hf : fragment ∈ parts) (hfills : Fills d fragment d') :
    Matches payload parts start (seen ++ [fragment.fragmentIndex.toNat]) d' := by
  refine ⟨?_, ?_, ?_, ?_⟩ <;> rw [hfills.result]
  · exact hm.length_eq
  · exact hm.count_eq
  · rw [← slotsOf_set hcut hf, hm.slots]
  · exact hm.started

theorem Matches.received_iff (hd : d.Accounted) :
    d.receivedFragments = d.fragmentCount.toNat ↔ AllSeen parts seen := by
  rw [hd.receivedFragments, hm.slots, hm.count_eq, filledSlots_slotsOf hcut]

theorem Matches.bytes_eq (hd : d.Accounted) (hall : AllSeen parts seen) :
    d.receivedBytes = d.originalLength := by
  have hlen : filledBytes (slotsOf parts seen) = payload.length := by
    rw [allSeen_iff hcut] at hall
    rw [← hcut.flatten_eq, List.length_flatten, filledBytes, slotsOf, List.map_map, List.map_map]
    refine congrArg List.sum (List.map_congr_left fun part hpart => ?_)
    simp [hall part hpart]
  rw [hd.receivedBytes, hm.slots, hlen, hm.length_eq]

end Matches

/-! ## The exchange -/

/-- The index of a fragment of the datagram, when the event pushes one. -/
def pushedIndex (key : DatagramKey) : Call × Reply → Option ℕ
  | (.push fragment _, _) => if fragment.key = key then some fragment.fragmentIndex.toNat else none
  | _ => none

/-- The indices seen by the pushes of the datagram. -/
def seenIndices (key : DatagramKey) (es : List (Call × Reply)) : List ℕ :=
  es.filterMap (pushedIndex key)

/-- The event is the delivery of another datagram. -/
def otherDelivery (key : DatagramKey) (e : Call × Reply) : Bool :=
  (delivery e).any fun entry => decide (entry.1 ≠ key)

/-- The conditions of the exchange: what is pushed under the key are the datagram's fragments; no
limit turns them away; the session is not closed; all takes less than the timeout and the
retention; and fewer other datagrams are delivered than are remembered. -/
structure Exchange (config : UdpReassemblyConfig) (key : DatagramKey) (parts : List UdpFragment)
    (start : Instant) (es : List (Call × Reply)) : Prop where
  ours : ∀ fragment now reply, (.push fragment now, reply) ∈ es → fragment.key = key →
    fragment ∈ parts
  unlimited : ∀ fragment now e, (.push fragment now, .push (.error e)) ∈ es →
    fragment.key = key → ¬ IsLimit e
  kept : ∀ reply, (.discardSession key.sessionId, reply) ∉ es
  timely : ∀ t ∈ es.filterMap eventTime, start ≤ t ∧ t < start + config.timeout ∧
    t < start + config.completedRetention
  few : es.countP (otherDelivery key) < config.maxCompletedDatagrams

theorem Exchange.of_initial {config : UdpReassemblyConfig} {key : DatagramKey}
    {parts : List UdpFragment} {start : Instant} {es fs : List (Call × Reply)}
    (h : Exchange config key parts start es) (hfs : fs <+: es) :
    Exchange config key parts start fs :=
  ⟨fun fragment now reply hmem => h.ours fragment now reply (hfs.subset hmem),
    fun fragment now e hmem => h.unlimited fragment now e (hfs.subset hmem),
    fun reply hmem => h.kept reply (hfs.subset hmem),
    fun t ht => h.timely t ((hfs.sublist.filterMap eventTime).subset ht),
    (hfs.sublist.countP_le).trans_lt h.few⟩

/-- The datagram in the reassembler when certain indices have been seen and `n` other datagrams
delivered: before all have been seen it is not delivered, and in progress as soon as one has been;
then it is delivered, and remembered. -/
def InTransit (key : DatagramKey) (payload : List UInt8) (parts : List UdpFragment)
    (start : Instant) (seen : List ℕ) (n : ℕ) (r : UdpReassembler) : Prop :=
  (¬ AllSeen parts seen ∧ Unknown key r ∧ ((seen = [] ∧ key ∉ r.partials) ∨
      ∃ d, r.partials.get? key = some d ∧ Matches payload parts start seen d)) ∨
    (AllSeen parts seen ∧ Recent key start n r)

/-- What the datagram is owed: the reply to the next fragment, given the indices seen before. -/
def expectedOutcome (payload : List UInt8) (parts : List UdpFragment) (seen : List ℕ)
    (fragment : UdpFragment) : UdpReassemblyOutcome :=
  if AllSeen parts seen ∨ fragment.fragmentIndex.toNat ∈ seen then .duplicate
  else if AllSeen parts (seen ++ [fragment.fragmentIndex.toNat]) then .complete payload
  else .pending

section InTransit

open UdpReassembler

variable {n : ℕ} {x : UdpReassemblyExpiration}
  {result : Except UdpReassemblyError UdpReassemblyOutcome}

section

variable (h : InTransit key payload parts start seen n r)
include h

theorem InTransit.expire (hle : start ≤ now) (htimeout : now < start + r.config.timeout)
    (hretention : now < start + r.config.completedRetention) (hexpire : r.expire now = .ok (x, r')) :
    InTransit key payload parts start seen n r' := by
  rcases h with ⟨hall, hunknown, hprogress⟩ | ⟨hall, hrecent⟩
  · refine .inl ⟨hall, hunknown.forget (expire_forgets hexpire).1, ?_⟩
    rcases hprogress with ⟨hseen, hnew⟩ | ⟨d, hd, hm⟩
    · refine .inl ⟨hseen, fun hmem => hnew ?_⟩
      obtain ⟨d, hd⟩ := mem_iff.mp hmem
      exact mem_of_get? (expire_lookup hexpire hd)
    · refine .inr ⟨d, ?_, hm⟩
      rcases expire_cases hexpire with ⟨rfl, -⟩ | ⟨-, hexpired⟩
      · exact hd
      · have halive := elapsedAtLeast_mono
            (elapsedAtLeast_eq_false.mpr (Nat.sub_lt_left_of_lt_add hle htimeout)) hm.started
        rw [hexpired.partials, hd]
        simp [Option.filter_some, halive]
  · exact .inr ⟨hall, hrecent.expire hle hretention hexpire⟩

theorem InTransit.discard {closed : Uuid} (hs : key.sessionId ≠ closed) (hd : Discarded r closed r') :
    InTransit key payload parts start seen n r' := by
  have hsame : r'.partials.get? key = r.partials.get? key := by rw [hd.partials, if_neg hs]
  rcases h with ⟨hall, hunknown, hprogress⟩ | ⟨hall, hrecent⟩
  · refine .inl ⟨hall, hunknown.discard hd, ?_⟩
    rw [← get?_eq_none, hsame]
    rwa [← get?_eq_none] at hprogress
  · exact .inr ⟨hall, hrecent.discard hs hd⟩

theorem InTransit.accept_other (hr : r.Remembered) (hne : key ≠ fragment.key)
    (haccept : AcceptStep r fragment now result r')
    (hfew : otherDelivery key (.push fragment now, .push result) →
      n + 1 < r.config.maxCompletedDatagrams) : InTransit key payload parts start seen
      (n + if otherDelivery key (.push fragment now, .push result) then 1 else 0) r' := by
  have hsame := haccept.lookup_of_ne hne
  rcases h with ⟨hall, hunknown, hprogress⟩ | ⟨hall, hrecent⟩
  · refine .inl ⟨hall, ?_, ?_⟩
    · rcases haccept.delivered with ⟨hd, -⟩ | ⟨_, r1, -, -, hd, rfl, -⟩
      · exact hunknown.of_same hd
      · exact (hunknown.of_same hd).remember hne.symm
    · rw [← get?_eq_none, hsame]
      rwa [← get?_eq_none] at hprogress
  · refine .inr ⟨hall, ?_⟩
    rcases haccept.delivered with ⟨hd, -⟩ | ⟨p, r1, hresult, -, hd, rfl, -⟩
    · exact (hrecent.of_same hd).mono (Nat.le_add_right _ _)
    · have hother : otherDelivery key (.push fragment now, .push result) := by
        simp [otherDelivery, delivery, hresult, hne.symm]
      rw [if_pos hother]
      refine (hrecent.of_same hd).remember (hr.of_same hd) hne.symm ?_
      rw [hd.config]
      exact hfew hother

end

variable (hcut : IsCut direction sessionId datagramId payload parts)
include hcut

theorem InTransit.opened {r1 : UdpReassembler} {d : PartialDatagram}
    (hprogress : (seen = [] ∧ fragment.key ∉ r.partials) ∨
      ∃ d, r.partials.get? fragment.key = some d ∧ Matches payload parts start seen d)
    (hbooks : r.Accounted) (hf : fragment ∈ parts) (hle : start ≤ now)
    (hopen : Opened r fragment now r1 d) : Matches payload parts start seen d ∧ d.Accounted := by
  cases hopen with
  | existing hold =>
    rcases hprogress with ⟨-, hnew⟩ | ⟨d, hd, hm⟩
    · exact absurd (mem_of_get? hold) hnew
    · cases hd.symm.trans hold
      exact ⟨hm, hbooks.datagrams _ _ hd⟩
  | fresh hnew =>
    rcases hprogress with ⟨rfl, -⟩ | ⟨d, hd, -⟩
    · exact ⟨matches_fresh hcut hf hle, accounted_freshDatagram⟩
    · exact absurd (mem_of_get? hd) hnew

theorem expectedOutcome_empty
    (hf : fragment ∈ parts) (hlen : fragment.originalLength = 0) (hall : ¬ AllSeen parts seen) :
    expectedOutcome payload parts seen fragment = .complete [] ∧
      AllSeen parts (seen ++ [fragment.fragmentIndex.toNat]) := by
  have hlen' : fragment.originalLength.toNat = 0 := by rw [hlen]; rfl
  obtain ⟨hone, hzero, -⟩ := (hcut.valid _ hf).empty hlen'
  have hcount : parts.length = 1 := by rw [← hcut.count_eq _ hf, hone]; rfl
  have hindex : fragment.fragmentIndex.toNat = 0 := by rw [hzero]; rfl
  have hpayload : payload = [] := by
    rw [hcut.length_eq _ hf] at hlen'
    exact List.length_eq_zero_iff.mp hlen'
  have hunseen : 0 ∉ seen := fun h0 => hall fun i hi => by
    obtain rfl : i = 0 := by omega
    exact h0
  have hnow : AllSeen parts (seen ++ [fragment.fragmentIndex.toNat]) := fun i hi => by
    obtain rfl : i = 0 := by omega
    simp [hindex]
  refine ⟨?_, hnow⟩
  rw [expectedOutcome, if_neg (by rw [hindex]; tauto), if_pos hnow, hpayload]

/-- **A fragment of the datagram gets the reply it is owed**, and its index is seen. -/
theorem InTransit.accept_own (h : InTransit fragment.key payload parts start seen n r)
    (hbooks : r.Accounted) (hf : fragment ∈ parts) (hle : start ≤ now)
    (haccept : AcceptStep r fragment now result r') (hlimit : ∀ e, result = .error e → ¬ IsLimit e) :
    result = .ok (expectedOutcome payload parts seen fragment) ∧
      InTransit fragment.key payload parts start (seen ++ [fragment.fragmentIndex.toNat]) n r' := by
  rcases h with ⟨hall, hunknown, hprogress⟩ | ⟨hall, hrecent⟩
  · have hopened : ∀ {r1 d}, Opened r fragment now r1 d →
        Matches payload parts start seen d ∧ d.Accounted :=
      fun hopen => InTransit.opened hcut hprogress hbooks hf hle hopen
    cases haccept with
    | remembered hdone => exact absurd hdone hunknown.notMem
    | empty _ hlen =>
      obtain ⟨houtcome, hnow⟩ := expectedOutcome_empty hcut hf hlen hall
      exact ⟨by rw [houtcome], .inr ⟨hnow, (hunknown.delivered hle).mono (Nat.zero_le n)⟩⟩
    | limited _ _ _ he => exact absurd he (hlimit _ rfl)
    | @failed _ _ d e _ _ hopen hoffer =>
      obtain ⟨hm, hd⟩ := hopened hopen
      by_cases hseen : fragment.fragmentIndex.toNat ∈ seen
      · rw [hm.offer_seen hcut hf hseen] at hoffer
        cases hoffer
      · obtain ⟨d', hfilled⟩ := hm.offer_unseen hcut hd hf hseen
        rw [hfilled] at hoffer
        cases hoffer
    | repeated _ _ hopen hoffer =>
      obtain ⟨hm, hd⟩ := hopened hopen
      have hseen : fragment.fragmentIndex.toNat ∈ seen := by
        by_contra hseen
        obtain ⟨d', hfilled⟩ := hm.offer_unseen hcut hd hf hseen
        rw [hfilled] at hoffer
        cases hoffer
      refine ⟨by rw [expectedOutcome, if_pos (.inr hseen)], .inl ⟨?_, ?_, .inr ⟨_, hopen.lookup, ?_⟩⟩⟩
      · rwa [allSeen_append_of_mem hseen]
      · exact hunknown.of_same hopen.sameDelivered
      · exact ⟨hm.length_eq, hm.count_eq, by rw [slotsOf_append_of_mem hseen, hm.slots], hm.started⟩
    | pending _ _ hopen hoffer hmissing =>
      obtain ⟨hm, hd⟩ := hopened hopen
      have hfills := offer_filled hoffer
      have hseen := hm.unseen_of_filled hcut hf hoffer
      have hm' := hm.fills hcut hf hfills
      have hnot : ¬ AllSeen parts (seen ++ [fragment.fragmentIndex.toNat]) := fun hnow =>
        hmissing ((hm'.received_iff hcut (hfills.accounted hd)).mpr hnow)
      refine ⟨by rw [expectedOutcome, if_neg (by tauto), if_neg hnot],
        .inl ⟨hnot, ?_, .inr ⟨_, by simp, hm'⟩⟩⟩
      exact hunknown.of_same (hopen.sameDelivered.trans ⟨rfl, rfl, rfl, rfl⟩)
    | mismatched _ _ hopen hoffer hreceived _ hbytes =>
      obtain ⟨hm, hd⟩ := hopened hopen
      have hfills := offer_filled hoffer
      have hm' := hm.fills hcut hf hfills
      have hnow := (hm'.received_iff hcut (hfills.accounted hd)).mp hreceived
      rcases hbytes with hbytes | ⟨p, hslots, hlength⟩
      · exact absurd (hm'.bytes_eq hcut (hfills.accounted hd) hnow) hbytes
      · rw [hm'.slots, collectSlots_slotsOf hcut hnow] at hslots
        cases hslots
        exact absurd hm'.length_eq.symm hlength
    | completed _ _ hopen hoffer hreceived hremove hslots =>
      obtain ⟨hm, hd⟩ := hopened hopen
      have hfills := offer_filled hoffer
      have hseen := hm.unseen_of_filled hcut hf hoffer
      have hm' := hm.fills hcut hf hfills
      have hnow := (hm'.received_iff hcut (hfills.accounted hd)).mp hreceived
      rw [hm'.slots, collectSlots_slotsOf hcut hnow] at hslots
      cases hslots
      refine ⟨by rw [expectedOutcome, if_neg (by tauto), if_pos hnow], .inr ⟨hnow, ?_⟩⟩
      obtain ⟨-, -, hsame⟩ := removePartial_spec hremove
      have hunknown' := hunknown.of_same
        (hopen.sameDelivered.trans ⟨hsame.config, hsame.completed, hsame.completedOrder,
          hsame.nextCleanupAt⟩)
      exact (hunknown'.delivered hle).mono (Nat.zero_le n)
  · -- delivered already
    cases haccept with
    | remembered =>
      exact ⟨by rw [expectedOutcome, if_pos (.inl hall)], .inr ⟨hall.append _, hrecent⟩⟩
    | empty hdone => exact absurd hrecent.mem hdone
    | limited hdone => exact absurd hrecent.mem hdone
    | failed hdone => exact absurd hrecent.mem hdone
    | repeated hdone => exact absurd hrecent.mem hdone
    | pending hdone => exact absurd hrecent.mem hdone
    | mismatched hdone => exact absurd hrecent.mem hdone
    | completed hdone => exact absurd hrecent.mem hdone

end InTransit

section Exchange

open UdpReassembler

variable {config : UdpReassemblyConfig} {r0 : UdpReassembler} {e : Call × Reply}
  {before past es : List (Call × Reply)}

theorem seenIndices_snoc (key : DatagramKey) (past : List (Call × Reply)) (e : Call × Reply) :
    seenIndices key (past ++ [e]) = seenIndices key past ++ (pushedIndex key e).toList := by
  rw [seenIndices, List.filterMap_append, seenIndices]
  cases h : pushedIndex key e <;> simp [h]

theorem countP_otherDelivery_snoc (key : DatagramKey) (past : List (Call × Reply))
    (e : Call × Reply) : (past ++ [e]).countP (otherDelivery key) =
      past.countP (otherDelivery key) + if otherDelivery key e then 1 else 0 := by
  rw [List.countP_append, List.countP_singleton]

theorem Step.untouched (hstep : Step r e r') (hnone : pushedIndex key e = none)
    (h : Unknown key r ∧ key ∉ r.partials) : Unknown key r' ∧ key ∉ r'.partials := by
  obtain ⟨hunknown, hidle⟩ := h
  rw [← get?_eq_none] at hidle ⊢
  have hexpired : ∀ {now x r1}, r.expire now = .ok (x, r1) →
      Unknown key r1 ∧ r1.partials.get? key = none := fun hexpire => by
    refine ⟨hunknown.forget (expire_forgets hexpire).1, ?_⟩
    rw [Option.eq_none_iff_forall_not_mem]
    intro d hd
    rw [expire_lookup hexpire hd] at hidle
    cases hidle
  rcases hstep.cases with ⟨fragment, now, result, rfl, hpush⟩ | ⟨now, x, rfl, hexpire⟩ |
    ⟨closed, x, rfl, hdiscard⟩
  · have hne : key ≠ fragment.key := fun heq => by simp [pushedIndex, heq] at hnone
    rcases push_cases hpush with ⟨_, -, -, rfl⟩ | ⟨-, x, r1, hexpire, haccept⟩
    · exact ⟨hunknown, hidle⟩
    · obtain ⟨hunknown1, hidle1⟩ := hexpired hexpire
      refine ⟨?_, (haccept.lookup_of_ne hne).trans hidle1⟩
      rcases haccept.delivered with ⟨hd, -⟩ | ⟨_, r2, -, -, hd, rfl, -⟩
      · exact hunknown1.of_same hd
      · exact (hunknown1.of_same hd).remember hne.symm
  · exact hexpired hexpire
  · have hd := discardSession_spec hdiscard
    refine ⟨hunknown.discard hd, ?_⟩
    rw [hd.partials, hidle]
    split_ifs <;> rfl

theorem Exchange.last_timely {now : Instant} (hex : Exchange config key parts start (past ++ [e]))
    (he : eventTime e = some now) :
    start ≤ now ∧ now < start + config.timeout ∧ now < start + config.completedRetention :=
  hex.timely now (by simp [he])

/-- **One step of the exchange.** The datagram stays in transit, and a push of it gets the reply
it is owed. -/
theorem Step.exchange (hcut : IsCut direction sessionId datagramId payload parts)
    (hconfig : r.config = config) (hbooks : r.Accounted) (hr : r.Remembered)
    (h : InTransit key payload parts start (seenIndices key past)
      (past.countP (otherDelivery key)) r)
    (hex : Exchange config key parts start (past ++ [e])) (hstep : Step r e r') :
    InTransit key payload parts start (seenIndices key (past ++ [e]))
        ((past ++ [e]).countP (otherDelivery key)) r' ∧
      ∀ fragment now result, e = (.push fragment now, .push result) → fragment.key = key →
        result = .ok (expectedOutcome payload parts (seenIndices key past) fragment) := by
  have hfew := hex.few
  rw [countP_otherDelivery_snoc] at hfew
  rw [seenIndices_snoc, countP_otherDelivery_snoc]
  rcases hstep.cases with ⟨fragment, now, result, rfl, hpush⟩ | ⟨now, x, rfl, hexpire⟩ |
    ⟨closed, x, rfl, hdiscard⟩
  · obtain ⟨hle, htimeout, hretention⟩ := hex.last_timely rfl
    by_cases hown : fragment.key = key
    · -- a fragment of the datagram
      have hf : fragment ∈ parts := hex.ours fragment now (.push result) (by simp) hown
      have hindex : pushedIndex key (.push fragment now, .push result) =
          some fragment.fragmentIndex.toNat := by simp [pushedIndex, hown]
      have hother : otherDelivery key (.push fragment now, .push result) = false := by
        rcases result with _ | _ | _ | _ <;> simp [otherDelivery, delivery, hown]
      rcases push_cases hpush with ⟨_, hinvalid, -, -⟩ | ⟨-, x, r1, hexpire, haccept⟩
      · rw [validate_eq_ok_iff.mpr (hcut.valid _ hf)] at hinvalid
        cases hinvalid
      · have hbooks1 := ((expire_keepsBooks hbooks).of_ok hexpire).1
        subst hconfig
        have h1 := h.expire hle htimeout hretention hexpire
        subst hown
        obtain ⟨hresult, htransit⟩ := h1.accept_own hcut hbooks1 hf hle haccept
          fun e he => hex.unlimited fragment now e (by simp [he]) rfl
        rw [hindex, hother]
        refine ⟨htransit, ?_⟩
        rintro fragment' now' result' heq -
        cases heq
        exact hresult
    · -- a fragment of another datagram
      have hindex : pushedIndex key (.push fragment now, .push result) = none := by
        simp [pushedIndex, hown]
      rw [hindex, Option.toList_none, List.append_nil]
      refine ⟨?_, fun fragment' now' result' heq hk => ?_⟩
      · subst hconfig
        rcases push_cases hpush with ⟨_, -, rfl, rfl⟩ | ⟨-, x, r1, hexpire, haccept⟩
        · exact h
        · have hconfig1 := (expire_forgets hexpire).2
          have hr1 := hr.forget hconfig1 (expire_forgets hexpire).1
          refine (h.expire hle htimeout hretention hexpire).accept_other hr1 (Ne.symm hown) haccept
            fun hother => ?_
          rw [if_pos hother] at hfew
          rwa [hconfig1]
      · cases heq
        exact absurd hk hown
  · obtain ⟨hle, htimeout, hretention⟩ := hex.last_timely rfl
    subst hconfig
    refine ⟨?_, fun _ _ _ heq => by cases heq⟩
    simpa [pushedIndex, otherDelivery, delivery] using h.expire hle htimeout hretention hexpire
  · have hs : key.sessionId ≠ closed := by
      rintro rfl
      exact hex.kept (.expiration x) (by simp)
    refine ⟨?_, fun _ _ _ heq => by cases heq⟩
    simpa [pushedIndex, otherDelivery, delivery] using h.discard hs (discardSession_spec hdiscard)

/-! ## The whole exchange -/

theorem untouched_of_run (hnew : new config = .ok r0)
    (hrun : Run Step r0 before r) (hnone : ∀ e ∈ before, pushedIndex key e = none) :
    Unknown key r ∧ key ∉ r.partials := by
  refine hrun.history (I := fun _ r => Unknown key r ∧ key ∉ r.partials) ?_ ?_
  · simp only [new] at hnew
    split_ifs at hnew
    cases hnew
    exact ⟨⟨List.not_mem_nil, fun entry hentry => absurd hentry List.not_mem_nil⟩, List.not_mem_nil⟩
  · intro past r e r' _ hpast h hstep
    exact hstep.untouched (hnone e (hpast.subset (by simp))) h

section

variable (hcut : IsCut direction sessionId datagramId payload parts)
include hcut

theorem inTransit_of_run (hnew : new config = .ok r0)
    (hbefore : Run Step r0 before r) (hnone : ∀ e ∈ before, pushedIndex key e = none)
    (hrun : Run Step r es r') (hex : Exchange config key parts start es) :
    r'.config = config ∧ r'.Accounted ∧ r'.Remembered ∧
      InTransit key payload parts start (seenIndices key es) (es.countP (otherDelivery key)) r' := by
  refine hrun.history (I := fun past r => r.config = config ∧ r.Accounted ∧ r.Remembered ∧
    InTransit key payload parts start (seenIndices key past)
      (past.countP (otherDelivery key)) r) ?_ ?_
  · obtain ⟨hunknown, hidle⟩ := untouched_of_run hnew hbefore hnone
    have hbooks : r.Accounted :=
      hbefore.invariant (fun _ _ _ h hstep => (hstep.keepsBooks h).1) (accounted_new hnew).1
    refine ⟨config_of_run hnew hbefore, hbooks, remembered_of_run hnew hbefore,
      .inl ⟨fun hall => ?_, hunknown, .inl ⟨rfl, hidle⟩⟩⟩
    exact List.not_mem_nil (hall 0 (List.length_pos_iff.mpr hcut.nonempty))
  · rintro past r e r' - hpast ⟨hconfig, hbooks, hr, htransit⟩ hstep
    exact ⟨hstep.config.trans hconfig, (hstep.keepsBooks hbooks).1, hstep.remembered hr,
      (hstep.exchange hcut hconfig hbooks hr htransit (hex.of_initial hpast)).1⟩

/-- **Every push of the datagram gets the reply it is owed**, given the indices seen before. -/
theorem reply_of_run {early late : List (Call × Reply)} {fragment : UdpFragment} {now : Instant}
    {result : Except UdpReassemblyError UdpReassemblyOutcome}
    (hnew : new config = .ok r0) (hbefore : Run Step r0 before r)
    (hnone : ∀ e ∈ before, pushedIndex key e = none) (hrun : Run Step r es r')
    (hex : Exchange config key parts start es)
    (hes : es = early ++ (.push fragment now, .push result) :: late) (hown : fragment.key = key) :
    result = .ok (expectedOutcome payload parts (seenIndices key early) fragment) := by
  subst hes
  obtain ⟨r1, hearly, hrest⟩ := hrun.of_append
  obtain ⟨r2, hstep, -⟩ := hrest.of_cons
  have hinitial : early ++ [(.push fragment now, .push result)] <+:
      early ++ (.push fragment now, .push result) :: late := ⟨late, by simp⟩
  obtain ⟨hconfig, hbooks, hr, htransit⟩ := inTransit_of_run hcut hnew hbefore hnone hearly
    (hex.of_initial (List.prefix_append early _))
  exact (hstep.exchange hcut hconfig hbooks hr htransit (hex.of_initial hinitial)).2 _ _ _ rfl hown

end

theorem seenIndices_append (key : DatagramKey) (es fs : List (Call × Reply)) :
    seenIndices key (es ++ fs) = seenIndices key es ++ seenIndices key fs :=
  List.filterMap_append

theorem exists_first_allSeen (h0 : ¬ AllSeen parts []) (h : AllSeen parts (seenIndices key es)) :
    ∃ early e late, es = early ++ e :: late ∧ ¬ AllSeen parts (seenIndices key early) ∧
      AllSeen parts (seenIndices key (early ++ [e])) := by
  induction es using List.reverseRecOn with
  | nil => exact absurd h h0
  | append_singleton es e ih =>
    by_cases hall : AllSeen parts (seenIndices key es)
    · obtain ⟨early, e', late, rfl, hnot, hnow⟩ := ih hall
      exact ⟨early, e', late ++ [e], by simp, hnot, hnow⟩
    · exact ⟨es, e, [], rfl, hall, h⟩

theorem exists_push_of_first {early late : List (Call × Reply)}
    (hrun : Run Step r (early ++ e :: late) r')
    (hex : Exchange config key parts start (early ++ e :: late))
    (hnot : ¬ AllSeen parts (seenIndices key early))
    (hnow : AllSeen parts (seenIndices key (early ++ [e]))) :
    ∃ fragment now result, e = (.push fragment now, .push result) ∧ fragment ∈ parts ∧
      fragment.key = key := by
  rw [seenIndices_snoc] at hnow
  cases hindex : pushedIndex key e with
  | none => exact absurd (by simpa [hindex] using hnow) hnot
  | some i =>
    obtain ⟨r1, -, hrest⟩ := hrun.of_append
    obtain ⟨r2, hstep, -⟩ := hrest.of_cons
    rcases hstep.cases with ⟨fragment, now, result, rfl, -⟩ | ⟨now, x, rfl, -⟩ | ⟨closed, x, rfl, -⟩
    · have hown : fragment.key = key := by
        by_contra hown
        simp [pushedIndex, hown] at hindex
      exact ⟨fragment, now, result, rfl, hex.ours fragment now (.push result) (by simp) hown, hown⟩
    · cases hindex
    · cases hindex

theorem allSeen_of_all_pushed (hcut : IsCut direction sessionId datagramId payload parts)
    (hkey : key = ⟨direction, sessionId, datagramId⟩)
    (hall : ∀ part ∈ parts, ∃ now reply, (.push part now, reply) ∈ es) :
    AllSeen parts (seenIndices key es) := by
  rw [allSeen_iff hcut]
  intro part hpart
  obtain ⟨now, reply, hmem⟩ := hall part hpart
  refine List.mem_filterMap.mpr ⟨_, hmem, ?_⟩
  simp [pushedIndex, hkey, hcut.key_eq hpart]

end Exchange

/-- **A datagram is delivered from end to end.** The frames of a datagram decode. When the decoded
fragments are pushed into a reassembler that has not seen the datagram, in any order and with any
repetitions, among calls for other datagrams, under the conditions of an `Exchange`, then there is
exactly one push of the datagram that delivers it, with exactly its payload: the first one after
which every index has been seen. All earlier ones are pending or duplicates, and all later ones
duplicates. -/
theorem delivery_of_run {direction : UdpDirection} {sessionId : Uuid} {datagramId : UInt64}
    {payload : List UInt8} {maxFrameBytes : ℕ} {frames : List (List UInt8)}
    (hsplit : fragmentDatagram direction sessionId datagramId payload maxFrameBytes = .ok frames) :
    ∃ parts, frames.mapM UdpFragment.decode = .ok parts ∧
      ∀ (config : UdpReassemblyConfig) (r0 r r' : UdpReassembler)
        (before es : List (Call × Reply)) (start : Instant),
        new config = .ok r0 →
        Run Step r0 before r →
        (∀ e ∈ before, pushedIndex ⟨direction, sessionId, datagramId⟩ e = none) →
        Run Step r es r' →
        Exchange config ⟨direction, sessionId, datagramId⟩ parts start es →
        (∀ part ∈ parts, ∃ now reply, (.push part now, reply) ∈ es) →
        ∃ early fragment now late,
          es = early ++ (.push fragment now, .push (.ok (.complete payload))) :: late ∧
          fragment ∈ parts ∧
          ¬ AllSeen parts (seenIndices ⟨direction, sessionId, datagramId⟩ early) ∧
          AllSeen parts (seenIndices ⟨direction, sessionId, datagramId⟩ early ++
            [fragment.fragmentIndex.toNat]) ∧
          (∀ f t result, (.push f t, .push result) ∈ early →
            f.key = ⟨direction, sessionId, datagramId⟩ →
            result = .ok .pending ∨ result = .ok .duplicate) ∧
          (∀ f t result, (.push f t, .push result) ∈ late →
            f.key = ⟨direction, sessionId, datagramId⟩ → result = .ok .duplicate) := by
  obtain ⟨parts, hdecode, hcut⟩ := fragmentDatagram_decodes hsplit
  refine ⟨parts, hdecode, ?_⟩
  intro config r0 r r' before es start hnew hbefore hnone hrun hex hall
  generalize hkey : (⟨direction, sessionId, datagramId⟩ : DatagramKey) = key at *
  have h0 : ¬ AllSeen parts [] := fun hall =>
    List.not_mem_nil (hall 0 (List.length_pos_iff.mpr hcut.nonempty))
  obtain ⟨early, e, late, hes, hnot, hnow⟩ :=
    exists_first_allSeen h0 (allSeen_of_all_pushed hcut hkey.symm hall)
  obtain ⟨fragment, now, result, rfl, hf, hown⟩ :=
    exists_push_of_first (hes ▸ hrun) (hes ▸ hex) hnot hnow
  have hindex : seenIndices key (early ++ [(.push fragment now, .push result)]) =
      seenIndices key early ++ [fragment.fragmentIndex.toNat] := by
    simp [seenIndices_snoc, pushedIndex, hown]
  have hnow' := hnow
  rw [hindex] at hnow'
  have hreply := fun {a b f t result} (h : es = a ++ (.push f t, .push result) :: b)
    (hf : f.key = key) => reply_of_run hcut hnew hbefore hnone hrun hex h hf
  -- the completing push replies with the payload
  have hunseen : fragment.fragmentIndex.toNat ∉ seenIndices key early := fun hseen =>
    hnot ((allSeen_append_of_mem hseen).mp hnow')
  have hresult : result = .ok (.complete payload) := by
    rw [hreply hes hown, expectedOutcome, if_neg (by tauto), if_pos hnow']
  subst hresult
  refine ⟨early, fragment, now, late, hes, hf, hnot, hnow', ?_, ?_⟩
  · -- before it some index is missing, also with the one pushed
    intro f t result hmem hk
    obtain ⟨a, b, rfl⟩ := List.append_of_mem hmem
    have hmissing : ¬ AllSeen parts (seenIndices key a ++ [f.fragmentIndex.toNat]) := fun hc => by
      refine hnot ?_
      have hsplit : a ++ (.push f t, .push result) :: b =
          (a ++ [(.push f t, .push result)]) ++ b := by simp
      rw [hsplit, seenIndices_append, seenIndices_snoc]
      have hone : (pushedIndex key (.push f t, .push result)).toList =
          [f.fragmentIndex.toNat] := by simp [pushedIndex, hk]
      rw [hone]
      exact hc.append _
    have hes' : es = a ++ (.push f t, .push result) ::
        (b ++ (.push fragment now, .push (.ok (.complete payload))) :: late) := by simp [hes]
    rw [hreply hes' hk, expectedOutcome, if_neg hmissing]
    split_ifs <;> simp
  · -- after it every index has been seen
    intro f t result hmem hk
    obtain ⟨a, b, rfl⟩ := List.append_of_mem hmem
    have hes' : es = (early ++ (.push fragment now, .push (.ok (.complete payload))) :: a) ++
        (.push f t, .push result) :: b := by simp [hes]
    have hseen : AllSeen parts (seenIndices key
        (early ++ (.push fragment now, .push (.ok (.complete payload))) :: a)) := by
      have hsplit : early ++ (.push fragment now, .push (.ok (.complete payload))) :: a =
          (early ++ [(.push fragment now, .push (.ok (.complete payload)))]) ++ a := by simp
      rw [hsplit, seenIndices_append]
      exact hnow.append _
    rw [hreply hes' hk, expectedOutcome, if_pos (.inl hseen)]

/-- Two frames, pushed in reverse, the first of them twice, the last one twice. -/
theorem delivery_of_run_reversed : ∃ frames r0 r es,
    fragmentDatagram .publicToTarget (Uuid.fromU128 1) 7 [10, 11] (udpDatagramHeaderBytes + 1) =
        .ok frames ∧
      new {} = .ok r0 ∧ Run Step r0 es r ∧
      es.map Prod.fst = [.push (sampleFragment 2 1 2 [11]) 0, .push (sampleFragment 2 1 2 [11]) 1,
        .push (sampleFragment 2 0 2 [10]) 2, .push (sampleFragment 2 0 2 [10]) 3] ∧
      ∃ early fragment now late,
        es = early ++ (.push fragment now, .push (.ok (.complete [10, 11]))) :: late ∧
        ∀ f t result, (.push f t, .push result) ∈ late → f.key = fragment.key →
          result = .ok .duplicate := by
  obtain ⟨frames, hsplit, hframes⟩ : ∃ frames,
      fragmentDatagram .publicToTarget (Uuid.fromU128 1) 7 [10, 11] (udpDatagramHeaderBytes + 1) =
        .ok frames ∧
      frames.mapM UdpFragment.decode = .ok [sampleFragment 2 0 2 [10], sampleFragment 2 1 2 [11]] :=
    bind_eq_ok.mp (by decide +kernel)
  obtain ⟨parts, hdecode, hdelivery⟩ := delivery_of_run hsplit
  cases hframes.symm.trans hdecode
  obtain ⟨r0, es, r, hnew, hcalls, hes⟩ : ∃ r0 es r, new {} = .ok r0 ∧
      perform call (fun _ _ => True) r0
        [.push (sampleFragment 2 1 2 [11]) 0, .push (sampleFragment 2 1 2 [11]) 1,
          .push (sampleFragment 2 0 2 [10]) 2, .push (sampleFragment 2 0 2 [10]) 3] =
        some (es, r) ∧
      es = [(.push (sampleFragment 2 1 2 [11]) 0, .push (.ok .pending)),
        (.push (sampleFragment 2 1 2 [11]) 1, .push (.ok .duplicate)),
        (.push (sampleFragment 2 0 2 [10]) 2, .push (.ok (.complete [10, 11]))),
        (.push (sampleFragment 2 0 2 [10]) 3, .push (.ok .duplicate))] :=
    ⟨_, _, _, rfl, rfl, rfl⟩
  have hrun := Run.of_calls hcalls
  have hexchange : Exchange {} ⟨.publicToTarget, Uuid.fromU128 1, 7⟩
      [sampleFragment 2 0 2 [10], sampleFragment 2 1 2 [11]] 0 es := by
    subst hes
    refine ⟨?_, ?_, ?_, by decide, by decide⟩
    · intro fragment now reply hmem _
      simp only [List.mem_cons, Prod.mk.injEq, Call.push.injEq, List.not_mem_nil, or_false] at hmem
      rcases hmem with h | h | h | h <;> simp [h.1.1]
    · intro fragment now e hmem
      simp at hmem
    · intro reply hmem
      simp at hmem
  have hpushed : ∀ part ∈ [sampleFragment 2 0 2 [10], sampleFragment 2 1 2 [11]],
      ∃ now reply, (.push part now, reply) ∈ es := by
    intro part hpart
    rcases List.mem_pair.mp hpart with rfl | rfl
    · exact ⟨2, .push (.ok (.complete [10, 11])), by simp [hes]⟩
    · exact ⟨0, .push (.ok .pending), by simp [hes]⟩
  obtain ⟨early, fragment, now, late, hsplit', hmem, -, -, -, hlate⟩ :=
    hdelivery {} r0 r0 r [] es 0 hnew (.nil r0) (by simp) hrun hexchange hpushed
  refine ⟨frames, r0, r, es, hsplit, hnew, hrun, by simp [hes], early, fragment, now, late, hsplit',
    fun f t result hf hk => hlate f t result hf ?_⟩
  rw [hk]
  rcases List.mem_pair.mp hmem with rfl | rfl <;> rfl

end LinkLake.Udp
