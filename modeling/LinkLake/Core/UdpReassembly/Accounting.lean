import LinkLake.Core.UdpReassembly.Steps

/-!
# The books of the reassembler

The reassembler keeps four counts beside the datagrams themselves: the bytes reserved for all of
them, the number of them per session, and for each datagram the slots and bytes received. Here
they are shown to be what they count, at all times, and within the configured limits. The same
invariant is what the `expect`s, the index and the subtractions of the code rely on, so that no
call can abort on them.

* `UdpReassembler.Accounted`: the counts are exact and within the limits;
* `UdpReassembler.call_keepsBooks`: every call keeps the books, and aborts at most on the sum of
  reserved bytes;
* `accounted_of_run`: so does every run.
-/

namespace LinkLake.Udp

open Fallible FiniteMap UdpReassembler

/-! ## Slots -/

/-- The number of filled slots. -/
def filledSlots (slots : List (Option (List UInt8))) : ℕ := slots.countP Option.isSome

/-- The number of bytes in the filled slots. -/
def filledBytes (slots : List (Option (List UInt8))) : ℕ :=
  (slots.map fun slot => (slot.getD []).length).sum

variable {slots : List (Option (List UInt8))} {i : ℕ} {bytes : List UInt8}

theorem filledSlots_set (h : slots[i]? = some none) :
    filledSlots (slots.set i (some bytes)) = filledSlots slots + 1 := by
  induction slots generalizing i with
  | nil => simp at h
  | cons slot slots ih =>
    cases i with
    | zero =>
      obtain rfl : slot = none := by simpa using h
      simp [filledSlots]
    | succ i =>
      have := ih (i := i) (by simpa using h)
      simp only [filledSlots, List.set_cons_succ, List.countP_cons] at this ⊢
      omega

theorem filledBytes_set (h : slots[i]? = some none) :
    filledBytes (slots.set i (some bytes)) = filledBytes slots + bytes.length := by
  induction slots generalizing i with
  | nil => simp at h
  | cons slot slots ih =>
    cases i with
    | zero =>
      obtain rfl : slot = none := by simpa using h
      simp [filledBytes, Nat.add_comm]
    | succ i =>
      have := ih (i := i) (by simpa using h)
      simp only [filledBytes, List.set_cons_succ, List.map_cons, List.sum_cons] at this ⊢
      omega

theorem collectSlots_ok (h : filledSlots slots = slots.length) :
    ∃ payload, collectSlots slots = .ok payload := by
  have hall := List.countP_eq_length.mp h
  clear h
  induction slots with
  | nil => exact ⟨[], rfl⟩
  | cons slot slots ih =>
    obtain ⟨bytes, rfl⟩ := Option.isSome_iff_exists.mp (hall slot (by simp))
    obtain ⟨rest, hrest⟩ := ih fun s hs => hall s (by simp [hs])
    exact ⟨bytes ++ rest, bind_eq_ok.mpr ⟨rest, hrest, rfl⟩⟩

/-! ## The invariant -/

/-- The counts of a datagram in progress are those of its slots. -/
structure PartialDatagram.Accounted (d : PartialDatagram) : Prop where
  slots : d.fragments.length = d.fragmentCount.toNat
  receivedFragments : d.receivedFragments = filledSlots d.fragments
  receivedBytes : d.receivedBytes = filledBytes d.fragments
  fits : d.receivedBytes ≤ d.originalLength

/-- The number of datagrams of a session that are in progress. -/
def UdpReassembler.inProgress (r : UdpReassembler) (sessionId : Uuid) : ℕ :=
  r.partials.countKeys fun key => key.sessionId = sessionId

/-- The counts of the reassembler are exact and within the limits. -/
structure UdpReassembler.Accounted (r : UdpReassembler) : Prop where
  buffered : r.bufferedBytes = r.partials.total PartialDatagram.originalLength
  buffered_le : r.bufferedBytes ≤ r.config.maxBufferedBytes
  /-- A session has an entry exactly when it has datagrams in progress, and the entry is their
  number. -/
  perSession : ∀ s n, r.incompleteBySession.get? s = some n ↔ n = r.inProgress s ∧ 0 < n
  perSession_le : ∀ s, r.inProgress s ≤ r.config.maxIncompletePerSession
  size_le : r.partials.size ≤ r.config.maxIncompleteDatagrams
  datagrams : ∀ k d, r.partials.get? k = some d → d.Accounted

namespace UdpReassembler

variable {r r' : UdpReassembler} {key : DatagramKey} {fragment : UdpFragment} {now : Instant}
  {d d' : PartialDatagram}

theorem accounted_new {config : UdpReassemblyConfig} (h : new config = .ok r) :
    r.Accounted ∧ r.config = config := by
  simp only [new] at h
  split_ifs at h
  cases h
  refine ⟨⟨rfl, Nat.zero_le _, fun s n => ?_, fun s => Nat.zero_le _, Nat.zero_le _, ?_⟩, rfl⟩
  · simp only [get?_empty, inProgress, countKeys_empty]
    constructor
    · intro h
      cases h
    · omega
  · intro k d h
    simp at h

theorem Accounted.of_eq (h : r.Accounted) (hconfig : r'.config = r.config)
    (hpartials : r'.partials = r.partials)
    (hsessions : r'.incompleteBySession = r.incompleteBySession)
    (hbuffered : r'.bufferedBytes = r.bufferedBytes) : r'.Accounted := by
  obtain ⟨h1, h2, h3, h4, h5, h6⟩ := h
  refine ⟨?_, ?_, ?_, ?_, ?_, ?_⟩
  · rw [hbuffered, hpartials, h1]
  · rw [hbuffered, hconfig]
    exact h2
  · rw [hsessions]
    simpa only [inProgress, hpartials] using h3
  · rw [hconfig]
    simpa only [inProgress, hpartials] using h4
  · rw [hpartials, hconfig]
    exact h5
  · rw [hpartials]
    exact h6

theorem Accounted.get?_of_mem (h : r.Accounted) (hd : r.partials.get? key = some d) :
    r.incompleteBySession.get? key.sessionId = some (r.inProgress key.sessionId) ∧
      0 < r.inProgress key.sessionId := by
  have hpos : 0 < r.inProgress key.sessionId := countKeys_pos hd (by simp)
  exact ⟨(h.perSession _ _).mpr ⟨rfl, hpos⟩, hpos⟩

theorem Accounted.getD_eq (h : r.Accounted) (s : Uuid) :
    (r.incompleteBySession.get? s).getD 0 = r.inProgress s := by
  cases hs : r.incompleteBySession.get? s with
  | some n => exact ((h.perSession s n).mp hs).1
  | none =>
    rcases Nat.eq_zero_or_pos (r.inProgress s) with h0 | hpos
    · simp [h0]
    · have := (h.perSession s _).mpr ⟨rfl, hpos⟩
      rw [hs] at this
      cases this

/-! ## One datagram changes -/

theorem accounted_freshDatagram : (freshDatagram fragment now).Accounted := by
  refine ⟨by simp [freshDatagram], ?_, ?_, Nat.zero_le _⟩
  · simp [freshDatagram, filledSlots, List.countP_replicate]
  · simp [freshDatagram, filledBytes]

theorem Fills.accounted (h : Fills d fragment d') (hd : d.Accounted) : d'.Accounted := by
  obtain ⟨-, -, hslot, hfits, rfl⟩ := h
  refine ⟨?_, ?_, ?_, hfits⟩
  · rw [List.length_set, hd.slots]
  · rw [filledSlots_set hslot, hd.receivedFragments]
  · rw [filledBytes_set hslot, hd.receivedBytes]

theorem offer_ok (hd : d.Accounted) (hvalid : ValidFragment fragment) :
    ∃ verdict, offer d fragment = .ok verdict := by
  simp only [offer]
  by_cases hmeta : d.originalLength ≠ fragment.originalLength.toNat ∨
      d.fragmentCount ≠ fragment.fragmentCount
  · rw [if_pos hmeta]
    exact ⟨_, rfl⟩
  · rw [if_neg hmeta]
    have hindex : fragment.fragmentIndex.toNat < d.fragments.length := by
      rw [hd.slots, not_ne_iff.mp fun h => hmeta (.inr h)]
      exact hvalid.index_lt
    rw [List.getElem?_eq_getElem hindex]
    cases d.fragments[fragment.fragmentIndex.toNat] with
    | none =>
      dsimp only
      split <;> exact ⟨_, rfl⟩
    | some existing =>
      dsimp only
      split <;> exact ⟨_, rfl⟩

section

variable (h : r.Accounted)
include h

theorem Accounted.replace (hd : r.partials.get? key = some d)
    (hlen : d'.originalLength = d.originalLength) (hd' : d'.Accounted) :
    ({ r with partials := r.partials.insert key d' } : UdpReassembler).Accounted := by
  have hprogress : ∀ s, (r.partials.insert key d').countKeys (fun k => k.sessionId = s) =
      r.inProgress s := fun s => by
    rw [countKeys_insert, countKeys_erase _ hd]
    rfl
  refine ⟨?_, h.buffered_le, fun s n => ?_, fun s => ?_, ?_, forall_insert h.datagrams hd'⟩
  · have := total_erase PartialDatagram.originalLength hd
    rw [total_insert, h.buffered]
    omega
  · rw [inProgress, hprogress]
    exact h.perSession s n
  · rw [inProgress, hprogress]
    exact h.perSession_le s
  · rw [size_insert, size_erase hd]
    exact h.size_le

theorem Accounted.reserve (hnew : fragment.key ∉ r.partials)
    (hinsert : r.insertPartial fragment.key fragment now = .ok (.ok r')) : r'.Accounted := by
  obtain ⟨rfl, hsize, hsession, hbytes⟩ := insertPartial_ok hinsert
  rw [h.getD_eq] at hsession
  have herase := erase_of_notMem hnew
  have hprogress : ∀ s, (r.reserved fragment now).inProgress s =
      r.inProgress s + if fragment.sessionId = s then 1 else 0 := fun s => by
    rw [reserved, inProgress, countKeys_insert, herase]
    by_cases hs : fragment.sessionId = s <;> simp [inProgress, UdpFragment.key, hs]
  refine ⟨?_, hbytes, fun s n => ?_, fun s => ?_, ?_,
    forall_insert h.datagrams accounted_freshDatagram⟩
  · rw [reserved, total_insert, herase, h.buffered, freshDatagram]
    exact Nat.add_comm _ _
  · rw [hprogress, reserved, get?_insert, h.getD_eq]
    by_cases hs : fragment.sessionId = s
    · subst hs
      simp only [if_pos, Option.some.injEq]
      omega
    · rw [if_neg (Ne.symm hs), if_neg hs]
      exact h.perSession s n
  · rw [hprogress]
    split_ifs with hs
    · subst hs
      exact hsession
    · exact h.perSession_le s
  · rw [reserved, size_insert, herase]
    exact hsize

theorem Accounted.remove (key : DatagramKey) :
    ∃ r', r.removePartial key = .ok (r.partials.get? key, r') ∧ r'.Accounted ∧
      r'.config = r.config := by
  simp only [removePartial]
  cases hd : r.partials.get? key with
  | none => exact ⟨r, rfl, h, rfl⟩
  | some d =>
    obtain ⟨hcount, hpos⟩ := h.get?_of_mem hd
    have htotal := total_erase PartialDatagram.originalLength hd
    have hsize := size_erase hd
    have hprogress : ∀ s, (r.partials.erase key).countKeys (fun k => k.sessionId = s) =
        r.inProgress s - if key.sessionId = s then 1 else 0 := fun s => by
      have := countKeys_erase (fun k => decide (k.sessionId = s)) hd
      simp only [decide_eq_true_eq] at this
      rw [inProgress]
      omega
    -- what is left to check is the entry of the session, which is erased or lowered by one
    have key_fact : ∀ sessions : FiniteMap Uuid ℕ,
        (∀ s n, sessions.get? s = some n ↔
          n = (r.inProgress s - if key.sessionId = s then 1 else 0) ∧ 0 < n) →
        Accounted { r with
          partials := r.partials.erase key
          bufferedBytes := r.bufferedBytes - d.originalLength
          incompleteBySession := sessions } := by
      intro sessions hsessions
      refine ⟨?_, ?_, fun s n => ?_, fun s => ?_, ?_, fun k e hk =>
        h.datagrams k e (get?_of_erase hk)⟩
      · have := h.buffered
        change r.bufferedBytes - d.originalLength = (r.partials.erase key).total _
        omega
      · exact (Nat.sub_le _ _).trans h.buffered_le
      · rw [inProgress, hprogress]
        exact hsessions s n
      · rw [inProgress, hprogress]
        exact (Nat.sub_le _ _).trans (h.perSession_le s)
      · have := h.size_le
        change (r.partials.erase key).size ≤ r.config.maxIncompleteDatagrams
        omega
    rw [hcount]
    dsimp only
    rw [if_neg (by omega)]
    split_ifs with hlast
    · refine ⟨_, rfl, key_fact _ fun s n => ?_, rfl⟩
      rw [get?_erase]
      by_cases hs : key.sessionId = s
      · subst hs
        simp only [if_pos, reduceCtorEq, false_iff]
        omega
      · rw [if_neg (Ne.symm hs), if_neg hs]
        exact h.perSession s n
    · refine ⟨_, rfl, key_fact _ fun s n => ?_, rfl⟩
      rw [get?_insert]
      by_cases hs : key.sessionId = s
      · subst hs
        simp only [if_pos, Option.some.injEq]
        omega
      · rw [if_neg (Ne.symm hs), if_neg hs]
        exact h.perSession s n

/-! ## Every operation keeps the books -/

/-- The abort that the books do not rule out: the sum of the reserved bytes leaves the range of
`usize`, which takes a memory limit at the very end of that range. -/
def OverflowOnly (config : UdpReassemblyConfig) (p : Panic) : Prop :=
  p = .addWithOverflow ∧ usizeMax ≤ config.maxBufferedBytes

/-- A computation keeps the books: it ends in an accounted state of the same configuration, and
aborts at most on the sum of the reserved bytes. -/
def KeepsBooks {α : Type} (config : UdpReassemblyConfig) (x : Except Panic (α × UdpReassembler)) :
    Prop :=
  Ensures x (fun y => y.2.Accounted ∧ y.2.config = config) (OverflowOnly config)

theorem removePartial_keepsBooks : KeepsBooks r.config (r.removePartial key) := by
  obtain ⟨r', hremove, hr', hconfig⟩ := h.remove key
  rw [hremove]
  exact ⟨hr', hconfig⟩

theorem releaseAll_keepsBooks (keys : List DatagramKey) (x : UdpReassemblyExpiration) :
    KeepsBooks r.config (keys.foldlM releasePartial (x, r)) := by
  refine Ensures.foldlM (fun acc key hacc => ?_) keys ⟨h, rfl⟩
  obtain ⟨hacc, hconfig⟩ := hacc
  rw [← hconfig]
  refine (removePartial_keepsBooks hacc).bind fun ⟨removed, r'⟩ hr' => ?_
  cases removed <;> exact hr'

theorem expire_keepsBooks : KeepsBooks r.config (r.expire now) := by
  simp only [expire]
  split_ifs
  · exact ⟨h, rfl⟩
  · have hr : ({ r with nextCleanupAt := some (now + reassemblyCleanupInterval) } :
        UdpReassembler).Accounted := h.of_eq rfl rfl rfl rfl
    refine (releaseAll_keepsBooks hr _ _).bind fun _ hr' => ?_
    exact ⟨hr'.1.of_eq rfl rfl rfl rfl, hr'.2⟩

theorem discardSession_keepsBooks {sessionId : Uuid} :
    KeepsBooks r.config (r.discardSession sessionId) := by
  refine (releaseAll_keepsBooks h _ _).bind fun ⟨x, r'⟩ hr' => ?_
  exact ⟨hr'.1.of_eq rfl rfl rfl rfl, hr'.2⟩

theorem rememberCompleted_accounted : (r.rememberCompleted key now).Accounted :=
  h.of_eq rfl rfl rfl rfl

theorem finish_keepsBooks (hd : r.partials.get? key = some d)
    (hall : d.receivedFragments = d.fragmentCount.toNat) :
    KeepsBooks r.config (r.finish key now) := by
  have hdatagram := h.datagrams key d hd
  obtain ⟨r', hremove, hr', hconfig⟩ := h.remove key
  simp only [finish, hremove, hd, ok_bind]
  split_ifs
  · exact ⟨hr', hconfig⟩
  · have hfull : filledSlots d.fragments = d.fragments.length := by
      rw [← hdatagram.receivedFragments, hall, hdatagram.slots]
    obtain ⟨payload, hslots⟩ := collectSlots_ok hfull
    rw [hslots, ok_bind]
    split_ifs
    · exact ⟨hr', hconfig⟩
    · exact ⟨rememberCompleted_accounted hr', hconfig⟩

theorem fill_keepsBooks (hvalid : ValidFragment fragment) (hmem : key ∈ r.partials) :
    KeepsBooks r.config (r.fill key fragment now) := by
  obtain ⟨d, hd⟩ := mem_iff.mp hmem
  obtain ⟨verdict, hoffer⟩ := offer_ok (h.datagrams key d hd) hvalid
  simp only [fill, hd, hoffer, ok_bind]
  cases verdict with
  | failure e => exact (removePartial_keepsBooks h).bind fun _ hr' => hr'
  | duplicate => exact ⟨h, rfl⟩
  | filled d' =>
    have hfills := offer_filled hoffer
    have hr' := h.replace hd (by rw [hfills.result]) (hfills.accounted (h.datagrams key d hd))
    dsimp only
    split_ifs with hall
    · exact finish_keepsBooks hr' (by simp) hall
    · exact ⟨hr', rfl⟩

end

theorem insertPartial_error_overflow {p : Panic} (h : r.insertPartial key fragment now = .error p) :
    OverflowOnly r.config p := by
  simp only [insertPartial] at h
  split_ifs at h with hsize hsession hmemory hoverflow
  obtain rfl := Except.error.inj h
  refine ⟨rfl, ?_⟩
  rw [saturatingAdd] at hmemory
  omega

variable (h : r.Accounted)
include h

theorem accept_keepsBooks (hvalid : ValidFragment fragment) :
    KeepsBooks r.config (r.accept fragment now) := by
  simp only [accept]
  split_ifs with hdone hlen hold
  · exact ⟨h, rfl⟩
  · exact ⟨rememberCompleted_accounted h, rfl⟩
  · exact fill_keepsBooks h hvalid hold
  · cases hinsert : r.insertPartial fragment.key fragment now with
    | error p => exact insertPartial_error_overflow hinsert
    | ok inserted =>
      cases inserted with
      | error e => exact ⟨h, rfl⟩
      | ok r1 =>
        have hr1 := h.reserve hold hinsert
        obtain ⟨rfl, -, -, -⟩ := insertPartial_ok hinsert
        exact fill_keepsBooks hr1 hvalid (by simp [reserved])

theorem push_keepsBooks : KeepsBooks r.config (r.push fragment now) := by
  simp only [push]
  cases hvalid : fragment.validate with
  | error e => exact ⟨h, rfl⟩
  | ok u =>
    refine (expire_keepsBooks h).bind fun _ hr1 => ?_
    rw [← hr1.2]
    exact accept_keepsBooks hr1.1 (validate_eq_ok_iff.mp hvalid)

theorem call_keepsBooks (c : Call) : KeepsBooks r.config (r.call c) := by
  cases c with
  | push fragment now => exact (push_keepsBooks h).bind fun _ hr' => hr'
  | expire now => exact (expire_keepsBooks h).bind fun _ hr' => hr'
  | discardSession sessionId => exact (discardSession_keepsBooks h).bind fun _ hr' => hr'

end UdpReassembler

/-! ## Every run keeps the books -/

theorem Step.keepsBooks {r r' : UdpReassembler} {e : Call × Reply} (h : r.Accounted)
    (hstep : Step r e r') : r'.Accounted ∧ r'.config = r.config :=
  (call_keepsBooks h e.1).of_ok hstep

/-- **The books are right in every reachable state.** Along any run of an accepted configuration,
whatever the fragments, the clock and the errors returned, the counts are exact and within the
limits of that configuration; and no call aborts there, except on a sum of reserved bytes that
leaves the range of `usize` under a memory limit at the end of that range. -/
theorem accounted_of_run {config : UdpReassemblyConfig} {r0 r : UdpReassembler}
    {es : List (Call × Reply)} (hnew : new config = .ok r0) (hrun : Run Step r0 es r) :
    r.config = config ∧ r.Accounted ∧
      ∀ c p, r.call c = .error p → p = .addWithOverflow ∧ usizeMax ≤ config.maxBufferedBytes := by
  obtain ⟨h0, hconfig0⟩ := accounted_new hnew
  have hinv : r.Accounted ∧ r.config = config := by
    refine hrun.invariant (I := fun r => r.Accounted ∧ r.config = config) ?_ ⟨h0, hconfig0⟩
    rintro r e r' ⟨hr, hconfig⟩ hstep
    obtain ⟨hr', hconfig'⟩ := hstep.keepsBooks hr
    exact ⟨hr', hconfig'.trans hconfig⟩
  obtain ⟨hr, hconfig⟩ := hinv
  refine ⟨hconfig, hr, fun c p hp => ?_⟩
  rw [← hconfig]
  exact (call_keepsBooks hr c).of_error hp

theorem accounted_of_run_pending : ∃ r0 es r, new {} = .ok r0 ∧
    perform call (fun _ _ => True) r0 [.push (sampleFragment 2 0 2 [10]) 0] =
      some (es, r) ∧ r.bufferedBytes = 2 ∧ r.Accounted := by
  obtain ⟨r0, es, r, hnew, hcalls, hbytes⟩ : ∃ r0 es r, new {} = .ok r0 ∧
      perform call (fun _ _ => True) r0 [.push (sampleFragment 2 0 2 [10]) 0] =
        some (es, r) ∧ r.bufferedBytes = 2 := ⟨_, _, _, rfl, rfl, rfl⟩
  exact ⟨r0, es, r, hnew, hcalls, hbytes, (accounted_of_run hnew (Run.of_calls hcalls)).2.1⟩

end LinkLake.Udp
