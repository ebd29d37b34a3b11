import LinkLake.Core.Socks5Fragment.Outcomes
import LinkLake.Core.Socks5Fragment.Shape

/-!
# Datagrams arrive whole

The fragments of a datagram are pushed in an order that stays within the reorder gap, between pushes
for other keys and repeated ones, and the budgets have room for them. Then the datagram is delivered
once, when its last fragment comes, with the bytes of all fragments in their order
(`reassembles_of_run`).

`Holding` is what the assembly looks like in between: it has exactly the fragments that have
arrived. One step keeps it (`Ready.step`), because nothing that is asked of a budget is refused
(`push_granted`).
-/

namespace LinkLake.Socks5

open BudgetProg FiniteMap Socks5FragmentReassembler
open Udp (Instant usizeMax saturatingAdd)

variable {K : Type} [DecidableEq K] {room : Counter → ℕ}

section Granted

variable {r : Socks5FragmentReassembler K} {key : FragmentKey K} {a : Assembly}
  {limit : Counter → ℕ} {fragment : Socks5UdpFragment} {now : Instant}

theorem saturatingAdd_le {m n bound : ℕ} (h : m + n ≤ bound) : ¬ saturatingAdd m n > bound :=
  not_lt.mpr ((min_le_left _ _).trans h)

theorem reserveNewAssembly_granted {session : K} {envelope : ℕ} (h : InOrder r)
    (hdatagram : envelope ≤ r.config.maxBytesPerDatagram.toNat)
    (hinflight : (usageOf r.assemblies session).datagrams < r.config.maxInflightPerSession.toNat)
    (hbytes : (usageOf r.assemblies session).bytes + envelope ≤ r.config.maxBytesPerSession.toNat)
    (hroom1 : r.held .inflightDatagrams + 1 ≤ room .inflightDatagrams)
    (hroom2 : r.held .bufferedBytes + envelope ≤ room .bufferedBytes) :
    Obtains room (fun result _ => ∃ r', result = .ok r')
      (r.reserveNewAssembly session envelope) r.held := by
  rw [reserveNewAssembly, h.usage session, if_neg (by omega),
    if_neg (by omega), if_neg (saturatingAdd_le hbytes)]
  refine obtains_tryReserve_bind.mpr ⟨hroom1, ?_⟩
  rw [if_pos rfl]
  refine obtains_tryReserve_bind.mpr ⟨?_, ⟨_, rfl⟩⟩
  simpa [raise] using hroom2

theorem reserveFragment_granted {n : ℕ} (h : InOrder r) (hget : r.assemblies.get? key = some a)
    (hsize : a.fragments.size < r.config.maxFragmentsPerDatagram.toNat)
    (hdatagram : a.bytes + n ≤ r.config.maxBytesPerDatagram.toNat)
    (hfragments : (usageOf r.assemblies key.session).fragments
      < r.config.maxFragmentsPerSession.toNat)
    (hbytes : (usageOf r.assemblies key.session).bytes + n ≤ r.config.maxBytesPerSession.toNat)
    (hroom1 : r.held .bufferedFragments + 1 ≤ room .bufferedFragments)
    (hroom2 : r.held .bufferedBytes + n ≤ room .bufferedBytes) :
    Obtains room (fun result _ => ∃ r', result = .ok r')
      (r.reserveFragment key.session key n) r.held := by
  have hentry := (h.sessions key.session).trans (if_neg (share_pos hget).ne')
  rw [reserveFragment, h.usage key.session]
  refine obtains_expect_bind.mpr ⟨a, hget, ?_⟩
  rw [if_neg (by omega), if_neg (saturatingAdd_le hdatagram), if_neg (by omega),
    if_neg (saturatingAdd_le hbytes), tryReserveFragment]
  refine obtains_bind.mpr (obtains_tryReserve_bind.mpr ⟨hroom1, ?_⟩)
  rw [if_pos rfl]
  refine obtains_tryReserve_bind.mpr ⟨by simpa [raise] using hroom2, ?_⟩
  rw [if_pos rfl]
  exact obtains_expect_bind.mpr ⟨_, hentry, ⟨_, rfl⟩⟩

theorem releaseAssembly_granted (a : Assembly) (held : Counter → ℕ) :
    Obtains room (fun _ _ => True) (releaseAssembly a) held := by
  rw [releaseAssembly, releaseDatagram, releaseBytes]
  refine obtains_giveBack_bind.mpr (obtains_giveBack_bind.mpr ?_)
  refine obtains_forM (fun payload held => ?_) _ _
  rw [releaseFragment, releaseBytes]
  exact obtains_giveBack_bind.mpr trivial

theorem deliver_granted (hget : r.assemblies.get? key = some a) (ha : a.InOrder r.config key)
    (hcomplete : a.complete = true) (held : Counter → ℕ) :
    Obtains room (fun result _ => ∃ outcome, result.1 = .ok outcome) (r.deliver key) held := by
  obtain ⟨last, hlast, hall⟩ := (Option.any_eq_true _ _).mp hcomplete
  have hhighest := beq_iff_eq.mp hall
  rw [deliver, removeAssembly, hget]
  refine obtains_bind.mpr (obtains_bind.mpr ((releaseAssembly_granted a held).mono ?_))
  intro _ held' _
  refine obtains_expect_bind.mpr ⟨a, rfl, obtains_expect_bind.mpr ⟨last, hlast, ?_⟩⟩
  refine (obtains_mapM_expect (fun sequence hsequence => ?_) held').bind fun _ _ _ => ⟨_, rfl⟩
  have hrange := List.mem_range'_1.mp hsequence
  exact mem_iff.mp (ha.contiguous sequence hrange.1 (by omega))

theorem pushInto_granted {created : Bool} (hlimit : ∀ c, limit c ≤ usizeMax)
    (hroom : ∀ c, room c ≤ limit c) (h : InOrder r) (hget : r.assemblies.get? key = some a)
    (haccept : a.conflict r.config.maxReorderGap.toNat fragment = .accept)
    (hsize : a.fragments.size < r.config.maxFragmentsPerDatagram.toNat)
    (hdatagram : a.bytes + fragment.payload.length ≤ r.config.maxBytesPerDatagram.toNat)
    (hfragments : (usageOf r.assemblies key.session).fragments
      < r.config.maxFragmentsPerSession.toNat)
    (hbytes : (usageOf r.assemblies key.session).bytes + fragment.payload.length
      ≤ r.config.maxBytesPerSession.toNat)
    (hroom1 : r.held .bufferedFragments + 1 ≤ room .bufferedFragments)
    (hroom2 : r.held .bufferedBytes + fragment.payload.length ≤ room .bufferedBytes) :
    Obtains room (fun result _ => ∃ outcome, result.1 = .ok outcome)
      (r.pushInto key.session key fragment now created) r.held := by
  rw [pushInto]
  refine obtains_expect_bind.mpr ⟨a, hget, ?_⟩
  simp only [haccept]
  refine ((reserveFragment_granted h hget hsize hdatagram hfragments hbytes hroom1 hroom2).and
    hroom (reserveFragment_ensures hlimit h hget _)).bind ?_
  rintro _ held ⟨⟨r', rfl⟩, hreserved⟩
  obtain ⟨-, -, -, -, -, rfl⟩ := hreserved
  refine obtains_expect_bind.mpr ⟨a, hget, ?_⟩
  dsimp only
  obtain ⟨hstored, -, -⟩ := (h.assembly key a hget).store (conflict_eq_accept.mp haccept).2.1 hsize
    hdatagram now
  split
  · rename_i hcomplete
    refine deliver_granted (get?_insert_self _ _ _) ?_ hcomplete held
    exact hstored
  · exact ⟨_, rfl⟩

end Granted

/-! ## Fragments that arrive -/

/-- The fragments of a datagram, numbered from 1; the last one is the final one. -/
def part (key : FragmentKey K) (payloads : List (List UInt8)) (sequence : ℕ) :
    Socks5UdpFragment where
  sequence := sequence
  finalFragment := decide (sequence = payloads.length)
  target := key.target
  port := key.port
  payload := payloads.getD (sequence - 1) []

/-- How many of the first fragments have arrived, without a gap. -/
def contiguous (arrived : Finset ℕ) : ℕ :=
  Nat.findGreatest (fun m => Finset.Icc 1 m ⊆ arrived) arrived.card

/-- What may be pushed next, and which fragments have then arrived: one that has not arrived and
is within the gap, at first the first one; one that has, if reordering is allowed; or something
for another key. -/
inductive Arrives (gap : ℕ) (key : FragmentKey K) (payloads : List (List UInt8)) :
    Finset ℕ → Call K → Finset ℕ → Prop
  | fresh {arrived : Finset ℕ} {sequence : ℕ} {now : Instant} (hnew : sequence ∉ arrived)
      (hone : 1 ≤ sequence) (hle : sequence ≤ payloads.length)
      (hstart : arrived = ∅ → sequence = 1) (hgap : sequence ≤ contiguous arrived + gap + 1) :
      Arrives gap key payloads arrived (.push key.session (part key payloads sequence) now)
        (insert sequence arrived)
  | again {arrived : Finset ℕ} {sequence : ℕ} {now : Instant} (hgap : 0 < gap)
      (hmem : sequence ∈ arrived) (hfinal : sequence ≠ payloads.length)
      (hopen : arrived ≠ Finset.Icc 1 payloads.length) :
      Arrives gap key payloads arrived (.push key.session (part key payloads sequence) now) arrived
  | other {arrived : Finset ℕ} {session : K} {fragment : Socks5UdpFragment} {now : Instant}
      (hkey : (⟨session, fragment.target, fragment.port⟩ : FragmentKey K) ≠ key) :
      Arrives gap key payloads arrived (.push session fragment now) arrived

/-- A datagram of `envelope` and payload bytes fits into all budgets, beside what the other
assemblies of the reassembler and the other reassemblers hold. -/
structure Fits (budget : Socks5FragmentGlobalBudget) (key : FragmentKey K)
    (payloads : List (List UInt8)) (envelope : ℕ) (r : Socks5FragmentReassembler K)
    (others : Stream' (Counter → ℕ)) : Prop where
  datagram : envelope + payloads.flatten.length ≤ r.config.maxBytesPerDatagram.toNat
  sessionDatagrams : (usageOf (r.assemblies.erase key) key.session).datagrams + 1
    ≤ r.config.maxInflightPerSession.toNat
  sessionFragments : (usageOf (r.assemblies.erase key) key.session).fragments + payloads.length
    ≤ r.config.maxFragmentsPerSession.toNat
  sessionBytes : (usageOf (r.assemblies.erase key) key.session).bytes +
    (envelope + payloads.flatten.length) ≤ r.config.maxBytesPerSession.toNat
  shared : ∀ k c, others.get k c + (({ r with assemblies := r.assemblies.erase key } :
    Socks5FragmentReassembler K).held c +
      tally 1 payloads.length (envelope + payloads.flatten.length) c) ≤ budget.limit c

/-- A call, and the fragments that have arrived with it; a push for the key finds room. -/
def ArrivalStep (budget : Socks5FragmentGlobalBudget) (key : FragmentKey K)
    (payloads : List (List UInt8)) (envelope : ℕ)
    (x : Socks5FragmentReassembler K × Finset ℕ) (e : Event K)
    (y : Socks5FragmentReassembler K × Finset ℕ) : Prop :=
  (system K budget).CallStep x.1 e y.1 ∧
    Arrives x.1.config.maxReorderGap.toNat key payloads x.2 e.call y.2 ∧
    ((∃ fragment, Pushes key fragment e) → Fits budget key payloads envelope x.1 e.others)

section Arrived

variable {arrived : Finset ℕ} {payloads : List (List UInt8)} {sequence m : ℕ}

theorem le_contiguous (h : Finset.Icc 1 m ⊆ arrived) : m ≤ contiguous arrived := by
  have hcard := Finset.card_le_card h
  rw [Nat.card_Icc, Nat.add_sub_cancel] at hcard
  exact Nat.le_findGreatest hcard h

theorem Icc_contiguous_subset (arrived : Finset ℕ) :
    Finset.Icc 1 (contiguous arrived) ⊆ arrived := by
  have hzero : Finset.Icc 1 0 ⊆ arrived := by simp
  exact Nat.findGreatest_spec (P := fun m => Finset.Icc 1 m ⊆ arrived) (Nat.zero_le _) hzero

theorem contiguous_eq (hall : Finset.Icc 1 m ⊆ arrived) (hnext : m + 1 ∉ arrived) :
    contiguous arrived = m := by
  refine le_antisymm (not_lt.mp fun hlt => hnext ?_) (le_contiguous hall)
  exact Icc_contiguous_subset arrived (Finset.mem_Icc.mpr ⟨by omega, by omega⟩)

theorem contiguous_lt (hone : 1 ≤ sequence) (hnew : sequence ∉ arrived) :
    contiguous arrived < sequence := by
  by_contra hle
  exact hnew (Icc_contiguous_subset arrived (Finset.mem_Icc.mpr ⟨hone, by omega⟩))

/-- The bytes of the fragments that have arrived. -/
def weight (payloads : List (List UInt8)) (arrived : Finset ℕ) : ℕ :=
  ∑ sequence ∈ arrived, (payloads.getD (sequence - 1) []).length

theorem weight_Icc (payloads : List (List UInt8)) :
    weight payloads (Finset.Icc 1 payloads.length) = payloads.flatten.length := by
  induction payloads using List.reverseRecOn with
  | nil => rfl
  | append_singleton payloads payload ih =>
    rw [weight, List.length_append, List.length_singleton, Finset.sum_Icc_succ_top (by omega),
      List.flatten_append, List.length_append, ← ih]
    congr 1
    · refine Finset.sum_congr rfl fun sequence hsequence => ?_
      have hrange := Finset.mem_Icc.mp hsequence
      rw [List.getD_append _ _ _ _ (by omega)]
    · simp

theorem weight_le (h : arrived ⊆ Finset.Icc 1 payloads.length) :
    weight payloads arrived ≤ payloads.flatten.length := by
  rw [← weight_Icc]
  exact Finset.sum_le_sum_of_subset h

theorem weight_insert (hnew : sequence ∉ arrived) : weight payloads (insert sequence arrived) =
    weight payloads arrived + (payloads.getD (sequence - 1) []).length := by
  rw [weight, Finset.sum_insert hnew, Nat.add_comm, weight]

theorem card_lt (h : arrived ⊆ Finset.Icc 1 payloads.length) (hnew : sequence ∉ arrived)
    (hone : 1 ≤ sequence) (hle : sequence ≤ payloads.length) :
    arrived.card < payloads.length := by
  have hinsert := Finset.insert_subset (Finset.mem_Icc.mpr ⟨hone, hle⟩) h
  have hcard := Finset.card_le_card hinsert
  rw [Finset.card_insert_of_notMem hnew, Nat.card_Icc, Nat.add_sub_cancel] at hcard
  omega

theorem map_getD_range' (payloads : List (List UInt8)) :
    ((List.range' 1 payloads.length).map fun sequence => payloads.getD (sequence - 1) []) =
      payloads := by
  apply List.ext_getElem
  · simp
  · intro i h1 h2
    simp [h2]

end Arrived

/-! ## The assembly in between -/

/-- The assembly has exactly the fragments that have arrived. -/
structure Holding (gap : ℕ) (payloads : List (List UInt8)) (envelope : ℕ) (arrived : Finset ℕ)
    (a : Assembly) : Prop where
  fragments : ∀ sequence, a.fragments.get? sequence =
    if sequence ∈ arrived then some (payloads.getD (sequence - 1) []) else none
  final : a.finalSequence = if payloads.length ∈ arrived then some payloads.length else none
  contiguous : a.highestContiguous = contiguous arrived
  received : gap = 0 → a.highestReceived ≤ a.highestContiguous
  size : a.fragments.size = arrived.card
  bytes : a.bytes = envelope + weight payloads arrived

section Holding

variable {gap envelope sequence : ℕ} {key : FragmentKey K} {payloads : List (List UInt8)}
  {arrived : Finset ℕ} {a : Assembly} {now : Instant}

theorem holding_new (fragment : Socks5UdpFragment) :
    Holding gap payloads envelope ∅ (.new fragment envelope now) where
  fragments sequence := by simp [Assembly.new]
  final := by simp [Assembly.new]
  contiguous := (contiguous_eq (m := 0) (by simp) (by simp)).symm
  received _ := le_rfl
  size := rfl
  bytes := rfl

omit [DecidableEq K] in
theorem Holding.accept (h : Holding gap payloads envelope arrived a) (key : FragmentKey K)
    (hnew : sequence ∉ arrived) (hone : 1 ≤ sequence) (hle : sequence ≤ payloads.length)
    (hlimit : payloads.length ≤ 127) (hgap : sequence ≤ Socks5.contiguous arrived + gap + 1) :
    a.conflict gap (part key payloads sequence) = .accept := by
  have hbeyond := contiguous_lt hone hnew
  have hcontiguous := h.contiguous
  refine conflict_eq_accept.mpr ⟨fun hzero => ?_, ?_, fun last hlast => ?_, ?_⟩
  · have := h.received hzero
    simp only [part]
    omega
  · rw [h.fragments]
    exact if_neg hnew
  · rw [h.final] at hlast
    split at hlast
    · cases hlast
      exact ⟨hle, fun hflag => (of_decide_eq_true hflag).symm⟩
    · cases hlast
  · simp only [part, saturatingAddU8]
    omega

omit [DecidableEq K] in
theorem Holding.store (h : Holding gap payloads envelope arrived a) (key : FragmentKey K)
    (now : Instant) (hsub : arrived ⊆ Finset.Icc 1 payloads.length) (hnew : sequence ∉ arrived)
    (hone : 1 ≤ sequence) (hle : sequence ≤ payloads.length) (hlimit : payloads.length ≤ 127)
    (hgap : sequence ≤ Socks5.contiguous arrived + gap + 1)
    (hword : a.bytes + (payloads.getD (sequence - 1) []).length ≤ usizeMax) :
    Holding gap payloads envelope (insert sequence arrived)
      (a.store (part key payloads sequence) now) := by
  set b := a.store (part key payloads sequence) now
  have hget : ∀ s, b.fragments.get? s =
      if s ∈ insert sequence arrived then some (payloads.getD (s - 1) []) else none := by
    intro s
    have hinsert : b.fragments.get? s = if s = sequence then some (payloads.getD (sequence - 1) [])
        else a.fragments.get? s := get?_insert _ _ _ _
    rw [hinsert, h.fragments]
    by_cases hs : s = sequence <;> simp [hs]
  have hmem : ∀ s, s ∈ b.fragments ↔ s ∈ insert sequence arrived := by
    intro s
    rw [mem_iff, hget]
    split <;> simp [*]
  have hall := Finset.insert_subset (Finset.mem_Icc.mpr ⟨hone, hle⟩) hsub
  -- the loop ends where the contiguous fragments do
  have hcontiguous : b.highestContiguous = Socks5.contiguous (insert sequence arrived) := by
    have hold : a.highestContiguous ≤ payloads.length := by
      rw [h.contiguous]
      exact (contiguous_lt hone hnew).le.trans hle
    have hup : ∀ s, 1 ≤ s → s ≤ a.highestContiguous → s ∈ b.fragments := by
      intro s hs hsle
      rw [h.contiguous] at hsle
      exact (hmem s).mpr (Finset.mem_insert_of_mem
        (Icc_contiguous_subset arrived (Finset.mem_Icc.mpr ⟨hs, hsle⟩)))
    have hbound : ∀ s ∈ b.fragments, s ≤ payloads.length :=
      fun s hs => (Finset.mem_Icc.mp (hall ((hmem s).mp hs))).2
    refine (contiguous_eq (fun s hs => ?_) fun hs => ?_).symm
    · have hrange := Finset.mem_Icc.mp hs
      exact (hmem s).mp (mem_of_le_extendContiguous hup s hrange.1 hrange.2)
    · exact Assembly.notMem_extendContiguous hbound (by omega) hold (by omega) ((hmem _).mpr hs)
  have hbytes : b.bytes = a.bytes + (payloads.getD (sequence - 1) []).length :=
    saturatingAdd_of_le hword
  refine ⟨hget, ?_, hcontiguous, fun hzero => ?_, ?_, ?_⟩
  · have hfinal : b.finalSequence = if decide (sequence = payloads.length) = true then some sequence
        else a.finalSequence := rfl
    rw [hfinal, h.final]
    by_cases hs : sequence = payloads.length
    · simp [hs]
    · simp [hs, Ne.symm hs]
  · -- without reordering the fragment is the next one
    have hreceived : b.highestReceived = max a.highestReceived sequence := rfl
    have hnext : Finset.Icc 1 (Socks5.contiguous arrived + 1) ⊆ insert sequence arrived := by
      have hbeyond := contiguous_lt hone hnew
      intro s hs
      have hrange := Finset.mem_Icc.mp hs
      by_cases hlast : s = sequence
      · simp [hlast]
      · refine Finset.mem_insert_of_mem (Icc_contiguous_subset arrived ?_)
        exact Finset.mem_Icc.mpr ⟨hrange.1, by omega⟩
    have hle' := le_contiguous hnext
    have hold := h.received hzero
    rw [h.contiguous] at hold
    rw [hcontiguous, hreceived]
    omega
  · have hsize : b.fragments.size = a.fragments.size + 1 :=
      size_insert_new ((h.fragments sequence).trans (if_neg hnew)) _
    rw [hsize, h.size, Finset.card_insert_of_notMem hnew]
  · rw [hbytes, h.bytes, weight_insert hnew, Nat.add_assoc]

theorem Holding.complete_iff (h : Holding gap payloads envelope arrived a)
    (hsub : arrived ⊆ Finset.Icc 1 payloads.length) (hpos : 1 ≤ payloads.length) :
    a.complete = true ↔ arrived = Finset.Icc 1 payloads.length := by
  rw [Assembly.complete, h.final, h.contiguous]
  constructor
  · intro hcomplete
    split at hcomplete
    · have heq : Socks5.contiguous arrived = payloads.length := by simpa using hcomplete
      have hall := Icc_contiguous_subset arrived
      rw [heq] at hall
      exact hsub.antisymm hall
    · simp at hcomplete
  · rintro rfl
    rw [if_pos (Finset.mem_Icc.mpr ⟨hpos, le_rfl⟩), contiguous_eq Finset.Subset.rfl (by simp)]
    simp

theorem Holding.delivered {d : Socks5UdpDatagram} {target : Socks5UdpTarget} {port : UInt16}
    (h : Holding gap payloads envelope arrived a)
    (hfull : arrived = Finset.Icc 1 payloads.length) (hpos : 1 ≤ payloads.length)
    (hwhole : ∃ (last : ℕ) (pieces : List (List UInt8)), a.finalSequence = some last ∧
      (List.range' 1 last).map (a.fragments.get? ·) = pieces.map some ∧
      d = ⟨target, port, pieces.flatten⟩) : d = ⟨target, port, payloads.flatten⟩ := by
  subst hfull
  obtain ⟨last, pieces, hlast, hpieces, rfl⟩ := hwhole
  rw [h.final, if_pos (Finset.mem_Icc.mpr ⟨hpos, le_rfl⟩), Option.some.injEq] at hlast
  subst hlast
  have hsame : pieces.map some = payloads.map some := by
    rw [← hpieces]
    conv_rhs => rw [← map_getD_range' payloads, List.map_map]
    apply List.map_congr_left
    intro sequence hsequence
    have hrange := List.mem_range'_1.mp hsequence
    rw [h.fragments, if_pos (Finset.mem_Icc.mpr ⟨hrange.1, by omega⟩)]
    rfl
  rw [List.map_injective_iff.mpr (Option.some_injective _) hsame]

end Holding

section Step

variable {budget : Socks5FragmentGlobalBudget} {r r' : Socks5FragmentReassembler K}
  {key : FragmentKey K} {payloads : List (List UInt8)} {envelope sequence : ℕ}
  {arrived arrived' : Finset ℕ} {now : Instant} {others : Stream' (Counter → ℕ)} {a : Assembly}

/-- What there is room for: the other assemblies, and the datagram. -/
def allowance (r : Socks5FragmentReassembler K) (key : FragmentKey K)
    (payloads : List (List UInt8)) (envelope : ℕ) (c : Counter) : ℕ :=
  ({ r with assemblies := r.assemblies.erase key } : Socks5FragmentReassembler K).held c +
    tally 1 payloads.length (envelope + payloads.flatten.length) c

theorem Fits.allowance_le (h : Fits budget key payloads envelope r others) (c : Counter) :
    allowance r key payloads envelope c ≤ budget.limit c := by
  have := h.shared 0 c
  rw [allowance]
  omega

theorem push_part_there (hget : r.assemblies.get? key = some a)
    (hone : 1 ≤ sequence) (hmax : sequence ≤ r.config.maxFragmentsPerDatagram.toNat) :
    r.push key.session (part key payloads sequence) now =
      r.pushInto key.session key (part key payloads sequence) now false := by
  rw [push, if_neg (by simp only [part]; omega), if_neg (by simp only [part]; omega)]
  exact if_pos (mem_of_get? hget)

theorem push_granted_there (hr : InOrder r) (hfits : Fits budget key payloads envelope r others)
    (hget : r.assemblies.get? key = some a)
    (ha : Holding r.config.maxReorderGap.toNat payloads envelope arrived a)
    (hsub : arrived ⊆ Finset.Icc 1 payloads.length) (hnew : sequence ∉ arrived)
    (hone : 1 ≤ sequence) (hle : sequence ≤ payloads.length)
    (hmax : payloads.length ≤ r.config.maxFragmentsPerDatagram.toNat)
    (hlimit : r.config.maxFragmentsPerDatagram.toNat ≤ 127)
    (hgap : sequence ≤ contiguous arrived + r.config.maxReorderGap.toNat + 1) :
    Obtains (allowance r key payloads envelope) (fun result _ => ∃ outcome, result.1 = .ok outcome)
      (r.push key.session (part key payloads sequence) now) r.held := by
  have hcard := card_lt hsub hnew hone hle
  have hweight := weight_le (Finset.insert_subset (Finset.mem_Icc.mpr ⟨hone, hle⟩) hsub)
  rw [weight_insert hnew] at hweight
  have hsize := ha.size
  have hbytes := ha.bytes
  -- the assembly is a part of what its session and the reassembler hold
  have hshare1 := share_erase hget key.session (·.fragments.size)
  have hshare2 := share_erase hget key.session (·.bytes)
  have htotal1 := total_erase (·.fragments.size) hget
  have htotal2 := total_erase (·.bytes) hget
  rw [if_pos rfl] at hshare1 hshare2
  have hfragments := hfits.sessionFragments
  have hsession := hfits.sessionBytes
  have hdatagram := hfits.datagram
  simp only [usageOf] at hfragments hsession
  rw [push_part_there hget hone (hle.trans hmax)]
  refine pushInto_granted (limit_le_usizeMax budget) hfits.allowance_le hr hget
    (ha.accept key hnew hone hle (by omega) hgap) (by omega) ?_ ?_ ?_ ?_ ?_
  all_goals simp only [part, usageOf, allowance, held, tally_bufferedFragments, tally_bufferedBytes]
  all_goals omega

theorem push_granted_first (hr : InOrder r) (hfits : Fits budget key payloads envelope r others)
    (hget : r.assemblies.get? key = none)
    (henvelope : socks5UdpEnvelopeHeaderLen key.target = some envelope) (hpos : 1 ≤ payloads.length)
    (hmax : payloads.length ≤ r.config.maxFragmentsPerDatagram.toNat) :
    Obtains (allowance r key payloads envelope) (fun result _ => ∃ outcome, result.1 = .ok outcome)
      (r.push key.session (part key payloads 1) now) r.held := by
  have hfirst : (part key payloads 1).payload.length ≤ payloads.flatten.length := by
    have hweight := weight_le (Finset.singleton_subset_iff.mpr (Finset.mem_Icc.mpr ⟨le_rfl, hpos⟩))
    simpa [weight, part] using hweight
  have herase := erase_of_notMem (get?_eq_none.mp hget)
  have hdatagrams := hfits.sessionDatagrams
  have hfragments := hfits.sessionFragments
  have hsession := hfits.sessionBytes
  have hdatagram := hfits.datagram
  rw [herase] at hdatagrams hfragments hsession
  rw [push, if_neg (by simp [part]), if_neg (by simp only [part]; omega)]
  change Obtains _ _ (if key ∈ r.assemblies then r.pushInto key.session key _ now false else _) _
  rw [if_neg (get?_eq_none.mp hget), if_neg (by simp [part])]
  have htarget : socks5UdpEnvelopeHeaderLen (part key payloads 1).target = some envelope := henvelope
  simp only [htarget]
  have hheld : ∀ c, allowance r key payloads envelope c = r.held c +
      tally 1 payloads.length (envelope + payloads.flatten.length) c := by
    intro c
    rw [allowance, herase]
  refine ((reserveNewAssembly_granted hr (by omega) (by omega) (by omega) ?_ ?_).and
    hfits.allowance_le (reserveNewAssembly_ensures (limit_le_usizeMax budget) hr _ _)).bind ?_
  · rw [hheld, tally_inflightDatagrams]
  · rw [hheld, tally_bufferedBytes]
    omega
  rintro _ held ⟨⟨r', rfl⟩, hreserved⟩
  obtain ⟨rfl, -, hinflight, hbytes, rfl⟩ := hreserved
  have hnext := @InOrder.opened K _ r key hr envelope (part key payloads 1) now rfl rfl hget
    henvelope (by omega) hinflight hbytes
  have hsize := size_insert_new hget (.new (part key payloads 1) envelope now)
  have htotal1 := total_insert_new (·.fragments.size) hget (.new (part key payloads 1) envelope now)
  have htotal2 := total_insert_new (·.bytes) hget (.new (part key payloads 1) envelope now)
  have husage := @usageOf_insert_new K _ r.assemblies key (.new (part key payloads 1) envelope now)
    hget key.session
  rw [if_pos rfl] at husage
  have hnew : (Assembly.new (part key payloads 1) envelope now).fragments.size = 0 ∧
      (Assembly.new (part key payloads 1) envelope now).bytes = envelope := ⟨rfl, rfl⟩
  rw [hnew.1] at htotal1 husage
  rw [hnew.2] at htotal2 husage
  have hpush : Obtains (allowance r key payloads envelope)
      (fun result _ => ∃ outcome, result.1 = .ok outcome)
      (pushInto _ key.session key (part key payloads 1) now true) _ :=
    pushInto_granted (limit_le_usizeMax budget) hfits.allowance_le hnext
      (get?_insert_self _ _ _) (conflict_new rfl) ?_ ?_ ?_ ?_ ?_ ?_
  · rw [held_eq_tally] at hpush
    dsimp only at hpush
    rw [hsize, htotal1, htotal2] at hpush
    exact hpush
  all_goals simp only [husage, hheld, hnew, held, htotal1, htotal2,
    tally_bufferedFragments, tally_bufferedBytes]
  all_goals omega

omit [DecidableEq K] in
theorem Holding.duplicate {gap : ℕ} (h : Holding gap payloads envelope arrived a)
    (key : FragmentKey K) (hgap : 0 < gap) (hmem : sequence ∈ arrived)
    (hfinal : sequence ≠ payloads.length) :
    a.conflict gap (part key payloads sequence) = .duplicate := by
  have hstored : a.fragments.get? (part key payloads sequence).sequence =
      some (part key payloads sequence).payload := by
    rw [h.fragments]
    exact if_pos hmem
  have hlast : a.finalSequence ≠ some sequence := by
    rw [h.final]
    split
    · exact fun hsome => hfinal (Option.some.inj hsome).symm
    · simp
  rw [Assembly.conflict, if_neg (by omega), hstored]
  simp [part, hlast, hfinal]

theorem push_granted_again {held : Counter → ℕ} (hget : r.assemblies.get? key = some a)
    (hconflict : a.conflict r.config.maxReorderGap.toNat (part key payloads sequence) = .duplicate)
    (hone : 1 ≤ sequence) (hmax : sequence ≤ r.config.maxFragmentsPerDatagram.toNat) :
    Obtains room (fun result _ => ∃ outcome, result.1 = .ok outcome)
      (r.push key.session (part key payloads sequence) now) held := by
  rw [push_part_there hget hone hmax, pushInto]
  refine obtains_expect_bind.mpr ⟨a, hget, ?_⟩
  simp only [hconflict]
  exact ⟨_, rfl⟩

/-- What is there for the key, when some fragments have arrived. -/
structure Ready (key : FragmentKey K) (payloads : List (List UInt8)) (envelope : ℕ)
    (r : Socks5FragmentReassembler K) (arrived : Finset ℕ) : Prop where
  inOrder : InOrder r
  config : validateConfig r.config = .ok ()
  length_le : payloads.length ≤ r.config.maxFragmentsPerDatagram.toNat
  subset : arrived ⊆ Finset.Icc 1 payloads.length
  closed : arrived = ∅ ∨ arrived = Finset.Icc 1 payloads.length →
    r.assemblies.get? key = none
  holding : arrived ≠ ∅ → arrived ≠ Finset.Icc 1 payloads.length →
    ∃ a, r.assemblies.get? key = some a ∧
      Holding r.config.maxReorderGap.toNat payloads envelope arrived a

variable {e : Event K} {fragment : Socks5UdpFragment}

theorem outcome_of_obtains (hr : InOrder r)
    (hstep : (system K budget).CallStep r e r') (hcall : e.call = .push key.session fragment now)
    (hobtains : Obtains room (fun result _ => ∃ outcome, result.1 = .ok outcome)
      (r.push key.session fragment now) r.held)
    (hroom : ∀ k c, e.others.get k c + room c ≤ budget.limit c) :
    ∃ outcome, e.reply = .pushed (.ok outcome) ∧ InOrder r' ∧ r'.config = r.config ∧
      Outcome r ⟨key.session, fragment.target, fragment.port⟩ fragment now (.ok outcome)
        (r'.assemblies.get? ⟨key.session, fragment.target, fragment.port⟩) := by
  obtain ⟨result, hreply, hr', hconfig, -, houtcome⟩ := pushed_of_step hr hstep hcall
  obtain ⟨held, hexec⟩ := hstep
  have hperform : Obtains room (fun (result : Reply × Option _) _ =>
      ∃ outcome, result.1 = .pushed (.ok outcome)) (r.perform e.call) r.held := by
    rw [hcall]
    exact hobtains.bind fun result _ ⟨outcome, houtcome⟩ => ⟨outcome, congrArg _ houtcome⟩
  obtain ⟨outcome, hok⟩ := hperform.exec hroom hexec
  obtain rfl := Reply.pushed.inj (hreply.symm.trans hok)
  exact ⟨outcome, hok, hr', hconfig, houtcome⟩

theorem eq_of_finds {b : Assembly}
    (hget : r.assemblies.get? key = some a) (h : Finds r key fragment now b) : b = a := by
  obtain hget' | ⟨hnone, -⟩ := h
  · exact Option.some.inj (hget'.symm.trans hget)
  · rw [hget] at hnone
    cases hnone

variable (h : Ready key payloads envelope r arrived)
include h

section

variable (henvelope : socks5UdpEnvelopeHeaderLen key.target = some envelope)
include henvelope

theorem Ready.found (hopen : arrived ≠ Finset.Icc 1 payloads.length) (fragment : Socks5UdpFragment)
    (htarget : fragment.target = key.target) (now : Instant) :
    ∃ a, Holding r.config.maxReorderGap.toNat payloads envelope arrived a ∧
      ∀ b, Finds r key fragment now b → b = a := by
  by_cases hempty : arrived = ∅
  · subst hempty
    refine ⟨.new fragment envelope now, holding_new fragment, ?_⟩
    rintro b (hget | ⟨-, -, envelope', henvelope', rfl⟩)
    · rw [h.closed (.inl rfl)] at hget
      cases hget
    · rw [htarget, henvelope] at henvelope'
      rw [Option.some.inj henvelope']
  · obtain ⟨a, hget, ha⟩ := h.holding hempty hopen
    exact ⟨a, ha, fun b => eq_of_finds hget⟩

/-- **A fragment arrives.** It is stored, or completes the datagram. -/
theorem Ready.fresh (hfits : Fits budget key payloads envelope r e.others)
    (hstep : (system K budget).CallStep r e r')
    (hcall : e.call = .push key.session (part key payloads sequence) now)
    (hnew : sequence ∉ arrived) (hone : 1 ≤ sequence) (hle : sequence ≤ payloads.length)
    (hstart : arrived = ∅ → sequence = 1)
    (hgap : sequence ≤ contiguous arrived + r.config.maxReorderGap.toNat + 1) :
    Ready key payloads envelope r' (insert sequence arrived) ∧
      e.reply = .pushed (.ok (if insert sequence arrived = Finset.Icc 1 payloads.length then
        .complete ⟨key.target, key.port, payloads.flatten⟩ true else .pending)) := by
  have hlimit := (maxFragments_of_validateConfig h.config).2
  have hmax := h.length_le
  have hopen : arrived ≠ Finset.Icc 1 payloads.length := by
    rintro rfl
    exact hnew (Finset.mem_Icc.mpr ⟨hone, hle⟩)
  have hinsert := Finset.insert_subset (Finset.mem_Icc.mpr ⟨hone, hle⟩) h.subset
  obtain ⟨a, ha, hunique⟩ := h.found henvelope hopen (part key payloads sequence) rfl now
  have haccept := ha.accept key hnew hone hle (by omega) hgap
  -- nothing is refused
  have hobtains : Obtains (allowance r key payloads envelope)
      (fun result _ => ∃ outcome, result.1 = .ok outcome)
      (r.push key.session (part key payloads sequence) now) r.held := by
    by_cases hempty : arrived = ∅
    · rw [hstart hempty]
      exact push_granted_first h.inOrder hfits (h.closed (.inl hempty)) henvelope (by omega) hmax
    · obtain ⟨b, hget, hb⟩ := h.holding hempty hopen
      exact push_granted_there h.inOrder hfits hget hb h.subset hnew hone hle hmax hlimit hgap
  obtain ⟨outcome, hreply, hr', hconfig, houtcome⟩ :=
    outcome_of_obtains h.inOrder hstep hcall hobtains hfits.shared
  -- the assembly with the fragment
  have hweight := weight_le hinsert
  rw [weight_insert hnew] at hweight
  have hbytes := ha.bytes
  have hdatagram := hfits.datagram
  have hword := maxBytes_of_validateConfig h.config
  have hstored := ha.store key now h.subset hnew hone hle (by omega) hgap
    (by have : Udp.maxUdpDatagramBytes ≤ usizeMax := by decide
        omega)
  have hcomplete := hstored.complete_iff hinsert (by omega)
  have hready : ∀ {x : Option Assembly}, r'.assemblies.get? key = x →
      (insert sequence arrived = Finset.Icc 1 payloads.length → x = none) →
      (insert sequence arrived ≠ Finset.Icc 1 payloads.length →
        x = some (a.store (part key payloads sequence) now)) →
      Ready key payloads envelope r' (insert sequence arrived) := by
    intro x hget hclosed hholding
    refine ⟨hr', hconfig ▸ h.config, hconfig ▸ hmax, hinsert, ?_, fun _ hne => ?_⟩
    · rintro (hnone | hfull)
      · exact absurd hnone (Finset.insert_ne_empty _ _)
      · rw [hget, hclosed hfull]
    · rw [hconfig]
      exact ⟨_, hget.trans (hholding hne), hstored⟩
  generalize hafter : r'.assemblies.get?
    ⟨key.session, (part key payloads sequence).target, (part key payloads sequence).port⟩ = after
    at houtcome
  rw [hreply]
  cases houtcome with
  | datagram hzero => exact absurd hzero (by simp only [part]; omega)
  | @duplicate b hfinds hconflict =>
    rw [hunique b hfinds, haccept] at hconflict
    cases hconflict
  | @pending b hfinds _ hunfinished =>
    obtain rfl := hunique b hfinds
    have hne : insert sequence arrived ≠ Finset.Icc 1 payloads.length := fun hfull => by
      rw [hcomplete.mpr hfull] at hunfinished
      cases hunfinished
    rw [if_neg hne]
    exact ⟨hready hafter (fun hfull => absurd hfull hne) fun _ => rfl, rfl⟩
  | @complete b d hdelivers =>
    obtain rfl := hunique b hdelivers.finds
    have hfull := hcomplete.mp hdelivers.complete
    rw [if_pos hfull]
    refine ⟨hready hafter (fun _ => rfl) fun hne => absurd hfull hne, ?_⟩
    obtain ⟨htarget, hport, -⟩ := weight_of_finds h.inOrder hdelivers.finds
    rw [hstored.delivered hfull (by omega) hdelivers.whole, htarget, hport]
    rfl

end

theorem Ready.again (hfits : Fits budget key payloads envelope r e.others)
    (hstep : (system K budget).CallStep r e r')
    (hcall : e.call = .push key.session (part key payloads sequence) now)
    (hgap : 0 < r.config.maxReorderGap.toNat) (hmem : sequence ∈ arrived)
    (hfinal : sequence ≠ payloads.length) (hopen : arrived ≠ Finset.Icc 1 payloads.length) :
    Ready key payloads envelope r' arrived ∧ e.reply = .pushed (.ok .duplicate) := by
  have hempty : arrived ≠ ∅ := Finset.ne_empty_of_mem hmem
  have hrange := Finset.mem_Icc.mp (h.subset hmem)
  have hmax := h.length_le
  obtain ⟨a, hget, ha⟩ := h.holding hempty hopen
  have hconflict := ha.duplicate key hgap hmem hfinal
  obtain ⟨outcome, hreply, hr', hconfig, houtcome⟩ := outcome_of_obtains h.inOrder hstep hcall
    (push_granted_again hget hconflict hrange.1 (by omega)) hfits.shared
  generalize hafter : r'.assemblies.get?
    ⟨key.session, (part key payloads sequence).target, (part key payloads sequence).port⟩ = after
    at houtcome
  rw [hreply]
  cases houtcome with
  | datagram hzero => exact absurd hzero (by simp only [part]; omega)
  | @duplicate b hfinds _ =>
    obtain rfl := eq_of_finds hget hfinds
    refine ⟨⟨hr', hconfig ▸ h.config, hconfig ▸ hmax, h.subset, ?_, fun _ _ => ?_⟩, rfl⟩
    · rintro (hnone | hfull)
      · exact absurd hnone hempty
      · exact absurd hfull hopen
    · rw [hconfig]
      exact ⟨b, hafter, ha⟩
  | @pending b hfinds haccept _ =>
    rw [eq_of_finds hget hfinds, hconflict] at haccept
    cases haccept
  | @complete b d hdelivers =>
    have haccept := hdelivers.accept
    rw [eq_of_finds hget hdelivers.finds, hconflict] at haccept
    cases haccept

theorem Ready.other {session : K} (hstep : (system K budget).CallStep r e r')
    (hcall : e.call = .push session fragment now)
    (hkey : (⟨session, fragment.target, fragment.port⟩ : FragmentKey K) ≠ key) :
    Ready key payloads envelope r' arrived := by
  obtain ⟨result, -, hr', hconfig, hpushed, -⟩ := pushed_of_step h.inOrder hstep hcall
  have hget : r'.assemblies.get? key = r.assemblies.get? key := by
    cases hpushed with
    | kept _ hsame => exact hsame key
    | removed _ hsame => rw [hsame, if_neg (Ne.symm hkey)]
    | stored _ _ _ _ _ hsame => rw [hsame, if_neg (Ne.symm hkey)]
  refine ⟨hr', hconfig ▸ h.config, hconfig ▸ h.length_le, h.subset, ?_, ?_⟩
  · rw [hget]
    exact h.closed
  · rw [hget, hconfig]
    exact h.holding

/-- What a step is for the key. -/
inductive Progress (key : FragmentKey K) (payloads : List (List UInt8)) (arrived : Finset ℕ)
    (e : Event K) : Finset ℕ → Prop
  /-- The step is not for the key. -/
  | away (hnot : ¬ ∃ fragment, Pushes key fragment e) : Progress key payloads arrived e arrived
  /-- Fragments are missing before and after the step. -/
  | missing {arrived' : Finset ℕ} (hbefore : arrived ≠ Finset.Icc 1 payloads.length)
      (hafter : arrived' ≠ Finset.Icc 1 payloads.length)
      (hreply : e.reply = .pushed (.ok .pending) ∨ e.reply = .pushed (.ok .duplicate)) :
      Progress key payloads arrived e arrived'
  /-- The step fills the last gap. -/
  | filled {sequence : ℕ} (hpushes : Pushes key (part key payloads sequence) e)
      (hnew : sequence ∉ arrived) (hfull : insert sequence arrived = Finset.Icc 1 payloads.length)
      (hreply : e.reply =
        .pushed (.ok (.complete ⟨key.target, key.port, payloads.flatten⟩ true))) :
      Progress key payloads arrived e (Finset.Icc 1 payloads.length)

/-- **One step.** -/
theorem Ready.step (henvelope : socks5UdpEnvelopeHeaderLen key.target = some envelope)
    (hstep : ArrivalStep budget key payloads envelope (r, arrived) e (r', arrived')) :
    Ready key payloads envelope r' arrived' ∧ Progress key payloads arrived e arrived' := by
  obtain ⟨hcallStep, harrives, hfits⟩ := hstep
  dsimp only at hcallStep harrives hfits
  generalize hcall : e.call = call at harrives
  cases harrives with
  | @fresh sequence now hnew hone hle hstart hgap =>
    have hpushes : Pushes key (part key payloads sequence) e := ⟨rfl, rfl, now, hcall⟩
    obtain ⟨hready, hreply⟩ := h.fresh henvelope (hfits ⟨_, hpushes⟩) hcallStep hcall hnew hone hle
      hstart hgap
    refine ⟨hready, ?_⟩
    by_cases hfull : insert sequence arrived = Finset.Icc 1 payloads.length
    · rw [if_pos hfull] at hreply
      rw [hfull]
      exact .filled hpushes hnew hfull hreply
    · rw [if_neg hfull] at hreply
      refine .missing ?_ hfull (.inl hreply)
      rintro rfl
      exact hnew (Finset.mem_Icc.mpr ⟨hone, hle⟩)
  | @again sequence now hgap hmem hfinal hopen =>
    have hpushes : Pushes key (part key payloads sequence) e := ⟨rfl, rfl, now, hcall⟩
    obtain ⟨hready, hreply⟩ := h.again (hfits ⟨_, hpushes⟩) hcallStep hcall hgap hmem hfinal hopen
    exact ⟨hready, .missing hopen hopen (.inr hreply)⟩
  | @other session fragment now hkey =>
    refine ⟨h.other hcallStep hcall hkey, .away ?_⟩
    rintro ⟨fragment', htarget, hport, now', hcall'⟩
    obtain ⟨rfl, rfl, -⟩ := Call.push.inj (hcall.symm.trans hcall')
    exact hkey (by rw [htarget, hport])

end Step

section Runs

variable {budget : Socks5FragmentGlobalBudget} {key : FragmentKey K}
  {payloads : List (List UInt8)} {envelope : ℕ} {es : List (Event K)}
  {r r' : Socks5FragmentReassembler K} {arrived : Finset ℕ}

theorem away_of_run (henvelope : socks5UdpEnvelopeHeaderLen key.target = some envelope)
    {x y : Socks5FragmentReassembler K × Finset ℕ}
    (hrun : Run (ArrivalStep budget key payloads envelope) x es y)
    (h : Ready key payloads envelope x.1 x.2) (hfull : x.2 = Finset.Icc 1 payloads.length) :
    ∀ e ∈ es, ¬ ∃ fragment, Pushes key fragment e := by
  induction hrun with
  | nil => simp
  | @cons x x1 y e es hstep _ ih =>
    obtain ⟨hready, hprogress⟩ := h.step henvelope hstep
    generalize hx1 : x1.2 = arrived' at hprogress
    cases hprogress with
    | away hnot =>
      intro e' he'
      rcases List.mem_cons.mp he' with rfl | he'
      · exact hnot
      · exact ih hready (hx1.trans hfull) e' he'
    | missing hbefore _ _ => exact absurd hfull hbefore
    | @filled sequence _ hnew hlast _ =>
      rw [hfull, ← hlast] at hnew
      exact absurd (Finset.mem_insert_self _ _) hnew

/-- The push that fills the last gap returns the datagram, with the payloads in their order; every
other push for its key returns that fragments are missing, or that the fragment is there. -/
def DeliveredOnce (budget : Socks5FragmentGlobalBudget) (key : FragmentKey K)
    (payloads : List (List UInt8)) (envelope : ℕ) (x : Socks5FragmentReassembler K × Finset ℕ)
    (es : List (Event K)) : Prop :=
  ∃ before e after r1 arrived sequence, es = before ++ e :: after ∧
    Run (ArrivalStep budget key payloads envelope) x before (r1, arrived) ∧
    Pushes key (part key payloads sequence) e ∧ sequence ∉ arrived ∧
    insert sequence arrived = Finset.Icc 1 payloads.length ∧
    e.reply = .pushed (.ok (.complete ⟨key.target, key.port, payloads.flatten⟩ true)) ∧
    ∀ e' ∈ before ++ after, (∃ fragment, Pushes key fragment e') →
      e'.reply = .pushed (.ok .pending) ∨ e'.reply = .pushed (.ok .duplicate)

theorem DeliveredOnce.cons {x x1 : Socks5FragmentReassembler K × Finset ℕ} {e : Event K}
    (h : DeliveredOnce budget key payloads envelope x1 es)
    (hstep : ArrivalStep budget key payloads envelope x e x1)
    (hquiet : (∃ fragment, Pushes key fragment e) →
      e.reply = .pushed (.ok .pending) ∨ e.reply = .pushed (.ok .duplicate)) :
    DeliveredOnce budget key payloads envelope x (e :: es) := by
  obtain ⟨before, e1, after, r1, arrived, sequence, rfl, hbefore, hpushes, hnew, hlast, hreply,
    hothers⟩ := h
  refine ⟨e :: before, e1, after, r1, arrived, sequence, rfl, .cons hstep hbefore, hpushes, hnew,
    hlast, hreply, fun e' he' => ?_⟩
  rcases List.mem_cons.mp he' with rfl | he'
  · exact hquiet
  · exact hothers e' he'

theorem deliveredOnce_of_run (henvelope : socks5UdpEnvelopeHeaderLen key.target = some envelope)
    {x y : Socks5FragmentReassembler K × Finset ℕ}
    (hrun : Run (ArrivalStep budget key payloads envelope) x es y)
    (h : Ready key payloads envelope x.1 x.2) (hopen : x.2 ≠ Finset.Icc 1 payloads.length)
    (hfull : y.2 = Finset.Icc 1 payloads.length) :
    DeliveredOnce budget key payloads envelope x es := by
  induction hrun with
  | nil => exact absurd hfull hopen
  | @cons x x1 y e es hstep hrest ih =>
    obtain ⟨hready, hprogress⟩ := h.step henvelope hstep
    generalize hx1 : x1.2 = arrived' at hprogress
    cases hprogress with
    | away hnot =>
      exact (ih hready (hx1 ▸ hopen) hfull).cons hstep fun hpushes => absurd hpushes hnot
    | missing _ hafter hreply =>
      exact (ih hready (hx1 ▸ hafter) hfull).cons hstep fun _ => hreply
    | @filled sequence hpushes hnew hlast hreply =>
      refine ⟨[], e, es, x.1, x.2, sequence, rfl, .nil x, hpushes, hnew, hlast, hreply, ?_⟩
      intro e' he' hpushes'
      exact absurd hpushes' (away_of_run henvelope hrest hready hx1 e' he')

/-- **Reassembly is correct.** The fragments of a datagram, pushed in an order within the reorder
gap, among pushes for other keys and repeated ones, with room in all budgets, give the datagram once,
when the last gap is filled; and every datagram that is put together has the bytes of one fragment
for each sequence number, all pushed since its assembly was opened. -/
theorem reassembles_of_run {config : Socks5FragmentConfig} {r0 : Socks5FragmentReassembler K}
    (hcreate : (system K budget).create config = some r0) {past : List (Event K)}
    (hpast : Run (system K budget).CallStep r0 past r) :
    (∀ (key : FragmentKey K) (payloads : List (List UInt8)) (envelope : ℕ) (es : List (Event K))
      (r' : Socks5FragmentReassembler K), 1 ≤ payloads.length →
      payloads.length ≤ config.maxFragmentsPerDatagram.toNat →
      socks5UdpEnvelopeHeaderLen key.target = some envelope → r.assemblies.get? key = none →
      Run (ArrivalStep budget key payloads envelope) (r, ∅) es (r', Finset.Icc 1 payloads.length) →
      DeliveredOnce budget key payloads envelope (r, ∅) es) ∧
    ∀ (e : Event K) (r' : Socks5FragmentReassembler K) (session : K)
      (fragment : Socks5UdpFragment) (now : Instant) (d : Socks5UdpDatagram),
      (system K budget).CallStep r e r' → e.call = .push session fragment now →
      e.reply = .pushed (.ok (.complete d true)) → Received budget r0 past r session fragment e d := by
  obtain ⟨hvalid, rfl⟩ := create_eq_some hcreate
  obtain ⟨hr, hconfig, -⟩ := collected_of_run (inOrder_new config) rfl hpast
  constructor
  · intro key payloads envelope es r' hpos hmax henvelope hnone hrun
    refine deliveredOnce_of_run henvelope hrun ⟨hr, hconfig ▸ hvalid, hconfig ▸ hmax,
      Finset.empty_subset _, fun _ => hnone, fun hne => absurd rfl hne⟩ ?_ rfl
    intro hempty
    have hmem := Finset.mem_Icc.mpr ⟨le_rfl, hpos⟩
    rw [← hempty] at hmem
    cases hmem
  · intro e r' session fragment now d hstep hcall hreply
    obtain ⟨held, hexec⟩ := hstep
    obtain ⟨session', fragment', now', r'', hcall', -, hyields⟩ := push_of_pushed (hreply ▸ hexec)
    obtain ⟨rfl, rfl, rfl⟩ := Call.push.inj (hcall.symm.trans hcall')
    exact received_of_complete (inOrder_new config) rfl hpast hcall hyields

end Runs

namespace Sample

/-- The fragments of a datagram for the loopback target, pushed while nobody else holds anything. -/
def arrival (payloads : List (List UInt8)) (sequence : ℕ) (reply : Reply) : Event ℕ :=
  ⟨.push 7 (part key payloads sequence) 0, Stream'.const fun _ => 0, reply⟩

/-- Push fragments one after the other, as long as each is within the gap and there is room. -/
def feed (payloads : List (List UInt8)) (r : Socks5FragmentReassembler ℕ) (arrived : Finset ℕ) :
    List ℕ → Option (List (Event ℕ) × Socks5FragmentReassembler ℕ × Finset ℕ)
  | [] => some ([], r, arrived)
  | sequence :: rest =>
    match exec (Socks5FragmentGlobalBudget.fromConfig {}).limit
        (r.perform (.push 7 (part key payloads sequence) 0)) (Stream'.const fun _ => 0) r.held with
    | some ((reply, some r'), _) =>
      if (sequence ∉ arrived ∧ 1 ≤ sequence ∧ sequence ≤ payloads.length ∧
          (arrived = ∅ → sequence = 1) ∧
          sequence ≤ contiguous arrived + r.config.maxReorderGap.toNat + 1) ∧
          (10 + payloads.flatten.length ≤ r.config.maxBytesPerDatagram.toNat ∧
          (usageOf (r.assemblies.erase key) 7).datagrams + 1
            ≤ r.config.maxInflightPerSession.toNat ∧
          (usageOf (r.assemblies.erase key) 7).fragments + payloads.length
            ≤ r.config.maxFragmentsPerSession.toNat ∧
          (usageOf (r.assemblies.erase key) 7).bytes + (10 + payloads.flatten.length)
            ≤ r.config.maxBytesPerSession.toNat ∧
          ∀ c ∈ [Counter.inflightDatagrams, .bufferedFragments, .bufferedBytes],
            allowance r key payloads 10 c
              ≤ (Socks5FragmentGlobalBudget.fromConfig {}).limit c) then
        (feed payloads r' (insert sequence arrived) rest).map fun x =>
          (arrival payloads sequence reply :: x.1, x.2)
      else none
    | _ => none

theorem run_of_feed {payloads : List (List UInt8)} {order : List ℕ}
    {r r' : Socks5FragmentReassembler ℕ} {arrived arrived' : Finset ℕ} {es : List (Event ℕ)}
    (h : feed payloads r arrived order = some (es, r', arrived')) :
    Run (ArrivalStep (.fromConfig {}) key payloads 10) (r, arrived) es (r', arrived') := by
  induction order generalizing r arrived es with
  | nil =>
    obtain ⟨rfl, hpair⟩ := Prod.mk.inj (Option.some.inj h)
    cases hpair
    exact .nil _
  | cons sequence rest ih =>
    rw [feed] at h
    split at h
    · rename_i reply r1 held hexec
      split_ifs at h with hconditions
      obtain ⟨⟨hnew, hone, hle, hstart, hgap⟩, hdatagram, hdatagrams, hfragments, hbytes, hshared⟩ :=
        hconditions
      obtain ⟨⟨es', r'', arrived''⟩, hrest, heq⟩ := Option.map_eq_some_iff.mp h
      obtain ⟨rfl, hpair⟩ := Prod.mk.inj heq
      cases hpair
      have hfits : Fits (.fromConfig {}) key payloads 10 r (arrival payloads sequence reply).others →
          ArrivalStep (.fromConfig {}) key payloads 10 (r, arrived)
            (arrival payloads sequence reply) (r1, insert sequence arrived) :=
        fun hfits => ⟨⟨held, hexec⟩, .fresh hnew hone hle hstart hgap, fun _ => hfits⟩
      refine .cons (hfits ⟨hdatagram, hdatagrams, hfragments, hbytes, fun k c => ?_⟩) (ih hrest)
      have hroom : allowance r key payloads 10 c
          ≤ (Socks5FragmentGlobalBudget.fromConfig {}).limit c := by
        apply hshared
        cases c <;> simp
      have hnobody : (arrival payloads sequence reply).others.get k c = 0 := rfl
      rw [hnobody, Nat.zero_add]
      exact hroom
    · cases h

end Sample

/-- Three fragments arrive, the second one last. -/
theorem reassembles_of_run_reordered :
    ∃ r es, DeliveredOnce (.fromConfig {}) Sample.key [[1], [2, 3], [4]] 10 (r, ∅) es := by
  have h : ∃ r ∈ (system ℕ (.fromConfig {})).create Sample.reordering,
      ∃ x ∈ Sample.feed [[1], [2, 3], [4]] r ∅ [1, 3, 2], x.2.2 = Finset.Icc 1 3 := by
    decide +kernel
  obtain ⟨r, hcreate, ⟨es, r', arrived⟩, hfeed, rfl⟩ := h
  obtain ⟨-, rfl⟩ := create_eq_some hcreate
  exact ⟨_, es, (reassembles_of_run hcreate (.nil _)).1 Sample.key [[1], [2, 3], [4]] 10 es r'
    (by decide) (by decide) rfl rfl (Sample.run_of_feed hfeed)⟩

end LinkLake.Socks5
