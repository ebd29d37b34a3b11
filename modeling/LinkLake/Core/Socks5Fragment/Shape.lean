import LinkLake.Core.Socks5Fragment.Calls

/-!
# The shape of a stored assembly

An assembly that is stored should be one that waits for fragments: it knows how far its fragments
are contiguous and which is the highest, and some further fragments complete it (`Incomplete`).

The checks of a push do not see to that. They compare a fragment with the final one, if that is
known, but not a final fragment with the ones that came before it: the final fragment 2 is accepted
after fragment 3, and then nothing completes the assembly. So does a fragment with the highest
sequence number that the configuration allows, if it is not the final one. Without such fragments
(`wellSequenced`) every stored assembly is incomplete in every run (`incomplete_of_run`).
-/

namespace LinkLake.Socks5

open BudgetProg FiniteMap
open Udp (Instant usizeMax)

variable {K : Type} [DecidableEq K] {r : Socks5FragmentReassembler K} {a : Assembly}
  {config : Socks5FragmentConfig}

/-! ## Incomplete assemblies -/

namespace Assembly

/-- Further fragments, each accepted within the limits of one datagram, complete an assembly. -/
inductive Completable (config : Socks5FragmentConfig) : Assembly → Prop
  | complete {a : Assembly} (h : a.complete = true) : Completable config a
  | push {a : Assembly} (fragment : Socks5UdpFragment) (now : Instant)
      (htarget : fragment.target = a.target) (hport : fragment.port = a.port)
      (hone : 1 ≤ fragment.sequence)
      (hmax : fragment.sequence ≤ config.maxFragmentsPerDatagram.toNat)
      (haccept : a.conflict config.maxReorderGap.toNat fragment = .accept)
      (hsize : a.fragments.size < config.maxFragmentsPerDatagram.toNat)
      (hbytes : a.bytes + fragment.payload.length ≤ config.maxBytesPerDatagram.toNat)
      (hnext : Completable config (a.store fragment now)) : Completable config a

/-- What a stored assembly should be. -/
structure Incomplete (config : Socks5FragmentConfig) (a : Assembly) : Prop where
  /-- Nothing is stored beyond the final fragment, and something before it is missing. -/
  final : ∀ last, a.finalSequence = some last →
    (∀ sequence ∈ a.fragments, sequence ≤ last) ∧ a.highestContiguous < last
  /-- The contiguous fragments are the longest stored run from 1 on. -/
  contiguous : (∀ sequence, 1 ≤ sequence → sequence ≤ a.highestContiguous →
    sequence ∈ a.fragments) ∧ a.highestContiguous + 1 ∉ a.fragments
  /-- The highest received fragment is the highest stored one. -/
  received : a.highestReceived ∈ a.fragments ∧ ∀ sequence ∈ a.fragments,
    sequence ≤ a.highestReceived
  completable : a.Completable config

/-! ## What the checks maintain -/

/-- The fields of an assembly that has at most fragments 1 to `max` fit together. -/
structure Consistent (config : Socks5FragmentConfig) (a : Assembly) : Prop where
  stored : ∀ sequence ∈ a.fragments, 1 ≤ sequence ∧ sequence ≤ a.highestReceived
  received : a.highestReceived ∈ a.fragments ∨ a.highestReceived = 0
  receivedLimit : a.highestReceived ≤ config.maxFragmentsPerDatagram.toNat
  contiguous : ∀ sequence, 1 ≤ sequence → sequence ≤ a.highestContiguous → sequence ∈ a.fragments
  missing : a.highestContiguous + 1 ∉ a.fragments
  final : ∀ last, a.finalSequence = some last →
    last ∈ a.fragments ∧ a.highestReceived = last ∧ a.highestContiguous < last
  waiting : a.finalSequence = none → a.highestReceived < config.maxFragmentsPerDatagram.toNat
  inSequence : config.maxReorderGap = 0 → a.highestReceived = a.highestContiguous

variable {fragments : FiniteMap ℕ (List UInt8)}

theorem le_extendContiguous {fuel highest : ℕ}
    (h : highest ≤ 255) : highest ≤ extendContiguous fragments fuel highest := by
  induction fuel generalizing highest with
  | zero => exact le_rfl
  | succ fuel ih =>
    rw [extendContiguous]
    split
    · have hnext : saturatingAddU8 highest 1 ≤ _ := ih (by simp [saturatingAddU8])
      simp only [saturatingAddU8] at hnext ⊢
      omega
    · exact le_rfl

theorem notMem_extendContiguous {bound fuel highest : ℕ}
    (hbound : ∀ sequence ∈ fragments, sequence ≤ bound) (hword : bound < 255)
    (hhighest : highest ≤ bound) (hfuel : bound < highest + fuel) :
    extendContiguous fragments fuel highest + 1 ∉ fragments := by
  have hadd : saturatingAddU8 highest 1 = highest + 1 := by
    simp only [saturatingAddU8]
    omega
  induction fuel generalizing highest with
  | zero => omega
  | succ fuel ih =>
    rw [extendContiguous, hadd]
    split
    · rename_i hnext
      have hle := hbound _ hnext
      refine ih hle (by omega) ?_
      simp only [saturatingAddU8]
      omega
    · assumption

section Store

variable {fragment : Socks5UdpFragment} {now : Instant}

theorem mem_store {sequence : ℕ} : sequence ∈ (a.store fragment now).fragments ↔
    sequence = fragment.sequence ∨ sequence ∈ a.fragments := by
  rw [show (a.store fragment now).fragments =
    a.fragments.insert fragment.sequence fragment.payload from rfl, mem_insert]

section

variable (h : a.Consistent config)
include h

theorem Consistent.highestContiguous_le : a.highestContiguous ≤ a.highestReceived := by
  by_cases hzero : a.highestContiguous = 0
  · omega
  · exact (h.stored _ (h.contiguous _ (by omega) le_rfl)).2

section

variable (hconfig : config.maxFragmentsPerDatagram.toNat ≤ 127)
include hconfig

theorem Consistent.contiguous_store
    (hmax : fragment.sequence ≤ config.maxFragmentsPerDatagram.toNat) (now : Instant) :
    a.highestContiguous ≤ (a.store fragment now).highestContiguous ∧
      (∀ sequence, 1 ≤ sequence → sequence ≤ (a.store fragment now).highestContiguous →
        sequence ∈ (a.store fragment now).fragments) ∧
      (a.store fragment now).highestContiguous + 1 ∉ (a.store fragment now).fragments := by
  have hcontiguous := h.highestContiguous_le
  have hlimit := h.receivedLimit
  have hbound : ∀ sequence ∈ (a.store fragment now).fragments, sequence ≤ 127 := by
    intro sequence hsequence
    obtain rfl | hold := mem_store.mp hsequence
    · omega
    · exact ((h.stored sequence hold).2.trans hlimit).trans hconfig
  refine ⟨le_extendContiguous (by omega), mem_of_le_extendContiguous fun sequence hone hle => ?_,
    notMem_extendContiguous hbound (by omega) (by omega) (by omega)⟩
  exact mem_insert.mpr (.inr (h.contiguous sequence hone hle))

/-- **One more fragment.** An accepted fragment that neither ends the datagram before a stored
fragment nor leaves no room for its end keeps the fields together, if it does not complete the
assembly. -/
theorem Consistent.store (hone : 1 ≤ fragment.sequence)
    (hmax : fragment.sequence ≤ config.maxFragmentsPerDatagram.toNat)
    (haccept : a.conflict config.maxReorderGap.toNat fragment = .accept)
    (hfinal : fragment.finalFragment = true → a.highestReceived ≤ fragment.sequence)
    (hroom : fragment.finalFragment = false →
      fragment.sequence < config.maxFragmentsPerDatagram.toNat)
    (hopen : (a.store fragment now).complete = false) :
    (a.store fragment now).Consistent config := by
  obtain ⟨horder, hnew, hlast, hgap⟩ := conflict_eq_accept.mp haccept
  obtain ⟨hle, hcontiguous, hmissing⟩ := h.contiguous_store hconfig hmax now
  have hnotMem := get?_eq_none.mp hnew
  have hreceived : (a.store fragment now).highestReceived =
      max a.highestReceived fragment.sequence := rfl
  have hstored : ∀ sequence ∈ (a.store fragment now).fragments,
      1 ≤ sequence ∧ sequence ≤ (a.store fragment now).highestReceived := by
    intro sequence hsequence
    rw [hreceived]
    obtain rfl | hold := mem_store.mp hsequence
    · omega
    · have := h.stored sequence hold
      omega
  have hbelow : (a.store fragment now).highestContiguous ≤
      (a.store fragment now).highestReceived := by
    by_cases hzero : (a.store fragment now).highestContiguous = 0
    · omega
    · exact (hstored _ (hcontiguous _ (by omega) le_rfl)).2
  have hne : ∀ last, (a.store fragment now).finalSequence = some last →
      (a.store fragment now).highestContiguous ≠ last := by
    intro last hsome heq
    rw [complete, hsome] at hopen
    simp [heq] at hopen
  have hfinalSequence : (a.store fragment now).finalSequence =
      if fragment.finalFragment then some fragment.sequence else a.finalSequence := rfl
  refine {
    stored := hstored
    received := .inl ?_
    receivedLimit := ?_
    contiguous := hcontiguous
    missing := hmissing
    final := fun last hsome => ?_
    waiting := fun hnone => ?_
    inSequence := fun hzero => ?_ }
  · rw [hreceived]
    rcases le_total a.highestReceived fragment.sequence with hle | hlt
    · rw [max_eq_right hle]
      exact mem_store.mpr (.inl rfl)
    · rw [max_eq_left hlt]
      exact mem_store.mpr (.inr (h.received.resolve_right (by omega)))
  · have := h.receivedLimit
    omega
  · have hlt := hne last hsome
    rw [hfinalSequence] at hsome
    split at hsome
    · rename_i hflag
      cases hsome
      have := hfinal hflag
      exact ⟨mem_store.mpr (.inl rfl), by omega, by omega⟩
    · obtain ⟨hmem, heq, -⟩ := h.final last hsome
      have := (hlast last hsome).1
      exact ⟨mem_store.mpr (.inr hmem), by omega, by omega⟩
  · rw [hfinalSequence] at hnone
    split at hnone
    · cases hnone
    · rename_i hflag
      have := hroom (by simpa using hflag)
      have := h.waiting hnone
      omega
  · -- without reordering, the fragment is the next one
    have hgapZero : config.maxReorderGap.toNat = 0 := by rw [hzero]; rfl
    have hsame := h.inSequence hzero
    have hfrom := horder hgapZero
    rw [hgapZero] at hgap
    simp only [saturatingAddU8] at hgap
    have hnotLast : fragment.sequence ≠ a.highestContiguous := fun heq =>
      hnotMem (h.contiguous _ hone heq.le)
    have hmem : a.highestContiguous + 1 ∈ (a.store fragment now).fragments :=
      mem_store.mpr (.inl (by omega))
    have hmoved : (a.store fragment now).highestContiguous ≠ a.highestContiguous := fun heq =>
      hmissing (by rw [heq]; exact hmem)
    omega

end

/-! ## Completing an assembly -/

theorem Consistent.size_lt (hnext : a.highestContiguous < config.maxFragmentsPerDatagram.toNat) :
    a.fragments.size < config.maxFragmentsPerDatagram.toNat := by
  have hsubset : a.fragments.keys.toFinset ⊆
      (Finset.Icc 1 config.maxFragmentsPerDatagram.toNat).erase (a.highestContiguous + 1) := by
    intro sequence hsequence
    have hmem := mem_keys.mp (List.mem_toFinset.mp hsequence)
    have hstored := h.stored sequence hmem
    have hlimit := h.receivedLimit
    rw [Finset.mem_erase, Finset.mem_Icc]
    exact ⟨fun heq => h.missing (heq ▸ hmem), hstored.1, hstored.2.trans hlimit⟩
  have hcard := Finset.card_le_card hsubset
  rw [List.toFinset_card_of_nodup a.fragments.nodup_keys, length_keys,
    Finset.card_erase_of_mem (Finset.mem_Icc.mpr ⟨by omega, by omega⟩), Nat.card_Icc] at hcard
  omega

/-- The next fragment that an assembly waits for; it is the final one if nothing is known of what
comes after it. -/
def awaited (a : Assembly) : Socks5UdpFragment where
  sequence := a.highestContiguous + 1
  finalFragment := decide (a.finalSequence = none ∧ a.highestReceived = a.highestContiguous)
  target := a.target
  port := a.port
  payload := []

theorem Consistent.highestContiguous_lt :
    a.highestContiguous < config.maxFragmentsPerDatagram.toNat := by
  have hlimit := h.receivedLimit
  have hle := h.highestContiguous_le
  cases hfinal : a.finalSequence with
  | none =>
    have := h.waiting hfinal
    omega
  | some last =>
    have := h.final last hfinal
    omega

theorem Consistent.awaited_lt
    (hflag : a.awaited.finalFragment = false) : a.highestContiguous + 1 < a.highestReceived := by
  have hreceived : a.highestContiguous < a.highestReceived := by
    have hle := h.highestContiguous_le
    cases hfinal : a.finalSequence with
    | none =>
      have : a.highestReceived ≠ a.highestContiguous := by simpa [awaited, hfinal] using hflag
      omega
    | some last =>
      have := h.final last hfinal
      omega
  refine lt_of_le_of_ne hreceived fun heq => h.missing ?_
  rw [heq]
  exact h.received.resolve_right (by omega)

variable (hconfig : config.maxFragmentsPerDatagram.toNat ≤ 127)
include hconfig

theorem Consistent.awaited_accept : a.conflict config.maxReorderGap.toNat a.awaited = .accept := by
  have hlt := h.highestContiguous_lt
  refine conflict_eq_accept.mpr ⟨fun hgap => ?_, get?_eq_none.mpr h.missing,
    fun last hfinal => ⟨(h.final last hfinal).2.2, ?_⟩, ?_⟩
  · have hsame := h.inSequence (UInt8.toNat_inj.mp hgap)
    simp only [awaited]
    omega
  · simp [awaited, hfinal]
  · simp only [awaited, saturatingAddU8]
    omega

/-- **A consistent assembly can be completed**, by one awaited fragment after the other. -/
theorem Consistent.completable
    (hbytes : a.bytes ≤ config.maxBytesPerDatagram.toNat) : a.Completable config := by
  -- each fragment lengthens the contiguous ones, of which there are at most the allowed number
  induction hn : config.maxFragmentsPerDatagram.toNat - a.highestContiguous using
    Nat.strong_induction_on generalizing a with
  | _ n ih =>
    have hlt := h.highestContiguous_lt
    have hmax : a.awaited.sequence ≤ config.maxFragmentsPerDatagram.toNat := hlt
    have hone : 1 ≤ a.awaited.sequence := Nat.le_add_left 1 _
    have haccept := h.awaited_accept hconfig
    refine .push a.awaited 0 rfl rfl hone hmax haccept (h.size_lt hlt) hbytes ?_
    by_cases hcomplete : (a.store a.awaited 0).complete = true
    · exact .complete hcomplete
    have hfinal : a.awaited.finalFragment = true → a.highestReceived ≤ a.awaited.sequence := by
      intro hflag
      have hsame := of_decide_eq_true hflag
      simp only [awaited]
      omega
    have hroom : a.awaited.finalFragment = false →
        a.awaited.sequence < config.maxFragmentsPerDatagram.toNat := fun hflag =>
      (h.awaited_lt hflag).trans_le h.receivedLimit
    obtain ⟨hle, -, hmissing⟩ := h.contiguous_store hconfig hmax 0
    have hmoved : (a.store a.awaited 0).highestContiguous ≠ a.highestContiguous := fun heq =>
      hmissing (by rw [heq]; exact mem_store.mpr (.inl rfl))
    exact ih _ (by omega)
      (h.store hconfig hone hmax haccept hfinal hroom (by simpa using hcomplete))
      (le_trans (min_le_left _ _) hbytes) rfl

end

theorem not_completable {last : ℕ} (hfinal : a.finalSequence = some last)
    (hlt : last < a.highestContiguous)
    (hcontiguous : ∀ sequence, 1 ≤ sequence → sequence ≤ a.highestContiguous →
      sequence ∈ a.fragments) : ¬ a.Completable config := by
  intro h
  cases h with
  | complete hcomplete =>
    rw [complete, hfinal, Option.any_some, beq_iff_eq] at hcomplete
    omega
  | push fragment now _ _ hone _ haccept =>
    obtain ⟨-, hnew, hlast, -⟩ := conflict_eq_accept.mp haccept
    have hle := (hlast last hfinal).1
    exact get?_eq_none.mp hnew (hcontiguous _ hone (by omega))

end Store

theorem consistent_new (fragment : Socks5UdpFragment)
    (envelope : ℕ) (now : Instant) (hconfig : 0 < config.maxFragmentsPerDatagram.toNat) :
    (Assembly.new fragment envelope now).Consistent config where
  stored _ h := by cases h
  received := .inr rfl
  receivedLimit := Nat.zero_le _
  contiguous _ hone hzero := absurd (hone.trans hzero) (Nat.not_succ_le_zero 0)
  missing h := by cases h
  final _ h := by cases h
  waiting _ := hconfig
  inSequence _ := rfl

end Assembly

/-! ## Runs -/

theorem maxFragments_of_validateConfig (h : validateConfig config = .ok ()) :
    0 < config.maxFragmentsPerDatagram.toNat ∧ config.maxFragmentsPerDatagram.toNat ≤ 127 := by
  rw [validateConfig] at h
  split_ifs at h with hzero hshort hlimits
  rw [not_or, not_or] at hlimits
  have hpos : config.maxFragmentsPerDatagram.toNat ≠ 0 := fun hnone =>
    hlimits.1 (UInt64.toNat_inj.mp hnone)
  have hle := UInt64.not_lt.mp hlimits.2.1
  exact ⟨Nat.pos_of_ne_zero hpos, UInt64.le_iff_toNat_le.mp hle⟩

/-- The fragment of a push does not pass the checks of its assembly, or it is neither a final one
before a fragment that the assembly has, nor one that is not final and leaves no sequence number for
a final one. -/
def wellSequenced (r : Socks5FragmentReassembler K) : Call K → Bool
  | .push session fragment _ =>
    let assembly := r.assemblies.get? ⟨session, fragment.target, fragment.port⟩
    assembly.any (·.conflict r.config.maxReorderGap.toNat fragment != .accept) ||
      if fragment.finalFragment then assembly.all (·.highestReceived ≤ fragment.sequence)
      else fragment.sequence != r.config.maxFragmentsPerDatagram.toNat
  | _ => true

/-- All assemblies of a reassembler fit together. -/
structure Shaped (r : Socks5FragmentReassembler K) : Prop where
  inOrder : InOrder r
  config : validateConfig r.config = .ok ()
  assembly : ∀ key a, r.assemblies.get? key = some a →
    a.Consistent r.config ∧ 1 ≤ a.highestContiguous

theorem Shaped.incomplete {key : FragmentKey K}
    (h : Shaped r) (hget : r.assemblies.get? key = some a) : a.Incomplete r.config := by
  obtain ⟨ha, hone⟩ := h.assembly key a hget
  have hle := ha.highestContiguous_le
  exact {
    final := fun last hfinal => ⟨fun sequence hsequence =>
      (ha.stored sequence hsequence).2.trans (ha.final last hfinal).2.1.le,
      (ha.final last hfinal).2.2⟩
    contiguous := ⟨ha.contiguous, ha.missing⟩
    received := ⟨ha.received.resolve_right (by omega), fun sequence hsequence =>
      (ha.stored sequence hsequence).2⟩
    completable := ha.completable (maxFragments_of_validateConfig h.config).2
      (h.inOrder.assembly key a hget).bytesLimit }

theorem Shaped.store {session : K} {fragment : Socks5UdpFragment} {now : Instant} (h : Shaped r)
    (hallowed : wellSequenced r (.push session fragment now) = true)
    (ha : r.assemblies.get? ⟨session, fragment.target, fragment.port⟩ = some a ∨
      r.assemblies.get? ⟨session, fragment.target, fragment.port⟩ = none ∧
        fragment.sequence = 1 ∧ ∃ envelope, a = .new fragment envelope now)
    (hone : 1 ≤ fragment.sequence)
    (hmax : fragment.sequence ≤ r.config.maxFragmentsPerDatagram.toNat)
    (haccept : a.conflict r.config.maxReorderGap.toNat fragment = .accept)
    (hopen : (a.store fragment now).complete = false) :
    (a.store fragment now).Consistent r.config ∧ 1 ≤ (a.store fragment now).highestContiguous := by
  obtain ⟨hpos, hconfig⟩ := maxFragments_of_validateConfig h.config
  have hbefore : a.Consistent r.config ∧
      (1 ≤ a.highestContiguous ∨ a.highestContiguous = 0 ∧ fragment.sequence = 1) := by
    obtain hget | ⟨-, hfirst, envelope, rfl⟩ := ha
    · exact ⟨(h.assembly _ a hget).1, .inl (h.assembly _ a hget).2⟩
    · exact ⟨Assembly.consistent_new fragment envelope now hpos, .inr ⟨rfl, hfirst⟩⟩
  have hfinal : fragment.finalFragment = true → a.highestReceived ≤ fragment.sequence := by
    intro hflag
    obtain hget | ⟨-, hfirst, envelope, rfl⟩ := ha
    · simpa [wellSequenced, hflag, hget, haccept] using hallowed
    · exact Nat.zero_le _
  have hroom : fragment.finalFragment = false →
      fragment.sequence < r.config.maxFragmentsPerDatagram.toNat := by
    intro hflag
    refine lt_of_le_of_ne hmax ?_
    obtain hget | ⟨hnone, -, -⟩ := ha
    · simpa [wellSequenced, hflag, hget, haccept] using hallowed
    · simpa [wellSequenced, hflag, hnone] using hallowed
  refine ⟨hbefore.1.store hconfig hone hmax haccept hfinal hroom hopen, ?_⟩
  obtain ⟨hle, -, hmissing⟩ := hbefore.1.contiguous_store hconfig hmax now
  obtain hstarted | ⟨hzero, hfirst⟩ := hbefore.2
  · exact hstarted.trans hle
  · refine Nat.one_le_iff_ne_zero.mpr fun hnone => hmissing ?_
    rw [hnone]
    exact Assembly.mem_store.mpr (.inl hfirst.symm)

/-- **One call.** A well sequenced call leaves all assemblies consistent. -/
theorem Shaped.performed {r' : Socks5FragmentReassembler K} {call : Call K} (h : Shaped r)
    (hallowed : wellSequenced r call = true) (hinOrder : InOrder r') (hconfig : r'.config = r.config)
    (hperformed : Performed r call r'.assemblies) : Shaped r' := by
  refine ⟨hinOrder, hconfig ▸ h.config, fun key a hget => ?_⟩
  rw [hconfig]
  cases hperformed with
  | removed hkept => exact h.assembly key a (hkept key a hget)
  | pushed hpushed =>
    cases hpushed with
    | kept hresult hall => exact h.assembly key a ((hall key).symm.trans hget)
    | removed hresult hall =>
      rw [hall] at hget
      split at hget
      · cases hget
      · exact h.assembly key a hget
    | stored ha hone hmax haccept hopen hall =>
      rw [hall] at hget
      split at hget
      · cases hget
        exact h.store hallowed ha hone hmax haccept hopen
      · exact h.assembly key a hget

theorem sound_shaped (budget : Socks5FragmentGlobalBudget) :
    (system K budget).Sound Shaped fun r call => wellSequenced r call = true where
  create config r h := by
    obtain ⟨hvalid, rfl⟩ := create_eq_some h
    exact ⟨⟨inOrder_new config, hvalid, fun _ _ hget => by cases hget⟩, held_new config⟩
  body r call h hallowed := by
    refine (perform_ensures (limit_le_usizeMax budget) h.inOrder call).mono ?_
    rintro ⟨reply, r'⟩ held hresult
    cases r' with
    | none => exact hresult
    | some r' =>
      obtain ⟨hinOrder, hheld, hconfig, hperformed⟩ := hresult
      exact ⟨h.performed hallowed hinOrder hconfig hperformed, hheld⟩

/-- **Every stored assembly waits for fragments that complete it**, in every run whose fragments are
well sequenced. -/
theorem incomplete_of_run {ι : Type} [DecidableEq ι] {budget : Socks5FragmentGlobalBudget}
    {es : List (PoolEvent ι Socks5FragmentConfig (Call K) × Option Reply)}
    {p : Pool ι Counter (Socks5FragmentReassembler K) Reply}
    (hrun : Run (fun p e p' => (system K budget).Step p e p' ∧
      BudgetSystem.Allows (fun r call => wellSequenced r call = true) p e.1)
      BudgetSystem.start es p) {i : ι} {r : Socks5FragmentReassembler K}
    (hworker : p.workers.get? i = some (.idle r)) {key : FragmentKey K} {a : Assembly}
    (hget : r.assemblies.get? key = some a) : a.Incomplete r.config := by
  have hbalanced := BudgetSystem.balanced_of_run (sound_shaped budget) hrun
  have hshaped : Shaped r := hbalanced.workers i _ hworker
  exact hshaped.incomplete hget

namespace Sample

/-- A configuration that allows fragments out of order. -/
def reordering : Socks5FragmentConfig := { maxReorderGap := 2 }

def key : FragmentKey ℕ := ⟨7, .ip (.v4 0x7f000001), 53⟩

/-- The stored assembly of the first reassembler. -/
def stored (p : Pool ℕ Counter (Socks5FragmentReassembler ℕ) Reply) :
    Option (Socks5FragmentReassembler ℕ × Assembly) :=
  match p.workers.get? 0 with
  | some (.idle r) => (r.assemblies.get? key).map (r, ·)
  | _ => none

theorem of_stored {p : Pool ℕ Counter (Socks5FragmentReassembler ℕ) Reply}
    {r : Socks5FragmentReassembler ℕ} (h : stored p = some (r, a)) :
    p.workers.get? 0 = some (.idle r) ∧ r.assemblies.get? key = some a := by
  rw [stored] at h
  split at h
  · rename_i hworker
    obtain ⟨b, hget, heq⟩ := Option.map_eq_some_iff.mp h
    cases heq
    exact ⟨hworker, hget⟩
  · cases h

/-- A push that opens an assembly, and one that finds it, without interruption. -/
def opening (sequence : ℕ) (finalFragment : Bool) :
    List (PoolEvent ℕ Socks5FragmentConfig (Call ℕ)) :=
  .call 0 (push sequence finalFragment) :: List.replicate 5 (.tick 0)

def following (sequence : ℕ) (finalFragment : Bool) :
    List (PoolEvent ℕ Socks5FragmentConfig (Call ℕ)) :=
  .call 0 (push sequence finalFragment) :: List.replicate 3 (.tick 0)

end Sample

open Sample

/-- Fragments 1 and 3, the latter the final one, wait for fragment 2. -/
theorem incomplete_of_run_reordered :
    ∃ r, ∃ a : Assembly, a.finalSequence = some 3 ∧ a.highestContiguous = 1 ∧
      a.Incomplete (Socks5FragmentReassembler.config (K := ℕ) r) := by
  have h : ∃ x ∈ perform (system ℕ (.fromConfig {})).attempt
      (fun p e => BudgetSystem.Allows (fun r call => wellSequenced r call = true) p e.1)
      BudgetSystem.start (.join 0 reordering :: opening 1 false ++
        following 3 true), ∃ y ∈ stored x.2,
      y.2.finalSequence = some 3 ∧ y.2.highestContiguous = 1 := by
    decide +kernel
  obtain ⟨⟨es, p⟩, hcalls, ⟨r, a⟩, hstored, hfinal, hcontiguous⟩ := h
  obtain ⟨hworker, hget⟩ := of_stored hstored
  exact ⟨r, a, hfinal, hcontiguous,
    incomplete_of_run (BudgetSystem.run_of_perform hcalls) hworker hget⟩

/-- Fragment 2 is accepted as the final one after fragment 3. The assembly is stored, although
nothing is missing, and nothing completes it. -/
theorem final_before_stored : ∃ es, ∃ p : Pool ℕ Counter (Socks5FragmentReassembler ℕ) Reply,
    ∃ r key a, Run (system ℕ (.fromConfig {})).Step BudgetSystem.start es p ∧
      p.workers.get? 0 = some (.idle r) ∧ r.assemblies.get? key = some a ∧
      a.finalSequence = some 2 ∧ 3 ∈ a.fragments ∧ a.highestContiguous = 3 ∧
      ¬ a.Completable r.config ∧ ¬ a.Incomplete r.config := by
  have h : ∃ x ∈ perform (system ℕ (.fromConfig {})).attempt (fun _ _ => True) BudgetSystem.start
      (.join 0 reordering :: opening 1 false ++ following 3 false ++
        following 2 true), ∃ y ∈ stored x.2,
      y.2.finalSequence = some 2 ∧ y.2.highestContiguous = 3 ∧
        ∀ sequence ∈ List.range' 1 3, sequence ∈ y.2.fragments := by
    decide +kernel
  obtain ⟨⟨es, p⟩, hcalls, ⟨r, a⟩, hstored, hfinal, hcontiguous, hall⟩ := h
  have hrun := BudgetSystem.run_of_perform hcalls
  obtain ⟨hworker, hget⟩ := of_stored hstored
  have hstuck : ¬ a.Completable r.config :=
    Assembly.not_completable hfinal (hcontiguous ▸ by decide) fun sequence hone hle =>
      hall sequence (List.mem_range'_1.mpr ⟨hone, Nat.lt_succ_of_le (hle.trans hcontiguous.le)⟩)
  exact ⟨es, p, r, key, a, hrun.mono fun _ _ _ hstep => hstep.1, hworker, hget, hfinal,
    hall 3 (by simp), hcontiguous, hstuck, fun hincomplete => hstuck hincomplete.completable⟩

end LinkLake.Socks5
