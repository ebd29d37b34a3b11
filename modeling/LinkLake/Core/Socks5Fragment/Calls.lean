import LinkLake.Core.Socks5Fragment.Accounting

/-!
# Reassemblers that share a budget

Each call of a reassembler, taken for itself, accounts for what it holds of the shared counters
(`push_ensures`, `expire_ensures`, `discardSession_ensures`, `drop_ensures`): a reservation that
fails halfway is taken back, and what is released is what was reserved. With `balanced_of_run` the
shared counters are then, in every interleaving of any number of reassemblers, the sums over all
their assemblies (`counters_of_run`).
-/

namespace LinkLake.Socks5

open BudgetProg FiniteMap Socks5FragmentReassembler
open Udp (Instant usizeMax saturatingAdd)

variable {K : Type} [DecidableEq K]

/-! ## Amounts -/

/-- Amounts of the three shared counters. -/
def tally (datagrams fragments bytes : ℕ) : Counter → ℕ
  | .inflightDatagrams => datagrams
  | .bufferedFragments => fragments
  | .bufferedBytes => bytes

section Tallies

variable {datagrams fragments bytes n : ℕ}

@[simp] theorem tally_inflightDatagrams :
    tally datagrams fragments bytes .inflightDatagrams = datagrams := rfl

@[simp] theorem tally_bufferedFragments :
    tally datagrams fragments bytes .bufferedFragments = fragments := rfl

@[simp] theorem tally_bufferedBytes : tally datagrams fragments bytes .bufferedBytes = bytes := rfl

@[simp] theorem raise_inflightDatagrams :
    raise (tally datagrams fragments bytes) .inflightDatagrams n =
      tally (datagrams + n) fragments bytes := by
  funext c
  cases c <;> simp [raise]

@[simp] theorem raise_bufferedFragments :
    raise (tally datagrams fragments bytes) .bufferedFragments n =
      tally datagrams (fragments + n) bytes := by
  funext c
  cases c <;> simp [raise]

@[simp] theorem raise_bufferedBytes :
    raise (tally datagrams fragments bytes) .bufferedBytes n =
      tally datagrams fragments (bytes + n) := by
  funext c
  cases c <;> simp [raise]

@[simp] theorem lower_inflightDatagrams :
    lower (tally datagrams fragments bytes) .inflightDatagrams n =
      tally (datagrams - n) fragments bytes := by
  funext c
  cases c <;> simp [lower]

@[simp] theorem lower_bufferedFragments :
    lower (tally datagrams fragments bytes) .bufferedFragments n =
      tally datagrams (fragments - n) bytes := by
  funext c
  cases c <;> simp [lower]

@[simp] theorem lower_bufferedBytes :
    lower (tally datagrams fragments bytes) .bufferedBytes n =
      tally datagrams fragments (bytes - n) := by
  funext c
  cases c <;> simp [lower]

end Tallies

omit [DecidableEq K] in
theorem held_eq_tally (r : Socks5FragmentReassembler K) : r.held =
    tally r.assemblies.size (r.assemblies.total (·.fragments.size))
      (r.assemblies.total (·.bytes)) := by
  funext c
  cases c <;> rfl

section Calls

variable {r : Socks5FragmentReassembler K} {key : FragmentKey K} {a : Assembly}
  {limit : Counter → ℕ} {fragment : Socks5UdpFragment} {config : Socks5FragmentConfig}

theorem reserveNewAssembly_ensures (hlimit : ∀ c, limit c ≤ usizeMax) (h : InOrder r) (session : K)
    (envelope : ℕ) :
    Ensures limit (fun result held => match result with
      | .error _ => held = r.held
      | .ok r' => held = tally (r.assemblies.size + 1) (r.assemblies.total (·.fragments.size))
          (r.assemblies.total (·.bytes) + envelope) ∧
        envelope ≤ r.config.maxBytesPerDatagram.toNat ∧
        (usageOf r.assemblies session).datagrams < r.config.maxInflightPerSession.toNat ∧
        (usageOf r.assemblies session).bytes + envelope ≤ r.config.maxBytesPerSession.toNat ∧
        r' = { r with
          sessions := r.sessions.insert session
            ⟨(usageOf r.assemblies session).datagrams + 1, (usageOf r.assemblies session).fragments,
              (usageOf r.assemblies session).bytes + envelope⟩
          localBytes := r.localBytes + envelope }) (r.reserveNewAssembly session envelope) r.held := by
  rw [reserveNewAssembly, h.usage session, held_eq_tally]
  split_ifs with hdatagram hinflight hbytes
  · rfl
  · rfl
  · rfl
  refine ensures_tryReserve_bind.mpr ⟨fun hfirst => ?_, rfl⟩
  rw [if_pos rfl, raise_inflightDatagrams]
  refine ensures_tryReserve_bind.mpr ⟨fun hsecond => ?_, ?_⟩
  · -- what the shared counters grant bounds what the reassembler counts, so nothing saturates
    have hdatagrams : (usageOf r.assemblies session).datagrams ≤ r.assemblies.size :=
      share_datagrams_le
    have hshare : (usageOf r.assemblies session).bytes ≤ r.assemblies.total (·.bytes) :=
      share_le_total session (·.bytes)
    have hmax1 := hlimit .inflightDatagrams
    have hmax2 := hlimit .bufferedBytes
    have hlocal := h.localBytes
    rw [tally_inflightDatagrams] at hfirst
    rw [tally_bufferedBytes] at hsecond
    rw [saturatingAdd_of_le (by omega)] at hbytes
    rw [if_pos rfl, raise_bufferedBytes, ensures_pure]
    refine ⟨rfl, by omega, by omega, by omega, ?_⟩
    rw [saturatingAdd_of_le (by omega), saturatingAdd_of_le (by omega),
      saturatingAdd_of_le (by omega)]
  · rw [if_neg (by decide)]
    refine ensures_giveBack_bind.mpr ⟨Nat.le_add_left _ _, ?_⟩
    rw [ensures_pure, lower_inflightDatagrams, Nat.add_sub_cancel]

theorem reserveFragment_ensures (hlimit : ∀ c, limit c ≤ usizeMax) (h : InOrder r)
    (hget : r.assemblies.get? key = some a) (n : ℕ) :
    Ensures limit (fun result held => match result with
      | .error _ => held = r.held
      | .ok r' => held = tally r.assemblies.size (r.assemblies.total (·.fragments.size) + 1)
          (r.assemblies.total (·.bytes) + n) ∧
        a.fragments.size < r.config.maxFragmentsPerDatagram.toNat ∧
        a.bytes + n ≤ r.config.maxBytesPerDatagram.toNat ∧
        (usageOf r.assemblies key.session).fragments < r.config.maxFragmentsPerSession.toNat ∧
        (usageOf r.assemblies key.session).bytes + n ≤ r.config.maxBytesPerSession.toNat ∧
        r' = { r with
          sessions := r.sessions.insert key.session
            ⟨(usageOf r.assemblies key.session).datagrams,
              (usageOf r.assemblies key.session).fragments + 1,
              (usageOf r.assemblies key.session).bytes + n⟩
          localFragments := r.localFragments + 1
          localBytes := r.localBytes + n }) (r.reserveFragment key.session key n) r.held := by
  rw [reserveFragment, h.usage key.session, held_eq_tally]
  refine ensures_expect_bind.mpr ⟨a, hget, ?_⟩
  split_ifs with hsize hdatagram hfragments hbytes
  · rfl
  · rfl
  · rfl
  · rfl
  have hentry := (h.sessions key.session).trans (if_neg (share_pos hget).ne')
  rw [tryReserveFragment, ensures_bind, ensures_tryReserve_bind]
  refine ⟨fun hfirst => ?_, rfl⟩
  rw [if_pos rfl, raise_bufferedFragments]
  refine ensures_tryReserve_bind.mpr ⟨fun hsecond => ?_, ?_⟩
  · have hshare1 : (usageOf r.assemblies key.session).fragments
        ≤ r.assemblies.total (·.fragments.size) := share_le_total key.session (·.fragments.size)
    have hshare2 : (usageOf r.assemblies key.session).bytes ≤ r.assemblies.total (·.bytes) :=
      share_le_total key.session (·.bytes)
    have hown : a.bytes ≤ r.assemblies.total (·.bytes) := le_total _ hget
    have hmax1 := hlimit .bufferedFragments
    have hmax2 := hlimit .bufferedBytes
    have hlocal1 := h.localFragments
    have hlocal2 := h.localBytes
    rw [tally_bufferedFragments] at hfirst
    rw [tally_bufferedBytes] at hsecond
    rw [saturatingAdd_of_le (by omega)] at hbytes hdatagram
    rw [if_pos rfl, raise_bufferedBytes, ensures_pure]
    refine ensures_expect_bind.mpr ⟨_, hentry, ?_⟩
    refine ⟨rfl, by omega, by omega, by omega, by omega, ?_⟩
    rw [saturatingAdd_of_le (by omega), saturatingAdd_of_le (by omega),
      saturatingAdd_of_le (by omega), saturatingAdd_of_le (by omega)]
  · rw [if_neg (by decide)]
    refine ensures_giveBack_bind.mpr ⟨Nat.le_add_left _ _, ?_⟩
    rw [ensures_pure, lower_bufferedFragments, Nat.add_sub_cancel]
    exact rfl

theorem payloads_perm (a : Assembly) : a.payloads.Perm (a.fragments.toList.map Prod.snd) :=
  (List.perm_insertionSort _ _).map Prod.snd

theorem length_payloads (a : Assembly) : a.payloads.length = a.fragments.size := by
  rw [(payloads_perm a).length_eq, List.length_map, FiniteMap.size]

theorem sum_payloads (a : Assembly) :
    (a.payloads.map List.length).sum = a.fragments.total List.length := by
  rw [((payloads_perm a).map List.length).sum_eq, List.map_map, FiniteMap.total]
  rfl

theorem releaseFragments_ensures (payloads : List (List UInt8)) (datagrams fragments bytes : ℕ) :
    Ensures limit (fun _ held => held = tally datagrams fragments bytes)
      (payloads.forM fun payload => releaseFragment payload.length)
      (tally datagrams (fragments + payloads.length) (bytes + (payloads.map List.length).sum)) := by
  refine Ensures.forM (fun rest held => held = tally datagrams (fragments + rest.length)
    (bytes + (rest.map List.length).sum)) ?_ rfl
  rintro payload rest _ rfl
  rw [List.length_cons, List.map_cons, List.sum_cons, releaseFragment]
  refine ensures_giveBack_bind.mpr ⟨by rw [tally_bufferedFragments]; omega, ?_⟩
  rw [releaseBytes, ensures_giveBack, lower_bufferedFragments, tally_bufferedBytes,
    lower_bufferedBytes]
  refine ⟨by omega, ?_⟩
  congr 1
  omega

omit [DecidableEq K] in
theorem releaseAssembly_ensures (ha : a.InOrder config key) (datagrams fragments bytes : ℕ) :
    Ensures limit (fun _ held => held = tally datagrams fragments bytes) (releaseAssembly a)
      (tally (datagrams + 1) (fragments + a.fragments.size) (bytes + a.bytes)) := by
  obtain ⟨envelope, -, hbytes⟩ := ha.bytes
  have hpayload := ha.payload
  have hsum := sum_payloads a
  rw [releaseAssembly, releaseDatagram, releaseBytes]
  refine ensures_giveBack_bind.mpr ⟨by rw [tally_inflightDatagrams]; omega, ?_⟩
  rw [lower_inflightDatagrams]
  refine ensures_giveBack_bind.mpr ⟨by rw [tally_bufferedBytes]; omega, ?_⟩
  rw [lower_bufferedBytes, Nat.add_sub_cancel, ← length_payloads,
    show bytes + a.bytes - (a.bytes - a.payloadBytes) = bytes + (a.payloads.map List.length).sum by
      omega]
  exact releaseFragments_ensures a.payloads datagrams fragments bytes

theorem removeAssembly_ensures (h : InOrder r) (hget : r.assemblies.get? key = some a) :
    Ensures limit (fun result held => result = (some a, r.forget key a) ∧
      held = (r.forget key a).held) (r.removeAssembly key) r.held := by
  have hsize := size_erase hget
  have hfragments := total_erase (·.fragments.size) hget
  have hbytes := total_erase (·.bytes) hget
  rw [held_eq_tally r, ← hsize, ← hfragments, ← hbytes, removeAssembly, hget]
  refine Ensures.bind (releaseAssembly_ensures (h.assembly key a hget) _ _ _) ?_
  rintro _ _ rfl
  exact ⟨rfl, (held_eq_tally (r.forget key a)).symm⟩

/-! ## Pushing a fragment -/

theorem mem_of_le_extendContiguous {fragments : FiniteMap ℕ (List UInt8)} {fuel highest : ℕ}
    (h : ∀ sequence, 1 ≤ sequence → sequence ≤ highest → sequence ∈ fragments) :
    ∀ sequence, 1 ≤ sequence → sequence ≤ Assembly.extendContiguous fragments fuel highest →
      sequence ∈ fragments := by
  induction fuel generalizing highest with
  | zero => exact h
  | succ fuel ih =>
    rw [Assembly.extendContiguous]
    split
    · rename_i hnext
      refine ih fun sequence hone hle => ?_
      simp only [saturatingAddU8] at hnext hle
      by_cases hlast : sequence = min (highest + 1) 255
      · rw [hlast]
        exact hnext
      · exact h sequence hone (by omega)
    · exact h

theorem conflict_eq_accept {gap : ℕ} :
    a.conflict gap fragment = .accept ↔ (gap = 0 → a.highestReceived ≤ fragment.sequence) ∧
      a.fragments.get? fragment.sequence = none ∧
      (∀ last, a.finalSequence = some last →
        fragment.sequence ≤ last ∧ (fragment.finalFragment = true → last = fragment.sequence)) ∧
      fragment.sequence ≤ saturatingAddU8 (saturatingAddU8 a.highestContiguous gap) 1 := by
  rw [Assembly.conflict]
  by_cases horder : gap = 0 ∧ fragment.sequence < a.highestReceived
  · rw [if_pos horder]
    exact iff_of_false (by simp) fun h => absurd (h.1 horder.1) (not_le.mpr horder.2)
  rw [if_neg horder]
  have hfirst : gap = 0 → a.highestReceived ≤ fragment.sequence :=
    fun hgap => not_lt.mp fun hlt => horder ⟨hgap, hlt⟩
  cases hget : a.fragments.get? fragment.sequence with
  | some existing =>
    dsimp only
    split_ifs <;> simp
  | none =>
    cases hfinal : a.finalSequence with
    | none => simpa using fun _ => hfirst
    | some last =>
      simp only [Option.any_some, decide_eq_true_eq, Bool.and_eq_true, bne_iff_ne, ne_eq,
        Option.some.injEq, forall_eq']
      split_ifs <;> grind

omit [DecidableEq K] in
theorem Assembly.InOrder.store (ha : a.InOrder config key)
    (hnew : a.fragments.get? fragment.sequence = none)
    (hsize : a.fragments.size < config.maxFragmentsPerDatagram.toNat)
    (hbytes : a.bytes + fragment.payload.length ≤ config.maxBytesPerDatagram.toNat) (now : Instant) :
    (a.store fragment now).InOrder config key ∧
      (a.store fragment now).bytes = a.bytes + fragment.payload.length ∧
      (a.store fragment now).fragments.size = a.fragments.size + 1 := by
  obtain ⟨envelope, henvelope, htotal⟩ := ha.bytes
  have hword : config.maxBytesPerDatagram.toNat ≤ usizeMax :=
    Nat.le_pred_of_lt config.maxBytesPerDatagram.toNat_lt
  have hown : (a.store fragment now).bytes = a.bytes + fragment.payload.length :=
    saturatingAdd_of_le (by omega)
  have hpayload : (a.store fragment now).payloadBytes = a.payloadBytes + fragment.payload.length :=
    saturatingAdd_of_le (by omega)
  have hcount : (a.store fragment now).fragments.size = a.fragments.size + 1 :=
    size_insert_new hnew fragment.payload
  have hprevious : ∀ sequence, 1 ≤ sequence → sequence ≤ a.highestContiguous →
      sequence ∈ a.fragments.insert fragment.sequence fragment.payload := fun sequence hone hle =>
    mem_insert.mpr (.inr (ha.contiguous sequence hone hle))
  refine ⟨?_, hown, hcount⟩
  exact {
    target := ha.target
    port := ha.port
    bytes := ⟨envelope, henvelope, by omega⟩
    payload := by
      rw [hpayload, ha.payload]
      exact (total_insert_new List.length hnew fragment.payload).symm
    bytesLimit := by omega
    fragmentsLimit := by omega
    contiguous := mem_of_le_extendContiguous hprevious }

/-- What a push does to the assemblies of a reassembler. -/
inductive Pushed (r : Socks5FragmentReassembler K) (key : FragmentKey K)
    (fragment : Socks5UdpFragment) (now : Instant) :
    Except Socks5FragmentError Socks5FragmentOutcome →
      FiniteMap (FragmentKey K) Assembly → Prop
  /-- They stay: the fragment is a datagram of its own, is there already, or is refused. -/
  | kept {result : Except Socks5FragmentError Socks5FragmentOutcome}
      {assemblies : FiniteMap (FragmentKey K) Assembly} (hresult : result ≠ .ok .pending)
      (hget : ∀ j, assemblies.get? j = r.assemblies.get? j) :
      Pushed r key fragment now result assemblies
  /-- The assembly of the fragment goes: it is complete, or the fragment is in conflict with it. -/
  | removed {result : Except Socks5FragmentError Socks5FragmentOutcome}
      {assemblies : FiniteMap (FragmentKey K) Assembly} (hresult : result ≠ .ok .pending)
      (hget : ∀ j, assemblies.get? j = if j = key then none else r.assemblies.get? j) :
      Pushed r key fragment now result assemblies
  /-- An assembly, perhaps a new one, takes the fragment and is not complete yet. -/
  | stored {a : Assembly} {assemblies : FiniteMap (FragmentKey K) Assembly}
      (ha : r.assemblies.get? key = some a ∨ r.assemblies.get? key = none ∧
        fragment.sequence = 1 ∧ ∃ envelope, a = .new fragment envelope now)
      (hone : 1 ≤ fragment.sequence)
      (hmax : fragment.sequence ≤ r.config.maxFragmentsPerDatagram.toNat)
      (haccept : a.conflict r.config.maxReorderGap.toNat fragment = .accept)
      (hopen : (a.store fragment now).complete = false)
      (hget : ∀ j, assemblies.get? j =
        if j = key then some (a.store fragment now) else r.assemblies.get? j) :
      Pushed r key fragment now (.ok .pending) assemblies

/-- The result of a push goes with what the reassembler then holds. -/
structure PushResult (r : Socks5FragmentReassembler K) (key : FragmentKey K)
    (fragment : Socks5UdpFragment) (now : Instant)
    (result : Except Socks5FragmentError Socks5FragmentOutcome × Socks5FragmentReassembler K)
    (held : Counter → ℕ) : Prop where
  inOrder : InOrder result.2
  held : held = result.2.held
  config : result.2.config = r.config
  pushed : Pushed r key fragment now result.1 result.2.assemblies

/-- A push finds the assembly of its fragment: the one that was there, or one that it has just
opened. -/
structure Opened (r0 r : Socks5FragmentReassembler K) (key : FragmentKey K)
    (fragment : Socks5UdpFragment) (now : Instant) (created : Bool) (a : Assembly) : Prop where
  inOrder : InOrder r
  config : r.config = r0.config
  get : r.assemblies.get? key = some a
  others : ∀ j ≠ key, r.assemblies.get? j = r0.assemblies.get? j
  before : if created then r0.assemblies.get? key = none ∧ fragment.sequence = 1 ∧
      ∃ envelope, a = .new fragment envelope now
    else r0.assemblies.get? key = some a

theorem conflict_new {gap envelope : ℕ} {now : Instant} (h : fragment.sequence = 1) :
    (Assembly.new fragment envelope now).conflict gap fragment = .accept := by
  simp [Assembly.conflict, Assembly.new, h, saturatingAddU8]

section Push

variable {r0 : Socks5FragmentReassembler K} {now : Instant} {created : Bool}

theorem get?_forget (hothers : ∀ j ≠ key, r.assemblies.get? j = r0.assemblies.get? j)
    (j : FragmentKey K) :
    (r.forget key a).assemblies.get? j = if j = key then none else r0.assemblies.get? j := by
  rw [show (r.forget key a).assemblies = r.assemblies.erase key from rfl, get?_erase]
  split
  · rfl
  · exact hothers j ‹_›

theorem remove_ensures (h : Opened r0 r key fragment now created a)
    {result : Except Socks5FragmentError Socks5FragmentOutcome} (hresult : result ≠ .ok .pending) :
    Ensures limit (PushResult r0 key fragment now) (do
      let removed ← r.removeAssembly key
      pure (result, removed.2)) r.held := by
  refine Ensures.bind (removeAssembly_ensures h.inOrder h.get) ?_
  rintro _ _ ⟨rfl, rfl⟩
  exact ⟨h.inOrder.forget h.get, rfl, h.config, .removed hresult (get?_forget h.others)⟩

theorem deliver_ensures (h : InOrder r) (hconfig : r.config = r0.config)
    (hget : r.assemblies.get? key = some a)
    (hothers : ∀ j ≠ key, r.assemblies.get? j = r0.assemblies.get? j) (hcomplete : a.complete) :
    Ensures limit (PushResult r0 key fragment now) (r.deliver key) r.held := by
  obtain ⟨last, hlast, hall⟩ := (Option.any_eq_true _ _).mp hcomplete
  rw [deliver]
  refine Ensures.bind (removeAssembly_ensures h hget) ?_
  rintro _ _ ⟨rfl, rfl⟩
  refine ensures_expect_bind.mpr ⟨a, rfl, ensures_expect_bind.mpr ⟨last, hlast, ?_⟩⟩
  refine Ensures.bind (ensures_mapM_expect fun sequence hsequence => ?_) ?_
  · have hrange := List.mem_range'_1.mp hsequence
    have hhighest := beq_iff_eq.mp hall
    exact mem_iff.mp ((h.assembly key a hget).contiguous sequence hrange.1 (by omega))
  · rintro payloads _ ⟨-, rfl⟩
    exact ⟨h.forget hget, rfl, hconfig, .removed (by simp) (get?_forget hothers)⟩

theorem tally_replace {assemblies : FiniteMap (FragmentKey K) Assembly} {b : Assembly} {n : ℕ}
    (hget : assemblies.get? key = some a) (hsize : b.fragments.size = a.fragments.size + 1)
    (hbytes : b.bytes = a.bytes + n) :
    tally assemblies.size (assemblies.total (·.fragments.size) + 1)
        (assemblies.total (·.bytes) + n) =
      tally (assemblies.insert key b).size ((assemblies.insert key b).total (·.fragments.size))
        ((assemblies.insert key b).total (·.bytes)) := by
  have hfragments := total_replace (·.fragments.size) hget b
  have htotal := total_replace (·.bytes) hget b
  rw [size_replace hget]
  congr 1 <;> omega

theorem pushInto_ensures (hlimit : ∀ c, limit c ≤ usizeMax)
    (h : Opened r0 r key fragment now created a) (hone : 1 ≤ fragment.sequence)
    (hmax : fragment.sequence ≤ r0.config.maxFragmentsPerDatagram.toNat) :
    Ensures limit (PushResult r0 key fragment now)
      (r.pushInto key.session key fragment now created) r.held := by
  rw [pushInto]
  refine ensures_expect_bind.mpr ⟨a, h.get, ?_⟩
  have hkept : ∀ {result : Except Socks5FragmentError Socks5FragmentOutcome},
      result ≠ .ok .pending → created = false →
      PushResult r0 key fragment now (result, r) r.held := by
    rintro result hresult rfl
    refine ⟨h.inOrder, rfl, h.config, .kept hresult fun j => ?_⟩
    by_cases hj : j = key
    · rw [hj, h.get]
      exact h.before.symm
    · exact h.others j hj
  have hold : a.conflict r.config.maxReorderGap.toNat fragment ≠ .accept → created = false := by
    intro hconflict
    by_contra hcreated
    obtain ⟨-, hfirst, envelope, rfl⟩ := by simpa [hcreated] using h.before
    exact hconflict (conflict_new hfirst)
  split
  · exact hkept (by simp) (hold (by simp [*]))
  · exact hkept (by simp) (hold (by simp [*]))
  · exact remove_ensures h (by simp)
  · rename_i haccept
    refine Ensures.bind (reserveFragment_ensures hlimit h.inOrder h.get _) ?_
    rintro (e | r') held hreserved
    · obtain rfl : held = r.held := hreserved
      dsimp only
      split
      · exact remove_ensures h (by simp)
      · exact hkept (by simp) (by simpa using ‹¬ created = true›)
    · obtain ⟨rfl, hsize, hbytes, hfragments, hsession, rfl⟩ := hreserved
      obtain ⟨hstored, hown, hcount⟩ := (h.inOrder.assembly key a h.get).store
        (conflict_eq_accept.mp haccept).2.1 hsize hbytes now
      have hnext := h.inOrder.stored h.get hstored hcount hown hfragments hsession
      have hothers : ∀ j ≠ key, (r.assemblies.insert key (a.store fragment now)).get? j =
          r0.assemblies.get? j := fun j hj =>
        (get?_insert_of_ne hj).trans (h.others j hj)
      refine ensures_expect_bind.mpr ⟨a, h.get, ?_⟩
      rw [tally_replace h.get hcount hown]
      dsimp only
      split
      · rename_i hcomplete
        have hdeliver : Ensures limit (PushResult r0 key fragment now) _ _ :=
          deliver_ensures hnext h.config (get?_insert_self _ _ _) hothers hcomplete
        rwa [held_eq_tally] at hdeliver
      · rename_i hopen
        refine ⟨hnext, by rw [held_eq_tally], h.config, .stored (a := a) ?_ hone hmax
          (h.config ▸ haccept) (by simpa using hopen) fun j => ?_⟩
        · cases created with
          | false => exact .inl h.before
          | true => exact .inr h.before
        · rw [get?_insert]
          split
          · rfl
          · exact h.others j ‹_›

/-- **A push accounts for what it does**, whichever way it ends. -/
theorem push_ensures (hlimit : ∀ c, limit c ≤ usizeMax) (h : InOrder r) (session : K) :
    Ensures limit (PushResult r ⟨session, fragment.target, fragment.port⟩ fragment now)
      (r.push session fragment now) r.held := by
  have hkept : ∀ {result : Except Socks5FragmentError Socks5FragmentOutcome},
      result ≠ .ok .pending → PushResult r ⟨session, fragment.target, fragment.port⟩ fragment now
        (result, r) r.held :=
    fun hresult => ⟨h, rfl, rfl, .kept hresult fun _ => rfl⟩
  rw [push]
  split
  · exact hkept (by simp)
  rename_i hone
  split
  · exact hkept (by simp)
  rename_i hmax
  dsimp only
  split
  · rename_i hmem
    obtain ⟨a, hget⟩ := mem_iff.mp hmem
    have hopened : Opened r r ⟨session, fragment.target, fragment.port⟩ fragment now false a :=
      ⟨h, rfl, hget, fun _ _ => rfl, hget⟩
    exact pushInto_ensures hlimit hopened (by omega) (by omega)
  rename_i hmem
  have hnew := get?_eq_none.mpr hmem
  split
  · exact hkept (by simp)
  rename_i hfirst
  split
  · exact hkept (by simp)
  rename_i envelope henvelope
  refine Ensures.bind (reserveNewAssembly_ensures hlimit h session envelope) ?_
  rintro (e | r') held hreserved
  · obtain rfl : held = r.held := hreserved
    exact hkept (by simp)
  · obtain ⟨rfl, hdatagram, hinflight, hbytes, rfl⟩ := hreserved
    have hnext := @InOrder.opened K _ r ⟨session, fragment.target, fragment.port⟩ h envelope
      fragment now rfl rfl hnew henvelope hdatagram hinflight hbytes
    have hopened : Opened r _ ⟨session, fragment.target, fragment.port⟩ fragment now true
        (.new fragment envelope now) :=
      ⟨hnext, rfl, get?_insert_self _ _ _, fun j hj => get?_insert_of_ne hj,
        hnew, not_not.mp hfirst, envelope, rfl⟩
    have hpush := pushInto_ensures hlimit hopened (by omega) (by omega)
    rw [held_eq_tally] at hpush
    dsimp only at hpush
    rw [size_insert_new hnew, total_insert_new _ hnew, total_insert_new _ hnew] at hpush
    exact hpush

end Push

/-! ## Removing assemblies -/

/-- The result of a removal: some assemblies are gone, and what they held with them. -/
structure Removal (r r' : Socks5FragmentReassembler K) (held : Counter → ℕ) : Prop where
  inOrder : InOrder r'
  held : held = r'.held
  config : r'.config = r.config
  kept : ∀ key a, r'.assemblies.get? key = some a → r.assemblies.get? key = some a

section

variable (h : InOrder r)
include h

theorem removeAll_ensures (removed : Socks5FragmentExpiration) (keys : List (FragmentKey K)) :
    Ensures limit (fun result held => Removal r result.2 held) (r.removeAll removed keys)
      r.held := by
  induction keys generalizing r removed with
  | nil => exact ⟨h, rfl, rfl, fun _ _ => id⟩
  | cons key keys ih =>
    rw [removeAll]
    cases hget : r.assemblies.get? key with
    | none =>
      rw [removeAssembly, hget]
      exact ih h removed
    | some a =>
      refine Ensures.bind (removeAssembly_ensures h hget) ?_
      rintro _ _ ⟨rfl, rfl⟩
      refine (ih (h.forget hget) _).mono fun result held hresult => ?_
      exact ⟨hresult.inOrder, hresult.held, hresult.config,
        fun j b hj => get?_of_erase (hresult.kept j b hj)⟩

theorem expire_ensures (now : Instant) :
    Ensures limit (fun result held => Removal r result.2 held) (r.expire now) r.held :=
  removeAll_ensures h _ _

theorem discardSession_ensures (session : K) :
    Ensures limit (fun result held => Removal r result.2 held) (r.discardSession session) r.held :=
  removeAll_ensures h _ _

theorem drop_ensures : Ensures limit (fun _ held => ∀ c, held c = 0) r.drop r.held := by
  -- what is held is what the assemblies still to be released take
  have hloop : Ensures limit (fun _ held => _) r.drop r.held := Ensures.forM
    (fun (rest : List (FragmentKey K × Assembly)) held =>
      (∀ entry ∈ rest, entry.2.InOrder r.config entry.1) ∧
      held = tally rest.length (rest.map (·.2.fragments.size)).sum (rest.map (·.2.bytes)).sum)
    ?_ ⟨fun entry hentry => h.assembly _ _ (mem_toList.mp hentry), held_eq_tally r⟩
  · refine hloop.mono ?_
    rintro _ _ ⟨-, rfl⟩ c
    cases c <;> rfl
  · rintro entry rest _ ⟨hentries, rfl⟩
    have hrelease : Ensures limit _ _ (tally (rest.length + 1) _ _) :=
      releaseAssembly_ensures (hentries entry (by simp)) rest.length
        (rest.map (·.2.fragments.size)).sum (rest.map (·.2.bytes)).sum
    rw [List.length_cons, List.map_cons, List.map_cons, List.sum_cons, List.sum_cons,
      add_comm _ (List.sum _), add_comm _ (List.sum _)]
    exact hrelease.mono fun _ _ hheld =>
      ⟨fun entry hentry => hentries entry (by simp [hentry]), hheld⟩

end

/-! ## Every call -/

/-- What a call does to the assemblies of a reassembler that stays. -/
inductive Performed (r : Socks5FragmentReassembler K) :
    Call K → FiniteMap (FragmentKey K) Assembly → Prop
  | pushed {session : K} {fragment : Socks5UdpFragment} {now : Instant}
      {result : Except Socks5FragmentError Socks5FragmentOutcome}
      {assemblies : FiniteMap (FragmentKey K) Assembly}
      (h : Pushed r ⟨session, fragment.target, fragment.port⟩ fragment now result assemblies) :
      Performed r (.push session fragment now) assemblies
  | removed {call : Call K} {assemblies : FiniteMap (FragmentKey K) Assembly}
      (h : ∀ key a, assemblies.get? key = some a → r.assemblies.get? key = some a) :
      Performed r call assemblies

/-- The reply to a call goes with what the reassembler then holds. -/
def PerformResult (r : Socks5FragmentReassembler K) (call : Call K)
    (result : Reply × Option (Socks5FragmentReassembler K)) (held : Counter → ℕ) : Prop :=
  match result.2 with
  | some r' => InOrder r' ∧ held = r'.held ∧ r'.config = r.config ∧ Performed r call r'.assemblies
  | none => ∀ c, held c = 0

/-- **Every call accounts for what it does.** -/
theorem perform_ensures (hlimit : ∀ c, limit c ≤ usizeMax) (h : InOrder r) (call : Call K) :
    Ensures limit (PerformResult r call) (r.perform call) r.held := by
  cases call with
  | push session fragment now =>
    exact Ensures.bind (push_ensures hlimit h session) fun _ _ hresult =>
      ⟨hresult.inOrder, hresult.held, hresult.config, .pushed hresult.pushed⟩
  | expire now =>
    exact Ensures.bind (expire_ensures h now) fun _ _ hresult =>
      ⟨hresult.inOrder, hresult.held, hresult.config, .removed hresult.kept⟩
  | discardSession session =>
    exact Ensures.bind (discardSession_ensures h session) fun _ _ hresult =>
      ⟨hresult.inOrder, hresult.held, hresult.config, .removed hresult.kept⟩
  | drop => exact Ensures.bind (drop_ensures h) fun _ _ hnothing => hnothing

end Calls

/-! ## The system -/

theorem limit_le_usizeMax (budget : Socks5FragmentGlobalBudget) (c : Counter) :
    budget.limit c ≤ usizeMax := by
  cases c <;> exact Nat.le_pred_of_lt (UInt64.toNat_lt _)

theorem create_eq_some {budget : Socks5FragmentGlobalBudget} {config : Socks5FragmentConfig}
    {r : Socks5FragmentReassembler K} (h : (system K budget).create config = some r) :
    validateConfig config = .ok () ∧ r = ⟨config, ∅, ∅, 0, 0⟩ := by
  simp only [system, newWithGlobalBudget] at h
  cases hconfig : validateConfig config with
  | error e =>
    rw [hconfig] at h
    cases h
  | ok u =>
    rw [hconfig, show (Except.ok u >>= fun _ => _) = _ from rfl] at h
    split at h
    · exact ⟨rfl, (Option.some.inj h).symm⟩
    · cases h

theorem inOrder_new (config : Socks5FragmentConfig) :
    InOrder (⟨config, ∅, ∅, 0, 0⟩ : Socks5FragmentReassembler K) where
  assembly _ _ hget := by cases hget
  localFragments := rfl
  localBytes := rfl
  sessions _ := rfl
  datagramsLimit _ := Nat.zero_le _
  fragmentsLimit _ := Nat.zero_le _
  bytesLimit _ := Nat.zero_le _

omit [DecidableEq K] in
theorem held_new (config : Socks5FragmentConfig) (c : Counter) :
    (⟨config, ∅, ∅, 0, 0⟩ : Socks5FragmentReassembler K).held c = 0 := by
  cases c <;> rfl

theorem sound_inOrder (budget : Socks5FragmentGlobalBudget) :
    (system K budget).Sound InOrder fun _ _ => True where
  create config r h := by
    obtain ⟨-, rfl⟩ := create_eq_some h
    exact ⟨inOrder_new config, held_new config⟩
  body r call h _ := by
    refine (perform_ensures (limit_le_usizeMax budget) h call).mono ?_
    rintro ⟨reply, r'⟩ held hresult
    cases r' with
    | none => exact hresult
    | some r' => exact ⟨hresult.1, hresult.2.1⟩

/-- **The budgets are conserved.** In every interleaving of the calls of any number of reassemblers,
the shared counters are the sums of what the reassemblers hold and stay within the limits. Between
its calls a reassembler holds what its assemblies take, and its own counters and those of its
sessions are in order; in the middle of a call it holds what it held before, with what the call has
reserved and without what it has released, and however the call ends, it ends in order. Without
reassemblers, the counters are zero. -/
theorem counters_of_run {ι : Type} [DecidableEq ι] {budget : Socks5FragmentGlobalBudget}
    {es : List (PoolEvent ι Socks5FragmentConfig (Call K) × Option Reply)}
    {p : Pool ι Counter (Socks5FragmentReassembler K) Reply}
    (hrun : Run (system K budget).Step BudgetSystem.start es p) :
    (∀ c, p.counters c = p.workers.total ((system K budget).holds c)) ∧
      (∀ c, p.counters c ≤ budget.limit c) ∧
      (∀ i r, p.workers.get? i = some (.idle r) → InOrder r) ∧
      (∀ i held call, p.workers.get? i = some (.busy held call) →
        call.Ensures budget.limit ((system K budget).Settled InOrder) held) ∧
      (p.workers = ∅ → ∀ c, p.counters c = 0) := by
  have hbalanced := BudgetSystem.balanced_of_run (sound_inOrder budget)
      (hrun.mono fun p e p' hstep => ⟨hstep, by cases e.1 <;> simp [BudgetSystem.Allows]⟩)
  refine ⟨hbalanced.counters, hbalanced.limits, fun i r hget => hbalanced.workers i _ hget,
    fun i held call hget => hbalanced.workers i _ hget, fun hempty c => ?_⟩
  rw [hbalanced.counters c, hempty]
  exact total_empty _

namespace Sample

/-- A fragment of three bytes for a loopback target. -/
def fragment (sequence : ℕ) (finalFragment : Bool) : Socks5UdpFragment :=
  ⟨sequence, finalFragment, .ip (.v4 0x7f000001), 53, [1, 2, 3]⟩

def push (sequence : ℕ) (finalFragment : Bool) : Call ℕ :=
  .push 7 (fragment sequence finalFragment) 0

end Sample

/-- Two reassemblers open an assembly each, and their reservations interleave. -/
theorem counters_of_run_interleaved :
    ∃ es, ∃ p : Pool ℕ Counter (Socks5FragmentReassembler ℕ) Reply,
      Run (system ℕ (.fromConfig {})).Step BudgetSystem.start es p ∧
        p.counters .bufferedFragments = 2 ∧ p.counters .bufferedBytes = 26 ∧
        p.workers.total ((system ℕ (.fromConfig {})).holds .bufferedBytes) = 26 := by
  have h : ∃ x ∈ perform (system ℕ (.fromConfig {})).attempt (fun _ _ => True) BudgetSystem.start
      ([.join 0 {}, .join 1 {}, .call 0 (Sample.push 1 false), .tick 0,
        .call 1 (Sample.push 1 false), .tick 1, .tick 0, .tick 1, .tick 1, .tick 0, .tick 0,
        .tick 1, .tick 1, .tick 0] : List (PoolEvent ℕ _ _)),
      x.2.counters .bufferedFragments = 2 ∧ x.2.counters .bufferedBytes = 26 := by
    decide +kernel
  obtain ⟨⟨es, p⟩, hcalls, hfragments, hbytes⟩ := h
  have hrun := (BudgetSystem.run_of_perform hcalls).mono fun _ _ _ hstep => hstep.1
  exact ⟨es, p, hrun, hfragments, hbytes, ((counters_of_run hrun).1 _).symm.trans hbytes⟩

end LinkLake.Socks5
