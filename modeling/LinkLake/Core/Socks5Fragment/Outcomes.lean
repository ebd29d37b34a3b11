import LinkLake.Core.Socks5Fragment.Calls
import LinkLake.Core.Socks5Udp
import LinkLake.Foundations.BudgetCalls

/-!
# What a reassembler delivers

`Outcome` says how a push can end (`outcome_of_push`); `Delivers` is what a push that completes a
datagram has found and put together. Over the calls of a reassembler it follows where a datagram
comes from: every stored fragment was pushed since its assembly was opened (`collected_of_run`), so
that what is delivered is one fragment for each sequence number, in order (`received_of_complete`).
Its size was counted fragment by fragment, with the envelope it will travel in, so that it can be
sent on (`reencodes_of_run`).
-/

namespace LinkLake.Socks5

open BudgetProg FiniteMap Socks5FragmentReassembler
open Udp (Instant usizeMax saturatingAdd)

variable {K : Type} [DecidableEq K] {a : Assembly} {fragment : Socks5UdpFragment}
  {r : Socks5FragmentReassembler K} {budget : Socks5FragmentGlobalBudget} {key : FragmentKey K}
  {d : Socks5UdpDatagram}

/-! ## A push that completes a datagram -/

/-- The assembly that a push finds: the one that is there, or one that it opens. -/
def Finds (r : Socks5FragmentReassembler K) (key : FragmentKey K) (fragment : Socks5UdpFragment)
    (now : Instant) (a : Assembly) : Prop :=
  r.assemblies.get? key = some a ∨ r.assemblies.get? key = none ∧ fragment.sequence = 1 ∧
    ∃ envelope, socks5UdpEnvelopeHeaderLen fragment.target = some envelope ∧
      a = .new fragment envelope now

/-- The datagram `d` is complete with a fragment: the fragments with numbers up to the final one
are there, and `d` has their bytes. -/
structure Delivers (r : Socks5FragmentReassembler K) (key : FragmentKey K)
    (fragment : Socks5UdpFragment) (now : Instant) (a : Assembly) (d : Socks5UdpDatagram) :
    Prop where
  finds : Finds r key fragment now a
  accept : a.conflict r.config.maxReorderGap.toNat fragment = .accept
  bytes : saturatingAdd a.bytes fragment.payload.length ≤ r.config.maxBytesPerDatagram.toNat
  complete : (a.store fragment now).complete = true
  whole : ∃ (last : ℕ) (payloads : List (List UInt8)),
    (a.store fragment now).finalSequence = some last ∧
    (List.range' 1 last).map ((a.store fragment now).fragments.get? ·) = payloads.map some ∧
    d = ⟨a.target, a.port, payloads.flatten⟩

/-- How a push can end, and what is then there for its key. -/
inductive Outcome (r : Socks5FragmentReassembler K) (key : FragmentKey K)
    (fragment : Socks5UdpFragment) (now : Instant) :
    Except Socks5FragmentError Socks5FragmentOutcome → Option Assembly → Prop
  /-- The fragment is a datagram of its own. -/
  | datagram {after : Option Assembly} (hzero : fragment.sequence = 0) :
      Outcome r key fragment now
        (.ok (.complete ⟨fragment.target, fragment.port, fragment.payload⟩ false)) after
  /-- The fragment is there already. -/
  | duplicate {a : Assembly} (hfinds : Finds r key fragment now a)
      (hconflict : a.conflict r.config.maxReorderGap.toNat fragment = .duplicate) :
      Outcome r key fragment now (.ok .duplicate) (some a)
  /-- The fragment is stored, and others are missing. -/
  | pending {a : Assembly} (hfinds : Finds r key fragment now a)
      (haccept : a.conflict r.config.maxReorderGap.toNat fragment = .accept)
      (hopen : (a.store fragment now).complete = false) :
      Outcome r key fragment now (.ok .pending) (some (a.store fragment now))
  /-- The fragment was the last one missing. -/
  | complete {a : Assembly} {d : Socks5UdpDatagram} (hdelivers : Delivers r key fragment now a d) :
      Outcome r key fragment now (.ok (.complete d true)) none
  | failed {after : Option Assembly} (e : Socks5FragmentError) :
      Outcome r key fragment now (.error e) after

section Push

variable {r1 r' : Socks5FragmentReassembler K} {session : K} {now : Instant} {created : Bool}
  {result : Except Socks5FragmentError Socks5FragmentOutcome}

theorem yields_reserveNewAssembly {envelope : ℕ}
    (h : Yields (r.reserveNewAssembly session envelope) (.ok r')) :
    r'.assemblies = r.assemblies ∧ r'.config = r.config := by
  rw [reserveNewAssembly] at h
  split_ifs at h
  · cases h
  · cases h
  · cases h
  · obtain ⟨granted, -, h⟩ := yields_bind.mp h
    split_ifs at h
    · obtain ⟨granted, -, h⟩ := yields_bind.mp h
      split_ifs at h
      · obtain rfl := Except.ok.inj (yields_pure.mp h)
        exact ⟨rfl, rfl⟩
      · obtain ⟨_, -, h⟩ := yields_bind.mp h
        cases h
    · cases h

theorem yields_reserveFragment {n : ℕ} (h : Yields (r.reserveFragment session key n) (.ok r')) :
    ∃ a, r.assemblies.get? key = some a ∧ r'.assemblies = r.assemblies ∧ r'.config = r.config ∧
      saturatingAdd a.bytes n ≤ r.config.maxBytesPerDatagram.toNat := by
  rw [reserveFragment] at h
  obtain ⟨a, hget, h⟩ := yields_expect_bind.mp h
  split_ifs at h with hsize hbytes hfragments hsession
  · cases h
  · cases h
  · cases h
  · cases h
  · obtain ⟨granted, -, h⟩ := yields_bind.mp h
    cases granted with
    | error e => cases h
    | ok u =>
      obtain ⟨usage, -, h⟩ := yields_expect_bind.mp h
      obtain rfl := Except.ok.inj (yields_pure.mp h)
      exact ⟨a, hget, rfl, rfl, by omega⟩

theorem yields_removeAssembly {removed : Option Assembly × Socks5FragmentReassembler K}
    (h : Yields (r.removeAssembly key) removed) :
    removed.1 = r.assemblies.get? key ∧ removed.2.assemblies.get? key = none := by
  rw [removeAssembly] at h
  split at h
  · rename_i hget
    obtain rfl := yields_pure.mp h
    exact ⟨hget.symm, hget⟩
  · rename_i a hget
    obtain ⟨-, -, h⟩ := yields_bind.mp h
    obtain rfl := yields_pure.mp h
    exact ⟨hget.symm, get?_erase_self _ _⟩

theorem yields_deliver (h : Yields (r.deliver key) (result, r'))
    (hget : r.assemblies.get? key = some a) :
    r'.assemblies.get? key = none ∧ ∃ (last : ℕ) (payloads : List (List UInt8)),
      a.finalSequence = some last ∧
      (List.range' 1 last).map (a.fragments.get? ·) = payloads.map some ∧
      result = .ok (.complete ⟨a.target, a.port, payloads.flatten⟩ true) := by
  rw [deliver] at h
  obtain ⟨removed, hremoved, h⟩ := yields_bind.mp h
  obtain ⟨hfirst, hgone⟩ := yields_removeAssembly hremoved
  obtain ⟨b, hb, h⟩ := yields_expect_bind.mp h
  obtain rfl : a = b := Option.some.inj (hget.symm.trans (hfirst.symm.trans hb))
  obtain ⟨last, hlast, h⟩ := yields_expect_bind.mp h
  obtain ⟨payloads, hpayloads, h⟩ := yields_bind.mp h
  obtain ⟨hresult, rfl⟩ := Prod.mk.inj (yields_pure.mp h)
  exact ⟨hgone, last, payloads, hlast, yields_mapM_expect.mp hpayloads, hresult.symm⟩

theorem outcome_of_pushInto (hconfig : r1.config = r.config)
    (hget : r1.assemblies.get? key = some a) (hfinds : Finds r key fragment now a)
    (h : Yields (r1.pushInto session key fragment now created) (result, r')) :
    Outcome r key fragment now result (r'.assemblies.get? key) := by
  rw [pushInto, hconfig] at h
  obtain ⟨b, hb, h⟩ := yields_expect_bind.mp h
  obtain rfl : a = b := Option.some.inj (hget.symm.trans hb)
  split at h
  · rename_i hconflict
    obtain ⟨rfl, rfl⟩ := Prod.mk.inj (yields_pure.mp h)
    rw [hget]
    exact .duplicate hfinds hconflict
  · obtain ⟨rfl, -⟩ := Prod.mk.inj (yields_pure.mp h)
    exact .failed _
  · obtain ⟨removed, -, h⟩ := yields_bind.mp h
    obtain ⟨rfl, -⟩ := Prod.mk.inj (yields_pure.mp h)
    exact .failed _
  · rename_i haccept
    obtain ⟨reserved, hreserved, h⟩ := yields_bind.mp h
    cases reserved with
    | error e =>
      dsimp only at h
      split at h
      · obtain ⟨removed, -, h⟩ := yields_bind.mp h
        obtain ⟨rfl, -⟩ := Prod.mk.inj (yields_pure.mp h)
        exact .failed _
      · obtain ⟨rfl, -⟩ := Prod.mk.inj (yields_pure.mp h)
        exact .failed _
    | ok r2 =>
      obtain ⟨b, hb, hassemblies, -, hbytes⟩ := yields_reserveFragment hreserved
      obtain rfl : a = b := Option.some.inj (hget.symm.trans hb)
      obtain ⟨b, hb, h⟩ := yields_expect_bind.mp h
      obtain rfl : a = b := Option.some.inj ((hassemblies ▸ hget).symm.trans hb)
      dsimp only at h
      split at h
      · rename_i hcomplete
        obtain ⟨hgone, last, payloads, hlast, hpayloads, rfl⟩ :=
          yields_deliver h (get?_insert_self _ _ _)
        rw [hgone]
        exact .complete ⟨hfinds, haccept, hconfig ▸ hbytes, hcomplete, last, payloads, hlast,
          hpayloads, rfl⟩
      · rename_i hopen
        obtain ⟨rfl, rfl⟩ := Prod.mk.inj (yields_pure.mp h)
        dsimp only
        rw [get?_insert_self]
        exact .pending hfinds haccept (by simpa using hopen)

/-- **How a push ends.** -/
theorem outcome_of_push (h : Yields (r.push session fragment now) (result, r')) :
    Outcome r ⟨session, fragment.target, fragment.port⟩ fragment now result
      (r'.assemblies.get? ⟨session, fragment.target, fragment.port⟩) := by
  rw [push] at h
  split at h
  · rename_i hzero
    obtain ⟨rfl, -⟩ := Prod.mk.inj (yields_pure.mp h)
    exact .datagram hzero
  split at h
  · obtain ⟨rfl, -⟩ := Prod.mk.inj (yields_pure.mp h)
    exact .failed _
  dsimp only at h
  split at h
  · rename_i hmem
    obtain ⟨a, hget⟩ := mem_iff.mp hmem
    exact outcome_of_pushInto rfl hget (.inl hget) h
  rename_i hmem
  split at h
  · obtain ⟨rfl, -⟩ := Prod.mk.inj (yields_pure.mp h)
    exact .failed _
  rename_i hone
  split at h
  · obtain ⟨rfl, -⟩ := Prod.mk.inj (yields_pure.mp h)
    exact .failed _
  rename_i envelope henvelope
  obtain ⟨reserved, hreserved, h⟩ := yields_bind.mp h
  cases reserved with
  | error e =>
    obtain ⟨rfl, -⟩ := Prod.mk.inj (yields_pure.mp h)
    exact .failed _
  | ok r1 =>
    obtain ⟨-, hconfig⟩ := yields_reserveNewAssembly hreserved
    refine outcome_of_pushInto ?_ (get?_insert_self _ _ _)
      (.inr ⟨get?_eq_none.mpr hmem, not_not.mp hone, envelope, henvelope, rfl⟩) h
    exact hconfig

theorem delivers_of_push (h : Yields (r.push session fragment now) (.ok (.complete d true), r')) :
    ∃ a, Delivers r ⟨session, fragment.target, fragment.port⟩ fragment now a d := by
  generalize hafter : r'.assemblies.get? ⟨session, fragment.target, fragment.port⟩ = after
  have houtcome := outcome_of_push h
  rw [hafter] at houtcome
  cases houtcome with
  | complete hdelivers => exact ⟨_, hdelivers⟩

theorem one_le_of_push (h : Yields (r.push session fragment now) (.ok (.complete d true), r')) :
    1 ≤ fragment.sequence := by
  by_contra hzero
  rw [push, if_pos (by omega)] at h
  cases yields_pure.mp h

end Push

/-! ## Where the fragments of an assembly come from -/

/-- A call of a reassembler, among the calls of others. -/
abbrev Event (K : Type) := CallEvent Counter (Call K) Reply

/-- The event pushes the fragment for a key. -/
def Pushes (key : FragmentKey K) (fragment : Socks5UdpFragment) (e : Event K) : Prop :=
  fragment.target = key.target ∧ fragment.port = key.port ∧
    ∃ now, e.call = .push key.session fragment now

/-- Every stored fragment of the assembly was pushed by one of the events, marked as final if it
is. -/
structure MadeOf (key : FragmentKey K) (es : List (Event K)) (a : Assembly) : Prop where
  stored : ∀ sequence payload, a.fragments.get? sequence = some payload →
    ∃ e ∈ es, ∃ fragment, Pushes key fragment e ∧ fragment.sequence = sequence ∧
      fragment.payload = payload ∧ fragment.finalFragment = (a.finalSequence == some sequence)
  final : ∀ last, a.finalSequence = some last → last ∈ a.fragments ∧ 1 ≤ last

omit [DecidableEq K] in
theorem MadeOf.mono {es fs : List (Event K)}
    (h : MadeOf key es a) (hsub : ∀ e ∈ es, e ∈ fs) : MadeOf key fs a where
  stored sequence payload hget := by
    obtain ⟨e, he, hfragment⟩ := h.stored sequence payload hget
    exact ⟨e, hsub e he, hfragment⟩
  final := h.final

omit [DecidableEq K] in
theorem madeOf_new (key : FragmentKey K) (fragment : Socks5UdpFragment) (envelope : ℕ)
    (now : Instant) : MadeOf key [] (.new fragment envelope now) where
  stored _ _ hget := by cases hget
  final _ hfinal := by cases hfinal

omit [DecidableEq K] in
theorem MadeOf.store {es : List (Event K)} {gap : ℕ} {e : Event K} (h : MadeOf key es a)
    (hone : 1 ≤ fragment.sequence) (haccept : a.conflict gap fragment = .accept)
    (hpush : Pushes key fragment e) (now : Instant) :
    MadeOf key (es ++ [e]) (a.store fragment now) := by
  obtain ⟨-, hnew, hlast, -⟩ := conflict_eq_accept.mp haccept
  have hfinal : (a.store fragment now).finalSequence =
      if fragment.finalFragment then some fragment.sequence else a.finalSequence := rfl
  have hget : ∀ sequence, (a.store fragment now).fragments.get? sequence =
      if sequence = fragment.sequence then some fragment.payload
      else a.fragments.get? sequence := fun sequence => get?_insert _ _ _ _
  have hnone : a.finalSequence ≠ some fragment.sequence := fun hsome =>
    get?_eq_none.mp hnew (h.final _ hsome).1
  refine ⟨fun sequence payload hstored => ?_, fun last hsome => ?_⟩
  · rw [hget] at hstored
    split at hstored
    · -- the fragment itself
      rename_i heq
      refine ⟨e, by simp, fragment, hpush, heq.symm, Option.some.inj hstored, ?_⟩
      rw [hfinal, heq]
      cases hflag : fragment.finalFragment with
      | true => simp
      | false => simpa using hnone
    · -- one that was there keeps its mark
      rename_i hne
      obtain ⟨e', he', f, hf, hsequence, hpayload, hmark⟩ := h.stored sequence payload hstored
      refine ⟨e', by simp [he'], f, hf, hsequence, hpayload, ?_⟩
      rw [hmark, hfinal]
      cases hflag : fragment.finalFragment with
      | false => rfl
      | true =>
        have hold : a.finalSequence ≠ some sequence := by
          intro hsome
          exact hne ((hlast sequence hsome).2 hflag)
        have hne' := Ne.symm hne
        simp [hold, hne']
  · rw [hfinal] at hsome
    split at hsome
    · obtain rfl := Option.some.inj hsome
      exact ⟨mem_insert.mpr (.inl rfl), hone⟩
    · obtain ⟨hmem, hle⟩ := h.final last hsome
      exact ⟨mem_insert.mpr (.inr hmem), hle⟩

/-! ## The calls of a reassembler -/

theorem push_of_pushed {call : Call K} {others : Stream' (Counter → ℕ)}
    {result : Except Socks5FragmentError Socks5FragmentOutcome}
    {next : Option (Socks5FragmentReassembler K)} {held : Counter → ℕ}
    (hexec : exec budget.limit (r.perform call) others r.held =
      some ((.pushed result, next), held)) :
    ∃ session fragment now r', call = .push session fragment now ∧ next = some r' ∧
      Yields (r.push session fragment now) (result, r') := by
  have hyields := yields_of_exec hexec
  cases call with
  | push session fragment now =>
    obtain ⟨⟨result', r'⟩, hpush, hpair⟩ := yields_bind.mp hyields
    obtain ⟨hreply, hnext⟩ := Prod.mk.inj (yields_pure.mp hpair)
    injection hreply with hreply
    exact ⟨session, fragment, now, r', rfl, hnext.symm, hreply ▸ hpush⟩
  | expire now =>
    obtain ⟨_, -, hpair⟩ := yields_bind.mp hyields
    cases hpair
  | discardSession session =>
    obtain ⟨_, -, hpair⟩ := yields_bind.mp hyields
    cases hpair
  | drop =>
    obtain ⟨_, -, hpair⟩ := yields_bind.mp hyields
    cases hpair

section Calls

variable {r0 r' : Socks5FragmentReassembler K} {e : Event K} {es : List (Event K)} {now : Instant}
  {session : K}

theorem performed_of_step (h : InOrder r) (hstep : (system K budget).CallStep r e r') :
    InOrder r' ∧ r'.config = r.config ∧ Performed r e.call r'.assemblies := by
  obtain ⟨held, hexec⟩ := hstep
  have hresult := (perform_ensures (limit_le_usizeMax budget) h e.call).exec hexec
  exact ⟨hresult.1, hresult.2.2⟩

theorem pushed_of_step (h : InOrder r) (hstep : (system K budget).CallStep r e r')
    (hcall : e.call = .push session fragment now) :
    ∃ result, e.reply = .pushed result ∧ InOrder r' ∧ r'.config = r.config ∧
      Pushed r ⟨session, fragment.target, fragment.port⟩ fragment now result r'.assemblies ∧
      Outcome r ⟨session, fragment.target, fragment.port⟩ fragment now result
        (r'.assemblies.get? ⟨session, fragment.target, fragment.port⟩) := by
  obtain ⟨held, hexec⟩ := hstep
  have hensures : Ensures budget.limit (fun (result : Reply × Option _) _ => ∃ outcome r'',
      result = (.pushed outcome, some r'') ∧ InOrder r'' ∧ r''.config = r.config ∧
        Pushed r ⟨session, fragment.target, fragment.port⟩ fragment now outcome r''.assemblies)
      (r.perform e.call) r.held := by
    rw [hcall]
    exact Ensures.bind (push_ensures (limit_le_usizeMax budget) h session) fun result _ hresult =>
      ⟨result.1, result.2, rfl, hresult.inOrder, hresult.config, hresult.pushed⟩
  obtain ⟨result, r'', hpair, hr', hconfig, hpushed⟩ := hensures.exec hexec
  obtain ⟨hreply, hnext⟩ := Prod.mk.inj hpair
  cases hnext
  obtain ⟨session', fragment', now', r'', hcall', hnext', hyields⟩ :=
    push_of_pushed (hreply ▸ hexec)
  obtain ⟨rfl, rfl, rfl⟩ := Call.push.inj (hcall.symm.trans hcall')
  cases hnext'
  exact ⟨result, hreply, hr', hconfig, hpushed, outcome_of_push hyields⟩

/-- The assembly was opened in the course of the run, has been there since, and is made of what
was pushed since. -/
def Collected (budget : Socks5FragmentGlobalBudget) (r0 : Socks5FragmentReassembler K)
    (es : List (Event K)) (r : Socks5FragmentReassembler K) (key : FragmentKey K) (a : Assembly) :
    Prop :=
  ∃ earlier since r1, es = earlier ++ since ∧ Run (system K budget).CallStep r0 earlier r1 ∧
    r1.assemblies.get? key = none ∧
    Run (fun s e s' => (system K budget).CallStep s e s' ∧ key ∈ s'.assemblies) r1 since r ∧
    MadeOf key since a

theorem Collected.extend {a b : Assembly} (h : Collected budget r0 es r key a)
    (hstep : (system K budget).CallStep r e r') (hget : r'.assemblies.get? key = some b)
    (hb : ∀ since, MadeOf key since a → MadeOf key (since ++ [e]) b) :
    Collected budget r0 (es ++ [e]) r' key b := by
  obtain ⟨earlier, since, r1, rfl, hearlier, hnone, hsince, hmade⟩ := h
  exact ⟨earlier, since ++ [e], r1, by simp, hearlier, hnone,
    hsince.snoc ⟨hstep, mem_of_get? hget⟩, hb since hmade⟩

/-- **Every assembly is made of what was pushed since it was opened.** -/
theorem collected_of_run (h0 : InOrder r0) (hempty : r0.assemblies = ∅)
    (hrun : Run (system K budget).CallStep r0 es r) :
    InOrder r ∧ r.config = r0.config ∧
      ∀ key a, r.assemblies.get? key = some a → Collected budget r0 es r key a := by
  refine hrun.history (I := fun es r => InOrder r ∧ r.config = r0.config ∧
    ∀ key a, r.assemblies.get? key = some a → Collected budget r0 es r key a)
    ⟨h0, rfl, fun key a hget => ?_⟩ ?_
  · rw [hempty] at hget
    cases hget
  rintro past s e s' hpast - ⟨hs, hconfig, hall⟩ hstep
  obtain ⟨hs', hconfig', hperformed⟩ := performed_of_step hs hstep
  refine ⟨hs', hconfig'.trans hconfig, fun key a hget => ?_⟩
  have hkept : s.assemblies.get? key = some a → Collected budget r0 (past ++ [e]) s' key a :=
    fun hbefore => (hall key a hbefore).extend hstep hget fun since hmade =>
      hmade.mono fun _ he => by simp [he]
  generalize hcall : e.call = call at hperformed
  cases hperformed with
  | removed hall => exact hkept (hall key a hget)
  | @pushed session fragment now result assemblies hpushed =>
    cases hpushed with
    | kept _ hsame => exact hkept (hsame key ▸ hget)
    | removed _ hsame =>
      rw [hsame] at hget
      split at hget
      · cases hget
      · exact hkept hget
    | @stored a1 _ ha hone hmax haccept hopen hsame =>
      have hget' := hget
      rw [hsame] at hget'
      split at hget'
      · -- the fragment goes to this assembly
        rename_i heq
        cases hget'
        have hpushes : Pushes key fragment e := by
          rw [heq]
          exact ⟨rfl, rfl, now, hcall⟩
        rw [← heq] at ha
        rcases ha with hold | ⟨hnone, -, envelope, rfl⟩
        · exact (hall key _ hold).extend hstep hget fun since hmade =>
            hmade.store hone haccept hpushes now
        · exact ⟨past, [e], s, rfl, hpast, hnone, .single ⟨hstep, mem_of_get? hget⟩,
            (madeOf_new key fragment envelope now).store hone haccept hpushes now⟩
      · exact hkept hget'

/-- A datagram that was put together with an event has one fragment for each sequence number up to
the final one, and each was pushed since its assembly was opened. -/
def Received (budget : Socks5FragmentGlobalBudget) (r0 : Socks5FragmentReassembler K)
    (es : List (Event K)) (r : Socks5FragmentReassembler K) (session : K)
    (fragment : Socks5UdpFragment) (e : Event K) (d : Socks5UdpDatagram) : Prop :=
  ∃ earlier since r1, es = earlier ++ since ∧ Run (system K budget).CallStep r0 earlier r1 ∧
    r1.assemblies.get? ⟨session, fragment.target, fragment.port⟩ = none ∧
    Run (fun s e s' => (system K budget).CallStep s e s' ∧
      ⟨session, fragment.target, fragment.port⟩ ∈ s'.assemblies) r1 since r ∧
    ∃ (last : ℕ) (part : ℕ → Socks5UdpFragment), 1 ≤ last ∧
      (∀ sequence, 1 ≤ sequence → sequence ≤ last →
        (part sequence).sequence = sequence ∧
        (part sequence).finalFragment = decide (sequence = last) ∧
        ∃ e' ∈ since ++ [e], Pushes ⟨session, fragment.target, fragment.port⟩
          (part sequence) e') ∧
      d = ⟨fragment.target, fragment.port,
        ((List.range' 1 last).map fun sequence => (part sequence).payload).flatten⟩

/-- **What is delivered was received.** -/
theorem received_of_complete (h0 : InOrder r0) (hempty : r0.assemblies = ∅)
    (hrun : Run (system K budget).CallStep r0 es r) {result : Socks5FragmentReassembler K}
    (hcall : e.call = .push session fragment now)
    (hyields : Yields (r.push session fragment now) (.ok (.complete d true), result)) :
    Received budget r0 es r session fragment e d := by
  obtain ⟨hr, -, hall⟩ := collected_of_run h0 hempty hrun
  obtain ⟨a, hdelivers⟩ := delivers_of_push hyields
  have hone := one_le_of_push hyields
  have hpushes : Pushes (⟨session, fragment.target, fragment.port⟩ : FragmentKey K) fragment e :=
    ⟨rfl, rfl, now, hcall⟩
  obtain ⟨last, payloads, hlast, hpayloads, rfl⟩ := hdelivers.whole
  -- the assembly with the fragment, and where it comes from
  obtain ⟨earlier, since, r1, hes, hearlier, hnone, hsince, hmade, htarget, hport⟩ :
      ∃ earlier since r1, es = earlier ++ since ∧ Run (system K budget).CallStep r0 earlier r1 ∧
        r1.assemblies.get? ⟨session, fragment.target, fragment.port⟩ = none ∧
        Run (fun s e s' => (system K budget).CallStep s e s' ∧
          ⟨session, fragment.target, fragment.port⟩ ∈ s'.assemblies) r1 since r ∧
        MadeOf ⟨session, fragment.target, fragment.port⟩ (since ++ [e]) (a.store fragment now) ∧
        a.target = fragment.target ∧ a.port = fragment.port := by
    rcases hdelivers.finds with hget | ⟨hnone, -, envelope, -, rfl⟩
    · obtain ⟨earlier, since, r1, hes, hearlier, hnone, hsince, hmade⟩ := hall _ a hget
      have ha := hr.assembly _ a hget
      exact ⟨earlier, since, r1, hes, hearlier, hnone, hsince,
        hmade.store hone hdelivers.accept hpushes now, ha.target, ha.port⟩
    · exact ⟨es, [], r, by simp, hrun, hnone, .nil r,
        (madeOf_new _ fragment envelope now).store hone hdelivers.accept hpushes now, rfl, rfl⟩
  have hparts : ∀ sequence, 1 ≤ sequence → sequence ≤ last → ∃ part : Socks5UdpFragment,
      part.sequence = sequence ∧ part.finalFragment = decide (sequence = last) ∧
      (a.store fragment now).fragments.get? sequence = some part.payload ∧
      ∃ e' ∈ since ++ [e], Pushes ⟨session, fragment.target, fragment.port⟩ part e' := by
    intro sequence hone hle
    have hmem : (a.store fragment now).fragments.get? sequence ∈ payloads.map some := by
      rw [← hpayloads]
      exact List.mem_map.mpr ⟨sequence, List.mem_range'_1.mpr ⟨hone, by omega⟩, rfl⟩
    obtain ⟨payload, -, hget⟩ := List.mem_map.mp hmem
    obtain ⟨e', he', part, hpart, hsequence, hpayload, hmark⟩ := hmade.stored _ _ hget.symm
    refine ⟨part, hsequence, ?_, by rw [hpayload]; exact hget.symm, e', he', hpart⟩
    rw [hmark, hlast, Bool.eq_iff_iff, beq_iff_eq, decide_eq_true_iff, Option.some.injEq]
    exact eq_comm
  have : Nonempty Socks5UdpFragment := ⟨fragment⟩
  choose! part hpart using hparts
  refine ⟨earlier, since, r1, hes, hearlier, hnone, hsince, last, part, (hmade.final last hlast).2,
    ?_, ?_⟩
  · intro sequence hone hle
    obtain ⟨hsequence, hmark, -, hpushed⟩ := hpart sequence hone hle
    exact ⟨hsequence, hmark, hpushed⟩
  · have hsame : payloads = (List.range' 1 last).map fun sequence => (part sequence).payload := by
      apply (List.map_injective_iff.mpr (Option.some_injective _))
      rw [← hpayloads, List.map_map]
      apply List.map_congr_left
      intro sequence hsequence
      have hrange := List.mem_range'_1.mp hsequence
      exact (hpart sequence hrange.1 (by omega)).2.2.1
    rw [htarget, hport, hsame]

end Calls

/-! ## Sending on what was put together -/

theorem weight_of_finds {session : K} {now : Instant} (hr : InOrder r)
    (h : Finds r ⟨session, fragment.target, fragment.port⟩ fragment now a) :
    a.target = fragment.target ∧ a.port = fragment.port ∧
      ∃ envelope, socks5UdpEnvelopeHeaderLen fragment.target = some envelope ∧
        a.bytes = envelope + a.fragments.total List.length := by
  rcases h with hget | ⟨-, -, envelope, henvelope, rfl⟩
  · have ha := hr.assembly _ a hget
    obtain ⟨envelope, henvelope, hbytes⟩ := ha.bytes
    rw [ha.target] at henvelope
    exact ⟨ha.target, ha.port, envelope, henvelope, by rw [hbytes, ha.payload]⟩
  · exact ⟨rfl, rfl, envelope, henvelope, rfl⟩

theorem Delivers.length_le {session : K} {now : Instant}
    (hr : InOrder r) (h : Delivers r ⟨session, fragment.target, fragment.port⟩ fragment now a d)
    (hlimit : r.config.maxBytesPerDatagram.toNat < usizeMax) :
    d.target = fragment.target ∧ d.port = fragment.port ∧
      ∃ envelope, socks5UdpEnvelopeHeaderLen fragment.target = some envelope ∧
        envelope + d.payload.length ≤ r.config.maxBytesPerDatagram.toNat := by
  obtain ⟨htarget, hport, envelope, henvelope, hbytes⟩ := weight_of_finds hr h.finds
  obtain ⟨last, payloads, -, hpayloads, rfl⟩ := h.whole
  refine ⟨htarget, hport, envelope, henvelope, ?_⟩
  have hnew := (conflict_eq_accept.mp h.accept).2.1
  have htotal : (a.store fragment now).fragments.total List.length =
      a.fragments.total List.length + fragment.payload.length :=
    total_insert_new List.length hnew fragment.payload
  have hsum := sum_le_total List.length List.nodup_range' hpayloads
  have hsaturating := h.bytes
  rw [saturatingAdd] at hsaturating
  rw [List.length_flatten]
  omega

/-- The fragment comes from the wire. -/
def FromWire : Call K → Prop
  | .push _ fragment _ => ∃ bytes, Accepts (decodeSocks5UdpFragment bytes) fragment
  | _ => True

instance (call : Call K) : Decidable (FromWire call) :=
  match call with
  | .push _ _ _ => decidable_of_iff _ exists_accepts_iff.symm
  | .expire _ | .discardSession _ | .drop => .isTrue trivial

theorem maxBytes_of_validateConfig {config : Socks5FragmentConfig}
    (h : validateConfig config = .ok ()) :
    config.maxBytesPerDatagram.toNat ≤ Udp.maxUdpDatagramBytes := by
  rw [validateConfig] at h
  split_ifs at h with hzero hshort hlimits
  simp only [not_or, not_lt] at hlimits
  exact hlimits.2.2.2.1

theorem inOrder_of_called {allowed : Socks5FragmentReassembler K → Call K → Prop}
    (h : (system K budget).Called allowed r) : InOrder r ∧ validateConfig r.config = .ok () := by
  obtain ⟨config, r0, es, hcreate, hrun⟩ := h
  obtain ⟨hvalid, rfl⟩ := create_eq_some hcreate
  have hall := collected_of_run (inOrder_new config) rfl (hrun.mono fun _ _ _ hstep => hstep.1)
  exact ⟨hall.1, hall.2.1 ▸ hvalid⟩

/-- **A datagram that was put together can be sent on.** In every interleaving of reassemblers that
are given fragments from the wire, a datagram delivered by one of them is encoded within its limit
of a datagram, and decoded to itself. -/
theorem reencodes_of_run {ι : Type} [DecidableEq ι] {budget : Socks5FragmentGlobalBudget}
    {es : List (PoolEvent ι Socks5FragmentConfig (Call K) × Option Reply)}
    {p p' : Pool ι Counter (Socks5FragmentReassembler K) Reply}
    (hrun : Run (fun p e p' => (system K budget).Step p e p' ∧
      BudgetSystem.Allows (fun _ call => FromWire call) p e.1) BudgetSystem.start es p)
    {i : ι} {d : Socks5UdpDatagram}
    (hstep : (system K budget).Step p (.tick i, some (.pushed (.ok (.complete d true)))) p') :
    ∃ r encoded, p'.workers.get? i = some (.idle r) ∧ encodeSocks5UdpDatagram d = .ok encoded ∧
      encoded.length ≤ r.config.maxBytesPerDatagram.toNat ∧ encoded.length ≤ 65507 ∧
      Accepts (decodeSocks5UdpDatagram encoded) d := by
  have hsound : (system K budget).Sound InOrder fun _ call => FromWire call :=
    ⟨(sound_inOrder budget).create, fun s c hs _ => (sound_inOrder budget).body s c hs trivial⟩
  obtain ⟨r, call, others, next, held, hcalled, hwire, hexec, hget⟩ :=
    BudgetSystem.sequential_of_run hsound hrun hstep
  obtain ⟨hr, hvalid⟩ := inOrder_of_called hcalled
  obtain ⟨session, fragment, now, r', rfl, rfl, hyields⟩ := push_of_pushed hexec
  have hresult : PerformResult r (.push session fragment now) (_, some r') held :=
    (perform_ensures (limit_le_usizeMax budget) hr _).exec hexec
  obtain ⟨a, hdelivers⟩ := delivers_of_push hyields
  have hmax := maxBytes_of_validateConfig hvalid
  obtain ⟨htarget, hport, envelopeBytes, henvelope, hlength⟩ :=
    hdelivers.length_le hr (hmax.trans_lt (by decide))
  rw [← htarget] at henvelope
  obtain ⟨bytes, hbytes⟩ := hwire
  obtain ⟨-, -, -, -, -, -, hnonzero⟩ := envelope_of_decode hbytes
  rw [← hport] at hnonzero
  have hbound : Udp.maxUdpDatagramBytes = 65507 := rfl
  have hencode := encode_eq_ok.mpr ⟨envelopeBytes, henvelope, by omega, rfl⟩
  have hsize : (envelope 0 d.target d.port d.payload).length = envelopeBytes + d.payload.length :=
    length_envelope henvelope
  refine ⟨r', _, hget, hencode, ?_, by omega, decode_encode hnonzero hencode⟩
  rw [hsize, hresult.2.2.1]
  exact hlength

namespace Sample

/-- The datagram that the next step of the first reassembler delivers. -/
def delivered (p : Pool ℕ Counter (Socks5FragmentReassembler ℕ) Reply) :
    Option (Socks5UdpDatagram × Pool ℕ Counter (Socks5FragmentReassembler ℕ) Reply) :=
  match (system ℕ (.fromConfig {})).step p (.tick 0) with
  | some (some (.pushed (.ok (.complete d true))), p') => some (d, p')
  | _ => none

theorem step_of_delivered {p p' : Pool ℕ Counter (Socks5FragmentReassembler ℕ) Reply}
    (h : delivered p = some (d, p')) :
    (system ℕ (.fromConfig {})).Step p (.tick 0, some (.pushed (.ok (.complete d true)))) p' := by
  rw [delivered] at h
  split at h
  · rename_i hstep
    cases h
    exact hstep
  · cases h

end Sample

/-- Two fragments of three bytes are sent on as one datagram. -/
theorem reencodes_of_run_two : ∃ encoded,
    encodeSocks5UdpDatagram ⟨.ip (.v4 0x7f000001), 53, [1, 2, 3, 1, 2, 3]⟩ = .ok encoded ∧
      encoded.length ≤ 65507 ∧ Accepts (decodeSocks5UdpDatagram encoded)
        ⟨.ip (.v4 0x7f000001), 53, [1, 2, 3, 1, 2, 3]⟩ := by
  have h : ∃ x ∈ perform (system ℕ (.fromConfig {})).attempt
      (fun p e => BudgetSystem.Allows (fun _ call => FromWire call) p e.1) BudgetSystem.start
      (.join 0 {} :: .call 0 (Sample.push 1 false) :: List.replicate 5 (.tick 0) ++
        .call 0 (Sample.push 2 true) :: List.replicate 8 (.tick 0) : List (PoolEvent ℕ _ _)),
      ∃ y ∈ Sample.delivered x.2, y.1 = ⟨.ip (.v4 0x7f000001), 53, [1, 2, 3, 1, 2, 3]⟩ := by
    decide +kernel
  obtain ⟨⟨es, p⟩, hcalls, ⟨d, p'⟩, hdelivered, rfl⟩ := h
  obtain ⟨_, encoded, _, hencode, _, hlength, hdecode⟩ :=
    reencodes_of_run (BudgetSystem.run_of_perform hcalls) (Sample.step_of_delivered hdelivered)
  exact ⟨encoded, hencode, hlength, hdecode⟩

end LinkLake.Socks5
