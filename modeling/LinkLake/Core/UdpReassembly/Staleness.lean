import LinkLake.Core.UdpReassembly.Delivered

/-!
# How stale the reassembler can be

Cleanups are throttled: one that comes within 100 ms of the last one does nothing. So a datagram
in progress can outlive its timeout, and a delivery its retention, but by less than that interval.
The argument keeps track of the last cleanup that was not throttled (`Timed`): what it left behind
had not expired then, what came later is younger than it, and the next one is at most 100 ms away.
For the deliveries this rests on the order of the queue, where the loop of the cleanup stops at
the first one that has not expired.

* `OpenedBy`, `DeliveredBy`: the push that opened a datagram in progress, or delivered a
  remembered one, found in the run;
* `staleness_of_run`: the bounds on both.
-/

namespace LinkLake.Udp

open Fallible FiniteMap UdpReassembler

/-! ## Where the times come from -/

/-- The datagram in progress under a key was opened by a push at time `t`, which found none there
after its cleanup, and has been in progress since. -/
def OpenedBy (key : DatagramKey) (t : Instant) :
    UdpReassembler → List (Call × Reply) → UdpReassembler → Prop :=
  HeldSince Step
    (fun r e => ∃ fragment reply, e = (.push fragment t, reply) ∧ fragment.key = key ∧
      ∀ x r1, r.expire t = .ok (x, r1) → key ∉ r1.partials)
    (fun r => ∃ d, r.partials.get? key = some d ∧ d.startedAt = t)

/-- The datagram of a key was delivered by a push at time `t`, and has been remembered since. -/
def DeliveredBy (key : DatagramKey) (t : Instant) :
    UdpReassembler → List (Call × Reply) → UdpReassembler → Prop :=
  HeldSince Step (fun _ e => delivery e = some (key, t)) (fun r => r.completed.get? key = some t)

namespace UdpReassembler

variable {r r' : UdpReassembler} {key k : DatagramKey} {fragment : UdpFragment} {now : Instant}
  {result : Except UdpReassemblyError UdpReassemblyOutcome} {d : PartialDatagram}

theorem Opened.startedAt {r1 : UdpReassembler} (h : Opened r fragment now r1 d) :
    r.partials.get? fragment.key = some d ∨ d.startedAt = now ∧ fragment.key ∉ r.partials := by
  cases h with
  | existing h => exact .inl h
  | fresh hnew => exact .inr ⟨rfl, hnew⟩

variable {d' : PartialDatagram}

theorem AcceptStep.lookup (h : AcceptStep r fragment now result r')
    (hd' : r'.partials.get? k = some d') :
    (∃ d, r.partials.get? k = some d ∧ d.startedAt = d'.startedAt) ∨
      (k = fragment.key ∧ d'.startedAt = now ∧ fragment.key ∉ r.partials) := by
  by_cases hne : k = fragment.key
  · subst hne
    have hopened : ∀ {r1 d}, Opened r fragment now r1 d → d.startedAt = d'.startedAt →
        (∃ d, r.partials.get? fragment.key = some d ∧ d.startedAt = d'.startedAt) ∨
          (fragment.key = fragment.key ∧ d'.startedAt = now ∧ fragment.key ∉ r.partials) :=
      fun {r1 d} hopen hd => by
        rcases hopen.startedAt with hold | ⟨hnow, hnew⟩
        · exact .inl ⟨d, hold, hd⟩
        · exact .inr ⟨rfl, hd.symm.trans hnow, hnew⟩
    cases h with
    | remembered => exact .inl ⟨d', hd', rfl⟩
    | empty => exact .inl ⟨d', hd', rfl⟩
    | limited => exact .inl ⟨d', hd', rfl⟩
    | failed _ _ hopen _ hremove =>
      rw [(removePartial_spec hremove).2.1, get?_erase_self] at hd'
      cases hd'
    | repeated _ _ hopen =>
      rw [hopen.lookup] at hd'
      cases hd'
      exact hopened hopen rfl
    | pending _ _ hopen hoffer =>
      rw [get?_insert_self] at hd'
      cases hd'
      exact hopened hopen (by rw [(offer_filled hoffer).result])
    | mismatched _ _ _ _ _ hremove =>
      rw [(removePartial_spec hremove).2.1, get?_erase_self] at hd'
      cases hd'
    | completed _ _ _ _ _ hremove =>
      rw [rememberCompleted_partials, (removePartial_spec hremove).2.1, get?_erase_self] at hd'
      cases hd'
  · rw [h.lookup_of_ne hne] at hd'
    exact .inl ⟨d', hd', rfl⟩

variable {t : Instant}

theorem lookup_rememberCompleted (h : (r.rememberCompleted key now).completed.get? k = some t) :
    r.completed.get? k = some t ∨ k = key ∧ t = now := by
  obtain ⟨order, completed, hr⟩ := rememberCompleted_spec r key now
  rw [hr.map, get?_insert] at h
  split_ifs at h with hk
  · exact .inr ⟨hk, (Option.some.inj h).symm⟩
  · exact .inl (hr.forgets.lookup k t h)

end UdpReassembler

variable {r r' r0 : UdpReassembler} {e : Call × Reply} {k : DatagramKey} {duration now t : ℕ}
  {config : UdpReassemblyConfig} {es : List (Call × Reply)} {d d' : PartialDatagram}

theorem Step.lookup_partial (hstep : Step r e r') (hd' : r'.partials.get? k = some d') :
    (∃ d, r.partials.get? k = some d ∧ d.startedAt = d'.startedAt) ∨
      ∃ fragment reply, e = (.push fragment d'.startedAt, reply) ∧ fragment.key = k ∧
        ∀ x r1, r.expire d'.startedAt = .ok (x, r1) → k ∉ r1.partials := by
  rcases hstep.cases with ⟨fragment, now, result, rfl, hpush⟩ | ⟨now, x, rfl, hexpire⟩ |
    ⟨sessionId, x, rfl, hdiscard⟩
  · rcases push_cases hpush with ⟨_, -, -, rfl⟩ | ⟨-, x, r1, hexpire, haccept⟩
    · exact .inl ⟨d', hd', rfl⟩
    · rcases haccept.lookup hd' with ⟨d, hd, hstarted⟩ | ⟨rfl, rfl, hnew⟩
      · exact .inl ⟨d, expire_lookup hexpire hd, hstarted⟩
      · refine .inr ⟨fragment, _, rfl, rfl, fun x' r1' hexpire' => ?_⟩
        obtain ⟨-, rfl⟩ := Prod.mk.inj (Except.ok.inj (hexpire.symm.trans hexpire'))
        exact hnew
  · exact .inl ⟨d', expire_lookup hexpire hd', rfl⟩
  · rw [(discardSession_spec hdiscard).partials] at hd'
    split_ifs at hd'
    exact .inl ⟨d', hd', rfl⟩

theorem Step.lookup_completed (hstep : Step r e r') (ht : r'.completed.get? k = some t) :
    r.completed.get? k = some t ∨ delivery e = some (k, t) := by
  rcases hstep.cases with ⟨fragment, now, result, rfl, hpush⟩ | ⟨now, x, rfl, hexpire⟩ |
    ⟨sessionId, x, rfl, hdiscard⟩
  · obtain ⟨r1, hforgets, -, ⟨hsame, -⟩ | ⟨r2, hdelivery, hsame, rfl⟩⟩ :=
      push_memory hpush
    · rw [hsame.completed] at ht
      exact .inl (hforgets.lookup k t ht)
    · rcases lookup_rememberCompleted ht with ht | ⟨rfl, rfl⟩
      · rw [hsame.completed] at ht
        exact .inl (hforgets.lookup k t ht)
      · exact .inr hdelivery
  · exact .inl ((expire_forgets hexpire).1.lookup k t ht)
  · exact .inl ((discardSession_spec hdiscard).lookup ht)

theorem openedBy_of_run (hnew : new config = .ok r0) (hrun : Run Step r0 es r)
    (hd : r.partials.get? k = some d) : OpenedBy k d.startedAt r0 es r := by
  revert d
  refine hrun.history (I := fun past r => ∀ {d : PartialDatagram}, r.partials.get? k = some d →
    OpenedBy k d.startedAt r0 past r) ?_ ?_
  · intro d hd
    simp only [new] at hnew
    split_ifs at hnew
    cases hnew
    simp at hd
  · intro past r e r' hpast _ ih hstep d' hd'
    rcases hstep.lookup_partial hd' with ⟨d, hd, hstarted⟩ | hopens
    · have hsince := ih hd
      rw [hstarted] at hsince
      exact hsince.extend hstep ⟨d', hd', rfl⟩
    · exact .begin hpast hstep hopens ⟨d', hd', rfl⟩

theorem deliveredBy_of_run (hnew : new config = .ok r0) (hrun : Run Step r0 es r)
    (ht : r.completed.get? k = some t) : DeliveredBy k t r0 es r := by
  revert ht
  refine hrun.history (I := fun past r => r.completed.get? k = some t →
    DeliveredBy k t r0 past r) ?_ ?_
  · intro ht
    simp only [new] at hnew
    split_ifs at hnew
    cases hnew
    simp at ht
  · intro past r e r' hpast _ ih hstep ht
    rcases hstep.lookup_completed ht with ht1 | hdelivery
    · exact (ih ht1).extend hstep ht
    · exact .begin hpast hstep hdelivery ht

/-! ## The last cleanup -/

theorem elapsedAtLeast_eq_false : elapsedAtLeast now t duration = false ↔ now - t < duration := by
  simp [elapsedAtLeast]

/-- What happened at `t` had not expired at the cleanup `c`, or came after it. -/
def Young (c duration t : ℕ) : Prop := c ≤ t ∨ c < t + duration

theorem young_of_not_elapsed (h : elapsedAtLeast now t duration = false) :
    Young now duration t := by
  rw [elapsedAtLeast_eq_false] at h
  unfold Young
  omega

theorem elapsedAtLeast_mono {t' : ℕ} (h : elapsedAtLeast now t duration = false) (hle : t ≤ t') :
    elapsedAtLeast now t' duration = false := by
  rw [elapsedAtLeast_eq_false] at h ⊢
  omega

theorem Young.lt {c interval : ℕ} (h : Young c duration t) (hnow : now < c + interval) :
    now < t + duration + interval := by
  unfold Young at h
  omega

namespace UdpReassembler

variable {key : DatagramKey} {fragment : UdpFragment} {c t now : Instant}
  {result : Except UdpReassemblyError UdpReassemblyOutcome} {x : UdpReassemblyExpiration}

/-- The last cleanup that was not throttled was at `c`, and everything is young at it. -/
structure Cleaned (c now : Instant) (r : UdpReassembler) : Prop where
  le : c ≤ now
  next : r.nextCleanupAt = some (c + reassemblyCleanupInterval)
  partials : ∀ k d, r.partials.get? k = some d → Young c r.config.timeout d.startedAt
  completed : ∀ k t, r.completed.get? k = some t → Young c r.config.completedRetention t

/-- The queue is in the order of time, up to the present. -/
structure InOrder (now : Instant) (r : UdpReassembler) : Prop where
  sorted : r.completedOrder.Pairwise fun a b => a.2 ≤ b.2
  queued : ∀ entry ∈ r.completedOrder, entry.2 ≤ now

/-- The state as of `now`: before the first cleanup there is nothing, and from then on everything
is young at the last one. -/
structure Timed (now : Instant) (r : UdpReassembler) : Prop where
  inOrder : InOrder now r
  cleaned : (r.nextCleanupAt = none ∧ (∀ k, r.partials.get? k = none) ∧
      ∀ k, r.completed.get? k = none) ∨ ∃ c, Cleaned c now r

theorem InOrder.mono (h : InOrder t r) (hle : t ≤ now) : InOrder now r :=
  ⟨h.sorted, fun entry hentry => (h.queued entry hentry).trans hle⟩

theorem Timed.mono (h : Timed t r) (hle : t ≤ now) : Timed now r := by
  refine ⟨h.inOrder.mono hle, h.cleaned.imp_right ?_⟩
  rintro ⟨c, hc⟩
  exact ⟨c, hc.le.trans hle, hc.next, hc.partials, hc.completed⟩

theorem InOrder.suffix (h : InOrder now r) (hs : r'.completedOrder <:+ r.completedOrder) :
    InOrder now r' :=
  ⟨h.sorted.sublist hs.sublist, fun entry hentry => h.queued entry (hs.subset hentry)⟩

theorem InOrder.remember (h : InOrder now r) : InOrder now (r.rememberCompleted key now) := by
  obtain ⟨order, completed, hr⟩ := rememberCompleted_spec r key now
  have hold : ∀ entry ∈ order, entry.2 ≤ now := fun entry hentry =>
    h.queued entry (hr.forgets.suffix.subset hentry)
  have hsorted : (order ++ [(key, now)]).Pairwise fun a b => a.2 ≤ b.2 := by
    refine List.pairwise_append.mpr ⟨h.sorted.sublist hr.forgets.suffix.sublist,
      List.pairwise_singleton _ _, fun a ha b hb => ?_⟩
    obtain rfl := List.mem_singleton.mp hb
    exact hold a ha
  have hqueued : ∀ entry ∈ order ++ [(key, now)], entry.2 ≤ now := by
    intro entry hentry
    rcases List.mem_append.mp hentry with hentry | hentry
    · exact hold entry hentry
    · obtain rfl := List.mem_singleton.mp hentry
      exact le_rfl
  rcases hr.queue with ⟨hqueue, -⟩ | hqueue
  · refine ⟨?_, ?_⟩ <;> rw [hqueue]
    · exact hsorted
    · exact hqueued
  · refine ⟨?_, ?_⟩ <;> rw [hqueue]
    · exact hsorted.sublist List.filter_sublist
    · exact fun entry hentry => hqueued entry (List.mem_filter.mp hentry).1

theorem Timed.expire (h : Timed t r) (hle : t ≤ now) (hr : r.Remembered)
    (hexpire : r.expire now = .ok (x, r')) :
    InOrder now r' ∧ ∃ c, Cleaned c now r' ∧ now < c + reassemblyCleanupInterval := by
  refine ⟨(h.inOrder.mono hle).suffix (expire_forgets hexpire).1.suffix, ?_⟩
  rcases expire_cases hexpire with ⟨rfl, deadline, hnext, hlt⟩ | ⟨-, hexpired⟩
  · rcases (h.mono hle).cleaned with ⟨hnone, -⟩ | ⟨c, hc⟩
    · rw [hnone] at hnext
      cases hnext
    · cases hnext.symm.trans hc.next
      exact ⟨c, hc, hlt⟩
  · refine ⟨now, ⟨le_rfl, hexpired.nextCleanupAt, fun k d hd => ?_, fun k t ht => ?_⟩, ?_⟩
    · rw [hexpired.partials] at hd
      rw [hexpired.config]
      exact young_of_not_elapsed (by simpa using (Option.filter_eq_some_iff.mp hd).2)
    · obtain ⟨count, hloop⟩ := hexpired.delivered
      have hsorted := (h.inOrder.suffix (expire_forgets hexpire).1.suffix).sorted
      have hmem := (expireCompleted_forgets hloop).covered hr.covered k t ht
      rw [hexpired.config]
      -- the loop stopped at a delivery that had not expired, and the later ones are younger
      cases horder : r'.completedOrder with
      | nil =>
        rw [horder] at hmem
        cases hmem
      | cons head tail =>
        rw [horder] at hmem hsorted hloop
        have hhead := expireCompleted_head hloop
        have hge : head.2 ≤ t := by
          rcases List.mem_cons.mp hmem with rfl | htail
          · exact le_rfl
          · exact (List.pairwise_cons.mp hsorted).1 _ htail
        exact young_of_not_elapsed (elapsedAtLeast_mono hhead hge)
    · exact Nat.lt_add_of_pos_right (by decide)

theorem Cleaned.accept (h : Cleaned c now r) (haccept : AcceptStep r fragment now result r') :
    Cleaned c now r' := by
  have hsame : r'.config = r.config ∧ r'.nextCleanupAt = r.nextCleanupAt := by
    rcases haccept.delivered with ⟨hsame, -⟩ | ⟨_, r1, -, -, hsame, rfl, -⟩
    · exact ⟨hsame.config, hsame.nextCleanupAt⟩
    · exact ⟨hsame.config, hsame.nextCleanupAt⟩
  refine ⟨h.le, hsame.2.trans h.next, fun k d' hd' => ?_, fun k t ht => ?_⟩
  · rw [hsame.1]
    rcases haccept.lookup hd' with ⟨d, hd, hstarted⟩ | ⟨-, hnow, -⟩
    · rw [← hstarted]
      exact h.partials k d hd
    · exact .inl (by rw [hnow]; exact h.le)
  · rw [hsame.1]
    rcases haccept.delivered with ⟨hsame', -⟩ | ⟨_, r1, -, -, hsame', rfl, -⟩
    · exact h.completed k t (by rwa [← hsame'.completed])
    · rcases lookup_rememberCompleted ht with ht | ⟨-, rfl⟩
      · exact h.completed k t (by rwa [← hsame'.completed])
      · exact .inl h.le

theorem InOrder.accept (h : InOrder now r) (haccept : AcceptStep r fragment now result r') :
    InOrder now r' := by
  rcases haccept.delivered with ⟨hsame, -⟩ | ⟨_, r1, -, -, hsame, rfl, -⟩
  · exact h.suffix (by rw [hsame.completedOrder])
  · have h1 : InOrder now r1 := h.suffix (by rw [hsame.completedOrder])
    exact h1.remember

theorem Timed.discard {sessionId : Uuid} (h : Timed now r) (hd : Discarded r sessionId r') :
    Timed now r' := by
  have hpartials : ∀ {k d}, r'.partials.get? k = some d → r.partials.get? k = some d :=
    fun {k d} hk => by
      rw [hd.partials] at hk
      split_ifs at hk
      exact hk
  refine ⟨h.inOrder.suffix (by rw [hd.completedOrder]), h.cleaned.imp ?_ ?_⟩
  · rintro ⟨hnone, hidle, hidle'⟩
    refine ⟨hd.nextCleanupAt.trans hnone, fun k => ?_, fun k => ?_⟩
    · rw [hd.partials, hidle]
      split_ifs <;> rfl
    · rw [hd.completed, hidle']
      split_ifs <;> rfl
  · rintro ⟨c, hc⟩
    refine ⟨c, hc.le, hd.nextCleanupAt.trans hc.next, fun k d hk => ?_, fun k t ht => ?_⟩
    · rw [hd.config]
      exact hc.partials k d (hpartials hk)
    · rw [hd.config]
      exact hc.completed k t (hd.lookup ht)

end UdpReassembler

section Runs

variable {t now : Instant}

theorem Step.timed (h : r.Timed t) (hr : r.Remembered) (hstep : Step r e r')
    (hle : ∀ now ∈ eventTime e, t ≤ now) : r'.Timed ((eventTime e).getD t) := by
  rcases hstep.cases with ⟨fragment, now, result, rfl, hpush⟩ | ⟨now, x, rfl, hexpire⟩ |
    ⟨sessionId, x, rfl, hdiscard⟩
  · have hle : t ≤ now := hle now rfl
    rcases push_cases hpush with ⟨_, -, -, rfl⟩ | ⟨-, x, r1, hexpire, haccept⟩
    · exact h.mono hle
    · obtain ⟨horder, c, hc, -⟩ := h.expire hle hr hexpire
      exact ⟨horder.accept haccept, .inr ⟨c, hc.accept haccept⟩⟩
  · obtain ⟨horder, c, hc, -⟩ := h.expire (hle now rfl) hr hexpire
    exact ⟨horder, .inr ⟨c, hc⟩⟩
  · exact h.discard (discardSession_spec hdiscard)

theorem timed_of_run (hnew : new config = .ok r0) (hrun : Run Step r0 es r)
    (hclock : Clocked eventTime es) (hnow : ∀ t ∈ es.filterMap eventTime, t ≤ now) :
    r.Timed now := by
  revert now
  refine hrun.history (I := fun past r => ∀ {now : Instant},
    (∀ t ∈ past.filterMap eventTime, t ≤ now) → r.Timed now) ?_ ?_
  · intro now _
    simp only [new] at hnew
    split_ifs at hnew
    cases hnew
    exact ⟨⟨List.Pairwise.nil, fun entry hentry => absurd hentry List.not_mem_nil⟩,
      .inl ⟨rfl, fun _ => rfl, fun _ => rfl⟩⟩
  · intro past r e r' hpast hinitial ih hstep now hnow
    have hr := remembered_of_run hnew hpast
    have hpast_le : ∀ t ∈ past.filterMap eventTime, t ≤ now := fun t ht =>
      hnow t (by simp only [List.filterMap_append, List.mem_append]; exact .inl ht)
    cases he : eventTime e with
    | none =>
      have := hstep.timed (ih hpast_le) hr (by simp [he])
      rwa [he] at this
    | some present =>
      have hpresent : present ≤ now := hnow present (by simp [he])
      have hlast : ∀ t ∈ past.filterMap eventTime, t ≤ present := fun t ht =>
        (hclock.of_initial hinitial).le_last he ht
      have := hstep.timed (ih hlast) hr (by simp [he])
      rw [he] at this
      exact this.mono hpresent

theorem cleaned_of_run {x : UdpReassemblyExpiration} (hnew : new config = .ok r0)
    (hrun : Run Step r0 es r) (hclock : Clocked eventTime (es ++ [e])) (he : eventTime e = some now)
    (hexpire : r.expire now = .ok (x, r')) :
    (∀ k d, r'.partials.get? k = some d →
      now < d.startedAt + config.timeout + reassemblyCleanupInterval) ∧
    (∀ k t, r'.completed.get? k = some t →
      now < t + config.completedRetention + reassemblyCleanupInterval) := by
  have htimed := timed_of_run hnew hrun (hclock.of_initial (List.prefix_append es [e]))
    fun t ht => hclock.le_last he ht
  obtain ⟨-, c, hc, hlt⟩ := htimed.expire le_rfl (remembered_of_run hnew hrun) hexpire
  have hconfig : r'.config = config :=
    (expire_forgets hexpire).2.trans (config_of_run hnew hrun)
  refine ⟨fun k d hd => ?_, fun k t ht => ?_⟩
  · rw [← hconfig]
    exact (hc.partials k d hd).lt hlt
  · rw [← hconfig]
    exact (hc.completed k t ht).lt hlt

theorem UdpReassembler.AcceptStep.found {fragment : UdpFragment} {payload : List UInt8}
    (h : AcceptStep r fragment now (.ok (.complete payload)) r') (hvalid : ValidFragment fragment)
    (hcount : 1 < fragment.fragmentCount.toNat) :
    ∃ d, r.partials.get? fragment.key = some d := by
  cases h with
  | empty _ hlen =>
    obtain ⟨hone, -, -⟩ := hvalid.empty (by rw [hlen]; rfl)
    rw [hone] at hcount
    exact absurd hcount (by decide)
  | completed _ _ hopen hoffer hall =>
    cases hopen with
    | existing hold => exact ⟨_, hold⟩
    | fresh =>
      have hfills := offer_filled hoffer
      rw [hfills.result] at hall
      have hone : 0 + 1 = fragment.fragmentCount.toNat := hall
      omega

/-- **Nothing is stale by more than the cleanup interval.** With a clock that does not go back, a
datagram of several fragments is delivered less than the timeout and 100 ms after the push that
opened it; a fragment is a duplicate of a remembered delivery less than the retention and 100 ms
after that delivery; and no datagram that was opened longer ago than the first of these survives a
call of `expire`. -/
theorem staleness_of_run (hnew : new config = .ok r0) (hrun : Run Step r0 es r) :
    (∀ fragment now payload r', Step r (.push fragment now, .push (.ok (.complete payload))) r' →
      Clocked eventTime (es ++ [(.push fragment now, .push (.ok (.complete payload)))]) →
      1 < fragment.fragmentCount.toNat →
      ∃ t0, OpenedBy fragment.key t0 r0 es r ∧
        now < t0 + config.timeout + Duration.fromMillis 100) ∧
    (∀ fragment now r' x r1, Step r (.push fragment now, .push (.ok .duplicate)) r' →
      Clocked eventTime (es ++ [(.push fragment now, .push (.ok .duplicate))]) →
      r.expire now = .ok (x, r1) → fragment.key ∈ r1.completed →
      ∃ t0, DeliveredBy fragment.key t0 r0 es r ∧
        now < t0 + config.completedRetention + Duration.fromMillis 100) ∧
    ∀ now x r', Step r (.expire now, .expiration x) r' →
      Clocked eventTime (es ++ [(.expire now, .expiration x)]) →
      ∀ k d, r'.partials.get? k = some d →
        ∃ t0, OpenedBy k t0 r0 es r ∧ now < t0 + config.timeout + Duration.fromMillis 100 := by
  refine ⟨fun fragment now payload r' hstep hclock hcount => ?_,
    fun fragment now r' x r1 _ hclock hexpire hmem => ?_, fun now x r' hstep hclock k d hd => ?_⟩
  · obtain ⟨⟨result, r2⟩, hpush, h⟩ := bind_eq_ok.mp hstep
    obtain ⟨hresult, rfl⟩ := pair_eq_ok.mp h
    cases hresult
    rcases push_cases hpush with ⟨_, -, h, -⟩ | ⟨hvalid, x, r1, hexpire, haccept⟩
    · cases h
    · obtain ⟨d, hd⟩ := haccept.found hvalid hcount
      exact ⟨d.startedAt, openedBy_of_run hnew hrun (expire_lookup hexpire hd),
        (cleaned_of_run hnew hrun hclock rfl hexpire).1 _ d hd⟩
  · obtain ⟨t, ht⟩ := mem_iff.mp hmem
    exact ⟨t, deliveredBy_of_run hnew hrun ((expire_forgets hexpire).1.lookup _ t ht),
      (cleaned_of_run hnew hrun hclock rfl hexpire).2 _ t ht⟩
  · obtain ⟨⟨x', r2⟩, hexpire, h⟩ := bind_eq_ok.mp hstep
    cases h
    exact ⟨d.startedAt, openedBy_of_run hnew hrun (expire_lookup hexpire hd),
      (cleaned_of_run hnew hrun hclock rfl hexpire).1 k d hd⟩

end Runs

/-- The bound is tight up to the interval: this datagram is delivered 2.05 s after it was opened,
past the timeout of 2 s, because a cleanup at 1.99 s has throttled the one at 2.05 s. -/
theorem staleness_of_run_late : ∃ r0 es r r',
    new {} = .ok r0 ∧ Run Step r0 es r ∧
      es.map Prod.fst = [.push (sampleFragment 2 0 2 [10]) 0, .expire 1990000000] ∧
      Step r (.push (sampleFragment 2 1 2 [11]) 2050000000, .push (.ok (.complete [10, 11]))) r' ∧
      ∃ t0, OpenedBy (sampleFragment 2 1 2 [11]).key t0 r0 es r ∧
        2050000000 < t0 + Duration.fromSecs 2 + Duration.fromMillis 100 := by
  obtain ⟨r0, es, r, r', hnew, hcalls, hes, hstep, hclock⟩ : ∃ r0 es r r',
      new {} = .ok r0 ∧
        perform call (fun _ _ => True) r0
          [.push (sampleFragment 2 0 2 [10]) 0, .expire 1990000000] = some (es, r) ∧
        es.map Prod.fst = [.push (sampleFragment 2 0 2 [10]) 0, .expire 1990000000] ∧
        Step r (.push (sampleFragment 2 1 2 [11]) 2050000000, .push (.ok (.complete [10, 11]))) r' ∧
        Clocked eventTime (es ++ [(.push (sampleFragment 2 1 2 [11]) 2050000000,
          .push (.ok (.complete [10, 11])))]) := by
    refine ⟨_, _, _, _, rfl, rfl, rfl, rfl, ?_⟩
    decide
  obtain ⟨t0, hopened, hlt⟩ := (staleness_of_run hnew (Run.of_calls hcalls)).1 _ _ _ _ hstep
    hclock (by decide)
  exact ⟨r0, es, r, r', hnew, Run.of_calls hcalls, hes, hstep, t0, hopened, hlt⟩

end LinkLake.Udp
