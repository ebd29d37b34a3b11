import LinkLake.Core.UdpReassembly.Accounting

/-!
# The memory of delivered datagrams

Delivered datagrams are remembered in two places: a map from keys to the time of delivery, and a
queue in the order of delivery. Forgetting goes through the queue, from its front, and leaves
entries behind that the map no longer knows; an entry speaks of a remembered delivery only when
the map has its key at its time.

* `Covered`: every remembered delivery is in the queue;
* `delivered_bounded_of_run`: the map and the queue stay within their bounds, the queue provided
  that no fragment comes at the time of a forgotten delivery that waits in the queue;
* `not_both_of_run`: no datagram is delivered and in progress at once, provided that no fragment
  of an empty datagram is pushed under a key that has a datagram in progress.
-/

namespace LinkLake.Udp

open Fallible FiniteMap UdpReassembler

/-- Every remembered delivery has its entry in the queue. -/
def Covered (order : List (DatagramKey × Instant)) (completed : FiniteMap DatagramKey Instant) :
    Prop :=
  ∀ k t, completed.get? k = some t → (k, t) ∈ order

/-- What the loops over the queue have in common: they take entries from its front, and forget
only deliveries whose entries they have taken. -/
structure Forgets (order : List (DatagramKey × Instant))
    (completed : FiniteMap DatagramKey Instant) (order' : List (DatagramKey × Instant))
    (completed' : FiniteMap DatagramKey Instant) : Prop where
  suffix : order' <:+ order
  lookup : ∀ k t, completed'.get? k = some t → completed.get? k = some t
  covered : Covered order completed → Covered order' completed'

namespace Forgets

variable {order order1 order' : List (DatagramKey × Instant)}
  {completed completed1 completed' : FiniteMap DatagramKey Instant}
  {key : DatagramKey} {completedAt : Instant}

theorem refl (order : List (DatagramKey × Instant)) (completed : FiniteMap DatagramKey Instant) :
    Forgets order completed order completed :=
  ⟨List.suffix_rfl, fun _ _ h => h, id⟩

theorem trans (h : Forgets order completed order1 completed1)
    (h' : Forgets order1 completed1 order' completed') : Forgets order completed order' completed' :=
  ⟨h'.suffix.trans h.suffix, fun k t ht => h.lookup k t (h'.lookup k t ht),
    fun hc => h'.covered (h.covered hc)⟩

theorem stale (h : completed.get? key ≠ some completedAt) :
    Forgets ((key, completedAt) :: order) completed order completed := by
  refine ⟨List.suffix_cons _ _, fun _ _ ht => ht, fun hc k t ht => ?_⟩
  rcases List.mem_cons.mp (hc k t ht) with heq | hmem
  · cases heq
    exact absurd ht h
  · exact hmem

theorem taken : Forgets ((key, completedAt) :: order) completed order (completed.erase key) := by
  refine ⟨List.suffix_cons _ _, fun k t => get?_of_erase, fun hc k t ht => ?_⟩
  rw [get?_erase] at ht
  split_ifs at ht with hk
  rcases List.mem_cons.mp (hc k t ht) with heq | hmem
  · exact absurd (Prod.mk.inj heq).1 hk
  · exact hmem

end Forgets

namespace UdpReassembler

variable {r r' : UdpReassembler} {key : DatagramKey} {fragment : UdpFragment} {now : Instant}
  {order order' : List (DatagramKey × Instant)} {completed completed' : FiniteMap DatagramKey Instant}
  {count count' : ℕ} {k : DatagramKey} {retention : Duration} {t : Instant}

/-! ## The loops over the queue -/

theorem expireCompleted_forgets
    (h : expireCompleted now retention order completed count = (order', completed', count')) :
    Forgets order completed order' completed' := by
  induction order generalizing completed count with
  | nil =>
    cases h
    exact .refl _ _
  | cons entry order ih =>
    obtain ⟨key, completedAt⟩ := entry
    rw [expireCompleted] at h
    split_ifs at h with hcurrent helapsed
    · exact (Forgets.taken).trans (ih h)
    · cases h
      exact .refl _ _
    · exact (Forgets.stale hcurrent).trans (ih h)

theorem expireCompleted_head {head : DatagramKey × Instant} {tail : List (DatagramKey × Instant)}
    (h : expireCompleted now retention order completed count = (head :: tail, completed', count')) :
    elapsedAtLeast now head.2 retention = false := by
  induction order generalizing completed count with
  | nil => cases (Prod.mk.inj h).1
  | cons entry order ih =>
    obtain ⟨key, completedAt⟩ := entry
    rw [expireCompleted] at h
    split_ifs at h with hcurrent helapsed
    · exact ih h
    · obtain ⟨rfl, rfl⟩ := List.cons.inj (Prod.mk.inj h).1
      simpa using helapsed
    · exact ih h

theorem expireCompleted_lost
    (h : expireCompleted now retention order completed count = (order', completed', count'))
    (hnodup : order.Nodup) (ht : completed.get? k = some t) (hlost : completed'.get? k ≠ some t) :
    (k, t) ∉ order' := by
  induction order generalizing completed count with
  | nil =>
    cases h
    exact absurd ht hlost
  | cons entry order ih =>
    obtain ⟨key, completedAt⟩ := entry
    obtain ⟨hhead, hnodup⟩ := List.nodup_cons.mp hnodup
    rw [expireCompleted] at h
    split_ifs at h with hcurrent helapsed
    · by_cases hk : k = key
      · subst hk
        cases hcurrent.symm.trans ht
        exact fun hmem => hhead ((expireCompleted_forgets h).suffix.subset hmem)
      · exact ih h hnodup (by rwa [get?_erase_of_ne hk])
    · cases h
      exact absurd ht hlost
    · exact ih h hnodup ht

section

variable (h : evictOldestCompleted order completed = (order', completed'))
include h

theorem evictOldestCompleted_forgets : Forgets order completed order' completed' := by
  induction order with
  | nil =>
    cases h
    exact .refl _ _
  | cons entry order ih =>
    obtain ⟨key, completedAt⟩ := entry
    rw [evictOldestCompleted] at h
    split_ifs at h with hcurrent
    · cases h
      exact .taken
    · exact (Forgets.stale hcurrent).trans (ih h)

theorem evictOldestCompleted_size (hc : Covered order completed) (hpos : 0 < completed.size) :
    completed'.size + 1 = completed.size := by
  induction order with
  | nil =>
    obtain ⟨entry, hentry⟩ := List.exists_mem_of_length_pos hpos
    cases hc entry.1 entry.2 (mem_toList.mp hentry)
  | cons entry order ih =>
    obtain ⟨key, completedAt⟩ := entry
    rw [evictOldestCompleted] at h
    split_ifs at h with hcurrent
    · cases h
      exact size_erase hcurrent
    · exact ih h ((Forgets.stale hcurrent).covered hc)

end

variable {x : UdpReassemblyExpiration}

theorem expire_forgets (h : r.expire now = .ok (x, r')) :
    Forgets r.completedOrder r.completed r'.completedOrder r'.completed ∧ r'.config = r.config := by
  rcases expire_cases h with ⟨rfl, -⟩ | ⟨-, hexpired⟩
  · exact ⟨.refl _ _, rfl⟩
  · obtain ⟨count, hloop⟩ := hexpired.delivered
    exact ⟨expireCompleted_forgets hloop, hexpired.config⟩

theorem expire_lost (h : r.expire now = .ok (x, r')) (hnodup : r.completedOrder.Nodup)
    (ht : r.completed.get? k = some t) (hlost : r'.completed.get? k ≠ some t) :
    (k, t) ∉ r'.completedOrder := by
  rcases expire_cases h with ⟨rfl, -⟩ | ⟨-, hexpired⟩
  · exact absurd ht hlost
  · obtain ⟨count, hloop⟩ := hexpired.delivered
    exact expireCompleted_lost hloop hnodup ht hlost

/-- What remembering a delivery does: it forgets the oldest one if there are too many, and adds
the new one; the queue is compacted when it has grown too long. -/
structure Remembers (r : UdpReassembler) (key : DatagramKey) (now : Instant)
    (order : List (DatagramKey × Instant)) (completed : FiniteMap DatagramKey Instant) : Prop where
  forgets : Forgets r.completedOrder r.completed order completed
  room : Covered r.completedOrder r.completed → 0 < r.config.maxCompletedDatagrams →
    r.completed.size ≤ r.config.maxCompletedDatagrams →
      completed.size < r.config.maxCompletedDatagrams
  map : (r.rememberCompleted key now).completed = completed.insert key now
  queue : ((r.rememberCompleted key now).completedOrder = order ++ [(key, now)] ∧
      (order ++ [(key, now)]).length ≤ 2 * r.config.maxCompletedDatagrams) ∨
    (r.rememberCompleted key now).completedOrder =
      compactCompletedOrder (order ++ [(key, now)]) (completed.insert key now)

theorem rememberCompleted_spec (r : UdpReassembler) (key : DatagramKey) (now : Instant) :
    ∃ order completed, Remembers r key now order completed := by
  have hlength : ∀ order : List (DatagramKey × Instant),
      ¬ order.length > saturatingMul r.config.maxCompletedDatagrams 2 →
        order.length ≤ 2 * r.config.maxCompletedDatagrams := fun order h => by
    rw [saturatingMul] at h
    omega
  by_cases hfull : r.completed.size ≥ r.config.maxCompletedDatagrams
  · rcases hevict : evictOldestCompleted r.completedOrder r.completed with ⟨order, completed⟩
    refine ⟨order, completed, evictOldestCompleted_forgets hevict, fun hc hpos hle => ?_, ?_, ?_⟩
    · have := evictOldestCompleted_size hevict hc (by omega)
      omega
    · simp only [rememberCompleted, if_pos hfull, hevict]
    · simp only [rememberCompleted, if_pos hfull, hevict]
      split_ifs with hlong
      · exact .inr rfl
      · exact .inl ⟨rfl, hlength _ hlong⟩
  · refine ⟨r.completedOrder, r.completed, .refl _ _, fun _ _ _ => by omega, ?_, ?_⟩
    · simp only [rememberCompleted, if_neg hfull]
    · simp only [rememberCompleted, if_neg hfull]
      split_ifs with hlong
      · exact .inr rfl
      · exact .inl ⟨rfl, hlength _ hlong⟩

theorem length_compactCompletedOrder_le (h : order.Nodup) :
    (compactCompletedOrder order completed).length ≤ completed.size := by
  refine ((h.filter _).subperm fun entry hentry => ?_).length_le
  exact mem_toList.mpr (by simpa using (List.mem_filter.mp hentry).2)

/-! ## What a push does to the memory -/

variable {result : Except UdpReassemblyError UdpReassemblyOutcome} {sessionId : Uuid}

theorem AcceptStep.delivered (h : AcceptStep r fragment now result r') :
    (SameDelivered r r' ∧ ∀ payload, result ≠ .ok (.complete payload)) ∨
      ∃ payload r1, result = .ok (.complete payload) ∧ fragment.key ∉ r.completed ∧
        SameDelivered r r1 ∧ r' = r1.rememberCompleted fragment.key now ∧
        (fragment.originalLength = 0 ∧ r1 = r ∨ fragment.key ∉ r1.partials) := by
  cases h with
  | remembered => exact .inl ⟨.refl r, by simp⟩
  | empty hdone hlen => exact .inr ⟨[], r, rfl, hdone, .refl r, rfl, .inl ⟨hlen, rfl⟩⟩
  | limited => exact .inl ⟨.refl r, by simp⟩
  | failed _ _ hopen _ hremove =>
    exact .inl ⟨hopen.sameDelivered.trans (removePartial_spec hremove).2.2, by simp⟩
  | repeated _ _ hopen => exact .inl ⟨hopen.sameDelivered, by simp⟩
  | pending _ _ hopen => exact .inl ⟨hopen.sameDelivered.trans ⟨rfl, rfl, rfl, rfl⟩, by simp⟩
  | mismatched _ _ hopen _ _ hremove =>
    refine .inl ⟨hopen.sameDelivered.trans ?_, by simp⟩
    obtain ⟨hconfig, hcompleted, horder, hcleanup⟩ := (removePartial_spec hremove).2.2
    exact ⟨hconfig, hcompleted, horder, hcleanup⟩
  | @completed _ r2 _ _ payload hdone _ hopen _ _ hremove =>
    obtain ⟨-, hpartials, hconfig, hcompleted, horder, hcleanup⟩ := removePartial_spec hremove
    refine .inr ⟨payload, r2, rfl, hdone,
      hopen.sameDelivered.trans ⟨hconfig, hcompleted, horder, hcleanup⟩, rfl, .inr ?_⟩
    rw [hpartials]
    simp

/-! ## The bounds of the memory -/

/-- What is remembered is covered by the queue and within its limit. -/
structure Remembered (r : UdpReassembler) : Prop where
  positive : 0 < r.config.maxCompletedDatagrams
  covered : Covered r.completedOrder r.completed
  size_le : r.completed.size ≤ r.config.maxCompletedDatagrams

/-- The queue has no entry twice and is within its limit. -/
structure Queued (r : UdpReassembler) : Prop where
  nodup : r.completedOrder.Nodup
  length_le : r.completedOrder.length ≤ 2 * r.config.maxCompletedDatagrams

theorem Remembered.of_same (h : r.Remembered) (hsame : SameDelivered r r') : r'.Remembered := by
  obtain ⟨hconfig, hcompleted, horder, -⟩ := hsame
  refine ⟨?_, ?_, ?_⟩
  · rw [hconfig]
    exact h.positive
  · rw [hcompleted, horder]
    exact h.covered
  · rw [hcompleted, hconfig]
    exact h.size_le

theorem Remembered.forget (h : r.Remembered) (hconfig : r'.config = r.config)
    (hf : Forgets r.completedOrder r.completed r'.completedOrder r'.completed) :
    r'.Remembered := by
  refine ⟨?_, hf.covered h.covered, ?_⟩
  · rw [hconfig]
    exact h.positive
  · rw [hconfig]
    exact (size_le_of_get? hf.lookup).trans h.size_le

theorem Discarded.lookup (hd : Discarded r sessionId r')
    (ht : r'.completed.get? k = some t) : r.completed.get? k = some t := by
  rw [hd.completed] at ht
  split_ifs at ht
  exact ht

theorem Remembered.discard (h : r.Remembered) (hd : Discarded r sessionId r') : r'.Remembered := by
  refine ⟨?_, fun k t ht => ?_, ?_⟩
  · rw [hd.config]
    exact h.positive
  · rw [hd.completedOrder]
    exact h.covered k t (hd.lookup ht)
  · rw [hd.config]
    exact (size_le_of_get? fun k t ht => hd.lookup ht).trans h.size_le

theorem Remembered.remember (h : r.Remembered) (key : DatagramKey) (now : Instant) :
    (r.rememberCompleted key now).Remembered := by
  obtain ⟨order, completed, hr⟩ := rememberCompleted_spec r key now
  have hcovered : Covered (order ++ [(key, now)]) (completed.insert key now) := by
    intro k t ht
    rw [get?_insert] at ht
    split_ifs at ht with hk
    · cases ht
      simp [hk]
    · exact List.mem_append_left _ (hr.forgets.covered h.covered k t ht)
  refine ⟨h.positive, ?_, ?_⟩
  · rw [hr.map]
    rcases hr.queue with ⟨hqueue, -⟩ | hqueue
    · rw [hqueue]
      exact hcovered
    · rw [hqueue]
      exact fun k t ht => List.mem_filter.mpr ⟨hcovered k t ht, by simpa using ht⟩
  · have hroom := hr.room h.covered h.positive h.size_le
    have herase : (completed.erase key).size ≤ completed.size :=
      size_le_of_get? fun k t => get?_of_erase
    rw [hr.map, size_insert, rememberCompleted_config]
    omega

theorem Queued.of_same (h : r.Queued) (hsame : SameDelivered r r') : r'.Queued := by
  refine ⟨?_, ?_⟩
  · rw [hsame.completedOrder]
    exact h.nodup
  · rw [hsame.completedOrder, hsame.config]
    exact h.length_le

theorem Queued.suffix (h : r.Queued) (hconfig : r'.config = r.config)
    (hs : r'.completedOrder <:+ r.completedOrder) : r'.Queued := by
  refine ⟨h.nodup.sublist hs.sublist, ?_⟩
  rw [hconfig]
  exact hs.length_le.trans h.length_le

theorem Queued.remember (h : r.Queued) (hr : r.Remembered)
    (hfresh : (key, now) ∉ r.completedOrder) : (r.rememberCompleted key now).Queued := by
  have hsize := (hr.remember key now).size_le
  obtain ⟨order, completed, hrem⟩ := rememberCompleted_spec r key now
  have hnodup : (order ++ [(key, now)]).Nodup := by
    rw [← List.concat_eq_append]
    exact (h.nodup.sublist hrem.forgets.suffix.sublist).concat
      fun hmem => hfresh (hrem.forgets.suffix.subset hmem)
  rcases hrem.queue with ⟨hqueue, hlength⟩ | hqueue
  · refine ⟨?_, ?_⟩
    · rw [hqueue]
      exact hnodup
    · rw [hqueue]
      exact hlength
  · refine ⟨?_, ?_⟩
    · rw [hqueue]
      exact hnodup.filter _
    · have hcompact : (compactCompletedOrder (order ++ [(key, now)])
          (completed.insert key now)).length ≤ (completed.insert key now).size :=
        length_compactCompletedOrder_le hnodup
      rw [hrem.map] at hsize
      rw [hqueue]
      omega

theorem push_memory (h : r.push fragment now = .ok (result, r')) :
    ∃ r1, Forgets r.completedOrder r.completed r1.completedOrder r1.completed ∧
      r1.config = r.config ∧
      ((SameDelivered r1 r' ∧ delivery (.push fragment now, .push result) = none) ∨
        ∃ r2, delivery (.push fragment now, .push result) = some (fragment.key, now) ∧
          SameDelivered r1 r2 ∧ r' = r2.rememberCompleted fragment.key now) := by
  rcases push_cases h with ⟨e, -, rfl, rfl⟩ | ⟨-, x, r1, hexpire, haccept⟩
  · exact ⟨_, .refl _ _, rfl, .inl ⟨.refl _, rfl⟩⟩
  · obtain ⟨hforgets, hconfig⟩ := expire_forgets hexpire
    refine ⟨r1, hforgets, hconfig, ?_⟩
    rcases haccept.delivered with ⟨hsame, hnot⟩ | ⟨payload, r2, rfl, -, hsame, rfl, -⟩
    · refine .inl ⟨hsame, ?_⟩
      rcases result with e | ⟨_ | _ | payload⟩
      · rfl
      · rfl
      · rfl
      · exact absurd rfl (hnot payload)
    · exact .inr ⟨r2, rfl, hsame, rfl⟩

end UdpReassembler

variable {e : Call × Reply} {r r' r0 : UdpReassembler} {es : List (Call × Reply)}
  {fragment : UdpFragment} {now : Instant} {d : PartialDatagram}

theorem Step.remembered (h : r.Remembered) (hstep : Step r e r') : r'.Remembered := by
  rcases hstep.cases with ⟨fragment, now, result, rfl, hpush⟩ | ⟨now, x, rfl, hexpire⟩ |
    ⟨sessionId, x, rfl, hdiscard⟩
  · obtain ⟨r1, hforgets, hconfig, ⟨hsame, -⟩ | ⟨r2, -, hsame, rfl⟩⟩ :=
      push_memory hpush
    · exact (h.forget hconfig hforgets).of_same hsame
    · exact ((h.forget hconfig hforgets).of_same hsame).remember _ _
  · obtain ⟨hforgets, hconfig⟩ := expire_forgets hexpire
    exact h.forget hconfig hforgets
  · exact h.discard (discardSession_spec hdiscard)

/-- A datagram is not delivered at a clock reading at which it was delivered before, with the entry
of that delivery still in the queue, unless that delivery is the remembered one. -/
def FreshInQueue (r : UdpReassembler) (e : Call × Reply) : Prop :=
  ∀ d ∈ delivery e, d ∈ r.completedOrder → r.completed.get? d.1 = some d.2

instance (r : UdpReassembler) : DecidablePred (FreshInQueue r) :=
  fun e => inferInstanceAs (Decidable (∀ d ∈ delivery e, _))

theorem Step.queued (h : r.Queued) (hr : r.Remembered)
    (hstep : Step r e r') (hfresh : FreshInQueue r e) : r'.Queued := by
  rcases hstep.cases with ⟨fragment, now, result, rfl, hpush⟩ | ⟨now, x, rfl, hexpire⟩ |
    ⟨sessionId, x, rfl, hdiscard⟩
  · rcases push_cases hpush with ⟨_, -, -, rfl⟩ | ⟨-, x, r1, hexpire, haccept⟩
    · exact h
    · obtain ⟨hforgets, hconfig⟩ := expire_forgets hexpire
      have hq1 := h.suffix hconfig hforgets.suffix
      rcases haccept.delivered with ⟨hsame, -⟩ | ⟨_, r2, rfl, hdone, hsame, rfl, -⟩
      · exact hq1.of_same hsame
      · refine (hq1.of_same hsame).remember ((hr.forget hconfig hforgets).of_same hsame)
          fun hmem => ?_
        rw [hsame.completedOrder] at hmem
        -- an entry of this key and time would be the remembered one, forgotten by the cleanup
        have hcurrent := hfresh _ rfl (hforgets.suffix.subset hmem)
        refine expire_lost hexpire h.nodup hcurrent (fun ht => ?_) hmem
        exact hdone (mem_of_get? ht)
  · obtain ⟨hforgets, hconfig⟩ := expire_forgets hexpire
    exact h.suffix hconfig hforgets.suffix
  · have hd := discardSession_spec hdiscard
    refine h.suffix hd.config ?_
    rw [hd.completedOrder]

theorem remembered_new {config : UdpReassemblyConfig}
    (h : new config = .ok r) : r.Remembered ∧ r.Queued := by
  simp only [new] at h
  split_ifs at h with hzero
  cases h
  refine ⟨⟨?_, fun k t ht => ?_, Nat.zero_le _⟩, ⟨List.nodup_nil, Nat.zero_le _⟩⟩
  · exact Nat.pos_of_ne_zero fun h0 => hzero (.inr (.inr (.inr h0)))
  · simp at ht

theorem remembered_of_run {config : UdpReassemblyConfig}
    (hnew : new config = .ok r0) (hrun : Run Step r0 es r) : r.Remembered :=
  hrun.invariant (fun _ _ _ h hstep => hstep.remembered h) (remembered_new hnew).1

theorem Step.config (hstep : Step r e r') : r'.config = r.config := by
  rcases hstep.cases with ⟨fragment, now, result, rfl, hpush⟩ | ⟨now, x, rfl, hexpire⟩ |
    ⟨sessionId, x, rfl, hdiscard⟩
  · obtain ⟨r1, -, hconfig, ⟨hsame, -⟩ | ⟨r2, -, hsame, rfl⟩⟩ := push_memory hpush
    · exact hsame.config.trans hconfig
    · exact hsame.config.trans hconfig
  · exact (expire_forgets hexpire).2
  · exact (discardSession_spec hdiscard).config

theorem config_of_run {config : UdpReassemblyConfig}
    (hnew : new config = .ok r0) (hrun : Run Step r0 es r) : r.config = config :=
  hrun.invariant (I := fun r => r.config = config) (fun _ _ _ h hstep => hstep.config.trans h)
    (accounted_new hnew).2

/-- **The memory of deliveries is bounded and covered.** In every reachable state the remembered
deliveries are within their limit and all in the queue. The queue is within twice that limit in
every state of a run in which no datagram is delivered at the time of an earlier delivery of it that
is forgotten but still in the queue. -/
theorem delivered_bounded_of_run {config : UdpReassemblyConfig} {r0 r : UdpReassembler}
    {es : List (Call × Reply)} (hnew : new config = .ok r0)
    (hrun : Run Step r0 es r) :
    r.completed.size ≤ config.maxCompletedDatagrams ∧
      (∀ k t, r.completed.get? k = some t → (k, t) ∈ r.completedOrder) ∧
      (Run (fun r e r' => Step r e r' ∧ FreshInQueue r e) r0 es r →
        r.completedOrder.length ≤ 2 * config.maxCompletedDatagrams) := by
  have hr := remembered_of_run hnew hrun
  rw [← config_of_run hnew hrun]
  refine ⟨hr.size_le, hr.covered, fun hfresh => ?_⟩
  have hboth : r.Remembered ∧ r.Queued := by
    refine hfresh.invariant (I := fun r => r.Remembered ∧ r.Queued) ?_ (remembered_new hnew)
    rintro r e r' ⟨hr, hq⟩ ⟨hstep, hf⟩
    exact ⟨hstep.remembered hr, hstep.queued hq hr hf⟩
  exact hboth.2.length_le

theorem delivered_bounded_of_run_two : ∃ r0 es r,
    new { maxCompletedDatagrams := 1 } = .ok r0 ∧
      perform call FreshInQueue r0
        [.push (sampleFragment 0 0 1 []) 0, .discardSession (Uuid.fromU128 1),
          .push (sampleFragment 0 0 1 []) 1] = some (es, r) ∧
      r.completedOrder.length ≤ 2 * 1 := by
  obtain ⟨r0, es, r, hnew, hcalls⟩ : ∃ r0 es r,
      new { maxCompletedDatagrams := 1 } = .ok r0 ∧
        perform call FreshInQueue r0
          [.push (sampleFragment 0 0 1 []) 0, .discardSession (Uuid.fromU128 1),
            .push (sampleFragment 0 0 1 []) 1] = some (es, r) := ⟨_, _, _, rfl, rfl⟩
  have hrun := Run.of_perform hcalls
  exact ⟨r0, es, r, hnew, hcalls,
    (delivered_bounded_of_run hnew (hrun.mono fun _ _ _ h => h.1)).2.2 hrun⟩

/-- The bound on the queue fails without that condition: an empty datagram that is delivered,
discarded with its session and delivered again at the same clock reading leaves equal entries,
and compaction keeps them all. -/
theorem completedOrder_unbounded : ∃ r0 es r,
    new { maxCompletedDatagrams := 1 } = .ok r0 ∧ Run Step r0 es r ∧
      Clocked eventTime es ∧ 2 * 1 < r.completedOrder.length := by
  refine ⟨_, _, _, rfl, Run.of_calls (show perform call (fun _ _ => True) _
    [.push (sampleFragment 0 0 1 []) 0, .discardSession (Uuid.fromU128 1),
      .push (sampleFragment 0 0 1 []) 0, .discardSession (Uuid.fromU128 1),
      .push (sampleFragment 0 0 1 []) 0] = some (_, _) from rfl), ?_, ?_⟩ <;> decide

/-! ## Delivered and in progress -/

namespace UdpReassembler

variable {key k : DatagramKey} {result : Except UdpReassemblyError UdpReassemblyOutcome}
  {x : UdpReassemblyExpiration}

/-- No datagram is delivered and in progress at once. -/
def Apart (r : UdpReassembler) : Prop := ∀ k, k ∈ r.partials → k ∉ r.completed

theorem expire_lookup (h : r.expire now = .ok (x, r')) (hd : r'.partials.get? key = some d) :
    r.partials.get? key = some d := by
  rcases expire_cases h with ⟨rfl, -⟩ | ⟨-, hexpired⟩
  · exact hd
  · rw [hexpired.partials] at hd
    exact (Option.filter_eq_some_iff.mp hd).1

theorem AcceptStep.mem_partials (h : AcceptStep r fragment now result r')
    (hk : k ∈ r'.partials) : k ∈ r.partials ∨ k = fragment.key ∧ fragment.key ∉ r.completed := by
  by_cases hne : k = fragment.key
  · cases h with
    | remembered => exact .inl hk
    | empty hdone => exact .inr ⟨hne, hdone⟩
    | limited hdone => exact .inr ⟨hne, hdone⟩
    | failed hdone => exact .inr ⟨hne, hdone⟩
    | repeated hdone => exact .inr ⟨hne, hdone⟩
    | pending hdone => exact .inr ⟨hne, hdone⟩
    | mismatched hdone => exact .inr ⟨hne, hdone⟩
    | completed hdone => exact .inr ⟨hne, hdone⟩
  · left
    rw [mem_iff] at hk ⊢
    rwa [h.lookup_of_ne hne] at hk

theorem mem_rememberCompleted (h : k ∈ (r.rememberCompleted key now).completed) :
    k = key ∨ k ∈ r.completed := by
  obtain ⟨order, completed, hr⟩ := rememberCompleted_spec r key now
  rw [hr.map] at h
  refine (mem_insert.mp h).imp_right fun hk => ?_
  obtain ⟨t, ht⟩ := mem_iff.mp hk
  exact mem_of_get? (hr.forgets.lookup k t ht)

theorem Apart.expire (h : r.Apart) (hexpire : r.expire now = .ok (x, r')) : r'.Apart := by
  intro k hpartial hcompleted
  obtain ⟨d, hd⟩ := mem_iff.mp hpartial
  obtain ⟨t, ht⟩ := mem_iff.mp hcompleted
  exact h k (mem_of_get? (expire_lookup hexpire hd))
    (mem_of_get? ((expire_forgets hexpire).1.lookup k t ht))

theorem Apart.discard {sessionId : Uuid} (h : r.Apart) (hd : Discarded r sessionId r') :
    r'.Apart := by
  intro k hpartial hcompleted
  obtain ⟨d, hk⟩ := mem_iff.mp hpartial
  obtain ⟨t, ht⟩ := mem_iff.mp hcompleted
  rw [hd.partials] at hk
  split_ifs at hk
  exact h k (mem_of_get? hk) (mem_of_get? (hd.lookup ht))

theorem Apart.accept (h : r.Apart) (haccept : AcceptStep r fragment now result r')
    (hempty : ∀ payload, result = .ok (.complete payload) → fragment.originalLength = 0 →
      fragment.key ∉ r.partials) : r'.Apart := by
  intro k hpartial hcompleted
  rcases haccept.delivered with ⟨hsame, -⟩ | ⟨payload, r1, hresult, -, hsame, rfl, hgone⟩
  · rw [hsame.completed] at hcompleted
    rcases haccept.mem_partials hpartial with hk | ⟨rfl, hdone⟩
    · exact h k hk hcompleted
    · exact hdone hcompleted
  · have hkey : fragment.key ∉ r1.partials := by
      rcases hgone with ⟨hlen, rfl⟩ | hgone
      · exact hempty payload hresult hlen
      · exact hgone
    rcases mem_rememberCompleted hcompleted with rfl | hk
    · exact hkey hpartial
    · rw [hsame.completed] at hk
      rcases haccept.mem_partials hpartial with hk' | ⟨rfl, hdone⟩
      · exact h k hk' hk
      · exact hdone hk

end UdpReassembler

/-- The cleanup of a call at `now` drops a datagram in progress: it is not throttled, and the
datagram has timed out. -/
def UdpReassembler.dropsAt (r : UdpReassembler) (now : Instant) (d : PartialDatagram) : Bool :=
  r.nextCleanupAt.all (fun deadline => decide (deadline ≤ now)) &&
    elapsedAtLeast now d.startedAt r.config.timeout

/-- The call pushes a valid fragment of an empty datagram under a key that has a datagram in
progress, which the cleanup of the push does not drop. -/
def emptyOverPartial (r : UdpReassembler) : Call → Bool
  | .push fragment now => decide (fragment.validate = .ok ()) &&
    decide (fragment.originalLength = 0) &&
    (r.partials.get? fragment.key).any fun d => !r.dropsAt now d
  | _ => false

theorem notMem_of_emptyOverPartial {r1 : UdpReassembler} {x : UdpReassemblyExpiration}
    (h : emptyOverPartial r (.push fragment now) = false) (hvalid : ValidFragment fragment)
    (hexpire : r.expire now = .ok (x, r1)) (hlen : fragment.originalLength = 0) :
    fragment.key ∉ r1.partials := by
  rw [← get?_eq_none]
  cases hd : r.partials.get? fragment.key with
  | none =>
    rw [Option.eq_none_iff_forall_not_mem]
    intro d hd'
    rw [expire_lookup hexpire hd'] at hd
    cases hd
  | some d =>
    have hdrops : r.dropsAt now d = true := by
      simpa [emptyOverPartial, validate_eq_ok_iff.mpr hvalid, hlen, hd] using h
    simp only [dropsAt, Bool.and_eq_true] at hdrops
    obtain ⟨hdue, helapsed⟩ := hdrops
    rcases expire_cases hexpire with ⟨rfl, deadline, hnext, hlt⟩ | ⟨-, hexpired⟩
    · rw [hnext] at hdue
      exact absurd hlt (not_lt.mpr (by simpa using hdue))
    · rw [hexpired.partials, hd]
      simp [Option.filter_some, helapsed]

theorem Step.apart (h : r.Apart) (hstep : Step r e r')
    (hempty : emptyOverPartial r e.1 = false) : r'.Apart := by
  rcases hstep.cases with ⟨fragment, now, result, rfl, hpush⟩ | ⟨now, x, rfl, hexpire⟩ |
    ⟨sessionId, x, rfl, hdiscard⟩
  · rcases push_cases hpush with ⟨e, -, -, rfl⟩ | ⟨hvalid, x, r1, hexpire, haccept⟩
    · exact h
    · exact (h.expire hexpire).accept haccept fun _ _ hlen =>
        notMem_of_emptyOverPartial hempty hvalid hexpire hlen
  · exact h.expire hexpire
  · exact h.discard (discardSession_spec hdiscard)

theorem UdpReassembler.AcceptStep.agrees {payload : List UInt8}
    (h : AcceptStep r fragment now (.ok (.complete payload)) r')
    (hempty : fragment.originalLength = 0 → fragment.key ∉ r.partials)
    (hd : r.partials.get? fragment.key = some d) :
    d.originalLength = fragment.originalLength.toNat ∧ d.fragmentCount = fragment.fragmentCount := by
  cases h with
  | empty _ hlen => exact absurd (mem_of_get? hd) (hempty hlen)
  | completed _ _ hopen hoffer =>
    have hfills := offer_filled hoffer
    cases hopen with
    | existing hold =>
      cases hd.symm.trans hold
      exact ⟨hfills.length_eq, hfills.count_eq⟩
    | fresh hnew => exact absurd (mem_of_get? hd) hnew

/-- **Delivered datagrams are not in progress.** In every run in which no fragment of an empty
datagram is pushed under a key that has a datagram in progress, no key is delivered and in progress at
once; a push that delivers a datagram leaves nothing reserved for it; and it comes from a fragment
that agrees on length and number of fragments with the datagram it found in progress. -/
theorem not_both_of_run {config : UdpReassemblyConfig} {r0 r : UdpReassembler}
    {es : List (Call × Reply)} (hnew : new config = .ok r0)
    (hrun : Run (fun r e r' => Step r e r' ∧ emptyOverPartial r e.1 = false) r0 es r) :
    (∀ k, ¬ (k ∈ r.partials ∧ k ∈ r.completed)) ∧
      ∀ fragment now payload r', Step r (.push fragment now, .push (.ok (.complete payload))) r' →
        emptyOverPartial r (.push fragment now) = false →
        fragment.key ∉ r'.partials ∧
          ∀ x r1 d, r.expire now = .ok (x, r1) → r1.partials.get? fragment.key = some d →
            d.originalLength = fragment.originalLength.toNat ∧
              d.fragmentCount = fragment.fragmentCount := by
  have hapart0 : r0.Apart := by
    simp only [new] at hnew
    split_ifs at hnew
    cases hnew
    exact fun k hk => absurd hk List.not_mem_nil
  have hapart : r.Apart := hrun.invariant (fun _ _ _ h hs => hs.1.apart h hs.2) hapart0
  refine ⟨fun k hk => hapart k hk.1 hk.2, fun fragment now payload r' hstep hempty => ?_⟩
  obtain ⟨⟨result, r2⟩, hpush, h⟩ := bind_eq_ok.mp hstep
  obtain ⟨hresult, rfl⟩ := pair_eq_ok.mp h
  cases hresult
  rcases push_cases hpush with ⟨e, -, h, -⟩ | ⟨hvalid, x, r1, hexpire, haccept⟩
  · cases h
  · have hidle := notMem_of_emptyOverPartial hempty hvalid hexpire
    refine ⟨?_, fun x' r1' d hexpire' hd => ?_⟩
    · rcases haccept.delivered with ⟨-, hnot⟩ | ⟨_, r3, -, -, -, rfl, ⟨hlen, rfl⟩ | hgone⟩
      · exact absurd rfl (hnot payload)
      · exact hidle hlen
      · exact hgone
    · obtain ⟨-, rfl⟩ := Prod.mk.inj (Except.ok.inj (hexpire.symm.trans hexpire'))
      exact haccept.agrees hidle hd

theorem not_both_of_run_delivered : ∃ r0 es r,
    new {} = .ok r0 ∧
      perform call (fun r e => emptyOverPartial r e.1 = false) r0
        [.push (sampleFragment 2 0 2 [10]) 0, .push (sampleFragment 2 1 2 [11]) 1] = some (es, r) ∧
      (sampleFragment 2 0 2 [10]).key ∈ r.completed ∧
      (sampleFragment 2 0 2 [10]).key ∉ r.partials := by
  obtain ⟨r0, es, r, hnew, hcalls, hdone⟩ : ∃ r0 es r,
      new {} = .ok r0 ∧
        perform call (fun r e => emptyOverPartial r e.1 = false) r0
          [.push (sampleFragment 2 0 2 [10]) 0, .push (sampleFragment 2 1 2 [11]) 1] =
            some (es, r) ∧ (sampleFragment 2 0 2 [10]).key ∈ r.completed := by
    refine ⟨_, _, _, rfl, rfl, ?_⟩
    decide
  exact ⟨r0, es, r, hnew, hcalls, hdone,
    fun hk => (not_both_of_run hnew (Run.of_perform hcalls)).1 _ ⟨hk, hdone⟩⟩

/-- Without that condition a key can be delivered and in progress: an empty datagram is delivered
at once, without a look at the datagram in progress under its key. The reservation of that
datagram stays, and its declared length disagrees with that of the fragment delivered. -/
theorem delivered_while_in_progress : ∃ r0 es r,
    new {} = .ok r0 ∧ Run Step r0 es r ∧
      es = [(.push (sampleFragment 6 0 2 [1, 2, 3]) 0, .push (.ok .pending)),
        (.push (sampleFragment 0 0 1 []) 0, .push (.ok (.complete [])))] ∧
      (sampleFragment 0 0 1 []).key ∈ r.partials ∧
      (sampleFragment 0 0 1 []).key ∈ r.completed ∧ r.bufferedBytes = 6 := by
  refine ⟨_, _, _, rfl, Run.of_calls (show perform call (fun _ _ => True) _
    [.push (sampleFragment 6 0 2 [1, 2, 3]) 0, .push (sampleFragment 0 0 1 []) 0] = some (_, _)
    from rfl), rfl, ?_, ?_, rfl⟩ <;> decide

end LinkLake.Udp
