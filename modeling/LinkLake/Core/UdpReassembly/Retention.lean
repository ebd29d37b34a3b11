import LinkLake.Core.UdpReassembly.Staleness

/-!
# How long a delivery is remembered

A remembered delivery is forgotten by the cleanup when its retention is over, by the closing of
its session, or by eviction when too many others have been delivered after it. Here it is shown
that nothing else makes the reassembler forget it: with `Recent key start n r`, the delivery of
`key` is remembered at a time not before `start`, and at most `n` entries of the queue come after
its own.

* `Recent.remember`: another delivery keeps it, as long as `n + 1` is below the limit;
* `Recent.expire`: a cleanup keeps it within the retention;
* `Unknown`: there is no trace of a delivery of `key` in the memory.
-/

namespace LinkLake.Udp

open Fallible FiniteMap UdpReassembler

/-- No trace of a delivery of `key`: it is not remembered, and the queue does not mention it. -/
structure Unknown (key : DatagramKey) (r : UdpReassembler) : Prop where
  notMem : key ∉ r.completed
  notQueued : ∀ entry ∈ r.completedOrder, entry.1 ≠ key

/-- The delivery of `key` is remembered, it was made at `start` or later, its entry is the first
of its key in the queue, and at most `n` entries follow it there. -/
def Recent (key : DatagramKey) (start : Instant) (n : ℕ) (r : UdpReassembler) : Prop :=
  ∃ t older newer, start ≤ t ∧ r.completed.get? key = some t ∧
    r.completedOrder = older ++ (key, t) :: newer ∧ (∀ entry ∈ older, entry.1 ≠ key) ∧
    newer.length ≤ n

namespace UdpReassembler

variable {key : DatagramKey} {now t : Instant} {older newer : List (DatagramKey × Instant)}
  {completed : FiniteMap DatagramKey Instant}

/-! ## The loops, up to the entry of the delivery -/

theorem expireCompleted_stops {retention : Duration} (count : ℕ)
    (newer : List (DatagramKey × Instant)) (hmem : completed.get? key = some t)
    (halive : elapsedAtLeast now t retention = false) (hfirst : ∀ entry ∈ older, entry.1 ≠ key) :
    ∃ older' completed' count', expireCompleted now retention (older ++ (key, t) :: newer)
        completed count = (older' ++ (key, t) :: newer, completed', count') ∧
      older' <:+ older ∧ completed'.get? key = some t := by
  induction older generalizing completed count with
  | nil =>
    refine ⟨[], completed, count, ?_, List.suffix_rfl, hmem⟩
    rw [List.nil_append, expireCompleted, if_pos hmem, if_neg (by simp [halive])]
  | cons entry older ih =>
    obtain ⟨k, t'⟩ := entry
    have hk : key ≠ k := (hfirst (k, t') (by simp)).symm
    have hrest : ∀ entry ∈ older, entry.1 ≠ key := fun entry hentry =>
      hfirst entry (by simp [hentry])
    rw [List.cons_append, expireCompleted]
    split_ifs with hcurrent helapsed
    · have hmem' : (completed.erase k).get? key = some t := by
        rwa [get?_erase_of_ne hk]
      obtain ⟨older', completed', count', heq, hs, hmem'⟩ := ih _ hmem' hrest
      exact ⟨older', completed', count', heq, hs.trans (List.suffix_cons _ _), hmem'⟩
    · exact ⟨(k, t') :: older, completed, count, rfl, List.suffix_rfl, hmem⟩
    · obtain ⟨older', completed', count', heq, hs, hmem'⟩ := ih _ hmem hrest
      exact ⟨older', completed', count', heq, hs.trans (List.suffix_cons _ _), hmem'⟩

theorem evictOldestCompleted_older (newer : List (DatagramKey × Instant))
    (hmem : completed.get? key = some t) (hfirst : ∀ entry ∈ older, entry.1 ≠ key)
    (hold : ∃ entry ∈ older, completed.get? entry.1 = some entry.2) :
    ∃ older' completed', evictOldestCompleted (older ++ (key, t) :: newer) completed =
        (older' ++ (key, t) :: newer, completed') ∧
      older' <:+ older ∧ completed'.get? key = some t := by
  induction older with
  | nil => simp at hold
  | cons entry older ih =>
    obtain ⟨k, t'⟩ := entry
    have hk : key ≠ k := (hfirst (k, t') (by simp)).symm
    rw [List.cons_append, evictOldestCompleted]
    split_ifs with hcurrent
    · exact ⟨older, completed.erase k, rfl, List.suffix_cons _ _, by
        rwa [get?_erase_of_ne hk]⟩
    · have hold' : ∃ entry ∈ older, completed.get? entry.1 = some entry.2 := by
        obtain ⟨entry, hentry, hcur⟩ := hold
        rcases List.mem_cons.mp hentry with rfl | hentry
        · exact absurd hcur hcurrent
        · exact ⟨entry, hentry, hcur⟩
      obtain ⟨older', completed', heq, hs, hmem'⟩ := ih
        (fun entry hentry => hfirst entry (by simp [hentry])) hold'
      exact ⟨older', completed', heq, hs.trans (List.suffix_cons _ _), hmem'⟩

theorem size_le_of_newest (hc : Covered (older ++ (key, t) :: newer) completed)
    (hold : ¬ ∃ entry ∈ older, completed.get? entry.1 = some entry.2) :
    completed.size ≤ newer.length + 1 := by
  have hnodup : completed.toList.Nodup := completed.nodup_keys.of_map
  have hsub : completed.toList ⊆ (key, t) :: newer := by
    intro entry hentry
    have hcurrent := mem_toList.mp hentry
    rcases List.mem_append.mp (hc _ _ hcurrent) with holder | hnewer
    · exact absurd ⟨entry, holder, hcurrent⟩ hold
    · exact hnewer
  exact (hnodup.subperm hsub).length_le

end UdpReassembler

namespace Recent

variable {r r' : UdpReassembler} {key other : DatagramKey} {start now : Instant} {n : ℕ}

section

variable (h : Recent key start n r)
include h

theorem mem : key ∈ r.completed := by
  obtain ⟨t, _, _, -, ht, -⟩ := h
  exact mem_of_get? ht

theorem of_same (hsame : SameDelivered r r') : Recent key start n r' := by
  obtain ⟨t, older, newer, hstart, ht, horder, hfirst, hn⟩ := h
  exact ⟨t, older, newer, hstart, by rw [hsame.completed, ht], by rw [hsame.completedOrder, horder],
    hfirst, hn⟩

theorem mono {m : ℕ} (hle : n ≤ m) : Recent key start m r := by
  obtain ⟨t, older, newer, hstart, ht, horder, hfirst, hn⟩ := h
  exact ⟨t, older, newer, hstart, ht, horder, hfirst, hn.trans hle⟩

theorem expire {x : UdpReassemblyExpiration} (hle : start ≤ now)
    (hnow : now < start + r.config.completedRetention) (hexpire : r.expire now = .ok (x, r')) :
    Recent key start n r' := by
  rcases expire_cases hexpire with ⟨rfl, -⟩ | ⟨-, hexpired⟩
  · exact h
  · obtain ⟨t, older, newer, hstart, ht, horder, hfirst, hn⟩ := h
    obtain ⟨count, hloop⟩ := hexpired.delivered
    have halive :=
      elapsedAtLeast_mono (elapsedAtLeast_eq_false.mpr (Nat.sub_lt_left_of_lt_add hle hnow)) hstart
    obtain ⟨older', completed', count', hstop, hs, ht'⟩ :=
      expireCompleted_stops 0 newer ht halive hfirst
    rw [horder, hstop] at hloop
    obtain ⟨horder', hloop⟩ := Prod.mk.inj hloop
    obtain ⟨hcompleted', -⟩ := Prod.mk.inj hloop
    exact ⟨t, older', newer, hstart, by rw [← hcompleted', ht'], horder'.symm,
      fun entry hentry => hfirst entry (hs.subset hentry), hn⟩

theorem discard {sessionId : Uuid} (hs : key.sessionId ≠ sessionId)
    (hd : Discarded r sessionId r') : Recent key start n r' := by
  obtain ⟨t, older, newer, hstart, ht, horder, hfirst, hn⟩ := h
  exact ⟨t, older, newer, hstart, by rw [hd.completed, if_neg hs, ht],
    by rw [hd.completedOrder, horder], hfirst, hn⟩

end

theorem push_back (now : Instant) {older newer : List (DatagramKey × Instant)} {t : Instant}
    {completed : FiniteMap DatagramKey Instant} (hother : other ≠ key) (hstart : start ≤ t)
    (ht : completed.get? key = some t) (hfirst : ∀ entry ∈ older, entry.1 ≠ key)
    (hn : newer.length ≤ n) (hcompleted : r'.completed = completed.insert other now)
    (horder : r'.completedOrder = (older ++ (key, t) :: newer) ++ [(other, now)] ∨
      r'.completedOrder = compactCompletedOrder
        ((older ++ (key, t) :: newer) ++ [(other, now)]) (completed.insert other now)) :
    Recent key start (n + 1) r' := by
  have ht' : (completed.insert other now).get? key = some t := by
    rwa [get?_insert_of_ne hother.symm]
  rcases horder with horder | horder
  · refine ⟨t, older, newer ++ [(other, now)], hstart, by rw [hcompleted, ht'], ?_, hfirst, ?_⟩
    · rw [horder]
      simp
    · simpa using hn
  · -- compaction keeps the entry, since the delivery is remembered
    have hkeep : compactCompletedOrder [(key, t)] (completed.insert other now) = [(key, t)] := by
      simp [compactCompletedOrder, ht']
    refine ⟨t, compactCompletedOrder older (completed.insert other now),
      compactCompletedOrder (newer ++ [(other, now)]) (completed.insert other now),
      hstart, by rw [hcompleted, ht'], ?_, fun entry hentry => ?_, ?_⟩
    · have hsplit : (older ++ (key, t) :: newer) ++ [(other, now)] =
          older ++ ([(key, t)] ++ (newer ++ [(other, now)])) := by simp
      rw [horder, hsplit, compactCompletedOrder, List.filter_append, List.filter_append]
      exact congrArg (_ ++ ·) (congrArg (· ++ _) hkeep)
    · exact hfirst entry (List.mem_filter.mp hentry).1
    · exact (List.length_filter_le _ _).trans (by simpa using hn)

theorem remember (h : Recent key start n r) (hr : r.Remembered) (hother : other ≠ key)
    (hfew : n + 1 < r.config.maxCompletedDatagrams) :
    Recent key start (n + 1) (r.rememberCompleted other now) := by
  obtain ⟨t, older, newer, hstart, ht, horder, hfirst, hn⟩ := h
  by_cases hfull : r.completed.size ≥ r.config.maxCompletedDatagrams
  · have hcovered := hr.covered
    rw [horder] at hcovered
    have hold : ∃ entry ∈ older, r.completed.get? entry.1 = some entry.2 := by
      by_contra hold
      have := size_le_of_newest hcovered hold
      omega
    obtain ⟨older', completed', hevict, hs, ht'⟩ :=
      evictOldestCompleted_older newer ht hfirst hold
    refine push_back now hother hstart ht' (fun entry hentry => hfirst entry (hs.subset hentry)) hn
      ?_ ?_
    · simp only [rememberCompleted, if_pos hfull, horder, hevict]
    · simp only [rememberCompleted, if_pos hfull, horder, hevict]
      split_ifs
      · exact .inr rfl
      · exact .inl rfl
  · refine push_back now hother hstart ht hfirst hn ?_ ?_
    · simp only [rememberCompleted, if_neg hfull]
    · simp only [rememberCompleted, if_neg hfull, horder]
      split_ifs
      · exact .inr rfl
      · exact .inl rfl

end Recent

namespace Unknown

variable {r r' : UdpReassembler} {key other : DatagramKey} {start now : Instant}

variable (h : Unknown key r)
include h

theorem of_same (hsame : SameDelivered r r') : Unknown key r' :=
  ⟨by rw [hsame.completed]; exact h.notMem, by rw [hsame.completedOrder]; exact h.notQueued⟩

theorem forget (hf : Forgets r.completedOrder r.completed r'.completedOrder r'.completed) :
    Unknown key r' := by
  refine ⟨fun hmem => ?_, fun entry hentry => h.notQueued entry (hf.suffix.subset hentry)⟩
  obtain ⟨t, ht⟩ := mem_iff.mp hmem
  exact h.notMem (mem_of_get? (hf.lookup key t ht))

theorem discard {sessionId : Uuid} (hd : Discarded r sessionId r') : Unknown key r' := by
  refine ⟨fun hmem => ?_, by rw [hd.completedOrder]; exact h.notQueued⟩
  obtain ⟨t, ht⟩ := mem_iff.mp hmem
  exact h.notMem (mem_of_get? (hd.lookup ht))

theorem remember (hother : other ≠ key) : Unknown key (r.rememberCompleted other now) := by
  refine ⟨fun hmem => ?_, fun entry hentry => ?_⟩
  · rcases mem_rememberCompleted hmem with heq | hmem
    · exact hother heq.symm
    · exact h.notMem hmem
  · obtain ⟨order, completed, hr⟩ := rememberCompleted_spec r other now
    have hentry' : entry ∈ order ++ [(other, now)] := by
      rcases hr.queue with ⟨hqueue, -⟩ | hqueue <;> rw [hqueue] at hentry
      · exact hentry
      · exact (List.mem_filter.mp hentry).1
    rcases List.mem_append.mp hentry' with hentry | hentry
    · exact h.notQueued entry (hr.forgets.suffix.subset hentry)
    · obtain rfl := List.mem_singleton.mp hentry
      exact hother

theorem delivered (hstart : start ≤ now) : Recent key start 0 (r.rememberCompleted key now) := by
  obtain ⟨order, completed, hr⟩ := rememberCompleted_spec r key now
  have hold : ∀ entry ∈ order, entry.1 ≠ key := fun entry hentry =>
    h.notQueued entry (hr.forgets.suffix.subset hentry)
  have ht : (r.rememberCompleted key now).completed.get? key = some now := by
    rw [hr.map, get?_insert_self]
  rcases hr.queue with ⟨hqueue, -⟩ | hqueue
  · exact ⟨now, order, [], hstart, ht, hqueue, hold, le_rfl⟩
  · refine ⟨now, compactCompletedOrder order (completed.insert key now), [], hstart,
      ht, ?_, fun entry hentry => hold entry (List.mem_filter.mp hentry).1, le_rfl⟩
    rw [hqueue, compactCompletedOrder, List.filter_append]
    simp [compactCompletedOrder]

end Unknown

end LinkLake.Udp
