import Mathlib

/-!
# Sliding windows

A limiter that admits at most so many calls in any `span` consecutive units of time. It keeps a queue
of admission times, takes the times that have left the window from its front whenever it is asked,
and admits when what is left is short enough.

`Tracks` relates the queue to the times of all admissions so far: what is no longer in the queue has
left the window for good. So after the front has been cleared, the queue is exactly the part of the
history that lies in the window (`Tracks.dropWhile_eq`), and a limiter that asks for its length never
admits too much (`Limited.push`).
-/

namespace LinkLake.SlidingWindow

/-- The times in the interval of length `span` that ends with `t`. -/
def within (span t : ℕ) (times : List ℕ) : List ℕ :=
  times.filter fun x => decide (x ≤ t ∧ t < x + span)

variable {span now now' limit : ℕ} {window admitted : List ℕ}

/-- No interval of length `span` holds more than `limit` of the times. -/
def Limited (span limit : ℕ) (times : List ℕ) : Prop :=
  ∀ t, (within span t times).length ≤ limit

theorem limited_nil : Limited span limit [] := fun _ => Nat.zero_le _

/-- At the time `now` the queue `window` holds those of the times `admitted` that may still count. -/
structure Tracks (span now : ℕ) (window admitted : List ℕ) : Prop where
  sorted : admitted.Pairwise (· ≤ ·)
  le_now : ∀ t ∈ admitted, t ≤ now
  gone : ∃ gone, admitted = gone ++ window ∧ ∀ t ∈ gone, t + span ≤ now

theorem tracks_nil : Tracks span now [] [] := ⟨.nil, by simp, [], by simp, by simp⟩

/-- From the front of a sorted queue one takes exactly the times that have left the window. -/
theorem dropWhile_eq_filter (h : window.Pairwise (· ≤ ·)) :
    window.dropWhile (fun t => decide (t + span ≤ now)) =
      window.filter fun t => decide (now < t + span) := by
  induction window with
  | nil => rfl
  | cons t window ih =>
    rw [List.pairwise_cons] at h
    by_cases ht : t + span ≤ now
    · rw [List.dropWhile_cons_of_pos (by simpa using ht),
        List.filter_cons_of_neg (by simpa using ht), ih h.2]
    · rw [List.dropWhile_cons_of_neg (by simpa using ht), eq_comm, List.filter_eq_self]
      intro x hx
      have hle : t ≤ x := by
        rcases List.mem_cons.mp hx with rfl | hx
        · exact le_rfl
        · exact h.1 x hx
      simp only [decide_eq_true_eq]
      omega

namespace Tracks

variable (h : Tracks span now window admitted)
include h

theorem later (hle : now ≤ now') : Tracks span now' window admitted := by
  obtain ⟨gone, hsplit, hgone⟩ := h.gone
  exact ⟨h.sorted, fun t ht => (h.le_now t ht).trans hle, gone, hsplit,
    fun t ht => (hgone t ht).trans hle⟩

/-- After its front has been cleared, the queue is what lies in the window. -/
theorem dropWhile_eq :
    window.dropWhile (fun t => decide (t + span ≤ now)) = within span now admitted := by
  obtain ⟨gone, hsplit, hgone⟩ := h.gone
  have hwindow : window.Pairwise (· ≤ ·) := by
    have hsorted := h.sorted
    rw [hsplit, List.pairwise_append] at hsorted
    exact hsorted.2.1
  have hpast : gone.filter (fun x => decide (x ≤ now ∧ now < x + span)) = [] := by
    rw [List.filter_eq_nil_iff]
    intro t ht
    have := hgone t ht
    simp only [decide_eq_true_eq]
    omega
  rw [dropWhile_eq_filter hwindow, within, hsplit, List.filter_append, hpast, List.nil_append]
  apply List.filter_congr
  intro t ht
  have hle : t ≤ now := h.le_now t (by simp [hsplit, ht])
  simp [hle]

theorem clear : Tracks span now (window.dropWhile fun t => decide (t + span ≤ now)) admitted := by
  obtain ⟨gone, hsplit, hgone⟩ := h.gone
  refine ⟨h.sorted, h.le_now, gone ++ window.takeWhile fun t => decide (t + span ≤ now), ?_, ?_⟩
  · rw [List.append_assoc, List.takeWhile_append_dropWhile, hsplit]
  · intro t ht
    rcases List.mem_append.mp ht with ht | ht
    · exact hgone t ht
    · simpa using List.mem_takeWhile_imp ht

theorem push : Tracks span now (window ++ [now]) (admitted ++ [now]) := by
  obtain ⟨gone, hsplit, hgone⟩ := h.gone
  refine ⟨?_, ?_, gone, by simp [hsplit], hgone⟩
  · rw [List.pairwise_append]
    exact ⟨h.sorted, List.pairwise_singleton _ _, fun t ht x hx => by
      rw [List.mem_singleton.mp hx]
      exact h.le_now t ht⟩
  · intro t ht
    rcases List.mem_append.mp ht with ht | ht
    · exact h.le_now t ht
    · exact (List.mem_singleton.mp ht).le

end Tracks

/-- **One more admission.** If the window that ends now has room, then no window overflows: one that
ends earlier does not see the admission, and one that ends later holds, besides the admission, only
times that are in the window now. -/
theorem Limited.push (h : Limited span limit admitted) (hle : ∀ t ∈ admitted, t ≤ now)
    (hroom : (within span now admitted).length < limit) : Limited span limit (admitted ++ [now]) := by
  intro t
  rw [within, List.filter_append, List.length_append]
  by_cases hnow : now ≤ t ∧ t < now + span
  · have hsub : (within span t admitted).length ≤ (within span now admitted).length := by
      rw [within, within, ← List.countP_eq_length_filter, ← List.countP_eq_length_filter]
      apply List.countP_mono_left
      intro x hx
      have := hle x hx
      simp only [decide_eq_true_eq]
      omega
    have hone : ([now].filter fun x => decide (x ≤ t ∧ t < x + span)).length ≤ 1 :=
      List.length_filter_le _ _
    rw [within] at hsub
    omega
  · rw [List.filter_cons_of_neg (by simpa using hnow), List.filter_nil]
    exact h t

end LinkLake.SlidingWindow
