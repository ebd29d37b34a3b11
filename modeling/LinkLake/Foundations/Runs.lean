import Mathlib

/-!
# Runs of a labelled step relation

A system is a relation `step s e s'` between states, labelled by events; an event records a call
together with its reply. `Run step s es s'` says that the events `es` lead from `s` to `s'`.

* `Run.invariant` is the plain invariant rule: what every step preserves, every run preserves.
* `Run.history` is the rule with a history variable: the invariant may speak of the events so
  far, and a step may use whatever the whole run promises about that past.
* `HeldSince` says that something has held since a certain step of the run.
* `perform` makes the calls of a program one by one; `Run.of_perform` turns them into a run.
* `Timed` puts a clock beside the state, and `Clocked` says that the clock readings of a run never
  decrease.
-/

namespace LinkLake

variable {σ ε : Type*}

/-- The events `es` lead, one step each, from the first state to the last. -/
inductive Run (step : σ → ε → σ → Prop) : σ → List ε → σ → Prop
  | nil (s : σ) : Run step s [] s
  | cons {s s1 s' : σ} {e : ε} {es : List ε} :
      step s e s1 → Run step s1 es s' → Run step s (e :: es) s'

namespace Run

variable {step : σ → ε → σ → Prop} {s s1 s' : σ} {e : ε} {es fs : List ε} {I : σ → Prop}

theorem single (h : step s e s') : Run step s [e] s' := .cons h (.nil s')

theorem append (h : Run step s es s1) (h' : Run step s1 fs s') : Run step s (es ++ fs) s' := by
  induction h with
  | nil => exact h'
  | cons hs _ ih => exact .cons hs (ih h')

theorem snoc (h : Run step s es s1) (h' : step s1 e s') : Run step s (es ++ [e]) s' :=
  h.append (single h')

theorem of_nil (h : Run step s [] s') : s' = s := by
  cases h
  rfl

theorem of_cons (h : Run step s (e :: es) s') : ∃ s1, step s e s1 ∧ Run step s1 es s' := by
  cases h with
  | cons hs h => exact ⟨_, hs, h⟩

theorem of_append (h : Run step s (es ++ fs) s') : ∃ s1, Run step s es s1 ∧ Run step s1 fs s' := by
  induction es generalizing s with
  | nil => exact ⟨s, .nil s, h⟩
  | cons e es ih =>
    obtain ⟨s2, hs, h⟩ := of_cons h
    obtain ⟨s1, h1, h2⟩ := ih h
    exact ⟨s1, .cons hs h1, h2⟩

theorem of_snoc (h : Run step s (es ++ [e]) s') : ∃ s1, Run step s es s1 ∧ step s1 e s' := by
  obtain ⟨s1, h1, h2⟩ := of_append h
  obtain ⟨s2, hs, h2⟩ := of_cons h2
  obtain rfl := of_nil h2
  exact ⟨s1, h1, hs⟩

/-- What every step preserves, every run preserves. -/
theorem invariant (hstep : ∀ s e s', I s → step s e s' → I s')
    (h : Run step s es s') (h0 : I s) : I s' := by
  induction h with
  | nil => exact h0
  | cons hs _ ih => exact ih (hstep _ _ _ h0 hs)

/-- What every step with an event of a certain kind preserves, every run of such events
preserves. -/
theorem invariant_on {p : ε → Prop} (hstep : ∀ s e s', p e → I s → step s e s' → I s')
    (h : Run step s es s') (hp : ∀ e ∈ es, p e) (h0 : I s) : I s' := by
  induction h with
  | nil => exact h0
  | cons hs _ ih =>
    exact ih (fun e he => hp e (by simp [he])) (hstep _ _ _ (hp _ (by simp)) h0 hs)

/-- **The invariant rule with a history variable.** The step case gets the run so far, and may
use that the history with the new event is an initial part of the whole run. -/
theorem history {I : List ε → σ → Prop} (h0 : I [] s)
    (hstep : ∀ past s1 e s2, Run step s past s1 → past ++ [e] <+: es → I past s1 →
      step s1 e s2 → I (past ++ [e]) s2)
    (h : Run step s es s') : I es s' := by
  suffices ∀ past s1, Run step s past s1 → past <+: es → I past s1 from
    this es s' h List.prefix_rfl
  intro past
  induction past using List.reverseRecOn with
  | nil =>
    intro s1 h1 _
    rw [of_nil h1]
    exact h0
  | append_singleton past e ih =>
    intro s2 h2 hpre
    obtain ⟨s1, h1, hs⟩ := of_snoc h2
    exact hstep past s1 e s2 h1 hpre (ih s1 h1 ((List.prefix_append past [e]).trans hpre)) hs

/-- A run of a system is a run of any system that allows its steps. -/
theorem mono {step' : σ → ε → σ → Prop} (hstep : ∀ s e s', step s e s' → step' s e s')
    (h : Run step s es s') : Run step' s es s' := by
  induction h with
  | nil s => exact .nil s
  | cons hs _ ih => exact .cons (hstep _ _ _ hs) ih

end Run

/-! ## What has held since a step of the run -/

/-- The run contains a step as described by `start`, and in every state from there on `p` has
held. -/
def HeldSince (step : σ → ε → σ → Prop) (start : σ → ε → Prop) (p : σ → Prop) (s : σ)
    (es : List ε) (s' : σ) : Prop :=
  ∃ before e after s1 s2, es = before ++ e :: after ∧ Run step s before s1 ∧ start s1 e ∧
    step s1 e s2 ∧ p s2 ∧ Run (fun a e b => step a e b ∧ p b) s2 after s'

namespace HeldSince

variable {step : σ → ε → σ → Prop} {start : σ → ε → Prop} {p : σ → Prop} {s s1 s' : σ} {e : ε}
  {es : List ε}

theorem begin (h : Run step s es s1) (hstep : step s1 e s') (hstart : start s1 e) (hp : p s') :
    HeldSince step start p s (es ++ [e]) s' :=
  ⟨es, e, [], s1, s', rfl, h, hstart, hstep, hp, .nil s'⟩

theorem extend (h : HeldSince step start p s es s1) (hstep : step s1 e s') (hp : p s') :
    HeldSince step start p s (es ++ [e]) s' := by
  obtain ⟨before, e0, after, a, b, rfl, hbefore, hstart, hfirst, hb, hafter⟩ := h
  exact ⟨before, e0, after ++ [e], a, b, by simp, hbefore, hstart, hfirst, hb,
    hafter.snoc ⟨hstep, hp⟩⟩

end HeldSince

section Perform

variable {κ ρ π : Type*} {call : σ → κ → Except π (ρ × σ)} {es : List (κ × ρ)} {cs : List κ}

/-- Make calls one after another, as long as they succeed and meet a condition, and record them
with their replies. -/
def perform (call : σ → κ → Except π (ρ × σ)) (p : σ → κ × ρ → Prop)
    [∀ s e, Decidable (p s e)] (s : σ) : List κ → Option (List (κ × ρ) × σ)
  | [] => some ([], s)
  | c :: cs =>
    match call s c with
    | .error _ => none
    | .ok (reply, s1) =>
      if p s (c, reply) then (perform call p s1 cs).map fun x => ((c, reply) :: x.1, x.2) else none

/-- What has been performed is a run whose steps all meet the condition. -/
theorem Run.of_perform {p : σ → κ × ρ → Prop} [∀ s e, Decidable (p s e)] {s s' : σ}
    (h : perform call p s cs = some (es, s')) :
    Run (fun s e s' => call s e.1 = .ok (e.2, s') ∧ p s e) s es s' := by
  induction cs generalizing s es with
  | nil =>
    obtain ⟨rfl, rfl⟩ := Prod.mk.inj (Option.some.inj h)
    exact .nil s
  | cons c cs ih =>
    rw [perform] at h
    split at h
    · cases h
    · rename_i reply s1 hcall
      split_ifs at h with hp
      obtain ⟨⟨rest, s2⟩, hrest, heq⟩ := Option.map_eq_some_iff.mp h
      obtain ⟨rfl, rfl⟩ := Prod.mk.inj heq
      exact .cons ⟨hcall, hp⟩ (ih hrest)

theorem Run.of_calls {s s' : σ} (h : perform call (fun _ _ => True) s cs = some (es, s')) :
    Run (fun s e s' => call s e.1 = .ok (e.2, s')) s es s' :=
  (of_perform h).mono fun _ _ _ hstep => hstep.1

end Perform

/-! ## Clocks -/

/-- A step beside a clock that does not go back; an event with a reading sets the clock. -/
def Timed (time : ε → Option ℕ) (step : σ → ε → σ → Prop) (s : σ × ℕ) (e : ε) (s' : σ × ℕ) : Prop :=
  step s.1 e s'.1 ∧ s.2 ≤ s'.2 ∧ ∀ t ∈ time e, s'.2 = t

/-- The clock readings of a run never decrease; `time` gives the reading of an event, if it has
one. -/
def Clocked (time : ε → Option ℕ) (es : List ε) : Prop := (es.filterMap time).Pairwise (· ≤ ·)

instance (time : ε → Option ℕ) (es : List ε) : Decidable (Clocked time es) :=
  inferInstanceAs (Decidable (List.Pairwise _ _))

namespace Clocked

variable {time : ε → Option ℕ} {es fs : List ε} {e : ε} {t now : ℕ}

theorem of_initial (h : Clocked time es) (hpre : fs <+: es) : Clocked time fs :=
  List.Pairwise.sublist (hpre.sublist.filterMap time) h

/-- Every earlier reading is at most the last one. -/
theorem le_last (h : Clocked time (es ++ [e])) (he : time e = some now)
    (ht : t ∈ es.filterMap time) : t ≤ now := by
  rw [Clocked, List.filterMap_append, List.pairwise_append] at h
  exact h.2.2 t ht now (by simp [he])

end Clocked

end LinkLake
