import LinkLake.Foundations.SharedBudget

/-!
# Calls on shared counters, one after the other

What one worker of a pool sees of the others is what they hold of the counters. `exec` is a call in
such surroundings: a stream says what the other workers hold at each of its steps.

* `Yields` says which results a call can have at all, `Obtains` that it has one because nothing
  it asks for is refused; `Ensures.exec` and `Obtains.exec` carry what is proved of a program
  over to its executions.
* `CallStep` is one call of a worker, and `sequential_of_run` says that this is all there is: each
  reply in an interleaving is the reply to the last of a sequence of calls.
-/

namespace LinkLake

open FiniteMap

namespace BudgetProg

variable {κ α β : Type} {message : String} {f : α → BudgetProg κ β} {o : Option α}

/-! ## Possible results -/

/-- The call can end with `b`. -/
def Yields : BudgetProg κ α → α → Prop
  | done a, b => a = b
  | abort _, _ => False
  | reserve _ _ next, b => ∃ granted, Yields (next granted) b
  | release _ _ next, b => Yields next b

@[simp] theorem yields_pure {a b : α} : Yields (pure a : BudgetProg κ α) b ↔ a = b := Iff.rfl

@[simp] theorem yields_expect {b : α} :
    Yields (expect message o : BudgetProg κ α) b ↔ o = some b := by
  cases o with
  | none => simp [expect, Yields]
  | some a => simp [expect, Yields]

theorem yields_bind {p : BudgetProg κ α} {b : β} :
    Yields (p >>= f) b ↔ ∃ a, Yields p a ∧ Yields (f a) b := by
  change Yields (bind f p) b ↔ _
  induction p with
  | done a => simp [bind, Yields]
  | abort message => simp [bind, Yields]
  | reserve counter amount next ih =>
    simp only [bind, Yields, ih]
    exact ⟨fun ⟨g, a, h, h'⟩ => ⟨a, ⟨g, h⟩, h'⟩, fun ⟨a, ⟨g, h⟩, h'⟩ => ⟨g, a, h, h'⟩⟩
  | release counter amount next ih => exact ih

theorem yields_expect_bind {b : β} :
    Yields (expect message o >>= f) b ↔ ∃ a, o = some a ∧ Yields (f a) b := by
  rw [yields_bind]
  simp only [yields_expect]

theorem yields_mapM_expect {f : β → Option α} {xs : List β} {as : List α} :
    Yields (xs.mapM fun x => expect message (f x) : BudgetProg κ (List α)) as ↔
      xs.map f = as.map some := by
  induction xs generalizing as with
  | nil => cases as <;> simp
  | cons x xs ih =>
    rw [List.mapM_cons, yields_expect_bind]
    simp only [yields_bind, ih, yields_pure]
    cases as with
    | nil => simp
    | cons a as => simp

/-! ## Executions -/

variable [DecidableEq κ]

/-- The call in surroundings that hold `others` at its steps; the result goes with what is held
then. -/
def exec (limit : κ → ℕ) : BudgetProg κ α → Stream' (κ → ℕ) → (κ → ℕ) → Option (α × (κ → ℕ))
  | done a, _, held => some (a, held)
  | abort _, _, _ => none
  | reserve counter amount next, others, held =>
    if held counter + others.head counter + amount ≤ limit counter then
      exec limit (next true) others.tail (raise held counter amount)
    else exec limit (next false) others.tail held
  | release counter amount next, others, held =>
    exec limit next others.tail (lower held counter amount)

variable {post : α → (κ → ℕ) → Prop} {p : BudgetProg κ α} {held : κ → ℕ}

section Exec

variable {limit : κ → ℕ} {held' : κ → ℕ} {others : Stream' (κ → ℕ)} {a : α}

theorem yields_of_exec (h : exec limit p others held = some (a, held')) : Yields p a := by
  induction p generalizing others held with
  | done b => exact (Prod.mk.inj (Option.some.inj h)).1
  | abort message => cases h
  | reserve counter amount next ih =>
    rw [exec] at h
    split at h
    · exact ⟨true, ih true h⟩
    · exact ⟨false, ih false h⟩
  | release counter amount next ih => exact ih h

/-- What a call ensures, its executions end with. -/
theorem Ensures.exec (hp : Ensures limit post p held)
    (h : exec limit p others held = some (a, held')) : post a held' := by
  induction p generalizing others held with
  | done b =>
    cases h
    exact hp
  | abort message => cases h
  | reserve counter amount next ih =>
    rw [BudgetProg.exec] at h
    split at h
    · exact ih true (hp.1 (by omega)) h
    · exact ih false hp.2 h
  | release counter amount next ih => exact ih hp.2 h

/-- The call asks for nothing beyond `room`, and, everything being granted, ends as described. -/
def Obtains (room : κ → ℕ) (post : α → (κ → ℕ) → Prop) : BudgetProg κ α → (κ → ℕ) → Prop
  | done a, held => post a held
  | abort _, _ => False
  | reserve counter amount next, held =>
    held counter + amount ≤ room counter ∧
      Obtains room post (next true) (raise held counter amount)
  | release counter amount next, held => Obtains room post next (lower held counter amount)

/-- With room enough beside the others, a call gets what it asks for. -/
theorem Obtains.exec {room : κ → ℕ} (hp : Obtains room post p held)
    (hroom : ∀ k c, others.get k c + room c ≤ limit c)
    (h : BudgetProg.exec limit p others held = some (a, held')) : post a held' := by
  induction p generalizing others held with
  | done b =>
    cases h
    exact hp
  | abort message => cases h
  | reserve counter amount next ih =>
    obtain ⟨hamount, hnext⟩ := hp
    have hcounter : others.head counter + room counter ≤ limit counter := hroom 0 counter
    rw [BudgetProg.exec, if_pos (by omega)] at h
    exact ih true hnext (fun k => hroom (k + 1)) h
  | release counter amount next ih => exact ih hp (fun k => hroom (k + 1)) h

end Exec

section Obtains

variable {room : κ → ℕ} {post' : α → (κ → ℕ) → Prop} {counter : κ} {amount : ℕ}

theorem obtains_bind {post : β → (κ → ℕ) → Prop} :
    Obtains room post (p >>= f) held ↔
      Obtains room (fun a held => Obtains room post (f a) held) p held := by
  change Obtains room post (bind f p) held ↔ _
  induction p generalizing held with
  | done a => exact Iff.rfl
  | abort message => exact Iff.rfl
  | reserve counter amount next ih => exact and_congr_right fun _ => ih true
  | release counter amount next ih => exact ih

section

variable (h : Obtains room post p held)
include h

theorem Obtains.mono
    (hpost : ∀ a held, post a held → post' a held) : Obtains room post' p held := by
  induction p generalizing held with
  | done a => exact hpost a held h
  | abort message => exact h
  | reserve counter amount next ih => exact ⟨h.1, ih true h.2⟩
  | release counter amount next ih => exact ih h

theorem Obtains.bind {post' : β → (κ → ℕ) → Prop}
    (hf : ∀ a held, post a held → Obtains room post' (f a) held) :
    Obtains room post' (p >>= f) held :=
  obtains_bind.mpr (h.mono hf)

/-- A call that obtains what it asks for also ends as it does in general. -/
theorem Obtains.and {limit : κ → ℕ}
    (hroom : ∀ c, room c ≤ limit c) (h' : Ensures limit post' p held) :
    Obtains room (fun a held => post a held ∧ post' a held) p held := by
  induction p generalizing held with
  | done a => exact ⟨h, h'⟩
  | abort message => exact h
  | reserve counter amount next ih =>
    exact ⟨h.1, ih true h.2 (h'.1 (h.1.trans (hroom counter)))⟩
  | release counter amount next ih => exact ih h h'.2

end

theorem obtains_tryReserve_bind {f : Bool → BudgetProg κ α} :
    Obtains room post (tryReserve counter amount >>= f) held ↔
      held counter + amount ≤ room counter ∧
        Obtains room post (f true) (raise held counter amount) := Iff.rfl

theorem obtains_expect_bind {o : Option β} {f : β → BudgetProg κ α} :
    Obtains room post (expect message o >>= f) held ↔
      ∃ b, o = some b ∧ Obtains room post (f b) held := by
  cases o with
  | none => simp only [reduceCtorEq, false_and, exists_false, iff_false]; exact id
  | some b => simp only [Option.some.injEq, exists_eq_left']; exact Iff.rfl

theorem obtains_giveBack_bind {f : Unit → BudgetProg κ α} :
    Obtains room post (giveBack counter amount >>= f) held ↔
      Obtains room post (f ()) (lower held counter amount) := Iff.rfl

/-- A loop whose passes can be made from everywhere can be made from everywhere. -/
theorem obtains_forM {f : β → BudgetProg κ Unit}
    (hf : ∀ x held, Obtains room (fun _ _ => True) (f x) held) (xs : List β) (held : κ → ℕ) :
    Obtains room (fun _ _ => True) (xs.forM f) held := by
  induction xs generalizing held with
  | nil => trivial
  | cons x xs ih => exact (hf x held).bind fun _ held' _ => ih held'

theorem obtains_mapM_expect {f : β → Option α} {xs : List β}
    (h : ∀ x ∈ xs, ∃ a, f x = some a) (held : κ → ℕ) :
    Obtains room (fun _ _ => True) (xs.mapM fun x => expect message (f x)) held := by
  induction xs with
  | nil => trivial
  | cons x xs ih =>
    rw [List.mapM_cons, obtains_expect_bind]
    obtain ⟨a, ha⟩ := h x (by simp)
    exact ⟨a, ha, (ih fun y hy => h y (by simp [hy])).bind fun _ _ _ => trivial⟩

end Obtains

end BudgetProg

/-! ## Calls -/

/-- A call, what the others hold while it is made, and the reply. -/
structure CallEvent (κ γ ρ : Type) where
  call : γ
  others : Stream' (κ → ℕ)
  reply : ρ

namespace BudgetSystem

variable {ι κ σ ρ ν γ : Type} [DecidableEq ι] [DecidableEq κ]

open BudgetProg (exec)

/-- A worker makes a call, and stays. -/
def CallStep (sys : BudgetSystem κ σ ρ ν γ) (s : σ) (e : CallEvent κ γ ρ) (s' : σ) : Prop :=
  ∃ held, exec sys.limit (sys.body s e.call) e.others (sys.held s) = some ((e.reply, some s'), held)

/-- A worker that was made, and has made calls of the allowed kind. -/
def Called (sys : BudgetSystem κ σ ρ ν γ) (allowed : σ → γ → Prop) (s : σ) : Prop :=
  ∃ args s0 es, sys.create args = some s0 ∧
    Run (fun s e s' => sys.CallStep s e s' ∧ allowed s e.call) s0 es s

/-- An idle worker has made calls; a busy one is in the middle of one more, of which `seen` is what
the others held at its steps so far. -/
def Sequential (sys : BudgetSystem κ σ ρ ν γ) (allowed : σ → γ → Prop) : Worker κ σ ρ → Prop
  | .idle s => sys.Called allowed s
  | .busy held p => ∃ s c, sys.Called allowed s ∧ allowed s c ∧ ∃ seen : List (κ → ℕ), ∀ others,
      exec sys.limit (sys.body s c) (seen ++ₛ others) (sys.held s) = exec sys.limit p others held

section Sequential

variable {sys : BudgetSystem κ σ ρ ν γ} {inv : σ → Prop} {allowed : σ → γ → Prop}
  {p p' : Pool ι κ σ ρ} {held : κ → ℕ}

theorem Sequential.tick {held' : κ → ℕ} {prog prog' : BudgetProg κ (ρ × Option σ)}
    (h : sys.Sequential allowed (.busy held prog)) (now : κ → ℕ)
    (hexec : ∀ others, exec sys.limit prog (Stream'.cons now others) held =
      exec sys.limit prog' others held') : sys.Sequential allowed (.busy held' prog') := by
  obtain ⟨s, c, hs, hc, seen, hseen⟩ := h
  refine ⟨s, c, hs, hc, seen ++ [now], fun others => ?_⟩
  rw [Stream'.append_append_stream]
  exact (hseen _).trans (hexec others)

theorem Sequential.done {result : ρ × Option σ}
    (h : sys.Sequential allowed (.busy held (.done result))) :
    ∃ s c others, sys.Called allowed s ∧ allowed s c ∧
      exec sys.limit (sys.body s c) others (sys.held s) = some (result, held) := by
  obtain ⟨s, c, hs, hc, seen, hseen⟩ := h
  exact ⟨s, c, seen ++ₛ Stream'.const held, hs, hc, hseen _⟩

theorem Called.step {s s' : σ} {c : γ} {others : Stream' (κ → ℕ)} {reply : ρ}
    (h : sys.Called allowed s) (hc : allowed s c)
    (hexec : exec sys.limit (sys.body s c) others (sys.held s) = some ((reply, some s'), held)) :
    sys.Called allowed s' := by
  obtain ⟨args, s0, es, hs0, hrun⟩ := h
  exact ⟨args, s0, es ++ [⟨c, others, reply⟩], hs0, hrun.snoc ⟨⟨held, hexec⟩, hc⟩⟩

/-- **One step.** Every worker goes on calling. -/
theorem sequential_step (hbalanced : Balanced sys inv p) {e : PoolEvent ι ν γ × Option ρ}
    (hallows : Allows allowed p e.1) (hstep : sys.Step p e p')
    (h : ∀ i w, p.workers.get? i = some w → sys.Sequential allowed w) :
    ∀ i w, p'.workers.get? i = some w → sys.Sequential allowed w := by
  -- one worker changes, and the others stay
  have hchange : ∀ {counters : κ → ℕ} {i : ι} {w : Worker κ σ ρ}, sys.Sequential allowed w →
      ∀ j v, (⟨counters, p.workers.insert i w⟩ : Pool ι κ σ ρ).workers.get? j = some v →
        sys.Sequential allowed v := fun hw => forall_insert h hw
  obtain ⟨event, reply⟩ := e
  cases event with
  | join i args =>
    simp only [Step, step] at hstep
    split at hstep
    · rename_i s _ hmade
      cases hstep
      exact hchange ⟨args, s, [], hmade, .nil s⟩
    · cases hstep
  | call i c =>
    simp only [Step, step] at hstep
    split at hstep
    · rename_i s hget
      cases hstep
      exact hchange ⟨s, c, h i _ hget, hallows s hget, [], fun _ => rfl⟩
    · cases hstep
  | tick i =>
    simp only [Step, step] at hstep
    split at hstep
    · rename_i held counter amount next hget
      have hown : held counter ≤ p.counters counter := hbalanced.holds_le hget counter
      split at hstep
      · rename_i hroom
        cases hstep
        refine hchange ((h i _ hget).tick (fun c => p.counters c - held c) fun others => ?_)
        rw [exec, Stream'.head_cons, if_pos (by omega)]
        rfl
      · rename_i hroom
        cases hstep
        refine hchange ((h i _ hget).tick (fun c => p.counters c - held c) fun others => ?_)
        rw [exec, Stream'.head_cons, if_neg (by omega)]
        rfl
    · rename_i held counter amount next hget
      cases hstep
      exact hchange ((h i _ hget).tick (fun c => p.counters c - held c) fun _ => rfl)
    · rename_i held answer s hget
      cases hstep
      obtain ⟨s1, c, others, hs1, hc, hexec⟩ := (h i _ hget).done
      exact hchange (hs1.step hc hexec)
    · cases hstep
      exact fun j v hj => h j v (get?_of_erase hj)
    · cases hstep

/-- **Every interleaving.** Each reply is the reply to the last of a sequence of calls of the worker
that gives it, and the worker is then as that call leaves it. -/
theorem sequential_of_run (hsys : sys.Sound inv allowed) {es : List (PoolEvent ι ν γ × Option ρ)}
    (hrun : Run (fun p e p' => sys.Step p e p' ∧ Allows allowed p e.1) start es p) {i : ι} {reply : ρ}
    (hstep : sys.Step p (.tick i, some reply) p') :
    ∃ s c others next held, sys.Called allowed s ∧ allowed s c ∧
      exec sys.limit (sys.body s c) others (sys.held s) = some ((reply, next), held) ∧
      p'.workers.get? i = next.map .idle := by
  have hall : Balanced sys inv p ∧ ∀ i w, p.workers.get? i = some w → sys.Sequential allowed w := by
    refine hrun.invariant (I := fun p => Balanced sys inv p ∧
      ∀ i w, p.workers.get? i = some w → sys.Sequential allowed w) (fun p e p' h hs => ?_)
      ⟨balanced_of_run hsys (.nil _), fun i w hget => by simp [start] at hget⟩
    exact ⟨h.1.step hsys hs.2 hs.1, sequential_step h.1 hs.2 hs.1 h.2⟩
  simp only [Step, step] at hstep
  split at hstep
  · split at hstep <;> simp at hstep
  · simp at hstep
  · rename_i held answer s hget
    obtain ⟨hreply, rfl⟩ := Prod.mk.inj (Option.some.inj hstep)
    cases hreply
    obtain ⟨s1, c, others, hs1, hc, hexec⟩ := (hall.2 i _ hget).done
    exact ⟨s1, c, others, some s, held, hs1, hc, hexec, get?_insert_self _ _ _⟩
  · rename_i held answer hget
    obtain ⟨hreply, rfl⟩ := Prod.mk.inj (Option.some.inj hstep)
    cases hreply
    obtain ⟨s1, c, others, hs1, hc, hexec⟩ := (hall.2 i _ hget).done
    exact ⟨s1, c, others, none, held, hs1, hc, hexec, get?_erase_self _ _⟩
  · cases hstep

end Sequential

end BudgetSystem

end LinkLake
