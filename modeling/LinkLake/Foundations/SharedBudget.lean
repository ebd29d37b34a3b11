import LinkLake.Foundations.FiniteMap
import LinkLake.Foundations.Runs

/-!
# Programs that share counters

Several workers reserve and release amounts of shared counters. Each update of a counter is one
atomic step, and the steps of the workers interleave freely; everything else a worker does is
its own business. A `BudgetProg` is a call as such a worker runs it.

* `BudgetProg.Ensures limit post p held` is the weakest precondition of a call, in terms of what the
  worker holds of each counter: a reservation that succeeds leaves the worker with no more than
  the limit, and nothing is released that is not held.
* `Pool` is the system: the counters and the workers, idle or in the middle of a call.
* `balanced_of_run`: if every call, for itself, accounts for what it holds, then in every
  interleaving the counters are the sums of what the workers hold and stay within their limits.
-/

namespace LinkLake

open FiniteMap

/-! ## Programs -/

/-- A call that updates shared counters `κ` and returns an `α`. -/
inductive BudgetProg (κ α : Type)
  | done (a : α)
  | abort (message : String)
  | reserve (counter : κ) (amount : ℕ) (next : Bool → BudgetProg κ α)
  | release (counter : κ) (amount : ℕ) (next : BudgetProg κ α)

namespace BudgetProg

variable {κ α β : Type}

/-- Go on with the result. -/
def bind (f : α → BudgetProg κ β) : BudgetProg κ α → BudgetProg κ β
  | done a => f a
  | abort message => abort message
  | reserve counter amount next => reserve counter amount fun granted => bind f (next granted)
  | release counter amount next => release counter amount (bind f next)

instance : Monad (BudgetProg κ) where
  pure := done
  bind p f := bind f p

instance : LawfulMonad (BudgetProg κ) := LawfulMonad.mk' _
  (fun p => by
    change bind done p = p
    induction p with
    | done a => rfl
    | abort message => rfl
    | reserve counter amount next ih => exact congrArg _ (funext ih)
    | release counter amount next ih => exact congrArg _ ih)
  (fun _ _ => rfl)
  (fun p f g => by
    change bind g (bind f p) = bind (fun a => bind g (f a)) p
    induction p with
    | done a => rfl
    | abort message => rfl
    | reserve counter amount next ih => exact congrArg _ (funext ih)
    | release counter amount next ih => exact congrArg _ ih)

/-- Reserve an amount, if the limit allows it. -/
def tryReserve (counter : κ) (amount : ℕ) : BudgetProg κ Bool := reserve counter amount done

/-- Give an amount back. -/
def giveBack (counter : κ) (amount : ℕ) : BudgetProg κ Unit := release counter amount (done ())

/-- The value of an option that is never empty. -/
def expect (message : String) : Option α → BudgetProg κ α
  | none => abort message
  | some a => done a

/-! ## What a call holds -/

variable [DecidableEq κ]

/-- More of one counter. -/
def raise (held : κ → ℕ) (counter : κ) (amount : ℕ) : κ → ℕ :=
  Function.update held counter (held counter + amount)

/-- Less of one counter. -/
def lower (held : κ → ℕ) (counter : κ) (amount : ℕ) : κ → ℕ :=
  Function.update held counter (held counter - amount)

/-- The call accounts for what it holds: it releases nothing that it does not hold, does not
abort, and when it is done the result goes with what it then holds. -/
def Ensures (limit : κ → ℕ) (post : α → (κ → ℕ) → Prop) : BudgetProg κ α → (κ → ℕ) → Prop
  | done a, held => post a held
  | abort _, _ => False
  | reserve counter amount next, held =>
    (held counter + amount ≤ limit counter →
      Ensures limit post (next true) (raise held counter amount)) ∧
      Ensures limit post (next false) held
  | release counter amount next, held =>
    amount ≤ held counter ∧ Ensures limit post next (lower held counter amount)

variable {limit : κ → ℕ} {post post' : α → (κ → ℕ) → Prop} {p : BudgetProg κ α} {held : κ → ℕ}
  {message : String} {f : α → BudgetProg κ β} {counter : κ} {amount : ℕ}

@[simp] theorem ensures_pure {a : α} :
    Ensures limit post (pure a : BudgetProg κ α) held ↔ post a held := Iff.rfl

@[simp] theorem ensures_abort : ¬ Ensures limit post (abort message : BudgetProg κ α) held := id

@[simp] theorem ensures_giveBack {post : Unit → (κ → ℕ) → Prop} :
    Ensures limit post (giveBack counter amount) held ↔
      amount ≤ held counter ∧ post () (lower held counter amount) := Iff.rfl

@[simp] theorem ensures_expect {o : Option α} :
    Ensures limit post (expect message o : BudgetProg κ α) held ↔ ∃ a, o = some a ∧ post a held := by
  cases o with
  | none => simp [expect]
  | some a => simp only [expect, Option.some.injEq, exists_eq_left']; exact Iff.rfl

theorem ensures_bind {post : β → (κ → ℕ) → Prop} :
    Ensures limit post (p >>= f) held ↔
      Ensures limit (fun a held => Ensures limit post (f a) held) p held := by
  change Ensures limit post (bind f p) held ↔ _
  induction p generalizing held with
  | done a => exact Iff.rfl
  | abort message => exact Iff.rfl
  | reserve counter amount next ih =>
    exact and_congr (imp_congr_right fun _ => ih true) (ih false)
  | release counter amount next ih => exact and_congr_right fun _ => ih

theorem ensures_tryReserve_bind {f : Bool → BudgetProg κ α} :
    Ensures limit post (tryReserve counter amount >>= f) held ↔
      (held counter + amount ≤ limit counter →
        Ensures limit post (f true) (raise held counter amount)) ∧
        Ensures limit post (f false) held := Iff.rfl

theorem ensures_giveBack_bind {f : Unit → BudgetProg κ α} :
    Ensures limit post (giveBack counter amount >>= f) held ↔
      amount ≤ held counter ∧ Ensures limit post (f ()) (lower held counter amount) := Iff.rfl

theorem ensures_expect_bind {o : Option β} {f : β → BudgetProg κ α} :
    Ensures limit post (expect message o >>= f) held ↔
      ∃ b, o = some b ∧ Ensures limit post (f b) held := by
  rw [ensures_bind, ensures_expect]

theorem Ensures.mono (h : Ensures limit post p held) (hpost : ∀ a held, post a held → post' a held) :
    Ensures limit post' p held := by
  induction p generalizing held with
  | done a => exact hpost a held h
  | abort message => exact h
  | reserve counter amount next ih => exact ⟨fun hle => ih true (h.1 hle), ih false h.2⟩
  | release counter amount next ih => exact ⟨h.1, ih h.2⟩

/-- The sequencing rule, with what is known of the intermediate result. -/
theorem Ensures.bind {post' : β → (κ → ℕ) → Prop} (h : Ensures limit post p held)
    (hf : ∀ a held, post a held → Ensures limit post' (f a) held) :
    Ensures limit post' (p >>= f) held :=
  ensures_bind.mpr (h.mono hf)

/-- The rule for a loop over a list: an invariant of what is still to come. -/
theorem Ensures.forM {f : α → BudgetProg κ Unit} (inv : List α → (κ → ℕ) → Prop)
    (hf : ∀ x xs held, inv (x :: xs) held → Ensures limit (fun _ held => inv xs held) (f x) held) :
    ∀ {xs : List α} {held : κ → ℕ}, inv xs held →
      Ensures limit (fun _ held => inv [] held) (xs.forM f) held
  | [], _, h => h
  | x :: xs, held, h => Ensures.bind (hf x xs held h) fun _ _ h =>
    Ensures.forM inv hf h

theorem ensures_mapM_expect {f : β → Option α} {xs : List β} (h : ∀ x ∈ xs, ∃ a, f x = some a) :
    Ensures limit (fun as held' => xs.map f = as.map some ∧ held' = held)
      (xs.mapM fun x => expect message (f x)) held := by
  induction xs with
  | nil => exact ⟨rfl, rfl⟩
  | cons x xs ih =>
    obtain ⟨a, ha⟩ := h x (by simp)
    rw [List.mapM_cons]
    refine ensures_expect_bind.mpr ⟨a, ha, ?_⟩
    refine Ensures.bind (ih fun y hy => h y (by simp [hy])) ?_
    rintro as _ ⟨has, rfl⟩
    exact ⟨by rw [List.map_cons, List.map_cons, ha, has], rfl⟩

end BudgetProg

/-! ## Workers -/

/-- A worker waits for a call, or is in the middle of one; then `held` is what it held when the
call began, with what the call has reserved and without what it has released. -/
inductive Worker (κ σ ρ : Type)
  | idle (s : σ)
  | busy (held : κ → ℕ) (p : BudgetProg κ (ρ × Option σ))

/-- The shared counters, and the workers. -/
structure Pool (ι κ σ ρ : Type) where
  counters : κ → ℕ
  workers : FiniteMap ι (Worker κ σ ρ)

/-- What can happen next: a worker joins, a call begins, or a call takes its next step. -/
inductive PoolEvent (ι ν γ : Type)
  | join (i : ι) (args : ν)
  | call (i : ι) (c : γ)
  | tick (i : ι)
  deriving DecidableEq, Repr

/-- What is fixed of a system of workers: the limits of the counters, how a worker is made, what it
does at a call (a worker may leave with it), and what it holds between calls. -/
structure BudgetSystem (κ σ ρ ν γ : Type) where
  limit : κ → ℕ
  create : ν → Option σ
  body : σ → γ → BudgetProg κ (ρ × Option σ)
  held : σ → κ → ℕ

namespace BudgetSystem

variable {ι κ σ ρ ν γ : Type} [DecidableEq ι] [DecidableEq κ]

open BudgetProg (raise lower)

/-- One step of the system, with the reply of a call that ends with it. -/
def step (sys : BudgetSystem κ σ ρ ν γ) (p : Pool ι κ σ ρ) :
    PoolEvent ι ν γ → Option (Option ρ × Pool ι κ σ ρ)
  | .join i args => match p.workers.get? i, sys.create args with
    | none, some s => some (none, { p with workers := p.workers.insert i (.idle s) })
    | _, _ => none
  | .call i c => match p.workers.get? i with
    | some (.idle s) =>
      some (none, { p with workers := p.workers.insert i (.busy (sys.held s) (sys.body s c)) })
    | _ => none
  | .tick i => match p.workers.get? i with
    | some (.busy held (.reserve counter amount next)) =>
      if p.counters counter + amount ≤ sys.limit counter then
        some (none, ⟨raise p.counters counter amount,
          p.workers.insert i (.busy (raise held counter amount) (next true))⟩)
      else some (none, { p with workers := p.workers.insert i (.busy held (next false)) })
    | some (.busy held (.release counter amount next)) =>
      some (none, ⟨lower p.counters counter amount,
        p.workers.insert i (.busy (lower held counter amount) next)⟩)
    | some (.busy _ (.done (reply, some s))) =>
      some (some reply, { p with workers := p.workers.insert i (.idle s) })
    | some (.busy _ (.done (reply, none))) =>
      some (some reply, { p with workers := p.workers.erase i })
    | _ => none

/-- One step, as a relation labelled by what happens and the reply of a call that ends. -/
def Step (sys : BudgetSystem κ σ ρ ν γ) (p : Pool ι κ σ ρ) (e : PoolEvent ι ν γ × Option ρ)
    (p' : Pool ι κ σ ρ) : Prop :=
  sys.step p e.1 = some (e.2, p')

/-- One step, for `perform`. -/
def attempt (sys : BudgetSystem κ σ ρ ν γ) (p : Pool ι κ σ ρ) (e : PoolEvent ι ν γ) :
    Except Unit (Option ρ × Pool ι κ σ ρ) :=
  (sys.step p e).elim (.error ()) .ok

/-- A schedule that can be performed is a run. -/
theorem run_of_perform {sys : BudgetSystem κ σ ρ ν γ} {q : Pool ι κ σ ρ → _ → Prop}
    [∀ p e, Decidable (q p e)] {p p' : Pool ι κ σ ρ} {schedule : List (PoolEvent ι ν γ)}
    {es : List (PoolEvent ι ν γ × Option ρ)} (h : perform sys.attempt q p schedule = some (es, p')) :
    Run (fun p e p' => sys.Step p e p' ∧ q p e) p es p' := by
  refine (Run.of_perform h).mono fun p1 e p2 hstep => ⟨?_, hstep.2⟩
  have hattempt := hstep.1
  rw [attempt] at hattempt
  rw [Step]
  cases hnext : sys.step p1 e.1 with
  | none =>
    rw [hnext] at hattempt
    cases hattempt
  | some next =>
    rw [hnext] at hattempt
    exact congrArg some (Except.ok.inj hattempt)

/-- Nobody is there. -/
def start : Pool ι κ σ ρ := ⟨fun _ => 0, ∅⟩

/-! ## The invariant -/

/-- What a worker holds. -/
def holds (sys : BudgetSystem κ σ ρ ν γ) (counter : κ) : Worker κ σ ρ → ℕ
  | .idle s => sys.held s counter
  | .busy held _ => held counter

/-- The result of a call goes with what the worker then holds; a worker leaves with nothing. -/
def Settled (sys : BudgetSystem κ σ ρ ν γ) (inv : σ → Prop) (r : ρ × Option σ) (held : κ → ℕ) :
    Prop :=
  match r.2 with
  | some s => inv s ∧ held = sys.held s
  | none => ∀ counter, held counter = 0

/-- An idle worker is in order, and a busy one will be. -/
def Accounts (sys : BudgetSystem κ σ ρ ν γ) (inv : σ → Prop) : Worker κ σ ρ → Prop
  | .idle s => inv s
  | .busy held p => p.Ensures sys.limit (sys.Settled inv) held

/-- The counters are what the workers hold, within the limits. -/
structure Balanced (sys : BudgetSystem κ σ ρ ν γ) (inv : σ → Prop) (p : Pool ι κ σ ρ) : Prop where
  counters : ∀ counter, p.counters counter = p.workers.total (sys.holds counter)
  limits : ∀ counter, p.counters counter ≤ sys.limit counter
  workers : ∀ i w, p.workers.get? i = some w → sys.Accounts inv w

/-- Every call accounts for itself: workers begin with nothing, and calls that are allowed keep the
invariant of a worker and what it holds together. -/
structure Sound (sys : BudgetSystem κ σ ρ ν γ) (inv : σ → Prop) (allowed : σ → γ → Prop) :
    Prop where
  create : ∀ args s, sys.create args = some s → inv s ∧ ∀ counter, sys.held s counter = 0
  body : ∀ s c, inv s → allowed s c →
    (sys.body s c).Ensures sys.limit (sys.Settled inv) (sys.held s)

/-- A step that begins a call begins one that is allowed. -/
def Allows (allowed : σ → γ → Prop) (p : Pool ι κ σ ρ) : PoolEvent ι ν γ → Prop
  | .call i c => ∀ s, p.workers.get? i = some (.idle s) → allowed s c
  | _ => True

instance {allowed : σ → γ → Prop} [∀ s c, Decidable (allowed s c)] (p : Pool ι κ σ ρ)
    (e : PoolEvent ι ν γ) : Decidable (Allows allowed p e) :=
  match e with
  | .join _ _ => .isTrue trivial
  | .tick _ => .isTrue trivial
  | .call i c => match h : p.workers.get? i with
    | some (.idle s) => decidable_of_iff (allowed s c)
      ⟨fun hs s' hget => by cases h.symm.trans hget; exact hs, fun hall => hall s h⟩
    | some (.busy _ _) => .isTrue fun s hget => by cases h.symm.trans hget
    | none => .isTrue fun s hget => by cases h.symm.trans hget

section Invariant

variable {sys : BudgetSystem κ σ ρ ν γ} {inv : σ → Prop} {allowed : σ → γ → Prop}
  {p p' : Pool ι κ σ ρ} {i : ι} {w w' : Worker κ σ ρ}

theorem Balanced.replace (h : Balanced sys inv p) (hget : p.workers.get? i = some w)
    {counters : κ → ℕ} (hcounters : ∀ c, counters c + sys.holds c w = p.counters c + sys.holds c w')
    (hlimits : ∀ c, counters c ≤ sys.limit c) (hw' : sys.Accounts inv w') :
    Balanced sys inv ⟨counters, p.workers.insert i w'⟩ where
  counters c := by
    have htotal := total_replace (sys.holds c) hget w'
    have hbefore := h.counters c
    have hafter := hcounters c
    simp only
    omega
  limits := hlimits
  workers := forall_insert h.workers hw'

theorem Balanced.holds_le (h : Balanced sys inv p) (hget : p.workers.get? i = some w) (c : κ) :
    sys.holds c w ≤ p.counters c := by
  rw [h.counters c]
  exact le_total (sys.holds c) hget

/-- **One step.** The counters stay what the workers hold. -/
theorem Balanced.step (hsys : sys.Sound inv allowed) (h : Balanced sys inv p)
    {e : PoolEvent ι ν γ × Option ρ} (hallows : Allows allowed p e.1) (hstep : sys.Step p e p') :
    Balanced sys inv p' := by
  obtain ⟨event, reply⟩ := e
  cases event with
  | join i args =>
    simp only [Step, BudgetSystem.step] at hstep
    split at hstep
    · rename_i s hfree hmade
      cases hstep
      obtain ⟨hs, hnothing⟩ := hsys.create args s hmade
      refine ⟨fun c => ?_, h.limits, forall_insert h.workers hs⟩
      rw [total_insert, erase_of_notMem (get?_eq_none.mp hfree), h.counters c]
      simp [holds, hnothing]
    · cases hstep
  | call i c =>
    simp only [Step, BudgetSystem.step] at hstep
    split at hstep
    · rename_i s hget
      cases hstep
      exact h.replace hget (fun _ => rfl) h.limits
        (hsys.body s c (h.workers i _ hget) (hallows s hget))
    · cases hstep
  | tick i =>
    simp only [Step, BudgetSystem.step] at hstep
    split at hstep
    · rename_i held counter amount next hget
      have hworker := h.workers i _ hget
      have hown : held counter ≤ p.counters counter := h.holds_le hget counter
      split at hstep
      · rename_i hroom
        cases hstep
        refine h.replace hget (fun c => ?_) (fun c => ?_) (hworker.1 (by omega))
        · by_cases hc : c = counter
          · subst hc
            simp only [holds, raise, Function.update_self]
            omega
          · simp [holds, raise, hc]
        · by_cases hc : c = counter
          · subst hc
            simpa [raise] using hroom
          · simpa [raise, hc] using h.limits c
      · cases hstep
        exact h.replace hget (fun _ => rfl) h.limits hworker.2
    · rename_i held counter amount next hget
      cases hstep
      have hworker := h.workers i _ hget
      have hown : held counter ≤ p.counters counter := h.holds_le hget counter
      have hamount : amount ≤ held counter := hworker.1
      refine h.replace hget (fun c => ?_) (fun c => ?_) hworker.2
      · by_cases hc : c = counter
        · subst hc
          simp only [holds, lower, Function.update_self]
          omega
        · simp [holds, lower, hc]
      · have hlimit := h.limits c
        by_cases hc : c = counter
        · subst hc
          simp only [lower, Function.update_self]
          omega
        · simpa [lower, hc] using hlimit
    · rename_i held answer s hget
      cases hstep
      obtain ⟨hs, rfl⟩ := h.workers i _ hget
      exact h.replace hget (fun _ => rfl) h.limits hs
    · rename_i held answer hget
      cases hstep
      have hnothing : ∀ c, held c = 0 := h.workers i _ hget
      refine ⟨fun c => ?_, h.limits, fun j v hj => ?_⟩
      · have herase := total_erase (sys.holds c) hget
        have hbefore := h.counters c
        simp only [holds, hnothing c] at herase hbefore ⊢
        omega
      · exact h.workers j v (get?_of_erase hj)
    · cases hstep

/-- **Every interleaving.** If every call accounts for itself, the counters are at every moment the
sums of what the workers hold, within their limits. -/
theorem balanced_of_run (hsys : sys.Sound inv allowed) {es : List (PoolEvent ι ν γ × Option ρ)}
    (hrun : Run (fun p e p' => sys.Step p e p' ∧ Allows allowed p e.1) start es p) :
    Balanced sys inv p :=
  hrun.invariant (fun _ _ _ h hstep => h.step hsys hstep.2 hstep.1)
    ⟨fun _ => rfl, fun _ => Nat.zero_le _, fun _ _ hget => by simp [start] at hget⟩

end Invariant

end BudgetSystem

end LinkLake
