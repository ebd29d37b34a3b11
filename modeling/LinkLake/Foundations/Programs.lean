import Mathlib

/-!
# Programs of actions

A program against some state is a tree of actions and answers (`Program`). What its actions are
(`Program.Only`) and what it returns (`Program.Yields`) is known whatever the answers are.
-/

namespace LinkLake

/-- A program that takes actions `ι`, goes on with the answer to each, and returns an `α`. -/
inductive Program {ι : Type} (answer : ι → Type) (α : Type)
  | done (a : α)
  | act (i : ι) (next : answer i → Program answer α)

namespace Program

variable {ι : Type} {answer : ι → Type} {α β ε : Type} {allowed : ι → Prop}
  {f : α → ExceptT ε (Program answer) β} {p : Program answer α}
  {x : ExceptT ε (Program answer) α}

/-- Go on with the result. -/
def bind (f : α → Program answer β) : Program answer α → Program answer β
  | done a => f a
  | act i next => act i fun r => bind f (next r)

instance : Monad (Program answer) where
  pure := done
  bind p f := bind f p

/-- Take one action. -/
def perform (i : ι) : Program answer (answer i) := act i done

/-- One action of a program that may fail. -/
def take (i : ι) : ExceptT ε (Program answer) (answer i) := ExceptT.lift (perform i)

/-- The program takes only actions of a certain kind. -/
def Only (allowed : ι → Prop) : Program answer α → Prop
  | done _ => True
  | act i next => allowed i ∧ ∀ r, Only allowed (next r)

theorem Only.bind {f : α → Program answer β}
    (hp : p.Only allowed) (hf : ∀ a, (f a).Only allowed) : (p >>= f).Only allowed := by
  change (Program.bind f p).Only allowed
  induction p with
  | done a => exact hf a
  | act i next ih => exact ⟨hp.1, fun r => ih r (hp.2 r)⟩

theorem Only.except_bind (hx : Only allowed x.run)
    (hf : ∀ a, Only allowed (f a).run) : Only allowed (x >>= f).run :=
  hx.bind fun
    | .error _ => trivial
    | .ok a => hf a

theorem Only.lift_bind (hp : p.Only allowed)
    (hf : ∀ a, Only allowed (f a).run) : Only allowed (ExceptT.lift p >>= f).run := by
  change Only allowed (Program.bind (ExceptT.bindCont f) (Program.bind (done ∘ Except.ok) p))
  induction p with
  | done a => exact hf a
  | act i next ih => exact ⟨hp.1, fun r => ih r (hp.2 r)⟩

theorem only_take {i : ι} {f : answer i → ExceptT ε (Program answer) β}
    (hi : allowed i) (hf : ∀ r, Only allowed (f r).run) : Only allowed (take i >>= f).run :=
  ⟨hi, hf⟩

theorem Only.mono {allowed' : ι → Prop} (hp : p.Only allowed)
    (h : ∀ i, allowed i → allowed' i) : p.Only allowed' := by
  induction p with
  | done a => trivial
  | act i next ih => exact ⟨h i hp.1, fun r => ih r (hp.2 r)⟩

/-- Whenever the program succeeds, its value has a property. -/
def Yields (P : α → Prop) : Program answer (Except ε α) → Prop
  | done r => ∀ a, r = .ok a → P a
  | act _ next => ∀ r, Yields P (next r)

/-- The value of a sequence is that of its second part. -/
theorem yields_except_bind {P : β → Prop} (hf : ∀ a, Yields P (f a).run) :
    Yields P (x >>= f).run := by
  change Yields P (Program.bind (ExceptT.bindCont f) x.run)
  induction x.run with
  | done r =>
    cases r with
    | error e => exact fun a ha => nomatch ha
    | ok a => exact hf a
  | act i next ih => exact ih

/-- The rule for a sequence, with what is known of the intermediate value. -/
theorem Only.except_bind_of {P : α → Prop}
    (hx : Only allowed x.run) (hyields : Yields P x.run) (hf : ∀ a, P a → Only allowed (f a).run) :
    Only allowed (x >>= f).run := by
  change Only allowed (Program.bind (ExceptT.bindCont f) x.run)
  generalize x.run = p at hx hyields
  induction p with
  | done r =>
    cases r with
    | error e => trivial
    | ok a => exact hf a (hyields a rfl)
  | act i next ih => exact ⟨hx.1, fun r => ih r (hx.2 r) (hyields r)⟩

end Program

end LinkLake
