import LinkLake.Foundations.Programs

/-!
# Programs that a crash can cut off

A program takes its actions one after another until it returns, or until a crash stops it: between
two actions, or in the middle of one, which then has been done in part. `CrashMachine` says what an
action does and what a crash in the middle of it leaves; the environment has a say in both.

* `CrashMachine.Ends admits p s r s'` says that `p` can end with the result `r` in the state `s'`;
  no result means that it was cut off. Only crashes that `admits` allows are considered, in terms of
  the state, of the action that comes next and of the state that the crash leaves.
* `CrashMachine.Guards` is the weakest precondition with a crash condition: the postcondition holds
  when the program returns, and the crash condition wherever it can be cut off.
-/

namespace LinkLake

/-- What an action does, and what a crash in the middle of it leaves. -/
structure CrashMachine {ι : Type} (answer : ι → Type) (χ σ : Type) where
  perform : χ → σ → (i : ι) → answer i × σ
  torn : χ → σ → ι → σ

namespace CrashMachine

variable {ι : Type} {answer : ι → Type} {χ σ α β ε : Type} (m : CrashMachine answer χ σ)
  {r : Option α}

/-- How a program can end: it returns, or a crash cuts it off. -/
inductive Ends (admits : σ → ι → σ → Prop) : Program answer α → σ → Option α → σ → Prop
  | returns (a : α) (s : σ) : Ends admits (.done a) s (some a) s
  | unanswered (a : α) (s : σ) : Ends admits (.done a) s none s
  | stops {i : ι} {next : answer i → Program answer α} {s : σ} (h : admits s i s) :
      Ends admits (.act i next) s none s
  | tears {i : ι} {next : answer i → Program answer α} {s : σ} (x : χ)
      (h : admits s i (m.torn x s i)) : Ends admits (.act i next) s none (m.torn x s i)
  | acts {i : ι} {next : answer i → Program answer α} {s s' : σ} {r : Option α} (x : χ)
      (h : Ends admits (next (m.perform x s i).1) (m.perform x s i).2 r s') :
      Ends admits (.act i next) s r s'

theorem Ends.mono {admits admits' : σ → ι → σ → Prop} {p : Program answer α} {s s' : σ}
    (h : Ends m admits p s r s') (hle : ∀ s i s', admits s i s' → admits' s i s') :
    Ends m admits' p s r s' := by
  induction h with
  | returns a s => exact .returns a s
  | unanswered a s => exact .unanswered a s
  | stops h => exact .stops (hle _ _ _ h)
  | tears x h => exact .tears x (hle _ _ _ h)
  | acts x _ ih => exact .acts x ih

/-- Whatever the environment does, the program keeps the crash condition wherever it can be cut off,
and returns with the postcondition. -/
def Guards (admits : σ → ι → σ → Prop) (crash : σ → Prop) (post : α → σ → Prop) :
    Program answer α → σ → Prop
  | .done a, s => crash s ∧ post a s
  | .act i next, s => ((admits s i s → crash s) ∧
        ∀ x, admits s i (m.torn x s i) → crash (m.torn x s i)) ∧
      ∀ x, Guards admits crash post (next (m.perform x s i).1) (m.perform x s i).2

variable {m} {admits : σ → ι → σ → Prop} {crash crash' : σ → Prop} {post post' : α → σ → Prop}
  {p : Program answer α} {s s' : σ} {f : α → ExceptT ε (Program answer) β}
  {x : ExceptT ε (Program answer) α} {xs : List χ}

theorem Guards.of_return {a : α} (h : m.Guards admits crash post p s)
    (hends : m.Ends admits p s (some a) s') : post a s' := by
  generalize hr : some a = r at hends
  induction hends with
  | returns b s =>
    cases hr
    exact h.2
  | unanswered b s => cases hr
  | stops hadmits => cases hr
  | tears x hadmits => cases hr
  | acts x _ ih => exact ih (h.2 x) hr

theorem Guards.of_crash (h : m.Guards admits crash post p s)
    (hends : m.Ends admits p s none s') : crash s' := by
  generalize hr : (none : Option α) = r at hends
  induction hends with
  | returns b s => cases hr
  | unanswered b s => exact h.1
  | stops hadmits => exact h.1.1 hadmits
  | tears x hadmits => exact h.1.2 x hadmits
  | acts x _ ih => exact ih (h.2 x) hr

theorem Guards.of_ends {crash : σ → Prop}
    (h : m.Guards admits crash (fun _ => crash) p s) (hends : m.Ends admits p s r s') : crash s' := by
  cases r with
  | none => exact h.of_crash hends
  | some a => exact h.of_return hends

theorem Guards.mono (h : m.Guards admits crash post p s)
    (hcrash : ∀ s, crash s → crash' s) (hpost : ∀ a s, post a s → post' a s) :
    m.Guards admits crash' post' p s := by
  induction p generalizing s with
  | done a => exact ⟨hcrash s h.1, hpost a s h.2⟩
  | act i next ih =>
    exact ⟨⟨fun hadmits => hcrash s (h.1.1 hadmits),
      fun x hadmits => hcrash _ (h.1.2 x hadmits)⟩, fun x => ih _ (h.2 x)⟩

theorem guards_trivial : m.Guards admits (fun _ => True) (fun _ _ => True) p s := by
  induction p generalizing s with
  | done a => exact ⟨trivial, trivial⟩
  | act i next ih => exact ⟨⟨fun _ => trivial, fun _ _ => trivial⟩, fun x => ih _⟩

theorem guards_of_yields {P : α → Prop} {p : Program answer (Except ε α)} (h : p.Yields P) :
    m.Guards admits (fun _ => True) (fun r _ => ∀ a, r = .ok a → P a) p s := by
  induction p generalizing s with
  | done r => exact ⟨trivial, h⟩
  | act i next ih => exact ⟨⟨fun _ => trivial, fun _ _ => trivial⟩, fun x => ih _ (h _)⟩

theorem Guards.and (h : m.Guards admits crash post p s) (h' : m.Guards admits crash' post' p s) :
    m.Guards admits (fun s => crash s ∧ crash' s) (fun a s => post a s ∧ post' a s) p s := by
  induction p generalizing s with
  | done a => exact ⟨⟨h.1, h'.1⟩, h.2, h'.2⟩
  | act i next ih =>
    exact ⟨⟨fun hadmits => ⟨h.1.1 hadmits, h'.1.1 hadmits⟩,
      fun x hadmits => ⟨h.1.2 x hadmits, h'.1.2 x hadmits⟩⟩, fun x => ih _ (h.2 x) (h'.2 x)⟩

/-- The sequencing rule, with what is known of the intermediate result. -/
theorem Guards.bind {f : α → Program answer β} {post' : β → σ → Prop}
    (h : m.Guards admits crash post p s)
    (hf : ∀ a s, post a s → m.Guards admits crash post' (f a) s) :
    m.Guards admits crash post' (p >>= f) s := by
  change m.Guards admits crash post' (Program.bind f p) s
  induction p generalizing s with
  | done a => exact hf a s h.2
  | act i next ih => exact ⟨h.1, fun x => ih _ (h.2 x)⟩

/-- The rule for one action of a program that may fail. -/
theorem guards_take {i : ι} {f : answer i → ExceptT ε (Program answer) β}
    {post : Except ε β → σ → Prop} :
    m.Guards admits crash post (Program.take i >>= f).run s ↔
      ((admits s i s → crash s) ∧ ∀ x, admits s i (m.torn x s i) → crash (m.torn x s i)) ∧
        ∀ x, m.Guards admits crash post (f (m.perform x s i).1).run (m.perform x s i).2 := Iff.rfl

variable {post' : Except ε β → σ → Prop}

/-- The sequencing rule for programs that may fail. -/
theorem Guards.except_bind {post : Except ε α → σ → Prop} (h : m.Guards admits crash post x.run s)
    (herror : ∀ e s, post (.error e) s → crash s ∧ post' (.error e) s)
    (hok : ∀ a s, post (.ok a) s → m.Guards admits crash post' (f a).run s) :
    m.Guards admits crash post' (x >>= f).run s :=
  h.bind fun
    | .error e, s, hpost => herror e s hpost
    | .ok a, s, hpost => hok a s hpost

/-- The sequencing rule for a program whose failure is a result. -/
theorem Guards.lift_bind (h : m.Guards admits crash post p s)
    (hf : ∀ a s, post a s → m.Guards admits crash post' (f a).run s) :
    m.Guards admits crash post' (ExceptT.lift p >>= f).run s := by
  change m.Guards admits crash post'
    (Program.bind (ExceptT.bindCont f) (Program.bind (Program.done ∘ Except.ok) p)) s
  induction p generalizing s with
  | done a => exact hf a s h.2
  | act i next ih => exact ⟨h.1, fun x => ih _ (h.2 x)⟩

/-- The sequencing rule for a condition that holds throughout. -/
theorem Guards.seq {I : σ → Prop} (h : m.Guards admits I (fun _ => I) x.run s)
    (hf : ∀ a s, I s → m.Guards admits I (fun _ => I) (f a).run s) :
    m.Guards admits I (fun _ => I) (x >>= f).run s :=
  h.except_bind (fun _ _ hs => ⟨hs, hs⟩) fun a s hs => hf a s hs

/-- If every action of the program keeps a condition, and so does a crash in the middle of one, then
the condition holds however the program ends. -/
theorem guards_of_only {allowed : ι → Prop} (hp : p.Only allowed) (hs : crash s)
    (hperform : ∀ x s i, allowed i → crash s → crash (m.perform x s i).2)
    (htorn : ∀ x s i, allowed i → crash s → crash (m.torn x s i)) :
    m.Guards admits crash (fun _ => crash) p s := by
  induction p generalizing s with
  | done a => exact ⟨hs, hs⟩
  | act i next ih =>
    exact ⟨⟨fun _ => hs, fun x _ => htorn x s i hp.1 hs⟩,
      fun x => ih _ (hp.2 _) (hperform x s i hp.1 hs)⟩

/-! ## Playing a program -/

/-- Let a program run to its end, with the choices of the environment in order. -/
def execute (m : CrashMachine answer χ σ) : (ℕ → χ) → Program answer α → σ → α × σ
  | _, .done a, s => (a, s)
  | choices, .act i next, s =>
    let r := m.perform (choices 0) s i
    execute m (fun n => choices (n + 1)) (next r.1) r.2

theorem Guards.execute (h : m.Guards admits crash post p s) (choices : ℕ → χ) :
    post (m.execute choices p s).1 (m.execute choices p s).2 := by
  induction p generalizing s choices with
  | done a => exact h.2
  | act i next ih => exact ih _ (h.2 _) _

/-- Let a program take one action for each choice of the environment; then it is cut off, unless it
has returned. -/
def play (m : CrashMachine answer χ σ) : List χ → Program answer α → σ → Option α × σ
  | _, .done a, s => (some a, s)
  | [], .act _ _, s => (none, s)
  | x :: xs, .act i next, s => play m xs (next (m.perform x s i).1) (m.perform x s i).2

/-- Let a program take one action for each choice of the environment; then a crash falls into the
next one. -/
def tear (m : CrashMachine answer χ σ) (x : χ) : List χ → Program answer α → σ → Option σ
  | _, .done _, _ => none
  | [], .act i _, s => some (m.torn x s i)
  | y :: ys, .act i next, s => tear m x ys (next (m.perform y s i).1) (m.perform y s i).2

theorem ends_play {a : α} (h : m.play xs p s = (some a, s')) : m.Ends admits p s (some a) s' := by
  induction xs generalizing p s with
  | nil =>
    cases p with
    | done b =>
      obtain ⟨hb, rfl⟩ := Prod.mk.inj h
      obtain rfl := Option.some.inj hb
      exact .returns b s
    | act i next => cases (Prod.mk.inj h).1
  | cons x xs ih =>
    cases p with
    | done b =>
      obtain ⟨hb, rfl⟩ := Prod.mk.inj h
      obtain rfl := Option.some.inj hb
      exact .returns b s
    | act i next => exact .acts x (ih h)

theorem ends_tear {x : χ} (h : m.tear x xs p s = some s') :
    m.Ends (fun _ _ _ => True) p s none s' := by
  induction xs generalizing p s with
  | nil =>
    cases p with
    | done b => cases h
    | act i next =>
      cases h
      exact .tears x trivial
  | cons y ys ih =>
    cases p with
    | done b => cases h
    | act i next => exact .acts y (ih h)

end CrashMachine

end LinkLake
