import LinkLake.Updater.Transaction.Interrupted

/-!
# Replacing an executable

The executable is replaced by two renames: the installed one is renamed away, and the new one into
its place. If the second rename fails, the first one is undone, and if that fails, it is tried again
before the next attempt. The old executable is then never lost (`replaced_safely`), provided that
undoing it does not fail twice in a row and removing the replaced executable does not fail. If it
does, the next attempt starts by removing the only copy (`old_executable_lost`).
-/

namespace LinkLake.Updater

open CrashMachine

/-- The machine on which a call that fails has no effect, and only some calls may fail. -/
def plainFailures (formats : Formats) (mayFail : Action → Bool) :
    CrashMachine Action.Answer Choice World :=
  ⟨fun choice w action => perform formats
    { choice with fails := choice.fails && mayFail action, effective := false } w action, torn⟩

/-- The call renames a replaced executable back into its place. -/
def undoes : Action → Bool
  | .rename (.replaced _) .target => true
  | _ => false

/-- A replaced executable can be removed, and renamed back if that failed the last time. -/
def mayFail (undoFailed : Bool) : Action → Bool
  | .remove (.replaced _) => false
  | action => !(undoes action && undoFailed)

/-- The machine that does not fail twice in a row to rename a replaced executable back. Beside the
world it remembers whether it failed the last time. -/
def undoesInTwo (formats : Formats) : CrashMachine Action.Answer Choice (World × Bool) :=
  ⟨fun choice s action =>
    let r := (plainFailures formats (mayFail s.2)).perform choice s.1 action
    (r.1, r.2, if undoes action then choice.fails && mayFail s.2 action else s.2),
    fun choice s action => (torn choice s.1 action, s.2)⟩

/-- `atomicReplaceWithRetryInner` once it has its identifier, with any number of retries. -/
def replaceUnder (id : Uuid) (source : FileName) (allowMissingTarget : Bool) (attempts : ℕ) :
    Call Unit := do
  copyFile source (.incoming id)
  let expected ← sha256File source
  let actual ← sha256File (.incoming id)
  ensure (actual == expected) .incomingIncomplete
  retryReplace source id allowMissingTarget attempts

theorem atomicReplaceWithRetryInner_eq (source : FileName) (allowMissingTarget : Bool) :
    atomicReplaceWithRetryInner source allowMissingTarget = sys .newUuid >>= fun id =>
      replaceUnder id source allowMissingTarget helperRetryAttempts := rfl

section Replace

variable {formats : Formats} {id : Uuid} {source : FileName} {allowMissingTarget : Bool}
  {old : Option Content} {new : Content} {w : World} {s : World × Bool}

/-- The old executable, if there was one, is in place or renamed away, or the new one is in place. -/
def World.Keeps (id : Uuid) (old : Option Content) (new : Content) (w : World) : Prop :=
  old = none ∨ w.files.get? .target = old ∨ w.files.get? (.replaced id) = old ∨
    w.files.get? .target = some new

/-- The new executable is in place, and the old one is gone. -/
def World.Installed (id : Uuid) (new : Content) (w : World) : Prop :=
  w.files.get? .target = some new ∧ w.files.get? (.replaced id) = none

/-- What is under the three names, and under the name of the new executable. -/
structure World.Has (id : Uuid) (source : FileName) (new : Content) (target replaced incoming :
    Option Content) (w : World) : Prop where
  target : w.files.get? .target = target
  replaced : w.files.get? (.replaced id) = replaced
  incoming : w.files.get? (.incoming id) = incoming
  outside : source ≠ .target ∧ source ≠ .replaced id ∧ source ≠ .incoming id
  source : w.files.get? source = some new

/-- The old executable is in place, and an attempt may start. -/
def World.Waits (id : Uuid) (source : FileName) (old : Option Content) (new : Content)
    (w : World) : Prop :=
  ∃ incoming, w.Has id source new old none incoming ∧ (incoming = none ∨ incoming = some new)

/-- The old executable is renamed away, and could not be renamed back. -/
def Away (id : Uuid) (source : FileName) (old : Option Content) (new : Content)
    (s : World × Bool) : Prop :=
  s.2 = true ∧ ∃ o incoming, old = some o ∧ s.1.Has id source new none (some o) incoming ∧
    (incoming = none ∨ incoming = some new)

/-- The state after an attempt that failed. -/
def Between (id : Uuid) (source : FileName) (old : Option Content) (new : Content)
    (s : World × Bool) : Prop :=
  s.1.Waits id source old new ∨ Away id source old new s

theorem World.Waits.keeps (h : w.Waits id source old new) : w.Keeps id old new :=
  .inr (.inl h.choose_spec.1.target)

theorem Between.keeps (h : Between id source old new s) : s.1.Keeps id old new := by
  obtain h | ⟨-, o, _, rfl, hhas, -⟩ := h
  · exact h.keeps
  · exact .inr (.inr (.inl hhas.replaced))

theorem World.Installed.keeps (h : w.Installed id new) : w.Keeps id old new :=
  .inr (.inr (.inr h.1))

section Has

variable {t r i : Option Content} (h : w.Has id source new t r i)
include h

attribute [local simp] World.setFile World.eraseFile FiniteMap.get?_insert FiniteMap.get?_erase

/-! The calls move the executables between the names, and leave the new one where it came from. -/

theorem World.Has.renamedAway (o : Content) :
    ((w.eraseFile .target).setFile (.replaced id) o).Has id source new none (some o) i := by
  obtain ⟨_, _, _, _, _⟩ := h
  constructor <;> simp_all

theorem World.Has.renamedBack (o : Content) :
    ((w.eraseFile (.replaced id)).setFile .target o).Has id source new (some o) none i := by
  obtain ⟨_, _, _, _, _⟩ := h
  constructor <;> simp_all

theorem World.Has.renamedInto (o : Content) :
    ((w.eraseFile (.incoming id)).setFile .target o).Has id source new (some o) r none := by
  obtain ⟨_, _, _, _, _⟩ := h
  constructor <;> simp_all

theorem World.Has.copied (o : Content) :
    (w.setFile (.incoming id) o).Has id source new t r (some o) := by
  obtain ⟨_, _, _, _, _⟩ := h
  constructor <;> simp_all

theorem World.Has.replacedRemoved : (w.eraseFile (.replaced id)).Has id source new t none i := by
  obtain ⟨_, _, _, _, _⟩ := h
  constructor <;> simp_all

theorem World.Has.incomingRemoved : (w.eraseFile (.incoming id)).Has id source new t r none := by
  obtain ⟨_, _, _, _, _⟩ := h
  constructor <;> simp_all

end Has

section Rules

variable {α : Type} {post : Except UpdateError α → World × Bool → Prop}
  {file destination : FileName} {content : Content} {choice : Choice}

/-- Wherever the call is cut off the executable is kept, and the call returns with a postcondition. -/
def Safely (formats : Formats) (id : Uuid) (old : Option Content) (new : Content)
    (post : Except UpdateError α → World × Bool → Prop) (x : Call α) (s : World × Bool) : Prop :=
  (undoesInTwo formats).Guards (fun _ _ _ => True) (fun s => s.1.Keeps id old new) post x.run s

theorem safely_act {action : Action} {f : action.Answer → Call α} (hs : s.1.Keeps id old new)
    (htorn : ∀ choice, torn choice s.1 action = s.1)
    (h : ∀ choice, Safely formats id old new post
      (f ((undoesInTwo formats).perform choice s action).1)
      ((undoesInTwo formats).perform choice s action).2) :
    Safely formats id old new post (sys action >>= f) s :=
  guards_take.mpr ⟨⟨fun _ => hs, fun choice _ => (congrArg _ (htorn choice)).mpr hs⟩, h⟩

theorem safely_exists {f : Bool → Call α} (hs : s.1.Keeps id old new)
    (h : Safely formats id old new post (f (s.1.files.get? file).isSome) s) :
    Safely formats id old new post (sys (.exists file) >>= f) s :=
  safely_act hs (fun _ => rfl) fun _ => h

theorem perform_rename (h : s.1.files.get? file = some content)
    (hundoes : undoes (.rename file destination) = false) :
    (undoesInTwo formats).perform choice s (.rename file destination) =
      if choice.fails then (false, s)
      else (true, (s.1.eraseFile file).setFile destination content, s.2) := by
  have hmay : mayFail s.2 (.rename file destination) = true := by
    simp [mayFail, hundoes]
  cases hfails : choice.fails <;>
    simp [undoesInTwo, plainFailures, perform, h, Choice.settle, hundoes, hmay, hfails]

theorem perform_renameIncoming {t r i : Option Content} (h : s.1.Has id source new t r i)
    (hi : i = none ∨ i = some new) :
    (undoesInTwo formats).perform choice s (.rename (.incoming id) .target) = (false, s) ∨
      (undoesInTwo formats).perform choice s (.rename (.incoming id) .target) =
        (true, (s.1.eraseFile (.incoming id)).setFile .target new, s.2) := by
  obtain rfl | rfl := hi
  · exact .inl (by simp [undoesInTwo, plainFailures, perform, h.incoming, undoes])
  · rw [perform_rename h.incoming rfl]
    split_ifs
    · exact .inl rfl
    · exact .inr rfl

variable (formats choice) in
theorem perform_undo {o : Content} {i : Option Content} (h : s.1.Has id source new none (some o) i)
    (hi : i = none ∨ i = some new) :
    (s.2 = false ∧ Away id source (some o) new
        ((undoesInTwo formats).perform choice s (.rename (.replaced id) .target)).2) ∨
      ((undoesInTwo formats).perform choice s (.rename (.replaced id) .target)).2.1.Waits
        id source (some o) new := by
  obtain ⟨w, undoFailed⟩ := s
  simp only [undoesInTwo, plainFailures, perform, h.replaced, Choice.settle, undoes, mayFail]
  cases undoFailed <;> cases choice.fails
  · exact .inr ⟨i, h.renamedBack o, hi⟩
  · exact .inl ⟨rfl, rfl, o, i, rfl, h, hi⟩
  · exact .inr ⟨i, h.renamedBack o, hi⟩
  · exact .inr ⟨i, h.renamedBack o, hi⟩

end Rules

/-- What can be said of the end of one attempt. -/
def Attempted (id : Uuid) (source : FileName) (old : Option Content) (new : Content) :
    Except UpdateError Unit → World × Bool → Prop
  | .ok _, s => s.1.Installed id new
  | .error _, s => Between id source old new s

theorem safely_renameIncoming {o : Content} {i : Option Content}
    (h : s.1.Has id source new none (some o) i) (hi : i = none ∨ i = some new) :
    Safely formats id (some o) new (Attempted id source (some o) new) (renameIncoming true id) s := by
  have hkeeps : s.1.Keeps id (some o) new := .inr (.inr (.inl h.replaced))
  refine safely_act hkeeps (fun _ => rfl) fun choice => ?_
  obtain hperform | hperform := perform_renameIncoming h hi <;> rw [hperform]
  · refine safely_act hkeeps (fun _ => rfl) fun choice => ?_
    have hbetween : Between id source (some o) new
        ((undoesInTwo formats).perform choice s (.rename (.replaced id) .target)).2 :=
      (perform_undo _ _ h hi).elim (fun hfailed => .inr hfailed.2) .inl
    exact ⟨hbetween.keeps, hbetween⟩
  · have hnew := h.renamedInto new
    refine safely_act (.inr (.inr (.inr hnew.target))) (fun _ => rfl) fun choice => ?_
    have hremove : (undoesInTwo formats).perform choice
        ((s.1.eraseFile (.incoming id)).setFile .target new, s.2) (.remove (.replaced id)) =
        (true, ((s.1.eraseFile (.incoming id)).setFile .target new).eraseFile (.replaced id),
          s.2) := by
      simp [undoesInTwo, plainFailures, perform, hnew.replaced, mayFail, undoes, Choice.settle]
    rw [hremove]
    have hremoved := hnew.replacedRemoved
    have hinstalled : World.Installed id new _ := ⟨hremoved.target, hremoved.replaced⟩
    exact ⟨hinstalled.keeps, hinstalled⟩

/-- **One attempt.** -/
theorem safely_replaceAttempt (h : s.1.Waits id source old new) :
    Safely formats id old new (Attempted id source old new)
      (replaceAttempt id allowMissingTarget) s := by
  have ⟨i, hhas, hi⟩ := h
  have hremove : Safely formats id old new (fun r s' => r = .ok () ∧ s' = s)
      (removeIfPresent (.replaced id)) s := by
    refine safely_exists h.keeps ?_
    rw [hhas.replaced]
    exact ⟨h.keeps, rfl, rfl⟩
  refine hremove.except_bind (fun _ _ h => by cases h.1) fun _ s1 h1 => ?_
  obtain ⟨-, rfl⟩ := h1
  refine safely_exists h.keeps ?_
  rw [hhas.target]
  cases old with
  | some o =>
    refine safely_act h.keeps (fun _ => rfl) fun choice => ?_
    rw [perform_rename hhas.target rfl]
    split_ifs
    · exact ⟨h.keeps, .inl h⟩
    · exact safely_renameIncoming (hhas.renamedAway o) hi
  | none =>
    cases allowMissingTarget with
    | false => exact ⟨h.keeps, .inl h⟩
    | true =>
      refine safely_act h.keeps (fun _ => rfl) fun choice => ?_
      obtain hperform | hperform := perform_renameIncoming hhas hi <;> rw [hperform]
      · exact ⟨h.keeps, .inl h⟩
      · have hnew := hhas.renamedInto new
        exact ⟨.inl rfl, hnew.target, hnew.replaced⟩

section

variable (h : Between id source old new s)
include h

theorem safely_putBack :
    Safely formats id old new (fun r s' => r = .ok () ∧ s'.1.Waits id source old new)
      (putBack id) s := by
  refine safely_exists h.keeps (safely_exists h.keeps ?_)
  obtain h | ⟨hfailed, o, i, rfl, hhas, hi⟩ := h
  · rw [h.choose_spec.1.replaced, Option.isSome_none, Bool.and_false]
    exact ⟨h.keeps, rfl, h⟩
  · rw [hhas.target, hhas.replaced]
    refine safely_act (.inr (.inr (.inl hhas.replaced))) (fun _ => rfl) fun choice => ?_
    obtain ⟨hnot, -⟩ | hwaits := perform_undo formats choice hhas hi
    · cases hfailed.symm.trans hnot
    · exact ⟨hwaits.keeps, rfl, hwaits⟩

/-- The end of a replacement: nothing is lost, and it succeeds only with the new executable. -/
def Replaced (id : Uuid) (old : Option Content) (new : Content) (r : Except UpdateError Unit)
    (s : World × Bool) : Prop :=
  s.1.Keeps id old new ∧ ∀ a, r = .ok a → s.1.Installed id new

variable {error : UpdateError}

theorem Between.ends :
    s.1.Keeps id old new ∧ Replaced id old new (.error error) s := ⟨h.keeps, h.keeps, by simp⟩

theorem Between.get?_source : s.1.files.get? source = some new := by
  obtain ⟨_, hhas, -⟩ | ⟨-, _, _, -, hhas, -⟩ := h
  · exact hhas.source
  · exact hhas.source

theorem Between.copied : Between id source old new (s.1.setFile (.incoming id) new, s.2) := by
  obtain ⟨_, hhas, -⟩ | ⟨hfailed, o, _, hold, hhas, -⟩ := h
  · exact .inl ⟨_, hhas.copied new, .inr rfl⟩
  · exact .inr ⟨hfailed, o, _, hold, hhas.copied new, .inr rfl⟩

theorem Between.incomingRemoved :
    Between id source old new (s.1.eraseFile (.incoming id), s.2) := by
  obtain ⟨_, hhas, -⟩ | ⟨hfailed, o, _, hold, hhas, -⟩ := h
  · exact .inl ⟨none, hhas.incomingRemoved, .inl rfl⟩
  · exact .inr ⟨hfailed, o, none, hold, hhas.incomingRemoved, .inl rfl⟩

theorem safely_giveUp : Safely formats id old new (Replaced id old new) (giveUp id error) s := by
  refine safely_act h.keeps (fun _ => rfl) fun choice => ?_
  have hbetween : Between id source old new
      ((undoesInTwo formats).perform choice s (.remove (.incoming id))).2 := by
    cases hfails : choice.fails <;> cases hincoming : s.1.files.get? (.incoming id) <;>
      simp only [undoesInTwo, plainFailures, perform, undoes, mayFail, Choice.settle, hfails,
        hincoming]
    · exact h
    · exact h.incomingRemoved
    · exact h
    · exact h
  refine (safely_putBack hbetween).except_bind (fun _ _ h => by cases h.1) fun _ s1 h1 => ?_
  exact Between.ends (.inl h1.2)

theorem safely_copyFile :
    Safely formats id old new (fun _ s' => Between id source old new s' ∧ s'.2 = s.2)
      (copyFile source (.incoming id)) s := by
  -- a copy that is cut off leaves anything under the incoming name
  refine guards_take.mpr ⟨⟨fun _ => h.keeps, fun choice _ => ?_⟩, fun choice => ?_⟩
  · simpa [World.Keeps, undoesInTwo, torn, World.setFile, FiniteMap.get?_insert] using h.keeps
  have hperform : (undoesInTwo formats).perform choice s (.copy source (.incoming id)) =
      if choice.fails then (false, s) else (true, s.1.setFile (.incoming id) new, s.2) := by
    cases hfails : choice.fails <;>
      simp [undoesInTwo, plainFailures, perform, h.get?_source, mayFail, undoes, hfails]
  rw [hperform]
  split_ifs
  · exact ⟨h.keeps, h, rfl⟩
  · exact ⟨h.copied.keeps, h.copied, rfl⟩

theorem safely_sha256File {file : FileName} :
    Safely formats id old new (fun _ s' => Between id source old new s' ∧ s'.2 = s.2)
      (sha256File file) s := by
  refine safely_act h.keeps (fun _ => rfl) fun choice => ?_
  cases ((undoesInTwo formats).perform choice s (.sha256 file)).1 <;>
    exact ⟨h.keeps, h, rfl⟩

end

theorem safely_retryReplace (h : s.1.Waits id source old new) (attempts : ℕ) :
    Safely formats id old new (Replaced id old new)
      (retryReplace source id allowMissingTarget attempts) s := by
  induction attempts generalizing s with
  | zero =>
    refine (safely_replaceAttempt h).lift_bind fun r s1 h1 => ?_
    cases r with
    | ok _ => exact ⟨World.Installed.keeps h1, World.Installed.keeps h1, fun _ _ => h1⟩
    | error error => exact safely_giveUp h1
  | succ attempts ih =>
    refine (safely_replaceAttempt h).lift_bind fun r s1 h1 => ?_
    cases r with
    | ok _ => exact ⟨World.Installed.keeps h1, World.Installed.keeps h1, fun _ _ => h1⟩
    | error error =>
      replace h1 : Between id source old new s1 := h1
      refine safely_act h1.keeps (fun _ => rfl) fun choice => ?_
      change Safely formats id old new _ (if choice.expired then _ else _ : Call Unit) s1
      have hcopied : Safely formats id old new
          (fun _ s' => Between id source old new s' ∧ s'.2 = s1.2)
          (copyIfMissing source (.incoming id)) s1 := by
        refine safely_exists h1.keeps ?_
        split_ifs
        · exact ⟨h1.keeps, h1, rfl⟩
        · exact safely_copyFile h1
      split_ifs
      · exact safely_giveUp h1
      · refine hcopied.except_bind (fun _ _ h => h.1.ends) fun _ s2 h2 => ?_
        exact (safely_putBack h2.1).except_bind (fun _ _ h => by cases h.1) fun _ s3 h3 => ih h3.2

/-- **The old executable is not lost.** At every moment, and when the call returns, it is in place or
renamed away, or the new one is in place; the call succeeds only with the new one in place and
nothing renamed away. Renaming it back may fail, but not twice in a row. -/
theorem replaced_safely (hsource : source ≠ .target ∧ source ≠ .replaced id ∧ source ≠ .incoming id)
    (hnew : w.files.get? source = some new) (hreplaced : w.files.get? (.replaced id) = none)
    (hincoming : w.files.get? (.incoming id) = none) (attempts : ℕ) :
    Safely formats id (w.files.get? .target) new (Replaced id (w.files.get? .target) new)
      (replaceUnder id source allowMissingTarget attempts) (w, false) := by
  have hwaits : Between id source (w.files.get? .target) new (w, false) :=
    .inl ⟨none, ⟨rfl, hreplaced, hincoming, hsource, hnew⟩, .inl rfl⟩
  refine (safely_copyFile hwaits).except_bind (fun _ _ h => h.1.ends) fun _ s1 h1 => ?_
  refine (safely_sha256File h1.1).except_bind (fun _ _ h => h.1.ends) fun expected s2 h2 => ?_
  refine (safely_sha256File h2.1).except_bind (fun _ _ h => h.1.ends) fun actual s3 h3 => ?_
  unfold ensure
  split_ifs
  · refine safely_retryReplace (h3.1.resolve_right fun haway => ?_) attempts
    -- nothing has been renamed so far
    cases haway.1.symm.trans (h3.2.trans (h2.2.trans h1.2))
  · exact h3.1.ends

end Replace

theorem replaced_safely_first : Safely plainFormats ⟨8⟩ (some (.binary [1])) (.binary [2])
    (Replaced ⟨8⟩ (some (.binary [1])) (.binary [2])) (replaceUnder ⟨8⟩ (.staged "new") false 2)
    (firstInstalled, false) :=
  replaced_safely (w := firstInstalled) (by decide) rfl rfl rfl 2

/-- The new executable cannot be renamed into its place, nor the old one back into it, twice. -/
def badRenames : List Choice :=
  List.replicate 6 steady ++ List.replicate 7 { steady with fails := true } ++
    List.replicate 2 steady

/-- **The old executable is lost.** It is still renamed away when the next attempt starts, which
removes it. -/
theorem old_executable_lost : ∃ w, (plainFailures plainFormats fun _ => true).Ends anywhere
      (replaceUnder ⟨8⟩ (.staged "new") false 2).run firstInstalled none w ∧
    ¬ w.Keeps ⟨8⟩ (some (.binary [1])) (.binary [2]) := by
  have h : ∃ w ∈ (plainFailures plainFormats fun _ => true).tear steady badRenames
      (replaceUnder ⟨8⟩ (.staged "new") false 2).run firstInstalled,
      w.files.get? .target = none ∧ w.files.get? (.replaced ⟨8⟩) = none := by
    decide +kernel
  obtain ⟨w, htear, htarget, hreplaced⟩ := h
  refine ⟨w, ends_tear htear, ?_⟩
  unfold World.Keeps
  rw [htarget, hreplaced]
  simp

end LinkLake.Updater
