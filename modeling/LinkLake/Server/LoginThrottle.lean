import LinkLake.Foundations.FiniteMap
import LinkLake.Foundations.Runs
import LinkLake.Foundations.Text

/-!
# The login throttle

Failed logins are remembered by identity (`LoginThrottle` of `main.rs`), and every further failure
of an identity doubles its back-off. At most `maxIdentities` identities are remembered: when the
table is full, a failure of another one is booked under a shared identity, for which one entry makes
room. `LoginThrottle.delay` does not ask for the shared identity, so such a failure delays nobody
beyond the delay of all logins (`overflow_undelayed`).

A login does not get that far. It holds the only hash permit from before it reads the delay until it
has told the throttle how it ended, and sleeps in between, so failures are a base delay apart and
few back-offs run at a time (`Spaced`). A back-off is then in force until it ends
(`backoff_in_force`).

Instants and durations are in nanoseconds.
-/

namespace LinkLake

open FiniteMap

/-- The back-off after one failure, and the delay of all logins after any failure. -/
def loginFailureBaseDelayMillis : ℕ := 250

/-- The longest back-off. -/
def loginFailureMaxDelaySeconds : ℕ := 30

/-- The constant `LOGIN_THROTTLE_MAX_IDENTITIES`. -/
def maxIdentities : ℕ := 1024

/-- Milliseconds in nanoseconds. -/
def ofMillis (millis : ℕ) : ℕ := millis * 10 ^ 6

/-- What is remembered of an identity: how often it failed and when its back-off ends. -/
structure LoginThrottleEntry where
  failures : ℕ
  nextAllowed : ℕ

/-- The identities that failed, and the end of the delay of all logins. -/
structure LoginThrottle where
  identities : FiniteMap String LoginThrottleEntry := ∅
  globalNextAllowed : Option ℕ := none

namespace LoginThrottle

/-- The back-off after a number of failures. The product stays far below `2 ^ 64`. -/
def backoff (failures : ℕ) : ℕ :=
  ofMillis (min (loginFailureBaseDelayMillis * 2 ^ min (failures - 1) 16)
    (loginFailureMaxDelaySeconds * 1000))

/-- How long a login of an identity has to wait: for its own back-off and for the delay of all
logins. -/
def delay (t : LoginThrottle) (identity : String) (now : ℕ) : ℕ :=
  max (t.globalNextAllowed.elim 0 (· - now))
    ((t.identities.get? identity).elim 0 (·.nextAllowed - now))

/-- The entries whose back-off has not ended. -/
def running (t : LoginThrottle) (now : ℕ) : FiniteMap String LoginThrottleEntry :=
  t.identities.filter fun _ entry => now < entry.nextAllowed

/-- The table that a failure is booked in, and the identity that it is booked under. The order of a
hash map decides which of the entries that end first makes room. -/
def room (t : LoginThrottle) (identity : String) (now : ℕ) (expiringFirst : String) :
    FiniteMap String LoginThrottleEntry × String :=
  if identity ∈ t.identities ∨ t.identities.size < maxIdentities then (t.identities, identity)
  -- An identity that was not in the table is not in it after `retain`, either.
  else if (t.running now).size < maxIdentities then (t.running now, identity)
  else if "__overflow__" ∈ t.running now then (t.running now, "__overflow__")
  else ((t.running now).erase expiringFirst, "__overflow__")

/-- A failed login: the back-off that it starts and the throttle after it. -/
def recordFailure (t : LoginThrottle) (identity : String) (now : ℕ) (expiringFirst : String) :
    ℕ × LoginThrottle :=
  let booked := t.room identity now expiringFirst
  let failures := min ((booked.1.get? booked.2).elim 0 (·.failures) + 1) (2 ^ 32 - 1)
  let globalDeadline := now + ofMillis loginFailureBaseDelayMillis
  (backoff failures, {
    identities := booked.1.insert booked.2 ⟨failures, now + backoff failures⟩
    globalNextAllowed := some (t.globalNextAllowed.elim globalDeadline (max · globalDeadline)) })

/-- A successful login ends the back-off of its identity. -/
def recordSuccess (t : LoginThrottle) (identity : String) : LoginThrottle :=
  { t with identities := t.identities.erase identity }

/-! ## Runs -/

/-- A call that changes the throttle, with its answer. -/
inductive Event
  | recordFailure (identity : String) (now answer : ℕ)
  | recordSuccess (identity : String)

/-- The clock reading of a call. -/
def Event.time : Event → Option ℕ
  | .recordFailure _ now _ => some now
  | .recordSuccess _ => none

/-- The identity that a call is about. -/
def Event.identity : Event → String
  | .recordFailure identity _ _ => identity
  | .recordSuccess identity => identity

/-- No other entry ends before this one. -/
def EndsFirst (identities : FiniteMap String LoginThrottleEntry) (identity : String) : Prop :=
  ∃ entry, identities.get? identity = some entry ∧
    ∀ other found, identities.get? other = some found → entry.nextAllowed ≤ found.nextAllowed

/-- A call. Where an entry has to make room, it is one that ends first. -/
def Step (t : LoginThrottle) : Event → LoginThrottle → Prop
  | .recordFailure identity now answer, t' => ∃ expiringFirst,
      (maxIdentities ≤ (t.running now).size → "__overflow__" ∉ t.running now →
        EndsFirst (t.running now) expiringFirst) ∧
      t.recordFailure identity now expiringFirst = (answer, t')
  | .recordSuccess identity, t' => t' = t.recordSuccess identity

/-- A failure is of an identity in the table, or fewer back-offs are running than there is room
for. -/
def Event.HasRoom (t : LoginThrottle) : Event → Prop
  | .recordFailure identity now _ =>
    identity ∈ t.identities ∨ (t.running now).size < maxIdentities
  | .recordSuccess _ => True

variable {t t' : LoginThrottle} {identity : String} {now answer : ℕ} {expiringFirst : String}
  {e : Event}

theorem get?_running_eq_some {j : String} {entry : LoginThrottleEntry} :
    (t.running now).get? j = some entry ↔
      t.identities.get? j = some entry ∧ now < entry.nextAllowed := by
  rw [running, get?_filter, Option.filter_eq_some_iff, decide_eq_true_eq]

theorem size_running_le (t : LoginThrottle) (now : ℕ) : (t.running now).size ≤ t.identities.size :=
  size_le_of_get? fun _ _ h => (get?_running_eq_some.mp h).1

/-! ## The size of the table -/

theorem size_insert_le {m : FiniteMap String LoginThrottleEntry} {entry : LoginThrottleEntry}
    (hle : m.size ≤ maxIdentities) (h : identity ∈ m ∨ m.size < maxIdentities) :
    (m.insert identity entry).size ≤ maxIdentities := by
  by_cases hmem : identity ∈ m
  · obtain ⟨v, hv⟩ := mem_iff.mp hmem
    rwa [size_replace hv]
  · rw [size_insert_new (get?_eq_none.mpr hmem)]
    exact h.resolve_left hmem

theorem Step.size_le (h : Step t e t') (hle : t.identities.size ≤ maxIdentities) :
    t'.identities.size ≤ maxIdentities := by
  cases e with
  | recordSuccess identity =>
    obtain rfl := h
    exact (size_le_of_get? fun _ _ => get?_of_erase).trans hle
  | recordFailure identity now answer =>
    obtain ⟨first, hfirst, hcall⟩ := h
    cases hcall
    have hrunning := (size_running_le t now).trans hle
    dsimp only [room]
    split_ifs with hroom hroom hshared
    · exact size_insert_le hle hroom
    · exact size_insert_le hrunning (.inr hroom)
    · exact size_insert_le hrunning (.inl hshared)
    · obtain ⟨entry, hentry, -⟩ := hfirst (not_lt.mp hroom) hshared
      have hlt : ((t.running now).erase first).size < maxIdentities := by
        rw [← size_erase hentry] at hrunning
        exact hrunning
      exact size_insert_le hlt.le (.inr hlt)

/-! ## Back-offs in force -/

theorem backoff_mono {failures failures' : ℕ} (h : min (failures - 1) 16 ≤ min (failures' - 1) 16) :
    backoff failures ≤ backoff failures' := by
  unfold backoff ofMillis
  gcongr
  decide

/-- Every entry ends within the back-off of its failures, and a deadline of one identity has passed
or is kept by its entry. -/
structure InForce (identity : String) (deadline : ℕ) (s : LoginThrottle × ℕ) : Prop where
  ends : ∀ j entry, s.1.identities.get? j = some entry →
    entry.nextAllowed ≤ s.2 + backoff entry.failures
  kept : s.2 < deadline → ∃ entry, s.1.identities.get? identity = some entry ∧
    deadline ≤ entry.nextAllowed

variable {s s' : LoginThrottle × ℕ} {deadline : ℕ}

theorem InForce.later (h : InForce identity deadline (t, now)) {later : ℕ} (hle : now ≤ later) :
    InForce identity deadline (t, later) :=
  ⟨fun j entry hentry => (h.ends j entry hentry).trans (Nat.add_le_add_right hle _),
    fun hlt => h.kept (hle.trans_lt hlt)⟩

theorem room_of_hasRoom (expiringFirst : String)
    (h : Event.HasRoom t (.recordFailure identity now answer)) :
    (t.room identity now expiringFirst).2 = identity ∧
      (∀ j entry, (t.room identity now expiringFirst).1.get? j = some entry →
        t.identities.get? j = some entry) ∧
      ∀ j entry, t.identities.get? j = some entry → now < entry.nextAllowed →
        (t.room identity now expiringFirst).1.get? j = some entry := by
  unfold room
  split_ifs with hthere hroom
  · exact ⟨rfl, fun _ _ hentry => hentry, fun _ _ hentry _ => hentry⟩
  · simp only [get?_running_eq_some]
    exact ⟨trivial, fun _ _ hentry => hentry.1, fun _ _ hentry hlt => ⟨hentry, hlt⟩⟩
  all_goals exact absurd (h.resolve_left fun hmem => hthere (.inl hmem)) hroom

theorem InForce.recordFailure {other : String} (h : InForce identity deadline (t, now))
    (hroom : Event.HasRoom t (.recordFailure other now answer))
    (hcall : t.recordFailure other now expiringFirst = (answer, t')) :
    InForce identity deadline (t', now) ∧ InForce other (now + answer) (t', now) := by
  obtain ⟨hsnd, hold, hkeeps⟩ := room_of_hasRoom expiringFirst hroom
  cases hcall
  simp only [hsnd]
  generalize (t.room other now expiringFirst).1 = m at hold hkeeps
  set failures := min ((m.get? other).elim 0 (·.failures) + 1) (2 ^ 32 - 1) with hfailures
  have hends : ∀ j entry, (m.insert other ⟨failures, now + backoff failures⟩).get? j = some entry →
      entry.nextAllowed ≤ now + backoff entry.failures :=
    forall_insert (fun j entry hentry => h.ends j entry (hold j entry hentry)) le_rfl
  refine ⟨⟨hends, fun hlt => ?_⟩, hends, fun _ => ⟨_, get?_insert_self _ _ _, le_rfl⟩⟩
  obtain ⟨entry, hentry, hdeadline⟩ := h.kept hlt
  have hm := hkeeps identity entry hentry (hlt.trans_le hdeadline)
  rw [get?_insert]
  split_ifs with heq
  · -- A further failure of the identity itself: its back-off has not become shorter.
    subst heq
    refine ⟨_, rfl, hdeadline.trans ((h.ends identity entry hentry).trans ?_)⟩
    rw [hm, Option.elim_some] at hfailures
    exact Nat.add_le_add_left (backoff_mono (by omega)) now
  · exact ⟨entry, hm, hdeadline⟩

/-- The step of a run in which every failure has room. -/
def RoomyStep (t : LoginThrottle) (e : Event) (t' : LoginThrottle) : Prop :=
  e.HasRoom t ∧ Step t e t'

theorem InForce.step (h : InForce identity deadline s) (hstep : Timed Event.time RoomyStep s e s')
    (hne : deadline = 0 ∨ e ≠ .recordSuccess identity) : InForce identity deadline s' := by
  obtain ⟨t, clock⟩ := s
  obtain ⟨t', clock'⟩ := s'
  obtain ⟨⟨hroom, hstep⟩, hle, htime⟩ := hstep
  have hlater := h.later hle
  cases e with
  | recordFailure other now answer =>
    obtain ⟨first, -, hcall⟩ := hstep
    obtain rfl : clock' = now := htime now rfl
    exact (hlater.recordFailure hroom hcall).1
  | recordSuccess other =>
    obtain rfl := hstep
    refine ⟨fun j entry hentry => hlater.ends j entry (get?_of_erase hentry), ?_⟩
    intro hlt
    obtain ⟨entry, hentry, hdeadline⟩ := hlater.kept hlt
    have hother : identity ≠ other := fun hid =>
      hne.resolve_left (by omega) (congrArg _ hid.symm)
    exact ⟨entry, (get?_erase_of_ne hother).trans hentry, hdeadline⟩

theorem le_delay_of_roomy {start : ℕ} {before after : List Event} {failed : ℕ}
    (hrun : Run (Timed Event.time RoomyStep) ({}, start)
      (before ++ .recordFailure identity failed answer :: after) s)
    (hnot : .recordSuccess identity ∉ after) (hnow : s.2 ≤ now) :
    failed + answer - now ≤ s.1.delay identity now := by
  obtain ⟨s1, hbefore, hrest⟩ := hrun.of_append
  obtain ⟨s2, hfailed, hafter⟩ := hrest.of_cons
  have hinitial : InForce identity 0 ({}, start) :=
    ⟨fun j entry hentry => by simp at hentry, fun hlt => absurd hlt (Nat.not_lt_zero _)⟩
  have hin : InForce identity 0 s1 :=
    hbefore.invariant (fun _ _ _ hin hstep => hin.step hstep (.inl rfl)) hinitial
  have hfailure : InForce identity (failed + answer) s2 := by
    obtain ⟨t2, clock⟩ := s2
    obtain ⟨⟨hroom, first, -, hcall⟩, hle, htime⟩ := hfailed
    obtain rfl : clock = failed := htime failed rfl
    exact ((hin.later hle).recordFailure hroom hcall).2
  have hlast := hafter.invariant_on (p := (· ≠ .recordSuccess identity))
      (fun _ _ _ hne hin hstep => hin.step hstep (.inr hne))
      (fun _ he heq => hnot (heq ▸ he)) hfailure
  by_cases hlt : now < failed + answer
  · obtain ⟨entry, hentry, hdeadline⟩ := hlast.kept (hnow.trans_lt hlt)
    simp only [delay, hentry, Option.elim_some]
    omega
  · omega

/-! ## Logins -/

/-- The identity that a login is throttled under. -/
def loginThrottleIdentity (username : String) : String :=
  if 3 ≤ username.utf8ByteSize ∧ username.utf8ByteSize ≤ 64 ∧
      ∀ c ∈ username.toList, c.isAlphanum ∨ c = '_' ∨ c = '-' then
    String.ofList (Text.lower username.toList)
  else "__invalid__"

/-- A login with the permit: it sleeps until an instant, or has told the throttle how it ended. -/
inductive Holder
  | sleeping (identity : String) (wake : ℕ)
  | told

/-- The throttle and the login that holds the permit; `LOGIN_HASH_CONCURRENCY` is one. -/
structure Logins where
  throttle : LoginThrottle := {}
  permit : Option Holder := none

/-- What a login does: it gets the permit and reads its delay, it calls the throttle once the
password has been checked, and it gives the permit back. -/
inductive Login
  | acquire (username : String) (now : ℕ)
  | call (event : Event)
  | leave

/-- The clock reading of a login. -/
def Login.time : Login → Option ℕ
  | .acquire _ now => some now
  | .call event => event.time
  | .leave => none

/-- The call that a login makes. -/
def Login.event : Login → Option Event
  | .call event => some event
  | _ => none

/-- A step of the login that holds the permit, or of one that gets it. A login may leave without a
call: a code may be asked for, the session may not be stored, or the client may hang up. -/
def LoginStep (l : Logins) : Login → Logins → Prop
  | .acquire username now, l' =>
    let identity := loginThrottleIdentity username
    l.permit = none ∧
      l' = { l with permit := some (.sleeping identity (now + l.throttle.delay identity now)) }
  | .call event, l' => ∃ wake, l.permit = some (.sleeping event.identity wake) ∧
      (∀ now ∈ event.time, wake ≤ now) ∧ Step l.throttle event l'.throttle ∧
      l'.permit = some .told
  | .leave, l' => l.permit.isSome ∧ l' = { l with permit := none }

/-- How many back-offs may run at an instant, if failures are a base delay apart and the last of
them ends the delay of all logins. -/
def runningBound (t : LoginThrottle) (now : ℕ) : ℕ :=
  (t.globalNextAllowed.elim 0 (· + ofMillis 29750) - now + (ofMillis 250 - 1)) / ofMillis 250

/-- Failures are a base delay apart: no more back-offs run than that allows, and the login with the
permit sleeps until the delay of all logins has ended. -/
structure Spaced (l : Logins) : Prop where
  running : ∀ now, (l.throttle.running now).size ≤ l.throttle.runningBound now
  sleeping : ∀ identity wake, l.permit = some (.sleeping identity wake) →
    ∀ deadline ∈ l.throttle.globalNextAllowed, deadline ≤ wake

variable {l l' : Logins}

theorem backoff_le (failures : ℕ) : backoff failures ≤ ofMillis 30000 :=
  Nat.mul_le_mul_right _ (min_le_right _ _)

theorem Spaced.hasRoom (h : Spaced l) (hended : ∀ g ∈ l.throttle.globalNextAllowed, g ≤ now) :
    Event.HasRoom l.throttle (.recordFailure identity now answer) := by
  refine .inr ((h.running now).trans_lt ?_)
  unfold runningBound
  cases hglobal : l.throttle.globalNextAllowed with
  | none => simp [ofMillis, maxIdentities]
  | some deadline =>
    have hle := hended deadline hglobal
    simp only [Option.elim_some, ofMillis, maxIdentities]
    omega

theorem size_running_mono {now : ℕ} (h : ∀ j entry, t'.identities.get? j = some entry →
    now < entry.nextAllowed → t.identities.get? j = some entry) :
    (t'.running now).size ≤ (t.running now).size := by
  refine size_le_of_get? fun j entry hentry => ?_
  obtain ⟨hthere, hlt⟩ := get?_running_eq_some.mp hentry
  exact get?_running_eq_some.mpr ⟨h j entry hthere hlt, hlt⟩

theorem size_running_recordFailure {instant : ℕ}
    (hroom : Event.HasRoom t (.recordFailure identity now answer))
    (hcall : t.recordFailure identity now expiringFirst = (answer, t')) :
    (t'.running instant).size ≤
      (t.running instant).size + if instant < now + answer then 1 else 0 := by
  obtain ⟨hsnd, hold, -⟩ := room_of_hasRoom expiringFirst hroom
  cases hcall
  simp only [hsnd]
  generalize (t.room identity now expiringFirst).1 = m at hold
  generalize min ((m.get? identity).elim 0 (·.failures) + 1) (2 ^ 32 - 1) = failures
  split_ifs with hlt
  · refine (size_le_of_get? (m := (t.running instant).insert identity
      ⟨failures, now + backoff failures⟩) fun j entry hentry => ?_).trans ?_
    · obtain ⟨hthere, hruns⟩ := get?_running_eq_some.mp hentry
      rw [get?_insert] at hthere ⊢
      split_ifs at hthere ⊢ with heq
      · exact hthere
      · exact get?_running_eq_some.mpr ⟨hold j entry hthere, hruns⟩
    · rw [size_insert]
      exact Nat.succ_le_succ (size_le_of_get? fun _ _ => get?_of_erase)
  · refine size_running_mono fun j entry hentry hruns => ?_
    rw [get?_insert] at hentry
    split_ifs at hentry with heq
    · cases hentry
      exact absurd hruns hlt
    · exact hold j entry hentry

theorem runningBound_recordFailure {instant : ℕ}
    (hcall : t.recordFailure identity now expiringFirst = (answer, t'))
    (hended : ∀ g ∈ t.globalNextAllowed, g ≤ now) :
    t.runningBound instant + (if instant < now + answer then 1 else 0) ≤ t'.runningBound instant := by
  have hglobal : t'.globalNextAllowed = some (now + ofMillis 250) := by
    cases hcall
    cases hnext : t.globalNextAllowed with
    | none => rfl
    | some deadline =>
      exact congrArg some (max_eq_right ((hended _ hnext).trans (Nat.le_add_right _ _)))
  have hanswer : answer ≤ ofMillis 30000 := by
    cases hcall
    exact backoff_le _
  unfold runningBound
  rw [hglobal]
  cases hnext : t.globalNextAllowed with
  | none =>
    simp only [Option.elim_some, Option.elim_none, ofMillis] at hanswer ⊢
    split_ifs <;> omega
  | some deadline =>
    have hle := hended deadline hnext
    simp only [Option.elim_some, ofMillis] at hanswer ⊢
    split_ifs <;> omega

theorem Spaced.call {e : Event} {wake : ℕ} (h : Spaced l)
    (hpermit : l.permit = some (.sleeping e.identity wake)) (hwake : ∀ now ∈ e.time, wake ≤ now)
    (hstep : Step l.throttle e l'.throttle) (htold : l'.permit = some .told) :
    RoomyStep l.throttle e l'.throttle ∧ Spaced l' := by
  have hsleeping : ∀ identity wake, l'.permit = some (.sleeping identity wake) →
      ∀ deadline ∈ l'.throttle.globalNextAllowed, deadline ≤ wake := by
    rintro _ _ hnot
    cases htold.symm.trans hnot
  cases e with
  | recordFailure identity now answer =>
    have hended : ∀ g ∈ l.throttle.globalNextAllowed, g ≤ now := fun g hg =>
      (h.sleeping _ _ hpermit g hg).trans (hwake now rfl)
    have hroom : Event.HasRoom l.throttle (.recordFailure identity now answer) := h.hasRoom hended
    refine ⟨⟨hroom, hstep⟩, fun instant => ?_, hsleeping⟩
    obtain ⟨first, -, hcall⟩ := hstep
    exact (size_running_recordFailure hroom hcall).trans
      ((Nat.add_le_add_right (h.running instant) _).trans (runningBound_recordFailure hcall hended))
  | recordSuccess identity =>
    refine ⟨⟨trivial, hstep⟩, fun instant => ?_, hsleeping⟩
    have hthrottle : l'.throttle = l.throttle.recordSuccess identity := hstep
    rw [hthrottle]
    exact (size_running_mono fun _ _ hentry _ => get?_of_erase hentry).trans (h.running instant)

theorem roomy_of_logins {start : ℕ} {es : List Login} {s : Logins × ℕ}
    (hrun : Run (Timed Login.time LoginStep) ({}, start) es s) :
    Spaced s.1 ∧ ∃ clock ≤ s.2,
      Run (Timed Event.time RoomyStep) ({}, start) (es.filterMap Login.event)
        (s.1.throttle, clock) := by
  refine hrun.history (I := fun past s => Spaced s.1 ∧ ∃ clock ≤ s.2,
    Run (Timed Event.time RoomyStep) ({}, start) (past.filterMap Login.event)
      (s.1.throttle, clock)) ⟨⟨fun now => Nat.zero_le _, by simp⟩, start, le_rfl, .nil _⟩ ?_
  rintro past ⟨l, clock⟩ e ⟨l', clock'⟩ - - ⟨hspaced, last, hlast, hpast⟩ ⟨hstep, hle, htime⟩
  rw [List.filterMap_append]
  cases e with
  | acquire username now =>
    obtain ⟨-, rfl⟩ := hstep
    rw [List.filterMap_cons_none rfl, List.filterMap_nil, List.append_nil]
    refine ⟨⟨hspaced.running, ?_⟩, last, hlast.trans hle, hpast⟩
    rintro _ _ ⟨⟩ deadline hdeadline
    have hdelay : deadline - now ≤ l.throttle.delay (loginThrottleIdentity username) now := by
      rw [delay, Option.mem_def.mp hdeadline]
      exact le_max_left _ _
    exact Nat.sub_le_iff_le_add'.mp hdelay
  | call event =>
    obtain ⟨wake, hpermit, hwake, hcall, htold⟩ := hstep
    obtain ⟨hroomy, hspaced'⟩ := hspaced.call hpermit hwake hcall htold
    exact ⟨hspaced', clock', le_rfl, hpast.snoc ⟨hroomy, hlast.trans hle, htime⟩⟩
  | leave =>
    obtain ⟨-, rfl⟩ := hstep
    rw [List.filterMap_cons_none rfl, List.filterMap_nil, List.append_nil]
    exact ⟨⟨hspaced.running, by simp⟩, last, hlast.trans hle, hpast⟩

/-- **A back-off is in force until it ends.** At most `maxIdentities` identities are remembered,
whatever is called. In every run of logins, after a failure that answered a delay the identity is
delayed until the end of that delay, unless a success of the identity comes in between. -/
theorem backoff_in_force (start : ℕ) :
    (∀ es s, Run (Timed Event.time Step) ({}, start) es s → s.1.identities.size ≤ maxIdentities) ∧
    ∀ es s, Run (Timed Login.time LoginStep) ({}, start) es s →
      ∀ before identity failed answer after now,
        es = before ++ .call (.recordFailure identity failed answer) :: after →
        .call (.recordSuccess identity) ∉ after → s.2 ≤ now →
        failed + answer - now ≤ s.1.throttle.delay identity now := by
  refine ⟨fun es s hrun => ?_, ?_⟩
  · exact hrun.invariant (I := fun s => s.1.identities.size ≤ maxIdentities)
      (fun _ _ _ hle hstep => hstep.1.size_le hle) (Nat.zero_le _)
  · intro es s hrun before identity failed answer after now hes hnot hnow
    obtain ⟨-, clock, hclock, hroomy⟩ := roomy_of_logins hrun
    rw [hes, List.filterMap_append, List.filterMap_cons] at hroomy
    refine le_delay_of_roomy hroomy (fun hmem => hnot ?_) (hclock.trans hnow)
    obtain ⟨e, he, hevent⟩ := List.mem_filterMap.mp hmem
    cases e with
    | call event => exact Option.some.inj hevent ▸ he
    | _ => cases hevent

/-- The first failure of a user delays the next login by the base delay. -/
theorem backoff_in_force_first :
    ofMillis 250 - 1 ≤ (recordFailure {} "admin" 0 "").2.delay "admin" 1 := by
  have hidentity : loginThrottleIdentity "Admin" = "admin" := by
    rw [loginThrottleIdentity, if_pos ⟨by decide, by decide, by simp⟩]
    simp [Text.lower]
  have hacquire : Timed Login.time LoginStep ({}, 0) (.acquire "Admin" 0)
      (⟨{}, some (.sleeping "admin" 0)⟩, 0) :=
    ⟨⟨rfl, by rw [hidentity]; rfl⟩, le_rfl, by rintro _ ⟨⟩; rfl⟩
  have hcall : Timed Login.time LoginStep (⟨{}, some (.sleeping "admin" 0)⟩, 0)
      (.call (.recordFailure "admin" 0 (ofMillis 250)))
      (⟨(recordFailure {} "admin" 0 "").2, some .told⟩, 0) :=
    ⟨⟨0, rfl, fun _ _ => Nat.zero_le _, ⟨"", fun h => absurd h (by decide), rfl⟩, rfl⟩, le_rfl,
      by rintro _ ⟨⟩; rfl⟩
  have h := (backoff_in_force 0).2 _ _ ((Run.single hacquire).snoc hcall) [.acquire "Admin" 0]
    "admin" 0 (ofMillis 250) [] 1 rfl List.not_mem_nil (Nat.zero_le _)
  rwa [Nat.zero_add] at h

/-! ## A full table -/

/-- So many identities with long names have a back-off that runs at the instant zero. One of them is
the shared identity, with one failure. -/
structure Filled (n : ℕ) (t : LoginThrottle) : Prop where
  size : t.identities.size = n
  runs : ∀ j entry, t.identities.get? j = some entry →
    (12 ≤ j.length ∧ j.length < 12 + n) ∧ 0 < entry.nextAllowed
  shared : t.identities.get? "__overflow__" = some ⟨1, ofMillis 250⟩
  all : t.globalNextAllowed = some (ofMillis 250)

variable {n : ℕ}

attribute [local simp] loginFailureBaseDelayMillis

theorem backoff_one : backoff 1 = ofMillis 250 := by
  simp [backoff, loginFailureMaxDelaySeconds]

theorem Filled.notMem (h : Filled n t) (identity : String)
    (hlength : identity.length < 12 ∨ 12 + n ≤ identity.length) : identity ∉ t.identities := by
  rw [mem_iff]
  rintro ⟨entry, hentry⟩
  have := (h.runs identity entry hentry).1
  omega

theorem Filled.get?_running (h : Filled n t) (j : String) :
    (t.running 0).get? j = t.identities.get? j := by
  rw [running, get?_filter]
  cases hentry : t.identities.get? j with
  | none => rfl
  | some entry => simp [Option.filter, (h.runs j entry hentry).2]

theorem Filled.timed (h : Filled n t) (identity : String) :
    Timed Event.time Step (t, 0) (.recordFailure identity 0 (t.recordFailure identity 0 "").1)
      ((t.recordFailure identity 0 "").2, 0) := by
  refine ⟨⟨"", fun _ hmem => absurd ?_ hmem, rfl⟩, le_rfl, by rintro _ ⟨⟩; rfl⟩
  exact mem_of_get? ((h.get?_running _).trans h.shared)

theorem exists_filled (hpos : 1 ≤ n) (hn : n ≤ maxIdentities) :
    ∃ es t, Run (Timed Event.time Step) ({}, 0) es (t, 0) ∧ Filled n t := by
  induction n, hpos using Nat.le_induction with
  | base =>
    have hstep : Timed Event.time Step ({}, 0) (.recordFailure "__overflow__" 0 (backoff 1))
        (⟨FiniteMap.insert ∅ "__overflow__" ⟨1, 0 + backoff 1⟩, some (0 + ofMillis 250)⟩, 0) :=
      ⟨⟨"", fun h => absurd h (by decide), rfl⟩, le_rfl, by rintro _ ⟨⟩; rfl⟩
    rw [backoff_one, Nat.zero_add] at hstep
    refine ⟨_, _, .single hstep, rfl, ?_, rfl, rfl⟩
    exact forall_insert (by simp) (by decide)
  | succ n hpos ih =>
    obtain ⟨es, t, hrun, hfilled⟩ := ih (Nat.le_of_succ_le hn)
    set name := String.ofList (List.replicate (12 + n) 'a') with hname
    have hlength : name.length = 12 + n := by simp [name]
    have hnew := get?_eq_none.mpr (hfilled.notMem name (.inr hlength.ge))
    have hroom : t.room name 0 "" = (t.identities, name) := if_pos (.inr (hfilled.size ▸ hn))
    refine ⟨_, _, hrun.snoc (hfilled.timed name), ?_⟩
    simp only [recordFailure, hroom, hnew]
    refine ⟨?_, ?_, ?_, ?_⟩
    · rw [size_insert_new hnew, hfilled.size]
    · refine forall_insert (fun j entry hentry => ?_) ?_
      · have := hfilled.runs j entry hentry
        omega
      · refine ⟨by omega, ?_⟩
        change 0 < 0 + backoff 1
        rw [backoff_one]
        decide
    · have hne : "__overflow__" ≠ name := fun h => by
        rw [← h, show "__overflow__".length = 12 from rfl] at hlength
        omega
      exact (get?_insert_of_ne hne).trans hfilled.shared
    · rw [hfilled.all]
      simp

/-- **A failure for which there is no room does not delay its identity.** It answers half a second,
but a quarter of a second later there is no delay. -/
theorem overflow_undelayed :
    ∃ before s1 s2, Run (Timed Event.time Step) ({}, 0) before s1 ∧
      Timed Event.time Step s1 (.recordFailure "b" 0 (ofMillis 500)) s2 ∧
      s2.2 ≤ ofMillis 250 ∧ s2.1.delay "b" (ofMillis 250) = 0 := by
  obtain ⟨es, t, hrun, hfilled⟩ := exists_filled (by decide) le_rfl
  have hnew := hfilled.notMem "b" (.inl (by decide))
  have hsize : maxIdentities ≤ (t.running 0).size := by
    refine hfilled.size.ge.trans (size_le_of_get? fun j entry hentry => ?_)
    exact (hfilled.get?_running j).trans hentry
  have hshared := (hfilled.get?_running _).trans hfilled.shared
  have hroom : t.room "b" 0 "" = (t.running 0, "__overflow__") := by
    rw [room, if_neg, if_neg hsize.not_gt, if_pos (mem_of_get? hshared)]
    exact not_or.mpr ⟨hnew, hfilled.size.not_lt⟩
  have hanswer : (t.recordFailure "b" 0 "").1 = ofMillis 500 := by
    simp [recordFailure, hroom, hshared, backoff, loginFailureMaxDelaySeconds]
  refine ⟨_, _, _, hrun, hanswer ▸ hfilled.timed "b", Nat.zero_le _, ?_⟩
  have hget : (t.recordFailure "b" 0 "").2.identities.get? "b" = none := by
    simp only [recordFailure, hroom]
    rw [get?_insert_of_ne (by decide), hfilled.get?_running]
    exact get?_eq_none.mpr hnew
  rw [delay, hget]
  simp [recordFailure, hfilled.all]

end LoginThrottle

end LinkLake
