import LinkLake.Foundations.Hysteresis
import LinkLake.Foundations.Runs
import LinkLake.Server.Coordination.Tables

/-!
# The health of targets

The table of target health and its hysteresis (`target_health.rs`). Observations of a target carry a
revision; one that is not newer than the last is not accepted. The row of a target keeps two counters,
clamped at the thresholds, and turns healthy and unhealthy by them.

An observation is one transaction. What the transaction asks the coordinator about the fencing token
is an argument here, and so is the clock of the database.

The main result says what the row is, given the accepted observations of the target as a whole.
-/

namespace LinkLake.Targets

open Fallible Text Hysteresis
open Coordination (CoordinationError)

/-! ## Data -/

structure TargetHealth where
  targetKey : String
  memberAlive : Bool
  controlChannelHealthy : Bool
  applicationHealthy : Bool
  effectiveHealthy : Bool
  consecutiveSuccesses : ℕ
  consecutiveFailures : ℕ
  weight : ℕ
  revision : ℕ
  lastProbeUnixSeconds : Option ℕ
  lastTransitionUnixSeconds : ℕ
  lastErrorSummary : Option String
  deriving DecidableEq, Repr

structure TargetHealthObservation where
  targetKey : String
  memberAlive : Bool
  controlChannelHealthy : Bool
  applicationHealthy : Bool
  weight : ℕ
  revision : ℕ
  errorSummary : Option String
  deriving DecidableEq, Repr

structure TargetHealthUpdate where
  accepted : Bool
  duplicate : Bool
  previousEffectiveHealthy : Bool
  health : TargetHealth
  deriving DecidableEq, Repr

/-- Why a call fails. -/
inductive TargetHealthError
  | successThreshold
  | failureThreshold
  | staleTimeout
  | keyRequired
  | keyTooLong
  | keyControl
  | weightRange
  | revisionRange
  | summaryEmpty
  | fencingToken
  | fence (error : CoordinationError)
  | revisionConflict
  deriving DecidableEq, Repr

def maxTargetKeyBytes : ℕ := 256

def maxErrorSummaryBytes : ℕ := 320

def maxWeight : ℕ := 1000000

def maxRevision : ℕ := 2 ^ 63 - 1

/-- The configuration, with what `open` makes sure of. -/
structure TargetHealthCatalog where
  successThreshold : ℕ
  failureThreshold : ℕ
  staleAfterSeconds : ℕ
  success_mem : successThreshold ∈ Set.Icc 1 1000
  failure_mem : failureThreshold ∈ Set.Icc 1 1000
  stale_mem : staleAfterSeconds ∈ Set.Icc 1 86400

/-- Check the configuration. -/
def openCatalog (successThreshold failureThreshold staleAfterSeconds : ℕ) :
    Except TargetHealthError TargetHealthCatalog :=
  if hs : 1 ≤ successThreshold ∧ successThreshold ≤ 1000 then
    if hf : 1 ≤ failureThreshold ∧ failureThreshold ≤ 1000 then
      if ht : 1 ≤ staleAfterSeconds ∧ staleAfterSeconds ≤ 86400 then
        .ok ⟨successThreshold, failureThreshold, staleAfterSeconds, hs, hf, ht⟩
      else .error .staleTimeout
    else .error .failureThreshold
  else .error .successThreshold

/-! ## Observations -/

def normalizeTargetKey (value : String) : Except TargetHealthError String := do
  let value := trim value
  rejectIf (value.isEmpty = true) .keyRequired
  rejectIf (maxTargetKeyBytes < value.utf8ByteSize) .keyTooLong
  rejectIf (value.toList.any Text.isControl = true) .keyControl
  return value

/-- Line breaks and tabs become blanks, and what is too long is cut. -/
def normalizeErrorSummary (value : String) : Except TargetHealthError String := do
  let summary := (trim value).toList.map fun c =>
    if c = '\r' ∨ c = '\n' ∨ c = '\t' then ' ' else c
  let summary := summary.take maxErrorSummaryBytes
  rejectIf (summary.isEmpty = true) .summaryEmpty
  return String.ofList summary

def normalizeObservation (observation : TargetHealthObservation) :
    Except TargetHealthError TargetHealthObservation := do
  let targetKey ← normalizeTargetKey observation.targetKey
  rejectIf (¬ (1 ≤ observation.weight ∧ observation.weight ≤ maxWeight)) .weightRange
  rejectIf (maxRevision < observation.revision) .revisionRange
  let errorSummary ← observation.errorSummary.mapM normalizeErrorSummary
  return { observation with targetKey, errorSummary }

def instantaneousHealthy (observation : TargetHealthObservation) : Bool :=
  observation.memberAlive && observation.controlChannelHealthy && observation.applicationHealthy

/-- A row whose last probe is too long ago does not count as healthy. -/
def applyStaleness (health : TargetHealth) (now staleAfterSeconds : ℕ) : TargetHealth :=
  let stale := health.lastProbeUnixSeconds.all fun lastProbe =>
    decide (staleAfterSeconds ≤ now - lastProbe)
  if stale then { health with effectiveHealthy := false } else health

def newHealth (observation : TargetHealthObservation) (effectiveHealthy : Bool) (now : ℕ) :
    TargetHealth where
  targetKey := observation.targetKey
  memberAlive := observation.memberAlive
  controlChannelHealthy := observation.controlChannelHealthy
  applicationHealthy := observation.applicationHealthy
  effectiveHealthy := effectiveHealthy
  consecutiveSuccesses := if instantaneousHealthy observation then 1 else 0
  consecutiveFailures := if instantaneousHealthy observation then 0 else 1
  weight := observation.weight
  revision := observation.revision
  lastProbeUnixSeconds := some now
  lastTransitionUnixSeconds := now
  lastErrorSummary := observation.errorSummary

/-- A `u32` counter goes up by one. -/
def incrementU32 (n : ℕ) : ℕ := min (n + 1) (2 ^ 32 - 1)

/-- The counters and the state after a newer observation. -/
def nextCounters (current : TargetHealth) (healthy : Bool) (successThreshold failureThreshold : ℕ) :
    ℕ × ℕ × Bool :=
  if healthy then
    let successes := min (incrementU32 current.consecutiveSuccesses) successThreshold
    (successes, 0, current.effectiveHealthy || decide (successThreshold ≤ successes))
  else
    let failures := min (incrementU32 current.consecutiveFailures) failureThreshold
    (0, failures, current.effectiveHealthy && decide (failures < failureThreshold))

/-- The row after a newer observation. -/
def nextHealth (current : TargetHealth) (observation : TargetHealthObservation)
    (now successThreshold failureThreshold : ℕ) : TargetHealth :=
  let (successes, failures, effective) := nextCounters current (instantaneousHealthy observation)
    successThreshold failureThreshold
  { targetKey := observation.targetKey
    memberAlive := observation.memberAlive
    controlChannelHealthy := observation.controlChannelHealthy
    applicationHealthy := observation.applicationHealthy
    effectiveHealthy := effective
    consecutiveSuccesses := successes
    consecutiveFailures := failures
    weight := observation.weight
    revision := observation.revision
    lastProbeUnixSeconds := some now
    lastTransitionUnixSeconds :=
      if effective ≠ current.effectiveHealthy then now else current.lastTransitionUnixSeconds
    lastErrorSummary := observation.errorSummary }

/-- The row says what the observation says. -/
def sameObservation (current : TargetHealth) (observation : TargetHealthObservation) : Bool :=
  current.memberAlive == observation.memberAlive &&
    current.controlChannelHealthy == observation.controlChannelHealthy &&
    current.applicationHealthy == observation.applicationHealthy &&
    current.weight == observation.weight && current.lastErrorSummary == observation.errorSummary

def calculateUpdate (current : Option TargetHealth) (observation : TargetHealthObservation)
    (now successThreshold failureThreshold : ℕ) : Except TargetHealthError TargetHealthUpdate :=
  match current with
  | none =>
    let effective := decide (successThreshold ≤ 1) && instantaneousHealthy observation
    .ok ⟨true, false, false, newHealth observation effective now⟩
  | some current =>
    if observation.revision < current.revision then
      .ok ⟨false, false, current.effectiveHealthy, current⟩
    else if observation.revision = current.revision then
      if sameObservation current observation then
        .ok ⟨false, true, current.effectiveHealthy, current⟩
      else .error .revisionConflict
    else
      .ok ⟨true, false, current.effectiveHealthy,
        nextHealth current observation now successThreshold failureThreshold⟩

/-! ## The table -/

/-- The table `target_health`, by its primary key. -/
abbrev Table := FiniteMap String TargetHealth

/-- A call of `observe`, with what the transaction reads elsewhere. -/
structure Call where
  observation : TargetHealthObservation
  fencingToken : ℕ
  /-- What the coordinator says about the token. -/
  fence : Except CoordinationError Unit
  /-- The clock of the database. -/
  now : ℕ

/-- The observation of a call in normal form, if it comes as far as the table. -/
def Call.received (call : Call) : Except TargetHealthError TargetHealthObservation := do
  let observation ← normalizeObservation call.observation
  rejectIf (call.fencingToken = 0) .fencingToken
  call.fence.mapError .fence
  return observation

namespace TargetHealthCatalog

def observe (catalog : TargetHealthCatalog) (table : Table) (call : Call) :
    Except TargetHealthError TargetHealthUpdate × Table :=
  match call.received with
  | .error error => (.error error, table)
  | .ok observation =>
    let current := (table.get? observation.targetKey).map
      (applyStaleness · call.now catalog.staleAfterSeconds)
    match calculateUpdate current observation call.now catalog.successThreshold
      catalog.failureThreshold with
    | .error error => (.error error, table)
    | .ok update =>
      (.ok update,
        if update.accepted then table.insert update.health.targetKey update.health else table)

/-- A call with its answer. -/
def Step (catalog : TargetHealthCatalog) (table : Table)
    (e : Call × Except TargetHealthError TargetHealthUpdate) (table' : Table) : Prop :=
  catalog.observe table e.1 = (e.2, table')

end TargetHealthCatalog

/-! ## The accepted observations -/

/-- A call with its answer. -/
abbrev Event := Call × Except TargetHealthError TargetHealthUpdate

/-- An observation with the clock reading of its transaction. -/
abbrev Arrival := TargetHealthObservation × ℕ

/-- What a call brings to the row of a target. -/
def arrival (key : String) (e : Event) : Option Arrival :=
  match e.1.received with
  | .error _ => none
  | .ok observation => if observation.targetKey = key then some (observation, e.1.now) else none

/-- The observations with one more, if that is newer than the last. -/
def advance (accepted : List Arrival) (x : Arrival) : List Arrival :=
  if ∀ y ∈ accepted.getLast?, y.1.revision < x.1.revision then accepted ++ [x] else accepted

/-- The observations of a target that are newer than all before them. -/
def accepted (key : String) (es : List Event) : List Arrival :=
  (es.filterMap (arrival key)).foldl advance []

/-- The answer says that the observation was accepted. -/
def saysAccepted : Except TargetHealthError TargetHealthUpdate → Bool
  | .error _ => false
  | .ok update => update.accepted

/-- The observations of a target that were answered as accepted. -/
def answered (key : String) (es : List Event) : List Arrival :=
  (es.filter fun e => saysAccepted e.2).filterMap (arrival key)

variable {key : String} {past es : List Event} {e : Event} {x : Arrival} {l : List Arrival}

theorem accepted_concat_none (h : arrival key e = none) :
    accepted key (past ++ [e]) = accepted key past := by
  simp [accepted, h]

theorem accepted_concat_some (h : arrival key e = some x) :
    accepted key (past ++ [e]) = advance (accepted key past) x := by
  simp [accepted, h]

theorem accepted_mono (h : past <+: es) : accepted key past <+: accepted key es := by
  obtain ⟨rest, rfl⟩ := h
  induction rest using List.reverseRecOn with
  | nil => simp
  | append_singleton rest e ih =>
    rw [← List.append_assoc]
    apply ih.trans
    cases harrival : arrival key e with
    | none => rw [accepted_concat_none harrival]
    | some x =>
      rw [accepted_concat_some harrival, advance]
      split
      · exact List.prefix_append _ _
      · exact List.prefix_rfl

theorem pairwise_accepted (key : String) (es : List Event) :
    (accepted key es).Pairwise fun x y => x.1.revision < y.1.revision := by
  have htrans : IsTrans Arrival fun x y => x.1.revision < y.1.revision :=
    ⟨fun x y z hxy hyz => hxy.trans hyz⟩
  rw [← List.isChain_iff_pairwise]
  induction es using List.reverseRecOn with
  | nil => exact .nil
  | append_singleton es e ih =>
    cases harrival : arrival key e with
    | none =>
      rw [accepted_concat_none harrival]
      exact ih
    | some x =>
      rw [accepted_concat_some harrival, advance]
      split
      · rename_i hnew
        rw [List.isChain_append]
        refine ⟨ih, List.isChain_singleton _, fun y hy z hz => ?_⟩
        obtain rfl : x = z := by simpa using hz
        exact hnew y hy
      · exact ih

/-! ## The row that accepted observations make -/

/-- The row after one more accepted observation. -/
def accept (s f : ℕ) (row : Option TargetHealth) (x : Arrival) : TargetHealth :=
  match row with
  | none => newHealth x.1 (decide (s ≤ 1) && instantaneousHealthy x.1) x.2
  | some current => nextHealth current x.1 x.2 s f

/-- The row that the accepted observations make on their own. -/
def replay (s f : ℕ) (accepted : List Arrival) : Option TargetHealth :=
  accepted.foldl (fun row x => some (accept s f row x)) none

/-- The readings that the switch sees. -/
def readings (accepted : List Arrival) : List Bool :=
  accepted.map fun x => instantaneousHealthy x.1

@[simp] theorem readings_concat :
    readings (l ++ [x]) = readings l ++ [instantaneousHealthy x.1] := by
  simp [readings]

@[simp] theorem replay_concat {s f : ℕ} :
    replay s f (l ++ [x]) = some (accept s f (replay s f l) x) := by
  simp [replay]

theorem replay_eq_none {s f : ℕ} : replay s f l = none ↔ l = [] := by
  induction l using List.reverseRecOn with
  | nil => simp [replay]
  | append_singleton l x _ => simp

/-- What a row says about the accepted observations. -/
structure Reflects (s f : ℕ) (l : List Arrival) (row : TargetHealth) : Prop where
  last : ∃ x, l.getLast? = some x ∧ row.revision = x.1.revision ∧
    row.lastProbeUnixSeconds = some x.2
  successes : row.consecutiveSuccesses = min s (trailing true (readings l))
  failures : row.consecutiveFailures = min f (trailing false (readings l))
  effective : row.effectiveHealthy = true ↔ On s f (readings l)
  transition : ∃ y, LastChange (fun l => On s f (readings l)) l y ∧
    row.lastTransitionUnixSeconds = y.2

variable {s f : ℕ} {row : TargetHealth}

theorem reflects_first (hs : 0 < s) (hf : 0 < f) (x : Arrival) :
    Reflects s f [x] (accept s f none x) where
  last := ⟨x, rfl, rfl, rfl⟩
  successes := by
    have hone : min s 1 = 1 := by omega
    cases hx : instantaneousHealthy x.1 <;>
      simp [accept, newHealth, hx, readings, trailing_singleton, hone]
  failures := by
    have hone : min f 1 = 1 := by omega
    cases hx : instantaneousHealthy x.1 <;>
      simp [accept, newHealth, hx, readings, trailing_singleton, hone]
  effective := by
    have hempty : ¬ On s f [] := not_on_nil hs
    cases hx : instantaneousHealthy x.1 with
    | false =>
      have hoff : ¬ On s f [false] := fun h => hempty ((@on_concat_false s f [] hs).mp h).1
      simp [accept, newHealth, readings, hx, hoff]
    | true =>
      have hon : On s f [true] ↔ s ≤ 1 := by
        have h := @on_concat_true s f [] hf
        rwa [List.nil_append, trailing_singleton, if_pos rfl, or_iff_right hempty] at h
      simp [accept, newHealth, readings, hx, hon]
  transition := ⟨x, lastChange_singleton, rfl⟩

theorem incrementU32_min {n k : ℕ} (hk : k ≤ 1000) :
    min (incrementU32 (min k n)) k = min k (n + 1) := by
  rw [incrementU32]
  omega

theorem Reflects.concat (h : Reflects s f l row) (hs : s ∈ Set.Icc 1 1000)
    (hf : f ∈ Set.Icc 1 1000) (x : Arrival) :
    Reflects s f (l ++ [x]) (accept s f (some row) x) := by
  have hrow : accept s f (some row) x = nextHealth row x.1 x.2 s f := rfl
  have heffective : (nextHealth row x.1 x.2 s f).effectiveHealthy = true ↔
      On s f (readings (l ++ [x])) := by
    rw [readings_concat]
    cases hx : instantaneousHealthy x.1 with
    | true =>
      rw [on_concat_true hf.1, ← h.effective, trailing_concat_self]
      simp only [nextHealth, nextCounters, hx, h.successes, incrementU32_min hs.2, if_true,
        Bool.or_eq_true, decide_eq_true_eq]
      apply or_congr_right
      omega
    | false =>
      rw [on_concat_false hs.1, ← h.effective, trailing_concat_self]
      simp only [nextHealth, nextCounters, hx, h.failures, incrementU32_min hf.2, if_false,
        Bool.false_eq_true, Bool.and_eq_true, decide_eq_true_eq]
      apply and_congr_right'
      omega
  refine ⟨⟨x, by simp, rfl, rfl⟩, ?_, ?_, heffective, ?_⟩
  · rw [hrow, readings_concat]
    cases hx : instantaneousHealthy x.1 with
    | true => simp [nextHealth, nextCounters, hx, h.successes, incrementU32_min hs.2]
    | false =>
      rw [show trailing true (readings l ++ [false]) = 0 from trailing_concat_not]
      simp [nextHealth, nextCounters, hx]
  · rw [hrow, readings_concat]
    cases hx : instantaneousHealthy x.1 with
    | true =>
      rw [show trailing false (readings l ++ [true]) = 0 from trailing_concat_not]
      simp [nextHealth, nextCounters, hx]
    | false => simp [nextHealth, nextCounters, hx, h.failures, incrementU32_min hf.2]
  · obtain ⟨y, hy, htime⟩ := h.transition
    by_cases hchange : (nextHealth row x.1 x.2 s f).effectiveHealthy = row.effectiveHealthy
    · refine ⟨y, hy.concat ?_, ?_⟩
      · rw [← heffective, ← h.effective, hchange]
      · rw [← htime]
        exact if_neg (not_not.mpr hchange)
    · refine ⟨x, lastChange_concat ?_, if_pos hchange⟩
      rw [← heffective, ← h.effective]
      intro hiff
      exact hchange (Bool.eq_iff_iff.mpr hiff.symm)

/-- **The row in terms of the accepted observations.** -/
theorem reflects_replay (hs : s ∈ Set.Icc 1 1000) (hf : f ∈ Set.Icc 1 1000)
    (h : replay s f l = some row) : Reflects s f l row := by
  induction l using List.reverseRecOn generalizing row with
  | nil => cases h
  | append_singleton l x ih =>
    rw [replay_concat] at h
    cases h
    cases hbefore : replay s f l with
    | some row => exact (ih hbefore).concat hs hf x
    | none =>
      obtain rfl := replay_eq_none.mp hbefore
      exact reflects_first hs.1 hf.1 x

/-! ## Runs -/

namespace TargetHealthCatalog

variable {catalog : TargetHealthCatalog} {table table' : Table} {current : Option TargetHealth}

theorem targetKey_of_accepted
    {observation : TargetHealthObservation} {now : ℕ} {update : TargetHealthUpdate}
    (h : calculateUpdate current observation now s f = .ok update) (hnew : update.accepted = true) :
    update.health.targetKey = observation.targetKey := by
  unfold calculateUpdate at h
  split at h
  · cases h
    rfl
  · split_ifs at h
    · cases h
      cases hnew
    · cases h
      cases hnew
    · cases h
      rfl

theorem Step.frame (h : catalog.Step table e table') (harrival : arrival key e = none) :
    table'.get? key = table.get? key := by
  obtain rfl := congrArg Prod.snd h
  unfold arrival at harrival
  unfold observe
  cases hreceived : e.1.received with
  | error error => rfl
  | ok observation =>
    have hkey : key ≠ observation.targetKey := by
      rintro rfl
      simp [hreceived] at harrival
    simp only
    split
    · rfl
    · rename_i update hupdate
      simp only
      split
      · rename_i hnew
        rw [targetKey_of_accepted hupdate hnew, FiniteMap.get?_insert_of_ne hkey]
      · rfl

theorem Step.arrived (h : catalog.Step table e table') (harrival : arrival key e = some x) :
    e.2 = calculateUpdate
        ((table.get? key).map (applyStaleness · x.2 catalog.staleAfterSeconds)) x.1 x.2
        catalog.successThreshold catalog.failureThreshold ∧
      (∀ update, e.2 = .ok update → update.accepted = true → table'.get? key = some update.health) ∧
      (saysAccepted e.2 = false → table'.get? key = table.get? key) := by
  obtain ⟨call, reply⟩ := e
  unfold arrival at harrival
  unfold Step observe at h
  cases hreceived : call.received with
  | error error => simp [hreceived] at harrival
  | ok observation =>
    simp only [hreceived, Option.ite_none_right_eq_some, Option.some.injEq] at harrival h
    obtain ⟨rfl, rfl⟩ := harrival
    split at h
    · rename_i error hupdate
      cases h
      exact ⟨hupdate.symm, by simp, fun _ => rfl⟩
    · rename_i update hupdate
      cases h
      refine ⟨hupdate.symm, ?_, ?_⟩
      · rintro _ heq hnew
        cases heq
        rw [if_pos hnew, targetKey_of_accepted hupdate hnew, FiniteMap.get?_insert_self]
      · intro hold
        rw [if_neg (by simpa [saysAccepted] using hold)]

theorem calculateUpdate_newer (hnew : ∀ row ∈ current, row.revision < x.1.revision) : ∃ previous,
    calculateUpdate current x.1 x.2 s f = .ok ⟨true, false, previous, accept s f current x⟩ := by
  cases current with
  | none => exact ⟨_, rfl⟩
  | some row =>
    have hlt := hnew row rfl
    refine ⟨row.effectiveHealthy, ?_⟩
    simp only [calculateUpdate]
    rw [if_neg (by omega), if_neg (by omega)]
    rfl

theorem saysAccepted_calculateUpdate (hold : x.1.revision ≤ row.revision) :
    saysAccepted (calculateUpdate (some row) x.1 x.2 s f) = false := by
  simp only [calculateUpdate]
  split_ifs
  · rfl
  · rfl
  · rfl
  · omega

theorem applyStaleness_of_lt {health : TargetHealth} {now probe stale : ℕ}
    (hprobe : health.lastProbeUnixSeconds = some probe) (hfresh : now - probe < stale) :
    applyStaleness health now stale = health := by
  simp [applyStaleness, hprobe, hfresh]

theorem revision_applyStaleness (health : TargetHealth) (now stale : ℕ) :
    (applyStaleness health now stale).revision = health.revision := by
  simp only [applyStaleness]
  split
  · rfl
  · rfl

/-- The row of a target is what its accepted observations make, and those were answered so. -/
structure Follows (catalog : TargetHealthCatalog) (key : String) (past : List Event)
    (table : Table) : Prop where
  row : table.get? key =
    replay catalog.successThreshold catalog.failureThreshold (accepted key past)
  answered : answered key past = accepted key past

variable (h : catalog.Follows key past table)
include h

variable (hstep : catalog.Step table e table')
include hstep

theorem Follows.unseen
    (harrival : arrival key e = none) : catalog.Follows key (past ++ [e]) table' := by
  refine ⟨?_, ?_⟩
  · rw [hstep.frame harrival, accepted_concat_none harrival, h.row]
  · rw [accepted_concat_none harrival, ← h.answered]
    cases hsays : saysAccepted e.2 <;> simp [Targets.answered, hsays, harrival]

theorem Follows.newer (harrival : arrival key e = some x)
    (hnew : ∀ y ∈ (accepted key past).getLast?, y.1.revision < x.1.revision)
    (hgap : ∀ y ∈ (accepted key past).getLast?, x.2 - y.2 < catalog.staleAfterSeconds) :
    catalog.Follows key (past ++ [e]) table' := by
  have hreflects : ∀ row, table.get? key = some row → Reflects catalog.successThreshold
      catalog.failureThreshold (accepted key past) row := fun row hrow =>
    reflects_replay catalog.success_mem catalog.failure_mem (h.row ▸ hrow)
  -- the gap is short, so the row is taken as it is
  have hfresh : (table.get? key).map (applyStaleness · x.2 catalog.staleAfterSeconds) =
      table.get? key := by
    cases hrow : table.get? key with
    | none => rfl
    | some row =>
      obtain ⟨y, hy, -, hprobe⟩ := (hreflects row hrow).last
      exact congrArg some (applyStaleness_of_lt hprobe (hgap y hy))
  have hrevision : ∀ row ∈ table.get? key, row.revision < x.1.revision := by
    intro row hrow
    obtain ⟨y, hy, hrevision, -⟩ := (hreflects row hrow).last
    rw [hrevision]
    exact hnew y hy
  obtain ⟨hreply, hwrite, -⟩ := hstep.arrived harrival
  obtain ⟨previous, hupdate⟩ := @calculateUpdate_newer x catalog.successThreshold
    catalog.failureThreshold _ hrevision
  rw [hfresh, hupdate] at hreply
  have hadvance : accepted key (past ++ [e]) = accepted key past ++ [x] := by
    rw [accepted_concat_some harrival, advance, if_pos hnew]
  refine ⟨?_, ?_⟩
  · rw [hwrite _ hreply rfl, hadvance, replay_concat, h.row]
  · rw [hadvance, ← h.answered]
    simp [Targets.answered, hreply, saysAccepted, harrival]

theorem Follows.older (harrival : arrival key e = some x)
    (hold : ¬ ∀ y ∈ (accepted key past).getLast?, y.1.revision < x.1.revision) :
    catalog.Follows key (past ++ [e]) table' := by
  have hadvance : accepted key (past ++ [e]) = accepted key past := by
    rw [accepted_concat_some harrival, advance, if_neg hold]
  obtain ⟨hreply, -, hkeep⟩ := hstep.arrived harrival
  have hsays : saysAccepted e.2 = false := by
    push Not at hold
    obtain ⟨y, hy, hle⟩ := hold
    cases hrow : table.get? key with
    | none =>
      rw [h.row, replay_eq_none] at hrow
      simp [hrow] at hy
    | some row =>
      obtain ⟨z, hz, hrevision, -⟩ :=
        (reflects_replay catalog.success_mem catalog.failure_mem (h.row ▸ hrow)).last
      obtain rfl : y = z := Option.some.inj (hy.symm.trans hz)
      rw [hreply, hrow]
      apply saysAccepted_calculateUpdate
      rw [revision_applyStaleness, hrevision]
      exact hle
  refine ⟨?_, ?_⟩
  · rw [hkeep hsays, hadvance, h.row]
  · rw [hadvance, ← h.answered]
    simp [Targets.answered, hsays]

theorem Follows.step (hgaps : (accepted key (past ++ [e])).IsChain
      fun x y => y.2 - x.2 < catalog.staleAfterSeconds) :
    catalog.Follows key (past ++ [e]) table' := by
  cases harrival : arrival key e with
  | none => exact h.unseen hstep harrival
  | some x =>
    by_cases hnew : ∀ y ∈ (accepted key past).getLast?, y.1.revision < x.1.revision
    · rw [accepted_concat_some harrival, advance, if_pos hnew, List.isChain_append] at hgaps
      exact h.newer hstep harrival hnew fun y hy => hgaps.2.2 y hy x rfl
    · exact h.older hstep harrival hnew

end TargetHealthCatalog

open TargetHealthCatalog

/-- **The hysteresis of target health.** Whatever observations of a target arrive, in whatever order,
those are accepted that are newer than all accepted before them. If the accepted ones follow each
other closely enough, they alone determine the row; it is healthy exactly if they contain as many
healthy observations in a row as the threshold asks for, and behind them not as many unhealthy ones;
and it dates its last change to the accepted observation that caused it. -/
theorem row_of_run {catalog : TargetHealthCatalog} {table : Table}
    (hrun : Run catalog.Step ∅ es table)
    (hgaps : (accepted key es).IsChain fun x y => y.2 - x.2 < catalog.staleAfterSeconds) :
    ((accepted key es).Pairwise fun x y => x.1.revision < y.1.revision) ∧
      answered key es = accepted key es ∧
      table.get? key = replay catalog.successThreshold catalog.failureThreshold (accepted key es) ∧
      ∀ row, table.get? key = some row →
        (row.effectiveHealthy = true ↔
          On catalog.successThreshold catalog.failureThreshold (readings (accepted key es))) ∧
        ∃ y, LastChange (fun l => On catalog.successThreshold catalog.failureThreshold (readings l))
            (accepted key es) y ∧
          row.lastTransitionUnixSeconds = y.2 := by
  have h : catalog.Follows key es table := by
    apply hrun.history ⟨rfl, rfl⟩
    intro past table1 e table2 _ hpre h hstep
    obtain ⟨rest, hrest⟩ := @accepted_mono key _ _ hpre
    rw [← hrest, List.isChain_append] at hgaps
    exact h.step hstep hgaps.1
  refine ⟨pairwise_accepted key es, h.answered, h.row, fun row hrow => ?_⟩
  have hreflects := reflects_replay catalog.success_mem catalog.failure_mem (h.row ▸ hrow)
  exact ⟨hreflects.effective, hreflects.transition⟩

namespace Sample

/-- Two healthy observations in a row switch on, two unhealthy ones switch off. -/
def pairs : TargetHealthCatalog := ⟨2, 2, 60, by simp, by simp, by simp⟩

def healthyAt (revision now : ℕ) : Call :=
  ⟨⟨"a", true, true, true, 1, revision, none⟩, 1, .ok (), now⟩

def answer (table : Table) (call : Call) :
    Except Unit (Except TargetHealthError TargetHealthUpdate × Table) :=
  .ok (pairs.observe table call)

/-- The accepted observations follow each other closely, and the target ends healthy. -/
def endsHealthy (x : List Event × Table) : Bool :=
  decide ((accepted "a" x.1).IsChain fun x y => y.2 - x.2 < 60) &&
    (x.2.get? "a").any fun row => row.effectiveHealthy

theorem run_repeated : ∃ es table, Run pairs.Step ∅ es table ∧ endsHealthy (es, table) = true := by
  have hany : ∃ x ∈ perform answer (fun _ _ => True) ∅
      [healthyAt 1 100, healthyAt 1 110, healthyAt 2 120], endsHealthy x = true := by
    decide +kernel
  obtain ⟨⟨es, table⟩, hcalls, htest⟩ := hany
  exact ⟨es, table, (Run.of_calls hcalls).mono fun s e s' h => Except.ok.inj h, htest⟩

end Sample

/-- Two healthy observations with a repetition of the first between them. -/
theorem row_of_run_repeated : ∃ es table row, Run Sample.pairs.Step ∅ es table ∧
    table.get? "a" = some row ∧ row.effectiveHealthy = true ∧
    On 2 2 (readings (accepted "a" es)) := by
  obtain ⟨es, table, hrun, htest⟩ := Sample.run_repeated
  obtain ⟨hgaps, hrow⟩ := Bool.and_eq_true_iff.mp htest
  obtain ⟨row, hrow, hhealthy⟩ := (Option.any_eq_true _ _).mp hrow
  exact ⟨es, table, row, hrun, hrow, hhealthy,
    ((row_of_run hrun (of_decide_eq_true hgaps)).2.2.2 row hrow).1.mp hhealthy⟩

end LinkLake.Targets
