import LinkLake.Server.TrafficControl.Admission

/-!
# The rate limit is a sliding window

What the catalog answers to a sequence of calls, and what its rate limit guarantees: over any sixty
seconds a policy admits at most as many connections as its settings allow, and it turns a connection
away for its rate only when exactly so many were admitted in the last sixty seconds.

The queue is cleared by a saturating comparison, `timestamp.saturating_add(60) <= now`. It is the
exact one at every reading of `unix_seconds`, which is below `2 ^ 63`: the seconds of a `SystemTime`
are an `i64`.
-/

namespace LinkLake.TrafficControl

open SlidingWindow FiniteMap
open Coordination (saturatingAddU64)
open Socks5 (IpAddr)

/-! ## Calls -/

/-- A call of the catalog. -/
inductive Call
  | authorize (policy : Policy) (source : IpAddr) (now : ℕ)
  | upsert (policy : Policy) (request : UpsertTrafficControl) (now : ℕ)
  | delete (policy : Policy)
  | resetRuntimeState
  | recordUsageEvent (event : TrafficUsageEvent) (now : ℕ)
  deriving DecidableEq

/-- What a call is answered. -/
inductive Reply
  | decision (result : Except TrafficControlError TrafficDecision)
  | record (result : Except TrafficControlError TrafficControlRecord)
  | deleted (found : Bool)
  | done
  | recorded (result : Except TrafficControlError Unit)

namespace TrafficControlCatalog

/-- Answer a call. -/
def respond (ip : IpText) (catalog : TrafficControlCatalog) : Call → Reply × TrafficControlCatalog
  | .authorize policy source now =>
    (catalog.authorize ip policy.1 policy.2 source now).map .decision id
  | .upsert policy request now => (catalog.upsert ip policy.1 policy.2 request now).map .record id
  | .delete policy => (catalog.delete policy.1 policy.2).map .deleted id
  | .resetRuntimeState => (.done, catalog.resetRuntimeState)
  | .recordUsageEvent event now => (catalog.recordUsageEvent event now).map .recorded id

/-- A call with its answer. -/
def Step (ip : IpText) (catalog : TrafficControlCatalog) (e : Call × Reply)
    (catalog' : TrafficControlCatalog) : Prop :=
  catalog.respond ip e.1 = (e.2, catalog')

end TrafficControlCatalog

/-- The call writes the settings of the policy or throws its queue away. -/
def Call.resets (policy : Policy) : Call → Bool
  | .upsert policy' _ _ => policy' == policy
  | .delete policy' => policy' == policy
  | .resetRuntimeState => true
  | .authorize _ _ _ | .recordUsageEvent _ _ => false

/-- The clock reading of a request for admission to the policy. -/
def askedAt (policy : Policy) : Call × Reply → Option ℕ
  | (.authorize policy' _ now, _) => if policy' = policy then some now else none
  | _ => none

/-- The clock reading of an admission to the policy. -/
def admittedAt (policy : Policy) : Call × Reply → Option ℕ
  | (.authorize policy' _ now, .decision (.ok .allowed)) =>
    if policy' = policy then some now else none
  | _ => none

/-- The times at which the policy admitted a connection. -/
def admissions (policy : Policy) (es : List (Call × Reply)) : List ℕ :=
  es.filterMap (admittedAt policy)

/-! ## One call -/

namespace TrafficControlCatalog

variable {ip : IpText} {catalog catalog' : TrafficControlCatalog} {kind : TrafficPolicyKind}
  {policyId : Uuid} {policy other : Policy} {source : IpAddr} {now limit : ℕ} {row : ControlRow}

/-- The queue of a policy. -/
def window (catalog : TrafficControlCatalog) (policy : Policy) : List ℕ :=
  (catalog.connectionWindows.get? policy).getD []

theorem expireFront_eq {window : List ℕ} (hnow : now < 2 ^ 63) :
    expireFront window now = window.dropWhile fun t => decide (t + 60 ≤ now) := by
  have hexact : ∀ t, saturatingAddU64 t 60 ≤ now ↔ t + 60 ≤ now := by
    intro t
    rw [saturatingAddU64]
    omega
  simp only [expireFront, hexact]

theorem admission_eq :
    (catalog.admission policy limit now).1 =
        (if limit ≤ (expireFront (catalog.window policy) now).length then .rateLimited
          else .allowed) ∧
      (catalog.admission policy limit now).2.window policy =
        (if limit ≤ (expireFront (catalog.window policy) now).length then
            expireFront (catalog.window policy) now
          else expireFront (catalog.window policy) now ++ [now]) := by
  unfold admission
  by_cases hlimit : limit ≤ (expireFront (catalog.window policy) now).length
  · simp only [window] at hlimit ⊢
    simp [hlimit]
  · simp only [window] at hlimit ⊢
    simp [hlimit]

theorem admission_frame (hother : other ≠ policy) :
    (catalog.admission policy limit now).2.window other = catalog.window other := by
  unfold admission
  simp only [window]
  split <;> simp [get?_insert_of_ne, hother]

theorem controls_admission : (catalog.admission policy limit now).2.controls = catalog.controls := by
  simp only [admission]
  split
  · rfl
  · rfl

theorem authorize_cases (ip : IpText) (catalog : TrafficControlCatalog) (kind : TrafficPolicyKind)
    (policyId : Uuid) (source : IpAddr) (now : ℕ) :
    (catalog.authorize ip kind policyId source now).2 = catalog ∧
        (catalog.authorize ip kind policyId source now).1 ≠ .ok .rateLimited ∧
        ((catalog.authorize ip kind policyId source now).1 = .ok .allowed →
          ∀ row, catalog.controls.get? (kind, policyId) = some row →
            row.settings.enabled = true → row.settings.maxConnectionsPerMinute = none) ∨
      ∃ row limit, catalog.controls.get? (kind, policyId) = some row ∧
        row.settings.maxConnectionsPerMinute = some limit ∧
        catalog.authorize ip kind policyId source now =
          (.ok (catalog.admission (kind, policyId) limit now).1,
            (catalog.admission (kind, policyId) limit now).2) := by
  unfold authorize get
  cases hrow : catalog.controls.get? (kind, policyId) with
  | none => simp
  | some row =>
    cases husage : catalog.tables.usage kind policyId (utcDay now) with
    | error error => simp
    | ok used =>
      simp only [Option.some.injEq]
      split_ifs with henabled hsource hschedule hquota
      · left
        simp_all
      · left
        simp
      · left
        simp
      · left
        simp
      · cases hlimit : row.settings.maxConnectionsPerMinute with
        | none => simp [hlimit]
        | some limit => exact .inr ⟨row, limit, rfl, hlimit, rfl⟩

/-- The policy is enabled and has a rate limit. -/
def HasLimit (catalog : TrafficControlCatalog) (policy : Policy) (limit : ℕ) : Prop :=
  ∃ row, catalog.controls.get? policy = some row ∧ row.settings.enabled = true ∧
    row.settings.maxConnectionsPerMinute = some limit

theorem HasLimit.authorize_cases (h : catalog.HasLimit policy limit) (ip : IpText)
    (source : IpAddr) (now : ℕ) :
    (catalog.authorize ip policy.1 policy.2 source now).2 = catalog ∧
        (catalog.authorize ip policy.1 policy.2 source now).1 ≠ .ok .rateLimited ∧
        (catalog.authorize ip policy.1 policy.2 source now).1 ≠ .ok .allowed ∨
      catalog.authorize ip policy.1 policy.2 source now =
        (.ok (catalog.admission policy limit now).1, (catalog.admission policy limit now).2) := by
  obtain ⟨row, hrow, henabled, hlimit⟩ := h
  rcases TrafficControlCatalog.authorize_cases ip catalog policy.1 policy.2 source now with
    ⟨hsame, hrate, hfree⟩ | ⟨row', limit', hrow', hlimit', heq⟩
  · refine .inl ⟨hsame, hrate, fun hallowed => ?_⟩
    cases hlimit.symm.trans (hfree hallowed row hrow henabled)
  · obtain rfl : row = row' := Option.some.inj (hrow.symm.trans hrow')
    obtain rfl : limit = limit' := Option.some.inj (hlimit.symm.trans hlimit')
    exact .inr heq

theorem authorize_frame (ip : IpText) (catalog : TrafficControlCatalog) (source : IpAddr) (now : ℕ)
    (hother : other ≠ policy) :
    (catalog.authorize ip policy.1 policy.2 source now).2.controls = catalog.controls ∧
      (catalog.authorize ip policy.1 policy.2 source now).2.window other = catalog.window other := by
  rcases authorize_cases ip catalog policy.1 policy.2 source now with
    ⟨hsame, -⟩ | ⟨-, limit, -, -, heq⟩
  · rw [hsame]
    exact ⟨rfl, rfl⟩
  · rw [heq]
    exact ⟨controls_admission, admission_frame hother⟩

theorem Step.frame {e : Call × Reply} (h : Step ip catalog e catalog')
    (hresets : e.1.resets policy = false) (hasked : askedAt policy e = none) :
    catalog'.controls.get? policy = catalog.controls.get? policy ∧
      catalog'.window policy = catalog.window policy ∧ admittedAt policy e = none := by
  obtain ⟨call, reply⟩ := e
  obtain rfl := congrArg Prod.snd h
  cases call with
  | authorize other source now =>
    have hother : policy ≠ other := by
      rintro rfl
      simp [askedAt] at hasked
    obtain ⟨hcontrols, hwindow⟩ := authorize_frame ip catalog source now hother
    refine ⟨congrArg (·.get? policy) hcontrols, hwindow, ?_⟩
    unfold admittedAt
    split
    · rename_i heq
      cases heq
      exact if_neg hother.symm
    · rfl
  | upsert other request now =>
    have hother : policy ≠ other := by
      rintro rfl
      simp [Call.resets] at hresets
    refine ⟨?_, ?_, rfl⟩
    · simp only [respond, Prod.map_snd, id, upsert]
      split
      · rfl
      · exact get?_insert_of_ne hother
    · simp only [respond, Prod.map_snd, id, upsert]
      split
      · rfl
      · simp only [window]
        rw [get?_erase_of_ne hother]
  | delete other =>
    have hother : policy ≠ other := by
      rintro rfl
      simp [Call.resets] at hresets
    refine ⟨get?_erase_of_ne hother, ?_, rfl⟩
    simp only [respond, Prod.map_snd, id, delete, window]
    rw [get?_erase_of_ne hother]
  | resetRuntimeState => simp [Call.resets] at hresets
  | recordUsageEvent event now =>
    simp only [respond, Prod.map_snd, id, recordUsageEvent]
    split
    · exact ⟨rfl, rfl, rfl⟩
    · exact ⟨rfl, rfl, rfl⟩

end TrafficControlCatalog

/-! ## Runs -/

open TrafficControlCatalog

variable {ip : IpText} {catalog catalog' : TrafficControlCatalog} {policy : Policy} {limit : ℕ}
  {past es : List (Call × Reply)} {e : Call × Reply}

/-- What the queue of a policy says about the calls so far. -/
structure Limits (policy : Policy) (limit : ℕ) (past : List (Call × Reply))
    (catalog : TrafficControlCatalog) : Prop where
  hasLimit : catalog.HasLimit policy limit
  tracks : ∀ now, (∀ t ∈ past.filterMap (askedAt policy), t ≤ now) →
    Tracks 60 now (catalog.window policy) (admissions policy past)
  limited : Limited 60 limit (admissions policy past)

namespace Limits

theorem nil (hlimit : catalog.HasLimit policy limit)
    (hempty : catalog.connectionWindows.get? policy = none) : Limits policy limit [] catalog where
  hasLimit := hlimit
  tracks _ _ := by
    simp only [window, hempty, Option.getD_none]
    exact tracks_nil
  limited := limited_nil

section

variable (h : Limits policy limit past catalog)
include h

theorem unseen (hstep : Step ip catalog e catalog')
    (hresets : e.1.resets policy = false) (hasked : askedAt policy e = none) :
    Limits policy limit (past ++ [e]) catalog' := by
  obtain ⟨hrow, hwindow, hadmitted⟩ := hstep.frame hresets hasked
  have hadmissions : admissions policy (past ++ [e]) = admissions policy past := by
    simp [admissions, hadmitted]
  refine ⟨?_, ?_, ?_⟩
  · unfold HasLimit
    rw [hrow]
    exact h.hasLimit
  · intro now hnow
    rw [hwindow, hadmissions]
    apply h.tracks
    intro t ht
    exact hnow t (by simp [ht])
  · rw [hadmissions]
    exact h.limited

variable {now : ℕ}

theorem expireFront_eq
    (hle : ∀ t ∈ past.filterMap (askedAt policy), t ≤ now) (hnow : now < 2 ^ 63) :
    expireFront (catalog.window policy) now = within 60 now (admissions policy past) := by
  rw [TrafficControlCatalog.expireFront_eq hnow]
  exact (h.tracks now hle).dropWhile_eq

variable {source : IpAddr}

theorem refused {result : Except TrafficControlError TrafficDecision}
    (hresult : result ≠ .ok .allowed) (hrow : catalog'.controls = catalog.controls)
    (htracks : Tracks 60 now (catalog'.window policy) (admissions policy past)) :
    Limits policy limit (past ++ [(.authorize policy source now, .decision result)]) catalog' := by
  have hadmissions : admissions policy (past ++ [(.authorize policy source now, .decision result)]) =
      admissions policy past := by
    have hnone : admittedAt policy (.authorize policy source now, .decision result) = none := by
      unfold admittedAt
      split
      · rename_i heq
        cases heq
        exact absurd rfl hresult
      · rfl
    simp [admissions, hnone]
  refine ⟨?_, ?_, ?_⟩
  · unfold HasLimit
    rw [hrow]
    exact h.hasLimit
  · intro later hlater
    rw [hadmissions]
    exact htracks.later (hlater now (by simp [askedAt]))
  · rw [hadmissions]
    exact h.limited

theorem admitted (hrow : catalog'.controls = catalog.controls)
    (htracks : Tracks 60 now (catalog'.window policy) (admissions policy past ++ [now]))
    (hroom : (within 60 now (admissions policy past)).length < limit) :
    Limits policy limit (past ++ [(.authorize policy source now, .decision (.ok .allowed))])
      catalog' := by
  have hadmissions :
      admissions policy (past ++ [(.authorize policy source now, .decision (.ok .allowed))]) =
        admissions policy past ++ [now] := by
    simp [admissions, admittedAt]
  refine ⟨?_, ?_, ?_⟩
  · unfold HasLimit
    rw [hrow]
    exact h.hasLimit
  · intro later hlater
    rw [hadmissions]
    exact htracks.later (hlater now (by simp [askedAt]))
  · rw [hadmissions]
    apply h.limited.push _ hroom
    intro t ht
    exact htracks.le_now t (by simp [ht])

theorem asked {reply : Reply}
    (hstep : Step ip catalog (.authorize policy source now, reply) catalog')
    (hle : ∀ t ∈ past.filterMap (askedAt policy), t ≤ now) (hnow : now < 2 ^ 63) :
    Limits policy limit (past ++ [(.authorize policy source now, reply)]) catalog' ∧
      (reply = .decision (.ok .rateLimited) →
        (within 60 now (admissions policy past)).length = limit) := by
  have htracks := h.tracks now hle
  have hcleared := htracks.clear
  have hmeasured := h.expireFront_eq hle hnow
  rw [htracks.dropWhile_eq, ← hmeasured] at hcleared
  obtain rfl : .decision (catalog.authorize ip policy.1 policy.2 source now).1 = reply :=
    congrArg Prod.fst hstep
  obtain rfl : (catalog.authorize ip policy.1 policy.2 source now).2 = catalog' :=
    congrArg Prod.snd hstep
  rcases h.hasLimit.authorize_cases ip source now with ⟨hsame, hrate, hallowed⟩ | heq
  · refine ⟨h.refused hallowed ?_ ?_, ?_⟩
    · rw [hsame]
    · rw [hsame]
      exact htracks
    · intro hreply
      injection hreply with hreply
      exact absurd hreply hrate
  · rw [heq]
    obtain ⟨hdecision, hwindow⟩ :=
      @admission_eq catalog policy now limit
    by_cases hfull : limit ≤ (expireFront (catalog.window policy) now).length
    · rw [if_pos hfull] at hdecision hwindow
      rw [hdecision]
      refine ⟨h.refused (by simp) controls_admission (hwindow ▸ hcleared), fun _ => ?_⟩
      rw [hmeasured] at hfull
      exact le_antisymm (h.limited now) hfull
    · rw [if_neg hfull] at hdecision hwindow
      rw [hdecision]
      refine ⟨h.admitted controls_admission (hwindow ▸ hcleared.push) ?_, fun hreply => ?_⟩
      · rw [← hmeasured]
        omega
      · simp at hreply

theorem step (hstep : Step ip catalog e catalog') (hresets : e.1.resets policy = false)
    (hclock : Clocked (askedAt policy) (past ++ [e]))
    (hbelow : ∀ now ∈ askedAt policy e, now < 2 ^ 63) :
    Limits policy limit (past ++ [e]) catalog' := by
  cases hasked : askedAt policy e with
  | none => exact h.unseen hstep hresets hasked
  | some now =>
    obtain ⟨call, reply⟩ := e
    cases call with
    | authorize other source now' =>
      by_cases hother : other = policy
      · subst hother
        obtain rfl : now' = now := by simpa [askedAt] using hasked
        have hle := fun t => @Clocked.le_last _ _ _ _ t _ hclock hasked
        exact (h.asked hstep hle (hbelow _ hasked)).1
      · simp [askedAt, hother] at hasked
    | _ => cases hasked

end

theorem of_run (hlimit : catalog.HasLimit policy limit)
    (hempty : catalog.connectionWindows.get? policy = none)
    (hrun : Run (Step ip) catalog es catalog') (hresets : ∀ e ∈ es, e.1.resets policy = false)
    (hclock : Clocked (askedAt policy) es)
    (hbelow : ∀ now ∈ es.filterMap (askedAt policy), now < 2 ^ 63) :
    Limits policy limit es catalog' := by
  apply hrun.history (nil hlimit hempty)
  intro past catalog1 e catalog2 _ hpre h hstep
  have he : e ∈ es := hpre.subset (by simp)
  apply h.step hstep (hresets e he) (hclock.of_initial hpre)
  intro now hasked
  exact hbelow now (List.mem_filterMap.mpr ⟨e, he, hasked⟩)

end Limits

/-- **The rate limit is a sliding window.** As long as the settings of an enabled policy stay as they
are and the clock, which reads less than `2 ^ 63` seconds, never goes back, no sixty seconds see
more than `limit` admissions, and a connection is turned away for its rate only if exactly `limit`
were admitted in the sixty seconds that end with it. Calls about other policies and new usage may
come in between. -/
theorem rateLimit_slidingWindow (hlimit : catalog.HasLimit policy limit)
    (hempty : catalog.connectionWindows.get? policy = none)
    (hrun : Run (Step ip) catalog es catalog') (hresets : ∀ e ∈ es, e.1.resets policy = false)
    (hclock : Clocked (askedAt policy) es)
    (hbelow : ∀ now ∈ es.filterMap (askedAt policy), now < 2 ^ 63) :
    (∀ t, (within 60 t (admissions policy es)).length ≤ limit) ∧
      ∀ before source now after,
        es = before ++ (.authorize policy source now, .decision (.ok .rateLimited)) :: after →
          (within 60 now (admissions policy before)).length = limit := by
  refine ⟨(Limits.of_run hlimit hempty hrun hresets hclock hbelow).limited, ?_⟩
  rintro before source now after rfl
  obtain ⟨catalog1, hbefore, hrest⟩ := hrun.of_append
  obtain ⟨catalog2, hstep, -⟩ := hrest.of_cons
  have hpre : before ++ [(Call.authorize policy source now, Reply.decision (.ok .rateLimited))] <+:
      before ++ (.authorize policy source now, .decision (.ok .rateLimited)) :: after := by
    simp
  have hmem : now ∈ (before ++ [(Call.authorize policy source now,
      Reply.decision (.ok .rateLimited))]).filterMap (askedAt policy) := by
    simp [askedAt]
  have h : Limits policy limit before catalog1 := by
    apply Limits.of_run hlimit hempty hbefore
    · exact fun e he => hresets e (by simp [he])
    · exact hclock.of_initial (List.prefix_append _ _)
    · exact fun t ht => hbelow t (by simp [ht])
  have hle := fun t => @Clocked.le_last _ _ _ _ t _ (hclock.of_initial hpre)
    (if_pos rfl : askedAt policy (.authorize policy source now, _) = some now)
  exact (h.asked hstep hle (hbelow now ((hpre.filterMap _).subset hmem))).2 rfl

namespace Sample

/-- No text is an address. -/
def noText : IpText := ⟨fun _ => none, fun _ => []⟩

/-- A policy that admits one connection a minute. -/
def onePerMinute : Policy := (.tcp, ⟨1⟩)

def start : TrafficControlCatalog :=
  ⟨(∅ : FiniteMap Policy ControlRow).insert onePerMinute
      ⟨⟨[], [], some 1, none, [], none, none, true⟩, 0⟩, UsageTables.empty, ∅⟩

theorem hasLimit : start.HasLimit onePerMinute 1 := ⟨_, rfl, rfl, rfl⟩

/-- Two connections that arrive at one moment. -/
def twice : List Call :=
  [.authorize onePerMinute (.v4 0) 1000, .authorize onePerMinute (.v4 0) 1000]

/-- The catalog always answers. -/
def answer (catalog : TrafficControlCatalog) (call : Call) :
    Except Unit (Reply × TrafficControlCatalog) :=
  .ok (catalog.respond noText call)

theorem run_of_answers {cs : List Call} {es : List (Call × Reply)} {final : TrafficControlCatalog}
    (h : perform answer (fun _ _ => True) start cs = some (es, final)) :
    Run (Step noText) start es final :=
  (Run.of_calls h).mono fun _ _ _ hstep => Except.ok.inj hstep

end Sample

open Sample

theorem rateLimit_slidingWindow_twice :
    ∃ es final, Run (Step noText) start es final ∧
      (within 60 1000 (admissions onePerMinute es)).length = 1 ∧
      ∀ t, (within 60 t (admissions onePerMinute es)).length ≤ 1 := by
  have h : ∃ x ∈ perform answer (fun _ _ => True) start twice,
      (∀ e ∈ x.1, e.1.resets onePerMinute = false) ∧
      Clocked (askedAt onePerMinute) x.1 ∧
      (∀ now ∈ x.1.filterMap (askedAt onePerMinute), now < 2 ^ 63) ∧
      (within 60 1000 (admissions onePerMinute x.1)).length = 1 := by
    decide +kernel
  obtain ⟨⟨es, final⟩, hcalls, hresets, hclock, hbelow, hone⟩ := h
  have hrun := run_of_answers hcalls
  exact ⟨es, final, hrun, hone, (rateLimit_slidingWindow hasLimit rfl hrun hresets hclock hbelow).1⟩

end LinkLake.TrafficControl
