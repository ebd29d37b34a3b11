import LinkLake.Server.Coordination.System

/-!
# Leadership

What holds of the leader in every run, whoever registers, acquires, renews, prunes or recovers and in
whichever order (`leadershipSafe_of_run`). No part of it depends on the clock.
-/

namespace LinkLake.Coordination

variable {d d' : Database} {e : Call × Reply} {es : List (Call × Reply)} {persistent : Bool}

/-- What is expected of the leadership after the calls `es`. -/
structure LeadershipSafe (es : List (Call × Reply)) (d : Database) : Prop where
  /-- At most one incarnation passes the fence, under one token. -/
  exclusive : ∀ now (c1 c2 : HaCoordinator) t1 t2,
    c1.assertSqliteTransactionFence t1 now d = .ok () →
    c2.assertSqliteTransactionFence t2 now d = .ok () → c1.incarnation = c2.incarnation ∧ t1 = t2
  /-- The token of the leader is below the next one. -/
  bounded : ∀ leader, d.haLeader = some leader → leader.fencingToken < d.nextToken
  /-- The next acquisition renews the row of the leader, or has a token above all earlier ones. -/
  increasing : ∀ e d', Step d e d' → ∀ lease, acquiredLeadership e = some lease →
    (∃ leader, d.haLeader = some leader ∧ lease.grant = leader.grant ∧
      lease.acquiredUnixSeconds = leader.acquiredUnixSeconds ∧ d'.nextToken = d.nextToken) ∨
    ∀ earlier ∈ es.filterMap acquiredLeadership, earlier.fencingToken < lease.fencingToken
  /-- A token belongs to one incarnation. -/
  unique : ∀ l1 ∈ es.filterMap acquiredLeadership, ∀ l2 ∈ es.filterMap acquiredLeadership,
    l1.fencingToken = l2.fencingToken → l1.grant = l2.grant
  /-- A token does not pass the fence once a later one has been issued. -/
  fenced : ∀ issued ∈ es.filterMap acquiredLeadership, ∀ now (c : HaCoordinator) t,
    c.assertSqliteTransactionFence t now d = .ok () → issued.fencingToken ≤ t
  /-- A leader whose leases run is not displaced, neither as the leader nor as a member. -/
  stable : ∀ e d', Step d e d' → ∀ leader, d.haLeader = some leader →
    HaCoordinator.LeaderActive d e.1.now leader →
    (∃ leader', d'.haLeader = some leader' ∧ leader'.grant = leader.grant) ∧
      ∃ member, d'.haMembers.get? leader.instanceId = some member ∧
        member.incarnationId = leader.incarnationId

theorem acquired_cases {lease : LeadershipLease} (h : Step d e d')
    (hlead : acquiredLeadership e = some lease) :
    (authority d').grant = some lease.grant ∧
    ((∃ leader, d.haLeader = some leader ∧ lease.grant = leader.grant ∧
      lease.acquiredUnixSeconds = leader.acquiredUnixSeconds ∧ d'.nextToken = d.nextToken) ∨
    lease.fencingToken = d.nextToken) := by
  cases step_effect h with
  | kept hquiet => cases hquiet.leadership.symm.trans hlead
  | reopened hquiet => cases hquiet.leadership.symm.trans hlead
  | recovered hquiet => cases hquiet.leadership.symm.trans hlead
  | members hquiet => cases hquiet.leadership.symm.trans hlead
  | jobs hnone => cases hnone.symm.trans hlead
  | ports hnone => cases hnone.symm.trans hlead
  | renewedLeader hleader hcase _ _ =>
    obtain hnone | hsome := hcase
    · cases hnone.symm.trans hlead
    · cases hsome.symm.trans hlead
      exact ⟨rfl, .inl ⟨_, hleader, rfl, rfl, rfl⟩⟩
  | issuedLeader _ hsome _ _ =>
    cases hsome.symm.trans hlead
    exact ⟨rfl, .inr rfl⟩

theorem member_of_step (h : Step d e d') {instanceId : String} {row : HaMember}
    (hget : d.haMembers.get? instanceId = some row) (hruns : e.1.now < row.leaseUntilUnixSeconds) :
    ∃ row', d'.haMembers.get? instanceId = some row' ∧ row'.incarnationId = row.incarnationId := by
  cases step_effect h with
  | members _ hkept => exact hkept instanceId row hget hruns
  | recovered _ =>
    rw [HaCoordinator.recoverStaleSqliteLeases]
    split
    · refine ⟨{ row with leaseUntilUnixSeconds := 0 }, ?_, rfl⟩
      simp only [FiniteMap.get?_map, hget, Option.map_some]
    · exact ⟨row, hget, rfl⟩
  | _ => exact ⟨row, hget, rfl⟩

theorem leader_of_step (h : Step d e d') {leader : LeadershipLease}
    (hleader : d.haLeader = some leader) (hactive : HaCoordinator.LeaderActive d e.1.now leader) :
    ∃ leader', d'.haLeader = some leader' ∧ leader'.grant = leader.grant := by
  cases step_effect h with
  | recovered _ =>
    rw [HaCoordinator.recoverStaleSqliteLeases]
    split
    · exact ⟨{ leader with leaseUntilUnixSeconds := 0 }, by simp [hleader], rfl⟩
    · exact ⟨leader, hleader, rfl⟩
  | renewedLeader hleader' _ _ _ =>
    cases hleader.symm.trans hleader'
    exact ⟨_, rfl, rfl⟩
  | issuedLeader hfree _ _ _ => exact absurd hactive (hfree leader hleader)
  | _ => exact ⟨leader, hleader, rfl⟩

/-- **The leadership is safe in every run.** -/
theorem leadershipSafe_of_run (hrun : Run Step (Database.empty persistent) es d) :
    LeadershipSafe es d := by
  have hstart : (authority (Database.empty persistent)).Bounded := fun _ hgrant => by cases hgrant
  have hmove : ∀ d e d', Step d e d' → Authority.Move (authority d) (authority d') :=
    fun _ _ _ => leadershipMove
  have hacquired : ∀ d e d' g, Step d e d' →
      (acquiredLeadership e).map LeadershipLease.grant = some g →
      (authority d').grant = some g := by
    intro d e d' g hstep hsome
    obtain ⟨lease, hlead, rfl⟩ := Option.map_eq_some_iff.mp hsome
    exact (acquired_cases hstep hlead).1
  have hbounded := Authority.bounded_of_run hmove hrun hstart
  obtain ⟨hknown, hunique⟩ := Authority.grants_of_run hmove hacquired hrun hstart
  have hissued : ∀ lease ∈ es.filterMap acquiredLeadership,
      lease.grant ∈ es.filterMap fun e => (acquiredLeadership e).map LeadershipLease.grant := by
    intro lease hlease
    obtain ⟨e, he, hlead⟩ := List.mem_filterMap.mp hlease
    exact List.mem_filterMap.mpr ⟨e, he, by rw [hlead]; rfl⟩
  exact {
    exclusive := fun now c1 c2 t1 t2 h1 h2 => by
      have hgrant := (grant_of_fence h1).symm.trans (grant_of_fence h2)
      exact Grant.mk.inj (Option.some.inj hgrant)
    bounded := fun leader hleader => hbounded leader.grant (by simp [authority, hleader])
    increasing := fun e d' hstep lease hlead => by
      obtain hrenewed | hnext := (acquired_cases hstep hlead).2
      · exact .inl hrenewed
      · refine .inr fun earlier hearlier => ?_
        obtain ⟨g, hg, hprecedes⟩ := hknown _ (hissued earlier hearlier)
        rw [hnext]
        exact lt_of_le_of_lt hprecedes.token_le (hbounded g hg)
    unique := fun l1 h1 l2 h2 htoken => hunique _ (hissued l1 h1) _ (hissued l2 h2) htoken
    fenced := fun issued hmem now c t hfence =>
      (hknown _ (hissued issued hmem)).token_le (grant_of_fence hfence)
    stable := fun e d' hstep leader hleader hactive => by
      obtain ⟨member, hget, hincarnation, hruns⟩ :=
        HaCoordinator.sqliteMemberIsActive_iff.mp hactive.1
      obtain ⟨row', hget', hsame⟩ := member_of_step hstep hget hruns
      exact ⟨leader_of_step hstep hleader hactive, row', hget', hsame.trans hincarnation⟩ }

namespace Sample

def coordinator (instanceId incarnationId : String) : HaCoordinator where
  instanceId := instanceId
  incarnationId := incarnationId
  metadataJson := "\x7b\x7d"
  memberLeaseSeconds := 30
  leaderLeaseSeconds := 10
  memberLease := by decide
  leaderLease := by decide
  leaderLease_le := by decide

def east : HaCoordinator := coordinator "east" "a"

def west : HaCoordinator := coordinator "west" "b"

/-- A call that draws no identifier. -/
def callAt (now : Fin (2 ^ 63)) (operation : Operation) : Call := ⟨operation, now, .nil⟩

/-- The lease of the first leader runs out, and another instance takes over. -/
def takeover : List Call :=
  [callAt 100 (.registerOrRenewMember east), callAt 100 (.tryAcquireLeadership east),
    callAt 105 (.registerOrRenewMember west), callAt 109 (.tryAcquireLeadership west),
    callAt 111 (.tryAcquireLeadership west)]

def jobs (c : HaCoordinator) : JobLeases := ⟨c, 60, by decide⟩

/-- Both leaders acquire one job, the second one while the lease of the first one runs. -/
def backups : List Call :=
  [callAt 100 (.registerOrRenewMember east), callAt 100 (.tryAcquireLeadership east),
    ⟨.acquireJob (jobs east) "backup" "nightly" 1, 101, .fromU128 1⟩,
    callAt 105 (.registerOrRenewMember west), callAt 111 (.tryAcquireLeadership west),
    ⟨.acquireJob (jobs west) "backup" "nightly" 2, 112, .fromU128 2⟩]

end Sample

/-- Two leaders, one after the other. -/
theorem leadershipSafe_of_run_takeover : ∃ es d, Run Step (Database.empty true) es d ∧
    (es.filterMap acquiredLeadership).map LeadershipLease.fencingToken = [1, 2] ∧
    LeadershipSafe es d := by
  have h : ∃ x ∈ perform call (fun _ _ => True) (Database.empty true) Sample.takeover,
      (x.1.filterMap acquiredLeadership).map LeadershipLease.fencingToken = [1, 2] := by
    decide +kernel
  obtain ⟨⟨es, d⟩, hcalls, htokens⟩ := h
  have hrun := Run.of_calls hcalls
  exact ⟨es, d, hrun, htokens, leadershipSafe_of_run hrun⟩

end LinkLake.Coordination
