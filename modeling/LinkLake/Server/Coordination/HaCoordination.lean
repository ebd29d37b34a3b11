import LinkLake.Server.Coordination.Tables

/-!
# Members, the leader and its fencing token

The operations of a coordinator on SQLite (`ha_coordination.rs`). Each is one transaction with one
reading of the database's clock. A coordinator is one incarnation of an instance; `open` checks
its lease times, so they are part of the type, and gives it an incarnation of its own.
-/

namespace LinkLake.Coordination

open Fallible

def maxMemberLeaseSeconds : ℕ := 5 * 60

def maxLeaderLeaseSeconds : ℕ := 2 * 60

structure HaCoordinator where
  instanceId : String
  incarnationId : String
  metadataJson : String
  memberLeaseSeconds : ℕ
  leaderLeaseSeconds : ℕ
  memberLease : 2 ≤ memberLeaseSeconds ∧ memberLeaseSeconds ≤ maxMemberLeaseSeconds
  leaderLease : 2 ≤ leaderLeaseSeconds ∧ leaderLeaseSeconds ≤ maxLeaderLeaseSeconds
  leaderLease_le : leaderLeaseSeconds ≤ memberLeaseSeconds

namespace HaCoordinator

/-- Whether an incarnation is a member with a running lease. -/
def sqliteMemberIsActive (d : Database) (instanceId incarnationId : String) (now : ℕ) : Bool :=
  (d.haMembers.get? instanceId).any fun member =>
    member.incarnationId == incarnationId && now < member.leaseUntilUnixSeconds

/-- The recovery at the start of a process, which holds the lock of the data directory: whatever
runs in the tables is left by a process that has ended. -/
def recoverStaleSqliteLeases (d : Database) : Bool × Database :=
  if d.persistent && !d.recoveryClaimed then
    (true, { d with
      recoveryClaimed := true
      haMembers := d.haMembers.map fun _ row => { row with leaseUntilUnixSeconds := 0 }
      haLeader := d.haLeader.map fun row => { row with leaseUntilUnixSeconds := 0 }
      publicPortOwnership :=
        d.publicPortOwnership.map fun _ row => { row with leaseUntilUnixSeconds := 0 }
      jobLeases := d.jobLeases.map fun _ row => { row with leaseUntilUnixSeconds := 0 } })
  else (false, d)

variable (c : HaCoordinator)

/-- The row of a member that registers or renews its lease. -/
def memberRow (now : ℕ) (current : Option HaMember) : Except CoordinationError HaMember :=
  let leaseUntil := saturatingAddU64 now c.memberLeaseSeconds
  let takeover := (asI64 leaseUntil).map fun leaseUntil =>
    (⟨c.instanceId, c.incarnationId, now, now, leaseUntil, c.metadataJson⟩ : HaMember)
  match current with
  | some current =>
    if current.incarnationId = c.incarnationId then
      (asI64 leaseUntil).map fun leaseUntil => { current with
        lastSeenUnixSeconds := now
        leaseUntilUnixSeconds := leaseUntil
        metadataJson := c.metadataJson }
    else if now < current.leaseUntilUnixSeconds then .error .anotherIncarnation
    else takeover
  | none => takeover

def registerOrRenewMember (now : ℕ) (d : Database) :
    Except CoordinationError (HaMember × Database) := do
  let member ← c.memberRow now (d.haMembers.get? c.instanceId)
  pure (member, { d with haMembers := d.haMembers.insert c.instanceId member })

def pruneExpiredMembers (now : ℕ) (d : Database) : ℕ × Database :=
  let pruned := pruneExpiredLeaseBatch (fun a b => decide (a ≤ b))
    HaMember.leaseUntilUnixSeconds now d.haMembers
  (pruned.1, { d with haMembers := pruned.2 })

def renewSqliteLeader (fencingToken now : ℕ) (d : Database) :
    Except CoordinationError (Option LeadershipLease × Database) := do
  let leaseUntil ← asI64 (saturatingAddU64 now c.leaderLeaseSeconds)
  let fencingToken ← asI64 fencingToken
  match d.haLeader with
  | none => pure (none, d)
  | some leader =>
    if leader.instanceId = c.instanceId ∧ leader.incarnationId = c.incarnationId
        ∧ leader.fencingToken = fencingToken ∧ now < leader.leaseUntilUnixSeconds then
      let leader := { leader with renewedUnixSeconds := now, leaseUntilUnixSeconds := leaseUntil }
      pure (some leader, { d with haLeader := some leader })
    else pure (none, d)

/-- The end of `tryAcquireLeadership`: the next token of the sequence, and the row of the leader with
it. Beyond the last integer SQLite computes with reals, which the program does not read. -/
def issueLeadership (now : ℕ) (d : Database) :
    Except CoordinationError (Option LeadershipLease × Database) := do
  rejectIf (i64Max ≤ d.nextToken) .fencingSequence
  rejectIf (d.nextToken = 0) .fencingTokenRequired
  let leaseUntil ← asI64 (saturatingAddU64 now c.leaderLeaseSeconds)
  let leader : LeadershipLease :=
    ⟨c.instanceId, c.incarnationId, d.nextToken, now, now, leaseUntil⟩
  pure (some leader, { d with nextToken := d.nextToken + 1, haLeader := some leader })

def tryAcquireLeadership (now : ℕ) (d : Database) :
    Except CoordinationError (Option LeadershipLease × Database) := do
  rejectIf (¬ sqliteMemberIsActive d c.instanceId c.incarnationId now) .memberRequired
  match d.haLeader with
  | none => c.issueLeadership now d
  | some current =>
    let currentMemberActive :=
      sqliteMemberIsActive d current.instanceId current.incarnationId now
    if currentMemberActive ∧ current.instanceId = c.instanceId
        ∧ current.incarnationId = c.incarnationId ∧ now < current.leaseUntilUnixSeconds then
      c.renewSqliteLeader current.fencingToken now d
    else if currentMemberActive ∧ now < current.leaseUntilUnixSeconds then pure (none, d)
    else c.issueLeadership now d

def renewLeadership (fencingToken now : ℕ) (d : Database) :
    Except CoordinationError (Option LeadershipLease × Database) :=
  if sqliteMemberIsActive d c.instanceId c.incarnationId now then
    c.renewSqliteLeader fencingToken now d
  else pure (none, d)

/-- The check that guards a write: the caller is the leader under this token, and its leases run. -/
def assertSqliteTransactionFence (fencingToken now : ℕ) (d : Database) :
    Except CoordinationError Unit := do
  rejectIf (fencingToken = 0) .fencingTokenRequired
  let fencingToken ← asI64 fencingToken
  rejectIf (¬ d.haLeader.any fun leader =>
    leader.instanceId == c.instanceId && leader.incarnationId == c.incarnationId
      && leader.fencingToken == fencingToken && decide (now < leader.leaseUntilUnixSeconds)
      && sqliteMemberIsActive d leader.instanceId leader.incarnationId now) .staleFence

section Specs

variable {c} {d d' : Database} {now : ℕ} {fencingToken : ℕ} {lease : Option LeadershipLease}
  {member : HaMember}

theorem sqliteMemberIsActive_iff {instanceId incarnationId : String} :
    sqliteMemberIsActive d instanceId incarnationId now = true ↔
      ∃ member, d.haMembers.get? instanceId = some member ∧
        member.incarnationId = incarnationId ∧ now < member.leaseUntilUnixSeconds := by
  rw [sqliteMemberIsActive, Option.any_eq_true]
  simp

theorem memberRow_eq_ok {current : Option HaMember} (h : c.memberRow now current = .ok member) :
    member.incarnationId = c.incarnationId ∧ ∀ row, current = some row →
      row.incarnationId = c.incarnationId ∨ row.leaseUntilUnixSeconds ≤ now := by
  unfold memberRow at h
  split at h
  · rename_i row
    split_ifs at h with hsame hactive
    · obtain ⟨leaseUntil, -, rfl⟩ := map_eq_ok.mp h
      refine ⟨hsame, fun other hother => .inl ?_⟩
      rw [← Option.some.inj hother]
      exact hsame
    · obtain ⟨leaseUntil, -, rfl⟩ := map_eq_ok.mp h
      refine ⟨rfl, fun other hother => .inr ?_⟩
      rw [← Option.some.inj hother]
      exact not_lt.mp hactive
  · obtain ⟨leaseUntil, -, rfl⟩ := map_eq_ok.mp h
    exact ⟨rfl, fun other hother => by cases hother⟩

theorem registerOrRenewMember_eq_ok (h : c.registerOrRenewMember now d = .ok (member, d')) :
    d' = { d with haMembers := d.haMembers.insert c.instanceId member } ∧
      member.incarnationId = c.incarnationId ∧
      ∀ row, d.haMembers.get? c.instanceId = some row →
        row.incarnationId = c.incarnationId ∨ row.leaseUntilUnixSeconds ≤ now := by
  obtain ⟨row, hrow, hwritten⟩ := bind_eq_ok.mp h
  cases hwritten
  exact ⟨rfl, memberRow_eq_ok hrow⟩

/-- The row of a leader after a renewal. -/
def renewedLeader (leader : LeadershipLease) (now leaseUntil : ℕ) : LeadershipLease :=
  { leader with renewedUnixSeconds := now, leaseUntilUnixSeconds := leaseUntil }

theorem renewSqliteLeader_eq_ok (h : c.renewSqliteLeader fencingToken now d = .ok (lease, d')) :
    lease = none ∧ d' = d ∨ ∃ leader leaseUntil, d.haLeader = some leader ∧
      leader.instanceId = c.instanceId ∧ leader.incarnationId = c.incarnationId ∧
      leader.fencingToken = fencingToken ∧ now < leader.leaseUntilUnixSeconds ∧
      lease = some (renewedLeader leader now leaseUntil) ∧ d' = { d with haLeader := lease } := by
  obtain ⟨leaseUntil, -, hrest⟩ := bind_eq_ok.mp h
  obtain ⟨token, htoken, hrow⟩ := bind_eq_ok.mp hrest
  obtain ⟨-, rfl⟩ := asI64_eq_ok.mp htoken
  split at hrow
  · cases hrow
    exact .inl ⟨rfl, rfl⟩
  · rename_i leader hleader
    split_ifs at hrow with hown
    · cases hrow
      exact .inr ⟨leader, leaseUntil, hleader, hown.1, hown.2.1, hown.2.2.1, hown.2.2.2, rfl, rfl⟩
    · cases hrow
      exact .inl ⟨rfl, rfl⟩

/-- The row of a new leader. -/
def issuedLeader (c : HaCoordinator) (token now leaseUntil : ℕ) : LeadershipLease :=
  ⟨c.instanceId, c.incarnationId, token, now, now, leaseUntil⟩

theorem issueLeadership_eq_ok (h : c.issueLeadership now d = .ok (lease, d')) :
    ∃ leaseUntil, lease = some (issuedLeader c d.nextToken now leaseUntil) ∧
      d' = { d with nextToken := d.nextToken + 1, haLeader := lease } := by
  rw [issueLeadership, bind_unit_eq_ok, bind_unit_eq_ok] at h
  obtain ⟨leaseUntil, -, h⟩ := bind_eq_ok.mp h.2.2
  cases h
  exact ⟨leaseUntil, rfl, rfl⟩

/-- Whether the leases of a leader, as a leader and as a member, run. -/
def LeaderActive (d : Database) (now : ℕ) (leader : LeadershipLease) : Prop :=
  sqliteMemberIsActive d leader.instanceId leader.incarnationId now = true ∧
    now < leader.leaseUntilUnixSeconds

theorem tryAcquireLeadership_eq_ok (h : c.tryAcquireLeadership now d = .ok (lease, d')) :
    lease = none ∧ d' = d ∨
      (∃ leader leaseUntil, d.haLeader = some leader ∧ leader.instanceId = c.instanceId ∧
        leader.incarnationId = c.incarnationId ∧ LeaderActive d now leader ∧
        lease = some (renewedLeader leader now leaseUntil) ∧ d' = { d with haLeader := lease }) ∨
      (∀ leader, d.haLeader = some leader → ¬ LeaderActive d now leader) ∧
        ∃ leaseUntil, lease = some (issuedLeader c d.nextToken now leaseUntil) ∧
          d' = { d with nextToken := d.nextToken + 1, haLeader := lease } := by
  rw [tryAcquireLeadership, bind_unit_eq_ok] at h
  obtain ⟨-, h⟩ := h
  split at h
  · rename_i hnone
    refine .inr (.inr ⟨fun leader hleader => ?_, issueLeadership_eq_ok h⟩)
    rw [hnone] at hleader
    cases hleader
  · rename_i current hcurrent
    dsimp only at h
    split_ifs at h with hown hactive
    · obtain hkept | ⟨leader, leaseUntil, hleader, hinstance, hincarnation, -, hruns, hrest⟩ :=
        renewSqliteLeader_eq_ok h
      · exact .inl hkept
      · cases hcurrent.symm.trans hleader
        exact .inr (.inl ⟨current, leaseUntil, hleader, hinstance, hincarnation,
          ⟨hown.1, hruns⟩, hrest⟩)
    · cases h
      exact .inl ⟨rfl, rfl⟩
    · refine .inr (.inr ⟨fun leader hleader hruns => hactive ?_, issueLeadership_eq_ok h⟩)
      cases hcurrent.symm.trans hleader
      exact hruns

theorem renewLeadership_eq_ok (h : c.renewLeadership fencingToken now d = .ok (lease, d')) :
    lease = none ∧ d' = d ∨ ∃ leader leaseUntil, d.haLeader = some leader ∧
      leader.instanceId = c.instanceId ∧ leader.incarnationId = c.incarnationId ∧
      leader.fencingToken = fencingToken ∧ now < leader.leaseUntilUnixSeconds ∧
      lease = some (renewedLeader leader now leaseUntil) ∧ d' = { d with haLeader := lease } := by
  rw [renewLeadership] at h
  split_ifs at h
  · exact renewSqliteLeader_eq_ok h
  · cases h
    exact .inl ⟨rfl, rfl⟩

theorem assertSqliteTransactionFence_eq_ok :
    c.assertSqliteTransactionFence fencingToken now d = .ok () ↔
      fencingToken ≠ 0 ∧ fencingToken ≤ i64Max ∧ ∃ leader, d.haLeader = some leader ∧
        leader.instanceId = c.instanceId ∧ leader.incarnationId = c.incarnationId ∧
        leader.fencingToken = fencingToken ∧ LeaderActive d now leader := by
  rw [assertSqliteTransactionFence, bind_unit_eq_ok, rejectIf_eq_ok]
  refine and_congr_right fun _ => ?_
  rw [bind_eq_ok]
  constructor
  · rintro ⟨token, htoken, h⟩
    obtain ⟨hle, rfl⟩ := asI64_eq_ok.mp htoken
    rw [rejectIf_eq_ok, not_not, Option.any_eq_true] at h
    obtain ⟨leader, hleader, h⟩ := h
    simp only [Bool.and_eq_true, beq_iff_eq, decide_eq_true_eq] at h
    exact ⟨hle, leader, hleader, h.1.1.1.1, h.1.1.1.2, h.1.1.2, h.2, h.1.2⟩
  · rintro ⟨hle, leader, hleader, hinstance, hincarnation, htoken, hactive, hruns⟩
    refine ⟨fencingToken, asI64_eq_ok.mpr ⟨hle, rfl⟩, ?_⟩
    rw [rejectIf_eq_ok, not_not, Option.any_eq_true]
    refine ⟨leader, hleader, ?_⟩
    simp only [Bool.and_eq_true, beq_iff_eq, decide_eq_true_eq]
    exact ⟨⟨⟨⟨hinstance, hincarnation⟩, htoken⟩, hruns⟩, hactive⟩

end Specs

end HaCoordinator

end LinkLake.Coordination
