import LinkLake.Foundations.Fencing
import LinkLake.Server.Coordination.PublicPortOwnership

/-!
# The coordination tables as a system

Any number of instances, and several incarnations of each, work on one database. Their calls are
transactions, so that a run of the system is one call after the other, in any order.

The sequence of tokens and the row of the leader are an `Authority`, and the tables of leases are
tables of `Lease`s (`leadershipMove`, `jobMove`, `portMove`).
-/

namespace LinkLake.Coordination

open Fallible FiniteMap

/-! ## Calls -/

inductive Operation
  /-- A new process opens the database. -/
  | reopen
  | recoverStaleSqliteLeases
  | registerOrRenewMember (c : HaCoordinator)
  | pruneExpiredMembers
  | tryAcquireLeadership (c : HaCoordinator)
  | renewLeadership (c : HaCoordinator) (fencingToken : ℕ)
  | assertFence (c : HaCoordinator) (fencingToken : ℕ)
  | acquireJob (j : JobLeases) (jobKey jobKind : String) (fencingToken : ℕ)
  | renewJob (j : JobLeases) (jobKey jobKind : String) (leaseId : Uuid) (fencingToken : ℕ)
  | completeJob (j : JobLeases) (jobKey jobKind : String) (leaseId : Uuid) (fencingToken : ℕ)
  | failJob (j : JobLeases) (jobKey jobKind : String) (leaseId : Uuid) (fencingToken : ℕ)
      (errorCode : String)
  | assertJob (j : JobLeases) (lease : JobLease)
  | acquirePort (o : PublicPortOwnership) (protocol : PublicPortProtocol) (publicPort : UInt16)
      (policyId : Uuid) (fencingToken : ℕ)
  | renewPort (o : PublicPortOwnership) (protocol : PublicPortProtocol) (publicPort : UInt16)
      (policyId leaseId : Uuid) (fencingToken : ℕ)
  | releasePort (o : PublicPortOwnership) (protocol : PublicPortProtocol) (publicPort : UInt16)
      (policyId leaseId : Uuid) (fencingToken : ℕ)
  | pruneExpiredPorts

/-- One call: an operation, the reading of the database's clock, and the identifier of a lease that
the call may draw. -/
structure Call where
  operation : Operation
  now : Fin (2 ^ 63)
  leaseId : Uuid

inductive Reply
  | done
  | recovered (recovered : Bool)
  | member (member : HaMember)
  | pruned (count : ℕ)
  | leadership (lease : Option LeadershipLease)
  | job (lease : Option JobLease)
  | finished (finished : Bool)
  | port (lease : Option PublicPortLease)
  | released (released : Bool)
  deriving DecidableEq, Repr

def call (d : Database) (c : Call) : Except CoordinationError (Reply × Database) :=
  match c.operation with
  | .reopen => .ok (.done, { d with recoveryClaimed := false })
  | .recoverStaleSqliteLeases =>
    let r := HaCoordinator.recoverStaleSqliteLeases d
    .ok (.recovered r.1, r.2)
  | .registerOrRenewMember h =>
    (h.registerOrRenewMember c.now d).map fun r => (.member r.1, r.2)
  | .pruneExpiredMembers =>
    let r := HaCoordinator.pruneExpiredMembers c.now d
    .ok (.pruned r.1, r.2)
  | .tryAcquireLeadership h => (h.tryAcquireLeadership c.now d).map fun r => (.leadership r.1, r.2)
  | .renewLeadership h fencingToken =>
    (h.renewLeadership fencingToken c.now d).map fun r => (.leadership r.1, r.2)
  | .assertFence h fencingToken =>
    (h.assertSqliteTransactionFence fencingToken c.now d).map fun _ => (.done, d)
  | .acquireJob j jobKey jobKind fencingToken =>
    (j.acquire jobKey jobKind fencingToken c.now c.leaseId d).map fun r => (.job r.1, r.2)
  | .renewJob j jobKey jobKind leaseId fencingToken =>
    (j.renew jobKey jobKind leaseId fencingToken c.now d).map fun r => (.job r.1, r.2)
  | .completeJob j jobKey jobKind leaseId fencingToken =>
    (j.complete jobKey jobKind leaseId fencingToken c.now d).map fun r => (.finished r.1, r.2)
  | .failJob j jobKey jobKind leaseId fencingToken errorCode =>
    (j.fail jobKey jobKind leaseId fencingToken errorCode c.now d).map fun r =>
      (.finished r.1, r.2)
  | .assertJob j lease => (j.assertSqliteTransactionLease lease c.now d).map fun _ => (.done, d)
  | .acquirePort o protocol publicPort policyId fencingToken =>
    (o.acquire protocol publicPort policyId fencingToken c.now c.leaseId d).map fun r =>
      (.port r.1, r.2)
  | .renewPort o protocol publicPort policyId leaseId fencingToken =>
    (o.renew protocol publicPort policyId leaseId fencingToken c.now d).map fun r =>
      (.port r.1, r.2)
  | .releasePort o protocol publicPort policyId leaseId fencingToken =>
    (o.release protocol publicPort policyId leaseId fencingToken c.now d).map fun r =>
      (.released r.1, r.2)
  | .pruneExpiredPorts =>
    let r := pruneExpiredPorts c.now d
    .ok (.pruned r.1, r.2)

/-- A successful call with its reply. A call that fails is rolled back and is no step. -/
def Step (d : Database) (e : Call × Reply) (d' : Database) : Prop := call d e.1 = .ok (e.2, d')

/-! ## What a call has acquired or used -/

/-- The leadership that a call has acquired, or renewed on the way. -/
def acquiredLeadership (e : Call × Reply) : Option LeadershipLease :=
  match e.1.operation, e.2 with
  | .tryAcquireLeadership _, .leadership lease => lease
  | _, _ => none

def jobKey? (jobKey : String) : Option String :=
  (normalizeIdentifier jobKey "job key" maxJobKeyBytes).toOption

/-- The job that a call has acquired, and the identifier of its lease. -/
def acquiredJob (e : Call × Reply) : Option (String × Uuid) :=
  match e.1.operation, e.2 with
  | .acquireJob _ jobKey _ _, .job (some _) => (jobKey? jobKey).map (·, e.1.leaseId)
  | _, _ => none

/-- The lease under which a call has renewed or finished a job, or written for it. -/
def usedJob (e : Call × Reply) : Option (String × Uuid) :=
  match e.1.operation, e.2 with
  | .renewJob _ jobKey _ leaseId _, .job (some _) => (jobKey? jobKey).map (·, leaseId)
  | .completeJob _ jobKey _ leaseId _, .finished true => (jobKey? jobKey).map (·, leaseId)
  | .failJob _ jobKey _ leaseId _ _, .finished true => (jobKey? jobKey).map (·, leaseId)
  | .assertJob _ lease, .done => some (lease.jobKey, lease.leaseId)
  | _, _ => none

/-- The port that a call has acquired, and the identifier of its lease. -/
def acquiredPort (e : Call × Reply) : Option ((PublicPortProtocol × UInt16) × Uuid) :=
  match e.1.operation, e.2 with
  | .acquirePort _ protocol publicPort _ _, .port (some _) =>
    some ((protocol, publicPort), e.1.leaseId)
  | _, _ => none

/-- The lease under which a call has renewed or released a port. -/
def usedPort (e : Call × Reply) : Option ((PublicPortProtocol × UInt16) × Uuid) :=
  match e.1.operation, e.2 with
  | .renewPort _ protocol publicPort _ leaseId _, .port (some _) =>
    some ((protocol, publicPort), leaseId)
  | .releasePort _ protocol publicPort _ leaseId _, .released true =>
    some ((protocol, publicPort), leaseId)
  | _, _ => none

/-! ## Grants and leases -/

/-- An incarnation of an instance. -/
abbrev Incarnation := String × String

def HaCoordinator.incarnation (c : HaCoordinator) : Incarnation := (c.instanceId, c.incarnationId)

def LeadershipLease.grant (l : LeadershipLease) : Grant Incarnation :=
  ⟨(l.instanceId, l.incarnationId), l.fencingToken⟩

def authority (d : Database) : Authority Incarnation := ⟨d.haLeader.map (·.grant), d.nextToken⟩

def JobLease.toLease (row : JobLease) : Lease Uuid Incarnation :=
  ⟨row.leaseId, (row.ownerInstanceId, row.ownerIncarnationId), row.fencingToken⟩

def jobTable (rows : FiniteMap String JobLease) (key : String) : Option (Lease Uuid Incarnation) :=
  (rows.get? key).map (·.toLease)

def PublicPortLease.toLease (row : PublicPortLease) : Lease Uuid Incarnation :=
  ⟨row.leaseId, (row.ownerInstanceId, row.ownerIncarnationId), row.fencingToken⟩

def portTable (rows : FiniteMap (PublicPortProtocol × UInt16) PublicPortLease)
    (key : PublicPortProtocol × UInt16) : Option (Lease Uuid Incarnation) :=
  (rows.get? key).map (·.toLease)

/-! ## What a call does -/

/-- A call that acquires nothing. -/
structure Quiet (e : Call × Reply) : Prop where
  leadership : acquiredLeadership e = none
  job : acquiredJob e = none
  port : acquiredPort e = none

/-- What a successful call does to the database. -/
inductive Effect (d : Database) (e : Call × Reply) : Database → Prop
  | kept (h : Quiet e) : Effect d e d
  | reopened (h : Quiet e) : Effect d e { d with recoveryClaimed := false }
  | recovered (h : Quiet e) : Effect d e (HaCoordinator.recoverStaleSqliteLeases d).2
  /-- A member whose lease runs keeps its row. -/
  | members {rows : FiniteMap String HaMember} (h : Quiet e)
      (hkept : ∀ instanceId row, d.haMembers.get? instanceId = some row →
        e.1.now < row.leaseUntilUnixSeconds → ∃ row', rows.get? instanceId = some row' ∧
          row'.incarnationId = row.incarnationId) :
      Effect d e { d with haMembers := rows }
  | renewedLeader {leader : LeadershipLease} {leaseUntil : ℕ} (hleader : d.haLeader = some leader)
      (hlead : acquiredLeadership e = none ∨ acquiredLeadership e =
        some (HaCoordinator.renewedLeader leader e.1.now leaseUntil))
      (hjob : acquiredJob e = none) (hport : acquiredPort e = none) :
      Effect d e { d with haLeader := some (HaCoordinator.renewedLeader leader e.1.now leaseUntil) }
  /-- A new leader takes the place of one whose leases have run out. -/
  | issuedLeader {c : HaCoordinator} {leaseUntil : ℕ}
      (hfree : ∀ leader, d.haLeader = some leader → ¬ HaCoordinator.LeaderActive d e.1.now leader)
      (hlead : acquiredLeadership e =
        some (HaCoordinator.issuedLeader c d.nextToken e.1.now leaseUntil))
      (hjob : acquiredJob e = none) (hport : acquiredPort e = none) :
      Effect d e { d with
        nextToken := d.nextToken + 1
        haLeader := some (HaCoordinator.issuedLeader c d.nextToken e.1.now leaseUntil) }
  | jobs {rows : FiniteMap String JobLease} (hlead : acquiredLeadership e = none)
      (hport : acquiredPort e = none)
      (hmove : LeaseMove (authority d) (jobTable d.jobLeases) (jobTable rows) (acquiredJob e)) :
      Effect d e { d with jobLeases := rows }
  | ports {rows : FiniteMap (PublicPortProtocol × UInt16) PublicPortLease}
      (hlead : acquiredLeadership e = none) (hjob : acquiredJob e = none)
      (hmove : LeaseMove (authority d) (portTable d.publicPortOwnership) (portTable rows)
        (acquiredPort e)) :
      Effect d e { d with publicPortOwnership := rows }

section Tables

variable {d : Database} {c : HaCoordinator} {fencingToken now : ℕ}

theorem grant_of_fence (h : c.assertSqliteTransactionFence fencingToken now d = .ok ()) :
    (authority d).grant = some ⟨c.incarnation, fencingToken⟩ := by
  obtain ⟨-, -, leader, hleader, hinstance, hincarnation, htoken, -⟩ :=
    HaCoordinator.assertSqliteTransactionFence_eq_ok.mp h
  simp [authority, hleader, LeadershipLease.grant, HaCoordinator.incarnation, hinstance,
    hincarnation, htoken]

theorem jobTable_insert (rows : FiniteMap String JobLease) (key j : String) (row : JobLease) :
    jobTable (rows.insert key row) j = if j = key then some row.toLease else jobTable rows j := by
  rw [jobTable, get?_insert]
  split <;> rfl

theorem portTable_insert (rows : FiniteMap (PublicPortProtocol × UInt16) PublicPortLease)
    (key j : PublicPortProtocol × UInt16) (row : PublicPortLease) :
    portTable (rows.insert key row) j =
      if j = key then some row.toLease else portTable rows j := by
  rw [portTable, get?_insert]
  split <;> rfl

theorem eq_of_replaced {κ : Type} [DecidableEq κ] {t t' : κ → Option (Lease Uuid Incarnation)}
    {key : κ} {l : Lease Uuid Incarnation} (hl : t key = some l)
    (ht' : ∀ j, t' j = if j = key then some l else t j) :
    ∀ j l', t' j = some l' → t j = some l' := by
  intro j l' hj
  rw [ht'] at hj
  split at hj
  · rename_i hkey
    rw [hkey, hl]
    exact hj
  · exact hj

end Tables

section Effects

variable {d d' : Database} {now : Fin (2 ^ 63)} {leaseId : Uuid} {c : HaCoordinator}
  {fencingToken : ℕ} {id policyId : Uuid} {j : JobLeases} {jobKey jobKind : String}
  {o : PublicPortOwnership} {protocol : PublicPortProtocol} {publicPort : UInt16}
  {lease : Option PublicPortLease} {e : Call × Reply}

theorem registerOrRenewMember_effect {member : HaMember}
    (h : c.registerOrRenewMember now d = .ok (member, d')) :
    Effect d (⟨.registerOrRenewMember c, now, leaseId⟩, .member member) d' := by
  obtain ⟨rfl, hmember, hfree⟩ := HaCoordinator.registerOrRenewMember_eq_ok h
  refine .members ⟨rfl, rfl, rfl⟩ fun instanceId row hget hruns => ?_
  rw [get?_insert]
  split
  · rename_i hsame
    subst hsame
    obtain hown | hexpired := hfree row hget
    · exact ⟨member, rfl, hmember.trans hown.symm⟩
    · exact absurd hexpired (not_le.mpr hruns)
  · exact ⟨row, hget, rfl⟩

theorem tryAcquireLeadership_effect {lease : Option LeadershipLease}
    (h : c.tryAcquireLeadership now d = .ok (lease, d')) :
    Effect d (⟨.tryAcquireLeadership c, now, leaseId⟩, .leadership lease) d' := by
  obtain ⟨rfl, rfl⟩ | ⟨leader, leaseUntil, hleader, -, -, -, rfl, rfl⟩ |
    ⟨hfree, leaseUntil, rfl, rfl⟩ := HaCoordinator.tryAcquireLeadership_eq_ok h
  · exact .kept ⟨rfl, rfl, rfl⟩
  · exact .renewedLeader hleader (.inr rfl) rfl rfl
  · exact .issuedLeader hfree rfl rfl rfl

theorem renewLeadership_effect
    {lease : Option LeadershipLease} (h : c.renewLeadership fencingToken now d = .ok (lease, d')) :
    Effect d (⟨.renewLeadership c fencingToken, now, leaseId⟩, .leadership lease) d' := by
  obtain ⟨rfl, rfl⟩ | ⟨leader, leaseUntil, hleader, -, -, -, -, rfl, rfl⟩ :=
    HaCoordinator.renewLeadership_eq_ok h
  · exact .kept ⟨rfl, rfl, rfl⟩
  · exact .renewedLeader hleader (.inl rfl) rfl rfl

theorem acquireJob_effect {lease : Option JobLease}
    (h : j.acquire jobKey jobKind fencingToken now leaseId d = .ok (lease, d')) :
    Effect d (⟨.acquireJob j jobKey jobKind fencingToken, now, leaseId⟩, .job lease) d' := by
  obtain ⟨key, hkey, hfence, ⟨rfl, rfl⟩ |
    ⟨row, rfl, hid, hinstance, hincarnation, htoken, rfl⟩⟩ := JobLeases.acquire_eq_ok h
  · exact .kept ⟨rfl, rfl, rfl⟩
  · have hacquired : acquiredJob (⟨.acquireJob j jobKey jobKind fencingToken, now, leaseId⟩,
        .job (some row)) = some (key, leaseId) := by
      simp only [acquiredJob, jobKey?]
      rw [show normalizeIdentifier jobKey "job key" maxJobKeyBytes = .ok key from hkey]
      rfl
    refine .jobs rfl rfl ?_
    rw [hacquired]
    refine .acquire (grant_of_fence hfence) ?_ fun i hi => ?_
    · rw [jobTable_insert, if_pos rfl, JobLease.toLease, hid, hinstance, hincarnation, htoken]
      rfl
    · rw [jobTable_insert, if_neg hi]

theorem jobTable_same {rows : FiniteMap String JobLease} {key : String} {row row' : JobLease}
    (hget : rows.get? key = some row) (hsame : JobLeases.SameLease row row') :
    ∀ i l, jobTable (rows.insert key row') i = some l → jobTable rows i = some l := by
  have hrow : jobTable rows key = some row'.toLease := by
    rw [jobTable, hget]
    simp [JobLease.toLease, hsame.leaseId, hsame.ownerInstanceId, hsame.ownerIncarnationId,
      hsame.fencingToken]
  exact eq_of_replaced hrow fun i => jobTable_insert rows key i row'

theorem renewJob_effect {lease : Option JobLease}
    (h : j.renew jobKey jobKind id fencingToken now d = .ok (lease, d')) :
    Effect d (⟨.renewJob j jobKey jobKind id fencingToken, now, leaseId⟩, .job lease) d' := by
  obtain ⟨key, -, ⟨rfl, rfl⟩ | ⟨row, row', rfl, hget, -, hsame, rfl⟩⟩ := JobLeases.renew_eq_ok h
  · exact .kept ⟨rfl, rfl, rfl⟩
  · exact .jobs rfl rfl (.shrink (jobTable_same hget hsame))

theorem finish_effect {now : ℕ} {errorCode : Option String} {finished : Bool} (hquiet : Quiet e)
    (h : j.finish jobKey jobKind id fencingToken errorCode now d = .ok (finished, d')) :
    Effect d e d' := by
  obtain ⟨key, -, ⟨rfl, rfl⟩ | ⟨row, row', rfl, hget, -, hsame, rfl⟩⟩ := JobLeases.finish_eq_ok h
  · exact .kept hquiet
  · refine .jobs hquiet.leadership hquiet.port ?_
    rw [hquiet.job]
    exact .shrink (jobTable_same hget hsame)

theorem acquirePort_effect
    (h : o.acquire protocol publicPort policyId fencingToken now leaseId d = .ok (lease, d')) :
    Effect d (⟨.acquirePort o protocol publicPort policyId fencingToken, now, leaseId⟩,
      .port lease) d' := by
  obtain ⟨hfence, ⟨rfl, rfl⟩ | ⟨row, rfl, hid, hinstance, hincarnation, htoken, rfl⟩⟩ :=
    PublicPortOwnership.acquire_eq_ok h
  · exact .kept ⟨rfl, rfl, rfl⟩
  · refine .ports rfl rfl (.acquire (grant_of_fence hfence) ?_ fun i hi => ?_)
    · rw [portTable_insert, if_pos rfl, PublicPortLease.toLease, hid, hinstance, hincarnation,
        htoken]
      rfl
    · rw [portTable_insert, if_neg hi]

theorem renewPort_effect
    (h : o.renew protocol publicPort policyId id fencingToken now d = .ok (lease, d')) :
    Effect d (⟨.renewPort o protocol publicPort policyId id fencingToken, now, leaseId⟩,
      .port lease) d' := by
  obtain ⟨rfl, rfl⟩ | ⟨row, leaseUntil, hget, -, rfl, rfl⟩ := PublicPortOwnership.renew_eq_ok h
  · exact .kept ⟨rfl, rfl, rfl⟩
  · have hrow : portTable d.publicPortOwnership (protocol, publicPort) = some row.toLease := by
      rw [portTable, hget]
      rfl
    exact .ports rfl rfl (.shrink (eq_of_replaced hrow fun i =>
      portTable_insert d.publicPortOwnership (protocol, publicPort) i _))

theorem portTable_mono {rows rows' : FiniteMap (PublicPortProtocol × UInt16) PublicPortLease}
    (h : ∀ i row, rows'.get? i = some row → rows.get? i = some row) (i : _)
    (l : Lease Uuid Incarnation) (hl : portTable rows' i = some l) : portTable rows i = some l := by
  obtain ⟨row, hget, rfl⟩ := Option.map_eq_some_iff.mp hl
  rw [portTable, h i row hget]
  rfl

theorem releasePort_effect {released : Bool}
    (h : o.release protocol publicPort policyId id fencingToken now d = .ok (released, d')) :
    Effect d (⟨.releasePort o protocol publicPort policyId id fencingToken, now, leaseId⟩,
      .released released) d' := by
  obtain ⟨rfl, rfl⟩ | ⟨rfl, row, -, -, rfl⟩ := PublicPortOwnership.release_eq_ok h
  · exact .kept ⟨rfl, rfl, rfl⟩
  · exact .ports rfl rfl (.shrink (portTable_mono fun i row => get?_of_erase))

/-- **What a successful call does.** -/
theorem step_effect (h : Step d e d') : Effect d e d' := by
  obtain ⟨⟨operation, now, leaseId⟩, reply⟩ := e
  rw [Step] at h
  cases operation <;> dsimp only [call] at h
  case reopen =>
    cases h
    exact .reopened ⟨rfl, rfl, rfl⟩
  case recoverStaleSqliteLeases =>
    cases h
    exact .recovered ⟨rfl, rfl, rfl⟩
  case pruneExpiredMembers =>
    cases h
    exact .members ⟨rfl, rfl, rfl⟩ fun instanceId row hget hruns =>
      ⟨row, get?_pruneExpired_of_lt hget hruns, rfl⟩
  case pruneExpiredPorts =>
    cases h
    exact .ports rfl rfl (.shrink (portTable_mono fun _ _ => get?_of_get?_pruneExpired))
  -- every other call is a fallible operation
  all_goals
    obtain ⟨result, hcall, heq⟩ := map_eq_ok.mp h
    cases heq
  case registerOrRenewMember => exact registerOrRenewMember_effect hcall
  case tryAcquireLeadership => exact tryAcquireLeadership_effect hcall
  case renewLeadership => exact renewLeadership_effect hcall
  case assertFence => exact .kept ⟨rfl, rfl, rfl⟩
  case acquireJob => exact acquireJob_effect hcall
  case renewJob => exact renewJob_effect hcall
  case completeJob => exact finish_effect ⟨rfl, rfl, rfl⟩ hcall
  case failJob =>
    obtain ⟨code, hfinish⟩ := JobLeases.fail_eq_ok hcall
    exact finish_effect ⟨rfl, rfl, rfl⟩ hfinish
  case assertJob => exact .kept ⟨rfl, rfl, rfl⟩
  case acquirePort => exact acquirePort_effect hcall
  case renewPort => exact renewPort_effect hcall
  case releasePort => exact releasePort_effect hcall

end Effects

section Moves

variable {d d' : Database} {e : Call × Reply}

theorem recover_eq (d : Database) :
    (HaCoordinator.recoverStaleSqliteLeases d).2 = d ∨
      authority (HaCoordinator.recoverStaleSqliteLeases d).2 = authority d ∧
      jobTable (HaCoordinator.recoverStaleSqliteLeases d).2.jobLeases = jobTable d.jobLeases ∧
      portTable (HaCoordinator.recoverStaleSqliteLeases d).2.publicPortOwnership =
        portTable d.publicPortOwnership := by
  rw [HaCoordinator.recoverStaleSqliteLeases]
  split
  · refine .inr ⟨?_, ?_, ?_⟩
    · simp only [authority, Option.map_map]
      rfl
    · funext key
      simp only [jobTable, get?_map, Option.map_map]
      rfl
    · funext key
      simp only [portTable, get?_map, Option.map_map]
      rfl
  · exact .inl rfl

variable (h : Step d e d')
include h

theorem leadershipMove : Authority.Move (authority d) (authority d') := by
  cases step_effect h with
  | recovered _ =>
    obtain heq | ⟨heq, -, -⟩ := recover_eq d <;> rw [heq] <;> exact .keep _
  | renewedLeader hleader _ _ _ =>
    rw [show authority { d with haLeader := some (HaCoordinator.renewedLeader _ _ _) } =
      authority d by simp only [authority, hleader]; rfl]
    exact .keep _
  | issuedLeader _ _ _ _ => exact .issue (authority d) _
  | _ => exact .keep _

theorem jobMove :
    LeaseMove (authority d) (jobTable d.jobLeases) (jobTable d'.jobLeases) (acquiredJob e) := by
  cases step_effect h with
  | recovered hquiet =>
    rw [hquiet.job]
    obtain heq | ⟨-, heq, -⟩ := recover_eq d <;> rw [heq] <;> exact .shrink fun _ _ => id
  | jobs _ _ hmove => exact hmove
  | kept hquiet => rw [hquiet.job]; exact .shrink fun _ _ => id
  | reopened hquiet => rw [hquiet.job]; exact .shrink fun _ _ => id
  | members hquiet => rw [hquiet.job]; exact .shrink fun _ _ => id
  | renewedLeader _ _ hjob _ => rw [hjob]; exact .shrink fun _ _ => id
  | issuedLeader _ _ hjob _ => rw [hjob]; exact .shrink fun _ _ => id
  | ports _ hjob _ => rw [hjob]; exact .shrink fun _ _ => id

theorem portMove :
    LeaseMove (authority d) (portTable d.publicPortOwnership) (portTable d'.publicPortOwnership)
      (acquiredPort e) := by
  cases step_effect h with
  | recovered hquiet =>
    rw [hquiet.port]
    obtain heq | ⟨-, -, heq⟩ := recover_eq d <;> rw [heq] <;> exact .shrink fun _ _ => id
  | ports _ _ hmove => exact hmove
  | kept hquiet => rw [hquiet.port]; exact .shrink fun _ _ => id
  | reopened hquiet => rw [hquiet.port]; exact .shrink fun _ _ => id
  | members hquiet => rw [hquiet.port]; exact .shrink fun _ _ => id
  | renewedLeader _ _ _ hport => rw [hport]; exact .shrink fun _ _ => id
  | issuedLeader _ _ _ hport => rw [hport]; exact .shrink fun _ _ => id
  | jobs _ hport _ => rw [hport]; exact .shrink fun _ _ => id

end Moves

end LinkLake.Coordination
