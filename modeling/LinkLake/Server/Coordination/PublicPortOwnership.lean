import LinkLake.Server.Coordination.JobLeases

/-!
# Ownership of public ports

The leases by which one instance owns a public TCP or UDP port (`public_port_ownership.rs`), on
SQLite.
-/

namespace LinkLake.Coordination

open Fallible

def validatePortAndFence (publicPort : UInt16) (fencingToken : ℕ) :
    Except CoordinationError Unit := do
  rejectIf (publicPort = 0) .portRange
  rejectIf (fencingToken = 0) .fencingTokenRequired

namespace PublicPortLease

/-- Whether a row is the lease with this identity, held by this coordinator for this policy. -/
def ownedBy (current : PublicPortLease) (c : HaCoordinator) (policyId leaseId : Uuid)
    (fencingToken : ℕ) : Bool :=
  current.leaseId == leaseId && current.ownerInstanceId == c.instanceId
    && current.ownerIncarnationId == c.incarnationId && current.fencingToken == fencingToken
    && current.policyId == policyId

def claimMode (current : Option PublicPortLease) (c : HaCoordinator) (fencingToken now : ℕ) :
    Except CoordinationError ClaimMode :=
  match current with
  | none => pure .fresh
  | some current => do
    rejectIf (fencingToken < current.fencingToken) .portNewerToken
    if current.fencingToken < fencingToken then pure .fresh
    else do
      rejectIf (¬ (current.ownerInstanceId = c.instanceId
        ∧ current.ownerIncarnationId = c.incarnationId)) .portTokenReused
      if current.leaseUntilUnixSeconds ≤ now then pure .fresh else pure .conflict

end PublicPortLease

structure PublicPortOwnership where
  coordinator : HaCoordinator
  leaseSeconds : ℕ
  lease : 2 ≤ leaseSeconds ∧ leaseSeconds ≤ 5 * 60

namespace PublicPortOwnership

variable (o : PublicPortOwnership)

def acquire (protocol : PublicPortProtocol) (publicPort : UInt16) (policyId : Uuid)
    (fencingToken now : ℕ) (leaseId : Uuid) (d : Database) :
    Except CoordinationError (Option PublicPortLease × Database) := do
  validatePortAndFence publicPort fencingToken
  o.coordinator.assertSqliteTransactionFence fencingToken now d
  let current := d.publicPortOwnership.get? (protocol, publicPort)
  match ← PublicPortLease.claimMode current o.coordinator fencingToken now with
  | .conflict => pure (none, d)
  | .fresh => do
    let fencingToken ← asI64 fencingToken
    let leaseUntil ← asI64 (saturatingAddU64 now o.leaseSeconds)
    let lease : PublicPortLease :=
      ⟨protocol, publicPort, leaseId, o.coordinator.instanceId, o.coordinator.incarnationId,
        fencingToken, policyId, now, now, leaseUntil⟩
    pure (some lease, { d with
      publicPortOwnership := d.publicPortOwnership.insert (protocol, publicPort) lease })

def renew (protocol : PublicPortProtocol) (publicPort : UInt16) (policyId leaseId : Uuid)
    (fencingToken now : ℕ) (d : Database) :
    Except CoordinationError (Option PublicPortLease × Database) := do
  validatePortAndFence publicPort fencingToken
  o.coordinator.assertSqliteTransactionFence fencingToken now d
  let leaseUntil ← asI64 (saturatingAddU64 now o.leaseSeconds)
  match d.publicPortOwnership.get? (protocol, publicPort) with
  | none => pure (none, d)
  | some current =>
    if current.ownedBy o.coordinator policyId leaseId fencingToken
        ∧ now < current.leaseUntilUnixSeconds then
      let lease := { current with renewedUnixSeconds := now, leaseUntilUnixSeconds := leaseUntil }
      pure (some lease, { d with
        publicPortOwnership := d.publicPortOwnership.insert (protocol, publicPort) lease })
    else pure (none, d)

/-- The owner gives a port back, also after its lease has run out. -/
def release (protocol : PublicPortProtocol) (publicPort : UInt16) (policyId leaseId : Uuid)
    (fencingToken now : ℕ) (d : Database) : Except CoordinationError (Bool × Database) := do
  validatePortAndFence publicPort fencingToken
  o.coordinator.assertSqliteTransactionFence fencingToken now d
  match d.publicPortOwnership.get? (protocol, publicPort) with
  | none => pure (false, d)
  | some current =>
    if current.ownedBy o.coordinator policyId leaseId fencingToken then
      pure (true, { d with
        publicPortOwnership := d.publicPortOwnership.erase (protocol, publicPort) })
    else pure (false, d)

section Specs

variable {o} {d d' : Database} {now fencingToken : ℕ} {protocol : PublicPortProtocol}
  {publicPort : UInt16} {policyId leaseId : Uuid} {lease : Option PublicPortLease}

theorem acquire_eq_ok
    (h : o.acquire protocol publicPort policyId fencingToken now leaseId d = .ok (lease, d')) :
    o.coordinator.assertSqliteTransactionFence fencingToken now d = .ok () ∧
      (lease = none ∧ d' = d ∨ ∃ row, lease = some row ∧ row.leaseId = leaseId ∧
        row.ownerInstanceId = o.coordinator.instanceId ∧
        row.ownerIncarnationId = o.coordinator.incarnationId ∧ row.fencingToken = fencingToken ∧
        d' = { d with
          publicPortOwnership := d.publicPortOwnership.insert (protocol, publicPort) row }) := by
  obtain ⟨-, h⟩ := bind_unit_eq_ok.mp h
  obtain ⟨hfence, h⟩ := bind_unit_eq_ok.mp h
  obtain ⟨mode, -, h⟩ := bind_eq_ok.mp h
  refine ⟨hfence, ?_⟩
  cases mode with
  | conflict =>
    cases h
    exact .inl ⟨rfl, rfl⟩
  | fresh =>
    obtain ⟨token, htoken, h⟩ := bind_eq_ok.mp h
    obtain ⟨leaseUntil, -, h⟩ := bind_eq_ok.mp h
    cases h
    exact .inr ⟨_, rfl, rfl, rfl, rfl, (asI64_eq_ok.mp htoken).2, rfl⟩

theorem acquire_eq_none :
    o.acquire protocol publicPort policyId fencingToken now leaseId d = .ok (none, d') ↔
      d' = d ∧ publicPort ≠ 0 ∧
        o.coordinator.assertSqliteTransactionFence fencingToken now d = .ok () ∧
        PublicPortLease.claimMode (d.publicPortOwnership.get? (protocol, publicPort)) o.coordinator
          fencingToken now = .ok .conflict := by
  constructor
  · intro h
    obtain ⟨hvalid, h⟩ := bind_unit_eq_ok.mp h
    obtain ⟨hfence, h⟩ := bind_unit_eq_ok.mp h
    obtain ⟨mode, hmode, h⟩ := bind_eq_ok.mp h
    obtain ⟨hport, -⟩ := bind_unit_eq_ok.mp hvalid
    cases mode with
    | conflict =>
      cases h
      exact ⟨rfl, rejectIf_eq_ok.mp hport, hfence, hmode⟩
    | fresh =>
      obtain ⟨token, -, h⟩ := bind_eq_ok.mp h
      obtain ⟨leaseUntil, -, h⟩ := bind_eq_ok.mp h
      cases pure_eq_ok.mp h
  · rintro ⟨rfl, hport, hfence, hmode⟩
    have hpositive := (HaCoordinator.assertSqliteTransactionFence_eq_ok.mp hfence).1
    rw [acquire, validatePortAndFence, rejectIf_of_not hport, ok_bind, rejectIf_of_not hpositive,
      ok_bind, hfence, ok_bind]
    dsimp only
    rw [hmode]
    rfl

theorem renew_eq_ok
    (h : o.renew protocol publicPort policyId leaseId fencingToken now d = .ok (lease, d')) :
    lease = none ∧ d' = d ∨ ∃ row leaseUntil,
      d.publicPortOwnership.get? (protocol, publicPort) = some row ∧ row.leaseId = leaseId ∧
      lease = some { row with
        renewedUnixSeconds := now, leaseUntilUnixSeconds := leaseUntil } ∧
      d' = { d with
        publicPortOwnership := d.publicPortOwnership.insert (protocol, publicPort) { row with
          renewedUnixSeconds := now, leaseUntilUnixSeconds := leaseUntil } } := by
  obtain ⟨-, h⟩ := bind_unit_eq_ok.mp h
  obtain ⟨-, h⟩ := bind_unit_eq_ok.mp h
  obtain ⟨leaseUntil, -, h⟩ := bind_eq_ok.mp h
  split at h
  · cases h
    exact .inl ⟨rfl, rfl⟩
  · rename_i row hget
    split_ifs at h with hheld
    · simp only [PublicPortLease.ownedBy, Bool.and_eq_true, beq_iff_eq] at hheld
      cases h
      exact .inr ⟨row, leaseUntil, hget, hheld.1.1.1.1.1, rfl, rfl⟩
    · cases h
      exact .inl ⟨rfl, rfl⟩

theorem release_eq_ok {released : Bool}
    (h : o.release protocol publicPort policyId leaseId fencingToken now d = .ok (released, d')) :
    released = false ∧ d' = d ∨ released = true ∧ ∃ row,
      d.publicPortOwnership.get? (protocol, publicPort) = some row ∧ row.leaseId = leaseId ∧
      d' = { d with
        publicPortOwnership := d.publicPortOwnership.erase (protocol, publicPort) } := by
  obtain ⟨-, h⟩ := bind_unit_eq_ok.mp h
  obtain ⟨-, h⟩ := bind_unit_eq_ok.mp h
  split at h
  · cases h
    exact .inl ⟨rfl, rfl⟩
  · rename_i row hget
    split_ifs at h with hheld
    · simp only [PublicPortLease.ownedBy, Bool.and_eq_true, beq_iff_eq] at hheld
      cases h
      exact .inr ⟨rfl, row, hget, hheld.1.1.1.1, rfl⟩
    · cases h
      exact .inl ⟨rfl, rfl⟩

end Specs

end PublicPortOwnership

/-- The order of the rows of ports with equal leases: the protocol as a text, then the port. -/
def portLe (a b : PublicPortProtocol × UInt16) : Bool :=
  decide (a.1.asStr < b.1.asStr) || (a.1 == b.1 && decide (a.2 ≤ b.2))

def pruneExpiredPorts (now : ℕ) (d : Database) : ℕ × Database :=
  let pruned := pruneExpiredLeaseBatch portLe PublicPortLease.leaseUntilUnixSeconds now
    d.publicPortOwnership
  (pruned.1, { d with publicPortOwnership := pruned.2 })

end LinkLake.Coordination
