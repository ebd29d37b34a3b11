import LinkLake.Server.Coordination.HaCoordination

/-!
# Leases on background jobs

The ledger of the jobs that only one instance may run (`job_leases.rs`), on SQLite. Every operation
checks the fence of the leader in the transaction in which it writes.
-/

namespace LinkLake.Coordination

open Fallible

def maxJobKeyBytes : ℕ := 256

def maxJobKindBytes : ℕ := 64

def maxErrorCodeBytes : ℕ := 128

def normalizeIdentifier (value label : String) (maximum : ℕ) : Except CoordinationError String := do
  let value := Text.trim value
  rejectIf (value.isEmpty = true) (.identifierRequired label)
  rejectIf (maximum < value.utf8ByteSize) (.identifierLength label maximum)
  rejectIf (value.toList.any Text.isControl = true) (.identifierControl label)
  pure value

inductive ClaimMode
  | conflict
  | fresh
  deriving DecidableEq, Repr

namespace JobLease

/-- Whether a row is the lease with this identity, held by this coordinator, and runs. -/
def heldBy (current : JobLease) (c : HaCoordinator) (jobKind : String) (leaseId : Uuid)
    (fencingToken now : ℕ) : Bool :=
  current.jobKind == jobKind && current.leaseId == leaseId
    && current.ownerInstanceId == c.instanceId && current.ownerIncarnationId == c.incarnationId
    && current.fencingToken == fencingToken && decide (now < current.leaseUntilUnixSeconds)

/-- The row at the end of a job; without an error code the job is completed. -/
def finished (current : JobLease) (errorCode : Option String) (now : ℕ) : JobLease :=
  { current with
    renewedUnixSeconds := now
    leaseUntilUnixSeconds := now
    lastCompletedUnixSeconds :=
      if errorCode = none then some now else current.lastCompletedUnixSeconds
    lastErrorCode := errorCode }

def claimMode (current : Option JobLease) (c : HaCoordinator) (jobKind : String)
    (fencingToken now : ℕ) : Except CoordinationError ClaimMode :=
  match current with
  | none => pure .fresh
  | some current => do
    rejectIf (current.jobKind ≠ jobKind) .jobKind
    rejectIf (fencingToken < current.fencingToken) .jobNewerToken
    if current.fencingToken < fencingToken then pure .fresh
    else do
      rejectIf (¬ (current.ownerInstanceId = c.instanceId
        ∧ current.ownerIncarnationId = c.incarnationId)) .jobTokenReused
      if current.leaseUntilUnixSeconds ≤ now then pure .fresh else pure .conflict

end JobLease

structure JobLeases where
  coordinator : HaCoordinator
  leaseSeconds : ℕ
  lease : 2 ≤ leaseSeconds ∧ leaseSeconds ≤ 5 * 60

namespace JobLeases

variable (j : JobLeases)

/-- The check of a business transaction that it still runs under its lease. -/
def assertSqliteTransactionLease (lease : JobLease) (now : ℕ) (d : Database) :
    Except CoordinationError Unit := do
  j.coordinator.assertSqliteTransactionFence lease.fencingToken now d
  rejectIf (¬ (d.jobLeases.get? lease.jobKey).any fun current =>
    current.heldBy j.coordinator lease.jobKind lease.leaseId lease.fencingToken now) .staleJobLease

/-- The row of a fresh lease; what is known of the last completion stays. -/
def freshLease (current : Option JobLease) (jobKey jobKind : String) (leaseId : Uuid)
    (fencingToken now leaseUntil : ℕ) : JobLease where
  jobKey := jobKey
  jobKind := jobKind
  leaseId := leaseId
  ownerInstanceId := j.coordinator.instanceId
  ownerIncarnationId := j.coordinator.incarnationId
  fencingToken := fencingToken
  acquiredUnixSeconds := now
  renewedUnixSeconds := now
  leaseUntilUnixSeconds := leaseUntil
  lastCompletedUnixSeconds := current.bind (·.lastCompletedUnixSeconds)
  lastErrorCode := none

def acquire (jobKey jobKind : String) (fencingToken now : ℕ) (leaseId : Uuid) (d : Database) :
    Except CoordinationError (Option JobLease × Database) := do
  let jobKey ← normalizeIdentifier jobKey "job key" maxJobKeyBytes
  let jobKind ← normalizeIdentifier jobKind "job kind" maxJobKindBytes
  rejectIf (fencingToken = 0) .fencingTokenRequired
  j.coordinator.assertSqliteTransactionFence fencingToken now d
  let current := d.jobLeases.get? jobKey
  match ← JobLease.claimMode current j.coordinator jobKind fencingToken now with
  | .conflict => pure (none, d)
  | .fresh => do
    let fencingToken ← asI64 fencingToken
    let leaseUntil ← asI64 (saturatingAddU64 now j.leaseSeconds)
    let lease := j.freshLease current jobKey jobKind leaseId fencingToken now leaseUntil
    pure (some lease, { d with jobLeases := d.jobLeases.insert jobKey lease })

def renew (jobKey jobKind : String) (leaseId : Uuid) (fencingToken now : ℕ) (d : Database) :
    Except CoordinationError (Option JobLease × Database) := do
  let jobKey ← normalizeIdentifier jobKey "job key" maxJobKeyBytes
  let jobKind ← normalizeIdentifier jobKind "job kind" maxJobKindBytes
  rejectIf (fencingToken = 0) .fencingTokenRequired
  j.coordinator.assertSqliteTransactionFence fencingToken now d
  let leaseUntil ← asI64 (saturatingAddU64 now j.leaseSeconds)
  match d.jobLeases.get? jobKey with
  | none => pure (none, d)
  | some current =>
    if current.heldBy j.coordinator jobKind leaseId fencingToken now then
      let lease := { current with renewedUnixSeconds := now, leaseUntilUnixSeconds := leaseUntil }
      pure (some lease, { d with jobLeases := d.jobLeases.insert jobKey lease })
    else pure (none, d)

def finish (jobKey jobKind : String) (leaseId : Uuid) (fencingToken : ℕ)
    (errorCode : Option String) (now : ℕ) (d : Database) :
    Except CoordinationError (Bool × Database) := do
  let jobKey ← normalizeIdentifier jobKey "job key" maxJobKeyBytes
  let jobKind ← normalizeIdentifier jobKind "job kind" maxJobKindBytes
  rejectIf (fencingToken = 0) .fencingTokenRequired
  j.coordinator.assertSqliteTransactionFence fencingToken now d
  match d.jobLeases.get? jobKey with
  | none => pure (false, d)
  | some current =>
    if current.heldBy j.coordinator jobKind leaseId fencingToken now then
      pure (true, { d with
        jobLeases := d.jobLeases.insert jobKey (current.finished errorCode now) })
    else pure (false, d)

def complete (jobKey jobKind : String) (leaseId : Uuid) (fencingToken now : ℕ) (d : Database) :
    Except CoordinationError (Bool × Database) :=
  j.finish jobKey jobKind leaseId fencingToken none now d

def fail (jobKey jobKind : String) (leaseId : Uuid) (fencingToken : ℕ) (errorCode : String)
    (now : ℕ) (d : Database) : Except CoordinationError (Bool × Database) := do
  let errorCode ← normalizeIdentifier errorCode "job error code" maxErrorCodeBytes
  j.finish jobKey jobKind leaseId fencingToken (some errorCode) now d

section Specs

variable {j} {d d' : Database} {now fencingToken : ℕ} {jobKey jobKind : String} {leaseId : Uuid}
  {lease : Option JobLease} {finished : Bool}

/-- The key of a job, as the table has it. -/
def IsJobKey (jobKey key : String) : Prop :=
  normalizeIdentifier jobKey "job key" maxJobKeyBytes = .ok key

/-- A row with the identity of another one. -/
structure SameLease (row row' : JobLease) : Prop where
  leaseId : row'.leaseId = row.leaseId
  ownerInstanceId : row'.ownerInstanceId = row.ownerInstanceId
  ownerIncarnationId : row'.ownerIncarnationId = row.ownerIncarnationId
  fencingToken : row'.fencingToken = row.fencingToken

theorem acquire_eq_ok (h : j.acquire jobKey jobKind fencingToken now leaseId d = .ok (lease, d')) :
    ∃ key, IsJobKey jobKey key ∧
      j.coordinator.assertSqliteTransactionFence fencingToken now d = .ok () ∧
      (lease = none ∧ d' = d ∨ ∃ row, lease = some row ∧ row.leaseId = leaseId ∧
        row.ownerInstanceId = j.coordinator.instanceId ∧
        row.ownerIncarnationId = j.coordinator.incarnationId ∧ row.fencingToken = fencingToken ∧
        d' = { d with jobLeases := d.jobLeases.insert key row }) := by
  obtain ⟨key, hkey, h⟩ := bind_eq_ok.mp h
  obtain ⟨kind, -, h⟩ := bind_eq_ok.mp h
  obtain ⟨-, h⟩ := bind_unit_eq_ok.mp h
  obtain ⟨hfence, h⟩ := bind_unit_eq_ok.mp h
  obtain ⟨mode, -, h⟩ := bind_eq_ok.mp h
  refine ⟨key, hkey, hfence, ?_⟩
  cases mode with
  | conflict =>
    cases h
    exact .inl ⟨rfl, rfl⟩
  | fresh =>
    obtain ⟨token, htoken, h⟩ := bind_eq_ok.mp h
    obtain ⟨leaseUntil, -, h⟩ := bind_eq_ok.mp h
    cases h
    exact .inr ⟨_, rfl, rfl, rfl, rfl, (asI64_eq_ok.mp htoken).2, rfl⟩

theorem acquire_eq_none : j.acquire jobKey jobKind fencingToken now leaseId d = .ok (none, d') ↔
    d' = d ∧ j.coordinator.assertSqliteTransactionFence fencingToken now d = .ok () ∧
      ∃ key kind, IsJobKey jobKey key ∧
        normalizeIdentifier jobKind "job kind" maxJobKindBytes = .ok kind ∧
        JobLease.claimMode (d.jobLeases.get? key) j.coordinator kind fencingToken now =
          .ok .conflict := by
  constructor
  · intro h
    obtain ⟨key, hkey, h⟩ := bind_eq_ok.mp h
    obtain ⟨kind, hkind, h⟩ := bind_eq_ok.mp h
    obtain ⟨-, h⟩ := bind_unit_eq_ok.mp h
    obtain ⟨hfence, h⟩ := bind_unit_eq_ok.mp h
    obtain ⟨mode, hmode, h⟩ := bind_eq_ok.mp h
    cases mode with
    | conflict =>
      cases h
      exact ⟨rfl, hfence, key, kind, hkey, hkind, hmode⟩
    | fresh =>
      obtain ⟨token, -, h⟩ := bind_eq_ok.mp h
      obtain ⟨leaseUntil, -, h⟩ := bind_eq_ok.mp h
      cases pure_eq_ok.mp h
  · rintro ⟨rfl, hfence, key, kind, hkey, hkind, hmode⟩
    have hpositive := (HaCoordinator.assertSqliteTransactionFence_eq_ok.mp hfence).1
    rw [acquire, show normalizeIdentifier jobKey "job key" maxJobKeyBytes = .ok key from hkey,
      ok_bind, hkind, ok_bind, rejectIf_of_not hpositive, ok_bind, hfence, ok_bind]
    dsimp only
    rw [hmode]
    rfl

theorem renew_eq_ok (h : j.renew jobKey jobKind leaseId fencingToken now d = .ok (lease, d')) :
    ∃ key, IsJobKey jobKey key ∧ (lease = none ∧ d' = d ∨ ∃ row row', lease = some row' ∧
      d.jobLeases.get? key = some row ∧ row.leaseId = leaseId ∧ SameLease row row' ∧
      d' = { d with jobLeases := d.jobLeases.insert key row' }) := by
  obtain ⟨key, hkey, h⟩ := bind_eq_ok.mp h
  obtain ⟨kind, -, h⟩ := bind_eq_ok.mp h
  obtain ⟨-, h⟩ := bind_unit_eq_ok.mp h
  obtain ⟨-, h⟩ := bind_unit_eq_ok.mp h
  obtain ⟨leaseUntil, -, h⟩ := bind_eq_ok.mp h
  refine ⟨key, hkey, ?_⟩
  split at h
  · cases h
    exact .inl ⟨rfl, rfl⟩
  · rename_i row hget
    split_ifs at h with hheld
    · simp only [JobLease.heldBy, Bool.and_eq_true, beq_iff_eq] at hheld
      cases h
      exact .inr ⟨row, _, rfl, hget, hheld.1.1.1.1.2, ⟨rfl, rfl, rfl, rfl⟩, rfl⟩
    · cases h
      exact .inl ⟨rfl, rfl⟩

theorem finish_eq_ok {errorCode : Option String}
    (h : j.finish jobKey jobKind leaseId fencingToken errorCode now d = .ok (finished, d')) :
    ∃ key, IsJobKey jobKey key ∧ (finished = false ∧ d' = d ∨ ∃ row row', finished = true ∧
      d.jobLeases.get? key = some row ∧ row.leaseId = leaseId ∧ SameLease row row' ∧
      d' = { d with jobLeases := d.jobLeases.insert key row' }) := by
  obtain ⟨key, hkey, h⟩ := bind_eq_ok.mp h
  obtain ⟨kind, -, h⟩ := bind_eq_ok.mp h
  obtain ⟨-, h⟩ := bind_unit_eq_ok.mp h
  obtain ⟨-, h⟩ := bind_unit_eq_ok.mp h
  refine ⟨key, hkey, ?_⟩
  split at h
  · cases h
    exact .inl ⟨rfl, rfl⟩
  · rename_i row hget
    split_ifs at h with hheld
    · simp only [JobLease.heldBy, Bool.and_eq_true, beq_iff_eq] at hheld
      cases h
      exact .inr ⟨row, row.finished errorCode now, rfl, hget, hheld.1.1.1.1.2,
        ⟨rfl, rfl, rfl, rfl⟩, rfl⟩
    · cases h
      exact .inl ⟨rfl, rfl⟩

theorem fail_eq_ok {errorCode : String}
    (h : j.fail jobKey jobKind leaseId fencingToken errorCode now d = .ok (finished, d')) :
    ∃ code, j.finish jobKey jobKind leaseId fencingToken (some code) now d =
      .ok (finished, d') := by
  obtain ⟨code, -, h⟩ := bind_eq_ok.mp h
  exact ⟨code, h⟩

theorem assertSqliteTransactionLease_eq_ok {lease : JobLease}
    (h : j.assertSqliteTransactionLease lease now d = .ok ()) :
    ∃ row, d.jobLeases.get? lease.jobKey = some row ∧ row.leaseId = lease.leaseId := by
  obtain ⟨-, h⟩ := bind_unit_eq_ok.mp h
  rw [rejectIf_eq_ok, not_not, Option.any_eq_true] at h
  obtain ⟨row, hget, hheld⟩ := h
  simp only [JobLease.heldBy, Bool.and_eq_true, beq_iff_eq] at hheld
  exact ⟨row, hget, hheld.1.1.1.1.2⟩

end Specs

end JobLeases

end LinkLake.Coordination
