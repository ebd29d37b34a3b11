import LinkLake.Core.Uuid
import LinkLake.Foundations.Fallible
import LinkLake.Foundations.FiniteMap
import LinkLake.Foundations.Text

/-!
# The coordination tables

The tables by which the instances of a server coordinate (`ha_coordination.rs`, `job_leases.rs` and
`public_port_ownership.rs`), as SQLite stores them: the members, the leader and its fencing
sequence, and the leases on background jobs and public ports.

Numbers are `u64` in the program and `INTEGER` in the tables, a signed word; what does not fit is
refused (`asI64`). A clock reading is a signed word to begin with.
-/

namespace LinkLake.Coordination

open Fallible

/-! ## Errors -/

/-- Why an operation fails. -/
inductive CoordinationError
  | anotherIncarnation
  | memberRequired
  | fencingTokenRequired
  | fencingSequence
  | staleFence
  | integerRange
  | identifierRequired (label : String)
  | identifierLength (label : String) (maximum : ℕ)
  | identifierControl (label : String)
  | jobKind
  | jobNewerToken
  | jobTokenReused
  | staleJobLease
  | portRange
  | portNewerToken
  | portTokenReused
  deriving DecidableEq, Repr

def i64Max : ℕ := 2 ^ 63 - 1

def asI64 (value : ℕ) : Except CoordinationError ℕ := do
  rejectIf (i64Max < value) .integerRange
  pure value

theorem asI64_eq_ok {value n : ℕ} : asI64 value = .ok n ↔ value ≤ i64Max ∧ n = value := by
  rw [asI64, bind_unit_eq_ok, rejectIf_eq_ok, pure_eq_ok, not_lt]
  exact and_congr_right fun _ => eq_comm

def saturatingAddU64 (a b : ℕ) : ℕ := min (a + b) (2 ^ 64 - 1)

/-! ## Rows -/

structure HaMember where
  instanceId : String
  incarnationId : String
  startedUnixSeconds : ℕ
  lastSeenUnixSeconds : ℕ
  leaseUntilUnixSeconds : ℕ
  metadataJson : String
  deriving DecidableEq, Repr

structure LeadershipLease where
  instanceId : String
  incarnationId : String
  fencingToken : ℕ
  acquiredUnixSeconds : ℕ
  renewedUnixSeconds : ℕ
  leaseUntilUnixSeconds : ℕ
  deriving DecidableEq, Repr

structure JobLease where
  jobKey : String
  jobKind : String
  leaseId : Uuid
  ownerInstanceId : String
  ownerIncarnationId : String
  fencingToken : ℕ
  acquiredUnixSeconds : ℕ
  renewedUnixSeconds : ℕ
  leaseUntilUnixSeconds : ℕ
  lastCompletedUnixSeconds : Option ℕ
  lastErrorCode : Option String
  deriving DecidableEq, Repr

inductive PublicPortProtocol
  | tcp
  | udp
  deriving DecidableEq, Repr

def PublicPortProtocol.asStr : PublicPortProtocol → String
  | .tcp => "tcp"
  | .udp => "udp"

structure PublicPortLease where
  protocol : PublicPortProtocol
  publicPort : UInt16
  leaseId : Uuid
  ownerInstanceId : String
  ownerIncarnationId : String
  fencingToken : ℕ
  policyId : Uuid
  acquiredUnixSeconds : ℕ
  renewedUnixSeconds : ℕ
  leaseUntilUnixSeconds : ℕ
  deriving DecidableEq, Repr

/-! ## The database -/

/-- The tables, and the flag of the process by which the recovery at its start is made once. -/
structure Database where
  persistent : Bool
  recoveryClaimed : Bool
  haMembers : FiniteMap String HaMember
  nextToken : ℕ
  haLeader : Option LeadershipLease
  jobLeases : FiniteMap String JobLease
  publicPortOwnership : FiniteMap (PublicPortProtocol × UInt16) PublicPortLease

/-- The tables as they are created. -/
def Database.empty (persistent : Bool) : Database where
  persistent := persistent
  recoveryClaimed := false
  haMembers := ∅
  nextToken := 1
  haLeader := none
  jobLeases := ∅
  publicPortOwnership := ∅

/-! ## Pruning -/

def expiredLeaseBatchSize : ℕ := 128

section Prune

variable {κ ν : Type} [DecidableEq κ]

/-- The keys of the first expired rows, in the order of their leases, then of their keys. -/
def expiredKeys (le : κ → κ → Bool) (leaseUntil : ν → ℕ) (now : ℕ) (m : FiniteMap κ ν) : List κ :=
  (((m.toList.filter fun row => leaseUntil row.2 ≤ now).insertionSort fun a b =>
    leaseUntil a.2 < leaseUntil b.2 ∨ leaseUntil a.2 = leaseUntil b.2 ∧ le a.1 b.1).take
      expiredLeaseBatchSize).map Prod.fst

/-- Delete a batch of expired rows. -/
def pruneExpiredLeaseBatch (le : κ → κ → Bool) (leaseUntil : ν → ℕ) (now : ℕ)
    (m : FiniteMap κ ν) : ℕ × FiniteMap κ ν :=
  ((expiredKeys le leaseUntil now m).length, (expiredKeys le leaseUntil now m).foldl .erase m)

variable {le : κ → κ → Bool} {leaseUntil : ν → ℕ} {now : ℕ} {m : FiniteMap κ ν} {v : ν} {j : κ}

theorem get?_pruneExpired (j : κ) :
    (pruneExpiredLeaseBatch le leaseUntil now m).2.get? j =
      if j ∈ expiredKeys le leaseUntil now m then none else m.get? j :=
  FiniteMap.get?_foldl_erase _ m j

theorem expired_of_mem (hj : j ∈ expiredKeys le leaseUntil now m)
    (hget : m.get? j = some v) : leaseUntil v ≤ now := by
  obtain ⟨row, hrow, rfl⟩ := List.mem_map.mp hj
  have hmem := (List.perm_insertionSort _ _).mem_iff.mp (List.mem_of_mem_take hrow)
  obtain ⟨hin, hexpired⟩ := List.mem_filter.mp hmem
  obtain rfl : row.2 = v := Option.some.inj ((FiniteMap.mem_toList.mp hin).symm.trans hget)
  simpa using hexpired

theorem get?_of_get?_pruneExpired
    (h : (pruneExpiredLeaseBatch le leaseUntil now m).2.get? j = some v) : m.get? j = some v := by
  rw [get?_pruneExpired] at h
  split at h
  · cases h
  · exact h

theorem get?_pruneExpired_of_lt (hget : m.get? j = some v) (hlease : now < leaseUntil v) :
    (pruneExpiredLeaseBatch le leaseUntil now m).2.get? j = some v := by
  rw [get?_pruneExpired, if_neg fun hj => ?_, hget]
  exact absurd (expired_of_mem hj hget) (not_le.mpr hlease)

end Prune

end LinkLake.Coordination
