import LinkLake.Server.Coordination.Tables

/-!
# The usage tables

How many bytes a policy has carried on each UTC day (`traffic_control.rs`, SQLite). Usage arrives as
events with an identifier of their own; `traffic_usage_events` remembers every event that was
recorded, so that an event that arrives again is not counted again, and `traffic_daily_usage` holds
the totals.

A total is a `u64`. Below `2 ^ 63` it is stored as an integer, above as its eight big-endian bytes.
-/

namespace LinkLake.TrafficControl

open Fallible BigEndian
open Coordination (saturatingAddU64)

/-! ## Events -/

inductive TrafficPolicyKind
  | tcp
  | udp
  | http
  | sni
  | secret
  | socks5
  | httpProxy
  | portGroup
  deriving DecidableEq, Repr

/-- A policy is known by its kind and its identifier. -/
abbrev Policy := TrafficPolicyKind × Uuid

structure TrafficUsageEvent where
  eventId : Uuid
  kind : TrafficPolicyKind
  policyId : Uuid
  bytes : ℕ
  deriving DecidableEq, Repr

/-- The day of a clock reading. -/
def utcDay (now : ℕ) : ℕ := now / 86400

/-! ## Errors -/

/-- Why an event is not recorded. -/
inductive UsageError
  | nilEventId
  | noRows
  | identityMismatch
  | invalidQuery
  deriving DecidableEq, Repr

/-! ## Totals as SQLite values -/

/-- What a column can hold here. -/
inductive SqliteValue
  | integer (value : ℤ)
  | blob (bytes : List UInt8)
  deriving DecidableEq, Repr

/-- A `u64` as a column value. -/
def encodeSqliteU64 (value : ℕ) : SqliteValue :=
  if value < 2 ^ 63 then .integer value else .blob (beBytes 8 value)

/-- The `u64` of a column value. -/
def decodeSqliteU64 : SqliteValue → Except UsageError ℕ
  | .integer value => if 0 ≤ value then .ok value.toNat else .error .invalidQuery
  | .blob bytes => if bytes.length = 8 then .ok (ofBeBytes bytes) else .error .invalidQuery

/-! ## The tables -/

/-- A row of `traffic_usage_events`, under its `event_id`. -/
structure UsageEventRow where
  kind : TrafficPolicyKind
  policyId : Uuid
  bytes : ℕ
  utcDay : ℕ
  deriving DecidableEq, Repr

/-- The tables `traffic_usage_events` and `traffic_daily_usage`, by their primary keys. -/
structure UsageTables where
  events : FiniteMap Uuid UsageEventRow
  daily : FiniteMap (TrafficPolicyKind × Uuid × ℕ) SqliteValue

namespace UsageTables

/-- No usage. -/
def empty : UsageTables := ⟨∅, ∅⟩

/-- The total of a policy on a day. -/
def usage (tables : UsageTables) (kind : TrafficPolicyKind) (policyId : Uuid) (day : ℕ) :
    Except UsageError ℕ :=
  match tables.daily.get? (kind, policyId, day) with
  | none => .ok 0
  | some value => decodeSqliteU64 value

end UsageTables

/-- The row of an event. -/
def TrafficUsageEvent.row (event : TrafficUsageEvent) (day : ℕ) : UsageEventRow :=
  ⟨event.kind, event.policyId, event.bytes, day⟩

/-- A row and an event say the same. -/
def UsageEventRow.Matches (row : UsageEventRow) (event : TrafficUsageEvent) : Prop :=
  row.kind = event.kind ∧ row.policyId = event.policyId ∧ row.bytes = event.bytes

instance (row : UsageEventRow) (event : TrafficUsageEvent) : Decidable (row.Matches event) :=
  inferInstanceAs (Decidable (_ ∧ _))

namespace UsageTables

/-- Record an event, at most once. The result is what the transaction commits. -/
def recordUsageEvent (tables : UsageTables) (event : TrafficUsageEvent) (now : ℕ) :
    Except UsageError UsageTables := do
  rejectIf (event.eventId.isNil = true) .nilEventId
  let inserted := (tables.events.get? event.eventId).isNone
  let events :=
    if inserted then tables.events.insert event.eventId (event.row (utcDay now)) else tables.events
  let stored ← okOr (events.get? event.eventId) .noRows
  rejectIf (¬ stored.Matches event) .identityMismatch
  if inserted then
    let used ← tables.usage event.kind event.policyId (utcDay now)
    let total := saturatingAddU64 used event.bytes
    return ⟨events, tables.daily.insert (event.kind, event.policyId, utcDay now)
      (encodeSqliteU64 total)⟩
  else
    return ⟨events, tables.daily⟩

end UsageTables

end LinkLake.TrafficControl
