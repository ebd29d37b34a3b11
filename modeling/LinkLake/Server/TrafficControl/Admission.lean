import LinkLake.Core.Socks5Fragment
import LinkLake.Foundations.AddressPrefix
import LinkLake.Foundations.SlidingWindow
import LinkLake.Foundations.Splitting
import LinkLake.Server.TrafficControl.UsageTables

/-!
# Admission of connections

The settings of a policy and the decision on a new connection (`traffic_control.rs`, SQLite): source
networks, schedule, daily quota and the number of connections per minute.

The settings and the usage are tables of a database. The rate window is not: it is a queue of
admission times per policy in memory, which is lost when the process ends and is thrown away whenever
the settings of the policy are written. A clock reading and a limit are natural numbers; the addition
in the window saturates as that of a `u64` does.

The text form of addresses is the standard library's, and a parameter here.
-/

namespace LinkLake.TrafficControl

open Fallible Splitting Text
open Coordination (saturatingAddU64)
open Socks5 (IpAddr)

/-! ## Settings -/

structure UpsertTrafficControl where
  allowedCidrs : List String
  deniedCidrs : List String
  maxConnectionsPerMinute : Option ℕ
  dailyQuotaBytes : Option ℕ
  activeWeekdaysUtc : List ℕ
  startMinuteUtc : Option ℕ
  endMinuteUtc : Option ℕ
  enabled : Bool
  deriving DecidableEq, Repr

structure TrafficControlRecord where
  kind : TrafficPolicyKind
  policyId : Uuid
  settings : UpsertTrafficControl
  usedTodayBytes : ℕ
  updatedUnixSeconds : ℕ
  deriving DecidableEq, Repr

inductive TrafficDecision
  | allowed
  | sourceDenied
  | outsideSchedule
  | rateLimited
  | quotaExceeded
  deriving DecidableEq, Repr

/-- Why a call fails. -/
inductive TrafficControlError
  | tooManyCidrs
  | invalidAddress
  | invalidNumber
  | invalidCidrPrefix
  | invalidRate
  | invalidQuota
  | invalidWeekday
  | incompleteSchedule
  | invalidMinute
  | usage (error : UsageError)
  | notReadable
  deriving DecidableEq, Repr

/-! ## Networks -/

/-- The text form of addresses. -/
abbrev IpText := TextForm IpAddr

structure Cidr where
  address : IpAddr
  prefixLength : ℕ
  deriving DecidableEq, Repr

/-- The number of bits of an address. -/
def addressBits : IpAddr → ℕ
  | .v4 _ => 32
  | .v6 _ => 128

section

variable (ip : IpText)

def Cidr.normalized (cidr : Cidr) : String :=
  String.ofList (ip.format cidr.address ++ '/' :: Nat.toDigits 10 cidr.prefixLength)

def parseCidr (value : String) : Except TrafficControlError Cidr :=
  match splitOnce '/' (trimChars value.toList) with
  | some (address, number) => do
    let address ← okOr (ip.parse address) .invalidAddress
    let length ← okOr (parseUnsigned 8 number) .invalidNumber
    rejectIf (addressBits address < length) .invalidCidrPrefix
    return ⟨address, length⟩
  | none => do
    let address ← okOr (ip.parse (trimChars value.toList)) .invalidAddress
    return ⟨address, addressBits address⟩

def cidrMatches (value : String) (source : IpAddr) : Bool :=
  match parseCidr ip value with
  | .error _ => false
  | .ok cidr =>
    match cidr.address, source with
    | .v4 network, .v4 source =>
      network &&& networkMask 32 cidr.prefixLength == source &&& networkMask 32 cidr.prefixLength
    | .v6 network, .v6 source =>
      network &&& networkMask 128 cidr.prefixLength == source &&& networkMask 128 cidr.prefixLength
    | _, _ => false

def normalizeCidrs (values : List String) : Except TrafficControlError (List String) :=
  values.mapM fun value => (parseCidr ip value).map (Cidr.normalized ip)

/-! ## Checks of the settings -/

def validate (request : UpsertTrafficControl) : Except TrafficControlError Unit := do
  rejectIf (¬ (request.allowedCidrs.length ≤ 64 ∧ request.deniedCidrs.length ≤ 64)) .tooManyCidrs
  let _ ← normalizeCidrs ip request.allowedCidrs
  let _ ← normalizeCidrs ip request.deniedCidrs
  rejectIf (∃ value ∈ request.maxConnectionsPerMinute, ¬ (1 ≤ value ∧ value ≤ 1000000)) .invalidRate
  rejectIf (∃ value ∈ request.dailyQuotaBytes, value < 1024) .invalidQuota
  rejectIf (∃ value ∈ request.activeWeekdaysUtc, 6 < value) .invalidWeekday
  rejectIf (request.startMinuteUtc.isSome ≠ request.endMinuteUtc.isSome) .incompleteSchedule
  rejectIf ((∃ value ∈ request.startMinuteUtc, 1440 ≤ value) ∨
    ∃ value ∈ request.endMinuteUtc, 1440 ≤ value) .invalidMinute

def normalizedSettings (request : UpsertTrafficControl) :
    Except TrafficControlError UpsertTrafficControl := do
  validate ip request
  let allowedCidrs ← normalizeCidrs ip request.allowedCidrs
  let deniedCidrs ← normalizeCidrs ip request.deniedCidrs
  return { request with
    allowedCidrs, deniedCidrs
    activeWeekdaysUtc := (request.activeWeekdaysUtc.mergeSort (· ≤ ·)).dedup }

end

/-- The schedule. A window that ends before it starts passes midnight. -/
def scheduleAllows (settings : UpsertTrafficControl) (now : ℕ) : Bool :=
  let day := now / 86400
  let weekday := (day + 3) % 7 -- the first of January 1970 was a Thursday, and Monday is 0
  if !settings.activeWeekdaysUtc.isEmpty && !settings.activeWeekdaysUtc.contains weekday then false
  else
    match settings.startMinuteUtc, settings.endMinuteUtc with
    | some start, some stop =>
      let minute := now % 86400 / 60
      if start = stop then true
      else if start < stop then start ≤ minute && minute < stop
      else start ≤ minute || minute < stop
    | _, _ => true

/-! ## The catalog -/

/-- A row of `traffic_controls`. -/
structure ControlRow where
  settings : UpsertTrafficControl
  updatedUnixSeconds : ℕ
  deriving DecidableEq, Repr

structure TrafficControlCatalog where
  controls : FiniteMap Policy ControlRow
  tables : UsageTables
  connectionWindows : FiniteMap Policy (List ℕ)

namespace TrafficControlCatalog

def get (catalog : TrafficControlCatalog) (kind : TrafficPolicyKind) (policyId : Uuid) (now : ℕ) :
    Except TrafficControlError (Option TrafficControlRecord) :=
  match catalog.controls.get? (kind, policyId) with
  | none => .ok none
  | some row =>
    match catalog.tables.usage kind policyId (utcDay now) with
    | .error error => .error (.usage error)
    | .ok used => .ok (some ⟨kind, policyId, row.settings, used, row.updatedUnixSeconds⟩)

/-- Does the policy turn the source away? -/
def deniesSource (ip : IpText) (settings : UpsertTrafficControl) (source : IpAddr) : Bool :=
  settings.deniedCidrs.any (cidrMatches ip · source) ||
    (!settings.allowedCidrs.isEmpty && !settings.allowedCidrs.any (cidrMatches ip · source))

/-- The queue without the times that the loop at its front takes out. -/
def expireFront (window : List ℕ) (now : ℕ) : List ℕ :=
  window.dropWhile fun timestamp => decide (saturatingAddU64 timestamp 60 ≤ now)

/-- The rate limit, on the queue of the policy. -/
def admission (catalog : TrafficControlCatalog) (policy : Policy) (limit now : ℕ) :
    TrafficDecision × TrafficControlCatalog :=
  let window := expireFront ((catalog.connectionWindows.get? policy).getD []) now
  if limit ≤ window.length then
    (.rateLimited,
      { catalog with connectionWindows := catalog.connectionWindows.insert policy window })
  else
    (.allowed,
      { catalog with
        connectionWindows := catalog.connectionWindows.insert policy (window ++ [now]) })

/-- May a connection from `source` be opened? -/
def authorize (ip : IpText) (catalog : TrafficControlCatalog) (kind : TrafficPolicyKind)
    (policyId : Uuid) (source : IpAddr) (now : ℕ) :
    Except TrafficControlError TrafficDecision × TrafficControlCatalog :=
  match catalog.get kind policyId now with
  | .error error => (.error error, catalog)
  | .ok none => (.ok .allowed, catalog)
  | .ok (some record) =>
    if !record.settings.enabled then (.ok .allowed, catalog)
    else if deniesSource ip record.settings source then (.ok .sourceDenied, catalog)
    else if !scheduleAllows record.settings now then (.ok .outsideSchedule, catalog)
    else if record.settings.dailyQuotaBytes.any (· ≤ record.usedTodayBytes) then
      (.ok .quotaExceeded, catalog)
    else
      match record.settings.maxConnectionsPerMinute with
      | none => (.ok .allowed, catalog)
      | some limit =>
        let (decision, catalog) := catalog.admission (kind, policyId) limit now
        (.ok decision, catalog)

def upsert (ip : IpText) (catalog : TrafficControlCatalog) (kind : TrafficPolicyKind)
    (policyId : Uuid) (request : UpsertTrafficControl) (now : ℕ) :
    Except TrafficControlError TrafficControlRecord × TrafficControlCatalog :=
  match normalizedSettings ip request with
  | .error error => (.error error, catalog)
  | .ok settings =>
    let catalog :=
      { catalog with
        controls := catalog.controls.insert (kind, policyId) ⟨settings, now⟩
        connectionWindows := catalog.connectionWindows.erase (kind, policyId) }
    (catalog.get kind policyId now >>= (okOr · .notReadable), catalog)

def delete (catalog : TrafficControlCatalog) (kind : TrafficPolicyKind) (policyId : Uuid) :
    Bool × TrafficControlCatalog :=
  ((catalog.controls.get? (kind, policyId)).isSome,
    { catalog with
      controls := catalog.controls.erase (kind, policyId)
      connectionWindows := catalog.connectionWindows.erase (kind, policyId) })

def resetRuntimeState (catalog : TrafficControlCatalog) : TrafficControlCatalog :=
  { catalog with connectionWindows := ∅ }

def recordUsageEvent (catalog : TrafficControlCatalog) (event : TrafficUsageEvent) (now : ℕ) :
    Except TrafficControlError Unit × TrafficControlCatalog :=
  match catalog.tables.recordUsageEvent event now with
  | .error error => (.error (.usage error), catalog)
  | .ok tables => (.ok (), { catalog with tables })

end TrafficControlCatalog

end LinkLake.TrafficControl
