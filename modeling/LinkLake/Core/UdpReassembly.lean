import LinkLake.Core.UdpProtocol
import LinkLake.Foundations.FiniteMap
import LinkLake.Foundations.Fallible

/-!
# Reassembly of LLUD fragments

The bounded, expiring reassembler of UDP datagrams (`udp_reassembly.rs`). It keeps the datagrams
in progress (`partials`), the number of them per session, the bytes reserved for them, the keys of
recently delivered datagrams (`completed`) and the queue in which these were delivered
(`completedOrder`).

Instants and durations are numbers of nanoseconds. A `usize` counter is a natural number; where
the code would abort, the model returns a `Panic`: at an `expect`, an index out of bounds, a
subtraction below zero, and at the one addition that is not bounded by a number of live objects,
that of the reserved bytes.
-/

namespace LinkLake.Udp

open Fallible

/-- A point of the monotonic clock, in nanoseconds. -/
abbrev Instant := ℕ

/-- A length of time, in nanoseconds. -/
abbrev Duration := ℕ

def Duration.fromSecs (n : ℕ) : Duration := n * 1000000000

def Duration.fromMillis (n : ℕ) : Duration := n * 1000000

/-- The largest `usize`, on the 64-bit targets of the project. -/
def usizeMax : ℕ := 2 ^ 64 - 1

def saturatingAdd (a b : ℕ) : ℕ := min (a + b) usizeMax

def saturatingMul (a b : ℕ) : ℕ := min (a * b) usizeMax

def udpReassemblyTimeout : Duration := Duration.fromSecs 2

def defaultUdpReassemblyMemoryBytes : ℕ := 8 * 1024 * 1024

def defaultMaxIncompletePerSession : ℕ := 4

def defaultMaxIncompleteDatagrams : ℕ := 4096

def defaultMaxCompletedDatagrams : ℕ := 4096

def reassemblyCleanupInterval : Duration := Duration.fromMillis 100

structure UdpReassemblyConfig where
  timeout : Duration := udpReassemblyTimeout
  completedRetention : Duration := udpReassemblyTimeout
  maxBufferedBytes : ℕ := defaultUdpReassemblyMemoryBytes
  maxIncompletePerSession : ℕ := defaultMaxIncompletePerSession
  maxIncompleteDatagrams : ℕ := defaultMaxIncompleteDatagrams
  maxCompletedDatagrams : ℕ := defaultMaxCompletedDatagrams
  deriving DecidableEq, Repr

/-- What identifies a datagram across its fragments. -/
structure DatagramKey where
  direction : UdpDirection
  sessionId : Uuid
  datagramId : UInt64
  deriving DecidableEq, Repr

def UdpFragment.key (fragment : UdpFragment) : DatagramKey :=
  { direction := fragment.direction, sessionId := fragment.sessionId
    datagramId := fragment.datagramId }

/-- A datagram of which some fragments have arrived. -/
structure PartialDatagram where
  startedAt : Instant
  originalLength : ℕ
  fragmentCount : UInt16
  fragments : List (Option (List UInt8))
  receivedFragments : ℕ
  receivedBytes : ℕ
  deriving DecidableEq, Repr

inductive UdpReassemblyOutcome
  | pending
  | duplicate
  | complete (payload : List UInt8)
  deriving DecidableEq, Repr

structure UdpReassemblyExpiration where
  incompleteDatagrams : ℕ := 0
  bufferedBytes : ℕ := 0
  completedDatagrams : ℕ := 0
  deriving DecidableEq, Repr

inductive UdpReassemblyError
  | invalidFragment (error : UdpProtocolError)
  | invalidConfiguration
  | memoryLimit
  | incompleteDatagramLimit
  | sessionIncompleteLimit
  | metadataMismatch
  | conflictingFragment
  | declaredLengthExceeded
  | completedLengthMismatch
  deriving DecidableEq, Repr

/-- Where the code aborts. -/
inductive Panic
  | expectFailed (message : String)
  | indexOutOfBounds
  | subtractWithOverflow
  | addWithOverflow
  deriving DecidableEq, Repr

structure UdpReassembler where
  config : UdpReassemblyConfig
  partials : FiniteMap DatagramKey PartialDatagram
  incompleteBySession : FiniteMap Uuid ℕ
  completed : FiniteMap DatagramKey Instant
  completedOrder : List (DatagramKey × Instant)
  bufferedBytes : ℕ
  nextCleanupAt : Option Instant
  deriving DecidableEq

def elapsedAtLeast (now earlier : Instant) (duration : Duration) : Bool :=
  decide (duration ≤ now - earlier)

namespace UdpReassembler

def new (config : UdpReassemblyConfig) : Except UdpReassemblyError UdpReassembler :=
  if config.maxBufferedBytes = 0 ∨ config.maxIncompletePerSession = 0 ∨
      config.maxIncompleteDatagrams = 0 ∨ config.maxCompletedDatagrams = 0 then
    .error .invalidConfiguration
  else
    .ok { config, partials := ∅, incompleteBySession := ∅, completed := ∅, completedOrder := []
          bufferedBytes := 0, nextCleanupAt := none }

/-- Drop a datagram in progress and give its reservation back. -/
def removePartial (r : UdpReassembler) (key : DatagramKey) :
    Except Panic (Option PartialDatagram × UdpReassembler) :=
  match r.partials.get? key with
  | none => .ok (none, r)
  | some datagram =>
    let r := { r with
      partials := r.partials.erase key
      bufferedBytes := r.bufferedBytes - datagram.originalLength }
    match r.incompleteBySession.get? key.sessionId with
    | none => .ok (some datagram, r)
    | some count =>
      if count = 0 then .error .subtractWithOverflow
      else if count - 1 = 0 then
        .ok (some datagram,
          { r with incompleteBySession := r.incompleteBySession.erase key.sessionId })
      else
        .ok (some datagram,
          { r with incompleteBySession := r.incompleteBySession.insert key.sessionId (count - 1) })

/-- One pass of the loops that drop datagrams and count what they free. -/
def releasePartial (acc : UdpReassemblyExpiration × UdpReassembler) (key : DatagramKey) :
    Except Panic (UdpReassemblyExpiration × UdpReassembler) := do
  match ← acc.2.removePartial key with
  | (none, r) => return (acc.1, r)
  | (some datagram, r) =>
    return ({ acc.1 with
      incompleteDatagrams := acc.1.incompleteDatagrams + 1
      bufferedBytes := acc.1.bufferedBytes + datagram.originalLength }, r)

/-- The loop over the delivery queue in `expire`: drop stale entries, forget expired ones, stop at
the first live one. -/
def expireCompleted (now : Instant) (retention : Duration) :
    List (DatagramKey × Instant) → FiniteMap DatagramKey Instant → ℕ →
      List (DatagramKey × Instant) × FiniteMap DatagramKey Instant × ℕ
  | [], completed, count => ([], completed, count)
  | (key, completedAt) :: order, completed, count =>
    if completed.get? key = some completedAt then
      if elapsedAtLeast now completedAt retention then
        expireCompleted now retention order (completed.erase key) (count + 1)
      else ((key, completedAt) :: order, completed, count)
    else expireCompleted now retention order completed count

/-- Forget what has timed out, at most once per cleanup interval. -/
def expire (r : UdpReassembler) (now : Instant) :
    Except Panic (UdpReassemblyExpiration × UdpReassembler) :=
  if r.nextCleanupAt.any (fun deadline => decide (now < deadline)) then .ok ({}, r)
  else do
    let r := { r with nextCleanupAt := some (now + reassemblyCleanupInterval) }
    let expiredPartialKeys := r.partials.toList.filterMap fun entry =>
      if elapsedAtLeast now entry.2.startedAt r.config.timeout then some entry.1 else none
    let (expiration, r) ← expiredPartialKeys.foldlM releasePartial ({}, r)
    let (order, completed, count) :=
      expireCompleted now r.config.completedRetention r.completedOrder r.completed 0
    return ({ expiration with completedDatagrams := count },
      { r with completedOrder := order, completed := completed })

/-- Drop everything of a session that is being closed. -/
def discardSession (r : UdpReassembler) (sessionId : Uuid) :
    Except Panic (UdpReassemblyExpiration × UdpReassembler) := do
  let partialKeys := r.partials.keys.filter fun key => key.sessionId = sessionId
  let (expiration, r) ← partialKeys.foldlM releasePartial ({}, r)
  let completedKeys := r.completed.keys.filter fun key => key.sessionId = sessionId
  let completed := completedKeys.foldl (fun completed key => completed.erase key) r.completed
  return ({ expiration with completedDatagrams := completedKeys.length }, { r with completed })

/-- Reserve room for a new datagram. -/
def insertPartial (r : UdpReassembler) (key : DatagramKey) (fragment : UdpFragment)
    (now : Instant) : Except Panic (Except UdpReassemblyError UdpReassembler) :=
  let perSession := (r.incompleteBySession.get? fragment.sessionId).getD 0
  let reservedBytes := fragment.originalLength.toNat
  if r.partials.size ≥ r.config.maxIncompleteDatagrams then
    .ok (.error .incompleteDatagramLimit)
  else if perSession ≥ r.config.maxIncompletePerSession then .ok (.error .sessionIncompleteLimit)
  else if saturatingAdd r.bufferedBytes reservedBytes > r.config.maxBufferedBytes then
    .ok (.error .memoryLimit)
  else if r.bufferedBytes + reservedBytes > usizeMax then .error .addWithOverflow
  else
    .ok (.ok { r with
      partials := r.partials.insert key
        { startedAt := now
          originalLength := reservedBytes
          fragmentCount := fragment.fragmentCount
          fragments := List.replicate fragment.fragmentCount.toNat none
          receivedFragments := 0
          receivedBytes := 0 }
      bufferedBytes := r.bufferedBytes + reservedBytes
      incompleteBySession := r.incompleteBySession.insert fragment.sessionId (perSession + 1) })

/-- Forget the oldest delivered datagram that is still remembered. -/
def evictOldestCompleted :
    List (DatagramKey × Instant) → FiniteMap DatagramKey Instant →
      List (DatagramKey × Instant) × FiniteMap DatagramKey Instant
  | [], completed => ([], completed)
  | (key, completedAt) :: order, completed =>
    if completed.get? key = some completedAt then (order, completed.erase key)
    else evictOldestCompleted order completed

/-- Drop the queue entries that no longer speak of a remembered delivery. -/
def compactCompletedOrder (order : List (DatagramKey × Instant))
    (completed : FiniteMap DatagramKey Instant) : List (DatagramKey × Instant) :=
  order.filter fun entry => completed.get? entry.1 = some entry.2

/-- Remember a delivery, within the configured number of them. -/
def rememberCompleted (r : UdpReassembler) (key : DatagramKey) (now : Instant) : UdpReassembler :=
  let (order, completed) :=
    if r.completed.size ≥ r.config.maxCompletedDatagrams then
      evictOldestCompleted r.completedOrder r.completed
    else (r.completedOrder, r.completed)
  let completed := completed.insert key now
  let order := order ++ [(key, now)]
  let order :=
    if order.length > saturatingMul r.config.maxCompletedDatagrams 2 then
      compactCompletedOrder order completed
    else order
  { r with completedOrder := order, completed := completed }

/-- What offering a fragment to a datagram in progress does. -/
inductive SlotVerdict
  | failure (error : UdpReassemblyError)
  | duplicate
  | filled (datagram : PartialDatagram)
  deriving DecidableEq, Repr

/-- Check a fragment against a datagram in progress and put it into its slot. -/
def offer (datagram : PartialDatagram) (fragment : UdpFragment) : Except Panic SlotVerdict :=
  let index := fragment.fragmentIndex.toNat
  if datagram.originalLength ≠ fragment.originalLength.toNat ∨
      datagram.fragmentCount ≠ fragment.fragmentCount then .ok (.failure .metadataMismatch)
  else
    match datagram.fragments[index]? with
    | none => .error .indexOutOfBounds
    | some (some existing) =>
      if existing = fragment.payload then .ok .duplicate else .ok (.failure .conflictingFragment)
    | some none =>
      if datagram.receivedBytes + fragment.payload.length > datagram.originalLength then
        .ok (.failure .declaredLengthExceeded)
      else
        .ok (.filled { datagram with
          receivedBytes := datagram.receivedBytes + fragment.payload.length
          receivedFragments := datagram.receivedFragments + 1
          fragments := datagram.fragments.set index (some fragment.payload) })

/-- The bytes of the slots in order; every slot must be filled. -/
def collectSlots : List (Option (List UInt8)) → Except Panic (List UInt8)
  | [] => .ok []
  | none :: _ => .error (.expectFailed "all fragment slots are present after completion")
  | some bytes :: slots => do
    let rest ← collectSlots slots
    return bytes ++ rest

/-- Deliver a datagram whose slots are all filled. -/
def finish (r : UdpReassembler) (key : DatagramKey) (now : Instant) :
    Except Panic (Except UdpReassemblyError UdpReassemblyOutcome × UdpReassembler) := do
  match ← r.removePartial key with
  | (none, _) => .error (.expectFailed "completed partial datagram should still exist")
  | (some datagram, r) =>
    if datagram.receivedBytes ≠ datagram.originalLength then
      return (.error .completedLengthMismatch, r)
    else
      let payload ← collectSlots datagram.fragments
      if payload.length ≠ datagram.originalLength then
        return (.error .completedLengthMismatch, r)
      else return (.ok (.complete payload), r.rememberCompleted key now)

/-- Put a fragment into the datagram in progress under its key. -/
def fill (r : UdpReassembler) (key : DatagramKey) (fragment : UdpFragment) (now : Instant) :
    Except Panic (Except UdpReassemblyError UdpReassemblyOutcome × UdpReassembler) :=
  match r.partials.get? key with
  | none => .error (.expectFailed "a partial datagram was inserted before use")
  | some datagram => do
    match ← offer datagram fragment with
    | .failure error =>
      let (_, r) ← r.removePartial key
      return (.error error, r)
    | .duplicate => return (.ok .duplicate, r)
    | .filled datagram =>
      let r := { r with partials := r.partials.insert key datagram }
      if datagram.receivedFragments = datagram.fragmentCount.toNat then r.finish key now
      else return (.ok .pending, r)

/-- Accept a valid fragment, after the cleanup. -/
def accept (r : UdpReassembler) (fragment : UdpFragment) (now : Instant) :
    Except Panic (Except UdpReassemblyError UdpReassemblyOutcome × UdpReassembler) :=
  let key := fragment.key
  if key ∈ r.completed then .ok (.ok .duplicate, r)
  else if fragment.originalLength = 0 then
    .ok (.ok (.complete []), r.rememberCompleted key now)
  else if key ∈ r.partials then r.fill key fragment now
  else do
    match ← r.insertPartial key fragment now with
    | .error error => return (.error error, r)
    | .ok r => r.fill key fragment now

/-- Take in one fragment. -/
def push (r : UdpReassembler) (fragment : UdpFragment) (now : Instant) :
    Except Panic (Except UdpReassemblyError UdpReassemblyOutcome × UdpReassembler) :=
  match fragment.validate with
  | .error error => .ok (.error (.invalidFragment error), r)
  | .ok () => do
    let (_, r) ← r.expire now
    r.accept fragment now

end UdpReassembler

/-! ## Calls and runs -/

/-- A call of the reassembler's interface. -/
inductive Call
  | push (fragment : UdpFragment) (now : Instant)
  | expire (now : Instant)
  | discardSession (sessionId : Uuid)
  deriving DecidableEq, Repr

/-- What a call returns. -/
inductive Reply
  | push (result : Except UdpReassemblyError UdpReassemblyOutcome)
  | expiration (expiration : UdpReassemblyExpiration)
  deriving DecidableEq, Repr

/-- Perform a call. -/
def UdpReassembler.call (r : UdpReassembler) : Call → Except Panic (Reply × UdpReassembler)
  | .push fragment now => do
    let (result, r) ← r.push fragment now
    return (.push result, r)
  | .expire now => do
    let (expiration, r) ← r.expire now
    return (.expiration expiration, r)
  | .discardSession sessionId => do
    let (expiration, r) ← r.discardSession sessionId
    return (.expiration expiration, r)

/-- One step of the reassembler: a call and its reply. -/
def Step (r : UdpReassembler) (e : Call × Reply) (r' : UdpReassembler) : Prop :=
  r.call e.1 = .ok (e.2, r')

/-- The clock reading of a call. -/
def Call.time : Call → Option Instant
  | .push _ now => some now
  | .expire now => some now
  | .discardSession _ => none

/-- The clock reading of an event. -/
def eventTime (e : Call × Reply) : Option Instant := e.1.time

/-- The key and the time of a delivery, when the event is one. -/
def delivery : Call × Reply → Option (DatagramKey × Instant)
  | (.push fragment now, .push (.ok (.complete _))) => some (fragment.key, now)
  | _ => none

/-- The fragments of the sample runs, all of one datagram of one session. -/
def sampleFragment (originalLength : UInt32) (fragmentIndex fragmentCount : UInt16)
    (payload : List UInt8) : UdpFragment :=
  { direction := .publicToTarget, sessionId := Uuid.fromU128 1, datagramId := 7, originalLength
    fragmentIndex, fragmentCount, payload }

end LinkLake.Udp
