import LinkLake.Core.UdpReassembly
import LinkLake.Foundations.SharedBudget

/-!
# Reassembly of SOCKS5 UDP fragments

The bounded reassembler of `FRAG` datagrams (`socks5_fragment.rs`). A datagram in progress (an
`Assembly`) is kept per session and target. Three levels of counters follow the assemblies: those of
the reassembler, those of each session, and those of a budget that all reassemblers of the process
share. The shared counters are atomics: an operation is a `BudgetProg`, which updates them one at a
time, while other reassemblers do the same.

A `usize` of the configuration is a `UInt64`, and a counter a natural number. A sequence number (a
`u8`) is a natural number, too: no configuration allows one above 127. Where the code would abort,
so does the program.
-/

namespace LinkLake.Socks5

open BudgetProg
open Udp (Instant Duration usizeMax saturatingAdd maxUdpDatagramBytes)

/-! ## Datagrams and fragments -/

/-- An address of either family. -/
inductive IpAddr
  | v4 (octets : BitVec 32)
  | v6 (octets : BitVec 128)
  deriving DecidableEq, Repr

/-- Where a datagram goes. -/
inductive Socks5UdpTarget
  | ip (address : IpAddr)
  | domain (name : String)
  deriving DecidableEq, Repr

/-- A datagram without fragmentation. -/
structure Socks5UdpDatagram where
  target : Socks5UdpTarget
  port : UInt16
  payload : List UInt8
  deriving DecidableEq, Repr

/-- A fragment of a datagram; the sequence 0 stands for a whole one. -/
structure Socks5UdpFragment where
  sequence : ℕ
  finalFragment : Bool
  target : Socks5UdpTarget
  port : UInt16
  payload : List UInt8
  deriving DecidableEq, Repr

/-- A label of a domain name: letters, digits, and hyphens inside. -/
def validLabel (label : List Char) : Bool :=
  !label.isEmpty && label.length ≤ 63 && label.head? != some '-' && label.getLast? != some '-'
    && label.all fun c => c.isAlphanum || c == '-'

/-- A domain name is short, and made of well-formed labels. -/
def validDomain (value : String) : Bool :=
  !value.isEmpty && value.utf8ByteSize ≤ 253 && value.toList.all (·.val < 128)
    && (value.toList.splitOn '.').all validLabel

/-- The length of the envelope of a fragment: reserved bytes, `FRAG`, address and port. A domain
that is not valid has none. -/
def socks5UdpEnvelopeHeaderLen : Socks5UdpTarget → Option ℕ
  | .ip (.v4 _) => some (3 + (1 + 4) + 2)
  | .ip (.v6 _) => some (3 + (1 + 16) + 2)
  | .domain name =>
    if !validDomain name || name.utf8ByteSize > 255 then none
    else some (3 + (2 + name.utf8ByteSize) + 2)

/-! ## Configuration -/

/-- The limits of a reassembler. -/
structure Socks5FragmentConfig where
  timeout : Duration := Duration.fromSecs 5
  maxFragmentsPerDatagram : UInt64 := 64
  maxBytesPerDatagram : UInt64 := 65507
  maxReorderGap : UInt8 := 0
  maxInflightPerSession : UInt64 := 8
  maxFragmentsPerSession : UInt64 := 128
  maxBytesPerSession : UInt64 := 256 * 1024
  maxInflightGlobal : UInt64 := 1024
  maxFragmentsGlobal : UInt64 := 8192
  maxBytesGlobal : UInt64 := 16 * 1024 * 1024
  deriving DecidableEq, Repr

/-- Why a configuration is refused. -/
inductive Socks5FragmentConfigError
  | zeroTimeout
  | timeoutTooShort
  | invalidLimit
  deriving DecidableEq, Repr

/-- Check a configuration. -/
def validateConfig (config : Socks5FragmentConfig) : Except Socks5FragmentConfigError Unit :=
  if config.timeout = 0 then .error .zeroTimeout
  else if config.timeout < Duration.fromSecs 5 then .error .timeoutTooShort
  else if config.maxFragmentsPerDatagram = 0
      ∨ config.maxFragmentsPerDatagram > 127
      ∨ config.maxBytesPerDatagram = 0
      ∨ config.maxBytesPerDatagram.toNat > maxUdpDatagramBytes
      ∨ config.maxInflightPerSession = 0
      ∨ config.maxFragmentsPerSession < config.maxFragmentsPerDatagram
      ∨ config.maxBytesPerSession < config.maxBytesPerDatagram
      ∨ config.maxInflightGlobal < config.maxInflightPerSession
      ∨ config.maxFragmentsGlobal < config.maxFragmentsPerSession
      ∨ config.maxBytesGlobal < config.maxBytesPerSession then
    .error .invalidLimit
  else .ok ()

/-! ## The shared budget -/

/-- The three counters that all reassemblers share. -/
inductive Counter
  | inflightDatagrams
  | bufferedFragments
  | bufferedBytes
  deriving DecidableEq, Repr

/-- The limits of the shared counters. -/
structure Socks5FragmentGlobalBudget where
  maxInflightDatagrams : UInt64
  maxFragments : UInt64
  maxBytes : UInt64
  deriving DecidableEq, Repr

namespace Socks5FragmentGlobalBudget

/-- The budget of the process that a configuration asks for. -/
def fromConfig (config : Socks5FragmentConfig) : Socks5FragmentGlobalBudget where
  maxInflightDatagrams := config.maxInflightGlobal
  maxFragments := config.maxFragmentsGlobal
  maxBytes := config.maxBytesGlobal

/-- The budget is at least what a configuration asks for. -/
def supports (budget : Socks5FragmentGlobalBudget) (config : Socks5FragmentConfig) : Bool :=
  budget.maxInflightDatagrams ≥ config.maxInflightGlobal
    && budget.maxFragments ≥ config.maxFragmentsGlobal
    && budget.maxBytes ≥ config.maxBytesGlobal

/-- The limit of a counter. -/
def limit (budget : Socks5FragmentGlobalBudget) : Counter → ℕ
  | .inflightDatagrams => budget.maxInflightDatagrams.toNat
  | .bufferedFragments => budget.maxFragments.toNat
  | .bufferedBytes => budget.maxBytes.toNat

end Socks5FragmentGlobalBudget

/-- Why a fragment is refused. -/
inductive Socks5FragmentError
  | missingInitialFragment
  | sequenceLimit
  | reorderGap
  | conflictingDuplicate
  | conflictingFinalFragment
  | duplicateFinalFragment
  | fragmentAfterFinal
  | datagramByteBudget
  | sessionFragmentBudget
  | sessionByteBudget
  | sessionInflightBudget
  | globalFragmentBudget
  | globalByteBudget
  | globalInflightBudget
  deriving DecidableEq, Repr

/-- Reserve room for a datagram. -/
def tryReserveDatagram : BudgetProg Counter Bool := tryReserve .inflightDatagrams 1

/-- Reserve room for bytes. -/
def tryReserveBytes (bytes : ℕ) : BudgetProg Counter Bool := tryReserve .bufferedBytes bytes

/-- Give the room of a datagram back. -/
def releaseDatagram : BudgetProg Counter Unit := giveBack .inflightDatagrams 1

/-- Give the room of bytes back. -/
def releaseBytes (bytes : ℕ) : BudgetProg Counter Unit := giveBack .bufferedBytes bytes

/-- Reserve room for a fragment and its bytes, or for neither. -/
def tryReserveFragment (bytes : ℕ) : BudgetProg Counter (Except Socks5FragmentError Unit) := do
  if ← tryReserve .bufferedFragments 1 then
    if ← tryReserveBytes bytes then
      pure (.ok ())
    else
      giveBack .bufferedFragments 1
      pure (.error .globalByteBudget)
  else pure (.error .globalFragmentBudget)

/-- Give the room of a fragment and its bytes back. -/
def releaseFragment (bytes : ℕ) : BudgetProg Counter Unit := do
  giveBack .bufferedFragments 1
  releaseBytes bytes

/-! ## Assemblies -/

/-- What becomes of a fragment. -/
inductive Socks5FragmentOutcome
  | complete (datagram : Socks5UdpDatagram) (fragmented : Bool)
  | pending
  | duplicate
  deriving DecidableEq, Repr

/-- What an expiration has dropped. -/
structure Socks5FragmentExpiration where
  datagrams : ℕ := 0
  fragments : ℕ := 0
  bytes : ℕ := 0
  deriving DecidableEq, Repr

/-- Fragments of one datagram share a session and a target. -/
structure FragmentKey (K : Type) where
  session : K
  target : Socks5UdpTarget
  port : UInt16
  deriving DecidableEq, Repr

/-- A datagram of which fragments are missing. -/
structure Assembly where
  target : Socks5UdpTarget
  port : UInt16
  fragments : FiniteMap ℕ (List UInt8)
  finalSequence : Option ℕ
  highestContiguous : ℕ
  highestReceived : ℕ
  payloadBytes : ℕ
  bytes : ℕ
  lastActivity : Instant
  deriving DecidableEq

/-- Addition of sequence numbers, which are bytes. -/
def saturatingAddU8 (a b : ℕ) : ℕ := min (a + b) 255

namespace Assembly

/-- An assembly that has only its envelope. -/
def new (fragment : Socks5UdpFragment) (envelopeBytes : ℕ) (now : Instant) : Assembly where
  target := fragment.target
  port := fragment.port
  fragments := ∅
  finalSequence := none
  highestContiguous := 0
  highestReceived := 0
  payloadBytes := 0
  bytes := envelopeBytes
  lastActivity := now

/-- The stored payloads, by their sequence numbers. -/
def payloads (assembly : Assembly) : List (List UInt8) :=
  (assembly.fragments.toList.insertionSort fun a b => a.1 ≤ b.1).map Prod.snd

/-- What becomes of a fragment: the assembly takes it, has it already, refuses it, or is dropped
because of it. -/
inductive Verdict
  | accept
  | duplicate
  | refuse (error : Socks5FragmentError)
  | drop (error : Socks5FragmentError)
  deriving DecidableEq, Repr

/-- The checks that a fragment passes before it is stored. -/
def conflict (maxReorderGap : ℕ) (assembly : Assembly) (fragment : Socks5UdpFragment) : Verdict :=
  if maxReorderGap = 0 ∧ fragment.sequence < assembly.highestReceived then .drop .reorderGap
  else match assembly.fragments.get? fragment.sequence with
    | some existing =>
      let existingFinal := assembly.finalSequence == some fragment.sequence
      if existingFinal && fragment.finalFragment then .drop .duplicateFinalFragment
      else if existing == fragment.payload && existingFinal == fragment.finalFragment then .duplicate
      else .drop .conflictingDuplicate
    | none =>
      if assembly.finalSequence.any (fragment.sequence > ·) then .drop .fragmentAfterFinal
      else if fragment.finalFragment && assembly.finalSequence.any (· != fragment.sequence) then
        .drop .conflictingFinalFragment
      else if fragment.sequence > saturatingAddU8
          (saturatingAddU8 assembly.highestContiguous maxReorderGap) 1 then
        .refuse .reorderGap
      else .accept

/-- The loop that extends the contiguous fragments; it makes at most `fuel` rounds. -/
def extendContiguous (fragments : FiniteMap ℕ (List UInt8)) : ℕ → ℕ → ℕ
  | 0, highest => highest
  | fuel + 1, highest =>
    if saturatingAddU8 highest 1 ∈ fragments then
      extendContiguous fragments fuel (saturatingAddU8 highest 1)
    else highest

/-- The assembly with one more fragment. -/
def store (assembly : Assembly) (fragment : Socks5UdpFragment) (now : Instant) : Assembly :=
  let fragments := assembly.fragments.insert fragment.sequence fragment.payload
  { assembly with
    finalSequence := if fragment.finalFragment then some fragment.sequence
      else assembly.finalSequence
    payloadBytes := saturatingAdd assembly.payloadBytes fragment.payload.length
    bytes := saturatingAdd assembly.bytes fragment.payload.length
    fragments := fragments
    highestReceived := max assembly.highestReceived fragment.sequence
    lastActivity := now
    -- a round passes to a new sequence number, so there are fewer rounds than bytes
    highestContiguous := extendContiguous fragments 256 assembly.highestContiguous }

/-- No fragment up to the final one is missing. -/
def complete (assembly : Assembly) : Bool :=
  assembly.finalSequence.any (assembly.highestContiguous == ·)

end Assembly

/-! ## The reassembler -/

/-- What the assemblies of a session hold. -/
structure Usage where
  datagrams : ℕ := 0
  fragments : ℕ := 0
  bytes : ℕ := 0
  deriving DecidableEq, Repr

/-- The reassembler; it shares the budget of the process with others. -/
structure Socks5FragmentReassembler (K : Type) where
  config : Socks5FragmentConfig
  assemblies : FiniteMap (FragmentKey K) Assembly
  sessions : FiniteMap K Usage
  localFragments : ℕ
  localBytes : ℕ

namespace Socks5FragmentReassembler

variable {K : Type} [DecidableEq K]

omit [DecidableEq K] in
/-- A reassembler for a budget that supports its configuration. -/
def newWithGlobalBudget (config : Socks5FragmentConfig) (budget : Socks5FragmentGlobalBudget) :
    Except Socks5FragmentConfigError (Socks5FragmentReassembler K) := do
  validateConfig config
  if budget.supports config then
    pure ⟨config, ∅, ∅, 0, 0⟩
  else .error .invalidLimit

/-- The counters of a session. -/
def usage (r : Socks5FragmentReassembler K) (session : K) : Usage :=
  (r.sessions.get? session).getD {}

/-- Reserve room for a new assembly, in the session and in the process. -/
def reserveNewAssembly (r : Socks5FragmentReassembler K) (session : K) (envelopeBytes : ℕ) :
    BudgetProg Counter (Except Socks5FragmentError (Socks5FragmentReassembler K)) := do
  if envelopeBytes > r.config.maxBytesPerDatagram.toNat then
    pure (.error .datagramByteBudget)
  else if (r.usage session).datagrams ≥ r.config.maxInflightPerSession.toNat then
    pure (.error .sessionInflightBudget)
  else if saturatingAdd (r.usage session).bytes envelopeBytes
      > r.config.maxBytesPerSession.toNat then
    pure (.error .sessionByteBudget)
  else if ← tryReserveDatagram then
    if ← tryReserveBytes envelopeBytes then
      let usage := r.usage session
      pure (.ok { r with
        sessions := r.sessions.insert session { usage with
          datagrams := saturatingAdd usage.datagrams 1
          bytes := saturatingAdd usage.bytes envelopeBytes }
        localBytes := saturatingAdd r.localBytes envelopeBytes })
    else
      releaseDatagram
      pure (.error .globalByteBudget)
  else pure (.error .globalInflightBudget)

/-- Reserve room for a fragment of an assembly, in the session and in the process. -/
def reserveFragment (r : Socks5FragmentReassembler K) (session : K) (key : FragmentKey K)
    (bytes : ℕ) :
    BudgetProg Counter (Except Socks5FragmentError (Socks5FragmentReassembler K)) := do
  let assembly ← expect "SOCKS5 assembly exists before reserving a fragment"
    (r.assemblies.get? key)
  if assembly.fragments.size ≥ r.config.maxFragmentsPerDatagram.toNat then
    pure (.error .sequenceLimit)
  else if saturatingAdd assembly.bytes bytes > r.config.maxBytesPerDatagram.toNat then
    pure (.error .datagramByteBudget)
  else if (r.usage session).fragments ≥ r.config.maxFragmentsPerSession.toNat then
    pure (.error .sessionFragmentBudget)
  else if saturatingAdd (r.usage session).bytes bytes > r.config.maxBytesPerSession.toNat then
    pure (.error .sessionByteBudget)
  else match ← tryReserveFragment bytes with
    | .error e => pure (.error e)
    | .ok () => do
      let usage ← expect "session usage exists" (r.sessions.get? session)
      pure (.ok { r with
        sessions := r.sessions.insert session { usage with
          fragments := saturatingAdd usage.fragments 1
          bytes := saturatingAdd usage.bytes bytes }
        localFragments := saturatingAdd r.localFragments 1
        localBytes := saturatingAdd r.localBytes bytes })

/-- Give back what an assembly holds of the shared counters. -/
def releaseAssembly (assembly : Assembly) : BudgetProg Counter Unit := do
  releaseDatagram
  releaseBytes (assembly.bytes - assembly.payloadBytes)
  assembly.payloads.forM fun payload => releaseFragment payload.length

/-- The counters of a session without an assembly; a session with nothing left has no entry. -/
def forgetUsage (sessions : FiniteMap K Usage) (session : K) (assembly : Assembly) :
    FiniteMap K Usage :=
  match sessions.get? session with
  | none => sessions
  | some usage =>
    let usage : Usage :=
      ⟨usage.datagrams - 1, usage.fragments - assembly.fragments.size, usage.bytes - assembly.bytes⟩
    if usage.datagrams = 0 ∧ usage.fragments = 0 ∧ usage.bytes = 0 then sessions.erase session
    else sessions.insert session usage

/-- The reassembler without an assembly, as far as its own fields go. -/
def forget (r : Socks5FragmentReassembler K) (key : FragmentKey K) (assembly : Assembly) :
    Socks5FragmentReassembler K :=
  { r with
    assemblies := r.assemblies.erase key
    localFragments := r.localFragments - assembly.fragments.size
    localBytes := r.localBytes - assembly.bytes
    sessions := forgetUsage r.sessions key.session assembly }

/-- Take an assembly out and give its room back. -/
def removeAssembly (r : Socks5FragmentReassembler K) (key : FragmentKey K) :
    BudgetProg Counter (Option Assembly × Socks5FragmentReassembler K) :=
  match r.assemblies.get? key with
  | none => pure (none, r)
  | some assembly => do
    releaseAssembly assembly
    pure (some assembly, r.forget key assembly)

/-- The end of a push that completes its assembly. -/
def deliver (r : Socks5FragmentReassembler K) (key : FragmentKey K) :
    BudgetProg Counter (Except Socks5FragmentError Socks5FragmentOutcome
      × Socks5FragmentReassembler K) := do
  let removed ← r.removeAssembly key
  let assembly ← expect "complete SOCKS5 assembly must still exist" removed.1
  let finalSequence ← expect "complete SOCKS5 assembly has a final fragment"
    assembly.finalSequence
  let payloads ← (List.range' 1 finalSequence).mapM fun sequence =>
    expect "contiguous complete assembly has every fragment" (assembly.fragments.get? sequence)
  pure (.ok (.complete ⟨assembly.target, assembly.port, payloads.flatten⟩ true), removed.2)

/-- The part of a push that finds an assembly, be it new or not. -/
def pushInto (r : Socks5FragmentReassembler K) (session : K) (key : FragmentKey K)
    (fragment : Socks5UdpFragment) (now : Instant) (created : Bool) :
    BudgetProg Counter (Except Socks5FragmentError Socks5FragmentOutcome
      × Socks5FragmentReassembler K) := do
  let assembly ← expect "SOCKS5 assembly was created above" (r.assemblies.get? key)
  match assembly.conflict r.config.maxReorderGap.toNat fragment with
  | .duplicate => pure (.ok .duplicate, r)
  | .refuse e => pure (.error e, r)
  | .drop e => do
    let removed ← r.removeAssembly key
    pure (.error e, removed.2)
  | .accept => do
    match ← r.reserveFragment session key fragment.payload.length with
    | .error e =>
      if created then do
        let removed ← r.removeAssembly key
        pure (.error e, removed.2)
      else pure (.error e, r)
    | .ok r => do
      let assembly ← expect "SOCKS5 assembly must exist after budget reservation"
        (r.assemblies.get? key)
      let assembly := assembly.store fragment now
      let r := { r with assemblies := r.assemblies.insert key assembly }
      if assembly.complete then r.deliver key else pure (.ok .pending, r)

/-- A fragment comes in. -/
def push (r : Socks5FragmentReassembler K) (session : K) (fragment : Socks5UdpFragment)
    (now : Instant) :
    BudgetProg Counter (Except Socks5FragmentError Socks5FragmentOutcome
      × Socks5FragmentReassembler K) := do
  if fragment.sequence = 0 then
    pure (.ok (.complete ⟨fragment.target, fragment.port, fragment.payload⟩ false), r)
  else if fragment.sequence > r.config.maxFragmentsPerDatagram.toNat then
    pure (.error .sequenceLimit, r)
  else
    let key : FragmentKey K := ⟨session, fragment.target, fragment.port⟩
    if key ∈ r.assemblies then r.pushInto session key fragment now false
    else if fragment.sequence ≠ 1 then pure (.error .missingInitialFragment, r)
    else match socks5UdpEnvelopeHeaderLen fragment.target with
      | none => pure (.error .datagramByteBudget, r)
      | some envelopeBytes => do
        match ← r.reserveNewAssembly session envelopeBytes with
        | .error e => pure (.error e, r)
        | .ok r =>
          let assembly := Assembly.new fragment envelopeBytes now
          pushInto { r with assemblies := r.assemblies.insert key assembly } session key fragment
            now true

/-- Remove assemblies one after the other, and count what goes. -/
def removeAll (r : Socks5FragmentReassembler K) (removed : Socks5FragmentExpiration) :
    List (FragmentKey K) →
      BudgetProg Counter (Socks5FragmentExpiration × Socks5FragmentReassembler K)
  | [] => pure (removed, r)
  | key :: keys => do
    match ← r.removeAssembly key with
    | (none, r) => removeAll r removed keys
    | (some assembly, r) =>
      removeAll r
        ⟨saturatingAdd removed.datagrams 1,
          saturatingAdd removed.fragments assembly.fragments.size,
          saturatingAdd removed.bytes assembly.bytes⟩ keys

/-- Whether nothing has come for an assembly for the time of the timeout. -/
def timedOut (config : Socks5FragmentConfig) (now : Instant) (assembly : Assembly) : Bool :=
  assembly.lastActivity ≤ now && config.timeout ≤ now - assembly.lastActivity

/-- Drop the assemblies that have waited too long. -/
def expire (r : Socks5FragmentReassembler K) (now : Instant) :
    BudgetProg Counter (Socks5FragmentExpiration × Socks5FragmentReassembler K) :=
  r.removeAll {} ((r.assemblies.toList.filter fun entry =>
    timedOut r.config now entry.2).map Prod.fst)

/-- Drop the assemblies of a session. -/
def discardSession (r : Socks5FragmentReassembler K) (session : K) :
    BudgetProg Counter (Socks5FragmentExpiration × Socks5FragmentReassembler K) :=
  r.removeAll {} (r.assemblies.keys.filter (·.session = session))

omit [DecidableEq K] in
/-- The destructor gives everything back. -/
def drop (r : Socks5FragmentReassembler K) : BudgetProg Counter Unit :=
  r.assemblies.toList.forM fun entry => releaseAssembly entry.2

end Socks5FragmentReassembler

/-! ## Reassemblers that share a budget -/

/-- What is asked of a reassembler. -/
inductive Call (K : Type)
  | push (session : K) (fragment : Socks5UdpFragment) (now : Instant)
  | expire (now : Instant)
  | discardSession (session : K)
  | drop
  deriving DecidableEq, Repr

/-- What it answers. -/
inductive Reply
  | pushed (result : Except Socks5FragmentError Socks5FragmentOutcome)
  | removed (expiration : Socks5FragmentExpiration)
  | dropped

namespace Socks5FragmentReassembler

variable {K : Type} [DecidableEq K]

/-- A call, with the reply and the reassembler after it; a reassembler that is dropped is gone. -/
def perform (r : Socks5FragmentReassembler K) :
    Call K → BudgetProg Counter (Reply × Option (Socks5FragmentReassembler K))
  | .push session fragment now => do
    let result ← r.push session fragment now
    pure (.pushed result.1, some result.2)
  | .expire now => do
    let result ← r.expire now
    pure (.removed result.1, some result.2)
  | .discardSession session => do
    let result ← r.discardSession session
    pure (.removed result.1, some result.2)
  | .drop => do
    r.drop
    pure (.dropped, none)

omit [DecidableEq K] in
/-- What the assemblies of a reassembler take of the shared counters. -/
def held (r : Socks5FragmentReassembler K) : Counter → ℕ
  | .inflightDatagrams => r.assemblies.size
  | .bufferedFragments => r.assemblies.total (·.fragments.size)
  | .bufferedBytes => r.assemblies.total (·.bytes)

end Socks5FragmentReassembler

/-- The reassemblers of a process and their budget. -/
def system (K : Type) [DecidableEq K] (budget : Socks5FragmentGlobalBudget) :
    BudgetSystem Counter (Socks5FragmentReassembler K) Reply Socks5FragmentConfig (Call K) where
  limit := budget.limit
  create config := (Socks5FragmentReassembler.newWithGlobalBudget config budget).toOption
  body := Socks5FragmentReassembler.perform
  held := Socks5FragmentReassembler.held

end LinkLake.Socks5
