import LinkLake.Core.PortMapping
import LinkLake.Core.Socks5Fragment

/-!
# Port groups of a fleet bundle

The validation of a port group in a fleet bundle (`fleet_protocol.rs`, the case `PortGroup` of
`FleetResourceSpec::validate`). A bundle is compared by its content, so that a port group is accepted
only if its ports are written in normal form.

The text form of addresses is the standard library's, and a parameter here.
-/

namespace LinkLake.Fleet

open Fallible Text Ports
open Socks5 (IpAddr)

inductive FleetPortGroupProtocol
  | tcp
  | udp
  deriving DecidableEq, Repr

structure FleetPortGroupResource where
  agentInstanceId : Uuid
  name : String
  protocol : FleetPortGroupProtocol
  publicPorts : String
  targetHost : String
  targetPorts : String
  maxConnections : ℕ
  maxSessions : ℕ
  sessionIdleTimeoutSeconds : ℕ
  bandwidthLimitBps : Option ℕ
  deriving DecidableEq, Repr

/-- The error of the checks below. -/
inductive FleetBundleError
  | invalidField (field : String)
  deriving DecidableEq, Repr

def maxPortGroupNameBytes : ℕ := 64

def minBandwidthLimitBps : ℕ := 1024

def maxBandwidthLimitBps : ℕ := 1000000000

def fleetMaxConnections : ℕ := 1024

def maxUdpSessions : ℕ := 4096

def minUdpIdleTimeoutSeconds : ℕ := 30

def maxUdpIdleTimeoutSeconds : ℕ := 3600

/-! ## Checks -/

/-- A field is invalid unless the condition holds. -/
def require (field : String) (valid : Prop) [Decidable valid] : Except FleetBundleError Unit :=
  rejectIf (¬ valid) (.invalidField field)

def validName (value : String) (maximum : ℕ) : Bool :=
  value == trim value && !value.isEmpty && decide (value.utf8ByteSize ≤ maximum) &&
    !value.toList.any Text.isControl

def validateAgentId (value : Uuid) : Except FleetBundleError Unit :=
  require "resources.agent_instance_id" (value.isNil = false)

def validatePolicyName (value : String) (maximum : ℕ) : Except FleetBundleError Unit :=
  require "resources.name" (validName value maximum = true)

def validateConnections (value : ℕ) : Except FleetBundleError Unit :=
  require "resources.max_connections" (1 ≤ value ∧ value ≤ fleetMaxConnections)

def validateSessions (value : ℕ) : Except FleetBundleError Unit :=
  require "resources.max_sessions" (1 ≤ value ∧ value ≤ maxUdpSessions)

def validateIdleTimeout (value : ℕ) : Except FleetBundleError Unit :=
  require "resources.session_idle_timeout_seconds"
    (minUdpIdleTimeoutSeconds ≤ value ∧ value ≤ maxUdpIdleTimeoutSeconds)

def validateBandwidth (value : Option ℕ) : Except FleetBundleError Unit :=
  require "resources.bandwidth_limit_bps"
    (∀ limit ∈ value, minBandwidthLimitBps ≤ limit ∧ limit ≤ maxBandwidthLimitBps)

def isAsciiSpace (c : Char) : Bool := [' ', '\t', '\n', '\x0c', '\r'].contains c

/-- A label of a host name. -/
def validLabel (label : List Char) : Bool :=
  !label.isEmpty && decide ((String.ofList label).utf8ByteSize ≤ 63) && label.head? != some '-' &&
    label.getLast? != some '-' && label.all fun c => c.isAlphanum || c == '-'

/-- A host name in lower case, or an address as it is printed. -/
def validHost (ip : TextForm IpAddr) (value : String) : Bool :=
  if value.isEmpty || decide (253 < value.utf8ByteSize) || value != trim value ||
      value.toList.any isAsciiSpace || value.toList.any (['/', '[', ']'].contains ·) then false
  else
    match ip.parse value.toList with
    | some address => ip.format address == value.toList
    | none => !value.toList.contains ':' && value.toList == lower value.toList &&
        (value.toList.splitOn '.').all validLabel

def validateTargetHost (ip : TextForm IpAddr) (value : String) : Except FleetBundleError Unit :=
  require "resources.port_group.target_host" (validHost ip value = true)

/-- The ports parse, and they are written in normal form. -/
def validatePorts (publicPorts targetPorts : String) : Except FleetBundleError Unit :=
  match parsePortMappings publicPorts targetPorts 1 65535 maxPortMappings with
  | .error _ => .error (.invalidField "resources.port_group.ports")
  | .ok mappings => require "resources.port_group.ports"
      (mappings.publicPorts = publicPorts ∧ mappings.targetPorts = targetPorts)

namespace FleetPortGroupResource

def validate (ip : TextForm IpAddr) (resource : FleetPortGroupResource) :
    Except FleetBundleError Unit := do
  validateAgentId resource.agentInstanceId
  validatePolicyName resource.name maxPortGroupNameBytes
  validateTargetHost ip resource.targetHost
  validatePorts resource.publicPorts resource.targetPorts
  validateConnections resource.maxConnections
  validateSessions resource.maxSessions
  validateIdleTimeout resource.sessionIdleTimeoutSeconds
  validateBandwidth resource.bandwidthLimitBps

/-- Everything but the ports is valid. -/
structure OtherFieldsValid (ip : TextForm IpAddr) (resource : FleetPortGroupResource) : Prop where
  agentId : validateAgentId resource.agentInstanceId = .ok ()
  name : validatePolicyName resource.name maxPortGroupNameBytes = .ok ()
  targetHost : validateTargetHost ip resource.targetHost = .ok ()
  connections : validateConnections resource.maxConnections = .ok ()
  sessions : validateSessions resource.maxSessions = .ok ()
  idleTimeout : validateIdleTimeout resource.sessionIdleTimeoutSeconds = .ok ()
  bandwidth : validateBandwidth resource.bandwidthLimitBps = .ok ()

theorem validate_eq_ok {ip : TextForm IpAddr} {resource : FleetPortGroupResource} :
    resource.validate ip = .ok () ↔
      resource.OtherFieldsValid ip ∧
        validatePorts resource.publicPorts resource.targetPorts = .ok () := by
  simp only [validate, bind_unit_eq_ok]
  constructor
  · rintro ⟨hagent, hname, hhost, hports, hconnections, hsessions, htimeout, hbandwidth⟩
    exact ⟨⟨hagent, hname, hhost, hconnections, hsessions, htimeout, hbandwidth⟩, hports⟩
  · rintro ⟨h, hports⟩
    exact ⟨h.agentId, h.name, h.targetHost, hports, h.connections, h.sessions, h.idleTimeout,
      h.bandwidth⟩

end FleetPortGroupResource

/-- The two texts are the normal forms of lists of ports that are mapped onto each other. -/
def IsNormalForm (publicText targetText : String) : Prop :=
  ∃ publicPorts targetPorts, Maps 1 65535 maxPortMappings publicPorts targetPorts ∧
    publicText = normalizePortSet publicPorts ∧ targetText = normalizePortSet targetPorts

theorem validatePorts_eq_ok {publicPorts targetPorts : String} :
    validatePorts publicPorts targetPorts = .ok () ↔ IsNormalForm publicPorts targetPorts := by
  unfold validatePorts
  constructor
  · intro h
    split at h
    · cases h
    · rename_i mappings hparse
      rw [require, rejectIf_eq_ok, not_not] at h
      obtain ⟨rfl, rfl⟩ := h
      obtain ⟨_, _, hpublic, htarget, hlength, heq⟩ := parsePortMappings_eq_ok.mp hparse
      exact ⟨_, _, maps_of_parse hpublic htarget hlength, congrArg _ heq, congrArg _ heq⟩
  · rintro ⟨publicPorts, targetPorts, hmaps, rfl, rfl⟩
    rw [hmaps.parse_normal (by decide)]
    simp [require]

/-- **Normalisation preserves the mapping and is canonical.** What is parsed are the pairs of the
ports that the two expressions stand for, with the normal forms of the two lists of ports; these
are parsed into the same mapping again, and two mappings with the same pairs have the same normal
forms. A port group is accepted exactly if its other fields are valid and its ports are written in
normal form. -/
theorem portGroup_normalForm :
    (∀ publicExpression targetExpression minimum maximum count result,
      parsePortMappings publicExpression targetExpression minimum maximum count = .ok result →
        (portsOf publicExpression).length = (portsOf targetExpression).length ∧
        result.pairs.map (fun pair => (pair.publicPort.toNat, pair.targetPort.toNat)) =
          (portsOf publicExpression).zip (portsOf targetExpression) ∧
        result.publicPorts = normalizePortSet (result.pairs.map PortPair.publicPort) ∧
        result.targetPorts = normalizePortSet (result.pairs.map PortPair.targetPort) ∧
        parsePortMappings result.publicPorts result.targetPorts minimum maximum count =
          .ok result) ∧
      (∀ publicExpression targetExpression minimum maximum count result publicExpression'
          targetExpression' minimum' maximum' count' result',
        parsePortMappings publicExpression targetExpression minimum maximum count = .ok result →
        parsePortMappings publicExpression' targetExpression' minimum' maximum' count' =
          .ok result' → result.pairs = result'.pairs →
        result.publicPorts = result'.publicPorts ∧ result.targetPorts = result'.targetPorts) ∧
      ∀ (ip : TextForm IpAddr) (resource : FleetPortGroupResource),
        resource.validate ip = .ok () ↔ resource.OtherFieldsValid ip ∧
          IsNormalForm resource.publicPorts resource.targetPorts := by
  refine ⟨?_, ?_, ?_⟩
  · intro publicExpression targetExpression minimum maximum count result h
    obtain ⟨hlength, hpairs, hpublic, htarget⟩ := pairs_of_parse h
    exact ⟨hlength, hpairs, hpublic, htarget, parsePortMappings_self h⟩
  · intro _ _ _ _ _ result _ _ _ _ _ result' h h' hpairs
    exact parsePortMappings_canonical h h' hpairs
  · intro ip resource
    rw [FleetPortGroupResource.validate_eq_ok, validatePorts_eq_ok]

theorem portGroup_normalForm_mixed :
    parsePortMappings " 32001, 32010 - 32012 " "2333,2400,2401-2402" 32000 32999 256 =
        .ok ⟨"32001,32010-32012", "2333,2400-2402",
          [⟨32001, 2333⟩, ⟨32010, 2400⟩, ⟨32011, 2401⟩, ⟨32012, 2402⟩]⟩ ∧
      parsePortMappings "32001,32010-32012" "2333,2400-2402" 32000 32999 256 =
        .ok ⟨"32001,32010-32012", "2333,2400-2402",
          [⟨32001, 2333⟩, ⟨32010, 2400⟩, ⟨32011, 2401⟩, ⟨32012, 2402⟩]⟩ ∧
      portsOf " 32001, 32010 - 32012 " = [32001, 32010, 32011, 32012] := by
  have hparse : parsePortMappings " 32001, 32010 - 32012 " "2333,2400,2401-2402" 32000 32999 256 =
      .ok ⟨"32001,32010-32012", "2333,2400-2402",
        [⟨32001, 2333⟩, ⟨32010, 2400⟩, ⟨32011, 2401⟩, ⟨32012, 2402⟩]⟩ := by
    decide +kernel
  exact ⟨hparse, (portGroup_normalForm.1 _ _ _ _ _ _ hparse).2.2.2.2, by decide +kernel⟩

end LinkLake.Fleet
