import LinkLake.Core.Uuid

/-!
# The LLUD wire format

The binary frame format of the UDP data plane (`udp_protocol.rs`). A datagram is cut into at most
`maxUdpFragments` fragments; each travels as a frame with a fixed header of
`udpDatagramHeaderBytes` bytes, followed by the fragment's bytes.

* `validateFragment` is what both ends check of a fragment;
* `UdpFragment.encode` and `UdpFragment.decode` are the codec;
* `fragmentDatagram` is the splitter: one frame for each chunk of the payload.
-/

namespace LinkLake.Udp

open BigEndian

/-- The frame magic, `LLUD`. -/
def udpDatagramMagic : List UInt8 := [0x4c, 0x4c, 0x55, 0x44]

def udpDatagramVersion : UInt8 := 1

def udpDatagramHeaderBytes : ℕ := 40

def maxUdpDatagramBytes : ℕ := 65507

def maxUdpFragments : UInt16 := 64

/-- Which way a datagram travels through the tunnel. -/
inductive UdpDirection
  | publicToTarget
  | targetToPublic
  deriving DecidableEq, Repr

/-- What the codec and the splitter can reject. -/
inductive UdpProtocolError
  | frameTooShort (length : ℕ)
  | invalidMagic
  | unsupportedVersion (version : UInt8)
  | invalidDirection (value : UInt8)
  | unsupportedFlags (flags : UInt16)
  | nilSessionId
  | invalidFragmentCount (count : UInt16)
  | invalidFragmentIndex (index count : UInt16)
  | datagramTooLarge (length : ℕ)
  | invalidFragmentLength
  | frameLimitTooSmall
  | tooManyFragments
  deriving DecidableEq, Repr

/-- The discriminant of a direction on the wire. -/
def UdpDirection.toU8 : UdpDirection → UInt8
  | .publicToTarget => 1
  | .targetToPublic => 2

def UdpDirection.tryFrom (value : UInt8) : Except UdpProtocolError UdpDirection :=
  if value = 1 then .ok .publicToTarget
  else if value = 2 then .ok .targetToPublic
  else .error (.invalidDirection value)

/-- One fragment of a datagram, with the metadata its frame carries. -/
structure UdpFragment where
  direction : UdpDirection
  sessionId : Uuid
  datagramId : UInt64
  fragmentIndex : UInt16
  fragmentCount : UInt16
  originalLength : UInt32
  payload : List UInt8
  deriving DecidableEq, Repr

/-- What must hold of a fragment by itself, before it is sent and after it is received. -/
def validateFragment (fragment : UdpFragment) : Except UdpProtocolError Unit :=
  let originalLength := fragment.originalLength.toNat
  if fragment.sessionId.isNil then .error .nilSessionId
  else if fragment.fragmentCount = 0 ∨ fragment.fragmentCount > maxUdpFragments then
    .error (.invalidFragmentCount fragment.fragmentCount)
  else if fragment.fragmentIndex ≥ fragment.fragmentCount then
    .error (.invalidFragmentIndex fragment.fragmentIndex fragment.fragmentCount)
  else if originalLength > maxUdpDatagramBytes then .error (.datagramTooLarge originalLength)
  else if originalLength = 0 then
    -- an empty datagram is exactly one empty fragment
    if fragment.fragmentCount ≠ 1 ∨ fragment.fragmentIndex ≠ 0 ∨ fragment.payload ≠ [] then
      .error .invalidFragmentLength
    else .ok ()
  else if fragment.payload = [] ∨ fragment.payload.length > originalLength then
    .error .invalidFragmentLength
  else if fragment.fragmentCount = 1 ∧ fragment.payload.length ≠ originalLength then
    .error .invalidFragmentLength
  else if fragment.fragmentCount > 1 ∧ fragment.payload.length = originalLength then
    .error .invalidFragmentLength
  else .ok ()

def UdpFragment.validate (fragment : UdpFragment) : Except UdpProtocolError Unit :=
  validateFragment fragment

/-- The frame of a valid fragment: header, then payload. -/
def UdpFragment.encode (fragment : UdpFragment) : Except UdpProtocolError (List UInt8) := do
  fragment.validate
  return udpDatagramMagic ++ ([udpDatagramVersion] ++ ([fragment.direction.toU8] ++ (beBytes 2 0 ++
    (fragment.sessionId.asBytes ++ (beBytes 8 fragment.datagramId.toNat ++
      (beBytes 2 fragment.fragmentIndex.toNat ++ (beBytes 2 fragment.fragmentCount.toNat ++
        (beBytes 4 fragment.originalLength.toNat ++ fragment.payload))))))))

/-- The bytes of `encoded` from offset `start` up to offset `stop`. -/
def slice (encoded : List UInt8) (start stop : ℕ) : List UInt8 :=
  (encoded.drop start).take (stop - start)

/-- Read a frame back into a valid fragment. -/
def UdpFragment.decode (encoded : List UInt8) : Except UdpProtocolError UdpFragment :=
  if encoded.length < udpDatagramHeaderBytes then .error (.frameTooShort encoded.length)
  else if slice encoded 0 4 ≠ udpDatagramMagic then .error .invalidMagic
  else
    let version := encoded.getD 4 0
    if version ≠ udpDatagramVersion then .error (.unsupportedVersion version)
    else do
      let direction ← UdpDirection.tryFrom (encoded.getD 5 0)
      let flags := UInt16.ofNat (ofBeBytes (slice encoded 6 8))
      if flags ≠ 0 then .error (.unsupportedFlags flags)
      else do
        let fragment : UdpFragment :=
          { direction
            sessionId := Uuid.fromBytes (slice encoded 8 24)
            datagramId := UInt64.ofNat (ofBeBytes (slice encoded 24 32))
            fragmentIndex := UInt16.ofNat (ofBeBytes (slice encoded 32 34))
            fragmentCount := UInt16.ofNat (ofBeBytes (slice encoded 34 36))
            originalLength := UInt32.ofNat (ofBeBytes (slice encoded 36 40))
            payload := encoded.drop udpDatagramHeaderBytes }
        fragment.validate
        return fragment

/-- `slice::chunks`: consecutive pieces of `size` elements, the last one possibly shorter. -/
def chunks {α : Type*} (size : ℕ) (l : List α) : List (List α) :=
  (List.range (l.length ⌈/⌉ size)).map fun i => (l.drop (i * size)).take size

/-- Cut a datagram into frames of at most `maxFrameBytes` bytes. -/
def fragmentDatagram (direction : UdpDirection) (sessionId : Uuid) (datagramId : UInt64)
    (payload : List UInt8) (maxFrameBytes : ℕ) : Except UdpProtocolError (List (List UInt8)) :=
  if sessionId.isNil then .error .nilSessionId
  else if payload.length > maxUdpDatagramBytes then .error (.datagramTooLarge payload.length)
  else if maxFrameBytes ≤ udpDatagramHeaderBytes then .error .frameLimitTooSmall
  else
    let maxFragmentPayload := maxFrameBytes - udpDatagramHeaderBytes
    let fragmentCount := if payload = [] then 1 else payload.length ⌈/⌉ maxFragmentPayload
    if fragmentCount > maxUdpFragments.toNat then .error .tooManyFragments
    else if payload = [] then do
      let frame ← UdpFragment.encode
        { direction, sessionId, datagramId, fragmentIndex := 0, fragmentCount := 1
          originalLength := 0, payload := [] }
      return [frame]
    else
      (chunks maxFragmentPayload payload).zipIdx.mapM fun (chunk, index) => UdpFragment.encode
        { direction, sessionId, datagramId
          fragmentIndex := UInt16.ofNat index
          fragmentCount := UInt16.ofNat fragmentCount
          originalLength := UInt32.ofNat payload.length
          payload := chunk }

/-! ## What validation says -/

/-- The checks of `validateFragment`, as a property. -/
structure ValidFragment (fragment : UdpFragment) : Prop where
  session_ne : fragment.sessionId.isNil = false
  count_pos : 0 < fragment.fragmentCount.toNat
  count_le : fragment.fragmentCount.toNat ≤ 64
  index_lt : fragment.fragmentIndex.toNat < fragment.fragmentCount.toNat
  length_le : fragment.originalLength.toNat ≤ maxUdpDatagramBytes
  empty : fragment.originalLength.toNat = 0 →
    fragment.fragmentCount = 1 ∧ fragment.fragmentIndex = 0 ∧ fragment.payload = []
  nonempty : fragment.originalLength.toNat ≠ 0 → fragment.payload ≠ []
  payload_le : fragment.payload.length ≤ fragment.originalLength.toNat
  single : fragment.fragmentCount = 1 → fragment.payload.length = fragment.originalLength.toNat
  several : fragment.fragmentCount.toNat ≠ 1 →
    fragment.payload.length ≠ fragment.originalLength.toNat

theorem toNat_eq_zero_iff {n : UInt16} : n.toNat = 0 ↔ n = 0 := by
  rw [← UInt16.toNat_inj]
  rfl

theorem toNat_eq_one_iff {n : UInt16} : n.toNat = 1 ↔ n = 1 := by
  rw [← UInt16.toNat_inj]
  rfl

theorem validate_eq_ok_iff {fragment : UdpFragment} :
    fragment.validate = .ok () ↔ ValidFragment fragment := by
  have hmax : maxUdpFragments.toNat = 64 := rfl
  have hone' : (1 : UInt16).toNat = 1 := rfl
  have hcount : fragment.fragmentCount = 1 ↔ fragment.fragmentCount.toNat = 1 :=
    toNat_eq_one_iff.symm
  have hcount0 : fragment.fragmentCount = 0 ↔ fragment.fragmentCount.toNat = 0 :=
    toNat_eq_zero_iff.symm
  have hindex : fragment.fragmentIndex = 0 ↔ fragment.fragmentIndex.toNat = 0 :=
    toNat_eq_zero_iff.symm
  simp only [UdpFragment.validate, validateFragment, gt_iff_lt, ge_iff_le, ne_eq,
    UInt16.lt_iff_toNat_lt, UInt16.le_iff_toNat_le, hmax, hone', hcount, hcount0, hindex]
  constructor
  · intro h
    split_ifs at h with h1 h2 h3 h4 h5 h6 h7 h8 h9
    · have h6' : fragment.fragmentCount.toNat = 1 ∧ fragment.fragmentIndex.toNat = 0 ∧
          fragment.payload = [] := by tauto
      obtain ⟨hc, hi, hp⟩ := h6'
      exact ⟨by simpa using h1, by omega, by omega, by omega, by omega,
        fun _ => ⟨hcount.mpr hc, hindex.mpr hi, hp⟩, fun h => absurd h5 h,
        by simp [hp], fun _ => by simp [hp, h5], fun h => absurd hc h⟩
    · push Not at h7 h8 h9
      exact ⟨by simpa using h1, by omega, by omega, by omega, by omega,
        fun h => absurd h h5, fun _ => h7.1, by omega,
        fun h => h8 (hcount.mp h), fun h => h9 (by omega)⟩
  · rintro ⟨h1, h2, h3, h4, h5, h6, h7, h8, h9, h10⟩
    rw [if_neg (by simp [h1]), if_neg (by omega), if_neg (by omega), if_neg (by omega)]
    by_cases h0 : fragment.originalLength.toNat = 0
    · obtain ⟨hc, hi, hp⟩ := h6 h0
      rw [if_pos h0, if_neg (by simp [hp, hcount.mp hc, hindex.mp hi])]
    · have hne := h7 h0
      rw [if_neg h0, if_neg (by simp only [hne, false_or]; omega),
        if_neg (fun h => h.2 (h9 (hcount.mpr h.1))),
        if_neg (fun h => h10 (by omega) h.2)]

end LinkLake.Udp
