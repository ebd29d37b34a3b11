import LinkLake.Core.Socks5Fragment
import LinkLake.Core.UdpProtocol.Canonical
import LinkLake.Foundations.Utf8

/-!
# The SOCKS5 UDP envelope

The codec of the envelopes in which datagrams travel between a SOCKS5 client and the proxy
(`socks5_udp.rs`): reserved bytes, `FRAG`, a target in one of three forms, a port, and the rest is
payload. A `Decoder` keeps apart what the code rejects and what it would not survive: an access
outside of the input has no result at all.

* `stays_decodeSocks5UdpFragment`: the decoder never leaves its input.
* `decode_envelope` and `envelope_of_decode`: an envelope has one reading, and what is read has
  one spelling.
-/

namespace LinkLake.Socks5

open BigEndian
open Udp (slice)

inductive Socks5UdpError
  | tooShort
  | invalidReserved
  | fragmentationUnsupported
  | invalidFragmentSequence
  | unsupportedAddressType
  | invalidDomain
  | invalidPort
  | tooLarge
  deriving DecidableEq, Repr

/-! ## Decoding -/

/-- A result, or an error; `none` where the code would access a byte that is not there. -/
abbrev Decoder := ExceptT Socks5UdpError Option

/-- The byte at an index. -/
def byteAt (encoded : List UInt8) (index : ℕ) : Decoder UInt8 :=
  (encoded[index]?.map .ok : Option (Except Socks5UdpError UInt8))

/-- The bytes of a range. -/
def bytesAt (encoded : List UInt8) (start stop : ℕ) : Decoder (List UInt8) :=
  (if start ≤ stop ∧ stop ≤ encoded.length then some (.ok (slice encoded start stop)) else none :
    Option (Except Socks5UdpError (List UInt8)))

/-- The target of an envelope, and the index of its port. -/
def decodeTarget (encoded : List UInt8) : Decoder (Socks5UdpTarget × ℕ) := do
  let kind ← byteAt encoded 3
  if kind = 0x01 then
    if encoded.length < 10 then throw .tooShort
    else do
      let octets ← bytesAt encoded 4 8
      pure (.ip (.v4 (BitVec.ofNat 32 (ofBeBytes octets))), 8)
  else if kind = 0x03 then do
    let length ← byteAt encoded 4
    if length = 0 ∨ encoded.length < 5 + length.toNat + 2 then throw .tooShort
    else do
      let bytes ← bytesAt encoded 5 (5 + length.toNat)
      match Utf8.decode bytes with
      | none => throw .invalidDomain
      | some domain =>
        if validDomain (String.ofList domain) then
          pure (.domain (String.ofList domain), 5 + length.toNat)
        else throw .invalidDomain
  else if kind = 0x04 then
    if encoded.length < 22 then throw .tooShort
    else do
      let octets ← bytesAt encoded 4 20
      pure (.ip (.v6 (BitVec.ofNat 128 (ofBeBytes octets))), 20)
  else throw .unsupportedAddressType

def decodeSocks5UdpFragment (encoded : List UInt8) : Decoder Socks5UdpFragment := do
  if encoded.length < 7 then throw .tooShort
  else do
    let first ← byteAt encoded 0
    let second ← byteAt encoded 1
    if first ≠ 0 ∨ second ≠ 0 then throw .invalidReserved
    else do
      let fragmentByte ← byteAt encoded 2
      let sequence := fragmentByte &&& 0x7f
      let finalFragment := fragmentByte &&& 0x80 != 0
      if finalFragment ∧ sequence = 0 then throw .invalidFragmentSequence
      else do
        let (target, portOffset) ← decodeTarget encoded
        let high ← byteAt encoded portOffset
        let low ← byteAt encoded (portOffset + 1)
        let port := UInt16.ofNat (ofBeBytes [high, low])
        if port = 0 then throw .invalidPort
        else do
          let payload ← bytesAt encoded (portOffset + 2) encoded.length
          pure ⟨sequence.toNat, finalFragment, target, port, payload⟩

def decodeSocks5UdpDatagram (encoded : List UInt8) : Decoder Socks5UdpDatagram := do
  let fragment ← decodeSocks5UdpFragment encoded
  if fragment.sequence ≠ 0 ∨ fragment.finalFragment then throw .fragmentationUnsupported
  else pure ⟨fragment.target, fragment.port, fragment.payload⟩

/-! ## Encoding -/

/-- The type and the bytes of a target. -/
def encodeTarget : Socks5UdpTarget → List UInt8
  | .ip (.v4 octets) => 0x01 :: beBytes 4 octets.toNat
  | .ip (.v6 octets) => 0x04 :: beBytes 16 octets.toNat
  | .domain name => 0x03 :: UInt8.ofNat name.utf8ByteSize :: Utf8.encode name.toList

def encodeSocks5UdpDatagram (datagram : Socks5UdpDatagram) :
    Except Socks5UdpError (List UInt8) := do
  let headerBytes ← (socks5UdpEnvelopeHeaderLen datagram.target).elim (throw .invalidDomain) pure
  let total := headerBytes + datagram.payload.length
  if total > 65535 then throw .tooLarge
  else pure ([0, 0, 0] ++ (encodeTarget datagram.target ++
    (beBytes 2 datagram.port.toNat ++ datagram.payload)))

section Rules

variable {α β : Type} {x : Decoder α} {f : α → Decoder β} {encoded : List UInt8} {i : ℕ}

/-- The decoder accepts its input, as `a`. -/
def Accepts (x : Decoder α) (a : α) : Prop := x.run = some (.ok a)

/-- The decoder accesses nothing outside of its input. -/
def Stays (x : Decoder α) : Prop := ∃ result, x.run = some result

theorem accepts_pure {a b : α} : Accepts (pure a) b ↔ a = b := by
  simp [Accepts]

theorem not_accepts_throw {e : Socks5UdpError} {a : α} : ¬ Accepts (throw e) a := by
  simp [Accepts]

theorem accepts_bind {b : β} : Accepts (x >>= f) b ↔ ∃ a, Accepts x a ∧ Accepts (f a) b := by
  simp only [Accepts, ExceptT.run_bind]
  cases hx : x.run with
  | none => simp
  | some r => cases r <;> simp

theorem accepts_byteAt {b : UInt8} : Accepts (byteAt encoded i) b ↔ encoded[i]? = some b := by
  rw [Accepts, byteAt, ExceptT.run]
  cases encoded[i]? <;> simp

variable {bs : List UInt8}

theorem accepts_bytesAt {j : ℕ} : Accepts (bytesAt encoded i j) bs ↔
    i ≤ j ∧ j ≤ encoded.length ∧ slice encoded i j = bs := by
  rw [Accepts, bytesAt, ExceptT.run]
  split_ifs with h <;> simp [h]
  omega

theorem stays_pure (a : α) : Stays (pure a) := ⟨_, rfl⟩

theorem stays_throw (e : Socks5UdpError) : Stays (throw e : Decoder α) := ⟨_, rfl⟩

theorem Stays.bind (hx : Stays x) (hf : ∀ a, Accepts x a → Stays (f a)) : Stays (x >>= f) := by
  obtain ⟨r, hr⟩ := hx
  simp only [Stays, ExceptT.run_bind, hr]
  cases r with
  | error e => exact ⟨_, rfl⟩
  | ok a => exact hf a hr

theorem stays_byteAt (h : i < encoded.length) : Stays (byteAt encoded i) := by
  rw [Stays, byteAt, ExceptT.run, List.getElem?_eq_getElem h]
  exact ⟨_, rfl⟩

theorem stays_bytesAt {j : ℕ} (hij : i ≤ j) (hj : j ≤ encoded.length) :
    Stays (bytesAt encoded i j) := by
  rw [Stays, bytesAt, ExceptT.run, if_pos ⟨hij, hj⟩]
  exact ⟨_, rfl⟩

end Rules

/-! ## The decoder stays inside of its input -/

variable {d : Socks5UdpDatagram} {encoded : List UInt8} {k n offset : ℕ} {target : Socks5UdpTarget}
  {fragment : Socks5UdpFragment} {fragmentByte : UInt8} {port : UInt16} {name : String}

theorem stays_decodeTarget (h : 7 ≤ encoded.length) : Stays (decodeTarget encoded) := by
  rw [decodeTarget]
  refine (stays_byteAt (by omega)).bind fun kind _ => ?_
  split_ifs with hv4 hshort hdomain hv6 hshort
  · exact stays_throw _
  · exact (stays_bytesAt (by omega) (by omega)).bind fun _ _ => stays_pure _
  · refine (stays_byteAt (by omega)).bind fun length _ => ?_
    split_ifs with hlength
    · exact stays_throw _
    · refine (stays_bytesAt (by omega) (by omega)).bind fun bytes _ => ?_
      split
      · exact stays_throw _
      · split_ifs
        · exact stays_pure _
        · exact stays_throw _
  · exact stays_throw _
  · exact (stays_bytesAt (by omega) (by omega)).bind fun _ _ => stays_pure _
  · exact stays_throw _

/-! ## Targets -/

theorem utf8ByteSize_eq_length (s : String) : s.utf8ByteSize = (Utf8.encode s.toList).length := by
  have hlen : ∀ cs : List Char, String.utf8Len cs = (Utf8.encode cs).length := by
    intro cs
    induction cs with
    | nil => rfl
    | cons c cs ih => simp [Utf8.encode_cons, String.utf8Len, ih, Nat.add_comm]
  rw [← hlen, ← String.utf8ByteSize_ofList, String.ofList_toList]

theorem utf8ByteSize_of_validDomain (h : validDomain name = true) :
    0 < name.utf8ByteSize ∧ name.utf8ByteSize ≤ 253 := by
  simp only [validDomain, Bool.and_eq_true, Bool.not_eq_true', decide_eq_true_eq] at h
  refine ⟨?_, h.1.1.2⟩
  have hne := h.1.1.1
  rw [Nat.pos_iff_ne_zero]
  intro hzero
  simp [String.utf8ByteSize_eq_zero_iff.mp hzero] at hne

theorem headerLen_domain : socks5UdpEnvelopeHeaderLen (.domain name) = some n ↔
      validDomain name = true ∧ n = name.utf8ByteSize + 7 := by
  rw [socks5UdpEnvelopeHeaderLen]
  cases hvalid : validDomain name with
  | false => simp
  | true =>
    have := utf8ByteSize_of_validDomain hvalid
    rw [if_neg (by simp; omega)]
    simp only [Option.some.injEq, true_and]
    omega

theorem length_encodeTarget
    (h : socks5UdpEnvelopeHeaderLen target = some n) : (encodeTarget target).length + 5 = n := by
  cases target with
  | ip address =>
    cases address with
    | v4 octets =>
      obtain rfl : 3 + (1 + 4) + 2 = n := Option.some.inj h
      simp [encodeTarget]
    | v6 octets =>
      obtain rfl := Option.some.inj h
      simp [encodeTarget]
  | domain name =>
    obtain ⟨-, rfl⟩ := headerLen_domain.mp h
    simp [encodeTarget, utf8ByteSize_eq_length]

variable {bs : List UInt8}

theorem slice_eq_cons {b : UInt8} {i j : ℕ} (hij : i < j) (hj : j ≤ encoded.length) :
    slice encoded i j = b :: bs ↔ encoded[i]? = some b ∧ slice encoded (i + 1) j = bs := by
  have hi : i < encoded.length := by omega
  have hwidth : j - i = (j - (i + 1)) + 1 := by omega
  rw [slice, List.drop_eq_getElem_cons hi, hwidth, List.take_succ_cons, List.cons.injEq,
    List.getElem?_eq_getElem hi, Option.some.injEq, slice]

theorem beBytes_toNat_bitVec (h : bs.length = k) :
    beBytes k (BitVec.ofNat (8 * k) (ofBeBytes bs)).toNat = bs := by
  have hlt := ofBeBytes_lt bs
  rw [h, show (256 : ℕ) = 2 ^ 8 by norm_num, ← pow_mul] at hlt
  rw [BitVec.toNat_ofNat, Nat.mod_eq_of_lt hlt, ← h, beBytes_ofBeBytes]

theorem bitVec_ofBeBytes_beBytes (octets : BitVec (8 * k)) :
    BitVec.ofNat (8 * k) (ofBeBytes (beBytes k octets.toNat)) = octets := by
  have hlt : octets.toNat < 256 ^ k := by
    rw [show (256 : ℕ) = 2 ^ 8 by norm_num, ← pow_mul]
    exact octets.isLt
  rw [ofBeBytes_beBytes hlt, BitVec.ofNat_toNat, BitVec.setWidth_eq]

theorem slice_of_decodeTarget (h : Accepts (decodeTarget encoded) (target, offset)) :
    socks5UdpEnvelopeHeaderLen target = some (offset + 2) ∧ offset + 2 ≤ encoded.length ∧
      slice encoded 3 offset = encodeTarget target := by
  rw [decodeTarget] at h
  obtain ⟨kind, hkind, h⟩ := accepts_bind.mp h
  rw [accepts_byteAt] at hkind
  split_ifs at h with hv4 hshort hdomain hv6 hshort
  · exact absurd h not_accepts_throw
  · obtain ⟨octets, hoctets, h⟩ := accepts_bind.mp h
    obtain ⟨-, -, rfl⟩ := accepts_bytesAt.mp hoctets
    obtain ⟨rfl, rfl⟩ := Prod.mk.inj (accepts_pure.mp h)
    refine ⟨rfl, by omega, (slice_eq_cons (by omega) (by omega)).mpr ⟨hv4 ▸ hkind, ?_⟩⟩
    exact (beBytes_toNat_bitVec (k := 4) (Udp.length_slice (by omega))).symm
  · obtain ⟨length, hlength, h⟩ := accepts_bind.mp h
    rw [accepts_byteAt] at hlength
    split_ifs at h with hshort
    · exact absurd h not_accepts_throw
    obtain ⟨bytes, hbytes, h⟩ := accepts_bind.mp h
    obtain ⟨-, -, rfl⟩ := accepts_bytesAt.mp hbytes
    split at h
    · exact absurd h not_accepts_throw
    rename_i domain hutf8
    split_ifs at h with hvalid
    · obtain ⟨rfl, rfl⟩ := Prod.mk.inj (accepts_pure.mp h)
      have hencode := Utf8.encode_of_decode hutf8
      have hsize : (String.ofList domain).utf8ByteSize = length.toNat := by
        rw [utf8ByteSize_eq_length, String.toList_ofList, hencode, Udp.length_slice (by omega)]
        omega
      refine ⟨headerLen_domain.mpr ⟨hvalid, by omega⟩, by omega, ?_⟩
      rw [encodeTarget, slice_eq_cons (by omega) (by omega), slice_eq_cons (by omega) (by omega),
        hsize, UInt8.ofNat_toNat, String.toList_ofList, hencode]
      exact ⟨hdomain ▸ hkind, hlength, rfl⟩
    · exact absurd h not_accepts_throw
  · exact absurd h not_accepts_throw
  · obtain ⟨octets, hoctets, h⟩ := accepts_bind.mp h
    obtain ⟨-, -, rfl⟩ := accepts_bytesAt.mp hoctets
    obtain ⟨rfl, rfl⟩ := Prod.mk.inj (accepts_pure.mp h)
    refine ⟨rfl, by omega, (slice_eq_cons (by omega) (by omega)).mpr ⟨hv6 ▸ hkind, ?_⟩⟩
    exact (beBytes_toNat_bitVec (k := 16) (Udp.length_slice (by omega))).symm
  · exact absurd h not_accepts_throw

theorem decodeTarget_of_slice (hheader : socks5UdpEnvelopeHeaderLen target = some (offset + 2))
    (hlength : offset + 2 ≤ encoded.length) (hslice : slice encoded 3 offset = encodeTarget target) :
    Accepts (decodeTarget encoded) (target, offset) := by
  rw [decodeTarget, accepts_bind]
  cases target with
  | ip address =>
    cases address with
    | v4 octets =>
      obtain rfl : 8 = offset := Nat.add_right_cancel (Option.some.inj hheader)
      obtain ⟨hkind, hoctets⟩ := (slice_eq_cons (by omega) (by omega)).mp hslice
      refine ⟨0x01, accepts_byteAt.mpr hkind, ?_⟩
      rw [if_pos rfl, if_neg (by omega), accepts_bind]
      refine ⟨_, accepts_bytesAt.mpr ⟨by omega, by omega, hoctets⟩, accepts_pure.mpr ?_⟩
      rw [show BitVec.ofNat 32 (ofBeBytes (beBytes 4 octets.toNat)) = octets from
        bitVec_ofBeBytes_beBytes (k := 4) octets]
    | v6 octets =>
      obtain rfl : 20 = offset := Nat.add_right_cancel (Option.some.inj hheader)
      obtain ⟨hkind, hoctets⟩ := (slice_eq_cons (by omega) (by omega)).mp hslice
      refine ⟨0x04, accepts_byteAt.mpr hkind, ?_⟩
      rw [if_neg (by decide), if_neg (by decide), if_pos rfl, if_neg (by omega), accepts_bind]
      refine ⟨_, accepts_bytesAt.mpr ⟨by omega, by omega, hoctets⟩, accepts_pure.mpr ?_⟩
      rw [show BitVec.ofNat 128 (ofBeBytes (beBytes 16 octets.toNat)) = octets from
        bitVec_ofBeBytes_beBytes (k := 16) octets]
  | domain name =>
    obtain ⟨hvalid, hoffset⟩ := headerLen_domain.mp hheader
    have hsize := utf8ByteSize_of_validDomain hvalid
    have htoNat := UInt8.toNat_ofNat_of_lt' (hsize.2.trans_lt (by decide))
    obtain ⟨hkind, hrest⟩ := (slice_eq_cons (by omega) (by omega)).mp hslice
    obtain ⟨hcount, hname⟩ := (slice_eq_cons (by omega) (by omega)).mp hrest
    refine ⟨0x03, accepts_byteAt.mpr hkind, ?_⟩
    rw [if_neg (by decide), if_pos rfl, accepts_bind]
    refine ⟨_, accepts_byteAt.mpr hcount, ?_⟩
    have hne : UInt8.ofNat name.utf8ByteSize ≠ 0 := by
      intro hzero
      rw [hzero] at htoNat
      simp at htoNat
      omega
    rw [htoNat, if_neg (by simp only [hne, false_or]; omega), accepts_bind]
    obtain rfl : offset = 5 + name.utf8ByteSize := by omega
    refine ⟨_, accepts_bytesAt.mpr ⟨by omega, by omega, hname⟩, ?_⟩
    simp only [Utf8.decode_encode, String.ofList_toList, hvalid, if_true]
    exact accepts_pure.mpr rfl

/-! ## Envelopes -/

/-- An envelope with its payload. -/
def envelope (fragmentByte : UInt8) (target : Socks5UdpTarget) (port : UInt16)
    (payload : List UInt8) : List UInt8 :=
  0 :: 0 :: fragmentByte :: (encodeTarget target ++ (beBytes 2 port.toNat ++ payload))

theorem length_envelope {payload : List UInt8} (h : socks5UdpEnvelopeHeaderLen target = some n) :
    (envelope fragmentByte target port payload).length = n + payload.length := by
  have := length_encodeTarget h
  simp only [envelope, List.length_cons, List.length_append, length_beBytes]
  omega

theorem beBytes_two_eq {high low : UInt8} :
    beBytes 2 (UInt16.ofNat (ofBeBytes [high, low])).toNat = [high, low] :=
  Udp.beBytes_toNat_uint16 rfl

theorem stays_decodeSocks5UdpFragment (encoded : List UInt8) :
    Stays (decodeSocks5UdpFragment encoded) := by
  rw [decodeSocks5UdpFragment]
  split_ifs with hshort
  · exact stays_throw _
  refine (stays_byteAt (by omega)).bind fun first _ => ?_
  refine (stays_byteAt (by omega)).bind fun second _ => ?_
  split_ifs
  · exact stays_throw _
  refine (stays_byteAt (by omega)).bind fun fragmentByte _ => ?_
  dsimp only
  split_ifs
  · exact stays_throw _
  refine (stays_decodeTarget (by omega)).bind fun (target, offset) htarget => ?_
  -- the port lies inside, because the target was accepted
  obtain ⟨-, hlength, -⟩ := slice_of_decodeTarget htarget
  refine (stays_byteAt (by omega)).bind fun high _ => ?_
  refine (stays_byteAt (by omega)).bind fun low _ => ?_
  dsimp only
  split_ifs
  · exact stays_throw _
  · exact (stays_bytesAt hlength le_rfl).bind fun _ _ => stays_pure _

theorem envelope_of_decode
    (h : Accepts (decodeSocks5UdpFragment encoded) fragment) : ∃ fragmentByte : UInt8,
      encoded = envelope fragmentByte fragment.target fragment.port fragment.payload ∧
      fragment.sequence = (fragmentByte &&& 0x7f).toNat ∧
      fragment.finalFragment = (fragmentByte &&& 0x80 != 0) ∧
      (fragment.finalFragment = true → fragment.sequence ≠ 0) ∧
      (∃ n, socks5UdpEnvelopeHeaderLen fragment.target = some n) ∧ fragment.port ≠ 0 := by
  rw [decodeSocks5UdpFragment] at h
  split_ifs at h with hshort
  · exact absurd h not_accepts_throw
  obtain ⟨first, hfirst, h⟩ := accepts_bind.mp h
  obtain ⟨second, hsecond, h⟩ := accepts_bind.mp h
  split_ifs at h with hreserved
  · exact absurd h not_accepts_throw
  obtain ⟨fragmentByte, hbyte, h⟩ := accepts_bind.mp h
  dsimp only at h
  split_ifs at h with hsequence
  · exact absurd h not_accepts_throw
  obtain ⟨⟨target, offset⟩, htarget, h⟩ := accepts_bind.mp h
  obtain ⟨high, hhigh, h⟩ := accepts_bind.mp h
  obtain ⟨low, hlow, h⟩ := accepts_bind.mp h
  dsimp only at h
  split_ifs at h with hport
  · exact absurd h not_accepts_throw
  obtain ⟨payload, hpayload, h⟩ := accepts_bind.mp h
  obtain rfl := accepts_pure.mp h
  obtain ⟨hheader, hlength, hslice⟩ := slice_of_decodeTarget htarget
  obtain ⟨-, -, rfl⟩ := accepts_bytesAt.mp hpayload
  rw [accepts_byteAt] at hfirst hsecond hbyte hhigh hlow
  rw [not_or, not_not, not_not] at hreserved
  obtain ⟨rfl, rfl⟩ := hreserved
  refine ⟨fragmentByte, ?_, rfl, rfl, ?_, ⟨_, hheader⟩, hport⟩
  · -- the fields lie next to each other
    have hthree : 3 ≤ offset := by
      have := length_encodeTarget hheader
      omega
    have hhead : slice encoded 0 3 = [0, 0, fragmentByte] := by
      rw [slice_eq_cons (by omega) (by omega), slice_eq_cons (by omega) (by omega),
        slice_eq_cons (by omega) (by omega)]
      exact ⟨hfirst, hsecond, hbyte, by simp [slice]⟩
    have hword : slice encoded offset (offset + 2) = [high, low] := by
      rw [slice_eq_cons (by omega) (by omega), slice_eq_cons (by omega) (by omega)]
      exact ⟨hhigh, hlow, by simp [slice]⟩
    have hrest : slice encoded (offset + 2) encoded.length = encoded.drop (offset + 2) := by
      rw [slice, List.take_of_length_le (by rw [List.length_drop])]
    calc encoded = slice encoded 0 3 ++ (slice encoded 3 offset ++
          (slice encoded offset (offset + 2) ++ encoded.drop (offset + 2))) := by
          rw [Udp.slice_append_drop encoded (Nat.le_add_right _ _),
            Udp.slice_append_drop encoded hthree, Udp.slice_append_drop encoded (Nat.zero_le 3),
            List.drop_zero]
      _ = _ := by rw [hhead, hslice, hword, hrest, envelope, beBytes_two_eq]; rfl
  · intro hfinal hzero
    exact hsequence ⟨hfinal, UInt8.toNat_inj.mp hzero⟩

theorem slice_envelope (fragmentByte : UInt8) (port : UInt16)
    (payload : List UInt8) (hk : (encodeTarget target).length = k) :
    slice (envelope fragmentByte target port payload) 3 (k + 3) = encodeTarget target ∧
      slice (envelope fragmentByte target port payload) (k + 3) (k + 5) = beBytes 2 port.toNat ∧
      slice (envelope fragmentByte target port payload) (k + 5) (k + 5 + payload.length) =
        payload := by
  have hsplit : envelope fragmentByte target port payload = [0, 0, fragmentByte] ++
      (encodeTarget target ++ (beBytes 2 port.toNat ++ payload)) := rfl
  have hthree : [0, 0, fragmentByte].length = 3 := rfl
  have htwo : (beBytes 2 port.toNat).length = 2 := length_beBytes _ _
  rw [hsplit]
  refine ⟨?_, ?_, ?_⟩
  · rw [Udp.slice_append_of_le hthree le_rfl]
    exact Udp.slice_append_left hk
  · rw [Udp.slice_append_of_le hthree (by omega), Udp.slice_append_of_le hk (by omega),
      show k + 3 - 3 - k = 0 by omega]
    exact Udp.slice_append_left (by omega)
  · rw [Udp.slice_append_of_le hthree (by omega), Udp.slice_append_of_le hk (by omega),
      Udp.slice_append_of_le htwo (by omega), show k + 5 - 3 - k - 2 = 0 by omega, slice,
      List.drop_zero, List.take_of_length_le (by omega)]

theorem decode_envelope
    (payload : List UInt8) (hheader : socks5UdpEnvelopeHeaderLen target = some n) (hport : port ≠ 0)
    (hsequence : (fragmentByte &&& 0x80 != 0) = true → fragmentByte &&& 0x7f ≠ 0) :
    Accepts (decodeSocks5UdpFragment (envelope fragmentByte target port payload))
      ⟨(fragmentByte &&& 0x7f).toNat, fragmentByte &&& 0x80 != 0, target, port, payload⟩ := by
  have hlength : (envelope fragmentByte target port payload).length = n + payload.length :=
    length_envelope hheader
  obtain ⟨k, hk⟩ : ∃ k, (encodeTarget target).length = k := ⟨_, rfl⟩
  have hn : k + 5 = n := hk ▸ length_encodeTarget hheader
  have hpos : 2 ≤ k := by
    rw [← hk]
    cases target with
    | ip address => cases address <;> simp [encodeTarget]
    | domain name => simp [encodeTarget]
  obtain ⟨htarget, hword, hpayload⟩ := slice_envelope fragmentByte port payload hk
  obtain ⟨high, low, hbytes⟩ := List.length_eq_two.mp (length_beBytes _ _)
  have hnumber : UInt16.ofNat (ofBeBytes [high, low]) = port := by
    rw [← hbytes, ofBeBytes_beBytes port.toNat_lt, UInt16.ofNat_toNat]
  rw [hbytes, slice_eq_cons (by omega) (by omega), slice_eq_cons (by omega) (by omega)] at hword
  obtain ⟨hhigh, hlow, -⟩ := hword
  rw [decodeSocks5UdpFragment, if_neg (by omega)]
  refine accepts_bind.mpr ⟨0, accepts_byteAt.mpr rfl, ?_⟩
  refine accepts_bind.mpr ⟨0, accepts_byteAt.mpr rfl, ?_⟩
  rw [if_neg (by simp)]
  refine accepts_bind.mpr ⟨fragmentByte, accepts_byteAt.mpr rfl, ?_⟩
  rw [if_neg (fun h => hsequence h.1 h.2)]
  refine accepts_bind.mpr ⟨(target, k + 3), decodeTarget_of_slice (by rw [hheader, ← hn]) (by omega)
    htarget, ?_⟩
  refine accepts_bind.mpr ⟨high, accepts_byteAt.mpr hhigh, ?_⟩
  refine accepts_bind.mpr ⟨low, accepts_byteAt.mpr hlow, ?_⟩
  rw [hnumber, if_neg hport]
  refine accepts_bind.mpr ⟨payload, accepts_bytesAt.mpr ⟨by omega, le_rfl, ?_⟩, accepts_pure.mpr rfl⟩
  rw [hlength, ← hn]
  exact hpayload

/-! ## Datagrams -/

theorem fragmentByte_eq_zero {b : UInt8} (hsequence : b &&& 0x7f = 0)
    (hfinal : (b &&& 0x80 != 0) = false) : b = 0 := by
  have table : ∀ i : Fin 256, UInt8.ofNat i &&& 0x7f = 0 → (UInt8.ofNat i &&& 0x80 != 0) = false →
      UInt8.ofNat i = 0 := by decide +kernel
  have := table ⟨b.toNat, b.toNat_lt⟩
  simp only [UInt8.ofNat_toNat] at this
  exact this hsequence hfinal

theorem exists_accepts_iff :
    (∃ encoded, Accepts (decodeSocks5UdpFragment encoded) fragment) ↔
      fragment.sequence < 128 ∧ (fragment.finalFragment = true → fragment.sequence ≠ 0) ∧
        (socks5UdpEnvelopeHeaderLen fragment.target).isSome = true ∧ fragment.port ≠ 0 := by
  constructor
  · rintro ⟨encoded, h⟩
    obtain ⟨b, -, hsequence, -, hfinal, ⟨n, hheader⟩, hport⟩ := envelope_of_decode h
    have table : ∀ i : Fin 256, (UInt8.ofNat i &&& 0x7f).toNat < 128 := by decide +kernel
    have hlt := table ⟨b.toNat, b.toNat_lt⟩
    simp only [UInt8.ofNat_toNat] at hlt
    exact ⟨by omega, hfinal, by simp [hheader], hport⟩
  · rintro ⟨hsequence, hfinal, hheader, hport⟩
    obtain ⟨n, hheader⟩ := Option.isSome_iff_exists.mp hheader
    -- `FRAG` is the sequence number, with the high bit for the final fragment
    have table : ∀ (i : Fin 128) (final : Bool),
        UInt8.ofNat (i + if final then 128 else 0) &&& 0x7f = UInt8.ofNat i ∧
        (UInt8.ofNat (i + if final then 128 else 0) &&& 0x80 != 0) = final := by decide +kernel
    obtain ⟨b, hseven, hhigh⟩ : ∃ b : UInt8, b &&& 0x7f = UInt8.ofNat fragment.sequence ∧
        (b &&& 0x80 != 0) = fragment.finalFragment :=
      ⟨_, table ⟨fragment.sequence, hsequence⟩ fragment.finalFragment⟩
    have hnumber := UInt8.toNat_ofNat_of_lt' (hsequence.trans (by decide))
    have hnonzero : (b &&& 0x80 != 0) = true → b &&& 0x7f ≠ 0 := by
      rw [hseven, hhigh]
      intro hflag hzero
      apply hfinal hflag
      rw [← hnumber, hzero]
      rfl
    have hdecode := decode_envelope fragment.payload hheader hport hnonzero
    rw [hseven, hhigh, hnumber] at hdecode
    exact ⟨_, hdecode⟩

theorem encode_eq_ok : encodeSocks5UdpDatagram d = .ok encoded ↔
      ∃ n, socks5UdpEnvelopeHeaderLen d.target = some n ∧ n + d.payload.length ≤ 65535 ∧
        encoded = envelope 0 d.target d.port d.payload := by
  rw [encodeSocks5UdpDatagram]
  cases hheader : socks5UdpEnvelopeHeaderLen d.target with
  | none => simp [throw, throwThe, MonadExceptOf.throw, bind, Except.bind]
  | some n =>
    simp only [Option.elim, pure_bind, Option.some.injEq, exists_eq_left']
    split_ifs with hlarge
    · simp
      omega
    · rw [Fallible.pure_eq_ok]
      exact ⟨fun h => ⟨by omega, h.symm⟩, fun h => h.2.symm⟩

theorem accepts_decodeSocks5UdpDatagram : Accepts (decodeSocks5UdpDatagram encoded) d ↔
      Accepts (decodeSocks5UdpFragment encoded) ⟨0, false, d.target, d.port, d.payload⟩ := by
  rw [decodeSocks5UdpDatagram, accepts_bind]
  constructor
  · rintro ⟨fragment, hfragment, h⟩
    split_ifs at h with hfrag
    · exact absurd h not_accepts_throw
    obtain rfl := accepts_pure.mp h
    rw [not_or, not_not, Bool.not_eq_true] at hfrag
    obtain ⟨hsequence, hfinal⟩ := hfrag
    obtain ⟨sequence, final, target, port, payload⟩ := fragment
    obtain rfl : sequence = 0 := hsequence
    obtain rfl : final = false := hfinal
    exact hfragment
  · intro h
    refine ⟨_, h, ?_⟩
    rw [if_neg (by simp)]
    exact accepts_pure.mpr rfl

theorem decode_encode (hport : d.port ≠ 0) (h : encodeSocks5UdpDatagram d = .ok encoded) :
    Accepts (decodeSocks5UdpDatagram encoded) d := by
  obtain ⟨n, hheader, -, rfl⟩ := encode_eq_ok.mp h
  exact accepts_decodeSocks5UdpDatagram.mpr (decode_envelope d.payload hheader hport (by simp))

/-- **The envelope codec is a bijection.** What is encoded with a port is decoded to itself; what is
decoded from at most 65535 bytes is encoded to the same bytes; no input makes the decoder leave it;
and an encoding is as long as the envelope of its target and the payload. -/
theorem envelope_round_trip :
    (∀ (d : Socks5UdpDatagram) (encoded : List UInt8), d.port ≠ 0 →
      encodeSocks5UdpDatagram d = .ok encoded → Accepts (decodeSocks5UdpDatagram encoded) d) ∧
    (∀ (encoded : List UInt8) (d : Socks5UdpDatagram), encoded.length ≤ 65535 →
      Accepts (decodeSocks5UdpDatagram encoded) d → encodeSocks5UdpDatagram d = .ok encoded) ∧
    (∀ encoded : List UInt8, Stays (decodeSocks5UdpFragment encoded)) ∧
    ∀ (d : Socks5UdpDatagram) (encoded : List UInt8), encodeSocks5UdpDatagram d = .ok encoded →
      ∃ n, socks5UdpEnvelopeHeaderLen d.target = some n ∧
        encoded.length = n + d.payload.length := by
  refine ⟨fun d encoded => decode_encode, ?_, stays_decodeSocks5UdpFragment, ?_⟩
  · intro encoded d hlength h
    obtain ⟨fragmentByte, hencoded, hsequence, hfinal, -, ⟨n, hheader⟩, -⟩ :=
      envelope_of_decode (accepts_decodeSocks5UdpDatagram.mp h)
    obtain rfl : fragmentByte = 0 :=
      fragmentByte_eq_zero (UInt8.toNat_inj.mp hsequence.symm) hfinal.symm
    rw [hencoded, length_envelope hheader] at hlength
    exact encode_eq_ok.mpr ⟨n, hheader, hlength, hencoded⟩
  · intro d encoded h
    obtain ⟨n, hheader, -, rfl⟩ := encode_eq_ok.mp h
    exact ⟨n, hheader, length_envelope hheader⟩

/-- A query to a name server, by name. -/
theorem envelope_round_trip_query : Accepts
    (decodeSocks5UdpDatagram [0, 0, 0, 3, 4, 110, 115, 46, 97, 0, 53, 1, 2])
      ⟨.domain "ns.a", 53, [1, 2]⟩ ∧
    encodeSocks5UdpDatagram ⟨.domain "ns.a", 53, [1, 2]⟩ =
      .ok [0, 0, 0, 3, 4, 110, 115, 46, 97, 0, 53, 1, 2] := by
  have hencode : encodeSocks5UdpDatagram ⟨.domain "ns.a", 53, [1, 2]⟩ =
      .ok [0, 0, 0, 3, 4, 110, 115, 46, 97, 0, 53, 1, 2] := by decide +kernel
  have hdecode := envelope_round_trip.1 _ _ (by decide) hencode
  exact ⟨hdecode, envelope_round_trip.2.1 _ _ (by decide) hdecode⟩

end LinkLake.Socks5
