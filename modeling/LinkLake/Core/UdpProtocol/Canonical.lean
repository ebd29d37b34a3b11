import LinkLake.Core.UdpProtocol.RoundTrip

/-!
# LLUD frames are canonical

A frame that decodes is the encoding of the fragment it decodes to (`encode_decode`): the fields
lie next to each other from the first byte to the last, and each has one spelling. With
`decode_encode` the codec is a bijection between the valid fragments and the frames that decode.
The splitter stays inside it: its frames are at most as long as allowed, and at most
`maxUdpFragments` of them.
-/

namespace LinkLake.Udp

open BigEndian Fallible

section Slices

variable {b : List UInt8} {i j : ℕ}

theorem slice_append_drop (b : List UInt8) (h : i ≤ j) : slice b i j ++ b.drop j = b.drop i := by
  have hdrop : b.drop j = (b.drop i).drop (j - i) := by
    rw [List.drop_drop, Nat.add_sub_cancel' h]
  rw [slice, hdrop, List.take_append_drop]

theorem length_slice (h : j ≤ b.length) : (slice b i j).length = j - i := by
  rw [slice, List.length_take, List.length_drop]
  omega

theorem slice_succ (h : i < b.length) : slice b i (i + 1) = [b.getD i 0] := by
  rw [slice, Nat.add_sub_cancel_left, List.drop_eq_getElem_cons h, List.getD_eq_getElem b 0 h]
  rfl

end Slices

/-! The bytes of a word are recovered from the word they spell. -/

section Words

variable {bs : List UInt8}

theorem beBytes_toNat_uint16 (h : bs.length = 2) :
    beBytes 2 (UInt16.ofNat (ofBeBytes bs)).toNat = bs := by
  have hlt := ofBeBytes_lt bs
  rw [h] at hlt
  rw [UInt16.toNat_ofNat_of_lt' hlt, ← h, beBytes_ofBeBytes]

theorem beBytes_toNat_uint32 (h : bs.length = 4) :
    beBytes 4 (UInt32.ofNat (ofBeBytes bs)).toNat = bs := by
  have hlt := ofBeBytes_lt bs
  rw [h] at hlt
  rw [UInt32.toNat_ofNat_of_lt' hlt, ← h, beBytes_ofBeBytes]

theorem beBytes_toNat_uint64 (h : bs.length = 8) :
    beBytes 8 (UInt64.ofNat (ofBeBytes bs)).toNat = bs := by
  have hlt := ofBeBytes_lt bs
  rw [h] at hlt
  rw [UInt64.toNat_ofNat_of_lt' hlt, ← h, beBytes_ofBeBytes]

theorem asBytes_fromBytes (h : bs.length = 16) : (Uuid.fromBytes bs).asBytes = bs := by
  have hlt := ofBeBytes_lt bs
  rw [h, show 256 ^ 16 = 2 ^ 128 by norm_num] at hlt
  rw [Uuid.asBytes, Uuid.fromBytes, Uuid.fromU128, BitVec.toNat_ofNat, Nat.mod_eq_of_lt hlt, ← h,
    beBytes_ofBeBytes]

end Words

theorem toU8_of_tryFrom {value : UInt8} {d : UdpDirection}
    (h : UdpDirection.tryFrom value = .ok d) : d.toU8 = value := by
  rw [UdpDirection.tryFrom] at h
  split_ifs at h with h1 h2
  · rw [h1, ← Except.ok.inj h]
    rfl
  · rw [h2, ← Except.ok.inj h]
    rfl

theorem frame_eq_append (f : UdpFragment) :
    frame f = udpDatagramMagic ++ ([udpDatagramVersion] ++ ([f.direction.toU8] ++
      (beBytes 2 0 ++ frameBody f))) := by
  have hflags : beBytes 2 0 = [0, 0] := rfl
  simp [frame, udpDatagramMagic, udpDatagramVersion, hflags]

/-! ## The codec -/

variable {f : UdpFragment} {b : List UInt8}

theorem decode_eq_ok (h : UdpFragment.decode b = .ok f) :
    40 ≤ b.length ∧ slice b 0 4 = udpDatagramMagic ∧ b.getD 4 0 = udpDatagramVersion ∧
      UdpDirection.tryFrom (b.getD 5 0) = .ok f.direction ∧
      UInt16.ofNat (ofBeBytes (slice b 6 8)) = 0 ∧
      f = { direction := f.direction
            sessionId := Uuid.fromBytes (slice b 8 24)
            datagramId := UInt64.ofNat (ofBeBytes (slice b 24 32))
            fragmentIndex := UInt16.ofNat (ofBeBytes (slice b 32 34))
            fragmentCount := UInt16.ofNat (ofBeBytes (slice b 34 36))
            originalLength := UInt32.ofNat (ofBeBytes (slice b 36 40))
            payload := b.drop 40 } ∧
      ValidFragment f := by
  rw [UdpFragment.decode] at h
  split_ifs at h with hshort hmagic
  dsimp only at h
  split_ifs at h with hversion hflags
  · obtain ⟨_, _, h⟩ := bind_eq_ok.mp h
    cases h
  obtain ⟨direction, hdirection, h⟩ := bind_eq_ok.mp h
  obtain ⟨u, hvalid, h⟩ := bind_eq_ok.mp h
  cases h
  exact ⟨not_lt.mp hshort, not_not.mp hmagic, not_not.mp hversion, hdirection, not_not.mp hflags,
    rfl, validate_eq_ok_iff.mp hvalid⟩

/-- **A frame that decodes is the frame of what it decodes to.** -/
theorem frame_of_decode (h : UdpFragment.decode b = .ok f) : frame f = b := by
  obtain ⟨hlength, hmagic, hversion, hdirection, hflags, hf, -⟩ := decode_eq_ok h
  have hzero : beBytes 2 0 = slice b 6 8 := by
    have := beBytes_toNat_uint16 (length_slice (b := b) (i := 6) (j := 8) (by omega))
    rwa [hflags] at this
  have hsession : f.sessionId.asBytes = slice b 8 24 := by
    rw [hf]
    exact asBytes_fromBytes (length_slice (by omega))
  have hid : beBytes 8 f.datagramId.toNat = slice b 24 32 := by
    rw [hf]
    exact beBytes_toNat_uint64 (length_slice (by omega))
  have hindex : beBytes 2 f.fragmentIndex.toNat = slice b 32 34 := by
    rw [hf]
    exact beBytes_toNat_uint16 (length_slice (by omega))
  have hcount : beBytes 2 f.fragmentCount.toNat = slice b 34 36 := by
    rw [hf]
    exact beBytes_toNat_uint16 (length_slice (by omega))
  have horiginal : beBytes 4 f.originalLength.toNat = slice b 36 40 := by
    rw [hf]
    exact beBytes_toNat_uint32 (length_slice (by omega))
  have hpayload : f.payload = b.drop 40 := by rw [hf]
  rw [frame_eq_append, frameBody, ← hmagic, ← hversion, toU8_of_tryFrom hdirection, hzero, hsession,
    hid, hindex, hcount, horiginal, hpayload, ← slice_succ (by omega), ← slice_succ (by omega)]
  -- the fields lie next to each other
  simp only [slice_append_drop b (Nat.le_succ 4), slice_append_drop b (Nat.le_succ 5),
    slice_append_drop b (show 0 ≤ 4 by omega), slice_append_drop b (show 6 ≤ 8 by omega),
    slice_append_drop b (show 8 ≤ 24 by omega), slice_append_drop b (show 24 ≤ 32 by omega),
    slice_append_drop b (show 32 ≤ 34 by omega), slice_append_drop b (show 34 ≤ 36 by omega),
    slice_append_drop b (show 36 ≤ 40 by omega), List.drop_zero]

theorem encode_decode (h : UdpFragment.decode b = .ok f) : f.encode = .ok b := by
  obtain ⟨-, -, -, -, -, -, hvalid⟩ := decode_eq_ok h
  exact encode_eq_ok_iff.mpr ⟨hvalid, (frame_of_decode h).symm⟩

/-! ## The splitter -/

theorem length_frame (f : UdpFragment) :
    (frame f).length = udpDatagramHeaderBytes + f.payload.length := by
  simp only [frame, frameBody, List.length_cons, List.length_append, length_beBytes,
    Uuid.length_asBytes, udpDatagramHeaderBytes]
  omega

theorem length_le_of_mem_chunks {α : Type*} {size : ℕ} {l chunk : List α}
    (h : chunk ∈ chunks size l) : chunk.length ≤ size := by
  obtain ⟨i, -, rfl⟩ := List.mem_map.mp h
  exact List.length_take_le _ _

theorem length_le_of_fragmentDatagram {direction : UdpDirection} {sessionId : Uuid}
    {datagramId : UInt64} {payload : List UInt8} {maxFrameBytes : ℕ} {frames : List (List UInt8)}
    (h : fragmentDatagram direction sessionId datagramId payload maxFrameBytes = .ok frames) :
    frames.length ≤ 64 ∧ ∀ b ∈ frames, b.length ≤ maxFrameBytes := by
  simp only [fragmentDatagram] at h
  split_ifs at h with hnil hlarge hsmall hempty hmany hmany
  · obtain ⟨b, hb, h⟩ := bind_eq_ok.mp h
    cases h
    obtain ⟨-, rfl⟩ := encode_eq_ok_iff.mp hb
    refine ⟨by simp, ?_⟩
    intro b hb
    rw [List.mem_singleton.mp hb, length_frame]
    simp only [List.length_nil]
    omega
  · have hlength := (mapM_eq_ok_iff.mp h).length_eq
    rw [List.length_zipIdx, length_chunks] at hlength
    refine ⟨?_, ?_⟩
    · have hmax : maxUdpFragments.toNat = 64 := rfl
      omega
    · intro b hb
      obtain ⟨⟨chunk, index⟩, hmem, hencode⟩ := exists_mem_of_ok h hb
      obtain ⟨-, rfl⟩ := encode_eq_ok_iff.mp hencode
      have hchunk : chunk.length ≤ maxFrameBytes - udpDatagramHeaderBytes :=
        length_le_of_mem_chunks (List.fst_mem_of_mem_zipIdx hmem)
      rw [length_frame]
      show udpDatagramHeaderBytes + chunk.length ≤ maxFrameBytes
      omega

section Splits

variable {direction : UdpDirection} {sessionId : Uuid} {datagramId : UInt64} {payload : List UInt8}

/-- What `fragmentDatagram` accepts. -/
structure Splittable (sessionId : Uuid) (payload : List UInt8) (maxFrameBytes : ℕ) : Prop where
  session : sessionId.isNil = false
  length : payload.length ≤ maxUdpDatagramBytes
  frame : udpDatagramHeaderBytes < maxFrameBytes
  count : payload.length ≤ (maxFrameBytes - udpDatagramHeaderBytes) * 64

theorem validFragment_chunk {size index : ℕ} {chunk : List UInt8} (hsize : 0 < size)
    (hsession : sessionId.isNil = false) (hlength : payload.length ≤ maxUdpDatagramBytes)
    (hcount : payload.length ⌈/⌉ size ≤ 64) (hmem : (chunk, index) ∈ (chunks size payload).zipIdx) :
    ValidFragment {
      direction, sessionId, datagramId, fragmentIndex := UInt16.ofNat index
      fragmentCount := UInt16.ofNat (payload.length ⌈/⌉ size)
      originalLength := UInt32.ofNat payload.length, payload := chunk } := by
  rw [List.mk_mem_zipIdx_iff_getElem?, chunks, List.getElem?_map] at hmem
  obtain ⟨i, hi, rfl⟩ := Option.map_eq_some_iff.mp hmem
  obtain ⟨hlt, rfl⟩ : index < payload.length ⌈/⌉ size ∧ index = i := by
    simpa [List.getElem?_eq_some_iff] using hi
  have hstart : size * index < payload.length := by
    by_contra hle
    exact absurd ((ceilDiv_le_iff_le_mul hsize).mpr (not_lt.mp hle)) (not_le.mpr hlt)
  have hone : payload.length ⌈/⌉ size = 1 ↔ payload.length ≤ size := by
    have hle : payload.length ⌈/⌉ size ≤ 1 ↔ payload.length ≤ size := by
      rw [ceilDiv_le_iff_le_mul hsize, Nat.mul_one]
    omega
  have hindex : (UInt16.ofNat index).toNat = index :=
    UInt16.toNat_ofNat_of_lt' (hlt.trans_le (hcount.trans (by decide)))
  have hfragments : (UInt16.ofNat (payload.length ⌈/⌉ size)).toNat = payload.length ⌈/⌉ size :=
    UInt16.toNat_ofNat_of_lt' (hcount.trans_lt (by decide))
  have horiginal : (UInt32.ofNat payload.length).toNat = payload.length :=
    UInt32.toNat_ofNat_of_lt' (hlength.trans_lt (by decide))
  have hchunk : ((payload.drop (index * size)).take size).length
      = min size (payload.length - size * index) := by
    rw [List.length_take, List.length_drop, Nat.mul_comm]
  constructor
  · exact hsession
  all_goals simp only [hindex, hfragments, horiginal, ← toNat_eq_one_iff, hone,
    ← List.length_pos_iff, hchunk]
  · omega
  · exact hcount
  · exact hlt
  · exact hlength
  · intro hempty
    omega
  · omega
  · omega
  · -- the only fragment is the first one, and has everything
    intro hle
    obtain rfl : index = 0 := by
      have := hone.mpr hle
      omega
    omega
  · intro hseveral
    have := hone.not.mp hseveral
    omega

theorem exists_fragmentDatagram {maxFrameBytes : ℕ} :
    (∃ frames, fragmentDatagram direction sessionId datagramId payload maxFrameBytes = .ok frames) ↔
      Splittable sessionId payload maxFrameBytes := by
  constructor
  · rintro ⟨frames, h⟩
    simp only [fragmentDatagram] at h
    split_ifs at h with hnil hlarge hsmall hempty hmany hmany
    · exact ⟨Bool.eq_false_iff.mpr hnil, not_lt.mp hlarge, not_le.mp hsmall, by simp [hempty]⟩
    · have hsize : 0 < maxFrameBytes - udpDatagramHeaderBytes := by omega
      exact ⟨Bool.eq_false_iff.mpr hnil, not_lt.mp hlarge, not_le.mp hsmall,
        (ceilDiv_le_iff_le_mul hsize).mp (not_lt.mp hmany)⟩
  · intro h
    have hsize : 0 < maxFrameBytes - udpDatagramHeaderBytes := Nat.sub_pos_of_lt h.frame
    have hcount := (ceilDiv_le_iff_le_mul hsize).mpr h.count
    simp only [fragmentDatagram, h.session, Bool.false_eq_true, if_false, not_lt.mpr h.length,
      not_le.mpr h.frame, gt_iff_lt]
    by_cases hempty : payload = []
    · have hvalid : ValidFragment {
          direction, sessionId, datagramId, fragmentIndex := 0, fragmentCount := 1
          originalLength := 0, payload := [] } := by
        constructor <;> simp [h.session]
      simp only [hempty, if_true, if_neg (show ¬ maxUdpFragments.toNat < 1 by decide),
        encode_eq_ok_iff.mpr ⟨hvalid, rfl⟩]
      exact ⟨_, rfl⟩
    · have hfew : ¬ maxUdpFragments.toNat <
          payload.length ⌈/⌉ (maxFrameBytes - udpDatagramHeaderBytes) := not_lt.mpr hcount
      simp only [hempty, if_false, hfew]
      exact ⟨_, mapM_eq_ok_map fun entry hentry => encode_eq_ok_iff.mpr
        ⟨validFragment_chunk hsize h.session h.length hcount hentry, rfl⟩⟩

end Splits

/-- **The codec is a bijection, and the splitter stays inside it.** A valid fragment has a frame,
which decodes to it; a frame that decodes is the encoding of what it decodes to; a datagram is split
if and only if it is `Splittable`; and its frames are at most 64, none longer than allowed, each
decoding to the fragment with its number, the common count and the length of the datagram, whose
bytes they carry in order. -/
theorem codec_bijective :
    (∀ f : UdpFragment, f.validate = .ok () →
      ∃ b, f.encode = .ok b ∧ UdpFragment.decode b = .ok f) ∧
    (∀ (b : List UInt8) (f : UdpFragment), UdpFragment.decode b = .ok f → f.encode = .ok b) ∧
    ∀ (direction : UdpDirection) (sessionId : Uuid) (datagramId : UInt64) (payload : List UInt8)
      (maxFrameBytes : ℕ),
      ((∃ frames, fragmentDatagram direction sessionId datagramId payload maxFrameBytes =
        .ok frames) ↔ Splittable sessionId payload maxFrameBytes) ∧
      ∀ frames : List (List UInt8),
        fragmentDatagram direction sessionId datagramId payload maxFrameBytes = .ok frames →
        1 ≤ frames.length ∧ frames.length ≤ 64 ∧ (∀ b ∈ frames, b.length ≤ maxFrameBytes) ∧
        ∃ parts, frames.mapM UdpFragment.decode = .ok parts ∧
          (∀ (i : ℕ) (part : UdpFragment), parts[i]? = some part →
            part.fragmentIndex.toNat = i ∧ part.fragmentCount.toNat = frames.length ∧
              part.originalLength.toNat = payload.length ∧ part.direction = direction ∧
              part.sessionId = sessionId ∧ part.datagramId = datagramId) ∧
          (parts.map (·.payload)).flatten = payload := by
  refine ⟨fun f hvalid => ?_, fun b f => encode_decode, ?_⟩
  · have hencode := encode_eq_ok_iff.mpr ⟨validate_eq_ok_iff.mp hvalid, rfl⟩
    exact ⟨frame f, hencode, decode_encode hencode⟩
  · intro direction sessionId datagramId payload maxFrameBytes
    refine ⟨exists_fragmentDatagram, fun frames h => ?_⟩
    obtain ⟨hmany, hlong⟩ := length_le_of_fragmentDatagram h
    obtain ⟨parts, hparts, hcut⟩ := fragmentDatagram_decodes h
    have hlength := (mapM_eq_ok_iff.mp hparts).length_eq
    have hpos : 0 < parts.length := List.length_pos_iff.mpr hcut.nonempty
    refine ⟨by omega, hmany, hlong, parts, hparts, ?_, hcut.flatten_eq⟩
    intro i part hpart
    have hmem := List.mem_of_getElem? hpart
    exact ⟨hcut.index_eq i part hpart, hlength ▸ hcut.count_eq part hmem,
      hcut.length_eq part hmem, hcut.direction_eq part hmem, hcut.sessionId_eq part hmem,
      hcut.datagramId_eq part hmem⟩

/-- Three bytes in frames of 42 are two frames. -/
theorem codec_bijective_three_bytes : ∃ frames : List (List UInt8),
    fragmentDatagram .publicToTarget (Uuid.fromU128 1) 7 [1, 2, 3] 42 = .ok frames ∧
      frames.length = 2 ∧ (∀ b ∈ frames, b.length ≤ 42) ∧
      ∃ parts, frames.mapM UdpFragment.decode = .ok parts ∧
        (parts.map (·.payload)).flatten = [1, 2, 3] := by
  have h : ∃ frames ∈ (fragmentDatagram .publicToTarget (Uuid.fromU128 1) 7 [1, 2, 3] 42).toOption,
      frames.length = 2 := by decide +kernel
  obtain ⟨frames, hframes, hlength⟩ := h
  have hsplit : fragmentDatagram .publicToTarget (Uuid.fromU128 1) 7 [1, 2, 3] 42 = .ok frames := by
    revert hframes
    cases fragmentDatagram .publicToTarget (Uuid.fromU128 1) 7 [1, 2, 3] 42 <;>
      simp [Except.toOption]
  obtain ⟨-, -, hlong, parts, hparts, -, hpayload⟩ :=
    (codec_bijective.2.2 _ _ _ _ _).2 _ hsplit
  exact ⟨frames, hsplit, hlength, hlong, parts, hparts, hpayload⟩

end LinkLake.Udp
