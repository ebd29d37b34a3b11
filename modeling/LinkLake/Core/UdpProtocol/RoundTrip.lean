import LinkLake.Core.UdpProtocol
import LinkLake.Foundations.Fallible

/-!
# The LLUD codec and splitter are lossless

`decode_encode`: a frame decodes to the fragment it was made from. `fragmentDatagram_decodes`:
the frames of a datagram decode to fragments that are a cut of it (`IsCut`): valid, numbered from
zero, agreeing on the metadata, and concatenating to the payload. The reassembler's correctness
needs nothing else of the wire format.
-/

namespace LinkLake.Udp

open BigEndian Fallible

/-! ## The codec -/

theorem slice_append_of_le {a b : List UInt8} {n start stop : ℕ} (ha : a.length = n) (h : n ≤ start) :
    slice (a ++ b) start stop = slice b (start - n) (stop - n) := by
  subst ha
  have hwidth : stop - a.length - (start - a.length) = stop - start := by omega
  rw [slice, slice, List.drop_append, List.drop_eq_nil_of_le h, List.nil_append, hwidth]

theorem slice_append_left {a b : List UInt8} {stop : ℕ} (h : a.length = stop) :
    slice (a ++ b) 0 stop = a := by
  rw [slice, List.drop_zero, Nat.sub_zero, ← h, List.take_left]

theorem tryFrom_toU8 (d : UdpDirection) : UdpDirection.tryFrom d.toU8 = .ok d := by
  cases d <;> rfl

/-- The header fields after the flags, and the payload. -/
def frameBody (f : UdpFragment) : List UInt8 :=
  f.sessionId.asBytes ++ (beBytes 8 f.datagramId.toNat ++ (beBytes 2 f.fragmentIndex.toNat ++
    (beBytes 2 f.fragmentCount.toNat ++ (beBytes 4 f.originalLength.toNat ++ f.payload))))

/-- A frame is eight fixed bytes followed by its body. -/
def frame (f : UdpFragment) : List UInt8 :=
  0x4c :: 0x4c :: 0x55 :: 0x44 :: 1 :: f.direction.toU8 :: 0 :: 0 :: frameBody f

variable {bytes : List UInt8} {f : UdpFragment}

theorem encode_eq_ok_iff : f.encode = .ok bytes ↔ ValidFragment f ∧ bytes = frame f := by
  rw [← validate_eq_ok_iff]
  have hflags : beBytes 2 0 = [0, 0] := rfl
  cases h : f.validate with
  | error e => simp [UdpFragment.encode, h, bind, Except.bind]
  | ok u =>
    simp [UdpFragment.encode, h, bind, Except.bind, pure, Except.pure, frame, frameBody,
      udpDatagramMagic, udpDatagramVersion, hflags, eq_comm]

theorem slice_frame (f : UdpFragment) (start stop : ℕ) :
    slice (frame f) (start + 8) (stop + 8) = slice (frameBody f) start stop := by
  rw [slice, slice, Nat.add_sub_add_right]
  rfl

/-- **A frame decodes to the fragment it was made from.** -/
theorem decode_encode (h : f.encode = .ok bytes) : UdpFragment.decode bytes = .ok f := by
  obtain ⟨hvalid, rfl⟩ := encode_eq_ok_iff.mp h
  have hlength : (frame f).length = 40 + f.payload.length := by
    simp [frame, frameBody]
    omega
  have hsession : slice (frame f) 8 24 = f.sessionId.asBytes := by
    rw [slice_frame f 0 16, frameBody, slice_append_left (by simp)]
  have hid : slice (frame f) 24 32 = beBytes 8 f.datagramId.toNat := by
    rw [slice_frame f 16 24, frameBody, slice_append_of_le (by simp) le_rfl,
      slice_append_left (by simp)]
  have hindex : slice (frame f) 32 34 = beBytes 2 f.fragmentIndex.toNat := by
    rw [slice_frame f 24 26, frameBody, slice_append_of_le (n := 16) (by simp) (by norm_num),
      slice_append_of_le (n := 8) (by simp) (by norm_num), slice_append_left (by simp)]
  have hcount : slice (frame f) 34 36 = beBytes 2 f.fragmentCount.toNat := by
    rw [slice_frame f 26 28, frameBody, slice_append_of_le (n := 16) (by simp) (by norm_num),
      slice_append_of_le (n := 8) (by simp) (by norm_num),
      slice_append_of_le (n := 2) (by simp) (by norm_num), slice_append_left (by simp)]
  have hlen : slice (frame f) 36 40 = beBytes 4 f.originalLength.toNat := by
    rw [slice_frame f 28 32, frameBody, slice_append_of_le (n := 16) (by simp) (by norm_num),
      slice_append_of_le (n := 8) (by simp) (by norm_num),
      slice_append_of_le (n := 2) (by simp) (by norm_num),
      slice_append_of_le (n := 2) (by simp) (by norm_num), slice_append_left (by simp)]
  have hpayload : (frame f).drop udpDatagramHeaderBytes = f.payload := by
    rw [show udpDatagramHeaderBytes = 32 + 8 from rfl]
    simp [frame, frameBody, List.drop_append, List.drop_eq_nil_of_le]
  have hmagic : slice (frame f) 0 4 = udpDatagramMagic := by
    simp [frame, slice, udpDatagramMagic]
  have hversion : (frame f).getD 4 0 = udpDatagramVersion := by simp [frame, udpDatagramVersion]
  have hdirection : (frame f).getD 5 0 = f.direction.toU8 := by simp [frame]
  have hflags : slice (frame f) 6 8 = beBytes 2 0 := by
    rw [show beBytes 2 0 = [0, 0] from rfl]
    simp [frame, slice]
  have hv := validate_eq_ok_iff.mpr hvalid
  rw [UdpFragment.decode, if_neg (by rw [hlength, udpDatagramHeaderBytes]; omega),
    if_neg (by simp [hmagic])]
  simp only [hversion, hdirection, hflags, hsession, hid, hindex, hcount, hlen, hpayload,
    tryFrom_toU8, ofBeBytes_beBytes (w := 8) (UInt64.toNat_lt _),
    ofBeBytes_beBytes (w := 2) (UInt16.toNat_lt _), ofBeBytes_beBytes (w := 4) (UInt32.toNat_lt _),
    ofBeBytes_beBytes (w := 2) (n := 0) (by norm_num), Uuid.fromBytes_asBytes,
    UInt64.ofNat_toNat, UInt16.ofNat_toNat, UInt32.ofNat_toNat]
  simp [bind, Except.bind, hv, pure, Except.pure]

section Splitter

variable {α : Type*}

theorem flatten_range_chunks (size k : ℕ) (l : List α) :
    ((List.range k).map fun i => (l.drop (i * size)).take size).flatten = l.take (k * size) := by
  induction k with
  | zero => simp
  | succ k ih =>
    rw [List.range_succ, List.map_append, List.flatten_append, ih, Nat.succ_mul, List.take_add]
    simp

theorem flatten_chunks {size : ℕ} (hsize : 0 < size) (l : List α) : (chunks size l).flatten = l := by
  rw [chunks, flatten_range_chunks]
  apply List.take_of_length_le
  rw [mul_comm]
  exact le_smul_ceilDiv hsize

@[simp] theorem length_chunks (size : ℕ) (l : List α) :
    (chunks size l).length = l.length ⌈/⌉ size := by
  simp [chunks]

end Splitter

/-- The fragments of a datagram, in the order of their indices. -/
def datagramFragments (direction : UdpDirection) (sessionId : Uuid) (datagramId : UInt64)
    (payload : List UInt8) (size : ℕ) : List UdpFragment :=
  if payload = [] then
    [{ direction, sessionId, datagramId, fragmentIndex := 0, fragmentCount := 1
       originalLength := 0, payload := [] }]
  else
    (chunks size payload).zipIdx.map fun (chunk, index) =>
      { direction, sessionId, datagramId
        fragmentIndex := UInt16.ofNat index
        fragmentCount := UInt16.ofNat (payload.length ⌈/⌉ size)
        originalLength := UInt32.ofNat payload.length
        payload := chunk }

/-- `parts` are the fragments of `payload` under one key: valid, numbered from zero, agreeing on
the metadata, and concatenating to the payload. -/
structure IsCut (direction : UdpDirection) (sessionId : Uuid) (datagramId : UInt64)
    (payload : List UInt8) (parts : List UdpFragment) : Prop where
  valid : ∀ part ∈ parts, ValidFragment part
  direction_eq : ∀ part ∈ parts, part.direction = direction
  sessionId_eq : ∀ part ∈ parts, part.sessionId = sessionId
  datagramId_eq : ∀ part ∈ parts, part.datagramId = datagramId
  count_eq : ∀ part ∈ parts, part.fragmentCount.toNat = parts.length
  length_eq : ∀ part ∈ parts, part.originalLength.toNat = payload.length
  index_eq : ∀ (i : ℕ) (part : UdpFragment), parts[i]? = some part → part.fragmentIndex.toNat = i
  nonempty : parts ≠ []
  flatten_eq : (parts.map (·.payload)).flatten = payload

variable {direction : UdpDirection} {sessionId : Uuid} {datagramId : UInt64}
  {payload : List UInt8} {maxFrameBytes : ℕ} {frames : List (List UInt8)}

theorem isCut_empty {part : UdpFragment} (hvalid : ValidFragment part)
    (hpart : part = { direction, sessionId, datagramId, fragmentIndex := 0, fragmentCount := 1
                      originalLength := 0, payload := [] }) :
    IsCut direction sessionId datagramId [] [part] := by
  have hindex : ∀ (i : ℕ) (q : UdpFragment), [part][i]? = some q → q.fragmentIndex.toNat = i := by
    intro i q h
    rcases i with _ | i
    · obtain rfl : part = q := by simpa using h
      rw [hpart]
      rfl
    · simp at h
  refine ⟨by simpa using hvalid, ?_, ?_, ?_, ?_, ?_, hindex, by simp, ?_⟩ <;> subst hpart <;> simp

theorem isCut_chunks {size : ℕ} (hsize : 0 < size) (hlarge : payload.length ≤ maxUdpDatagramBytes)
    (hcount : payload.length ⌈/⌉ size ≤ maxUdpFragments.toNat) (hne : payload ≠ [])
    (hvalid : ∀ part ∈ datagramFragments direction sessionId datagramId payload size,
      ValidFragment part) :
    IsCut direction sessionId datagramId payload
      (datagramFragments direction sessionId datagramId payload size) := by
  have hlt16 : payload.length ⌈/⌉ size < 2 ^ 16 := hcount.trans_lt (by decide)
  have hlt32 : payload.length < 2 ^ 32 := hlarge.trans_lt (by decide)
  have hlen : (datagramFragments direction sessionId datagramId payload size).length =
      payload.length ⌈/⌉ size := by
    simp [datagramFragments, hne]
  have hmem : ∀ part ∈ datagramFragments direction sessionId datagramId payload size,
      part.direction = direction ∧ part.sessionId = sessionId ∧ part.datagramId = datagramId ∧
        part.fragmentCount.toNat = payload.length ⌈/⌉ size ∧
        part.originalLength.toNat = payload.length := by
    intro part hpart
    simp only [datagramFragments, if_neg hne, List.mem_map] at hpart
    obtain ⟨⟨chunk, index⟩, -, rfl⟩ := hpart
    refine ⟨rfl, rfl, rfl, ?_, ?_⟩
    · exact UInt16.toNat_ofNat_of_lt' hlt16
    · exact UInt32.toNat_ofNat_of_lt' hlt32
  refine ⟨hvalid, fun part h => (hmem part h).1, fun part h => (hmem part h).2.1,
    fun part h => (hmem part h).2.2.1, fun part h => (hmem part h).2.2.2.1.trans hlen.symm,
    fun part h => (hmem part h).2.2.2.2, ?_, ?_, ?_⟩
  · intro i part h
    simp only [datagramFragments, if_neg hne, List.getElem?_map, Option.map_eq_some_iff] at h
    obtain ⟨⟨chunk, index⟩, hi, rfl⟩ := h
    rw [List.getElem?_zipIdx] at hi
    obtain ⟨c, hc, heq⟩ := Option.map_eq_some_iff.mp hi
    cases heq
    have hi' : i < payload.length ⌈/⌉ size := by
      have := (List.getElem?_eq_some_iff.mp hc).1
      simpa using this
    simpa using UInt16.toNat_ofNat_of_lt' (hi'.trans hlt16)
  · rw [← List.length_pos_iff, hlen]
    have := List.length_pos_iff.mpr hne
    rw [Nat.ceilDiv_eq_add_pred_div]
    exact Nat.div_pos (by omega) hsize
  · simp only [datagramFragments, if_neg hne, List.map_map]
    have : ((fun part : UdpFragment => part.payload) ∘ fun p : List UInt8 × ℕ =>
        ({ direction, sessionId, datagramId, fragmentIndex := UInt16.ofNat p.2
           fragmentCount := UInt16.ofNat (payload.length ⌈/⌉ size)
           originalLength := UInt32.ofNat payload.length, payload := p.1 } : UdpFragment)) =
        Prod.fst := rfl
    rw [this, List.zipIdx_map_fst, flatten_chunks hsize]

/-- **The splitter is lossless on the wire.** The frames decode, to the datagram's fragments, and
these are a cut of the payload. -/
theorem fragmentDatagram_decodes
    (h : fragmentDatagram direction sessionId datagramId payload maxFrameBytes = .ok frames) :
    ∃ parts, frames.mapM UdpFragment.decode = .ok parts ∧
      IsCut direction sessionId datagramId payload parts := by
  simp only [fragmentDatagram] at h
  by_cases hnil : sessionId.isNil
  · simp [hnil] at h
  by_cases hlarge : payload.length > maxUdpDatagramBytes
  · simp [hnil, hlarge] at h
  by_cases hsmall : maxFrameBytes ≤ udpDatagramHeaderBytes
  · simp [hnil, hlarge, hsmall] at h
  rw [if_neg hnil, if_neg hlarge, if_neg hsmall] at h
  by_cases hne : payload = []
  · -- the empty datagram is one frame
    subst hne
    have hmany : ¬ 1 > maxUdpFragments.toNat := by decide
    simp only [if_true, if_neg hmany] at h
    generalize hpart : ({ direction, sessionId, datagramId, fragmentIndex := 0, fragmentCount := 1
                          originalLength := 0, payload := [] } : UdpFragment) = part at h
    obtain ⟨frame, hframe, h⟩ := bind_eq_ok.mp h
    cases h
    refine ⟨[part], ?_, isCut_empty (encode_eq_ok_iff.mp hframe).1 hpart.symm⟩
    exact mapM_eq_ok_iff.mpr (.cons (decode_encode hframe) .nil)
  · simp only [if_neg hne] at h
    by_cases hmany : payload.length ⌈/⌉ (maxFrameBytes - udpDatagramHeaderBytes) >
        maxUdpFragments.toNat
    · simp [hmany] at h
    rw [if_neg hmany] at h
    refine ⟨datagramFragments direction sessionId datagramId payload
      (maxFrameBytes - udpDatagramHeaderBytes), ?_, ?_⟩
    · rw [datagramFragments, if_neg hne, mapM_eq_ok_iff, List.forall₂_map_right_iff]
      exact (mapM_eq_ok_iff.mp h).flip.imp fun frame p hp => decode_encode hp
    · refine isCut_chunks (by omega) (by omega) (by omega) hne ?_
      intro part hpart
      simp only [datagramFragments, if_neg hne, List.mem_map] at hpart
      obtain ⟨p, hp, rfl⟩ := hpart
      obtain ⟨frame, -, hframe⟩ := exists_ok_of_mem h hp
      exact (encode_eq_ok_iff.mp hframe).1

end LinkLake.Udp
