import LinkLake.Core.Socks5Fragment

/-!
# The budgets of SOCKS5 fragments

`InOrder` is the invariant of one reassembler between its calls: its own counters and those of its
sessions are the sums over its assemblies, and the limits hold. The fields of a reassembler change
in three ways, and each keeps it: an assembly is opened (`InOrder.opened`), takes a fragment
(`InOrder.stored`) or is removed (`InOrder.forget`).
-/

namespace LinkLake.Socks5

open FiniteMap Socks5FragmentReassembler

open Udp (Instant usizeMax saturatingAdd)

variable {K : Type} [DecidableEq K]

theorem saturatingAdd_of_le {a b : ℕ} (h : a + b ≤ usizeMax) : saturatingAdd a b = a + b :=
  min_eq_left h

/-! ## The invariant -/

/-- An assembly counts its own bytes, within the limits of one datagram. -/
structure Assembly.InOrder (config : Socks5FragmentConfig) (key : FragmentKey K) (a : Assembly) :
    Prop where
  target : a.target = key.target
  port : a.port = key.port
  /-- The envelope is counted once, and the payload of each fragment. -/
  bytes : ∃ envelope, socks5UdpEnvelopeHeaderLen a.target = some envelope ∧
    a.bytes = envelope + a.payloadBytes
  payload : a.payloadBytes = a.fragments.total List.length
  bytesLimit : a.bytes ≤ config.maxBytesPerDatagram.toNat
  fragmentsLimit : a.fragments.size ≤ config.maxFragmentsPerDatagram.toNat
  contiguous : ∀ sequence, 1 ≤ sequence → sequence ≤ a.highestContiguous → sequence ∈ a.fragments

/-- What the assemblies of a session weigh. -/
def share (session : K) (w : Assembly → ℕ) (assemblies : FiniteMap (FragmentKey K) Assembly) : ℕ :=
  assemblies.sum fun key a => if key.session = session then w a else 0

/-- What a session uses. -/
def usageOf (assemblies : FiniteMap (FragmentKey K) Assembly) (session : K) : Usage where
  datagrams := share session (fun _ => 1) assemblies
  fragments := share session (·.fragments.size) assemblies
  bytes := share session (·.bytes) assemblies

/-- **The counters of a reassembler are the sums over its assemblies**, within the limits; a
session without assemblies has no entry. -/
structure InOrder (r : Socks5FragmentReassembler K) : Prop where
  assembly : ∀ key a, r.assemblies.get? key = some a → a.InOrder r.config key
  localFragments : r.localFragments = r.assemblies.total (·.fragments.size)
  localBytes : r.localBytes = r.assemblies.total (·.bytes)
  sessions : ∀ session, r.sessions.get? session =
    if (usageOf r.assemblies session).datagrams = 0 then none
    else some (usageOf r.assemblies session)
  datagramsLimit : ∀ session,
    (usageOf r.assemblies session).datagrams ≤ r.config.maxInflightPerSession.toNat
  fragmentsLimit : ∀ session,
    (usageOf r.assemblies session).fragments ≤ r.config.maxFragmentsPerSession.toNat
  bytesLimit : ∀ session,
    (usageOf r.assemblies session).bytes ≤ r.config.maxBytesPerSession.toNat

section Shares

variable {assemblies : FiniteMap (FragmentKey K) Assembly} {key : FragmentKey K} {a a' : Assembly}
  {session : K}

theorem share_le_total (session : K) (w : Assembly → ℕ) :
    share session w assemblies ≤ assemblies.total w := by
  change _ ≤ assemblies.sum fun _ => w
  refine sum_mono assemblies fun key a => ?_
  split <;> omega

theorem share_datagrams_le : share session (fun _ => 1) assemblies ≤ assemblies.size := by
  have htotal : assemblies.total (fun _ => 1) = assemblies.size := by
    simp [FiniteMap.total, FiniteMap.size]
  exact htotal ▸ share_le_total session fun _ => 1

theorem share_insert_new (h : assemblies.get? key = none) (session : K) (w : Assembly → ℕ) :
    share session w (assemblies.insert key a) =
      share session w assemblies + if key.session = session then w a else 0 :=
  sum_insert_new _ h a

section

variable (h : assemblies.get? key = some a)
include h

theorem share_replace (a' : Assembly) (session : K) (w : Assembly → ℕ) :
    share session w (assemblies.insert key a') + (if key.session = session then w a else 0) =
      share session w assemblies + if key.session = session then w a' else 0 :=
  sum_replace _ h a'

theorem share_erase (session : K) (w : Assembly → ℕ) :
    share session w (assemblies.erase key) + (if key.session = session then w a else 0) =
      share session w assemblies :=
  sum_erase _ h

theorem share_pos : 0 < share key.session (fun _ => 1) assemblies := by
  have herase := share_erase h key.session fun _ => 1
  rw [if_pos rfl] at herase
  omega

end

theorem share_eq_zero (w : Assembly → ℕ) (h : share session (fun _ => 1) assemblies = 0) :
    share session w assemblies = 0 := by
  rw [share, FiniteMap.sum, List.sum_eq_zero_iff] at h ⊢
  intro x hx
  obtain ⟨entry, hentry, rfl⟩ := List.mem_map.mp hx
  have hother := h _ (List.mem_map.mpr ⟨entry, hentry, rfl⟩)
  split at hother
  · cases hother
  · rename_i hne
    rw [if_neg hne]

theorem usageOf_eq_empty (h : (usageOf assemblies session).datagrams = 0) :
    usageOf assemblies session = {} := by
  have hfragments := share_eq_zero (·.fragments.size) h
  have hbytes := share_eq_zero (·.bytes) h
  simp only [usageOf] at h ⊢
  rw [h, hfragments, hbytes]

theorem usageOf_insert_new (h : assemblies.get? key = none) (session : K) :
    usageOf (assemblies.insert key a) session =
      if key.session = session then
        ⟨(usageOf assemblies session).datagrams + 1,
          (usageOf assemblies session).fragments + a.fragments.size,
          (usageOf assemblies session).bytes + a.bytes⟩
      else usageOf assemblies session := by
  simp only [usageOf, share_insert_new h]
  split <;> rfl

variable (h : assemblies.get? key = some a)
include h

theorem usageOf_replace {n : ℕ} (hfragments : a'.fragments.size = a.fragments.size + 1)
    (hbytes : a'.bytes = a.bytes + n) (session : K) : usageOf (assemblies.insert key a') session =
      if key.session = session then
        ⟨(usageOf assemblies session).datagrams, (usageOf assemblies session).fragments + 1,
          (usageOf assemblies session).bytes + n⟩
      else usageOf assemblies session := by
  have h1 := share_replace h a' session fun _ => 1
  have h2 := share_replace h a' session (·.fragments.size)
  have h3 := share_replace h a' session (·.bytes)
  simp only [usageOf]
  split at h1
  · rw [if_pos ‹_›] at h2 h3 ⊢
    rw [if_pos ‹_›] at h2 h3
    simp only [Usage.mk.injEq]
    omega
  · rw [if_neg ‹_›] at h2 h3 ⊢
    rw [if_neg ‹_›] at h2 h3
    simp only [Usage.mk.injEq]
    omega

theorem usageOf_erase (session : K) : usageOf (assemblies.erase key) session =
      if key.session = session then
        ⟨(usageOf assemblies session).datagrams - 1,
          (usageOf assemblies session).fragments - a.fragments.size,
          (usageOf assemblies session).bytes - a.bytes⟩
      else usageOf assemblies session := by
  have h1 := share_erase h session fun _ => 1
  have h2 := share_erase h session (·.fragments.size)
  have h3 := share_erase h session (·.bytes)
  simp only [usageOf]
  split at h1
  · rw [if_pos ‹_›] at h2 h3 ⊢
    simp only [Usage.mk.injEq]
    omega
  · rw [if_neg ‹_›] at h2 h3 ⊢
    simp only [Usage.mk.injEq]
    omega

end Shares

theorem InOrder.usage {r : Socks5FragmentReassembler K} (h : InOrder r) (session : K) :
    r.usage session = usageOf r.assemblies session := by
  rw [Socks5FragmentReassembler.usage, h.sessions session]
  split
  · rename_i hnone
    rw [usageOf_eq_empty hnone]
    rfl
  · rfl

section Fields

variable {r : Socks5FragmentReassembler K} {key : FragmentKey K} {a a' : Assembly}

theorem sessions_eq {sessions : FiniteMap K Usage} {assemblies assemblies' : FiniteMap _ Assembly}
    {session : K}
    (h : ∀ j, sessions.get? j = if (usageOf assemblies j).datagrams = 0 then none
      else some (usageOf assemblies j))
    (hother : ∀ j ≠ session, usageOf assemblies' j = usageOf assemblies j)
    (hpos : 0 < (usageOf assemblies' session).datagrams) (j : K) :
    (sessions.insert session (usageOf assemblies' session)).get? j =
      if (usageOf assemblies' j).datagrams = 0 then none else some (usageOf assemblies' j) := by
  rw [get?_insert]
  by_cases hj : j = session
  · subst hj
    rw [if_pos rfl, if_neg hpos.ne']
  · rw [if_neg hj, h j, hother j hj]

variable (h : InOrder r)
include h

theorem InOrder.opened {envelope : ℕ} {fragment : Socks5UdpFragment} {now : Instant}
    (htarget : key.target = fragment.target) (hport : key.port = fragment.port)
    (hnew : r.assemblies.get? key = none)
    (henvelope : socks5UdpEnvelopeHeaderLen fragment.target = some envelope)
    (hdatagram : envelope ≤ r.config.maxBytesPerDatagram.toNat)
    (hinflight : (usageOf r.assemblies key.session).datagrams
      < r.config.maxInflightPerSession.toNat)
    (hbytes : (usageOf r.assemblies key.session).bytes + envelope
      ≤ r.config.maxBytesPerSession.toNat) : InOrder { r with
      assemblies := r.assemblies.insert key (.new fragment envelope now)
      sessions := r.sessions.insert key.session
        ⟨(usageOf r.assemblies key.session).datagrams + 1,
          (usageOf r.assemblies key.session).fragments,
          (usageOf r.assemblies key.session).bytes + envelope⟩
      localBytes := r.localBytes + envelope } := by
  have husage : ∀ session, usageOf (r.assemblies.insert key (.new fragment envelope now)) session =
      if key.session = session then
        ⟨(usageOf r.assemblies session).datagrams + 1, (usageOf r.assemblies session).fragments,
          (usageOf r.assemblies session).bytes + envelope⟩
      else usageOf r.assemblies session := usageOf_insert_new hnew
  have hown := husage key.session
  rw [if_pos rfl] at hown
  refine {
    assembly := fun j b hj => ?_
    localFragments := ?_
    localBytes := ?_
    sessions := ?_
    datagramsLimit := fun session => ?_
    fragmentsLimit := fun session => ?_
    bytesLimit := fun session => ?_ }
  · rw [get?_insert] at hj
    split at hj
    · rename_i hkey
      cases hj
      subst hkey
      exact {
        target := htarget.symm
        port := hport.symm
        bytes := ⟨envelope, henvelope, rfl⟩
        payload := rfl
        bytesLimit := hdatagram
        fragmentsLimit := Nat.zero_le _
        contiguous := fun sequence hone hzero => absurd (hone.trans hzero) (Nat.not_succ_le_zero 0) }
    · exact h.assembly j b hj
  · rw [total_insert_new _ hnew, h.localFragments]
    rfl
  · rw [total_insert_new _ hnew, h.localBytes]
    rfl
  · rw [← hown]
    refine sessions_eq h.sessions (fun j hj => ?_) (by rw [hown]; exact Nat.succ_pos _)
    rw [husage j, if_neg (Ne.symm hj)]
  · rw [husage session]
    split
    · rename_i hsession
      subst hsession
      exact hinflight
    · exact h.datagramsLimit session
  · rw [husage session]
    split <;> exact h.fragmentsLimit session
  · rw [husage session]
    split
    · rename_i hsession
      subst hsession
      exact hbytes
    · exact h.bytesLimit session

theorem InOrder.stored {n : ℕ} (hget : r.assemblies.get? key = some a)
    (ha' : a'.InOrder r.config key) (hsize : a'.fragments.size = a.fragments.size + 1)
    (hbytes : a'.bytes = a.bytes + n) (hfragments : (usageOf r.assemblies key.session).fragments
      < r.config.maxFragmentsPerSession.toNat)
    (hlimit : (usageOf r.assemblies key.session).bytes + n ≤ r.config.maxBytesPerSession.toNat) :
    InOrder { r with
      assemblies := r.assemblies.insert key a'
      sessions := r.sessions.insert key.session
        ⟨(usageOf r.assemblies key.session).datagrams,
          (usageOf r.assemblies key.session).fragments + 1,
          (usageOf r.assemblies key.session).bytes + n⟩
      localFragments := r.localFragments + 1
      localBytes := r.localBytes + n } := by
  have husage := usageOf_replace hget hsize hbytes
  have hown := husage key.session
  rw [if_pos rfl] at hown
  refine {
    assembly := fun j b hj => ?_
    localFragments := ?_
    localBytes := ?_
    sessions := ?_
    datagramsLimit := fun session => ?_
    fragmentsLimit := fun session => ?_
    bytesLimit := fun session => ?_ }
  · rw [get?_insert] at hj
    split at hj
    · rename_i hkey
      cases hj
      subst hkey
      exact ha'
    · exact h.assembly j b hj
  · have htotal := total_replace (·.fragments.size) hget a'
    have hlocal := h.localFragments
    simp only
    omega
  · have htotal := total_replace (·.bytes) hget a'
    have hlocal := h.localBytes
    simp only
    omega
  · rw [← hown]
    refine sessions_eq h.sessions (fun j hj => ?_) (by rw [hown]; exact share_pos hget)
    rw [husage j, if_neg (Ne.symm hj)]
  · rw [husage session]
    split <;> exact h.datagramsLimit session
  · rw [husage session]
    split
    · rename_i hsession
      subst hsession
      exact hfragments
    · exact h.fragmentsLimit session
  · rw [husage session]
    split
    · rename_i hsession
      subst hsession
      exact hlimit
    · exact h.bytesLimit session

theorem get?_forgetUsage (hget : r.assemblies.get? key = some a) (session : K) :
    (forgetUsage r.sessions key.session a).get? session =
      if (usageOf (r.assemblies.erase key) session).datagrams = 0 then none
      else some (usageOf (r.assemblies.erase key) session) := by
  have husage := usageOf_erase hget
  have hown := husage key.session
  rw [if_pos rfl] at hown
  have hentry := (h.sessions key.session).trans (if_neg (share_pos hget).ne')
  have hforget : forgetUsage r.sessions key.session a =
      if (usageOf (r.assemblies.erase key) key.session).datagrams = 0 ∧
          (usageOf (r.assemblies.erase key) key.session).fragments = 0 ∧
          (usageOf (r.assemblies.erase key) key.session).bytes = 0 then
        r.sessions.erase key.session
      else r.sessions.insert key.session (usageOf (r.assemblies.erase key) key.session) := by
    rw [forgetUsage, hentry, hown]
  rw [hforget]
  by_cases hzero : (usageOf (r.assemblies.erase key) key.session).datagrams = 0
  · -- nothing is left of the session
    have hempty := usageOf_eq_empty hzero
    rw [if_pos (by rw [hempty]; exact ⟨rfl, rfl, rfl⟩), get?_erase]
    by_cases hj : session = key.session
    · rw [if_pos hj, hj, if_pos hzero]
    · rw [if_neg hj, h.sessions session, husage session, if_neg (Ne.symm hj)]
  · rw [if_neg fun hall => hzero hall.1]
    refine sessions_eq h.sessions (fun j hj => ?_) (Nat.pos_of_ne_zero hzero) session
    rw [husage j, if_neg (Ne.symm hj)]

theorem InOrder.forget (hget : r.assemblies.get? key = some a) : InOrder (r.forget key a) := by
  have husage := usageOf_erase hget
  have hle : ∀ session, (usageOf (r.assemblies.erase key) session).datagrams
        ≤ (usageOf r.assemblies session).datagrams ∧
      (usageOf (r.assemblies.erase key) session).fragments
        ≤ (usageOf r.assemblies session).fragments ∧
      (usageOf (r.assemblies.erase key) session).bytes ≤ (usageOf r.assemblies session).bytes := by
    intro session
    rw [husage session]
    split
    · exact ⟨Nat.sub_le _ _, Nat.sub_le _ _, Nat.sub_le _ _⟩
    · exact ⟨le_rfl, le_rfl, le_rfl⟩
  refine {
    assembly := fun j b hj => h.assembly j b (get?_of_erase hj)
    localFragments := ?_
    localBytes := ?_
    sessions := get?_forgetUsage h hget
    datagramsLimit := fun session => (hle session).1.trans (h.datagramsLimit session)
    fragmentsLimit := fun session => (hle session).2.1.trans (h.fragmentsLimit session)
    bytesLimit := fun session => (hle session).2.2.trans (h.bytesLimit session) }
  · have htotal := total_erase (·.fragments.size) hget
    have hlocal := h.localFragments
    simp only [Socks5FragmentReassembler.forget]
    omega
  · have htotal := total_erase (·.bytes) hget
    have hlocal := h.localBytes
    simp only [Socks5FragmentReassembler.forget]
    omega

end Fields

end LinkLake.Socks5
