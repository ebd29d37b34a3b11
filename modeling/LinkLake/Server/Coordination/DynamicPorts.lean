import LinkLake.Core.PublicPorts
import LinkLake.Server.Coordination.Leadership

/-!
# Dynamic public ports

How a TCP tunnel without a fixed public port is given one (`HaDynamicPortLeaseProvider` in
`public_port_policy.rs`): from a cursor on, all ports are tried in turn, and the first one that the
policy allows and that can be leased is taken.

The clock is read anew for every port that is tried, and every lease has a fresh id: both are given as
sequences. `Scan.probed` records the ports that were tried.
-/

namespace LinkLake.Coordination

open Fallible

/-- The TCP half of the policy on public ports. -/
structure PublicPortPolicy where
  tcpAllowed : Ports.PortRanges
  tcpReserved : Ports.PortRanges

def PublicPortPolicy.allowsTcp (policy : PublicPortPolicy) (port : UInt16) : Bool :=
  policy.tcpAllowed.contains port && !policy.tcpReserved.contains port

theorem PublicPortPolicy.ne_zero_of_allowsTcp {policy : PublicPortPolicy} {port : UInt16}
    (h : policy.allowsTcp port = true) : port ≠ 0 := by
  simp only [allowsTcp, Ports.PortRanges.contains, Bool.and_eq_true, bne_iff_ne] at h
  exact h.1.1

inductive DynamicPortLeaseError
  | exhausted
  | unavailable
  deriving DecidableEq, Repr

/-- The port at an offset from the cursor. -/
def portAt (cursor offset : ℕ) : UInt16 :=
  UInt16.ofNat ((cursor - 1 + offset) % 2 ^ 32 % 65535 + 1)

/-- How a scan ends. -/
structure Scan where
  result : Except DynamicPortLeaseError PublicPortLease
  probed : List UInt16
  database : Database

section Scan

variable (o : PublicPortOwnership) (policy : PublicPortPolicy) (policyId : Uuid) (token : ℕ)
  (times : ℕ → ℕ) (leaseIds : ℕ → Uuid) (cursor : ℕ)

/-- The loop over the offsets. -/
def scan : List ℕ → Database → Scan
  | [], d => ⟨.error .exhausted, [], d⟩
  | offset :: offsets, d =>
    let port := portAt cursor offset
    if policy.allowsTcp port = false then scan offsets d
    else
      match o.acquire .tcp port policyId token (times offset) (leaseIds offset) d with
      | .error _ => ⟨.error .unavailable, [port], d⟩
      | .ok (none, d') =>
        let rest := scan offsets d'
        { rest with probed := port :: rest.probed }
      | .ok (some lease, d') => ⟨.ok lease, [port], d'⟩

end Scan

/-- The provider: what the runtime says of the leadership, and the cursor. -/
structure HaDynamicPortLeaseProvider where
  ownership : PublicPortOwnership
  fencingToken : Option ℕ
  nextTcp : ℕ

namespace HaDynamicPortLeaseProvider

/-- Lease a port, and move the cursor. -/
def acquireTcp (provider : HaDynamicPortLeaseProvider) (policy : PublicPortPolicy)
    (policyId : Uuid) (times : ℕ → ℕ) (leaseIds : ℕ → Uuid) (d : Database) :
    Scan × HaDynamicPortLeaseProvider :=
  match provider.fencingToken with
  | none => (⟨.error .unavailable, [], d⟩, provider)
  | some token =>
    let scanned := scan provider.ownership policy policyId token times leaseIds
      (max provider.nextTcp 1) (List.range 65535) d
    let nextTcp := match scanned.result with
      | .ok lease => max (lease.publicPort + 1).toNat 1
      | .error _ => (provider.nextTcp + 1) % 2 ^ 32
    (scanned, { provider with nextTcp })

end HaDynamicPortLeaseProvider

section Order

variable {cursor a b : ℕ}

theorem toNat_portAt (h : cursor - 1 + a < 2 ^ 32) :
    (portAt cursor a).toNat = (cursor - 1 + a) % 65535 + 1 := by
  rw [portAt, UInt16.toNat_ofNat', Nat.mod_eq_of_lt h]
  omega

variable (hcursor : cursor - 1 < 2 ^ 32 - 65535)
include hcursor

theorem portAt_injOn (ha : a < 65535) (hb : b < 65535)
    (h : portAt cursor a = portAt cursor b) : a = b := by
  have heq := congrArg UInt16.toNat h
  rw [toNat_portAt (by omega), toNat_portAt (by omega)] at heq
  omega

theorem exists_portAt_eq {port : UInt16} (hport : port ≠ 0) :
    ∃ offset < 65535, portAt cursor offset = port := by
  have hlt := port.toNat_lt
  have hpos : port.toNat ≠ 0 := fun h => hport (UInt16.toNat_inj.mp h)
  refine ⟨(port.toNat - 1 + 65535 - (cursor - 1) % 65535) % 65535, by omega, ?_⟩
  apply UInt16.toNat_inj.mp
  rw [toNat_portAt (by omega)]
  omega

end Order

/-! ## The scan -/

/-- The port is held by an unexpired lease of the current leadership. -/
structure HeldByLeadership (o : PublicPortOwnership) (token now : ℕ) (d : Database)
    (port : UInt16) : Prop where
  current : o.coordinator.assertSqliteTransactionFence token now d = .ok ()
  held : ∃ lease, d.publicPortOwnership.get? (.tcp, port) = some lease ∧
    lease.fencingToken = token ∧ lease.ownerInstanceId = o.coordinator.instanceId ∧
    lease.ownerIncarnationId = o.coordinator.incarnationId ∧ now < lease.leaseUntilUnixSeconds

section Results

variable {o : PublicPortOwnership} {policy : PublicPortPolicy} {policyId leaseId : Uuid}
  {token now cursor : ℕ} {times : ℕ → ℕ} {leaseIds : ℕ → Uuid} {d d' : Database} {port : UInt16}
  {offsets : List ℕ}

theorem claimMode_eq_conflict {current : Option PublicPortLease} {c : HaCoordinator} :
    PublicPortLease.claimMode current c token now = .ok .conflict ↔
      ∃ lease, current = some lease ∧ lease.fencingToken = token ∧
        lease.ownerInstanceId = c.instanceId ∧ lease.ownerIncarnationId = c.incarnationId ∧
        now < lease.leaseUntilUnixSeconds := by
  cases current with
  | none => simp [PublicPortLease.claimMode, pure, Except.pure]
  | some lease =>
    simp only [PublicPortLease.claimMode, bind_unit_eq_ok, rejectIf_eq_ok, Option.some.injEq,
      exists_eq_left']
    by_cases hlt : lease.fencingToken < token
    · simp only [hlt, if_true, pure_eq_ok, reduceCtorEq, and_false, false_iff]
      omega
    · simp only [hlt, if_false, bind_unit_eq_ok, rejectIf_eq_ok, not_not]
      by_cases hle : lease.leaseUntilUnixSeconds ≤ now
      · simp only [hle, if_true, pure_eq_ok, reduceCtorEq, and_false, false_iff]
        omega
      · simp only [hle, if_false, pure_eq_ok, and_true]
        constructor
        · rintro ⟨hnot, hinstance, hincarnation⟩
          exact ⟨by omega, hinstance, hincarnation, by omega⟩
        · rintro ⟨htoken, hinstance, hincarnation, -⟩
          exact ⟨by omega, hinstance, hincarnation⟩

theorem acquire_eq_none_iff (hport : port ≠ 0) :
    o.acquire .tcp port policyId token now leaseId d = .ok (none, d') ↔
      d' = d ∧ HeldByLeadership o token now d port := by
  rw [PublicPortOwnership.acquire_eq_none, claimMode_eq_conflict]
  constructor
  · rintro ⟨hd, -, hfence, hheld⟩
    exact ⟨hd, hfence, hheld⟩
  · rintro ⟨hd, hfence, hheld⟩
    exact ⟨hd, hport, hfence, hheld⟩

theorem publicPort_of_acquire {lease : PublicPortLease}
    (h : o.acquire .tcp port policyId token now leaseId d = .ok (some lease, d')) :
    lease.publicPort = port := by
  obtain ⟨-, h⟩ := bind_unit_eq_ok.mp h
  obtain ⟨-, h⟩ := bind_unit_eq_ok.mp h
  obtain ⟨mode, -, h⟩ := bind_eq_ok.mp h
  cases mode with
  | conflict => cases (pair_eq_ok.mp h).1
  | fresh =>
    obtain ⟨_, -, h⟩ := bind_eq_ok.mp h
    obtain ⟨_, -, h⟩ := bind_eq_ok.mp h
    obtain ⟨hlease, -⟩ := pair_eq_ok.mp h
    rw [← Option.some.inj hlease]

/-- What one scan does, by induction over the offsets that are left. -/
structure Scanned (o : PublicPortOwnership) (policy : PublicPortPolicy) (token cursor : ℕ)
    (times : ℕ → ℕ) (offsets : List ℕ) (d : Database) (s : Scan) : Prop where
  probed : s.probed.Sublist (offsets.map (portAt cursor))
  allowed : ∀ port ∈ s.probed, policy.allowsTcp port = true
  acquired : ∀ lease, s.result = .ok lease → lease.publicPort ∈ s.probed
  exhausted : s.result = .error .exhausted ↔ ∀ offset ∈ offsets,
    policy.allowsTcp (portAt cursor offset) = true →
      HeldByLeadership o token (times offset) d (portAt cursor offset)

theorem scanned (offsets : List ℕ) : Scanned o policy token cursor times offsets d
    (scan o policy policyId token times leaseIds cursor offsets d) := by
  induction offsets with
  | nil => exact ⟨.slnil, nofun, nofun, by simp [scan]⟩
  | cons offset offsets ih =>
    by_cases hallows : policy.allowsTcp (portAt cursor offset) = false
    · rw [scan, if_pos hallows]
      refine ⟨ih.probed.cons _, ih.allowed, ih.acquired, ih.exhausted.trans ?_⟩
      simp [hallows]
    have hallows : policy.allowsTcp (portAt cursor offset) = true := by simpa using hallows
    have hport := PublicPortPolicy.ne_zero_of_allowsTcp hallows
    have hheld : ∀ d', o.acquire .tcp (portAt cursor offset) policyId token (times offset)
        (leaseIds offset) d = .ok (none, d') ↔
          d' = d ∧ HeldByLeadership o token (times offset) d (portAt cursor offset) :=
      fun d' => acquire_eq_none_iff hport
    rw [scan, if_neg (by simp [hallows])]
    cases hacquire : o.acquire .tcp (portAt cursor offset) policyId token (times offset)
        (leaseIds offset) d with
    | error error =>
      refine ⟨by simp, by simpa using hallows, nofun, iff_of_false nofun fun h => ?_⟩
      have hnone := (hheld d).mpr ⟨rfl, h offset (by simp) hallows⟩
      cases hacquire.symm.trans hnone
    | ok outcome =>
      obtain ⟨lease, d'⟩ := outcome
      cases lease with
      | some lease =>
        refine ⟨by simp, by simpa using hallows, fun found hfound => ?_,
          iff_of_false nofun fun h => ?_⟩
        · cases hfound
          exact List.mem_singleton.mpr (publicPort_of_acquire hacquire)
        · have hnone := (hheld d).mpr ⟨rfl, h offset (by simp) hallows⟩
          cases hacquire.symm.trans hnone
      | none =>
        obtain ⟨rfl, hhere⟩ := (hheld d').mp hacquire
        refine ⟨ih.probed.cons_cons _, ?_, fun found hfound => ?_, ih.exhausted.trans ?_⟩
        · exact List.forall_mem_cons.mpr ⟨hallows, ih.allowed⟩
        · exact List.mem_cons_of_mem _ (ih.acquired found hfound)
        · rw [List.forall_mem_cons]
          exact (and_iff_right fun _ => hhere).symm

/-- The caller leads throughout the scan: at every reading of the clock its fence is current and a
lease ends in range, and the leases in the table are older or its own. -/
structure Leads (o : PublicPortOwnership) (token : ℕ) (times : ℕ → ℕ) (d : Database) : Prop where
  current : ∀ offset, o.coordinator.assertSqliteTransactionFence token (times offset) d = .ok ()
  ends : ∀ offset, times offset + o.leaseSeconds ≤ i64Max
  older : ∀ port lease, d.publicPortOwnership.get? (.tcp, port) = some lease →
    lease.fencingToken < token ∨ lease.fencingToken = token ∧
      lease.ownerInstanceId = o.coordinator.instanceId ∧
      lease.ownerIncarnationId = o.coordinator.incarnationId

/-- The scan has leased a port that was free, and written the lease. -/
def Scan.Leases (o : PublicPortOwnership) (token : ℕ) (times : ℕ → ℕ) (d : Database) (s : Scan) :
    Prop :=
  ∃ lease, s.result = .ok lease ∧ s.database = { d with
      publicPortOwnership := d.publicPortOwnership.insert (.tcp, lease.publicPort) lease } ∧
    ∃ offset, ¬ HeldByLeadership o token (times offset) d lease.publicPort

section Leads

variable (hleads : Leads o token times d)
include hleads

theorem claimMode_of_leads {offset : ℕ} (hfree : ¬ HeldByLeadership o token (times offset) d port) :
    PublicPortLease.claimMode (d.publicPortOwnership.get? (.tcp, port)) o.coordinator token
      (times offset) = .ok .fresh := by
  cases hget : d.publicPortOwnership.get? (.tcp, port) with
  | none => rfl
  | some lease =>
    have holder := hleads.older port lease hget
    by_cases hlt : lease.fencingToken < token
    · simp [PublicPortLease.claimMode, rejectIf, hlt, hlt.not_gt, pure, Except.pure]
    · obtain ⟨htoken, hinstance, hincarnation⟩ := holder.resolve_left hlt
      have hexpired : lease.leaseUntilUnixSeconds ≤ times offset := by
        by_contra hruns
        exact hfree ⟨hleads.current offset, lease, hget, htoken, hinstance, hincarnation,
          not_le.mp hruns⟩
      simp [PublicPortLease.claimMode, rejectIf, htoken, hinstance, hincarnation, hexpired, pure,
        Except.pure]

theorem acquire_of_leads {offset : ℕ} (hport : port ≠ 0)
    (hfree : ¬ HeldByLeadership o token (times offset) d port) :
    ∃ lease, lease.publicPort = port ∧
      o.acquire .tcp port policyId token (times offset) leaseId d = .ok (some lease, { d with
        publicPortOwnership := d.publicPortOwnership.insert (.tcp, port) lease }) := by
  have hfence := hleads.current offset
  obtain ⟨htoken, hfits, -⟩ := HaCoordinator.assertSqliteTransactionFence_eq_ok.mp hfence
  have hend : saturatingAddU64 (times offset) o.leaseSeconds ≤ i64Max :=
    (Nat.min_le_left _ _).trans (hleads.ends offset)
  refine ⟨_, rfl, bind_unit_eq_ok.mpr ⟨?_, bind_unit_eq_ok.mpr ⟨hfence, bind_eq_ok.mpr ⟨.fresh,
    claimMode_of_leads hleads hfree, bind_eq_ok.mpr ⟨token, ?_, bind_eq_ok.mpr
      ⟨saturatingAddU64 (times offset) o.leaseSeconds, ?_, rfl⟩⟩⟩⟩⟩⟩
  · simp [validatePortAndFence, rejectIf, hport, htoken]
  · exact asI64_eq_ok.mpr ⟨hfits, rfl⟩
  · exact asI64_eq_ok.mpr ⟨hend, rfl⟩

theorem scan_of_leads {offset : ℕ} (hoffset : offset ∈ offsets)
    (hallows : policy.allowsTcp (portAt cursor offset) = true)
    (hfree : ¬ HeldByLeadership o token (times offset) d (portAt cursor offset)) :
    (scan o policy policyId token times leaseIds cursor offsets d).Leases o token times d := by
  induction offsets with
  | nil => cases hoffset
  | cons first offsets ih =>
    rw [scan]
    split_ifs with hdenied
    · refine ih ((List.mem_cons.mp hoffset).resolve_left ?_)
      rintro rfl
      cases hallows.symm.trans hdenied
    · have hport := PublicPortPolicy.ne_zero_of_allowsTcp (Bool.eq_true_of_not_eq_false hdenied)
      by_cases hheld : HeldByLeadership o token (times first) d (portAt cursor first)
      · rw [(acquire_eq_none_iff hport).mpr ⟨rfl, hheld⟩]
        refine ih ((List.mem_cons.mp hoffset).resolve_left ?_)
        rintro rfl
        exact hfree hheld
      · obtain ⟨lease, hlease, hacquire⟩ := acquire_of_leads hleads hport hheld
        rw [hacquire]
        exact ⟨lease, rfl, hlease ▸ rfl, first, hlease ▸ hheld⟩

end Leads

/-- **Dynamic allocation is exhaustive.** If ownership does not change during the scan, then no port
is tried twice, only ports that the policy allows are tried and leased, and a leader is told that
there is no port left exactly if every allowed port is held by an unexpired lease of the current
leadership. If one is not, a leader gets a lease of such a port, and the cursor moves behind it. -/
theorem acquireTcp_exhaustive (provider : HaDynamicPortLeaseProvider) (policy : PublicPortPolicy)
    (policyId : Uuid) (times : ℕ → ℕ) (leaseIds : ℕ → Uuid) (d : Database)
    (hcursor : provider.nextTcp < 2 ^ 32 - 65535)
    (hstill : ∀ token ∈ provider.fencingToken, ∀ port offset,
      HeldByLeadership provider.ownership token (times offset) d port ↔
        HeldByLeadership provider.ownership token (times 0) d port) :
    let s := (provider.acquireTcp policy policyId times leaseIds d).1
    let provider' := (provider.acquireTcp policy policyId times leaseIds d).2
    (s.probed.Nodup ∧ ∀ port ∈ s.probed, port ≠ 0 ∧ policy.allowsTcp port = true) ∧
      (∀ lease, s.result = .ok lease → policy.allowsTcp lease.publicPort = true) ∧
      (s.result = .error .exhausted ↔ ∃ token ∈ provider.fencingToken, ∀ port,
        policy.allowsTcp port = true → HeldByLeadership provider.ownership token (times 0) d port) ∧
      ∀ token ∈ provider.fencingToken, Leads provider.ownership token times d →
        (∃ port, policy.allowsTcp port = true ∧
          ¬ HeldByLeadership provider.ownership token (times 0) d port) →
        ∃ lease, s.result = .ok lease ∧ s.database = { d with
            publicPortOwnership := d.publicPortOwnership.insert (.tcp, lease.publicPort) lease } ∧
          ¬ HeldByLeadership provider.ownership token (times 0) d lease.publicPort ∧
          provider'.nextTcp = max (lease.publicPort + 1).toNat 1 := by
  intro s provider'
  have hs : s = (provider.acquireTcp policy policyId times leaseIds d).1 := rfl
  have hprovider : provider' = (provider.acquireTcp policy policyId times leaseIds d).2 := rfl
  rw [HaDynamicPortLeaseProvider.acquireTcp] at hs hprovider
  cases htoken : provider.fencingToken with
  | none =>
    rw [htoken] at hs
    rw [hs]
    exact ⟨⟨.nil, by simp⟩, by simp, by simp, by simp⟩
  | some token =>
    rw [htoken] at hs hprovider hstill
    dsimp only at hs hprovider
    rw [← hs] at hprovider
    have hfirst : max provider.nextTcp 1 - 1 < 2 ^ 32 - 65535 := by omega
    have h : Scanned provider.ownership policy token (max provider.nextTcp 1) times
        (List.range 65535) d s := by
      rw [hs]
      exact scanned (List.range 65535)
    refine ⟨⟨h.probed.nodup ?_, fun port hport => ?_⟩, fun lease hlease => ?_,
      h.exhausted.trans ?_, ?_⟩
    · refine List.Nodup.map_on (fun a ha b hb heq => ?_) List.nodup_range
      exact portAt_injOn hfirst (List.mem_range.mp ha) (List.mem_range.mp hb) heq
    · have hallows := h.allowed port hport
      exact ⟨PublicPortPolicy.ne_zero_of_allowsTcp hallows, hallows⟩
    · exact h.allowed _ (h.acquired lease hlease)
    · simp only [Option.mem_def, Option.some.injEq, exists_eq_left']
      constructor
      · intro hall port hallows
        obtain ⟨offset, hlt, rfl⟩ :=
          exists_portAt_eq hfirst (PublicPortPolicy.ne_zero_of_allowsTcp hallows)
        exact (hstill token rfl _ offset).mp (hall offset (List.mem_range.mpr hlt) hallows)
      · exact fun hall offset _ hallows => (hstill token rfl _ offset).mpr (hall _ hallows)
    · rintro _ ⟨⟩ hleads ⟨port, hallows, hfree⟩
      obtain ⟨offset, hlt, rfl⟩ :=
        exists_portAt_eq hfirst (PublicPortPolicy.ne_zero_of_allowsTcp hallows)
      have hfree : ¬ HeldByLeadership provider.ownership token (times offset) d _ :=
        fun hheld => hfree ((hstill token rfl _ offset).mp hheld)
      obtain ⟨lease, hresult, hwritten, other, hlease⟩ :=
        hs ▸ scan_of_leads hleads (List.mem_range.mpr hlt) hallows hfree
      refine ⟨lease, hresult, hwritten, fun hheld => ?_, ?_⟩
      · exact hlease ((hstill token rfl _ other).mpr hheld)
      · rw [hprovider, hresult]

end Results

namespace Sample

/-- The leader holds port 80. -/
def held : Database where
  persistent := true
  recoveryClaimed := false
  haMembers := (∅ : FiniteMap String HaMember).insert "east" ⟨"east", "1", 0, 0, 30, ""⟩
  nextToken := 2
  haLeader := some ⟨"east", "1", 1, 0, 0, 10⟩
  jobLeases := ∅
  publicPortOwnership := (∅ : FiniteMap (PublicPortProtocol × UInt16) PublicPortLease).insert
    (.tcp, 80) ⟨.tcp, 80, .fromU128 1, "east", "1", 1, .fromU128 2, 0, 0, 20⟩

/-- Only port 80 is allowed. -/
def only80 : PublicPortPolicy := ⟨⟨[⟨80, 80, by decide, by decide⟩], .singleton _⟩, .empty⟩

def provider : HaDynamicPortLeaseProvider :=
  ⟨⟨coordinator "east" "1", 20, by decide⟩, some 1, 1⟩

theorem eq_of_allows80 {port : UInt16} (h : only80.allowsTcp port = true) : port = 80 := by
  simp only [PublicPortPolicy.allowsTcp, Bool.and_eq_true, Ports.PortRanges.contains_eq_true] at h
  obtain ⟨⟨range, hrange, hport⟩, -⟩ := h
  obtain rfl := List.mem_singleton.mp hrange
  obtain ⟨hle, hge⟩ := Ports.PortRange.mem_iff.mp hport
  exact UInt16.toNat_inj.mp (Nat.le_antisymm hge hle)

/-- The answer to a request for a port at time 5. -/
def ask (d : Database) : Scan :=
  (provider.acquireTcp only80 (.fromU128 3) (fun _ => 5) (fun _ => .fromU128 4) d).1

end Sample

open Sample

/-- The only port that is allowed is held, and none is left; once it is free, it is leased. -/
theorem acquireTcp_exhaustive_80 : (ask held).result = .error .exhausted ∧
    ∃ lease, (ask { held with publicPortOwnership := ∅ }).result = .ok lease ∧
      lease.publicPort = 80 := by
  have h := fun d => acquireTcp_exhaustive provider only80 (.fromU128 3) (fun _ => 5)
    (fun _ => .fromU128 4) d (by decide) fun _ _ _ _ => Iff.rfl
  constructor
  · refine (h held).2.2.1.mpr ⟨1, rfl, fun port hallows => ?_⟩
    obtain rfl := eq_of_allows80 hallows
    exact ⟨by decide +kernel, _, rfl, rfl, rfl, rfl, by decide⟩
  · obtain ⟨-, hallowed, -, hleased⟩ := h { held with publicPortOwnership := ∅ }
    have hfree : ¬ HeldByLeadership provider.ownership 1 5
        { held with publicPortOwnership := ∅ } 80 := by
      rintro ⟨-, _, hget, -⟩
      cases hget
    obtain ⟨lease, hresult, -⟩ := hleased 1 rfl
      ⟨fun _ => by decide +kernel, fun _ => by decide, fun _ _ hget => by cases hget⟩
      ⟨80, by decide +kernel, hfree⟩
    exact ⟨lease, hresult, eq_of_allows80 (hallowed lease hresult)⟩

end LinkLake.Coordination
