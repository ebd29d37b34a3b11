import LinkLake.Core.Socks5Fragment
import LinkLake.Foundations.AddressPrefix

/-!
# Egress policy

Which addresses a dynamic proxy may connect to (`egress_policy.rs`). An address is classified by a
chain of prefix tests; an IPv6 address that carries an IPv4 address is classified by the latter, or is
not allowed at all.

The forms in which an IPv6 address carries an IPv4 address are spelled out below as concatenations of
bits. In the proofs an address is a number, and a prefix test compares quotients.
-/

namespace LinkLake.Egress

open Socks5 (IpAddr)

/-! ## Model -/

/-- The kinds of addresses that the policy tells apart. -/
inductive EgressAddressClass
  | publicAddress
  | privateNetwork
  | cloudMetadata
  | sensitive
  deriving DecidableEq, Repr

/-- The policy for targets of connections. -/
structure EgressPolicy where
  allowPrivateNetworks : Bool
  deriving DecidableEq, Repr

/-- Why a target is denied. -/
inductive EgressPolicyError
  | privateNetworkDenied
  | cloudMetadataDenied
  | sensitiveAddressDenied
  deriving DecidableEq, Repr

/-- `Ipv4Addr::new`. -/
def ipv4 (a b c d : ℕ) : BitVec 32 := BitVec.ofNat 32 (((a * 256 + b) * 256 + c) * 256 + d)

/-- `Ipv6Addr::new`. -/
def ipv6 (a b c d e f g h : ℕ) : BitVec 128 :=
  BitVec.ofNat 128 (((((((a * 65536 + b) * 65536 + c) * 65536 + d) * 65536 + e) * 65536 + f) * 65536
    + g) * 65536 + h)

/-- The address is in the network. -/
def ipv4InPrefix (address network : BitVec 32) (length : ℕ) : Bool :=
  address &&& networkMask 32 length == network &&& networkMask 32 length

/-- The address is in the network. -/
def ipv6InPrefix (address network : BitVec 128) (length : ℕ) : Bool :=
  address &&& networkMask 128 length == network &&& networkMask 128 length

/-- The kind of an IPv4 address; the first network that has it decides. -/
def classifyIpv4 (address : BitVec 32) : EgressAddressClass :=
  if address = ipv4 169 254 169 254 || address = ipv4 100 100 100 200 ||
      address = ipv4 168 63 129 16 then .cloudMetadata
  else if ipv4InPrefix address (ipv4 10 0 0 0) 8 || ipv4InPrefix address (ipv4 100 64 0 0) 10 ||
      ipv4InPrefix address (ipv4 172 16 0 0) 12 ||
      ipv4InPrefix address (ipv4 192 168 0 0) 16 then .privateNetwork
  else if ipv4InPrefix address (ipv4 0 0 0 0) 8 || ipv4InPrefix address (ipv4 127 0 0 1) 8 ||
      ipv4InPrefix address (ipv4 169 254 0 0) 16 || ipv4InPrefix address (ipv4 192 0 0 0) 24 ||
      ipv4InPrefix address (ipv4 192 0 2 0) 24 || ipv4InPrefix address (ipv4 192 88 99 0) 24 ||
      ipv4InPrefix address (ipv4 198 18 0 0) 15 || ipv4InPrefix address (ipv4 198 51 100 0) 24 ||
      ipv4InPrefix address (ipv4 203 0 113 0) 24 || ipv4InPrefix address (ipv4 224 0 0 0) 4 ||
      ipv4InPrefix address (ipv4 240 0 0 0) 4 then .sensitive
  else .publicAddress

/-- The IPv4 address behind `::ffff:0:0/96`. -/
def toIpv4Mapped (address : BitVec 128) : Option (BitVec 32) :=
  if address.extractLsb' 32 96 = 0xffff#96 then some (address.extractLsb' 0 32) else none

/-- The kind of an IPv6 address; a mapped or NAT64 address has that of its IPv4 address. -/
def classifyIpv6 (address : BitVec 128) : EgressAddressClass :=
  match toIpv4Mapped address with
  | some mapped => classifyIpv4 mapped
  | none =>
    if ipv6InPrefix address (ipv6 0x0064 0xff9b 0 0 0 0 0 0) 96 then
      classifyIpv4 (address.extractLsb' 0 32)
    else if address = ipv6 0xfd00 0x0ec2 0 0 0 0 0 0x0254 then .cloudMetadata
    else if ipv6InPrefix address (ipv6 0xfc00 0 0 0 0 0 0 0) 7 then .privateNetwork
    else if address = ipv6 0 0 0 0 0 0 0 0 || address = ipv6 0 0 0 0 0 0 0 1 ||
        ipv6InPrefix address (ipv6 0 0 0 0 0 0 0 0) 96 ||
        ipv6InPrefix address (ipv6 0x0064 0xff9b 0x0001 0 0 0 0 0) 48 ||
        ipv6InPrefix address (ipv6 0x0100 0 0 0 0 0 0 0) 64 ||
        ipv6InPrefix address (ipv6 0x2001 0 0 0 0 0 0 0) 23 ||
        ipv6InPrefix address (ipv6 0x2001 0x0db8 0 0 0 0 0 0) 32 ||
        ipv6InPrefix address (ipv6 0x2002 0 0 0 0 0 0 0) 16 ||
        ipv6InPrefix address (ipv6 0x3fff 0 0 0 0 0 0 0) 20 ||
        ipv6InPrefix address (ipv6 0x5f00 0 0 0 0 0 0 0) 16 ||
        ipv6InPrefix address (ipv6 0xfe80 0 0 0 0 0 0 0) 10 ||
        ipv6InPrefix address (ipv6 0xfec0 0 0 0 0 0 0 0) 10 ||
        ipv6InPrefix address (ipv6 0xff00 0 0 0 0 0 0 0) 8 ||
        !ipv6InPrefix address (ipv6 0x2000 0 0 0 0 0 0 0) 3 then .sensitive
    else .publicAddress

/-- The kind of an address. -/
def classifyIp : IpAddr → EgressAddressClass
  | .v4 address => classifyIpv4 address
  | .v6 address => classifyIpv6 address

/-- The policy allows connections to the address. -/
def EgressPolicy.validateIp (policy : EgressPolicy) (address : IpAddr) :
    Except EgressPolicyError Unit :=
  match classifyIp address with
  | .publicAddress => .ok ()
  | .privateNetwork =>
    if policy.allowPrivateNetworks then .ok () else .error .privateNetworkDenied
  | .cloudMetadata => .error .cloudMetadataDenied
  | .sensitive => .error .sensitiveAddressDenied

/-- Only public addresses. -/
def EgressPolicy.publicOnly : EgressPolicy := ⟨false⟩

/-! ## Kinds of addresses -/

/-- The addresses from `low` to `high`. -/
def Between {w : ℕ} (low high address : BitVec w) : Prop :=
  low.toNat ≤ address.toNat ∧ address.toNat ≤ high.toNat

namespace V4

/-- RFC 1918 and the shared address space. -/
def IsPrivate (a : BitVec 32) : Prop :=
  Between (ipv4 10 0 0 0) (ipv4 10 255 255 255) a ∨
    Between (ipv4 172 16 0 0) (ipv4 172 31 255 255) a ∨
    Between (ipv4 192 168 0 0) (ipv4 192 168 255 255) a ∨
    Between (ipv4 100 64 0 0) (ipv4 100 127 255 255) a

/-- The metadata services of clouds. -/
def IsMetadata (a : BitVec 32) : Prop :=
  a = ipv4 169 254 169 254 ∨ a = ipv4 100 100 100 200 ∨ a = ipv4 168 63 129 16

/-- The host itself. -/
def IsLoopback (a : BitVec 32) : Prop := Between (ipv4 127 0 0 0) (ipv4 127 255 255 255) a

/-- Addresses of one link. -/
def IsLinkLocal (a : BitVec 32) : Prop := Between (ipv4 169 254 0 0) (ipv4 169 254 255 255) a

/-- Addresses of groups. -/
def IsMulticast (a : BitVec 32) : Prop := Between (ipv4 224 0 0 0) (ipv4 239 255 255 255) a

/-- Loopback, unspecified, link-local, multicast or metadata. -/
def IsForbidden (a : BitVec 32) : Prop :=
  IsLoopback a ∨ a = ipv4 0 0 0 0 ∨ IsLinkLocal a ∨ IsMulticast a ∨ IsMetadata a

end V4

/-- The IPv6 forms of an IPv4 address that stand for it. -/
inductive Delegates (a : BitVec 32) : BitVec 128 → Prop
  | mapped : Delegates a (0xffff#96 ++ a)
  | nat64 : Delegates a (0x0064ff9b0000000000000000#96 ++ a)

/-- The IPv6 addresses that can carry an IPv4 address. In the prefix for local use it may stand
anywhere, and in a Teredo address it is obfuscated, so that no bits behind the prefix are fixed. -/
inductive Embeds (a : BitVec 32) : BitVec 128 → Prop
  | delegates {x : BitVec 128} : Delegates a x → Embeds a x
  | compatible : Embeds a (0#96 ++ a)
  | localUse (rest : BitVec 80) : Embeds a (0x0064ff9b0001#48 ++ rest)
  | sixToFour (rest : BitVec 80) : Embeds a (0x2002#16 ++ a ++ rest)
  | teredo (rest : BitVec 96) : Embeds a (0x20010000#32 ++ rest)

namespace V6

/-- The metadata address of IPv6. -/
def metadata : BitVec 128 := ipv6 0xfd00 0x0ec2 0 0 0 0 0 0x0254

/-- Unique local addresses, `fc00::/7`. -/
def IsUniqueLocal (x : BitVec 128) : Prop :=
  Between (ipv6 0xfc00 0 0 0 0 0 0 0)
    (ipv6 0xfdff 0xffff 0xffff 0xffff 0xffff 0xffff 0xffff 0xffff) x

/-- A unique local address, or a private IPv4 address in another form. -/
def IsPrivate (x : BitVec 128) : Prop := IsUniqueLocal x ∨ ∃ a, Delegates a x ∧ V4.IsPrivate a

/-- A metadata service, directly or by its IPv4 address in another form. -/
def IsMetadata (x : BitVec 128) : Prop := x = metadata ∨ ∃ a, Delegates a x ∧ V4.IsMetadata a

/-- Addresses of one link, `fe80::/10`. -/
def IsLinkLocal (x : BitVec 128) : Prop :=
  Between (ipv6 0xfe80 0 0 0 0 0 0 0)
    (ipv6 0xfebf 0xffff 0xffff 0xffff 0xffff 0xffff 0xffff 0xffff) x

/-- Addresses of groups, `ff00::/8`. -/
def IsMulticast (x : BitVec 128) : Prop :=
  Between (ipv6 0xff00 0 0 0 0 0 0 0)
    (ipv6 0xffff 0xffff 0xffff 0xffff 0xffff 0xffff 0xffff 0xffff) x

/-- Loopback, unspecified, link-local, multicast or metadata, also of an embedded address. -/
def IsForbidden (x : BitVec 128) : Prop :=
  x = ipv6 0 0 0 0 0 0 0 1 ∨ x = ipv6 0 0 0 0 0 0 0 0 ∨ IsLinkLocal x ∨ IsMulticast x ∨
    x = metadata ∨ ∃ a, Embeds a x ∧ V4.IsForbidden a

end V6

/-- Private addresses of either family. -/
def IsPrivate : IpAddr → Prop
  | .v4 a => V4.IsPrivate a
  | .v6 x => V6.IsPrivate x

/-- Metadata services of either family. -/
def IsMetadata : IpAddr → Prop
  | .v4 a => V4.IsMetadata a
  | .v6 x => V6.IsMetadata x

/-- Addresses that no policy allows. -/
def IsForbidden : IpAddr → Prop
  | .v4 a => V4.IsForbidden a
  | .v6 x => V6.IsForbidden x

/-! ## Classification in numbers -/

variable {length : ℕ}

theorem ipv4InPrefix_iff {address network : BitVec 32} :
    ipv4InPrefix address network length = true ↔
      address.toNat / 2 ^ (32 - length) = network.toNat / 2 ^ (32 - length) := by
  rw [ipv4InPrefix, beq_iff_eq, and_networkMask_eq_iff]

theorem ipv6InPrefix_iff {address network : BitVec 128} :
    ipv6InPrefix address network length = true ↔
      address.toNat / 2 ^ (128 - length) = network.toNat / 2 ^ (128 - length) := by
  rw [ipv6InPrefix, beq_iff_eq, and_networkMask_eq_iff]

variable {a : BitVec 32} {address : IpAddr} {x : BitVec 128}

theorem classifyIpv4_eq_privateNetwork :
    classifyIpv4 a = .privateNetwork ↔ V4.IsPrivate a ∧ ¬ V4.IsMetadata a := by
  simp only [classifyIpv4, V4.IsPrivate, V4.IsMetadata, Between, ← BitVec.toNat_inj,
    Bool.or_eq_true, decide_eq_true_eq, ipv4InPrefix_iff, ipv4, BitVec.toNat_ofNat, Nat.reduceMul,
    Nat.reduceAdd, Nat.reducePow, Nat.reduceSub, Nat.reduceMod, Nat.reduceDiv]
  split_ifs <;> simp only [true_iff, false_iff] <;> omega

theorem classifyIpv4_of_isForbidden (h : V4.IsForbidden a) :
    classifyIpv4 a = .cloudMetadata ∨ classifyIpv4 a = .sensitive := by
  simp only [V4.IsForbidden, V4.IsLoopback, V4.IsLinkLocal, V4.IsMulticast, V4.IsMetadata, Between,
    ← BitVec.toNat_inj, ipv4, BitVec.toNat_ofNat, Nat.reduceMul, Nat.reduceAdd, Nat.reducePow,
    Nat.reduceMod] at h
  simp only [classifyIpv4, ← BitVec.toNat_inj,
    Bool.or_eq_true, decide_eq_true_eq, ipv4InPrefix_iff, ipv4, BitVec.toNat_ofNat, Nat.reduceMul,
    Nat.reduceAdd, Nat.reducePow, Nat.reduceSub, Nat.reduceMod, Nat.reduceDiv]
  split_ifs <;> simp only [or_self, or_true, true_or] <;> omega

theorem toIpv4Mapped_eq :
    toIpv4Mapped x = if x.toNat / 2 ^ 32 = 0xffff then some (x.extractLsb' 0 32) else none := by
  have hlt := x.isLt
  have htop : x.extractLsb' 32 96 = 0xffff#96 ↔ x.toNat / 2 ^ 32 = 0xffff := by
    rw [← BitVec.toNat_inj, BitVec.extractLsb'_toNat, Nat.shiftRight_eq_div_pow, BitVec.toNat_ofNat]
    omega
  rw [toIpv4Mapped]
  simp only [htop]

theorem delegates_iff :
    Delegates a x ↔ (x.toNat / 2 ^ 32 = 0xffff ∨ x.toNat / 2 ^ 32 = 0x0064ff9b0000000000000000) ∧
      x.toNat % 2 ^ 32 = a.toNat := by
  have hlt := a.isLt
  have hform : ∀ high : BitVec 96, x = high ++ a ↔
      x.toNat / 2 ^ 32 = high.toNat ∧ x.toNat % 2 ^ 32 = a.toNat := by
    intro high
    rw [← BitVec.toNat_inj, toNat_append_eq]
    omega
  constructor
  · rintro (_ | _)
    · exact ⟨.inl ((hform _).mp rfl).1, ((hform _).mp rfl).2⟩
    · exact ⟨.inr ((hform _).mp rfl).1, ((hform _).mp rfl).2⟩
  · rintro ⟨htop | htop, hlow⟩
    · rw [(hform 0xffff#96).mpr ⟨htop, hlow⟩]
      exact .mapped
    · rw [(hform 0x0064ff9b0000000000000000#96).mpr ⟨htop, hlow⟩]
      exact .nat64

theorem Delegates.classifyIpv6_eq (h : Delegates a x) : classifyIpv6 x = classifyIpv4 a := by
  obtain ⟨htop, hlow⟩ := delegates_iff.mp h
  have hextract : x.extractLsb' 0 32 = a := by
    rw [← BitVec.toNat_inj, BitVec.extractLsb'_toNat, Nat.shiftRight_zero, hlow]
  unfold classifyIpv6
  rw [toIpv4Mapped_eq, hextract]
  rcases htop with htop | htop
  · rw [if_pos htop]
  · rw [if_neg (by omega)]
    simp only
    rw [if_pos]
    rw [ipv6InPrefix_iff, ipv6, BitVec.toNat_ofNat]
    omega

theorem classifyIpv6_native (h : ∀ a, ¬ Delegates a x) : classifyIpv6 x =
      if x = V6.metadata then .cloudMetadata
      else if x.toNat / 2 ^ 121 = 0x7e then .privateNetwork
      else if x.toNat / 2 ^ 32 = 0 ∨ x.toNat / 2 ^ 80 = 0x0064ff9b0001 ∨
          x.toNat / 2 ^ 64 = 0x0100000000000000 ∨ x.toNat / 2 ^ 105 = 0x100080 ∨
          x.toNat / 2 ^ 96 = 0x20010db8 ∨ x.toNat / 2 ^ 112 = 0x2002 ∨
          x.toNat / 2 ^ 108 = 0x3fff0 ∨ x.toNat / 2 ^ 125 ≠ 1 then .sensitive
      else .publicAddress := by
  have hlow : x.toNat % 2 ^ 32 = (x.extractLsb' 0 32).toNat := by
    rw [BitVec.extractLsb'_toNat, Nat.shiftRight_zero]
  have hmapped : x.toNat / 2 ^ 32 ≠ 0xffff := fun htop =>
    h _ (delegates_iff.mpr ⟨.inl htop, hlow⟩)
  have hnat64 : x.toNat / 2 ^ 32 ≠ 0x0064ff9b0000000000000000 := fun htop =>
    h _ (delegates_iff.mpr ⟨.inr htop, hlow⟩)
  unfold classifyIpv6
  rw [toIpv4Mapped_eq, if_neg hmapped]
  simp only [Bool.or_eq_true, Bool.not_eq_true', ← Bool.not_eq_true, decide_eq_true_eq,
    ipv6InPrefix_iff]
  rw [if_neg]
  · refine if_congr Iff.rfl rfl (if_congr ?_ rfl (if_congr ?_ rfl rfl))
    · rw [ipv6, BitVec.toNat_ofNat]
      omega
    · simp only [← BitVec.toNat_inj, ipv6, BitVec.toNat_ofNat, Nat.reduceMul, Nat.reduceAdd,
        Nat.reducePow, Nat.reduceSub, Nat.reduceMod, Nat.reduceDiv]
      omega
  · rw [ipv6, BitVec.toNat_ofNat]
    omega

/-! ## Embedded addresses -/

theorem Embeds.classifyIpv6_eq (h : Embeds a x) :
    classifyIpv6 x = classifyIpv4 a ∨ classifyIpv6 x = .sensitive := by
  have hclosed : x.toNat / 2 ^ 32 = 0 ∨ x.toNat / 2 ^ 80 = 0x0064ff9b0001 ∨
      x.toNat / 2 ^ 112 = 0x2002 ∨ x.toNat / 2 ^ 96 = 0x20010000 → classifyIpv6 x = .sensitive := by
    intro hsame
    have hnative : ∀ a, ¬ Delegates a x := by
      intro a hdelegates
      have := (delegates_iff.mp hdelegates).1
      omega
    have hmetadata : x ≠ V6.metadata := by
      rintro rfl
      simp only [V6.metadata, ipv6, BitVec.toNat_ofNat] at hsame
      omega
    rw [classifyIpv6_native hnative, if_neg hmetadata, if_neg (by omega), if_pos (by omega)]
  cases h with
  | delegates h => exact .inl h.classifyIpv6_eq
  | compatible =>
    right
    apply hclosed
    have := a.isLt
    rw [toNat_append_eq, BitVec.toNat_ofNat]
    omega
  | localUse rest =>
    right
    apply hclosed
    have := rest.isLt
    rw [toNat_append_eq, BitVec.toNat_ofNat]
    omega
  | sixToFour rest =>
    right
    apply hclosed
    have := rest.isLt
    have := a.isLt
    rw [toNat_append_eq, toNat_append_eq, BitVec.toNat_ofNat]
    omega
  | teredo rest =>
    right
    apply hclosed
    have := rest.isLt
    rw [toNat_append_eq, BitVec.toNat_ofNat]
    omega

theorem Delegates.unique {b : BitVec 32} (ha : Delegates a x) (hb : Delegates b x) : a = b := by
  rw [← BitVec.toNat_inj, ← (delegates_iff.mp ha).2, (delegates_iff.mp hb).2]

theorem Delegates.not_native (h : Delegates a x) : ¬ V6.IsUniqueLocal x ∧ x ≠ V6.metadata := by
  have htop := (delegates_iff.mp h).1
  constructor
  · simp only [V6.IsUniqueLocal, Between, ipv6, BitVec.toNat_ofNat]
    omega
  · rintro rfl
    simp only [V6.metadata, ipv6, BitVec.toNat_ofNat] at htop
    omega

theorem classifyIpv6_eq_privateNetwork :
    classifyIpv6 x = .privateNetwork ↔ V6.IsPrivate x ∧ ¬ V6.IsMetadata x := by
  by_cases hdelegates : ∃ a, Delegates a x
  · obtain ⟨a, ha⟩ := hdelegates
    have hexists : ∀ P : BitVec 32 → Prop, (∃ b, Delegates b x ∧ P b) ↔ P a := fun P =>
      ⟨fun ⟨b, hb, hP⟩ => ha.unique hb ▸ hP, fun hP => ⟨a, ha, hP⟩⟩
    rw [ha.classifyIpv6_eq, classifyIpv4_eq_privateNetwork, V6.IsPrivate, V6.IsMetadata,
      hexists, hexists, or_iff_right ha.not_native.1, or_iff_right ha.not_native.2]
  · rw [not_exists] at hdelegates
    have hnone : ∀ P : BitVec 32 → Prop, ¬ ∃ b, Delegates b x ∧ P b := fun P ⟨b, hb, _⟩ =>
      hdelegates b hb
    rw [classifyIpv6_native hdelegates, V6.IsPrivate, V6.IsMetadata, or_iff_left (hnone _),
      or_iff_left (hnone _)]
    have hlocal : V6.IsUniqueLocal x ↔ x.toNat / 2 ^ 121 = 0x7e := by
      simp only [V6.IsUniqueLocal, Between, ipv6, BitVec.toNat_ofNat]
      omega
    split_ifs with hmetadata hsame <;> rw [← hlocal] at *
    · simp [hmetadata]
    · simp [hmetadata, hsame]
    · simp [hsame]
    · simp [hsame]

theorem classifyIpv6_of_isForbidden (h : V6.IsForbidden x) :
    classifyIpv6 x = .cloudMetadata ∨ classifyIpv6 x = .sensitive := by
  have hnative : x = ipv6 0 0 0 0 0 0 0 1 ∨ x = ipv6 0 0 0 0 0 0 0 0 ∨ V6.IsLinkLocal x ∨
      V6.IsMulticast x ∨ x = V6.metadata →
      classifyIpv6 x = .cloudMetadata ∨ classifyIpv6 x = .sensitive := by
    intro hkind
    simp only [V6.IsLinkLocal, V6.IsMulticast, Between, V6.metadata, ← BitVec.toNat_inj, ipv6,
      BitVec.toNat_ofNat] at hkind
    have hdelegates : ∀ a, ¬ Delegates a x := by
      intro a ha
      have := (delegates_iff.mp ha).1
      omega
    rw [classifyIpv6_native hdelegates]
    split_ifs with hmetadata hlocal
    · exact .inl rfl
    · simp only [V6.metadata, ← BitVec.toNat_inj, ipv6, BitVec.toNat_ofNat] at hmetadata
      omega
    · exact .inr rfl
    · simp only [V6.metadata, ← BitVec.toNat_inj, ipv6, BitVec.toNat_ofNat] at hmetadata
      omega
  rcases h with h | h | h | h | h | ⟨a, ha, hforbidden⟩
  · exact hnative (.inl h)
  · exact hnative (.inr (.inl h))
  · exact hnative (.inr (.inr (.inl h)))
  · exact hnative (.inr (.inr (.inr (.inl h))))
  · exact hnative (.inr (.inr (.inr (.inr h))))
  · rcases ha.classifyIpv6_eq with heq | heq
    · rw [heq]
      exact classifyIpv4_of_isForbidden hforbidden
    · exact .inr heq

/-! ## The policy -/

theorem validateIp_eq_ok {policy : EgressPolicy} :
    policy.validateIp address = .ok () ↔ classifyIp address = .publicAddress ∨
      classifyIp address = .privateNetwork ∧ policy.allowPrivateNetworks = true := by
  unfold EgressPolicy.validateIp
  cases classifyIp address <;> cases policy.allowPrivateNetworks <;> simp

theorem classifyIp_eq_privateNetwork :
    classifyIp address = .privateNetwork ↔ IsPrivate address ∧ ¬ IsMetadata address := by
  cases address with
  | v4 a => exact classifyIpv4_eq_privateNetwork
  | v6 x => exact classifyIpv6_eq_privateNetwork

theorem classifyIp_of_isForbidden (h : IsForbidden address) :
    classifyIp address = .cloudMetadata ∨ classifyIp address = .sensitive := by
  cases address with
  | v4 a => exact classifyIpv4_of_isForbidden h
  | v6 x => exact classifyIpv6_of_isForbidden h

/-- **Embedding does not get around the policy.** An IPv6 address that carries an IPv4 address is
accepted only if the IPv4 address is; with private networks allowed, what is accepted in addition is
exactly the private networks without the metadata addresses; and a loopback, unspecified, link-local,
multicast or metadata address is never accepted, in whatever form. -/
theorem validateIp_embedding :
    (∀ (policy : EgressPolicy) (a : BitVec 32) (x : BitVec 128), Embeds a x →
        policy.validateIp (.v6 x) = .ok () → policy.validateIp (.v4 a) = .ok ()) ∧
      (∀ address, (EgressPolicy.validateIp ⟨true⟩ address = .ok () ∧
          EgressPolicy.publicOnly.validateIp address ≠ .ok ()) ↔
        classifyIp address = .privateNetwork) ∧
      (∀ address, classifyIp address = .privateNetwork ↔ IsPrivate address ∧ ¬ IsMetadata address) ∧
      ∀ (policy : EgressPolicy) (address : IpAddr), IsForbidden address →
        policy.validateIp address ≠ .ok () := by
  refine ⟨?_, ?_, fun address => classifyIp_eq_privateNetwork, ?_⟩
  · intro policy a x hembeds hok
    rw [validateIp_eq_ok] at hok ⊢
    rcases hembeds.classifyIpv6_eq with heq | heq
    · simpa only [classifyIp, heq] using hok
    · simp [classifyIp, heq] at hok
  · intro address
    rw [Ne, validateIp_eq_ok, validateIp_eq_ok]
    cases hclass : classifyIp address <;> simp [EgressPolicy.publicOnly]
  · intro policy address hforbidden hok
    rw [validateIp_eq_ok] at hok
    rcases classifyIp_of_isForbidden hforbidden with heq | heq
    · simp [heq] at hok
    · simp [heq] at hok

/-- The metadata service behind the NAT64 prefix. -/
theorem validateIp_embedding_metadata :
    Embeds (ipv4 169 254 169 254) (0x0064ff9b0000000000000000#96 ++ ipv4 169 254 169 254) ∧
      EgressPolicy.validateIp ⟨true⟩
        (.v6 (0x0064ff9b0000000000000000#96 ++ ipv4 169 254 169 254)) ≠ .ok () ∧
      EgressPolicy.validateIp ⟨true⟩ (.v4 (ipv4 8 8 8 8)) = .ok () :=
  ⟨.delegates .nat64,
    validateIp_embedding.2.2.2 ⟨true⟩ _ (.inr (.inr (.inr (.inr (.inr
      ⟨_, .delegates .nat64, .inr (.inr (.inr (.inr (.inl rfl))))⟩))))),
    validateIp_embedding.1 ⟨true⟩ _ (0xffff#96 ++ ipv4 8 8 8 8) (.delegates .mapped)
      (by decide +kernel)⟩

end LinkLake.Egress
