import LinkLake.Foundations.BigEndian

/-!
# UUIDs

A UUID is a 128-bit word; on the wire it is its sixteen big-endian bytes. Its text form is
lower-case hexadecimal of fixed layout, so that the text order in which the databases sort UUID
columns is the order of the words.
-/

namespace LinkLake

open BigEndian

/-- A 128-bit identifier. -/
structure Uuid where
  /-- The identifier as a number. -/
  val : BitVec 128
  deriving DecidableEq, Repr

namespace Uuid

/-- The identifier with the given number. -/
def fromU128 (n : ℕ) : Uuid := ⟨BitVec.ofNat 128 n⟩

/-- The all-zero identifier. -/
def nil : Uuid := ⟨0⟩

/-- Whether an identifier is the all-zero one. -/
def isNil (u : Uuid) : Bool := u.val == 0

/-- The sixteen bytes of an identifier. -/
def asBytes (u : Uuid) : List UInt8 := beBytes 16 u.val.toNat

/-- The identifier with the given bytes. -/
def fromBytes (bs : List UInt8) : Uuid := fromU128 (ofBeBytes bs)

@[simp] theorem length_asBytes (u : Uuid) : u.asBytes.length = 16 := length_beBytes _ _

theorem toNat_lt (u : Uuid) : u.val.toNat < 256 ^ 16 := by
  have := u.val.isLt
  norm_num at this ⊢
  exact this

@[simp] theorem fromBytes_asBytes (u : Uuid) : fromBytes u.asBytes = u := by
  rw [fromBytes, asBytes, ofBeBytes_beBytes u.toNat_lt, fromU128, BitVec.ofNat_toNat]
  simp

theorem asBytes_injective : Function.Injective asBytes := fun u v h => by
  rw [← fromBytes_asBytes u, h, fromBytes_asBytes]

/-- The order of the text forms. -/
instance : LE Uuid := ⟨fun u v => u.val.toNat ≤ v.val.toNat⟩

instance : DecidableLE Uuid := fun u v => inferInstanceAs (Decidable (u.val.toNat ≤ v.val.toNat))

end Uuid

end LinkLake
