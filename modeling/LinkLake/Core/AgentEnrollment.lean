import LinkLake.Core.Uuid
import LinkLake.Foundations.SelfDelimiting

/-!
# The enrollment message of an agent

The bytes that an agent signs to prove that it holds its key (`agent_enrollment_message` in the
library of the core). Behind a fixed text and the identifier of the instance come three texts, each
with its length as eight bytes in front.

A text is the sequence of its bytes; its length is a `usize`, and so it fits into the eight bytes.
-/

namespace LinkLake.Enrollment

open BigEndian

/-- A text, as the bytes of its UTF-8 form. -/
abbrev TextBytes := Sized 8

/-- What an agent enrolls with. -/
structure Claim where
  agentInstanceId : Uuid
  publicKeyHex : TextBytes
  name : TextBytes
  platform : TextBytes
  deriving DecidableEq

/-- The bytes of `linklake-agent-enrollment-v1` and a zero. -/
def enrollmentContext : List UInt8 :=
  "linklake-agent-enrollment-v1\x00".toList.map fun c => UInt8.ofNat c.toNat

def agentEnrollmentMessage (agentInstanceId : Uuid) (publicKeyHex name platform : TextBytes) :
    List UInt8 :=
  [publicKeyHex, name, platform].foldl
    (fun message field => message ++ beBytes 8 field.bytes.length ++ field.bytes)
    (enrollmentContext ++ agentInstanceId.asBytes)

/-- The message of a claim. -/
def Claim.message (claim : Claim) : List UInt8 :=
  agentEnrollmentMessage claim.agentInstanceId claim.publicKeyHex claim.name claim.platform

theorem Claim.message_eq (claim : Claim) :
    claim.message = enrollmentContext ++ (claim.agentInstanceId.asBytes ++
      (lengthPrefixed claim.publicKeyHex ++ (lengthPrefixed claim.name ++
        lengthPrefixed claim.platform))) := by
  simp [message, agentEnrollmentMessage, lengthPrefixed]

theorem selfDelimiting_asBytes : SelfDelimiting Uuid.asBytes :=
  selfDelimiting_of_length_eq Uuid.length_asBytes Uuid.asBytes_injective

theorem selfDelimiting_message : SelfDelimiting Claim.message := by
  have hfields := ((selfDelimiting_asBytes.pair ((selfDelimiting_lengthPrefixed 8).pair
    ((selfDelimiting_lengthPrefixed 8).pair (selfDelimiting_lengthPrefixed 8)))).const_append
      enrollmentContext).comp (f := fun claim : Claim =>
        (claim.agentInstanceId, claim.publicKeyHex, claim.name, claim.platform)) (by
      rintro ⟨⟩ ⟨⟩ h
      simp_all)
  intro a b r r' hpre
  rw [Claim.message_eq, Claim.message_eq] at hpre
  exact hfields a b r r' hpre

/-- **The enrollment message is injective and free of prefixes.** Two calls give the same bytes only
if they have the same arguments, and no message is the beginning of another. So a signature that is
accepted for a message is accepted for the arguments it was made for and for no others. -/
theorem agentEnrollmentMessage_injective (agentInstanceId agentInstanceId' : Uuid)
    (publicKeyHex name platform publicKeyHex' name' platform' : TextBytes) :
    (agentEnrollmentMessage agentInstanceId publicKeyHex name platform =
        agentEnrollmentMessage agentInstanceId' publicKeyHex' name' platform' →
      agentInstanceId = agentInstanceId' ∧ publicKeyHex = publicKeyHex' ∧ name = name' ∧
        platform = platform') ∧
      (agentEnrollmentMessage agentInstanceId publicKeyHex name platform <+:
          agentEnrollmentMessage agentInstanceId' publicKeyHex' name' platform' →
        agentEnrollmentMessage agentInstanceId publicKeyHex name platform =
          agentEnrollmentMessage agentInstanceId' publicKeyHex' name' platform') := by
  let claim : Claim := ⟨agentInstanceId, publicKeyHex, name, platform⟩
  let claim' : Claim := ⟨agentInstanceId', publicKeyHex', name', platform'⟩
  constructor
  · intro h
    have heq : claim = claim' := selfDelimiting_message.injective h
    simpa [claim, claim'] using heq
  · intro h
    have heq : claim = claim' := selfDelimiting_message.eq_of_isPrefix h
    change claim.message = claim'.message
    rw [heq]

/-- A name that looks like a length. -/
theorem agentEnrollmentMessage_injective_lookalike :
    agentEnrollmentMessage ⟨1⟩ ⟨[], by decide⟩ ⟨[0, 0, 0, 0, 0, 0, 0, 0], by decide⟩
        ⟨[], by decide⟩ ≠
      agentEnrollmentMessage ⟨1⟩ ⟨[], by decide⟩ ⟨[], by decide⟩
        ⟨[0, 0, 0, 0, 0, 0, 0, 0], by decide⟩ := by
  intro h
  have hname := ((agentEnrollmentMessage_injective _ _ _ _ _ _ _ _).1 h).2.2.1
  simp at hname

end LinkLake.Enrollment
