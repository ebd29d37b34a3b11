import LinkLake.Core.Uuid
import LinkLake.Foundations.Crashes
import LinkLake.Foundations.FiniteMap
import LinkLake.Foundations.Runs
import LinkLake.Foundations.Text

/-!
# Receipts of remote updates

The receipts by which a component resumes a remote update after its restart, and the quarantine into
which a receipt is moved when the update cannot be resumed (`linklake-update/src/lib.rs`, with
`write_durable_bytes_create_new` of `durable.rs`).

A receipt is created once. Its bytes are written to a temporary file, which is then published under
the name of the receipt by a hard link, and unlinked. A call that finds a temporary file older than
five seconds takes it for the remains of an interrupted call, and publishes it.

The file system is a map from names to files; a hard link is a second name of the same inode. Both
directories are one map here, since their names differ. The model is that of Unix; permission bits
are those a new file gets, and a path in the text of an error is left out.
-/

namespace LinkLake.RemoteResume

open Text

abbrev Bytes := List UInt8

/-- The bytes of a text. -/
def utf8 (text : String) : Bytes := text.toUTF8.toList

/-! ## Files -/

/-- A file that is created once: the receipt of a client for a server, or a quarantine record. -/
inductive ManagedName
  | receipt (clientId : Uuid) (origin : String)
  | record (recordId : String)
  deriving DecidableEq, Repr

/-- What tells the temporary files of a target apart. -/
structure Nonce where
  pid : ℕ
  id : Uuid
  deriving DecidableEq, Repr

inductive FileName
  | target (name : ManagedName)
  | temporary (name : ManagedName) (nonce : Nonce)
  deriving DecidableEq, Repr

structure File where
  inode : ℕ
  bytes : Bytes
  modified : ℕ
  deriving DecidableEq, Repr

structure Metadata where
  links : ℕ
  modified : ℕ
  deriving DecidableEq, Repr

structure Disk where
  files : FiniteMap FileName File
  nextInode : ℕ

namespace Disk

/-- No files. -/
def empty : Disk := ⟨∅, 0⟩

/-- The number of names of an inode. -/
def links (d : Disk) (inode : ℕ) : ℕ := d.files.total fun file => if file.inode = inode then 1 else 0

/-- A file gets other content. -/
def setBytes (d : Disk) (name : FileName) (bytes : Bytes) : Disk :=
  match d.files.get? name with
  | none => d
  | some file => { d with files := d.files.insert name { file with bytes := bytes } }

end Disk

/-! ## Actions -/

/-- The calls to the operating system that matter. -/
inductive Action
  | readDir
  | stat (name : FileName)
  | read (name : FileName)
  | createNew (name : FileName) (now : ℕ)
  | writeAll (name : FileName) (bytes : Bytes)
  | syncAll (name : FileName)
  | hardLink (source target : FileName)
  | unlink (name : FileName)
  deriving DecidableEq, Repr

@[reducible] def Action.Answer : Action → Type
  | .readDir => List FileName
  | .stat _ => Option Metadata
  | .read _ => Option Bytes
  | .createNew _ _ => Bool
  | .hardLink _ _ => Bool
  | _ => Unit

/-- What the operating system decides: the order of a directory, and how much of a file a crash
leaves that has not been synced. -/
structure Choice where
  order : List FileName
  kept : ℕ
  deriving DecidableEq, Repr

/-- The effect of an action. -/
def perform (choice : Choice) (d : Disk) : (action : Action) → action.Answer × Disk
  | .readDir => (if choice.order.Perm d.files.keys then choice.order else d.files.keys, d)
  | .stat name => ((d.files.get? name).map fun file => ⟨d.links file.inode, file.modified⟩, d)
  | .read name => ((d.files.get? name).map File.bytes, d)
  | .createNew name now => match d.files.get? name with
    | some _ => (false, d)
    | none => (true, ⟨d.files.insert name ⟨d.nextInode, [], now⟩, d.nextInode + 1⟩)
  | .writeAll name bytes => ((), d.setBytes name bytes)
  | .syncAll _ => ((), d)
  | .hardLink source target => match d.files.get? source, d.files.get? target with
    | some file, none => (true, { d with files := d.files.insert target file })
    | _, _ => (false, d)
  | .unlink name => ((), { d with files := d.files.erase name })

/-- What a crash leaves of an action. Bytes that have not been synced may be lost from the end;
everything else is atomic. -/
def torn (choice : Choice) (d : Disk) : Action → Disk
  | .writeAll name bytes => d.setBytes name (bytes.take choice.kept)
  | .syncAll name => match d.files.get? name with
    | none => d
    | some file => d.setBytes name (file.bytes.take choice.kept)
  | _ => d

/-- The operating system. -/
def system : CrashMachine Action.Answer Choice Disk := ⟨perform, torn⟩

section Perform

variable {choice : Choice} {d : Disk} {name : FileName} {now : ℕ} {file : File}

theorem perform_createNew_taken (h : d.files.get? name = some file) :
    system.perform choice d (.createNew name now) = (false, d) := by
  simp only [system, perform, h]

theorem perform_createNew_free (h : d.files.get? name = none) :
    system.perform choice d (.createNew name now) =
      (true, ⟨d.files.insert name ⟨d.nextInode, [], now⟩, d.nextInode + 1⟩) := by
  simp only [system, perform, h]

theorem perform_hardLink {source target : FileName}
    (hsource : d.files.get? source = some file) (htarget : d.files.get? target = none) :
    system.perform choice d (.hardLink source target) =
      (true, { d with files := d.files.insert target file }) := by
  simp only [system, perform, hsource, htarget]

theorem setBytes_of_get? (h : d.files.get? name = some file) (bytes : Bytes) :
    d.setBytes name bytes =
      { d with files := d.files.insert name { file with bytes := bytes } } := by
  simp only [Disk.setBytes, h]

theorem get?_setBytes_of_ne {other : FileName} (h : other ≠ name) (bytes : Bytes) :
    (d.setBytes name bytes).files.get? other = d.files.get? other := by
  cases hget : d.files.get? name with
  | none => simp only [Disk.setBytes, hget]
  | some file => rw [setBytes_of_get? hget, FiniteMap.get?_insert_of_ne h]

end Perform

/-! ## Errors -/

inductive ResumeError
  | nilClientId
  | originDigest
  | payloadTooLarge
  | fileTooLarge
  | alreadyExists
  | appeared
  | cannotCreate
  | cannotPublish
  | cannotRecover
  | notFound
  | temporaryUnsafe
  | notPrivate
  | resumeConflict
  | quarantineConflict
  | invalidDetail
  | malformedJson
  | malformedDigest (label : String)
  | recordIdentity
  | malformedBase64
  | unboundReceipt
  | recordConflict
  | unmanagedEntry
  | unconfirmed
  | updateActive
  deriving DecidableEq, Repr

/-- A fallible call. -/
abbrev Call := ExceptT ResumeError (Program Action.Answer)

/-- Fail unless a condition holds. -/
def ensure (condition : Bool) (error : ResumeError) : Call Unit :=
  if condition then pure () else throw error

/-- The value of an option that should be there. -/
def expect (error : ResumeError) {α : Type} : Option α → Call α
  | some a => pure a
  | none => throw error

/-- An action. -/
def sys (action : Action) : Call action.Answer := Program.take action

/-! ## Creating a file once -/

def maxRemoteUpdateResumeBytes : ℕ := 16 * 1024

def maxRemoteUpdateQuarantineBytes : ℕ := 64 * 1024

/-- Remove the temporary file, and fail. -/
def abandon (temporary : FileName) (error : ResumeError) : Call Unit := do
  sys (.unlink temporary)
  throw error

/-- Publish a temporary file that has been written and synced. -/
def publishTemporary (name : ManagedName) (nonce : Nonce) : Call Unit := do
  let target := FileName.target name
  let temporary := FileName.temporary name nonce
  match ← sys (.stat target) with
  | some _ => abandon temporary .appeared
  | none =>
    match ← sys (.hardLink temporary target) with
    | false => abandon temporary .cannotPublish
    | true => sys (.unlink temporary)

/-- Write bytes under a name that is not taken. A failure removes the temporary file. -/
def writeDurableBytesCreateNew (name : ManagedName) (nonce : Nonce) (bytes : Bytes)
    (maxBytes now : ℕ) : Call Unit := do
  let temporary := FileName.temporary name nonce
  ensure (bytes.length ≤ maxBytes) .payloadTooLarge
  let existing ← sys (.stat (.target name))
  ensure existing.isNone .alreadyExists
  match ← sys (.createNew temporary now) with
  | false => abandon temporary .cannotCreate
  | true =>
    sys (.writeAll temporary bytes)
    sys (.syncAll temporary)
    publishTemporary name nonce

/-- Read a file of limited size. -/
def readLimitedBytes (name : FileName) (maxBytes : ℕ) : Call Bytes := do
  let content ← sys (.read name)
  let bytes ← expect .notFound content
  ensure (bytes.length ≤ maxBytes) .fileTooLarge
  return bytes

/-- A regular file with one name. -/
def validatePrivateFile (name : FileName) : Call Unit := do
  let metadata ← sys (.stat name)
  let metadata ← expect .notFound metadata
  ensure (metadata.links == 1) .notPrivate

/-- A regular file with one name or two, and when it was modified. -/
def validateRemoteResumeTemporary (name : FileName) : Call Metadata := do
  let metadata ← sys (.stat name)
  let metadata ← expect .notFound metadata
  ensure (decide (1 ≤ metadata.links) && decide (metadata.links ≤ 2)) .temporaryUnsafe
  return metadata

/-- Publish what an interrupted call has left, or compare it with what was published. -/
def republish (name : ManagedName) (temporary : FileName) (maxBytes : ℕ)
    (conflict : ResumeError) : Call Unit := do
  let temporaryBytes ← readLimitedBytes temporary maxBytes
  match ← sys (.stat (.target name)) with
  | some _ =>
    let targetBytes ← readLimitedBytes (.target name) maxBytes
    ensure (targetBytes == temporaryBytes) conflict
  | none =>
    let linked ← sys (.hardLink temporary (.target name))
    ensure linked .cannotRecover

/-- One temporary file of the resume directory. -/
def recoverRemoteResumeTemporary (target : ManagedName) (now : ℕ) : FileName → Call Unit
  | .target _ => pure ()
  | .temporary name nonce =>
    if name = target then do
      let metadata ← validateRemoteResumeTemporary (.temporary name nonce)
      if now - metadata.modified < 5 then
        pure ()
      else do
        republish name (.temporary name nonce) maxRemoteUpdateResumeBytes .resumeConflict
        sys (.unlink (.temporary name nonce))
    else pure ()

def recoverRemoteResumeTemporaries (target : ManagedName) (now : ℕ) : Call Unit := do
  let entries ← sys .readDir
  entries.forM (recoverRemoteResumeTemporary target now)

/-- One temporary file of the quarantine directory. -/
def recoverRemoteQuarantineTemporary (now : ℕ) : FileName → Call Unit
  | .temporary (.record recordId) nonce => do
    let temporary := FileName.temporary (.record recordId) nonce
    let metadata ← validateRemoteResumeTemporary temporary
    if now - metadata.modified < 5 then
      pure ()
    else do
      republish (.record recordId) temporary maxRemoteUpdateQuarantineBytes .quarantineConflict
      sys (.unlink temporary)
      validatePrivateFile (.target (.record recordId))
  | _ => pure ()

def recoverRemoteQuarantineTemporaries (now : ℕ) : Call Unit := do
  let entries ← sys .readDir
  entries.forM (recoverRemoteQuarantineTemporary now)

/-! ## Receipts -/

/-- A SHA-256 digest in lower-case hexadecimal. -/
def isLowerSha256 (value : String) : Bool :=
  value.length == 64 && value.toList.all fun c => c.isDigit || ('a' ≤ c && c ≤ 'f')

/-- The name of a receipt, after the remains of interrupted calls have been dealt with. -/
def remoteUpdateResumePath (clientId : Uuid) (apiOriginSha256 : String) (now : ℕ) :
    Call ManagedName := do
  ensure (!clientId.isNil) .nilClientId
  ensure (isLowerSha256 apiOriginSha256) .originDigest
  let path := ManagedName.receipt clientId (String.ofList (apiOriginSha256.toList.take 16))
  recoverRemoteResumeTemporaries path now
  return path

def writeRemoteUpdateResumeReceipt (clientId : Uuid) (apiOriginSha256 : String) (bytes : Bytes)
    (nonce : Nonce) (now : ℕ) : Call Unit := do
  let path ← remoteUpdateResumePath clientId apiOriginSha256 now
  writeDurableBytesCreateNew path nonce bytes maxRemoteUpdateResumeBytes now
  validatePrivateFile (.target path)

def readRemoteUpdateResumeReceipt (clientId : Uuid) (apiOriginSha256 : String) (now : ℕ) :
    Call Bytes := do
  let path ← remoteUpdateResumePath clientId apiOriginSha256 now
  validatePrivateFile (.target path)
  readLimitedBytes (.target path) maxRemoteUpdateResumeBytes

def remoteUpdateResumeReceiptExists (clientId : Uuid) (apiOriginSha256 : String) (now : ℕ) :
    Call Bool := do
  let path ← remoteUpdateResumePath clientId apiOriginSha256 now
  match ← sys (.stat (.target path)) with
  | some _ =>
    validatePrivateFile (.target path)
    return true
  | none => return false

/-- Remove a file, if it is there. -/
def removeDurableFileIfExists (name : FileName) : Call Bool := do
  match ← sys (.stat name) with
  | some _ =>
    sys (.unlink name)
    return true
  | none => return false

def removeRemoteUpdateResumeReceipt (clientId : Uuid) (apiOriginSha256 : String) (now : ℕ) :
    Call Bool := do
  let path ← remoteUpdateResumePath clientId apiOriginSha256 now
  removeDurableFileIfExists (.target path)

/-! ## Quarantine -/

inductive RemoteUpdateQuarantineReason
  | deadlineExceeded
  | taskMissing
  | leaseAuthorityLost
  | terminalConflict
  | controlUnavailableAfterDeadline
  | invalidReceipt
  | localStateConflict
  | localVerificationFailed
  deriving DecidableEq, Repr

structure RemoteUpdateQuarantineRecord where
  schemaVersion : ℕ
  recordId : String
  clientId : Uuid
  apiOriginSha256 : String
  receiptLength : ℕ
  receiptSha256 : String
  receiptBase64 : String
  reason : RemoteUpdateQuarantineReason
  detail : String
  quarantinedUnixSeconds : ℕ
  deriving DecidableEq, Repr

/-- The codecs: JSON and Base64, which round-trip, and the digest, whose text is lower-case
hexadecimal. -/
structure Codec where
  encode : RemoteUpdateQuarantineRecord → Bytes
  decode : Bytes → Option RemoteUpdateQuarantineRecord
  base64 : Bytes → String
  fromBase64 : String → Option Bytes
  sha256 : Bytes → String
  decode_encode : ∀ record, decode (encode record) = some record
  fromBase64_base64 : ∀ bytes, fromBase64 (base64 bytes) = some bytes
  sha256_lower : ∀ bytes, isLowerSha256 (sha256 bytes) = true

section Quarantine

variable (codec : Codec)

def remoteUpdateQuarantineRecordId (clientId : Uuid) (apiOriginSha256 : String)
    (receipt : Bytes) : String :=
  codec.sha256 (utf8 "linklake-remote-update-quarantine-v1\x00" ++ clientId.asBytes
    ++ utf8 apiOriginSha256 ++ receipt)

def maxRemoteUpdateQuarantineDetailBytes : ℕ := 2 * 1024

def remoteUpdateQuarantineSchemaVersion : ℕ := 1

/-- A detail is not blank, not too long and without NUL. -/
@[irreducible] def validDetail (detail : String) : Bool :=
  trim detail != "" && decide (detail.utf8ByteSize ≤ maxRemoteUpdateQuarantineDetailBytes)
    && !detail.toList.contains '\x00'

def validateRemoteUpdateQuarantineRecord (record : RemoteUpdateQuarantineRecord)
    (expectedRecordId : String) : Except ResumeError Unit := do
  if isLowerSha256 expectedRecordId = false then
    throw (.malformedDigest "remote update quarantine record ID")
  if isLowerSha256 record.recordId = false then
    throw (.malformedDigest "remote update quarantine record ID")
  if isLowerSha256 record.apiOriginSha256 = false then
    throw (.malformedDigest "remote update quarantine API origin digest")
  if isLowerSha256 record.receiptSha256 = false then
    throw (.malformedDigest "remote update quarantine receipt digest")
  if validDetail record.detail = false then
    throw .invalidDetail
  if ¬ (record.schemaVersion = remoteUpdateQuarantineSchemaVersion ∧
      record.recordId = expectedRecordId ∧ record.clientId.isNil = false ∧
      record.receiptLength ≤ maxRemoteUpdateResumeBytes ∧
      0 < record.quarantinedUnixSeconds) then
    throw .recordIdentity
  match codec.fromBase64 record.receiptBase64 with
  | none => throw .malformedBase64
  | some receipt =>
    if ¬ (receipt.length = record.receiptLength ∧ codec.sha256 receipt = record.receiptSha256 ∧
        remoteUpdateQuarantineRecordId codec record.clientId record.apiOriginSha256 receipt =
          record.recordId) then
      throw .unboundReceipt

/-- The record of a receipt. -/
def quarantineRecord (clientId : Uuid) (apiOriginSha256 : String) (receipt : Bytes)
    (reason : RemoteUpdateQuarantineReason) (detail : String) (now : ℕ) :
    RemoteUpdateQuarantineRecord where
  schemaVersion := remoteUpdateQuarantineSchemaVersion
  recordId := remoteUpdateQuarantineRecordId codec clientId apiOriginSha256 receipt
  clientId := clientId
  apiOriginSha256 := apiOriginSha256
  receiptLength := receipt.length
  receiptSha256 := codec.sha256 receipt
  receiptBase64 := codec.base64 receipt
  reason := reason
  detail := detail
  quarantinedUnixSeconds := now

def readRemoteUpdateQuarantineRecord (recordId : String) : Call RemoteUpdateQuarantineRecord := do
  validatePrivateFile (.target (.record recordId))
  let bytes ← readLimitedBytes (.target (.record recordId)) maxRemoteUpdateQuarantineBytes
  let record ← expect .malformedJson (codec.decode bytes)
  ExceptT.mk (pure (validateRemoteUpdateQuarantineRecord codec record recordId))
  return record

/-- The name of a record, after the remains of interrupted calls have been dealt with. -/
def remoteUpdateQuarantinePath (recordId : String) (now : ℕ) : Call ManagedName := do
  ensure (isLowerSha256 recordId) (.malformedDigest "remote update quarantine record ID")
  recoverRemoteQuarantineTemporaries now
  return .record recordId

/-- The record is there already: it must be that of the receipt. -/
def compareRecord (record : RemoteUpdateQuarantineRecord) : Call Unit := do
  let existing ← readRemoteUpdateQuarantineRecord codec record.recordId
  ensure (decide (existing.clientId = record.clientId ∧
    existing.apiOriginSha256 = record.apiOriginSha256 ∧
    existing.receiptSha256 = record.receiptSha256 ∧
    existing.receiptBase64 = record.receiptBase64)) .recordConflict

/-- The record is new. -/
def writeRecord (record : RemoteUpdateQuarantineRecord) (nonce : Nonce) (now : ℕ) :
    Call Unit := do
  writeDurableBytesCreateNew (.record record.recordId) nonce (codec.encode record)
    maxRemoteUpdateQuarantineBytes now
  validatePrivateFile (.target (.record record.recordId))

/-- Make sure that the record is there. -/
def saveRecord (record : RemoteUpdateQuarantineRecord) (nonce : Nonce) (now : ℕ) :
    Call Unit := do
  match ← sys (.stat (.target (.record record.recordId))) with
  | some _ => compareRecord codec record
  | none => writeRecord codec record nonce now

/-- Write the record of a receipt, then remove the receipt. -/
def moveToQuarantine (resumePath : ManagedName) (record : RemoteUpdateQuarantineRecord)
    (nonce : Nonce) (now : ℕ) : Call RemoteUpdateQuarantineRecord := do
  let _ ← remoteUpdateQuarantinePath record.recordId now
  ExceptT.mk (pure (validateRemoteUpdateQuarantineRecord codec record record.recordId))
  saveRecord codec record nonce now
  let _ ← removeDurableFileIfExists (.target resumePath)
  readRemoteUpdateQuarantineRecord codec record.recordId

/-- Move a receipt into quarantine. -/
def quarantineRemoteUpdateResumeReceipt (clientId : Uuid) (apiOriginSha256 : String)
    (reason : RemoteUpdateQuarantineReason) (detail : String) (nonce : Nonce) (now : ℕ) :
    Call RemoteUpdateQuarantineRecord := do
  ensure (validDetail detail) .invalidDetail
  let resumePath ← remoteUpdateResumePath clientId apiOriginSha256 now
  validatePrivateFile (.target resumePath)
  let receipt ← readLimitedBytes (.target resumePath) maxRemoteUpdateResumeBytes
  moveToQuarantine codec resumePath
    (quarantineRecord codec clientId apiOriginSha256 receipt reason detail now) nonce now

/-- One entry of the quarantine directory. -/
def listEntry : FileName → Call (List RemoteUpdateQuarantineRecord)
  | .target (.record recordId) => do
    let record ← readRemoteUpdateQuarantineRecord codec recordId
    return [record]
  | .temporary (.record _) _ => throw .unmanagedEntry
  | _ => return []

/-- The records of a listing. -/
def listEntries : List FileName → Call (List RemoteUpdateQuarantineRecord)
  | [] => return []
  | entry :: entries => do
    let first ← listEntry codec entry
    let rest ← listEntries entries
    return first ++ rest

def listRemoteUpdateQuarantineRecords (now : ℕ) : Call (List RemoteUpdateQuarantineRecord) := do
  recoverRemoteQuarantineTemporaries now
  let entries ← sys .readDir
  let records ← listEntries codec entries
  return records.mergeSort fun a b =>
    if a.quarantinedUnixSeconds = b.quarantinedUnixSeconds then a.recordId ≤ b.recordId
    else a.quarantinedUnixSeconds ≤ b.quarantinedUnixSeconds

/-- Clear a record. `idle` says that no local update is active or waits for recovery. -/
def clearRemoteUpdateQuarantineRecord (recordId : String) (confirmed idle : Bool) (now : ℕ) :
    Call Bool := do
  ensure confirmed .unconfirmed
  ensure (isLowerSha256 recordId) (.malformedDigest "remote update quarantine record ID")
  ensure idle .updateActive
  let _ ← remoteUpdateQuarantinePath recordId now
  match ← sys (.stat (.target (.record recordId))) with
  | some _ =>
    let _ ← readRemoteUpdateQuarantineRecord codec recordId
    sys (.unlink (.target (.record recordId)))
    return true
  | none => return false

/-! ## The system -/

/-- The calls. -/
inductive Operation
  | write (clientId : Uuid) (origin : String) (bytes : Bytes) (nonce : Nonce)
  | read (clientId : Uuid) (origin : String)
  | exists (clientId : Uuid) (origin : String)
  | remove (clientId : Uuid) (origin : String)
  | quarantine (clientId : Uuid) (origin : String) (reason : RemoteUpdateQuarantineReason)
      (detail : String) (nonce : Nonce)
  | list
  | clear (recordId : String) (confirmed idle : Bool)
  deriving DecidableEq, Repr

/-- What a call returns. -/
inductive Reply
  | unit
  | bytes (bytes : Bytes)
  | flag (flag : Bool)
  | records (records : List RemoteUpdateQuarantineRecord)
  deriving DecidableEq, Repr

/-- The program of a call. -/
def body (now : ℕ) : Operation → Call Reply
  | .write clientId origin bytes nonce => do
    writeRemoteUpdateResumeReceipt clientId origin bytes nonce now
    return .unit
  | .read clientId origin => do
    let bytes ← readRemoteUpdateResumeReceipt clientId origin now
    return .bytes bytes
  | .exists clientId origin => do
    let flag ← remoteUpdateResumeReceiptExists clientId origin now
    return .flag flag
  | .remove clientId origin => do
    let flag ← removeRemoteUpdateResumeReceipt clientId origin now
    return .flag flag
  | .quarantine clientId origin reason detail nonce => do
    let record ← quarantineRemoteUpdateResumeReceipt codec clientId origin reason detail nonce now
    return .records [record]
  | .list => do
    let records ← listRemoteUpdateQuarantineRecords codec now
    return .records records
  | .clear recordId confirmed idle => do
    let flag ← clearRemoteUpdateQuarantineRecord codec recordId confirmed idle now
    return .flag flag

/-- A call at a time, and what it returned; nothing if it was cut off. -/
structure Event where
  operation : Operation
  now : ℕ
  reply : Option (Except ResumeError Reply)

/-- One call, which a crash may cut off where `admits` allows it. -/
def Step (admits : Disk → Action → Disk → Prop) (d : Disk) (e : Event) (d' : Disk) : Prop :=
  system.Ends admits (body codec e.now e.operation).run d e.reply d'

end Quarantine

end LinkLake.RemoteResume
