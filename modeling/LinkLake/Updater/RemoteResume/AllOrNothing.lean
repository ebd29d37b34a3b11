import LinkLake.Updater.RemoteResume

/-!
# Receipts are written whole or not at all

A receipt is published by a hard link, which is atomic, so a crash before the link leaves no receipt
and a crash after it a whole one. But a temporary file that a crash has left is published by a later
call whatever it holds, and between its creation and the end of its `sync_all` it holds a part of the
bytes only. In a run in which no crash loses some of them, everything that is found under a name has
been written there whole (`whole_of_run`).
-/

namespace LinkLake.RemoteResume

open CrashMachine FiniteMap

/-! ## Crashes -/

/-- The crashes that lose no bytes of a temporary file: between its creation and the end of its
`sync_all` all of them have to be written and kept. -/
def lossless (d : Disk) (action : Action) (left : Disk) : Prop :=
  match action with
  | .writeAll name bytes => left = d.setBytes name bytes
  | .syncAll _ => left = d
  | _ => True

/-- All crashes. -/
def anywhere (_ : Disk) (_ : Action) (_ : Disk) : Prop := True

/-! ## What is under a name -/

/-- The name that the content of a file is meant for. -/
def FileName.managed : FileName → ManagedName
  | .target name => name
  | .temporary name _ => name

/-- Every file, published or not, holds something that was to be written under its name. -/
def Intact (genuine : ManagedName → Bytes → Prop) (d : Disk) : Prop :=
  ∀ name file, d.files.get? name = some file → genuine name.managed file.bytes

section Keeps

variable {genuine : ManagedName → Bytes → Prop} {α β : Type} {d : Disk} {P : α → Prop} {x : Call α}

theorem Intact.insert (h : Intact genuine d) {name : FileName} {file : File}
    (hfile : genuine name.managed file.bytes) (nextInode : ℕ) :
    Intact genuine ⟨d.files.insert name file, nextInode⟩ := forall_insert h hfile

theorem Intact.erase (h : Intact genuine d) (name : FileName) :
    Intact genuine { d with files := d.files.erase name } :=
  fun other found hget => h other found (get?_of_erase hget)

/-- The call keeps the files intact, wherever an admissible crash cuts it off, and what it returns has
a property. -/
def Keeps (genuine : ManagedName → Bytes → Prop) (P : α → Prop) (x : Call α) : Prop :=
  ∀ d, Intact genuine d → system.Guards lossless (Intact genuine)
    (fun r d => Intact genuine d ∧ ∀ a, r = .ok a → P a) x.run d

theorem Keeps.bind {Q : β → Prop} {f : α → Call β}
    (hx : Keeps genuine P x) (hf : ∀ a, P a → Keeps genuine Q (f a)) :
    Keeps genuine Q (x >>= f) := by
  intro d hd
  refine (hx d hd).except_bind (fun e d h => ⟨h.1, h.1, fun a ha => by cases ha⟩) ?_
  intro a d h
  exact hf a (h.2 a rfl) d h.1

theorem Keeps.mono {Q : α → Prop} (hx : Keeps genuine P x)
    (h : ∀ a, P a → Q a) : Keeps genuine Q x := fun d hd =>
  (hx d hd).mono (fun _ => id) fun _ _ hr => ⟨hr.1, fun a ha => h a (hr.2 a ha)⟩

theorem keeps_pure {a : α} (h : P a) : Keeps genuine P (pure a) :=
  fun d hd => ⟨hd, hd, fun b hb => by cases hb; exact h⟩

theorem keeps_throw (e : ResumeError) : Keeps genuine P (throw e : Call α) :=
  fun d hd => ⟨hd, hd, fun a ha => by cases ha⟩

theorem keeps_sys {action : Action} {P : action.Answer → Prop}
    (h : ∀ x d, Intact genuine d →
      Intact genuine (perform x d action).2 ∧ P (perform x d action).1) :
    Keeps genuine P (sys action) := by
  intro d hd
  refine ⟨⟨fun _ => hd, fun x hleft => ?_⟩, fun x => ?_⟩
  · cases action with
    | writeAll name bytes => exact (congrArg (Intact genuine) hleft).mpr (h x d hd).1
    | syncAll name => exact (congrArg (Intact genuine) hleft).mpr hd
    | _ => exact hd
  · obtain ⟨hafter, hanswer⟩ := h x d hd
    exact ⟨hafter, hafter, fun a ha => by cases ha; exact hanswer⟩

theorem keeps_readDir : Keeps genuine (fun _ => True) (sys .readDir) :=
  keeps_sys fun _ _ hd => ⟨hd, trivial⟩

theorem keeps_stat (name : FileName) : Keeps genuine (fun _ => True) (sys (.stat name)) :=
  keeps_sys fun _ _ hd => ⟨hd, trivial⟩

theorem keeps_read (name : FileName) : Keeps genuine
    (fun r : Option Bytes => ∀ bytes, r = some bytes → genuine name.managed bytes)
    (sys (.read name)) := by
  refine keeps_sys fun x d hd => ⟨hd, fun bytes hbytes => ?_⟩
  obtain ⟨file, hget, rfl⟩ := Option.map_eq_some_iff.mp hbytes
  exact hd name file hget

theorem keeps_unlink (name : FileName) : Keeps genuine (fun _ => True) (sys (.unlink name)) :=
  keeps_sys fun _ _ hd => ⟨hd.erase name, trivial⟩

theorem keeps_hardLink {source target : FileName} (h : source.managed = target.managed) :
    Keeps genuine (fun _ => True) (sys (.hardLink source target)) := by
  refine keeps_sys fun x d hd => ⟨?_, trivial⟩
  rw [perform]
  split
  · rename_i file hsource htarget
    exact hd.insert (h ▸ hd source file hsource) d.nextInode
  · exact hd

theorem keeps_ensure (condition : Bool) (e : ResumeError) :
    Keeps genuine (fun _ => condition = true) (ensure condition e) := by
  cases condition with
  | true => exact keeps_pure rfl
  | false => exact keeps_throw e

theorem keeps_expect (e : ResumeError) {o : Option α}
    (h : ∀ a, o = some a → P a) : Keeps genuine P (expect e o) := by
  cases o with
  | none => exact keeps_throw e
  | some a => exact keeps_pure (h a rfl)

theorem keeps_forM {f : FileName → Call Unit} {P : Unit → Prop} (hP : P ())
    (hf : ∀ name, Keeps genuine (fun _ => True) (f name)) (names : List FileName) :
    Keeps genuine P (names.forM f) := by
  induction names with
  | nil => exact keeps_pure hP
  | cons name names ih => exact (hf name).bind fun _ _ => ih

/-! ## The parts of a call -/

theorem keeps_readLimitedBytes (name : FileName) (maxBytes : ℕ) :
    Keeps genuine (genuine name.managed) (readLimitedBytes name maxBytes) := by
  refine (keeps_read name).bind fun content hcontent => ?_
  refine (keeps_expect .notFound hcontent).bind fun bytes hbytes => ?_
  exact (keeps_ensure _ _).bind fun _ _ => keeps_pure hbytes

theorem keeps_validatePrivateFile (name : FileName) :
    Keeps genuine (fun _ => True) (validatePrivateFile name) := by
  refine (keeps_stat name).bind fun metadata _ => ?_
  refine (keeps_expect .notFound (P := fun _ => True) fun _ _ => trivial).bind fun _ _ => ?_
  exact (keeps_ensure _ _).mono fun _ _ => trivial

theorem keeps_validateRemoteResumeTemporary (name : FileName) :
    Keeps genuine (fun _ => True) (validateRemoteResumeTemporary name) := by
  refine (keeps_stat name).bind fun metadata _ => ?_
  refine (keeps_expect .notFound (P := fun _ => True) fun _ _ => trivial).bind fun _ _ => ?_
  exact (keeps_ensure _ _).bind fun _ _ => keeps_pure trivial

theorem keeps_republish (name : ManagedName) (nonce : Nonce) (maxBytes : ℕ) (e : ResumeError) :
    Keeps genuine (fun _ => True) (republish name (.temporary name nonce) maxBytes e) := by
  refine (keeps_readLimitedBytes _ maxBytes).bind fun bytes _ => ?_
  refine (keeps_stat _).bind fun metadata _ => ?_
  cases metadata with
  | none =>
    have hmanaged : (FileName.temporary name nonce).managed = (FileName.target name).managed := rfl
    refine (keeps_hardLink hmanaged).bind fun linked _ => ?_
    exact (keeps_ensure linked _).mono fun _ _ => trivial
  | some metadata =>
    refine (keeps_readLimitedBytes _ maxBytes).bind fun target _ => ?_
    exact (keeps_ensure _ _).mono fun _ _ => trivial

theorem keeps_recoverRemoteResumeTemporary (target : ManagedName) (now : ℕ) (name : FileName) :
    Keeps genuine (fun _ => True) (recoverRemoteResumeTemporary target now name) := by
  cases name with
  | target name => exact keeps_pure trivial
  | temporary name nonce =>
    rw [recoverRemoteResumeTemporary]
    by_cases hname : name = target
    · rw [if_pos hname]
      refine (keeps_validateRemoteResumeTemporary _).bind fun metadata _ => ?_
      by_cases hyoung : now - metadata.modified < 5
      · rw [if_pos hyoung]
        exact keeps_pure trivial
      · rw [if_neg hyoung]
        exact (keeps_republish _ _ _ _).bind fun _ _ => keeps_unlink _
    · rw [if_neg hname]
      exact keeps_pure trivial

theorem keeps_recoverRemoteQuarantineTemporary (now : ℕ) (name : FileName) :
    Keeps genuine (fun _ => True) (recoverRemoteQuarantineTemporary now name) := by
  unfold recoverRemoteQuarantineTemporary
  split
  · refine (keeps_validateRemoteResumeTemporary _).bind fun metadata _ => ?_
    split
    · exact keeps_pure trivial
    · refine (keeps_republish _ _ _ _).bind fun _ _ => ?_
      exact (keeps_unlink _).bind fun _ _ => keeps_validatePrivateFile _
  · exact keeps_pure trivial

theorem keeps_recoverRemoteQuarantineTemporaries (now : ℕ) :
    Keeps genuine (fun _ => True) (recoverRemoteQuarantineTemporaries now) :=
  keeps_readDir.bind fun entries _ =>
    keeps_forM trivial (keeps_recoverRemoteQuarantineTemporary now) entries

/-- The name of the receipt of a client for a server. -/
def receiptName (clientId : Uuid) (apiOriginSha256 : String) : ManagedName :=
  .receipt clientId (String.ofList (apiOriginSha256.toList.take 16))

theorem keeps_remoteUpdateResumePath (clientId : Uuid) (origin : String) (now : ℕ) :
    Keeps genuine (fun path => path = receiptName clientId origin)
      (remoteUpdateResumePath clientId origin now) := by
  refine (keeps_ensure _ _).bind fun _ _ => (keeps_ensure _ _).bind fun _ _ => ?_
  refine Keeps.bind (P := fun _ => True) ?_ fun _ _ => keeps_pure rfl
  exact keeps_readDir.bind fun entries _ =>
    keeps_forM trivial (keeps_recoverRemoteResumeTemporary _ now) entries

theorem keeps_abandon (name : FileName) (e : ResumeError) :
    Keeps genuine (fun _ => True) (abandon name e) :=
  (keeps_unlink name).bind fun _ _ => keeps_throw e

theorem keeps_publishTemporary (name : ManagedName) (nonce : Nonce) :
    Keeps genuine (fun _ => True) (publishTemporary name nonce) := by
  refine (keeps_stat _).bind fun metadata _ => ?_
  cases metadata with
  | some metadata => exact keeps_abandon _ _
  | none =>
    have hmanaged : (FileName.temporary name nonce).managed = (FileName.target name).managed := rfl
    refine (keeps_hardLink hmanaged).bind fun linked _ => ?_
    cases linked with
    | false => exact keeps_abandon _ _
    | true => exact keeps_unlink _

variable {bytes : Bytes}

variable {name : ManagedName}

theorem keeps_writeDurableBytesCreateNew
    (hgenuine : genuine name bytes) (nonce : Nonce) (maxBytes now : ℕ) :
    Keeps genuine (fun _ => True) (writeDurableBytesCreateNew name nonce bytes maxBytes now) := by
  refine (keeps_ensure _ _).bind fun _ _ => (keeps_stat _).bind fun existing _ => ?_
  refine (keeps_ensure _ _).bind fun _ _ => ?_
  intro d hd
  refine guards_take.mpr ⟨⟨fun _ => hd, fun _ _ => hd⟩, fun x => ?_⟩
  cases hget : d.files.get? (.temporary name nonce) with
  | some file =>
    rw [perform_createNew_taken hget]
    exact keeps_abandon _ _ d hd
  | none =>
    rw [perform_createNew_free hget]
    have hwritten : Intact genuine (Disk.setBytes ⟨d.files.insert (.temporary name nonce)
        ⟨d.nextInode, [], now⟩, d.nextInode + 1⟩ (.temporary name nonce) bytes) := by
      rw [setBytes_of_get? (get?_insert_self _ _ _)]
      intro other found hfound
      dsimp only at hfound
      rw [get?_insert] at hfound
      split_ifs at hfound with hother
      · cases hfound
        rwa [hother]
      · rw [get?_insert_of_ne hother] at hfound
        exact hd other found hfound
    refine guards_take.mpr ⟨⟨fun hleft => (congrArg (Intact genuine) hleft).mpr hwritten,
      fun y hleft => (congrArg (Intact genuine) hleft).mpr hwritten⟩, fun y => ?_⟩
    refine guards_take.mpr ⟨⟨fun _ => hwritten,
      fun z hleft => (congrArg (Intact genuine) hleft).mpr hwritten⟩, fun z => ?_⟩
    exact keeps_publishTemporary name nonce _ hwritten

theorem keeps_removeDurableFileIfExists (name : FileName) :
    Keeps genuine (fun _ => True) (removeDurableFileIfExists name) := by
  refine (keeps_stat _).bind fun metadata _ => ?_
  cases metadata with
  | none => exact keeps_pure trivial
  | some metadata => exact (keeps_unlink _).bind fun _ _ => keeps_pure trivial

theorem keeps_mk (r : Except ResumeError Unit) :
    Keeps genuine (fun _ => True) (ExceptT.mk (pure r)) := by
  cases r with
  | error e => exact keeps_throw e
  | ok u => exact keeps_pure trivial

/-! ## The calls -/

theorem keeps_readRemoteUpdateQuarantineRecord (codec : Codec) (recordId : String) :
    Keeps genuine (fun _ => True) (readRemoteUpdateQuarantineRecord codec recordId) := by
  refine (keeps_validatePrivateFile _).bind fun _ _ => ?_
  refine (keeps_readLimitedBytes _ _).bind fun bytes _ => ?_
  refine (keeps_expect .malformedJson (P := fun _ => True) fun _ _ => trivial).bind fun _ _ => ?_
  exact (keeps_mk _).bind fun _ _ => keeps_pure trivial

theorem keeps_saveRecord (codec : Codec) (record : RemoteUpdateQuarantineRecord)
    (hgenuine : genuine (.record record.recordId) (codec.encode record)) (nonce : Nonce) (now : ℕ) :
    Keeps genuine (fun _ => True) (saveRecord codec record nonce now) := by
  refine (keeps_stat _).bind fun metadata _ => ?_
  cases metadata with
  | some metadata =>
    refine (keeps_readRemoteUpdateQuarantineRecord codec _).bind fun existing _ => ?_
    exact (keeps_ensure _ _).mono fun _ _ => trivial
  | none =>
    refine (keeps_writeDurableBytesCreateNew hgenuine nonce _ now).bind fun _ _ => ?_
    exact keeps_validatePrivateFile _

theorem keeps_moveToQuarantine (codec : Codec) (path : ManagedName)
    {record : RemoteUpdateQuarantineRecord}
    (hgenuine : genuine (.record record.recordId) (codec.encode record)) (nonce : Nonce) (now : ℕ) :
    Keeps genuine (fun _ => True) (moveToQuarantine codec path record nonce now) := by
  refine Keeps.bind (P := fun _ => True) ?_ fun _ _ => ?_
  · refine (keeps_ensure _ _).bind fun _ _ => ?_
    exact (keeps_recoverRemoteQuarantineTemporaries now).bind fun _ _ => keeps_pure trivial
  · refine (keeps_mk _).bind fun _ _ => ?_
    refine (keeps_saveRecord codec record hgenuine nonce now).bind fun _ _ => ?_
    refine (keeps_removeDurableFileIfExists _).bind fun _ _ => ?_
    exact keeps_readRemoteUpdateQuarantineRecord codec _

variable {origin : String}

variable {clientId : Uuid}

theorem keeps_quarantine (codec : Codec)
    {reason : RemoteUpdateQuarantineReason} {detail : String} {now : ℕ}
    (hgenuine : ∀ receipt, genuine (receiptName clientId origin) receipt →
      genuine (.record (remoteUpdateQuarantineRecordId codec clientId origin receipt))
        (codec.encode (quarantineRecord codec clientId origin receipt reason detail now)))
    (nonce : Nonce) :
    Keeps genuine (fun _ => True)
      (quarantineRemoteUpdateResumeReceipt codec clientId origin reason detail nonce now) := by
  unfold quarantineRemoteUpdateResumeReceipt
  refine (keeps_ensure _ _).bind fun _ _ => ?_
  refine (keeps_remoteUpdateResumePath clientId origin now).bind fun path hpath => ?_
  subst hpath
  refine (keeps_validatePrivateFile _).bind fun _ _ => ?_
  refine (keeps_readLimitedBytes _ _).bind fun receipt hreceipt => ?_
  exact keeps_moveToQuarantine codec _ (hgenuine receipt hreceipt) nonce now

theorem keeps_listEntries (codec : Codec) (entries : List FileName) :
    Keeps genuine (fun _ => True) (listEntries codec entries) := by
  induction entries with
  | nil => exact keeps_pure trivial
  | cons entry entries ih =>
    refine Keeps.bind (P := fun _ => True) ?_ fun _ _ => ih.bind fun _ _ => keeps_pure trivial
    unfold listEntry
    split
    · exact (keeps_readRemoteUpdateQuarantineRecord codec _).bind fun _ _ => keeps_pure trivial
    · exact keeps_throw _
    · exact keeps_pure trivial

theorem keeps_clear (codec : Codec) (recordId : String) (confirmed idle : Bool) (now : ℕ) :
    Keeps genuine (fun _ => True)
      (clearRemoteUpdateQuarantineRecord codec recordId confirmed idle now) := by
  refine (keeps_ensure _ _).bind fun _ _ => (keeps_ensure _ _).bind fun _ _ => ?_
  refine (keeps_ensure _ _).bind fun _ _ => Keeps.bind (P := fun _ => True) ?_ fun _ _ => ?_
  · refine (keeps_ensure _ _).bind fun _ _ => ?_
    exact (keeps_recoverRemoteQuarantineTemporaries now).bind fun _ _ => keeps_pure trivial
  · refine (keeps_stat _).bind fun metadata _ => ?_
    cases metadata with
    | none => exact keeps_pure trivial
    | some metadata =>
      refine (keeps_readRemoteUpdateQuarantineRecord codec _).bind fun _ _ => ?_
      exact (keeps_unlink _).bind fun _ _ => keeps_pure trivial

/-- What a call may write. -/
def Operation.Writes (codec : Codec) (now : ℕ) (genuine : ManagedName → Bytes → Prop) :
    Operation → Prop
  | .write clientId origin bytes _ => genuine (receiptName clientId origin) bytes
  | .quarantine clientId origin reason detail _ =>
    ∀ receipt, genuine (receiptName clientId origin) receipt →
      genuine (.record (remoteUpdateQuarantineRecordId codec clientId origin receipt))
        (codec.encode (quarantineRecord codec clientId origin receipt reason detail now))
  | _ => True

/-- What a call says about the content of a receipt. -/
def Operation.Reads (genuine : ManagedName → Bytes → Prop) : Operation → Reply → Prop
  | .read clientId origin, .bytes bytes => genuine (receiptName clientId origin) bytes
  | _, _ => True

theorem keeps_body (codec : Codec) {now : ℕ} {operation : Operation}
    (hwrites : operation.Writes codec now genuine) :
    Keeps genuine (operation.Reads genuine) (body codec now operation) := by
  cases operation with
  | write clientId origin bytes nonce =>
    refine Keeps.bind (P := fun _ => True) ?_ fun _ _ => keeps_pure trivial
    refine (keeps_remoteUpdateResumePath clientId origin now).bind fun path hpath => ?_
    subst hpath
    have hgenuine := hwrites
    refine (keeps_writeDurableBytesCreateNew hgenuine nonce _ now).bind fun _ _ => ?_
    exact keeps_validatePrivateFile _
  | read clientId origin =>
    refine Keeps.bind (P := genuine (receiptName clientId origin)) ?_ fun bytes h => keeps_pure h
    refine (keeps_remoteUpdateResumePath clientId origin now).bind fun path hpath => ?_
    subst hpath
    exact (keeps_validatePrivateFile _).bind fun _ _ => keeps_readLimitedBytes _ _
  | «exists» clientId origin =>
    refine Keeps.bind (P := fun _ => True) ?_ fun _ _ => keeps_pure trivial
    refine (keeps_remoteUpdateResumePath clientId origin now).bind fun path _ => ?_
    refine (keeps_stat _).bind fun metadata _ => ?_
    cases metadata with
    | none => exact keeps_pure trivial
    | some metadata => exact (keeps_validatePrivateFile _).bind fun _ _ => keeps_pure trivial
  | remove clientId origin =>
    refine Keeps.bind (P := fun _ => True) ?_ fun _ _ => keeps_pure trivial
    refine (keeps_remoteUpdateResumePath clientId origin now).bind fun path _ => ?_
    exact keeps_removeDurableFileIfExists _
  | quarantine clientId origin reason detail nonce =>
    refine Keeps.bind (P := fun _ => True) ?_ fun _ _ => keeps_pure trivial
    exact keeps_quarantine codec hwrites nonce
  | list =>
    refine Keeps.bind (P := fun _ => True) ?_ fun _ _ => keeps_pure trivial
    refine (keeps_recoverRemoteQuarantineTemporaries now).bind fun _ _ => ?_
    refine keeps_readDir.bind fun entries _ => ?_
    exact (keeps_listEntries codec entries).bind fun _ _ => keeps_pure trivial
  | clear recordId confirmed idle =>
    exact (keeps_clear codec recordId confirmed idle now).bind fun _ _ => keeps_pure trivial

end Keeps

/-! ## Runs -/

/-- A call of the run was to write these bytes as a receipt. -/
def WrittenReceipt (es : List Event) (name : ManagedName) (bytes : Bytes) : Prop :=
  ∃ e ∈ es, ∃ clientId origin nonce,
    e.operation = .write clientId origin bytes nonce ∧ name = receiptName clientId origin

/-- A call of the run was to write these bytes as the quarantine record of a receipt. -/
def WrittenRecord (codec : Codec) (es : List Event) (name : ManagedName) (bytes : Bytes) : Prop :=
  ∃ e ∈ es, ∃ clientId origin reason detail nonce receipt,
    e.operation = .quarantine clientId origin reason detail nonce ∧
    WrittenReceipt es (receiptName clientId origin) receipt ∧
    name = .record (remoteUpdateQuarantineRecordId codec clientId origin receipt) ∧
    bytes = codec.encode (quarantineRecord codec clientId origin receipt reason detail e.now)

/-- A call of the run was to write these bytes under the name. -/
def Written (codec : Codec) (es : List Event) (name : ManagedName) (bytes : Bytes) : Prop :=
  WrittenReceipt es name bytes ∨ WrittenRecord codec es name bytes

variable {codec : Codec} {es : List Event} {d d' : Disk} {name : ManagedName} {bytes : Bytes}
  {clientId : Uuid} {origin : String}

theorem Written.append (h : Written codec es name bytes)
    (fs : List Event) : Written codec (es ++ fs) name bytes := by
  have hreceipt : ∀ {name bytes}, WrittenReceipt es name bytes →
      WrittenReceipt (es ++ fs) name bytes := by
    rintro name bytes ⟨e, he, rest⟩
    exact ⟨e, List.mem_append_left fs he, rest⟩
  obtain h | ⟨e, he, clientId, origin, reason, detail, nonce, receipt, hop, hr, rest⟩ := h
  · exact .inl (hreceipt h)
  · exact .inr ⟨e, List.mem_append_left fs he, clientId, origin, reason, detail, nonce, receipt,
      hop, hreceipt hr, rest⟩

theorem Written.receipt (h : Written codec es (receiptName clientId origin) bytes) :
    WrittenReceipt es (receiptName clientId origin) bytes := by
  obtain h | ⟨e, he, _, _, _, _, _, _, _, _, hname, _⟩ := h
  · exact h
  · cases hname

theorem writes_last (e : Event) : e.operation.Writes codec e.now (Written codec (es ++ [e])) := by
  have hmem : e ∈ es ++ [e] := by simp
  obtain ⟨operation, now, reply⟩ := e
  cases operation with
  | write clientId origin bytes nonce =>
    exact .inl ⟨_, hmem, clientId, origin, nonce, rfl, rfl⟩
  | quarantine clientId origin reason detail nonce =>
    intro receipt hreceipt
    exact .inr ⟨_, hmem, clientId, origin, reason, detail, nonce, receipt, rfl, hreceipt.receipt,
      rfl, rfl⟩
  | _ => trivial

/-- Everything on the disk was to be written where it is, and so was everything that was read. -/
structure Whole (codec : Codec) (es : List Event) (d : Disk) : Prop where
  files : Intact (Written codec es) d
  reads : ∀ e ∈ es, ∀ reply, e.reply = some (.ok reply) →
    e.operation.Reads (Written codec es) reply

theorem Reads.append {operation : Operation} {reply : Reply}
    (h : operation.Reads (Written codec es) reply) (fs : List Event) :
    operation.Reads (Written codec (es ++ fs)) reply := by
  unfold Operation.Reads at h ⊢
  split
  · exact Written.append h fs
  · trivial

theorem Whole.step (h : Whole codec es d) {e : Event} (hstep : Step codec lossless d e d') :
    Whole codec (es ++ [e]) d' := by
  have hd : Intact (Written codec (es ++ [e])) d :=
    fun name file hget => (h.files name file hget).append [e]
  have hguards := keeps_body codec (writes_last e) d hd
  refine ⟨?_, fun f hf reply hreply => ?_⟩
  · cases hreply : e.reply with
    | none =>
      rw [Step, hreply] at hstep
      exact hguards.of_crash hstep
    | some reply =>
      rw [Step, hreply] at hstep
      exact (hguards.of_return hstep).1
  · rw [List.mem_append, List.mem_singleton] at hf
    obtain hf | rfl := hf
    · exact Reads.append (h.reads f hf reply hreply) [e]
    · rw [Step, hreply] at hstep
      exact (hguards.of_return hstep).2 reply rfl

theorem whole_of_run (hrun : Run (Step codec lossless) Disk.empty es d) : Whole codec es d := by
  refine hrun.history (I := Whole codec) ?_ fun past d1 e d2 _ _ h hstep => h.step hstep
  exact ⟨(fun _ _ hget => nomatch hget), (fun _ he => nomatch he)⟩

end LinkLake.RemoteResume
