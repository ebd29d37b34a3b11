import LinkLake.Updater.RemoteResume.AllOrNothing

/-!
# Receipts stay until they are removed

Two facts that hold wherever a crash falls. A call other than the removal or the quarantine of a
receipt leaves the receipt as it is (`published_kept`), and a quarantine that has removed the receipt
leaves the complete record of it (`quarantine_leaves`).

Both rest on what the calls do not do: everything but the two removals works on temporary files, and
on names that are not taken (`Action.Spares`).
-/

namespace LinkLake.RemoteResume

open CrashMachine Program FiniteMap

/-! ## Actions that leave a published file alone -/

/-- The action neither removes nor writes the published file. -/
def Action.Spares (name : ManagedName) : Action → Prop
  | .unlink other => other ≠ .target name
  | .writeAll other _ => other ≠ .target name
  | .syncAll other => other ≠ .target name
  | _ => True

/-- The action leaves all published files alone. -/
def Action.Quiet (action : Action) : Prop := ∀ name, action.Spares name

/-- The bytes are published under the name. -/
def Published (name : ManagedName) (bytes : Bytes) (d : Disk) : Prop :=
  ∃ file, d.files.get? (.target name) = some file ∧ file.bytes = bytes

variable {name : ManagedName} {bytes : Bytes} {d d' : Disk} {action : Action}

theorem Published.of_eq (h : Published name bytes d)
    (heq : d'.files.get? (.target name) = d.files.get? (.target name)) :
    Published name bytes d' := by
  obtain ⟨file, hget, hbytes⟩ := h
  exact ⟨file, heq.trans hget, hbytes⟩

theorem Published.unique {bytes' : Bytes} (h : Published name bytes d)
    (h' : Published name bytes' d) : bytes = bytes' := by
  obtain ⟨file, hget, rfl⟩ := h
  obtain ⟨file', hget', rfl⟩ := h'
  rw [Option.some.inj (hget.symm.trans hget')]

theorem Published.perform (x : Choice) (hspares : action.Spares name) (h : Published name bytes d) :
    Published name bytes (system.perform x d action).2 := by
  have hthere : d.files.get? (.target name) ≠ none := by
    obtain ⟨file, hget, -⟩ := h
    rw [hget]
    exact Option.some_ne_none file
  cases action with
  | readDir => exact h
  | stat other => exact h
  | read other => exact h
  | syncAll other => exact h
  | createNew other now =>
    cases hget : d.files.get? other with
    | some file => exact h.of_eq (by rw [perform_createNew_taken hget])
    | none =>
      have hne : FileName.target name ≠ other := fun heq => hthere (heq ▸ hget)
      rw [perform_createNew_free hget]
      exact h.of_eq (get?_insert_of_ne hne)
  | writeAll other bytes => exact h.of_eq (get?_setBytes_of_ne (Ne.symm hspares) bytes)
  | hardLink source target =>
    refine h.of_eq ?_
    simp only [system, RemoteResume.perform]
    split
    · rename_i file hsource htarget
      have hne : FileName.target name ≠ target := fun heq => hthere (heq ▸ htarget)
      exact get?_insert_of_ne hne
    · rfl
  | unlink other => exact h.of_eq (get?_erase_of_ne (Ne.symm hspares))

theorem Published.torn (x : Choice) (hspares : action.Spares name) (h : Published name bytes d) :
    Published name bytes (system.torn x d action) := by
  cases action with
  | writeAll other bytes => exact h.of_eq (get?_setBytes_of_ne (Ne.symm hspares) _)
  | syncAll other =>
    refine h.of_eq ?_
    simp only [system, RemoteResume.torn]
    split
    · rfl
    · exact get?_setBytes_of_ne (Ne.symm hspares) _
  | _ => exact h

theorem guards_published {α : Type} {p : Program Action.Answer α}
    (hp : p.Only (Action.Spares name)) (h : Published name bytes d) :
    system.Guards anywhere (Published name bytes) (fun _ => Published name bytes) p d :=
  guards_of_only hp h (fun x _ _ hspares hd => hd.perform x hspares)
    fun x _ _ hspares hd => hd.torn x hspares

/-! ## The calls are quiet -/

variable {α : Type} {now : ℕ} {P : α → Disk → Prop} {recordId origin : String} {clientId : Uuid}

section Quiet

variable {allowed : Action → Prop}

theorem only_ensure (condition : Bool) (e : ResumeError) :
    (ensure condition e).run.Only allowed := by
  cases condition <;> trivial

theorem only_expect (e : ResumeError) (o : Option α) : (expect e o).run.Only allowed := by
  cases o <;> trivial

theorem only_forM {f : FileName → Call Unit}
    (hf : ∀ name, (f name).run.Only allowed) (names : List FileName) :
    (names.forM f : Call Unit).run.Only allowed := by
  induction names with
  | nil => trivial
  | cons name names ih => exact (hf name).except_bind fun _ => ih

theorem quiet_unlink_temporary (other : ManagedName) (nonce : Nonce) :
    (Action.unlink (.temporary other nonce)).Quiet := fun _ h => nomatch h

theorem only_readLimitedBytes (name : FileName) (maxBytes : ℕ) :
    (readLimitedBytes name maxBytes).run.Only Action.Quiet := by
  refine only_take (fun _ => trivial) fun content => ?_
  refine (only_expect _ _).except_bind fun bytes => ?_
  exact (only_ensure _ _).except_bind fun _ => trivial

theorem only_validatePrivateFile (name : FileName) :
    (validatePrivateFile name).run.Only Action.Quiet := by
  refine only_take (fun _ => trivial) fun metadata => ?_
  exact (only_expect _ _).except_bind fun _ => only_ensure _ _

theorem only_validateRemoteResumeTemporary (name : FileName) :
    (validateRemoteResumeTemporary name).run.Only Action.Quiet := by
  refine only_take (fun _ => trivial) fun metadata => ?_
  refine (only_expect _ _).except_bind fun _ => ?_
  exact (only_ensure _ _).except_bind fun _ => trivial

theorem only_republish (name : ManagedName) (temporary : FileName) (maxBytes : ℕ) (e : ResumeError) :
    (republish name temporary maxBytes e).run.Only Action.Quiet := by
  refine (only_readLimitedBytes _ _).except_bind fun bytes => ?_
  refine only_take (fun _ => trivial) fun metadata => ?_
  cases metadata with
  | none => exact only_take (fun _ => trivial) fun linked => only_ensure _ _
  | some metadata => exact (only_readLimitedBytes _ _).except_bind fun _ => only_ensure _ _

theorem only_recoverRemoteResumeTemporary (target : ManagedName) (now : ℕ) (name : FileName) :
    (recoverRemoteResumeTemporary target now name).run.Only Action.Quiet := by
  cases name with
  | target name => trivial
  | temporary name nonce =>
    rw [recoverRemoteResumeTemporary]
    split
    · refine (only_validateRemoteResumeTemporary _).except_bind fun metadata => ?_
      split
      · trivial
      · refine (only_republish _ _ _ _).except_bind fun _ => ?_
        exact ⟨quiet_unlink_temporary name nonce, fun _ => trivial⟩
    · trivial

theorem only_recoverRemoteQuarantineTemporary (now : ℕ) (name : FileName) :
    (recoverRemoteQuarantineTemporary now name).run.Only Action.Quiet := by
  unfold recoverRemoteQuarantineTemporary
  split
  · rename_i recordId nonce
    refine (only_validateRemoteResumeTemporary _).except_bind fun metadata => ?_
    split
    · trivial
    · refine (only_republish _ _ _ _).except_bind fun _ => ?_
      exact only_take (quiet_unlink_temporary _ nonce) fun _ => only_validatePrivateFile _
  · trivial

theorem only_recoverRemoteQuarantineTemporaries (now : ℕ) :
    (recoverRemoteQuarantineTemporaries now).run.Only Action.Quiet :=
  only_take (fun _ => trivial) fun entries =>
    only_forM (only_recoverRemoteQuarantineTemporary now) entries

theorem only_remoteUpdateResumePath (clientId : Uuid) (origin : String) (now : ℕ) :
    (remoteUpdateResumePath clientId origin now).run.Only Action.Quiet := by
  refine (only_ensure _ _).except_bind fun _ => (only_ensure _ _).except_bind fun _ => ?_
  refine Only.except_bind ?_ fun _ => trivial
  exact only_take (fun _ => trivial) fun entries =>
    only_forM (only_recoverRemoteResumeTemporary _ now) entries

theorem only_remoteUpdateQuarantinePath (recordId : String) (now : ℕ) :
    (remoteUpdateQuarantinePath recordId now).run.Only Action.Quiet := by
  refine (only_ensure _ _).except_bind fun _ => ?_
  exact (only_recoverRemoteQuarantineTemporaries now).except_bind fun _ => trivial

theorem only_abandon (other : ManagedName) (nonce : Nonce) (e : ResumeError) :
    (abandon (.temporary other nonce) e).run.Only Action.Quiet :=
  only_take (quiet_unlink_temporary other nonce) fun _ => trivial

theorem only_publishTemporary (other : ManagedName) (nonce : Nonce) :
    (publishTemporary other nonce).run.Only Action.Quiet := by
  refine only_take (fun _ => trivial) fun metadata => ?_
  cases metadata with
  | some metadata => exact only_abandon other nonce _
  | none =>
    refine only_take (fun _ => trivial) fun linked => ?_
    cases linked with
    | false => exact only_abandon other nonce _
    | true => exact ⟨quiet_unlink_temporary other nonce, fun _ => trivial⟩

theorem only_writeDurableBytesCreateNew (other : ManagedName) (nonce : Nonce) (bytes : Bytes)
    (maxBytes now : ℕ) :
    (writeDurableBytesCreateNew other nonce bytes maxBytes now).run.Only Action.Quiet := by
  refine (only_ensure _ _).except_bind fun _ => only_take (fun _ => trivial) fun existing => ?_
  refine (only_ensure _ _).except_bind fun _ => only_take (fun _ => trivial) fun created => ?_
  cases created with
  | false => exact only_abandon other nonce _
  | true =>
    refine only_take (fun _ h => nomatch h) fun _ => only_take (fun _ h => nomatch h) fun _ => ?_
    exact only_publishTemporary other nonce

theorem only_readRemoteUpdateQuarantineRecord (codec : Codec) (recordId : String) :
    (readRemoteUpdateQuarantineRecord codec recordId).run.Only Action.Quiet := by
  refine (only_validatePrivateFile _).except_bind fun _ => ?_
  refine (only_readLimitedBytes _ _).except_bind fun bytes => ?_
  refine (only_expect _ _).except_bind fun record => ?_
  exact Only.except_bind trivial fun _ => trivial

theorem only_saveRecord (codec : Codec) (record : RemoteUpdateQuarantineRecord) (nonce : Nonce)
    (now : ℕ) : (saveRecord codec record nonce now).run.Only Action.Quiet := by
  refine only_take (fun _ => trivial) fun metadata => ?_
  cases metadata with
  | some metadata =>
    exact (only_readRemoteUpdateQuarantineRecord codec _).except_bind fun _ => only_ensure _ _
  | none =>
    refine (only_writeDurableBytesCreateNew _ nonce _ _ now).except_bind fun _ => ?_
    exact only_validatePrivateFile _

theorem only_listEntries (codec : Codec) (entries : List FileName) :
    (listEntries codec entries).run.Only Action.Quiet := by
  induction entries with
  | nil => trivial
  | cons entry entries ih =>
    refine Only.except_bind ?_ fun _ => ih.except_bind fun _ => trivial
    unfold listEntry
    split
    · exact (only_readRemoteUpdateQuarantineRecord codec _).except_bind fun _ => trivial
    · trivial
    · trivial

theorem yields_remoteUpdateResumePath (clientId : Uuid) (origin : String) (now : ℕ) :
    (remoteUpdateResumePath clientId origin now).run.Yields (· = receiptName clientId origin) := by
  refine yields_except_bind fun _ => yields_except_bind fun _ => yields_except_bind fun _ => ?_
  intro path hpath
  exact (Except.ok.inj hpath).symm

theorem only_removeDurableFileIfExists {removed : ManagedName} (h : removed ≠ name) :
    (removeDurableFileIfExists (.target removed)).run.Only (Action.Spares name) := by
  refine only_take trivial fun metadata => ?_
  cases metadata with
  | none => trivial
  | some metadata => exact only_take (fun heq => h (FileName.target.inj heq)) fun _ => trivial

end Quiet

/-! ## Receipts are kept -/

/-- The call is meant to remove the published file. -/
def Operation.Removes (name : ManagedName) : Operation → Prop
  | .remove clientId origin => receiptName clientId origin = name
  | .quarantine clientId origin _ _ _ => receiptName clientId origin = name
  | .clear recordId _ _ => .record recordId = name
  | _ => False

theorem spares_of_quiet {α : Type} {p : Program Action.Answer α} (hp : p.Only Action.Quiet) :
    p.Only (Action.Spares name) := hp.mono fun _ h => h name

theorem only_clear (codec : Codec) (h : .record recordId ≠ name) (confirmed idle : Bool) (now : ℕ) :
    (clearRemoteUpdateQuarantineRecord codec recordId confirmed idle now).run.Only
      (Action.Spares name) := by
  refine (only_ensure _ _).except_bind fun _ => (only_ensure _ _).except_bind fun _ => ?_
  refine (only_ensure _ _).except_bind fun _ => ?_
  refine (spares_of_quiet (only_remoteUpdateQuarantinePath _ now)).except_bind fun _ => ?_
  refine only_take trivial fun metadata => ?_
  cases metadata with
  | none => trivial
  | some metadata =>
    refine (spares_of_quiet (only_readRemoteUpdateQuarantineRecord codec _)).except_bind fun _ => ?_
    exact only_take (fun heq => h (FileName.target.inj heq)) fun _ => trivial

theorem only_quarantine (codec : Codec) (h : receiptName clientId origin ≠ name)
    (reason : RemoteUpdateQuarantineReason) (detail : String) (nonce : Nonce) (now : ℕ) :
    (quarantineRemoteUpdateResumeReceipt codec clientId origin reason detail nonce now).run.Only
      (Action.Spares name) := by
  unfold quarantineRemoteUpdateResumeReceipt
  refine (only_ensure _ _).except_bind fun _ => ?_
  refine (spares_of_quiet (only_remoteUpdateResumePath clientId origin now)).except_bind_of
    (yields_remoteUpdateResumePath clientId origin now) fun path hpath => ?_
  subst hpath
  refine (spares_of_quiet (only_validatePrivateFile _)).except_bind fun _ => ?_
  refine (spares_of_quiet (only_readLimitedBytes _ _)).except_bind fun receipt => ?_
  unfold moveToQuarantine
  refine (spares_of_quiet (only_remoteUpdateQuarantinePath _ now)).except_bind fun _ => ?_
  refine Only.except_bind trivial fun _ => ?_
  refine (spares_of_quiet (only_saveRecord codec _ nonce now)).except_bind fun _ => ?_
  refine (only_removeDurableFileIfExists h).except_bind fun _ => ?_
  exact spares_of_quiet (only_readRemoteUpdateQuarantineRecord codec _)

theorem only_body (codec : Codec) {operation : Operation} (h : ¬ operation.Removes name) (now : ℕ) :
    (body codec now operation).run.Only (Action.Spares name) := by
  cases operation with
  | write clientId origin bytes nonce =>
    refine spares_of_quiet (Only.except_bind ?_ fun _ => trivial)
    refine (only_remoteUpdateResumePath clientId origin now).except_bind fun path => ?_
    refine (only_writeDurableBytesCreateNew path nonce bytes _ now).except_bind fun _ => ?_
    exact only_validatePrivateFile _
  | read clientId origin =>
    refine spares_of_quiet (Only.except_bind ?_ fun _ => trivial)
    refine (only_remoteUpdateResumePath clientId origin now).except_bind fun path => ?_
    exact (only_validatePrivateFile _).except_bind fun _ => only_readLimitedBytes _ _
  | «exists» clientId origin =>
    refine spares_of_quiet (Only.except_bind ?_ fun _ => trivial)
    refine (only_remoteUpdateResumePath clientId origin now).except_bind fun path => ?_
    refine only_take (fun _ => trivial) fun metadata => ?_
    cases metadata with
    | none => trivial
    | some metadata => exact (only_validatePrivateFile _).except_bind fun _ => trivial
  | remove clientId origin =>
    refine Only.except_bind ?_ fun _ => trivial
    refine (spares_of_quiet (only_remoteUpdateResumePath clientId origin now)).except_bind_of
      (yields_remoteUpdateResumePath clientId origin now) fun path hpath => ?_
    subst hpath
    have hne := h
    exact only_removeDurableFileIfExists hne
  | quarantine clientId origin reason detail nonce =>
    have hne : receiptName clientId origin ≠ name := h
    refine Only.except_bind ?_ fun _ => trivial
    exact only_quarantine codec hne reason detail nonce now
  | list =>
    refine spares_of_quiet (Only.except_bind ?_ fun _ => trivial)
    refine (only_recoverRemoteQuarantineTemporaries now).except_bind fun _ => ?_
    refine only_take (fun _ => trivial) fun entries => ?_
    exact (only_listEntries codec entries).except_bind fun _ => trivial
  | clear recordId confirmed idle =>
    have hne := h
    exact (only_clear codec hne confirmed idle now).except_bind fun _ => trivial

/-- **A published file stays.** No call overwrites it, and only a call that is meant to remove it
does. -/
theorem published_kept {codec : Codec} {e : Event} (hstep : Step codec anywhere d e d')
    (h : Published name bytes d) (hremoves : ¬ e.operation.Removes name) :
    Published name bytes d' :=
  (guards_published (only_body codec hremoves e.now) h).of_ends hstep

/-! ## The record that replaces a receipt -/

/-- The bytes are a valid record that holds the receipt. -/
def Documents (codec : Codec) (clientId : Uuid) (origin : String) (receipt bytes : Bytes) : Prop :=
  ∃ record, codec.decode bytes = some record ∧
    validateRemoteUpdateQuarantineRecord codec record
      (remoteUpdateQuarantineRecordId codec clientId origin receipt) = .ok () ∧
    record.clientId = clientId ∧ record.apiOriginSha256 = origin ∧
    codec.fromBase64 record.receiptBase64 = some receipt

/-- There is a complete quarantine record of the receipt. -/
def Recorded (codec : Codec) (clientId : Uuid) (origin : String) (receipt : Bytes) (d : Disk) :
    Prop :=
  ∃ bytes, Published (.record (remoteUpdateQuarantineRecordId codec clientId origin receipt)) bytes d ∧
    Documents codec clientId origin receipt bytes

/-- Nothing is said about crashes. -/
def Ensures {α : Type} (x : Call α) (d : Disk) (post : Except ResumeError α → Disk → Prop) : Prop :=
  system.Guards anywhere (fun _ => True) post x.run d

section Ensures

variable {β : Type} {e : ResumeError} {file : FileName} {nonce : Nonce}
  {post : Except ResumeError α → Disk → Prop} {maxBytes : ℕ} {codec : Codec}

theorem ensures_pure {a : α} (h : post (.ok a) d) : Ensures (pure a) d post := ⟨trivial, h⟩

theorem ensures_throw (h : post (.error e) d) : Ensures (throw e) d post := ⟨trivial, h⟩

theorem Ensures.bind {x : Call α} {f : α → Call β} {Q : β → Disk → Prop}
    (hx : Ensures x d fun r d => ∀ a, r = .ok a → P a d)
    (hf : ∀ a d, P a d → Ensures (f a) d fun r d => ∀ b, r = .ok b → Q b d) :
    Ensures (x >>= f) d fun r d => ∀ b, r = .ok b → Q b d :=
  hx.except_bind (fun _ _ _ => ⟨trivial, fun _ h => nomatch h⟩) fun a d h => hf a d (h a rfl)

theorem ensures_ensure {condition : Bool} :
    Ensures (ensure condition e) d fun r d' => ∀ u, r = .ok u → d' = d ∧ condition = true := by
  cases condition with
  | true => exact ensures_pure fun _ _ => ⟨rfl, rfl⟩
  | false => exact ensures_throw fun _ h => nomatch h

theorem ensures_expect {o : Option α} :
    Ensures (expect e o) d fun r d' => ∀ a, r = .ok a → d' = d ∧ o = some a := by
  cases o with
  | none => exact ensures_throw fun _ h => nomatch h
  | some a => exact ensures_pure fun b hb => ⟨rfl, congrArg some (Except.ok.inj hb)⟩

theorem ensures_stat : Ensures (sys (.stat file)) d fun r d' => ∀ a, r = .ok a →
      d' = d ∧ (a = none ↔ d.files.get? file = none) := by
  refine ⟨⟨fun _ => trivial, fun _ _ => trivial⟩, fun x => ⟨trivial, fun a ha => ⟨rfl, ?_⟩⟩⟩
  rw [← Except.ok.inj ha]
  exact Option.map_eq_none_iff

theorem ensures_read : Ensures (sys (.read file)) d fun r d' => ∀ a, r = .ok a →
      d' = d ∧ a = (d.files.get? file).map File.bytes :=
  ⟨⟨fun _ => trivial, fun _ _ => trivial⟩,
    fun _ => ⟨trivial, fun _ ha => ⟨rfl, (Except.ok.inj ha).symm⟩⟩⟩

theorem ensures_validatePrivateFile :
    Ensures (validatePrivateFile file) d fun r d' => ∀ u, r = .ok u → d' = d := by
  refine ensures_stat.bind fun metadata d1 h1 => ?_
  refine ensures_expect.bind fun metadata d2 h2 => ?_
  refine Guards.mono ensures_ensure (fun _ => id) fun r d3 h3 u hu => ?_
  rw [(h3 u hu).1, h2.1, h1.1]

theorem ensures_readLimitedBytes :
    Ensures (readLimitedBytes (.target name) maxBytes) d fun r d' => ∀ bytes, r = .ok bytes →
      d' = d ∧ Published name bytes d := by
  refine ensures_read.bind fun content d1 h1 => ?_
  refine ensures_expect.bind fun bytes d2 h2 => ?_
  refine ensures_ensure.bind fun _ d3 h3 => ensures_pure fun result hresult => ?_
  cases hresult
  refine ⟨by rw [h3.1, h2.1, h1.1], ?_⟩
  obtain ⟨file, hget, hbytes⟩ := Option.map_eq_some_iff.mp (h1.2.symm.trans h2.2)
  exact ⟨file, hget, hbytes⟩

theorem ensures_readRemoteUpdateQuarantineRecord :
    Ensures (readRemoteUpdateQuarantineRecord codec recordId) d fun r d' => ∀ record,
      r = .ok record → d' = d ∧ ∃ bytes, Published (.record recordId) bytes d ∧
        codec.decode bytes = some record ∧
        validateRemoteUpdateQuarantineRecord codec record recordId = .ok () := by
  refine ensures_validatePrivateFile.bind fun _ d1 h1 => ?_
  refine ensures_readLimitedBytes.bind fun bytes d2 h2 => ?_
  refine ensures_expect.bind fun record d3 h3 => ?_
  refine Ensures.bind (P := fun _ d' => d' = d3 ∧
    validateRemoteUpdateQuarantineRecord codec record recordId = .ok ()) ?_ ?_
  · exact ⟨trivial, fun _ hu => ⟨rfl, hu⟩⟩
  · refine fun _ d4 h4 => ensures_pure fun result hresult => ?_
    cases hresult
    refine ⟨by rw [h4.1, h3.1, h2.1, h1], bytes, ?_, h3.2, h4.2⟩
    exact h1 ▸ h2.2

theorem ensures_abandon {other : FileName} {post : Unit → Disk → Prop} :
    Ensures (abandon other e) d fun r d => ∀ u, r = .ok u → post u d :=
  ⟨⟨fun _ => trivial, fun _ _ => trivial⟩, fun _ => ⟨trivial, fun _ h => nomatch h⟩⟩

theorem ensures_publishTemporary {file : File}
    (hget : d.files.get? (.temporary name nonce) = some file) :
    Ensures (publishTemporary name nonce) d fun r d' => ∀ u, r = .ok u →
      Published name file.bytes d' := by
  refine ensures_stat.bind fun metadata d1 h1 => ?_
  obtain ⟨rfl, hmetadata⟩ := h1
  cases metadata with
  | some metadata => exact ensures_abandon
  | none =>
    have hfree := hmetadata.mp rfl
    refine guards_take.mpr ⟨⟨fun _ => trivial, fun _ _ => trivial⟩, fun x => ?_⟩
    rw [perform_hardLink hget hfree]
    refine ⟨⟨fun _ => trivial, fun _ _ => trivial⟩, fun y => ⟨trivial, fun _ _ => ⟨file, ?_, rfl⟩⟩⟩
    change (FiniteMap.erase _ _).get? _ = some file
    rw [get?_erase_of_ne (by simp), get?_insert_self]

theorem ensures_writeDurableBytesCreateNew :
    Ensures (writeDurableBytesCreateNew name nonce bytes maxBytes now) d fun r d' =>
      ∀ u, r = .ok u → Published name bytes d' := by
  refine ensures_ensure.bind fun _ d1 _ => ensures_stat.bind fun existing d2 _ => ?_
  refine ensures_ensure.bind fun _ d3 _ => ?_
  refine guards_take.mpr ⟨⟨fun _ => trivial, fun _ _ => trivial⟩, fun x => ?_⟩
  cases hget : d3.files.get? (.temporary name nonce) with
  | some file =>
    rw [perform_createNew_taken hget]
    exact ensures_abandon
  | none =>
    rw [perform_createNew_free hget]
    refine guards_take.mpr ⟨⟨fun _ => trivial, fun _ _ => trivial⟩, fun y => ?_⟩
    refine guards_take.mpr ⟨⟨fun _ => trivial, fun _ _ => trivial⟩, fun z => ?_⟩
    have hget : ∀ d : Disk, (Disk.setBytes ⟨d.files.insert (.temporary name nonce)
        ⟨d.nextInode, [], now⟩, d.nextInode + 1⟩ (.temporary name nonce) bytes).files.get?
        (.temporary name nonce) = some ⟨d.nextInode, bytes, now⟩ := by
      intro d
      rw [setBytes_of_get? (get?_insert_self _ _ _), get?_insert_self]
    exact ensures_publishTemporary (hget d3)

theorem ensures_saveRecord {receipt : Bytes}
    {reason : RemoteUpdateQuarantineReason} {detail : String}
    (hvalid : validateRemoteUpdateQuarantineRecord codec
      (quarantineRecord codec clientId origin receipt reason detail now)
      (remoteUpdateQuarantineRecordId codec clientId origin receipt) = .ok ()) :
    Ensures (saveRecord codec (quarantineRecord codec clientId origin receipt reason detail now)
      nonce now) d fun r d' => ∀ u, r = .ok u → Recorded codec clientId origin receipt d' := by
  refine ensures_stat.bind fun metadata d1 _ => ?_
  cases metadata with
  | some metadata =>
    refine ensures_readRemoteUpdateQuarantineRecord.bind fun existing d2 h2 => ?_
    refine Guards.mono ensures_ensure (fun _ => id) fun r d3 h3 u hu => ?_
    obtain ⟨rfl, hmatch⟩ := h3 u hu
    obtain ⟨rfl, bytes, hpublished, hdecode, hexisting⟩ := h2
    obtain ⟨hclient, horigin, -, hbase64⟩ := of_decide_eq_true hmatch
    refine ⟨bytes, hpublished, existing, hdecode, hexisting, hclient, horigin, ?_⟩
    rw [hbase64]
    exact codec.fromBase64_base64 receipt
  | none =>
    refine ensures_writeDurableBytesCreateNew.bind fun _ d2 h2 => ?_
    refine Guards.mono ensures_validatePrivateFile (fun _ => id) fun r d3 h3 u hu => ?_
    rw [h3 u hu]
    exact ⟨_, h2, _, codec.decode_encode _, hvalid, rfl, rfl, codec.fromBase64_base64 receipt⟩

end Ensures

section Quarantine

variable {codec : Codec} {detail : String} {receipt : Bytes} {x : Call α}
  {reason : RemoteUpdateQuarantineReason} {nonce : Nonce}

/-- What there is of a receipt: the receipt itself, or its record. -/
def Left (codec : Codec) (clientId : Uuid) (origin : String) (receipt : Bytes) (d : Disk) : Prop :=
  Published (receiptName clientId origin) receipt d ∨ Recorded codec clientId origin receipt d

theorem guards_quiet_bind {β : Type} {f : α → Call β}
    (hquiet : x.run.Only Action.Quiet) (h : Published (receiptName clientId origin) receipt d)
    (hx : Ensures x d fun r d => ∀ a, r = .ok a → P a d)
    (hf : ∀ a d, Published (receiptName clientId origin) receipt d → P a d →
      system.Guards anywhere (Left codec clientId origin receipt)
        (fun _ => Left codec clientId origin receipt) (f a).run d) :
    system.Guards anywhere (Left codec clientId origin receipt)
      (fun _ => Left codec clientId origin receipt) (x >>= f).run d := by
  have hboth := (guards_published (spares_of_quiet hquiet) h).and hx
  have hleft : ∀ d, Published (receiptName clientId origin) receipt d ∧ True →
      Left codec clientId origin receipt d := fun d h => .inl h.1
  refine (hboth.mono hleft fun _ _ => id).except_bind ?_ fun a d h => hf a d h.1 (h.2 a rfl)
  exact fun e d h => ⟨.inl h.1, .inl h.1⟩

theorem receiptName_ne_record (recordId : String) :
    receiptName clientId origin ≠ .record recordId := by
  rw [receiptName]
  exact nofun

theorem ensures_trivial : Ensures x d fun r _ => ∀ a, r = .ok a → True :=
  guards_trivial.mono (fun _ => id) fun _ _ _ _ _ => trivial

theorem guards_recorded (hx : x.run.Only (Action.Spares
      (.record (remoteUpdateQuarantineRecordId codec clientId origin receipt))))
    (h : Recorded codec clientId origin receipt d) :
    system.Guards anywhere (Left codec clientId origin receipt)
      (fun _ => Recorded codec clientId origin receipt) x.run d := by
  obtain ⟨bytes, hpublished, hdocuments⟩ := h
  refine (guards_published hx hpublished).mono (fun d h => .inr ⟨bytes, h, hdocuments⟩) ?_
  exact fun _ d h => ⟨bytes, h, hdocuments⟩

theorem guards_moveToQuarantine (h : Published (receiptName clientId origin) receipt d) :
    system.Guards anywhere (Left codec clientId origin receipt)
      (fun _ => Left codec clientId origin receipt)
      (moveToQuarantine codec (receiptName clientId origin)
        (quarantineRecord codec clientId origin receipt reason detail now) nonce now).run d := by
  unfold moveToQuarantine
  refine guards_quiet_bind (only_remoteUpdateQuarantinePath _ now) h ensures_trivial
    fun _ d1 h1 _ => ?_
  refine guards_quiet_bind (P := fun _ _ => validateRemoteUpdateQuarantineRecord codec
    (quarantineRecord codec clientId origin receipt reason detail now)
    (remoteUpdateQuarantineRecordId codec clientId origin receipt) = .ok ()) trivial h1
    ⟨trivial, fun _ hvalid => hvalid⟩ fun _ d2 h2 hvalid => ?_
  refine guards_quiet_bind (only_saveRecord codec _ nonce now) h2 (ensures_saveRecord hvalid)
    fun _ d3 _ hrecorded => ?_
  refine (guards_recorded (only_removeDurableFileIfExists (receiptName_ne_record _))
    hrecorded).except_bind (fun _ _ h => ⟨Or.inr h, Or.inr h⟩) fun _ d4 h4 => ?_
  exact (guards_recorded (spares_of_quiet (only_readRemoteUpdateQuarantineRecord codec _))
    h4).mono (fun _ => id) fun _ _ => Or.inr

/-- **Quarantine leaves evidence.** Wherever the quarantine of a receipt is cut off, and also when it
returns, the receipt is still there, or there is a complete record of it. -/
theorem quarantine_leaves {reply : Option (Except ResumeError Reply)}
    (hstep : Step codec anywhere d ⟨.quarantine clientId origin reason detail nonce, now, reply⟩ d')
    (h : Published (receiptName clientId origin) receipt d) :
    Left codec clientId origin receipt d' := by
  have hguards : system.Guards anywhere (Left codec clientId origin receipt)
      (fun _ => Left codec clientId origin receipt)
      (quarantineRemoteUpdateResumeReceipt codec clientId origin reason detail nonce now).run d := by
    unfold quarantineRemoteUpdateResumeReceipt
    refine guards_quiet_bind (only_ensure _ _) h ensures_trivial fun _ d1 h1 _ => ?_
    refine guards_quiet_bind (only_remoteUpdateResumePath clientId origin now) h1
      (guards_of_yields (yields_remoteUpdateResumePath clientId origin now))
      fun path d2 h2 hpath => ?_
    subst hpath
    refine guards_quiet_bind (only_validatePrivateFile _) h2 ensures_trivial fun _ d3 h3 _ => ?_
    refine guards_quiet_bind (only_readLimitedBytes _ _) h3 ensures_readLimitedBytes
      fun bytes d4 h4 hbytes => ?_
    obtain rfl := h3.unique hbytes.2
    exact guards_moveToQuarantine h4
  refine Guards.of_ends (hguards.except_bind (fun _ _ h => ⟨h, h⟩) fun _ d h => ?_) hstep
  exact ⟨h, h⟩

end Quarantine

/-! ## All or nothing -/

/-- What is found under a name was to be written there, and what is read of a receipt too. -/
structure AllOrNothing (codec : Codec) (es : List Event) (d : Disk) : Prop where
  whole : ∀ name bytes, Published name bytes d → Written codec es name bytes
  read : ∀ e ∈ es, ∀ clientId origin bytes, e.operation = .read clientId origin →
    e.reply = some (.ok (.bytes bytes)) → WrittenReceipt es (receiptName clientId origin) bytes

/-- **Receipts are whole, and stay.** If no crash loses bytes of a temporary file, between its creation
and the end of its `sync_all`, then in every state of a run what is found under a name has been written
there whole; no call overwrites it, and a quarantine that removes a receipt leaves its record. -/
theorem allOrNothing_of_run {codec : Codec} {es : List Event} {d : Disk}
    (hrun : Run (Step codec lossless) Disk.empty es d) :
    AllOrNothing codec es d ∧ ∀ e d', Step codec lossless d e d' →
      (∀ name bytes, Published name bytes d → ¬ e.operation.Removes name →
        Published name bytes d') ∧
      ∀ clientId origin reason detail nonce receipt,
        e.operation = .quarantine clientId origin reason detail nonce →
        Published (receiptName clientId origin) receipt d →
        Left codec clientId origin receipt d' := by
  have hwhole := whole_of_run hrun
  refine ⟨⟨?_, ?_⟩, fun e d' hstep => ?_⟩
  · rintro name bytes ⟨file, hget, rfl⟩
    exact hwhole.files _ file hget
  · intro e he clientId origin bytes hoperation hreply
    have hreads := hwhole.reads e he _ hreply
    rw [hoperation] at hreads
    exact Written.receipt hreads
  · have hany := CrashMachine.Ends.mono _ hstep fun _ _ _ _ => trivial
    refine ⟨fun name bytes h hremoves => published_kept hany h hremoves, ?_⟩
    intro clientId origin reason detail nonce receipt hoperation h
    obtain ⟨operation, now, reply⟩ := e
    subst hoperation
    exact quarantine_leaves hany h

section Examples

theorem countable_record : Countable RemoteUpdateQuarantineRecord := by
  have hchar : Countable Char := Function.Injective.countable
    (show Function.Injective Char.toNat from fun a b h => Char.ext (UInt32.toNat_inj.mp h))
  have hstring : Countable String := Function.Injective.countable
    (show Function.Injective String.toList from fun a b h => String.toList_inj.mp h)
  let fields : RemoteUpdateQuarantineRecord →
      ℕ × String × BitVec 128 × String × ℕ × String × String × ℕ × String × ℕ :=
    fun r => (r.schemaVersion, r.recordId, r.clientId.val, r.apiOriginSha256, r.receiptLength,
      r.receiptSha256, r.receiptBase64, r.reason.ctorIdx, r.detail, r.quarantinedUnixSeconds)
  refine Function.Injective.countable (show Function.Injective fields from ?_)
  rintro ⟨a1, a2, ⟨a3⟩, a4, a5, a6, a7, a8, a9, a10⟩ ⟨b1, b2, ⟨b3⟩, b4, b5, b6, b7, b8, b9, b10⟩ h
  simp only [fields, Prod.mk.injEq] at h
  obtain ⟨rfl, rfl, rfl, rfl, rfl, rfl, rfl, hreason, rfl, rfl⟩ := h
  have : a8 = b8 := by cases a8 <;> cases b8 <;> first | rfl | cases hreason
  rw [this]

/-- A record's bytes in the format that counts records: as many zeros as the record's number. -/
noncomputable def countingEncode (record : RemoteUpdateQuarantineRecord) : Bytes :=
  List.replicate (countable_record.exists_injective_nat.choose record) 0

theorem countingEncode_injective : Function.Injective countingEncode := by
  intro a b h
  have hlength := congrArg List.length h
  simp only [countingEncode, List.length_replicate] at hlength
  exact countable_record.exists_injective_nat.choose_spec hlength

/-- A codec: records are counted, bytes are written as the characters of their values, and the
digest is constant. -/
noncomputable def countingCodec : Codec where
  encode := countingEncode
  decode := Function.partialInv countingEncode
  base64 bytes := String.ofList (bytes.map fun b => Char.ofNat b.toNat)
  fromBase64 text := some (text.toList.map fun c => UInt8.ofNat c.toNat)
  sha256 _ := "0000000000000000000000000000000000000000000000000000000000000000"
  decode_encode := Function.partialInv_left countingEncode_injective
  fromBase64_base64 bytes := by
    have hbyte : ∀ b : UInt8, UInt8.ofNat (Char.ofNat b.toNat).toNat = b := by
      intro b
      rw [Char.toNat_ofNat, if_pos (Or.inl (by have := b.toNat_lt; omega)), UInt8.ofNat_toNat]
    simp [Function.comp_def, hbyte]
  sha256_lower _ := by decide +kernel

def someClient : Uuid := ⟨1⟩

def someOrigin : String := "00000000000000000000000000000000000000000000000000000000000000aa"

/-- The write of a receipt of two bytes. -/
def someWrite : Operation := .write someClient someOrigin [1, 2] ⟨0, someClient⟩

/-- What the operating system decides in the runs below: a file that has not been synced keeps its
first byte. -/
def firstByte : Choice := ⟨[], 1⟩

/-- The disk after a crash into the fourth action of the write, which writes the temporary file. -/
noncomputable def afterCrash : Option Disk :=
  system.tear firstByte (List.replicate 3 firstByte)
    (body countingCodec 0 someWrite).run Disk.empty

/-- What the write returns when no crash cuts it off. -/
noncomputable def wholeWrite : Option (Except ResumeError Reply) × Disk :=
  system.play (List.replicate 30 firstByte) (body countingCodec 0 someWrite).run Disk.empty

/-- What a read ten seconds later returns. -/
noncomputable def laterRead (d : Disk) : Option (Except ResumeError Reply) × Disk :=
  system.play (List.replicate 30 firstByte)
    (body countingCodec 10 (.read someClient someOrigin)).run d

def Reply.isBytes (bytes : Bytes) : Option (Except ResumeError Reply) → Bool
  | some (.ok (.bytes read)) => read == bytes
  | _ => false

theorem eq_of_isBytes {bytes : Bytes} {r : Option (Except ResumeError Reply)}
    (h : Reply.isBytes bytes r = true) : r = some (.ok (.bytes bytes)) := by
  unfold Reply.isBytes at h
  split at h
  · rw [eq_of_beq h]
  · cases h

/-- A receipt that is written and read again. -/
theorem allOrNothing_writeRead : ∃ es d, Run (Step countingCodec lossless) Disk.empty es d ∧
    AllOrNothing countingCodec es d ∧ ∃ d', Step countingCodec lossless d
      ⟨.read someClient someOrigin, 10, some (.ok (.bytes [1, 2]))⟩ d' ∧
      Published (receiptName someClient someOrigin) [1, 2] d' := by
  have hwritten : wholeWrite.1.isSome = true := by decide +kernel
  have hget : (wholeWrite.2.files.get? (.target (receiptName someClient someOrigin))).map
      File.bytes = some [1, 2] := by decide +kernel
  have hread : Reply.isBytes [1, 2] (laterRead wholeWrite.2).1 = true := by decide +kernel
  obtain ⟨r, hr⟩ := Option.isSome_iff_exists.mp hwritten
  have hwrite : Step countingCodec lossless Disk.empty ⟨someWrite, 0, some r⟩ wholeWrite.2 :=
    ends_play (Prod.ext hr rfl)
  have hlater : Step countingCodec lossless wholeWrite.2
      ⟨.read someClient someOrigin, 10, some (.ok (.bytes [1, 2]))⟩ (laterRead wholeWrite.2).2 :=
    ends_play (Prod.ext (eq_of_isBytes hread) rfl)
  have hrun := Run.cons hwrite (.nil _)
  obtain ⟨hall, hnext⟩ := allOrNothing_of_run hrun
  exact ⟨_, _, hrun, hall, _, hlater,
    (hnext _ _ hlater).1 _ _ (Option.map_eq_some_iff.mp hget) (by simp [Operation.Removes])⟩

/-- **A receipt that was never written.** The machine fails while the temporary file of a receipt of
two bytes is written, and keeps the first; the next read publishes that file as the receipt. -/
theorem truncated_receipt : ∃ es d, Run (Step countingCodec anywhere) Disk.empty es d ∧
    ∃ e ∈ es, e.operation = .read someClient someOrigin ∧ e.reply = some (.ok (.bytes [1])) ∧
      ¬ WrittenReceipt es (receiptName someClient someOrigin) [1] := by
  have h : ∃ d ∈ afterCrash, Reply.isBytes [1] (laterRead d).1 = true := by decide +kernel
  obtain ⟨d, htear, hread⟩ := h
  have hreply := eq_of_isBytes hread
  have hwrite : Step countingCodec anywhere Disk.empty ⟨someWrite, 0, none⟩ d := ends_tear htear
  have hlater : Step countingCodec anywhere d
      ⟨.read someClient someOrigin, 10, some (.ok (.bytes [1]))⟩ (laterRead d).2 :=
    ends_play (Prod.ext hreply rfl)
  refine ⟨_, _, .cons hwrite (.cons hlater (.nil _)), _, List.mem_cons_of_mem _
    (List.mem_singleton_self _), rfl, rfl, ?_⟩
  rintro ⟨e, he, clientId, origin, nonce, hoperation, -⟩
  obtain rfl | rfl : e = _ ∨ e = _ := by simpa using he
  · injection hoperation with _ _ hbytes
    cases hbytes
  · cases hoperation

end Examples

end LinkLake.RemoteResume
