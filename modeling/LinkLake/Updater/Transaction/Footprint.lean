import LinkLake.Updater.Transaction.Recover

/-!
# What the functions of the updater write

For every function, the files that it may change (`Writes`). A file outside of that set is the same
wherever the function is cut off (`guards_kept`), which is how most of what recovery finds is known:
the plan is never changed once it is there, only `clearActiveMarker` touches the active marker, and
the installed executable stays until the backup is complete.

Every function also writes to each file only documents of the file's kind (`Action.Regular`), so that
what is found under a name is a document that its readers accept (`World.Sound`).
-/

namespace LinkLake.Updater

open CrashMachine FiniteMap

/-! ## Actions and files -/

/-- The action may change the file. -/
def Action.Changes : Action → FileName → Prop
  | .write changed _, file => file = changed
  | .remove changed, file => file = changed
  | .copy _ destination, file => file = destination
  | .rename source destination, file => file = source ∨ file = destination
  | .awaitReadiness _, file => file = .readinessReceipt ∨ file = .authentication .readinessReceipt
  | .takeSnapshot _ directory, file => file = .snapshot directory
  | .start, file => file = .liveDatabase
  | .restore _ _, file => file = .liveDatabase
  | _, _ => False

/-- The file is an executable, and may hold anything. -/
def FileName.IsExecutable : FileName → Prop
  | .target | .staged _ | .backup _ | .incoming _ | .replaced _ | .helper _ | .updater => True
  | _ => False

/-- The content is of the file's kind. Only a server's journal is not in an envelope. -/
def FileName.Holds (product : UpdateProduct) : FileName → Content → Prop
  | .active, .document (.active _) => True
  | .status, .document (.status _) => True
  | .plan _, .document (.plan _) => True
  | .journal _, .document (.journal _) => product = .server
  | .journal _, .document (.envelope _) => product ≠ .server
  | .metadata _, .document (.metadata _) => True
  | .databaseSnapshot _, .document (.databaseSnapshot _) => True
  | .readinessRequest, .document (.readinessRequest _) => True
  | .readinessReceipt, .document (.readinessReceipt _) => True
  | .authentication _, .document (.authentication _) => True
  | file, _ => file.IsExecutable

/-- The action keeps files to their kinds. -/
def Action.Regular (product : UpdateProduct) : Action → Prop
  | .write file document => file.Holds product (.document document)
  | .copy _ destination => destination.IsExecutable
  | .rename _ destination => destination.IsExecutable
  | _ => True

variable {file : FileName} {product : UpdateProduct}

theorem FileName.IsExecutable.holds
    (h : file.IsExecutable) (content : Content) : file.Holds product content := by
  cases file <;> first | exact h.elim | trivial

/-- Every file holds content of its kind. -/
def World.Sound (product : UpdateProduct) (w : World) : Prop :=
  ∀ file content, w.files.get? file = some content → file.Holds product content

variable {w w' : World} {formats : Formats} {destination source : FileName} {files : Set FileName}
  {α : Type}

theorem World.Sound.setFile (hw : w.Sound product) {content : Content}
    (h : file.Holds product content) : (w.setFile file content).Sound product :=
  forall_insert hw h

theorem World.Sound.eraseFile (hw : w.Sound product) (file : FileName) :
    (w.eraseFile file).Sound product :=
  fun other content h => hw other content (get?_of_erase h)

theorem World.Sound.of_files (hw : w.Sound product) (h : w'.files = w.files) :
    w'.Sound product := by
  intro file content hget
  rw [h] at hget
  exact hw file content hget

/-- The service, the database and the snapshots are the same. -/
structure World.SameServer (w w' : World) : Prop where
  service : w'.service = w.service
  database : w'.database = w.database
  snapshots : w'.snapshots = w.snapshots
  starts : w'.starts = w.starts
  overwrites : w'.overwrites = w.overwrites

/-- What an action can do: to the files, or to the service, the database and the snapshots. -/
inductive Effect (formats : Formats) (w : World) : Action → World → Prop
  | none {action : Action} {w' : World} (hfiles : w'.files = w.files) (hserver : w.SameServer w') :
      Effect formats w action w'
  | write (file : FileName) (document : Document) :
      Effect formats w (.write file document) (w.setFile file (.document document))
  | remove (file : FileName) : Effect formats w (.remove file) (w.eraseFile file)
  | copy (source destination : FileName) (content : Content) :
      Effect formats w (.copy source destination) (w.setFile destination content)
  | rename (source destination : FileName) (content : Content) :
      Effect formats w (.rename source destination)
        ((w.eraseFile source).setFile destination content)
  | publish (request : ServerReadinessRequest) :
      Effect formats w (.awaitReadiness request) (w.published formats request)
  | stop (mayRequest : Bool) (timeout : UpdateError) :
      Effect formats w (.stop mayRequest timeout) { w with service := .stopped }
  | start (choice : Choice) : Effect formats w .start (w.opened formats choice)
  | takeSnapshot (binary : FileName) (directory : BackupName) (content : Content) :
      Effect formats w (.takeSnapshot binary directory) (w.snapshotted directory content)
  | restore (binary : FileName) {directory : BackupName} {snapshot : Snapshot}
      (h : w.snapshots.get? directory = some snapshot) :
      Effect formats w (.restore binary directory) (w.restored directory snapshot)

section Perform

variable {action : Action}

theorem settle_cases (choice : Choice) (w w' : World) :
    choice.settle w w' = (true, w') ∨ choice.settle w w' = (false, w') ∨
      choice.settle w w' = (false, w) := by
  unfold Choice.settle
  split_ifs
  · exact .inr (.inl rfl)
  · exact .inr (.inr rfl)
  · exact .inl rfl

theorem Effect.same : Effect formats w action w := .none rfl ⟨rfl, rfl, rfl, rfl, rfl⟩

theorem Effect.settle {choice : Choice} (h : Effect formats w action w') :
    Effect formats w action (choice.settle w w').2 := by
  unfold Choice.settle
  split_ifs
  · exact h
  · exact .same
  · exact h

theorem effect_stop (choice : Choice) (mayRequest : Bool) (timeout : UpdateError) :
    Effect formats w (.stop mayRequest timeout) (performStop choice w mayRequest timeout).2 := by
  unfold performStop
  split_ifs
  · exact .stop mayRequest timeout
  · exact .same
  · split <;> first | exact .same | exact .stop mayRequest timeout
  · split <;> exact .same

theorem effect_start (choice : Choice) :
    Effect formats w .start (performStart formats choice w).2 := by
  unfold performStart
  split_ifs
  · exact .start choice
  · exact .same
  · split
    · exact .start choice
    all_goals exact .same

theorem effect_perform (formats : Formats) (choice : Choice) (w : World) (action : Action) :
    Effect formats w action (perform formats choice w action).2 := by
  cases action with
  | write file document => exact Effect.settle (.write file document)
  | remove file =>
    rw [perform]
    split
    · exact .same
    · exact Effect.settle (.remove file)
  | copy source destination =>
    rw [perform]
    split
    · exact .same
    · split_ifs
      · exact .copy source destination choice.content
      · exact .same
      · exact .copy source destination _
  | rename source destination =>
    rw [perform]
    split
    · exact .same
    · exact Effect.settle (.rename source destination _)
  | awaitReadiness request =>
    rw [perform]
    split_ifs
    · exact .same
    · exact .publish request
  | stop mayRequest timeout => exact effect_stop choice mayRequest timeout
  | start => exact effect_start choice
  | createDirectory operation =>
    rw [perform]
    split
    · exact .same
    · exact Effect.settle (.none rfl ⟨rfl, rfl, rfl, rfl, rfl⟩)
  | takeSnapshot binary directory => exact Effect.settle (.takeSnapshot binary directory _)
  | restore binary directory =>
    rw [perform]
    split
    · exact .same
    · rename_i snapshot hsnapshot
      exact Effect.settle (.restore binary hsnapshot)
  | _ => exact .same

theorem effect_torn (formats : Formats) (choice : Choice) (w : World) (action : Action) :
    Effect formats w action (torn choice w action) := by
  cases action with
  | copy source destination => exact .copy source destination choice.content
  | _ => exact .same

variable (h : Effect formats w action w')
include h

theorem Effect.get?_eq (hfile : ¬ action.Changes file) :
    w'.files.get? file = w.files.get? file := by
  cases h with
  | none h => rw [h]
  | write other document => exact get?_insert_of_ne hfile
  | remove other => exact get?_erase_of_ne hfile
  | copy source destination content => exact get?_insert_of_ne hfile
  | rename source destination content =>
    obtain ⟨hsource, hdestination⟩ := not_or.mp hfile
    exact (get?_insert_of_ne hdestination).trans (get?_erase_of_ne hsource)
  | publish request =>
    obtain ⟨hreceipt, htag⟩ := not_or.mp hfile
    exact (get?_insert_of_ne htag).trans (get?_insert_of_ne hreceipt)
  | _ => rfl

theorem Effect.sound
    (haction : action.Regular product) (hw : w.Sound product) : w'.Sound product := by
  cases h with
  | none h => exact hw.of_files h
  | write file document => exact hw.setFile haction
  | remove file => exact hw.eraseFile file
  | copy source destination content => exact hw.setFile (haction.holds content)
  | rename source destination content => exact (hw.eraseFile source).setFile (haction.holds content)
  | publish request =>
    have hreceipt : FileName.readinessReceipt.Holds product
        (.document (.readinessReceipt request)) := trivial
    have htag : ∀ tag, (FileName.authentication .readinessReceipt).Holds product
        (.document (.authentication tag)) := fun _ => trivial
    exact (hw.setFile hreceipt).setFile (htag _)
  | _ => exact hw.of_files rfl

/-- The service is there, and neither in transition nor unknown. -/
def World.Responsive (w : World) : Prop := w.service = .stopped ∨ w.service = .running

theorem Effect.responsive (hw : w.Responsive) : w'.Responsive := by
  cases h with
  | none _ h =>
    rw [World.Responsive, h.service]
    exact hw
  | stop mayRequest timeout => exact .inl rfl
  | start choice => exact .inr rfl
  | _ => exact hw

end Perform

/-! ## Programs and files -/

/-- The action changes only these files, and keeps them to their kinds. -/
def Action.StaysIn (product : UpdateProduct) (files : Set FileName) (action : Action) : Prop :=
  (∀ file, action.Changes file → file ∈ files) ∧ action.Regular product

/-- The program changes only these files, and keeps them to their kinds. -/
def Writes (product : UpdateProduct) (files : Set FileName) {α : Type}
    (p : Program Action.Answer α) : Prop := p.Only (Action.StaysIn product files)

section Rules

variable {files' : Set FileName} {β : Type} {x : Call α} {f : α → Call β}
  {admits : World → Action → World → Prop} {p : Program Action.Answer α} {error : UpdateError}

theorem guards_sound (hp : Writes product files p) (hw : w.Sound product) :
    (system formats).Guards admits (World.Sound product) (fun _ => World.Sound product) p w :=
  guards_of_only hp hw
    (fun choice w action haction => (effect_perform formats choice w action).sound haction.2)
    (fun choice w action haction => (effect_torn formats choice w action).sound haction.2)

theorem guards_kept (hp : Writes product files p) (hfile : file ∉ files) :
    (system formats).Guards admits (fun w' => w'.files.get? file = w.files.get? file)
      (fun _ w' => w'.files.get? file = w.files.get? file) p w := by
  refine guards_of_only hp rfl (fun choice s action haction hs => ?_)
    fun choice s action haction hs => ?_
  · exact ((effect_perform formats choice s action).get?_eq
      fun h => hfile (haction.1 file h)).trans hs
  · exact ((effect_torn formats choice s action).get?_eq fun h => hfile (haction.1 file h)).trans hs

/-- The two states agree outside of these files. -/
structure World.Agrees (files : Set FileName) (w w' : World) : Prop where
  file : ∀ file, file ∉ files → w'.files.get? file = w.files.get? file
  snapshot : ∀ directory, .snapshot directory ∉ files →
    w'.snapshots.get? directory = w.snapshots.get? directory
  database : .liveDatabase ∉ files →
    w'.database = w.database ∧ w'.starts = w.starts ∧ w'.overwrites = w.overwrites

theorem World.Agrees.refl (files : Set FileName) (w : World) : w.Agrees files w :=
  ⟨fun _ _ => rfl, fun _ _ => rfl, fun _ => ⟨rfl, rfl, rfl⟩⟩

theorem World.Agrees.trans {w' w'' : World} (h : w.Agrees files w') (h' : w'.Agrees files w'') :
    w.Agrees files w'' := by
  refine ⟨fun file hfile => (h'.file file hfile).trans (h.file file hfile),
    fun directory hfile => (h'.snapshot directory hfile).trans (h.snapshot directory hfile),
    fun hfile => ?_⟩
  obtain ⟨hdatabase, hstarts, hoverwrites⟩ := h.database hfile
  obtain ⟨hdatabase', hstarts', hoverwrites'⟩ := h'.database hfile
  exact ⟨hdatabase'.trans hdatabase, hstarts'.trans hstarts, hoverwrites'.trans hoverwrites⟩

theorem Effect.agrees {w' : World} {action : Action} (h : Effect formats w action w')
    (haction : action.StaysIn product files) : w.Agrees files w' := by
  have hkept : ∀ file, file ∉ files → w'.files.get? file = w.files.get? file :=
    fun file hmem => h.get?_eq fun hchanges => hmem (haction.1 file hchanges)
  cases h with
  | none _ h =>
    exact ⟨hkept, fun directory _ => by rw [h.snapshots],
      fun _ => ⟨h.database, h.starts, h.overwrites⟩⟩
  | start choice => exact ⟨hkept, fun _ _ => rfl, fun hmem => (hmem (haction.1 _ rfl)).elim⟩
  | takeSnapshot binary directory content =>
    refine ⟨hkept, fun other hother => ?_, fun _ => ⟨rfl, rfl, rfl⟩⟩
    refine get?_insert_of_ne fun heq => hother (haction.1 _ ?_)
    exact congrArg FileName.snapshot heq
  | restore binary hsnapshot =>
    exact ⟨hkept, fun _ _ => rfl, fun hmem => (hmem (haction.1 _ rfl)).elim⟩
  | _ => exact ⟨hkept, fun _ _ => rfl, fun _ => ⟨rfl, rfl, rfl⟩⟩

theorem guards_agrees (hp : Writes product files p) :
    (system formats).Guards admits (World.Agrees files w) (fun _ => World.Agrees files w) p w := by
  refine guards_of_only hp (.refl files w) (fun choice s action haction hs => hs.trans ?_)
    fun choice s action haction hs => hs.trans ?_
  · exact (effect_perform formats choice s action).agrees haction
  · exact (effect_torn formats choice s action).agrees haction

theorem Writes.mono (hp : Writes product files p) (h : files ⊆ files') : Writes product files' p :=
  Program.Only.mono hp fun _ haction => ⟨fun file hfile => h (haction.1 file hfile), haction.2⟩

theorem Writes.bind (hx : Writes product files x.run) (hf : ∀ a, Writes product files (f a).run) :
    Writes product files (x >>= f).run := Program.Only.except_bind hx hf

theorem Writes.seq (hx : Writes product files x.run) (hf : ∀ {a}, Writes product files (f a).run) :
    Writes product files (x >>= f).run := hx.bind fun _ => hf

theorem Writes.outcome_bind {f : Except UpdateError α → Call β} (hx : Writes product files x.run)
    (hf : ∀ a, Writes product files (f a).run) : Writes product files (outcome x >>= f).run :=
  Program.Only.lift_bind hx hf

theorem writes_pure {a : α} : Writes product files (pure a : Call α).run := trivial

theorem writes_throw : Writes product files (throw error : Call α).run := trivial

theorem writes_ensure {condition : Bool} : Writes product files (ensure condition error).run := by
  unfold ensure
  split_ifs
  · exact writes_pure
  · exact writes_throw

theorem writes_expect {a : Option α} : Writes product files (expect error a).run := by
  cases a <;> trivial

theorem writes_sys (action : Action) (h : action.StaysIn product files) :
    Writes product files (sys action).run := ⟨h, fun _ => trivial⟩

/-- The action changes no file. -/
def Action.leavesFiles : Action → Bool
  | .write _ _ | .remove _ | .copy _ _ | .rename _ _ | .awaitReadiness _ => false
  | .takeSnapshot _ _ | .start | .restore _ _ => false
  | _ => true

theorem writes_read (action : Action) (h : action.leavesFiles = true) :
    Writes product files (sys action).run := by
  refine writes_sys action ⟨fun file hfile => ?_, ?_⟩ <;> cases action <;> first
    | exact hfile.elim | trivial

end Rules

section Functions

variable {plan : HelperPlan} {planSha256 : String} {context : ServerUpdateContext}
  {directory : BackupName} {document : Document} {operationId : Uuid} {owner : UpdateProduct}
  {parse : Content → Option α} {purpose : Purpose}
  {snapshot metadata : ServerDatabaseSnapshotMetadata} {error : Option UpdateError}

/-! ## Reading -/

theorem writes_readContent : Writes product files (readContent file).run :=
  (writes_read (.read file) rfl).seq <| writes_expect

theorem writes_readDurableJson : Writes product files (readDurableJson parse file).run :=
  writes_readContent.seq <| writes_expect

theorem writes_sha256File : Writes product files (sha256File file).run :=
  (writes_read (.sha256 file) rfl).seq <| writes_expect

theorem writes_acquireLock : Writes product files acquireLock.run :=
  (writes_read .lock rfl).seq <| writes_ensure

theorem writes_readServerAuthenticatedJson :
    Writes product files (readServerAuthenticatedJson formats parse file purpose).run :=
  writes_readContent.seq <| writes_readDurableJson.seq <| writes_ensure.seq <| writes_ensure.seq <|
    writes_ensure.seq <| writes_expect

theorem writes_readState :
    Writes product files (readState formats owner parse file purpose).run := by
  unfold readState
  split_ifs
  · exact writes_readServerAuthenticatedJson
  · exact writes_readDurableJson

theorem writes_verifyInstalledVersion {expected : String} :
    Writes product files (verifyInstalledVersion file expected).run := by
  unfold verifyInstalledVersion
  split_ifs
  · exact writes_pure
  · exact (writes_read (.version file) rfl).seq <| writes_expect.seq <| writes_ensure

theorem writes_validateTargetExecutable : Writes product files validateTargetExecutable.run :=
  (writes_read (.exists .target) rfl).seq <| writes_ensure

theorem writes_inspectServerDatabase : Writes product files (inspectServerDatabase file).run :=
  (writes_read (.inspect file) rfl).seq <| writes_expect

theorem writes_validateSnapshotMetadata :
    Writes product files (validateSnapshotMetadata metadata operationId planSha256).run :=
  writes_ensure.seq <| writes_ensure.seq <| writes_ensure.seq <| writes_ensure.seq <|
    (writes_read (.snapshotSha256 metadata.snapshotDirectory) rfl).seq <| writes_expect.seq <|
    writes_ensure.seq <| writes_sha256File.seq <| writes_ensure

theorem writes_readSnapshotMetadata : Writes product files (readSnapshotMetadata directory).run :=
  writes_readDurableJson.seq <| writes_validateSnapshotMetadata.seq <| writes_pure

theorem writes_readAuthenticatedSnapshot :
    Writes product files (readAuthenticatedSnapshot formats directory).run :=
  writes_readServerAuthenticatedJson.seq <| writes_readSnapshotMetadata

theorem writes_validateUpdateContext : Writes product files (validateUpdateContext context).run :=
  writes_ensure.seq <| writes_sha256File.seq <| writes_sha256File.seq <| writes_ensure

theorem writes_status : Writes product files status.run := by
  refine (writes_read (.exists .status) rfl).bind fun present => ?_
  split_ifs
  · exact writes_readDurableJson
  · exact (writes_read (.version .target) rfl).seq <| (writes_read .clock rfl).seq <| writes_pure

theorem writes_readActivePlan {active : ActiveUpdate} {mismatch : UpdateError} :
    Writes product files (readActivePlan formats active mismatch).run :=
  writes_readContent.seq <| writes_ensure.seq <| writes_ensure.seq <| writes_pure

theorem writes_stopService {mayRequest : Bool} {timeout : UpdateError} :
    Writes product files (stopService mayRequest timeout).run := by
  refine (writes_read (.stop mayRequest timeout) rfl).bind fun error => ?_
  cases error with
  | none => exact writes_pure
  | some error => exact writes_throw

theorem writes_stopServiceForUpdate : Writes product files (stopServiceForUpdate plan).run := by
  unfold stopServiceForUpdate
  split_ifs
  · exact writes_stopService
  · exact writes_pure

theorem writes_stopCandidate :
    Writes product files (stopCandidateServiceAfterFailedHandoff plan).run := by
  unfold stopCandidateServiceAfterFailedHandoff
  split_ifs
  · exact writes_stopService
  · exact writes_pure

theorem writes_startService (h : .liveDatabase ∈ files) :
    Writes product files startService.run := by
  refine (writes_sys .start ⟨fun _ hfile => hfile ▸ h, trivial⟩).bind fun error => ?_
  cases error with
  | none => exact writes_pure
  | some error => exact writes_throw

theorem writes_restartServiceAfterUpdate (h : .liveDatabase ∈ files) :
    Writes product files (restartServiceAfterUpdate plan).run := by
  unfold restartServiceAfterUpdate
  split_ifs
  · exact writes_startService h
  · exact writes_pure

/-! ## Writing -/

theorem writes_writeDurableJson (h : file ∈ files)
    (hholds : file.Holds product (.document document)) :
    Writes product files (writeDurableJson file document).run :=
  (writes_sys (.write file document) ⟨fun _ hfile => hfile ▸ h, hholds⟩).seq <| writes_ensure

theorem writes_removeDurableFile (h : file ∈ files) :
    Writes product files (removeDurableFile file).run :=
  (writes_sys (.remove file) ⟨fun _ hfile => hfile ▸ h, trivial⟩).seq <| writes_ensure

/-- A server's document and its authentication. -/
@[simp] def authenticated (file : FileName) : Set FileName := {file, .authentication file}

theorem writes_writeServerAuthenticatedJson
    (h : authenticated file ⊆ files) (hholds : file.Holds product (.document document)) :
    Writes product files (writeServerAuthenticatedJson formats file purpose document).run :=
  (writes_writeDurableJson (h (.inl rfl)) hholds).seq <|
    writes_writeDurableJson (h (.inr rfl)) trivial

theorem writes_writeState
    (h : authenticated file ⊆ files) (hholds : file.Holds product (.document document)) :
    Writes product files (writeState formats owner file purpose document).run := by
  unfold writeState
  split_ifs
  · exact writes_writeServerAuthenticatedJson h hholds
  · exact writes_writeDurableJson (h (.inl rfl)) hholds

theorem writes_removeIfPresent (h : file ∈ files) :
    Writes product files (removeIfPresent file).run := by
  refine (writes_read (.exists file) rfl).bind fun present => ?_
  split_ifs
  · exact writes_removeDurableFile h
  · exact writes_pure

theorem writes_removeServerAuthenticatedStateIfPresent (h : authenticated file ⊆ files) :
    Writes product files (removeServerAuthenticatedStateIfPresent file).run :=
  (writes_removeIfPresent (h (.inl rfl))).seq <| writes_removeIfPresent (h (.inr rfl))

/-- The files of the readiness contract. -/
@[simp] def readinessFiles : Set FileName :=
  authenticated .readinessRequest ∪ authenticated .readinessReceipt

theorem writes_clearServerReadinessContract (h : readinessFiles ⊆ files) :
    Writes product files clearServerReadinessContract.run :=
  (writes_removeServerAuthenticatedStateIfPresent (Set.subset_union_left.trans h)).seq <|
    writes_removeServerAuthenticatedStateIfPresent (Set.subset_union_right.trans h)

theorem writes_writeOperationJournal {stage : Stage} {backup : Option BackupName}
    (h : authenticated (.journal plan.operationId) ⊆ files) :
    Writes plan.product files
      (writeOperationJournal formats plan planSha256 stage backup error).run := by
  refine writes_ensure.seq <| (writes_read .clock rfl).bind fun now => ?_
  split_ifs with hproduct
  · exact writes_ensure.seq <| writes_writeServerAuthenticatedJson h hproduct
  · exact writes_writeDurableJson (h (.inl rfl)) hproduct

theorem writes_clearActiveMarker (h : authenticated .active ⊆ files) :
    Writes product files (clearActiveMarker formats owner operationId).run := by
  refine writes_readState.bind fun active => writes_ensure.bind fun _ => ?_
  split_ifs
  · exact (writes_removeDurableFile (h (.inl rfl))).seq <| writes_removeDurableFile (h (.inr rfl))
  · exact writes_removeDurableFile (h (.inl rfl))

theorem writes_writeStatus {state message : String}
    {backup : Option BackupName} (h : .status ∈ files) :
    Writes product files (writeStatus plan state message error backup).run :=
  (writes_read .clock rfl).seq <| writes_writeDurableJson h trivial

theorem writes_restoreServerDatabase
    (h : .liveDatabase ∈ files) : Writes product files (restoreServerDatabase file snapshot).run :=
  writes_validateSnapshotMetadata.seq <| writes_ensure.seq <| writes_sha256File.seq <|
    writes_ensure.seq <| (writes_sys (.restore _ _) ⟨fun _ hfile => hfile ▸ h, trivial⟩).seq <|
    writes_ensure.seq <| writes_inspectServerDatabase.seq <| writes_ensure.seq <| writes_ensure

/-! ## Executables -/

/-- The installed executable and what is renamed into and out of its place. -/
@[simp] def executableFiles : Set FileName :=
  {.target} ∪ Set.range FileName.incoming ∪ Set.range FileName.replaced

theorem writes_copyFile (h : destination ∈ files) (hexecutable : destination.IsExecutable) :
    Writes product files (copyFile source destination).run :=
  (writes_sys (.copy source destination) ⟨fun _ hfile => hfile ▸ h, hexecutable⟩).seq <|
    writes_ensure

theorem writes_rename (hsource : source ∈ files)
    (hdestination : destination ∈ files) (hexecutable : destination.IsExecutable) :
    Writes product files (sys (.rename source destination)).run := by
  refine writes_sys _ ⟨?_, hexecutable⟩
  rintro file (rfl | rfl)
  · exact hsource
  · exact hdestination

section Replace

variable {id : Uuid} (h : executableFiles ⊆ files) {allowMissingTarget : Bool}
include h

theorem mem_target : FileName.target ∈ files := h (.inl (.inl rfl))

theorem mem_incoming (id : Uuid) : FileName.incoming id ∈ files := h (.inl (.inr ⟨id, rfl⟩))

theorem mem_replaced (id : Uuid) : FileName.replaced id ∈ files := h (.inr ⟨id, rfl⟩)

theorem writes_renameIncoming {hadTarget : Bool} :
    Writes product files (renameIncoming hadTarget id).run := by
  refine (writes_rename (mem_incoming h id) (mem_target h) trivial).bind fun renamed => ?_
  cases renamed <;> cases hadTarget
  · exact writes_throw
  · exact (writes_rename (mem_replaced h id) (mem_target h) trivial).seq <| writes_throw
  · exact writes_pure
  · exact writes_removeDurableFile (mem_replaced h id)

theorem writes_replaceAttempt :
    Writes product files (replaceAttempt id allowMissingTarget).run := by
  refine (writes_removeIfPresent (mem_replaced h id)).bind fun _ => ?_
  refine (writes_read (.exists .target) rfl).bind fun hadTarget => writes_ensure.bind fun _ => ?_
  cases hadTarget
  · exact writes_renameIncoming h
  · exact (writes_rename (mem_target h) (mem_replaced h id) trivial).seq <| writes_ensure.seq <|
      writes_renameIncoming h

theorem writes_putBack : Writes product files (putBack id).run := by
  refine (writes_read (.exists .target) rfl).bind fun present => ?_
  refine (writes_read (.exists (.replaced id)) rfl).bind fun kept => ?_
  split_ifs
  · exact (writes_rename (mem_replaced h id) (mem_target h) trivial).seq <| writes_pure
  · exact writes_pure

theorem writes_giveUp {error : UpdateError} : Writes product files (giveUp id error).run := by
  refine (writes_sys (.remove (.incoming id)) ⟨fun _ hfile => hfile ▸ mem_incoming h id,
    trivial⟩).seq <| (writes_putBack h).seq <| writes_throw

theorem writes_copyIfMissing : Writes product files (copyIfMissing source (.incoming id)).run := by
  refine (writes_read (.exists (.incoming id)) rfl).bind fun present => ?_
  split_ifs
  · exact writes_pure
  · exact writes_copyFile (mem_incoming h id) trivial

theorem writes_retryReplace (attempts : ℕ) :
    Writes product files (retryReplace source id allowMissingTarget attempts).run := by
  induction attempts with
  | zero =>
    refine (writes_replaceAttempt h).outcome_bind fun r => ?_
    cases r with
    | ok _ => exact writes_pure
    | error error => exact writes_giveUp h
  | succ attempts ih =>
    refine (writes_replaceAttempt h).outcome_bind fun r => ?_
    cases r with
    | ok _ => exact writes_pure
    | error error =>
      refine (writes_read .expired rfl).bind fun expired => ?_
      split_ifs
      · exact writes_giveUp h
      · exact (writes_copyIfMissing h).seq <| (writes_putBack h).seq <| ih

theorem writes_atomicReplaceWithRetryInner :
    Writes product files (atomicReplaceWithRetryInner source allowMissingTarget).run :=
  (writes_read .newUuid rfl).bind fun id => (writes_copyFile (mem_incoming h id) trivial).seq <|
    writes_sha256File.seq <| writes_sha256File.seq <| writes_ensure.seq <|
    writes_retryReplace h helperRetryAttempts

end Replace

/-! ## The helper -/

/-- The files of a backup directory. -/
@[simp] def backupFiles (directory : BackupName) : Set FileName :=
  {.backup directory, .snapshot directory} ∪ authenticated (.metadata directory) ∪
    authenticated (.databaseSnapshot directory)

theorem writes_snapshotContext {transaction : ServerDatabaseTransaction} :
    Writes product files (snapshotContext transaction).run := by
  cases transaction with
  | apply context => exact writes_pure
  | rollback context =>
    exact (writes_inspectServerDatabase.seq <| writes_ensure).seq <|
      writes_inspectServerDatabase.seq <| writes_inspectServerDatabase.seq <|
      writes_sha256File.seq <| writes_ensure.seq <| writes_pure

theorem writes_backupServerDatabase (h : .snapshot directory ∈ files) :
    Writes product files (backupServerDatabase directory context operationId planSha256).run :=
  writes_validateUpdateContext.seq <| writes_ensure.seq <| writes_sha256File.seq <|
    writes_ensure.seq <| writes_inspectServerDatabase.seq <| writes_ensure.seq <|
    (writes_sys (.takeSnapshot _ _) ⟨fun _ hfile => hfile ▸ h, trivial⟩).seq <| writes_ensure.seq <|
    (writes_read (.snapshotSha256 _) rfl).seq <| writes_expect.seq <|
    (writes_read .clock rfl).seq <| writes_pure

theorem writes_writeSnapshotMetadata (h : .databaseSnapshot directory ∈ files) :
    Writes product files (writeSnapshotMetadata directory metadata).run :=
  writes_validateSnapshotMetadata.seq <| writes_writeDurableJson h trivial

theorem writes_createServerDatabaseSnapshot
    (hsnapshot : .snapshot directory ∈ files) (h : .databaseSnapshot directory ∈ files) :
    Writes product files (createServerDatabaseSnapshot plan directory planSha256).run := by
  unfold createServerDatabaseSnapshot
  split
  · exact writes_pure
  · exact writes_ensure.seq <| writes_snapshotContext.seq <|
      (writes_backupServerDatabase hsnapshot).seq <| (writes_writeSnapshotMetadata h).seq <|
      writes_pure

section Backup

variable (h : ∀ directory, backupFiles directory ⊆ files)
include h

theorem mem_backup (directory : BackupName) : .backup directory ∈ files :=
  h directory (.inl (.inl (.inl rfl)))

theorem mem_snapshot (directory : BackupName) : .snapshot directory ∈ files :=
  h directory (.inl (.inl (.inr rfl)))

theorem metadata_subset (directory : BackupName) : authenticated (.metadata directory) ⊆ files :=
  fun _ hfile => h directory (.inl (.inr hfile))

theorem snapshot_subset (directory : BackupName) :
    authenticated (.databaseSnapshot directory) ⊆ files := fun _ hfile => h directory (.inr hfile)

theorem writes_authenticateSnapshot {snapshot : Option BackupName} :
    Writes product files (authenticateSnapshot formats snapshot).run := by
  cases snapshot with
  | none => exact writes_pure
  | some directory =>
    exact writes_readSnapshotMetadata.seq <|
      writes_writeServerAuthenticatedJson (snapshot_subset h directory) trivial

theorem writes_writeBackupMetadata {directory : BackupName} {metadata : BackupMetadata} :
    Writes product files (writeBackupMetadata formats plan directory metadata).run := by
  unfold writeBackupMetadata
  split_ifs
  · exact (writes_authenticateSnapshot h).seq <|
      writes_writeServerAuthenticatedJson (metadata_subset h directory) trivial
  · exact writes_writeDurableJson (metadata_subset h directory (.inl rfl)) trivial

theorem writes_createBackup : Writes product files (createBackup formats plan planSha256).run :=
  (writes_read .clock rfl).seq <| (writes_read .newUuid rfl).seq <|
    (writes_copyFile (mem_backup h _) trivial).seq <| writes_sha256File.seq <| writes_ensure.seq <|
    (writes_createServerDatabaseSnapshot (mem_snapshot h _)
      (snapshot_subset h _ (.inl rfl))).seq <| (writes_read .clock rfl).seq <|
        (writes_writeBackupMetadata h).seq <| writes_pure

end Backup

theorem writes_preflightServerDatabase :
    Writes product files (preflightServerDatabase plan context snapshot).run :=
  writes_validateUpdateContext.seq <| writes_validateSnapshotMetadata.seq <| writes_ensure.seq <|
    writes_ensure.seq <| writes_sha256File.seq <| writes_ensure.seq <|
    (writes_read (.preflight _ _) rfl).seq <| writes_ensure

section Journal

variable (h : authenticated (.journal plan.operationId) ⊆ files) (hdatabase : .liveDatabase ∈ files)
include h hdatabase

variable {backup : BackupName}

theorem writes_manualRollback {context : ServerRollbackContext} :
    Writes plan.product files (manualRollback formats plan context backup planSha256).run := by
  unfold manualRollback
  split_ifs
  · exact writes_readAuthenticatedSnapshot.seq <| writes_validateSnapshotMetadata.seq <|
      writes_ensure.seq <| (writes_restoreServerDatabase hdatabase).seq <|
      writes_writeOperationJournal h
  · exact writes_pure

theorem writes_prepareServerDatabaseTransition :
    Writes plan.product files
      (prepareServerDatabaseTransition formats plan backup planSha256).run := by
  unfold prepareServerDatabaseTransition
  split
  · exact writes_pure
  · rename_i transaction _
    refine writes_readServerAuthenticatedJson.bind fun metadata => writes_ensure.bind fun _ => ?_
    cases transaction with
    | apply context =>
      exact writes_expect.seq <| writes_readAuthenticatedSnapshot.seq <|
        writes_validateSnapshotMetadata.seq <| writes_preflightServerDatabase.seq <|
        writes_writeOperationJournal h
    | rollback context =>
      exact (writes_inspectServerDatabase.seq <| writes_ensure).seq <|
        writes_manualRollback h hdatabase

end Journal

/-- The files that the helper changes, but for the active marker. -/
@[simp] def updateFiles (operationId : Uuid) : Set FileName :=
  authenticated (.journal operationId) ∪ {.status, .liveDatabase} ∪ executableFiles ∪
    (⋃ directory, backupFiles directory) ∪ readinessFiles

section Helper

variable {backup : BackupName} {error : UpdateError}

theorem journal_subset : authenticated (.journal operationId) ⊆ updateFiles operationId :=
  fun _ h => .inl (.inl (.inl (.inl h)))

theorem status_mem : .status ∈ updateFiles operationId :=
  .inl (.inl (.inl (.inr (.inl rfl))))

theorem liveDatabase_mem : .liveDatabase ∈ updateFiles operationId :=
  .inl (.inl (.inl (.inr (.inr rfl))))

theorem executable_subset : executableFiles ⊆ updateFiles operationId :=
  fun _ h => .inl (.inl (.inr h))

theorem backup_subset (directory : BackupName) : backupFiles directory ⊆ updateFiles operationId :=
  fun _ h => .inl (.inr (Set.mem_iUnion.mpr ⟨directory, h⟩))

theorem readiness_subset : readinessFiles ⊆ updateFiles operationId :=
  fun _ h => .inr h

theorem writes_prepareServerReadinessRequest (h : readinessFiles ⊆ files) :
    Writes product files (prepareServerReadinessRequest formats plan).run := by
  have hholds : ∀ request, FileName.readinessRequest.Holds product
      (.document (.readinessRequest request)) := fun _ => trivial
  exact writes_ensure.seq <| (writes_read .newUuid rfl).seq <| (writes_read .clock rfl).seq <|
    (writes_removeServerAuthenticatedStateIfPresent
      (Set.subset_union_right.trans h)).seq <| (writes_writeServerAuthenticatedJson
        (Set.subset_union_left.trans h) (hholds _)).seq <| writes_pure

theorem writes_waitForServerBusinessReadiness {request : ServerReadinessRequest}
    (h : readinessFiles ⊆ files) :
    Writes product files (waitForServerBusinessReadiness request).run := by
  refine (writes_sys (.awaitReadiness request) ⟨?_, trivial⟩).bind fun error => ?_
  · rintro file (rfl | rfl)
    · exact h (.inr (.inl rfl))
    · exact h (.inr (.inr rfl))
  · cases error with
    | none => exact writes_pure
    | some error => exact writes_throw

theorem writes_executeServerCandidateHandoff
    (hjournal : authenticated (.journal plan.operationId) ⊆ files)
    (hreadiness : readinessFiles ⊆ files) (hdatabase : .liveDatabase ∈ files) :
    Writes plan.product files (executeServerCandidateHandoff formats plan planSha256 backup).run :=
  writes_ensure.seq <| (writes_prepareServerReadinessRequest hreadiness).seq <|
    (writes_writeOperationJournal hjournal).seq <|
    (writes_restartServiceAfterUpdate hdatabase).seq <|
    (writes_writeOperationJournal hjournal).seq <|
    (writes_waitForServerBusinessReadiness hreadiness).seq <| writes_writeOperationJournal hjournal

theorem writes_installCandidate : Writes plan.product (updateFiles plan.operationId)
      (installCandidate formats plan planSha256 backup).run := by
  refine (writes_prepareServerDatabaseTransition journal_subset liveDatabase_mem).bind fun _ => ?_
  refine (writes_atomicReplaceWithRetryInner executable_subset).bind fun _ => ?_
  refine writes_sha256File.seq <| writes_ensure.bind fun _ => ?_
  refine writes_verifyInstalledVersion.bind fun _ => ?_
  split_ifs
  · exact writes_executeServerCandidateHandoff journal_subset readiness_subset liveDatabase_mem
  · exact writes_restartServiceAfterUpdate liveDatabase_mem

theorem writes_abandonUpdate (h : .liveDatabase ∈ files) :
    Writes product files (abandonUpdate plan error) :=
  Program.Only.bind (writes_restartServiceAfterUpdate h) fun _ => trivial

theorem writes_executeWithBackup : Writes plan.product (updateFiles plan.operationId)
      (executeWithBackup formats plan planSha256 backup) :=
  Program.Only.bind ((writes_writeOperationJournal journal_subset).seq <|
    writes_installCandidate) fun _ => trivial

theorem writes_executeHelperInner :
    Writes plan.product (updateFiles plan.operationId)
      (executeHelperInner formats plan planSha256) := by
  refine Program.Only.bind writes_stopServiceForUpdate fun r => ?_
  cases r with
  | error error => trivial
  | ok _ =>
    refine Program.Only.bind (writes_writeOperationJournal journal_subset) fun r => ?_
    cases r with
    | error error => exact writes_abandonUpdate liveDatabase_mem
    | ok _ =>
      refine Program.Only.bind (writes_createBackup backup_subset) fun r => ?_
      cases r with
      | error error => exact writes_abandonUpdate liveDatabase_mem
      | ok backup => exact writes_executeWithBackup

theorem writes_serverHandoffFailureRoute :
    Writes product files (serverHandoffFailureRoute formats plan).run := by
  unfold serverHandoffFailureRoute
  split_ifs
  · refine (writes_readServerAuthenticatedJson.seq <| writes_ensure.seq <|
      writes_pure).bind fun started => ?_
    split_ifs
    · exact writes_stopCandidate.seq <| writes_pure
    · exact writes_pure
  · exact writes_pure

theorem writes_rollbackSnapshot :
    Writes product files (rollbackSnapshot formats plan backup planSha256).run :=
  writes_readServerAuthenticatedJson.seq <| writes_ensure.seq <| writes_expect.seq <|
    writes_readAuthenticatedSnapshot.seq <| writes_validateSnapshotMetadata.seq <| writes_pure

theorem writes_restoreExecutable (h : executableFiles ⊆ files) (hdatabase : .liveDatabase ∈ files) :
    Writes product files (restoreExecutable plan backup).run :=
  (writes_atomicReplaceWithRetryInner h).seq <| writes_sha256File.seq <| writes_ensure.seq <|
    writes_verifyInstalledVersion.seq <| writes_restartServiceAfterUpdate hdatabase

theorem writes_restoreAfterFailure : Writes plan.product (updateFiles plan.operationId)
      (restoreAfterFailure formats plan backup planSha256).run := by
  refine (writes_read (.exists (.backup backup)) rfl).bind fun present => ?_
  refine writes_ensure.bind fun _ => ?_
  split_ifs
  · exact writes_rollbackSnapshot.seq <| writes_stopCandidate.seq <|
      (writes_clearServerReadinessContract readiness_subset).seq <|
      (writes_restoreServerDatabase liveDatabase_mem).seq <|
      (writes_writeOperationJournal journal_subset).seq <|
      writes_restoreExecutable executable_subset liveDatabase_mem
  · exact writes_stopCandidate.seq <| writes_restoreExecutable executable_subset liveDatabase_mem

theorem writes_automaticRollback {backup : Option BackupName} :
    Writes plan.product (updateFiles plan.operationId)
      (automaticRollback formats plan planSha256 backup).run := by
  cases backup with
  | none => exact writes_pure
  | some backup => exact writes_restoreAfterFailure.seq <| writes_pure

theorem writes_requireManualRecovery {backup : Option BackupName} :
    Writes plan.product (updateFiles plan.operationId)
      (requireManualRecovery formats plan planSha256 error backup).run :=
  writes_stopCandidate.outcome_bind fun _ => (writes_writeStatus status_mem).seq <|
    (writes_writeOperationJournal journal_subset).seq <| writes_throw

theorem writes_releaseMarker {wanted : Bool} (h : authenticated .active ⊆ files) :
    Writes product files (releaseMarker formats plan wanted).run := by
  unfold releaseMarker
  split_ifs
  · exact (writes_clearActiveMarker h).outcome_bind fun _ => writes_pure
  · exact writes_pure

/-- All files that the helper changes. -/
def helperFiles (operationId : Uuid) : Set FileName :=
  updateFiles operationId ∪ authenticated .active

theorem updateFiles_subset :
    updateFiles operationId ⊆ helperFiles operationId := Set.subset_union_left

theorem active_subset : authenticated .active ⊆ helperFiles operationId :=
  Set.subset_union_right

theorem writes_finishFailure {backup : Option BackupName} {ending : Ending} :
    Writes plan.product (helperFiles plan.operationId)
      (finishFailure formats plan planSha256 backup ending).run :=
  (writes_writeStatus (updateFiles_subset status_mem)).seq <|
    (writes_writeOperationJournal (journal_subset.trans updateFiles_subset)).seq <|
    (writes_releaseMarker active_subset).seq <| writes_throw

theorem writes_clearReadiness (h : readinessFiles ⊆ files) :
    Writes product files (clearReadiness plan).run := by
  unfold clearReadiness
  split_ifs
  · exact writes_clearServerReadinessContract h
  · exact writes_pure

theorem writes_finishSuccess : Writes plan.product (helperFiles plan.operationId)
      (finishSuccess formats plan planSha256 backup).run := by
  refine (writes_writeStatus (updateFiles_subset status_mem)).bind fun _ => ?_
  refine (writes_writeOperationJournal (journal_subset.trans updateFiles_subset)).bind fun _ => ?_
  exact (writes_clearReadiness (readiness_subset.trans updateFiles_subset)).bind fun _ =>
    writes_releaseMarker active_subset

theorem writes_handleFailure {backup : Option BackupName} :
    Writes plan.product (helperFiles plan.operationId)
      (handleFailure formats plan planSha256 error backup).run := by
  refine writes_serverHandoffFailureRoute.bind fun manual => ?_
  split_ifs
  · exact writes_requireManualRecovery.mono updateFiles_subset
  · exact (writes_automaticRollback.mono updateFiles_subset).outcome_bind fun _ =>
      writes_finishFailure

theorem writes_executeHelper :
    Writes plan.product (helperFiles plan.operationId)
      (executeHelper formats plan planSha256).run := by
  refine (writes_writeOperationJournal (journal_subset.trans updateFiles_subset)).bind fun _ => ?_
  refine (writes_writeStatus (updateFiles_subset status_mem)).bind fun _ => ?_
  refine Program.Only.lift_bind (writes_executeHelperInner.mono updateFiles_subset) fun r => ?_
  match r with
  | .ok backup => exact writes_finishSuccess
  | .error (error, backup) => exact writes_handleFailure

end Helper

section Schedule

variable {schedule : Schedule}

theorem writes_validateServerTransaction {staged : FileName} {owner : UpdateProduct}
    {transaction : Option ServerDatabaseTransaction} :
    Writes product files
      (validateServerTransactionAtSchedule formats owner staged transaction).run := by
  match transaction with
  | none => exact writes_ensure
  | some (.apply context) => exact writes_ensure.seq <| writes_ensure
  | some (.rollback context) =>
    exact writes_ensure.seq <| writes_readAuthenticatedSnapshot.seq <| writes_ensure

theorem writes_settledRuntime : Writes product files settledRuntime.run := by
  refine (writes_read .runtime rfl).bind fun runtime => writes_expect.bind fun runtime => ?_
  cases runtime with
  | transitioning => exact writes_throw
  | unknown => exact writes_throw
  | _ => exact writes_pure

theorem writes_preparePlan : Writes product files (preparePlan formats schedule).run :=
  writes_ensure.seq <| writes_ensure.seq <| writes_validateTargetExecutable.seq <|
    (writes_read (.version .target) rfl).seq <| writes_ensure.seq <| writes_sha256File.seq <|
    writes_ensure.seq <| writes_settledRuntime.seq <| writes_ensure.seq <|
    (writes_read (.createDirectory _) rfl).seq <| writes_ensure.seq <|
    writes_validateServerTransaction.seq <| writes_sha256File.seq <| (writes_read .clock rfl).seq <|
    writes_pure

/-- The files that scheduling changes. -/
@[simp] def scheduleFiles (operationId : Uuid) : Set FileName :=
  authenticated (.plan operationId) ∪ authenticated (.journal operationId) ∪
    authenticated .active ∪ {.status, .helper operationId}

theorem writes_publishPlan :
    Writes plan.product (scheduleFiles plan.operationId) (publishPlan formats plan).run := by
  have hplan : (FileName.plan plan.operationId).Holds plan.product (.document (.plan plan)) :=
    trivial
  exact (writes_writeState (fun _ h => .inl (.inl (.inl h))) hplan).seq <|
    (writes_writeOperationJournal fun _ h => .inl (.inl (.inr h))).seq <|
    (writes_read .clock rfl).seq <| writes_writeState (fun _ h => .inl (.inr h)) trivial

theorem writes_spawnFailed :
    Writes plan.product (scheduleFiles plan.operationId)
      (spawnFailed formats plan planSha256).run :=
  (writes_writeStatus (.inr (.inl rfl))).seq <|
    (writes_writeOperationJournal fun _ h => .inl (.inl (.inr h))).outcome_bind fun _ =>
      (writes_releaseMarker fun _ h => .inl (.inr h)).seq <| writes_throw

theorem writes_launchHelper :
    Writes plan.product (scheduleFiles plan.operationId)
      (launchHelper formats plan planSha256).run := by
  have hhelper : FileName.helper plan.operationId ∈ scheduleFiles plan.operationId :=
    .inr (.inr rfl)
  refine (writes_copyFile hhelper trivial).seq <| writes_sha256File.bind fun _ => ?_
  refine writes_sha256File.seq <| writes_ensure.bind fun _ => ?_
  refine (writes_writeStatus (.inr (.inl rfl))).bind fun _ => ?_
  refine (writes_read (.spawn _ _) rfl).bind fun spawned => ?_
  split_ifs
  · exact writes_pure
  · exact writes_spawnFailed

theorem writes_guarded :
    Writes plan.product (scheduleFiles plan.operationId)
      (guarded formats plan (launchHelper formats plan planSha256)).run := by
  refine writes_launchHelper.outcome_bind fun r => ?_
  cases r with
  | ok _ => exact writes_pure
  | error error => exact (writes_releaseMarker fun _ h => .inl (.inr h)).seq <| writes_throw

theorem writes_readHelperPlan :
    Writes product files (readHelperPlan formats operationId planSha256).run := by
  refine writes_ensure.seq <| writes_readContent.bind fun content => ?_
  refine writes_ensure.seq <| writes_expect.bind fun plan => ?_
  split_ifs
  · exact writes_readServerAuthenticatedJson
  · exact writes_pure

theorem writes_validateHelperPlan :
    Writes product files (validateHelperPlan formats operationId plan).run :=
  writes_ensure.seq <| writes_ensure.seq <| writes_validateTargetExecutable.seq <|
    writes_sha256File.seq <| writes_ensure.seq <| writes_sha256File.seq <| writes_ensure.seq <|
    writes_validateServerTransaction.seq <| writes_readState.seq <| writes_ensure

end Schedule

end Functions

end LinkLake.Updater
