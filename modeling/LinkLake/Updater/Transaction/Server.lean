import LinkLake.Updater.Transaction.Returns

/-!
# What holds while a server is updated

Every document of a server's update lies in two files, the document and its tag, and the journal is
rewritten at every stage. So a crash can leave the tag of one journal beside another journal; but the
journal itself is always the last one that was written, and what it records is true
(`ServerUpdate.Underway`):

* a journal that names a backup directory has it: the previous executable, a snapshot of the database
  and the documents about both (`ServerUpdate.Backed`);
* a journal that names none, and one that says that the previous server was put back, is about the
  previous executable on a database that was left alone or restored (`ServerUpdate.Reverted`);
* up to the start of the candidate, no server has been started since the snapshot was taken.

This module says what these facts depend on, and so which steps keep them.
-/

namespace LinkLake.Updater

open CrashMachine FiniteMap

/-! ## Documents and their tags -/

/-- The tag of a document. -/
def authenticationOf (formats : Formats) (purpose : Purpose) (document : Document) :
    ServerStateAuthentication where
  schemaVersion := serverStateAuthSchemaVersion
  purpose := purpose
  payloadSha256 := formats.sha256 (.document document)
  hmacSha256 := formats.hmac purpose (.document document)

/-- The file holds the document, and the tag beside it is the document's. -/
structure World.Authentic (formats : Formats) (w : World) (file : FileName) (purpose : Purpose)
    (document : Document) : Prop where
  payload : w.files.get? file = some (.document document)
  tag : w.files.get? (.authentication file) =
    some (.document (.authentication (authenticationOf formats purpose document)))

section Authentic

variable {formats : Formats} {w w' : World} {file : FileName} {purpose : Purpose}
  {document : Document} {files files' : Set FileName} {α : Type}

theorem FileName.ne_authentication (file : FileName) : file ≠ .authentication file := by
  intro h
  have hsize := congrArg sizeOf h
  simp at hsize

theorem World.Agrees.mono (h : w.Agrees files w') (hfiles : files ⊆ files') : w.Agrees files' w' :=
  ⟨fun file hfile => h.file file fun hmem => hfile (hfiles hmem),
    fun directory hfile => h.snapshot directory fun hmem => hfile (hfiles hmem),
    fun hfile => h.database fun hmem => hfile (hfiles hmem)⟩

theorem agrees_setFile (w : World) (file : FileName) (content : Content) :
    w.Agrees {file} (w.setFile file content) :=
  ⟨fun _ hfile => get?_insert_of_ne hfile, fun _ _ => rfl, fun _ => ⟨rfl, rfl, rfl⟩⟩

theorem agrees_eraseFile (w : World) (file : FileName) : w.Agrees {file} (w.eraseFile file) :=
  ⟨fun _ hfile => get?_erase_of_ne hfile, fun _ _ => rfl, fun _ => ⟨rfl, rfl, rfl⟩⟩

theorem World.Authentic.congr (hw : w.Authentic formats file purpose document)
    (h : w.Agrees files w') (hfiles : Disjoint files (authenticated file)) :
    w'.Authentic formats file purpose document := by
  have hpayload := h.file file (Set.disjoint_right.mp hfiles (.inl rfl))
  have htag := h.file (.authentication file) (Set.disjoint_right.mp hfiles (.inr rfl))
  exact ⟨hpayload.trans hw.payload, htag.trans hw.tag⟩

theorem returns_writeServerAuthenticatedJson :
    Returns formats (writeServerAuthenticatedJson formats file purpose document) w fun _ w' =>
      w'.Authentic formats file purpose document ∧ w.Agrees (authenticated file) w' := by
  refine returns_writeDurableJson.bind fun _ w1 h1 => returns_writeDurableJson.mono fun _ w2 h2 => ?_
  have hagrees1 := h1 ▸ (agrees_setFile w file (.document document))
  have hagrees2 := h2 ▸ (agrees_setFile w1 (.authentication file)
    (.document (.authentication (authenticationOf formats purpose document))))
  have hfile := file.ne_authentication
  refine ⟨⟨?_, ?_⟩, (hagrees1.mono (by simp)).trans (hagrees2.mono (by simp))⟩
  · rw [hagrees2.file file hfile, h1]
    exact get?_insert_self _ _ _
  · rw [h2]
    exact get?_insert_self _ _ _

theorem succeeds_readServerAuthenticatedJson {parse : Content → Option α} {a : α}
    (h : w.Authentic formats file purpose document) (hparse : parse (.document document) = some a) :
    Answers formats (readServerAuthenticatedJson formats parse file purpose) w a := by
  refine (succeeds_readContent h.payload).bind ?_
  refine Answers.bind (succeeds_readDurableJson h.tag rfl) ?_
  refine (succeeds_ensure (by simp [authenticationOf])).bind ?_
  refine (succeeds_ensure (formats.isSha256_hmac _ _)).bind ?_
  exact (succeeds_ensure (by simp [authenticationOf])).bind (succeeds_expect hparse)

theorem succeeds_writeServerAuthenticatedJson :
    Succeeds formats (writeServerAuthenticatedJson formats file purpose document) w fun _ _ =>
      True :=
  succeeds_writeDurableJson.bind fun _ _ _ => succeeds_writeDurableJson.mono fun _ _ _ => trivial

end Authentic

/-! ## What is known of an update -/

/-- The server runs as a service, and was running when the update was scheduled. -/
def HelperPlan.restarts (plan : HelperPlan) : Bool := plan.serviceInstalled && plan.serviceWasRunning

/-- The stages up to the start of the candidate. -/
def Stage.precedesCandidate : Stage → Bool
  | .scheduled | .helperStarted | .serviceStopped => true
  | .backupCreated | .databasePreflighted | .databaseRestoredForManualRollback => true
  | _ => false

/-- The stages in which a server's update has not ended. -/
def Stage.inProgress (stage : Stage) : Bool := !stage.isTerminal

/-- An update of a server: its plan, the executable that it replaces, and the state in which it was
scheduled. -/
structure ServerUpdate (formats : Formats) where
  plan : HelperPlan
  previous : Content
  origin : World
  schemaVersion : plan.schemaVersion = updateSchemaVersion
  product : plan.product = .server
  transaction : plan.serverDatabase.isSome = true
  expected : plan.expectedTargetSha256 = formats.sha256 previous

namespace ServerUpdate

variable {formats : Formats} (u : ServerUpdate formats)

def operationId : Uuid := u.plan.operationId

def planSha256 : String := sha256Document formats (.plan u.plan)

/-- The metadata describe the update's snapshot in a directory. -/
structure Describes (directory : BackupName) (snapshot : Snapshot)
    (metadata : ServerDatabaseSnapshotMetadata) : Prop where
  schemaVersion : metadata.schemaVersion = serverDatabaseSnapshotMetadataVersion
  operationId : metadata.operationId = u.operationId
  planSha256 : metadata.planSha256 = u.planSha256
  sourceSchema : metadata.sourceSchema = snapshot.schema
  sourceLedger : metadata.sourceLedgerSha256 = snapshot.ledgerSha256
  isSha256_ledger : isSha256 metadata.sourceLedgerSha256 = true
  snapshotDirectory : metadata.snapshotDirectory = directory
  snapshotSha256 : metadata.snapshotSha256 = formats.sha256 snapshot.content
  rollbackBinaryPath : metadata.rollbackBinaryPath = .backup directory
  rollbackBinarySha256 : metadata.rollbackBinarySha256 = formats.sha256 u.previous

/-- The directory holds the previous executable, a snapshot of the database and the documents about
both. -/
structure Backed (directory : BackupName) (snapshot : Snapshot) (w : World) : Prop where
  executable : w.files.get? (.backup directory) = some u.previous
  taken : w.snapshots.get? directory = some snapshot
  metadata : ∃ metadata, w.Authentic formats (.metadata directory) .backupMetadata
      (.metadata metadata) ∧ metadata.operationId = some u.operationId ∧
    metadata.databaseSnapshotMetadata = some directory
  databaseSnapshot : ∃ metadata, w.Authentic formats (.databaseSnapshot directory)
      .databaseSnapshot (.databaseSnapshot metadata) ∧ u.Describes directory snapshot metadata

/-- All servers that were started on the database are of the previous executable. -/
def OpenedBy (digests : List String) : Prop := ∀ digest ∈ digests, digest = formats.sha256 u.previous

/-- The database has been left alone, but for servers of the previous executable. -/
structure Untouched (w : World) : Prop where
  overwrites : w.overwrites = u.origin.overwrites
  restoredFrom : w.database.restoredFrom = u.origin.database.restoredFrom
  openedBy : ∃ started, w.database.openedBy = started ++ u.origin.database.openedBy ∧
    u.OpenedBy started

/-- The database has been restored from the update's snapshot, and only servers of the previous
executable have been started on it since. -/
structure Restored (directory : BackupName) (w : World) : Prop where
  backed : ∃ snapshot, u.Backed directory snapshot w
  restoredFrom : w.database.restoredFrom = some directory
  openedBy : u.OpenedBy w.database.openedBy

/-- The previous executable is installed, on a database that it may be started on. -/
structure Reverted (w : World) : Prop where
  installed : w.installedSha256 formats = some (formats.sha256 u.previous)
  database : u.Untouched w ∨ ∃ directory, u.Restored directory w

/-- The active marker is the update's. -/
structure Marks (active : ActiveUpdate) : Prop where
  schemaVersion : active.schemaVersion = updateSchemaVersion
  operationId : active.operationId = u.operationId
  product : active.product = .server
  planOperation : active.planOperation = u.operationId
  planSha256 : active.planSha256 = u.planSha256

/-- The journal is the update's. -/
structure Bound (journal : UpdateJournal) : Prop where
  schemaVersion : journal.schemaVersion = updateJournalSchemaVersion
  operationId : journal.operationId = u.operationId
  planSha256 : journal.planSha256 = u.planSha256
  product : journal.product = .server
  operation : journal.operation = u.plan.operation

/-- The backup that a journal in some stage can name: up to the start of the candidate, no server has
been started since the snapshot. -/
def Backs (stage : Stage) (directory : BackupName) (w : World) : Prop :=
  ∃ snapshot, u.Backed directory snapshot w ∧
    ((u.plan.restarts = true → stage.precedesCandidate = true) → snapshot.starts = w.starts)

/-- What the journal records is true. -/
structure Records (journal : UpdateJournal) (w : World) : Prop where
  bound : u.Bound journal
  backup : ∀ directory, journal.backupDirectory = some directory →
    u.Backs journal.stage directory w
  completed : journal.stage = .completed → w.installedSha256 formats = some u.plan.stagedSha256
  reverted : journal.stage ≠ .completed →
    journal.stage.isTerminal = true ∨ journal.backupDirectory = none → u.Reverted w

/-- The files of an update that is underway, and the service. -/
structure Underway (w : World) : Prop where
  marker : ∀ content, w.files.get? .active = some content →
    ∃ active, content = .document (.active active) ∧ u.Marks active
  plan : w.Authentic formats (.plan u.operationId) .helperPlan (.plan u.plan)
  journal : ∀ content, w.files.get? (.journal u.operationId) = some content →
    ∃ journal, content = .document (.journal journal) ∧ u.Records journal w
  responsive : u.plan.serviceInstalled = true → w.Responsive

/-! ## What these facts depend on -/

/-- The files of the backups. -/
@[simp] def backups : Set FileName := ⋃ directory, backupFiles directory

/-- The files that the facts about an update depend on. -/
@[simp] def watched : Set FileName :=
  {.active, .journal u.operationId, .target, .liveDatabase} ∪ authenticated (.plan u.operationId) ∪
    backups

variable {u} {w w' : World} {files : Set FileName} {directory : BackupName} {snapshot : Snapshot}
  {journal : UpdateJournal} {stage : Stage}

theorem backupFiles_subset (directory : BackupName) : backupFiles directory ⊆ backups :=
  Set.subset_iUnion backupFiles directory

theorem Backed.congr (hw : u.Backed directory snapshot w) (h : w.Agrees files w')
    (hfiles : Disjoint files (backupFiles directory)) : u.Backed directory snapshot w' := by
  have hkept : ∀ file ∈ backupFiles directory, file ∉ files :=
    fun _ hfile => Set.disjoint_right.mp hfiles hfile
  obtain ⟨metadata, hmetadata, hbound⟩ := hw.metadata
  obtain ⟨document, hdocument, hdescribes⟩ := hw.databaseSnapshot
  refine ⟨?_, ?_, ⟨metadata, ?_, hbound⟩, document, ?_, hdescribes⟩
  · exact (h.file _ (hkept _ (.inl (.inl (.inl rfl))))).trans hw.executable
  · exact (h.snapshot directory (hkept _ (.inl (.inl (.inr rfl))))).trans hw.taken
  · exact hmetadata.congr h (hfiles.mono_right fun _ hfile => .inl (.inr hfile))
  · exact hdocument.congr h (hfiles.mono_right fun _ hfile => .inr hfile)

theorem Untouched.congr (hw : u.Untouched w) (h : w.Agrees files w')
    (hfiles : .liveDatabase ∉ files) : u.Untouched w' := by
  obtain ⟨hdatabase, -, hoverwrites⟩ := h.database hfiles
  obtain ⟨hsame, hrestored, hopened⟩ := hw
  rw [← hdatabase] at hrestored hopened
  exact ⟨hoverwrites.trans hsame, hrestored, hopened⟩

theorem Restored.congr (hw : u.Restored directory w) (h : w.Agrees files w')
    (hdatabase : .liveDatabase ∉ files) (hfiles : Disjoint files (backupFiles directory)) :
    u.Restored directory w' := by
  obtain ⟨⟨snapshot, hbacked⟩, hrestored, hopened⟩ := hw
  rw [← (h.database hdatabase).1] at hrestored hopened
  exact ⟨⟨snapshot, hbacked.congr h hfiles⟩, hrestored, hopened⟩

theorem Reverted.congr (hw : u.Reverted w) (h : w.Agrees files w') (htarget : .target ∉ files)
    (hdatabase : .liveDatabase ∉ files) (hfiles : Disjoint files backups) : u.Reverted w' := by
  refine ⟨?_, hw.database.imp (·.congr h hdatabase) ?_⟩
  · rw [World.installedSha256, h.file _ htarget]
    exact hw.installed
  · rintro ⟨directory, hrestored⟩
    exact ⟨directory, hrestored.congr h hdatabase
      (hfiles.mono_right (backupFiles_subset directory))⟩

theorem Backs.congr (hw : u.Backs stage directory w) (h : w.Agrees files w')
    (hdatabase : .liveDatabase ∉ files) (hfiles : Disjoint files (backupFiles directory)) :
    u.Backs stage directory w' := by
  obtain ⟨snapshot, hbacked, hstarts⟩ := hw
  refine ⟨snapshot, hbacked.congr h hfiles, ?_⟩
  rw [(h.database hdatabase).2.1]
  exact hstarts

theorem Records.congr (hw : u.Records journal w) (h : w.Agrees files w') (htarget : .target ∉ files)
    (hdatabase : .liveDatabase ∉ files) (hfiles : Disjoint files backups) :
    u.Records journal w' := by
  refine ⟨hw.bound, fun directory hbackup => ?_, fun hstage => ?_, fun hstage hends => ?_⟩
  · exact (hw.backup directory hbackup).congr h hdatabase
      (hfiles.mono_right (backupFiles_subset directory))
  · rw [World.installedSha256, h.file _ htarget]
    exact hw.completed hstage
  · exact (hw.reverted hstage hends).congr h htarget hdatabase hfiles

theorem Underway.congr (hw : u.Underway w) (h : w.Agrees files w')
    (hfiles : Disjoint files u.watched)
    (hresponsive : u.plan.serviceInstalled = true → w'.Responsive) : u.Underway w' := by
  have hkept : ∀ file ∈ u.watched, file ∉ files :=
    fun _ hfile => Set.disjoint_right.mp hfiles hfile
  refine ⟨fun content hget => ?_, ?_, fun content hget => ?_, hresponsive⟩
  · rw [h.file _ (hkept _ (.inl (.inl (.inl rfl))))] at hget
    exact hw.marker content hget
  · exact hw.plan.congr h (hfiles.mono_right fun _ hfile => .inl (.inr hfile))
  · rw [h.file _ (hkept _ (.inl (.inl (.inr (.inl rfl)))))] at hget
    obtain ⟨journal, hjournal, hrecords⟩ := hw.journal content hget
    refine ⟨journal, hjournal, hrecords.congr h ?_ ?_ ?_⟩
    · exact hkept _ (.inl (.inl (.inr (.inr (.inl rfl)))))
    · exact hkept _ (.inl (.inl (.inr (.inr (.inr rfl)))))
    · exact hfiles.mono_right fun _ hfile => .inr hfile

/-! ## Phases of an update -/

variable (u)

/-- Nothing has been changed yet: the previous executable is installed, the database has been left
alone, and no backup is recorded. -/
structure Unchanged (w : World) : Prop where
  target : w.files.get? .target = some u.previous
  database : u.Untouched w
  unrecorded : ∀ journal, w.files.get? (.journal u.operationId) = some (.document (.journal journal)) →
    journal.backupDirectory = none

/-- The journal names the backup, in one of some stages. -/
def Engaged (stages : Stage → Bool) (directory : BackupName) (w : World) : Prop :=
  ∃ journal, w.files.get? (.journal u.operationId) = some (.document (.journal journal)) ∧
    stages journal.stage = true ∧ journal.backupDirectory = some directory

variable {u} {stages : Stage → Bool}

theorem Unchanged.reverted (hw : u.Unchanged w) : u.Reverted w := by
  refine ⟨?_, .inl hw.database⟩
  rw [World.installedSha256, hw.target]
  rfl

theorem Unchanged.congr (hw : u.Unchanged w) (h : w.Agrees files w') (htarget : .target ∉ files)
    (hdatabase : .liveDatabase ∉ files) (hjournal : .journal u.operationId ∉ files) :
    u.Unchanged w' := by
  refine ⟨(h.file _ htarget).trans hw.target, hw.database.congr h hdatabase,
    fun journal hget => hw.unrecorded journal ?_⟩
  rw [h.file _ hjournal] at hget
  exact hget

theorem Engaged.congr (hw : u.Engaged stages directory w) (h : w.Agrees files w')
    (hjournal : .journal u.operationId ∉ files) : u.Engaged stages directory w' := by
  obtain ⟨journal, hget, hrest⟩ := hw
  exact ⟨journal, (h.file _ hjournal).trans hget, hrest⟩

theorem Engaged.mono {stages' : Stage → Bool} (hw : u.Engaged stages directory w)
    (h : ∀ stage, stages stage = true → stages' stage = true) :
    u.Engaged stages' directory w := by
  obtain ⟨journal, hget, hstage, hbackup⟩ := hw
  exact ⟨journal, hget, h _ hstage, hbackup⟩

/-- The files that the facts about an update depend on once its backup is recorded. -/
@[simp] def held (u : ServerUpdate formats) : Set FileName :=
  {.active, .journal u.operationId} ∪ authenticated (.plan u.operationId) ∪ backups

variable (hw : u.Underway w)
include hw

theorem Underway.engaged_congr (hengaged : u.Engaged stages directory w)
    (hstages : ∀ stage, stages stage = true → stage.isTerminal = false)
    (h : w.Agrees files w') (hfiles : Disjoint files u.held)
    (hstarts : w'.starts = w.starts ∨ u.plan.restarts = true ∧
      ∀ stage, stages stage = true → stage.precedesCandidate = false)
    (hresponsive : u.plan.serviceInstalled = true → w'.Responsive) : u.Underway w' := by
  have hkept : ∀ file ∈ u.held, file ∉ files :=
    fun _ hfile => Set.disjoint_right.mp hfiles hfile
  have hjournal := h.file _ (hkept (.journal u.operationId) (.inl (.inl (.inr rfl))))
  obtain ⟨journal, hget, hstage, hbackup⟩ := hengaged
  obtain ⟨journal', hjournal', hrecords⟩ := hw.journal _ hget
  cases hjournal'
  refine ⟨fun content hget' => ?_, ?_, fun content hget' => ⟨journal, ?_, hrecords.bound, ?_, ?_, ?_⟩,
    hresponsive⟩
  · rw [h.file _ (hkept _ (.inl (.inl (.inl rfl))))] at hget'
    exact hw.marker content hget'
  · exact hw.plan.congr h (hfiles.mono_right fun _ hfile => .inl (.inr hfile))
  · rw [hjournal, hget] at hget'
    exact (Option.some.inj hget').symm
  · intro directory' hbackup'
    obtain ⟨snapshot, hbacked, hsince⟩ := hrecords.backup directory' hbackup'
    have hbackups := hfiles.mono_right fun _ hfile => .inr (backupFiles_subset directory' hfile)
    refine ⟨snapshot, hbacked.congr h hbackups, fun hprecedes => ?_⟩
    obtain hsame | ⟨hrestarts, hlate⟩ := hstarts
    · rw [hsame]
      exact hsince hprecedes
    · cases (hlate _ hstage).symm.trans (hprecedes hrestarts)
  · intro hcompleted
    have hopen := hstages _ hstage
    rw [hcompleted] at hopen
    cases hopen
  · rintro - (hterminal | hnone)
    · cases (hstages _ hstage).symm.trans hterminal
    · cases hbackup.symm.trans hnone

theorem Underway.setJournal (hrecords : u.Records journal w) :
    u.Underway (w.setFile (.journal u.operationId) (.document (.journal journal))) := by
  have hagrees := agrees_setFile w (.journal u.operationId) (.document (.journal journal))
  refine ⟨fun content hget => ?_, ?_, fun content hget => ⟨journal, ?_, ?_⟩, hw.responsive⟩
  · rw [hagrees.file _ (by simp)] at hget
    exact hw.marker content hget
  · exact hw.plan.congr hagrees (by simp)
  · rw [World.setFile, get?_insert_self] at hget
    exact (Option.some.inj hget).symm
  · refine hrecords.congr hagrees (by simp) (by simp) ?_
    simp

theorem Underway.eraseMarker : u.Underway (w.eraseFile .active) := by
  have hagrees := agrees_eraseFile w .active
  refine ⟨fun content hget => ?_, ?_, fun content hget => ?_, hw.responsive⟩
  · rw [World.eraseFile, get?_erase_self] at hget
    cases hget
  · exact hw.plan.congr hagrees (by simp)
  · rw [hagrees.file _ (by simp)] at hget
    obtain ⟨journal, hjournal, hrecords⟩ := hw.journal content hget
    refine ⟨journal, hjournal, hrecords.congr hagrees (by simp) (by simp) ?_⟩
    simp

end ServerUpdate

end LinkLake.Updater
