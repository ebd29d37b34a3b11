import LinkLake.Updater.Transaction.DataLoss

/-!
# An interrupted update of a server is recovered

`ServerRecovery` shows that a recovery keeps the journal true. Here nothing fails while it runs, and it
is shown to succeed (`serverRecovered_of_update`): it finds the marker, the plan and the journal that
the update left, goes on by the stage of the journal, and ends with the marker gone and an executable
that matches the database.

Two states are left out, since recovery fails on them: a crash between the two writes of the journal
and of its tag leaves a journal that does not authenticate, and one between the two renames of a
replacement leaves no executable in place.
-/

namespace LinkLake.Updater

open CrashMachine FiniteMap

/-! ## Functions that succeed -/

variable {formats : Formats} {w : World} {previous : Content} {plan : HelperPlan}

section Functions

variable {file : FileName} {content : Content}

theorem succeeds_clearServerReadinessContract :
    Succeeds formats clearServerReadinessContract w fun _ _ => True := by
  have hremove : ∀ (w : World) (file : FileName),
      Succeeds formats (removeServerAuthenticatedStateIfPresent file) w fun _ _ => True :=
    fun w file => succeeds_removeIfPresent.bind fun _ _ _ =>
      succeeds_removeIfPresent.mono fun _ _ _ => trivial
  exact (hremove w .readinessRequest).bind fun _ w1 _ => hremove w1 .readinessReceipt

theorem succeeds_verifyInstalledVersion {expected : String} (hget : w.files.get? file = some content)
    (hversion : expected = "unknown" ∨ formats.version content = some expected) :
    Answers formats (verifyInstalledVersion file expected) w () := by
  unfold verifyInstalledVersion
  split_ifs with hunknown
  · exact succeeds_pure ⟨rfl, rfl⟩
  · refine (succeeds_version hget).bind ?_
    refine (succeeds_expect (hversion.resolve_left hunknown)).bind ?_
    exact succeeds_ensure (beq_self_eq_true _)

theorem succeeds_replaceAttempt {id : Uuid} {old : Content}
    (htarget : w.files.get? .target = some old)
    (hincoming : w.files.get? (.incoming id) = some content) :
    Succeeds formats (replaceAttempt id true) w fun _ w' =>
      w'.files.get? .target = some content := by
  have hwrites : Writes .server {.replaced id} (removeIfPresent (.replaced id)).run :=
    writes_removeIfPresent rfl
  refine (succeeds_removeIfPresent.and_guards (guards_agrees hwrites)).bind fun _ w1 h1 => ?_
  have htarget1 := (h1.2.file .target (by simp)).trans htarget
  have hincoming1 := (h1.2.file (.incoming id) (by simp)).trans hincoming
  refine succeeds_exists.bind ?_
  rw [htarget1]
  refine (succeeds_ensure rfl).bind ((succeeds_rename htarget1).bind fun renamed w2 h2 =>
    (succeeds_ensure h2.1).bind ?_)
  have hincoming2 : w2.files.get? (.incoming id) = some content := by
    rw [h2.2, World.setFile, get?_insert_of_ne (by simp), World.eraseFile,
      get?_erase_of_ne (by simp), hincoming1]
  refine (succeeds_rename hincoming2).bind fun renamed w3 h3 => ?_
  obtain ⟨rfl, hw3⟩ := h3
  have hreplaced : w3.files.get? (.replaced id) = some old := by
    rw [hw3, World.setFile, get?_insert_of_ne (by simp), World.eraseFile,
      get?_erase_of_ne (by simp), h2.2]
    exact get?_insert_self _ _ _
  refine (succeeds_removeDurableFile hreplaced).mono fun _ w4 h4 => ?_
  rw [h4, World.eraseFile, get?_erase_of_ne (by simp), hw3]
  exact get?_insert_self _ _ _

theorem succeeds_atomicRestoreWithRetry {source : FileName} {old : Content}
    (htarget : w.files.get? .target = some old) (hsource : w.files.get? source = some content)
    (hne : ∀ id, source ≠ .incoming id) :
    Succeeds formats (atomicRestoreWithRetry source) w fun _ w' =>
      w'.files.get? .target = some content := by
  refine succeeds_newUuid.bind fun id w1 h1 => ?_
  subst h1
  refine (succeeds_copyFile hsource).bind fun _ w2 h2 => ?_
  have hsource2 : w2.files.get? source = some content := by
    rw [h2, World.setFile, get?_insert_of_ne (hne id), hsource]
  have hincoming : w2.files.get? (.incoming id) = some content := by
    rw [h2]
    exact get?_insert_self _ _ _
  have htarget2 : w2.files.get? .target = some old := by
    rw [h2, World.setFile, get?_insert_of_ne (by simp), htarget]
  refine (succeeds_sha256File hsource2).bind ?_
  refine (succeeds_sha256File hincoming).bind ?_
  refine (succeeds_ensure (beq_self_eq_true _)).bind ?_
  exact (succeeds_replaceAttempt htarget2 hincoming).outcome_bind fun _ _ h => succeeds_pure h

theorem succeeds_stopCandidateService (hresponsive : plan.serviceInstalled = true → w.Responsive) :
    Succeeds formats (stopCandidateServiceAfterFailedHandoff plan) w fun _ _ => True := by
  unfold stopCandidateServiceAfterFailedHandoff
  split_ifs with hinstalled
  · have hstop : Succeeds formats (sys (.stop true .candidateDidNotStop)) w fun error _ =>
        error = none := by
      refine succeeds_sys fun choice hfails => ?_
      rw [perform, performStop, if_neg (by simp [hfails])]
      obtain hservice | hservice := hresponsive hinstalled
      · rw [hservice]
      · rw [hservice]
        rfl
    refine hstop.bind fun error w1 h1 => ?_
    rw [h1]
    exact succeeds_pure trivial
  · exact succeeds_pure trivial

theorem succeeds_restartServiceAfterUpdate
    (hresponsive : plan.serviceInstalled = true → w.Responsive) :
    Succeeds formats (restartServiceAfterUpdate plan) w fun _ _ => True := by
  unfold restartServiceAfterUpdate
  split_ifs with hrestarts
  · have hstart : Succeeds formats (sys .start) w fun error _ => error = none := by
      refine succeeds_sys fun choice hfails => ?_
      rw [perform, performStart, if_neg (by simp [hfails])]
      obtain hservice | hservice := hresponsive (Bool.and_eq_true_iff.mp hrestarts).1
      · rw [hservice]
      · rw [hservice]
    refine hstart.bind fun error w1 h1 => ?_
    rw [h1]
    exact succeeds_pure trivial
  · exact succeeds_pure trivial

end Functions

/-! ## Executables and databases that match -/

/-- The database has been left alone since an earlier state, but for servers of one executable. -/
def World.DatabaseKept (w0 : World) (digest : String) (w : World) : Prop :=
  w.overwrites = w0.overwrites ∧ w.database.restoredFrom = w0.database.restoredFrom ∧
    ∃ started, w.database.openedBy = started ++ w0.database.openedBy ∧
      ∀ other ∈ started, other = digest

/-- The database has been restored from the snapshot of an operation, and only servers of one
executable have been started on it since. -/
def World.DatabaseRestored (operationId : Uuid) (digest : String) (w : World) : Prop :=
  ∃ directory metadata, w.database.restoredFrom = some directory ∧
    w.files.get? (.databaseSnapshot directory) = some (.document (.databaseSnapshot metadata)) ∧
    metadata.operationId = operationId ∧ metadata.snapshotDirectory = directory ∧
    ∀ other ∈ w.database.openedBy, other = digest

/-- The new executable with a completed journal, or the previous one with its database. -/
def World.Matches (formats : Formats) (schedule : Schedule) (previous : Content) (w w0 : World) :
    Prop :=
  (w.installedSha256 formats = some schedule.staged.binarySha256 ∧
    ∃ journal, w.files.get? (.journal schedule.operationId) = some (.document (.journal journal)) ∧
      journal.stage = .completed) ∨
  (w.installedSha256 formats = some (formats.sha256 previous) ∧
    (w0.DatabaseKept (formats.sha256 previous) w ∨
      w.DatabaseRestored schedule.operationId (formats.sha256 previous)))

/-- The update was staged when this executable was installed: its version is known, or it has none. -/
def Schedule.StagedFor (formats : Formats) (schedule : Schedule) (installed : Content) : Prop :=
  schedule.staged.currentVersion = "unknown" ∨
    formats.version installed = some schedule.staged.currentVersion

namespace ServerUpdate

variable {u : ServerUpdate formats} {w' : World}

section Recovered

variable {files : Set FileName} {directory : BackupName} {snapshot : Snapshot} {α : Type}
  {backup : Option BackupName} {error : Option UpdateError} {p : Program Action.Answer α}
  {stage : Stage} {metadata : ServerDatabaseSnapshotMetadata} {P : α → World → Prop}

/-- What a recovery needs from its first step to its last. -/
structure Standing (u : ServerUpdate formats) (w : World) : Prop where
  marker : ∃ active, w.Authentic formats .active .activeMarker (.active active) ∧ u.Marks active
  sound : w.Sound .server
  responsive : u.plan.serviceInstalled = true → w.Responsive

theorem Standing.step {x : Call α} (hw : u.Standing w) (hx : Succeeds formats x w P)
    (hwrites : Writes .server files x.run) (hfiles : Disjoint files (authenticated .active)) :
    Succeeds formats x w fun a w' => P a w' ∧ u.Standing w' ∧ w.Agrees files w' := by
  refine (hx.and_guards ((guards_agrees hwrites).and ((guards_sound hwrites hw.sound).and
    (guards_responsive hwrites hw.responsive)))).mono fun a w' h => ?_
  obtain ⟨hP, hagrees, hsound, hresponsive⟩ := h
  obtain ⟨active, hactive, hmarks⟩ := hw.marker
  exact ⟨hP, ⟨⟨active, hactive.congr hagrees hfiles, hmarks⟩, hsound, hresponsive⟩, hagrees⟩

/-! ### The last steps -/

theorem succeeds_clearAndReport (hw : u.Standing w) :
    Succeeds formats (do
      clearActiveMarker formats .server u.plan.operationId
      Updater.status : Call UpdateStatus) w fun _ _ => True := by
  obtain ⟨active, hactive, hmarks⟩ := hw.marker
  have hclear : Succeeds formats (clearActiveMarker formats .server u.plan.operationId) w
      fun _ w' => w'.Sound .server := by
    refine Answers.bind (succeeds_readServerAuthenticatedJson hactive rfl) ?_
    refine (succeeds_ensure ?_).bind ?_
    · simp [hmarks.schemaVersion, hmarks.operationId, operationId]
    refine (succeeds_removeDurableFile hactive.payload).bind fun _ w1 h1 => ?_
    have htag := (agrees_eraseFile w .active).file (.authentication .active) (by simp)
    rw [← h1, hactive.tag] at htag
    refine (succeeds_removeDurableFile htag).mono fun _ w2 h2 => ?_
    rw [h2, h1]
    exact (hw.sound.eraseFile _).eraseFile _
  exact hclear.bind fun _ w1 h1 => (succeeds_status h1).mono fun _ _ _ => trivial

theorem succeeds_journal :
    Succeeds formats (writeOperationJournal formats u.plan u.planSha256 stage backup error) w
      fun _ _ => True := by
  rw [writeOperationJournal_server]
  refine (succeeds_ensure (formats.isSha256_sha256 _)).bind (succeeds_clock.bind fun now w1 _ => ?_)
  exact (succeeds_ensure u.transaction).bind succeeds_writeServerAuthenticatedJson

theorem succeeds_finish {state message : String} {error' : Option UpdateError}
    {backup' : Option BackupName} (hw : u.Standing w) : Succeeds formats (do
      writeStatus u.plan state message error backup
      writeOperationJournal formats u.plan u.planSha256 stage backup' error'
      clearActiveMarker formats .server u.plan.operationId
      Updater.status : Call UpdateStatus) w fun _ _ => True := by
  refine (hw.step succeeds_writeStatus (writes_writeStatus (Set.mem_singleton _)) (by simp)).bind
    fun _ w1 h1 => ?_
  refine (h1.2.1.step succeeds_journal writes_journal (by simp)).bind fun _ w2 h2 => ?_
  exact succeeds_clearAndReport h2.2.1

theorem succeeds_serverRecoverTerminal (hw : u.Standing w) :
    Succeeds formats (serverRecoverTerminal formats u.plan) w fun _ _ => True := by
  refine (hw.step succeeds_clearServerReadinessContract
    (writes_clearServerReadinessContract subset_rfl) (by simp)).bind fun _ w1 h1 => ?_
  exact succeeds_clearAndReport h1.2.1

theorem succeeds_serverRecoverWithoutBackup (hw : u.Standing w) (hreverted : u.Reverted w) :
    Succeeds formats (serverRecoverWithoutBackup formats u.plan u.planSha256) w
      fun _ _ => True := by
  obtain ⟨content, hget, hdigest⟩ := Option.map_eq_some_iff.mp hreverted.installed
  refine (succeeds_sha256File hget).bind ?_
  refine (succeeds_ensure (by rw [hdigest, u.expected, beq_self_eq_true])).bind ?_
  exact succeeds_finish hw

/-! ### Restoring from the backup -/

theorem succeeds_validateSnapshotMetadata
    (hbacked : u.Backed directory snapshot w) (hdescribes : u.Describes directory snapshot metadata) :
    Answers formats (validateSnapshotMetadata metadata u.operationId u.planSha256) w () := by
  have hplan : isSha256 u.planSha256 = true := formats.isSha256_sha256 _
  refine (succeeds_ensure (by simp [hdescribes.schemaVersion])).bind ?_
  refine (succeeds_ensure (by simp [hdescribes.operationId])).bind ?_
  refine (succeeds_ensure (by simp [hdescribes.planSha256, hplan])).bind ?_
  refine (succeeds_ensure ?_).bind ?_
  · simp only [hdescribes.planSha256, hplan, hdescribes.isSha256_ledger, hdescribes.snapshotSha256,
      hdescribes.rollbackBinarySha256, formats.isSha256_sha256, Bool.and_self]
  have hdigest : Answers formats (sys (.snapshotSha256 metadata.snapshotDirectory)) w
      (some (formats.sha256 snapshot.content)) :=
    succeeds_sys fun choice hfails => by
      rw [perform, if_neg (by simp [hfails]), hdescribes.snapshotDirectory, hbacked.taken]
      exact ⟨rfl, rfl⟩
  refine hdigest.bind (Answers.bind (succeeds_expect rfl) ?_)
  refine (succeeds_ensure (by simp [hdescribes.snapshotSha256])).bind ?_
  rw [hdescribes.rollbackBinaryPath]
  refine (succeeds_sha256File hbacked.executable).bind ?_
  exact succeeds_ensure (by simp [hdescribes.rollbackBinarySha256])

theorem succeeds_rollbackSnapshot (hbacked : u.Backed directory snapshot w) :
    Succeeds formats (rollbackSnapshot formats u.plan directory u.planSha256) w
      fun metadata w' => w' = w ∧ u.Describes directory snapshot metadata := by
  obtain ⟨backup, hbackup, hoperation, hdirectory⟩ := hbacked.metadata
  obtain ⟨metadata, hmetadata, hdescribes⟩ := hbacked.databaseSnapshot
  have hvalid := succeeds_validateSnapshotMetadata hbacked hdescribes
  refine Answers.bind (succeeds_readServerAuthenticatedJson hbackup rfl) ?_
  refine (succeeds_ensure (by simp [hoperation, operationId])).bind ?_
  refine (succeeds_expect hdirectory).bind ?_
  have hsnapshot : Answers formats (readAuthenticatedSnapshot formats directory) w metadata := by
    refine Answers.bind (succeeds_readServerAuthenticatedJson hmetadata rfl) ?_
    refine Answers.bind (succeeds_readDurableJson hmetadata.payload rfl) ?_
    rw [hdescribes.operationId, hdescribes.planSha256]
    exact hvalid.bind (succeeds_pure ⟨rfl, rfl⟩)
  exact hsnapshot.bind (hvalid.bind (succeeds_pure ⟨rfl, hdescribes⟩))

theorem succeeds_inspectServerDatabase {binary : FileName} :
    Answers formats (inspectServerDatabase binary) w
      ⟨w.database.schema, w.database.ledgerSha256⟩ := by
  have hinspect : Answers formats (sys (.inspect binary)) w
      (some ⟨w.database.schema, w.database.ledgerSha256⟩) :=
    succeeds_sys fun choice hfails => ⟨if_neg (by simp [hfails]), rfl⟩
  exact hinspect.bind (succeeds_expect rfl)

theorem succeeds_restoreServerDatabase
    (hbacked : u.Backed directory snapshot w) (hdescribes : u.Describes directory snapshot metadata) :
    Succeeds formats (restoreServerDatabase (.backup directory) metadata) w fun _ _ => True := by
  unfold restoreServerDatabase
  rw [hdescribes.operationId, hdescribes.planSha256]
  refine (succeeds_validateSnapshotMetadata hbacked hdescribes).bind ?_
  refine (succeeds_ensure (by simp [hdescribes.rollbackBinaryPath])).bind ?_
  refine (succeeds_sha256File hbacked.executable).bind ?_
  refine (succeeds_ensure (by simp [hdescribes.rollbackBinarySha256])).bind ?_
  have hrestore : Succeeds formats (sys (.restore (.backup directory) metadata.snapshotDirectory))
      w fun restored w' => restored = true ∧ w' = w.restored directory snapshot :=
    succeeds_sys fun choice hfails => by
      rw [perform, hdescribes.snapshotDirectory, hbacked.taken]
      simp only [settle_of_not_fails hfails]
      exact ⟨trivial, trivial⟩
  refine hrestore.bind fun restored w1 h1 => (succeeds_ensure h1.1).bind ?_
  refine succeeds_inspectServerDatabase.bind ?_
  have hdatabase : w1.database.schema = snapshot.schema ∧
      w1.database.ledgerSha256 = snapshot.ledgerSha256 := by
    rw [h1.2]
    exact ⟨rfl, rfl⟩
  refine (succeeds_ensure (by simp [hdatabase.1, hdescribes.sourceSchema])).bind ?_
  refine (succeeds_ensure (by simp [hdatabase.2, hdescribes.sourceLedger])).mono fun _ _ _ => trivial

/-- The previous executable reports the version that the plan says, if that is known. -/
def Versioned (u : ServerUpdate formats) : Prop :=
  u.plan.fromVersion = "unknown" ∨ formats.version u.previous = some u.plan.fromVersion

section

variable (hversioned : u.Versioned)
include hversioned

variable (hw : u.Standing w)
include hw

section

variable (hbacked : u.Backed directory snapshot w)
include hbacked

theorem succeeds_restoreExecutable (htarget : w.files.get? .target ≠ none) :
    Succeeds formats (restoreExecutable u.plan directory) w fun _ w' => u.Standing w' := by
  obtain ⟨old, hold⟩ := Option.ne_none_iff_exists'.mp htarget
  have hrestore : Succeeds formats (atomicRestoreWithRetry (.backup directory)) w fun _ w' =>
      w'.files.get? .target = some u.previous :=
    succeeds_atomicRestoreWithRetry hold hbacked.executable fun _ => nofun
  refine (hw.step hrestore (writes_atomicReplaceWithRetryInner subset_rfl) (by simp)).bind
    fun _ w1 h1 => ?_
  obtain ⟨hget, hstanding, -⟩ := h1
  refine (succeeds_sha256File hget).bind ?_
  refine (succeeds_ensure (by simp [u.expected])).bind ?_
  refine (succeeds_verifyInstalledVersion hget hversioned).bind ?_
  have hrestart : Writes .server {.liveDatabase} (restartServiceAfterUpdate u.plan).run :=
    writes_restartServiceAfterUpdate rfl
  exact (hstanding.step (succeeds_restartServiceAfterUpdate hstanding.responsive) hrestart
    (by simp)).mono fun _ _ h => h.2.1

theorem succeeds_restoreServer (htarget : w.files.get? .target ≠ none) :
    Succeeds formats (restoreServer formats u.plan directory u.planSha256) w
      fun _ w' => u.Standing w' := by
  refine (succeeds_rollbackSnapshot hbacked).bind fun metadata w1 h1 => ?_
  obtain ⟨rfl, hdescribes⟩ := h1
  -- none of the next steps touches the backup or the executable
  have hkept : ∀ {files : Set FileName} {w2 w3 : World}, w2.Agrees files w3 →
      Disjoint files (backupFiles directory) → .target ∉ files →
      u.Backed directory snapshot w2 ∧ w2.files.get? .target ≠ none →
      u.Backed directory snapshot w3 ∧ w3.files.get? .target ≠ none :=
    fun hagrees hfiles hnot h => ⟨h.1.congr hagrees hfiles, (hagrees.file _ hnot) ▸ h.2⟩
  refine (hw.step (succeeds_stopCandidateService hw.responsive) writes_stopCandidate
    (Set.empty_disjoint _)).bind fun _ w2 h2 => ?_
  have hkept2 := hkept h2.2.2 (Set.empty_disjoint _) (Set.notMem_empty _) ⟨hbacked, htarget⟩
  refine (h2.2.1.step succeeds_clearServerReadinessContract
    (writes_clearServerReadinessContract subset_rfl) (by simp)).bind fun _ w3 h3 => ?_
  have hkept3 := hkept h3.2.2 (by simp) (by simp) hkept2
  have hdatabase : Writes .server {.liveDatabase}
      (restoreServerDatabase (.backup directory) metadata).run := writes_restoreServerDatabase rfl
  refine (h3.2.1.step (succeeds_restoreServerDatabase hkept3.1 hdescribes) hdatabase
    (by simp)).bind fun _ w4 h4 => ?_
  have hkept4 := hkept h4.2.2 (by simp) (by simp) hkept3
  refine (h4.2.1.step succeeds_journal writes_journal (by simp)).bind fun _ w5 h5 => ?_
  have hkept5 := hkept h5.2.2 (by simp) (by simp) hkept4
  exact succeeds_restoreExecutable hversioned h5.2.1 hkept5.1 hkept5.2

theorem succeeds_serverRecoverFromBackup (htarget : w.files.get? .target ≠ none) :
    Succeeds formats (serverRecoverFromBackup formats u.plan u.planSha256 directory) w
      fun _ _ => True := by
  have hrestored : Succeeds formats (restoreAfterFailure formats u.plan directory u.planSha256) w
      fun _ w' => u.Standing w' := by
    refine succeeds_exists.bind ?_
    refine (succeeds_ensure (by rw [hbacked.executable]; rfl)).bind ?_
    rw [if_pos u.product]
    exact succeeds_restoreServer hversioned hw hbacked htarget
  exact hrestored.outcome_bind fun _ _ h => succeeds_finish h

end

/-! ### The whole recovery -/

variable {journal : UpdateJournal}

theorem succeeds_serverRecoverStage
    (hrecords : u.Records journal w) (htarget : w.files.get? .target ≠ none) :
    Succeeds formats (serverRecoverStage formats u.plan u.planSha256 journal ⟨true, true⟩) w
      fun _ _ => True := by
  refine (succeeds_ensure (by simp)).bind ?_
  split_ifs with hterminal
  · exact succeeds_serverRecoverTerminal hw
  · cases hbackup : journal.backupDirectory with
    | none =>
      refine succeeds_serverRecoverWithoutBackup hw (hrecords.reverted (fun h => ?_) (.inr hbackup))
      rw [h] at hterminal
      exact hterminal rfl
    | some directory =>
      obtain ⟨snapshot, hbacked, -⟩ := hrecords.backup directory hbackup
      exact succeeds_serverRecoverFromBackup hversioned hw hbacked htarget

theorem succeeds_serverRecoverActive (hunderway : u.Underway w)
    (hjournal : w.Authentic formats (.journal u.operationId) .operationJournal (.journal journal))
    (htarget : w.files.get? .target ≠ none) :
    Succeeds formats (serverRecoverActive formats ⟨true, true⟩) w fun _ _ => True := by
  obtain ⟨active, hactive, hmarks⟩ := hw.marker
  obtain ⟨journal', hjournal', hrecords⟩ := hunderway.journal _ hjournal.payload
  cases hjournal'
  refine Answers.bind (succeeds_readServerAuthenticatedJson hactive rfl) ?_
  refine (succeeds_ensure (by simp [hmarks.schemaVersion, hmarks.product])).bind ?_
  -- the plan is read twice, plain and authenticated
  have hplain : Answers formats (readActivePlan formats active .activeServerPlanDigest) w
      (.document (.plan u.plan)) := by
    unfold readActivePlan
    rw [hmarks.planOperation, hmarks.planSha256]
    refine (succeeds_readContent hunderway.plan.payload).bind ?_
    refine (succeeds_ensure (formats.isSha256_sha256 _)).bind ?_
    exact (succeeds_ensure (beq_self_eq_true _)).bind (succeeds_pure ⟨rfl, rfl⟩)
  refine hplain.bind ?_
  rw [hmarks.planOperation, hmarks.planSha256]
  refine Answers.bind (succeeds_readServerAuthenticatedJson hunderway.plan rfl) ?_
  refine (succeeds_ensure ?_).bind ?_
  · simp [u.schemaVersion, u.product, hmarks.operationId, operationId]
  refine (succeeds_ensure u.transaction).bind ?_
  refine succeeds_exists.bind ?_
  refine (succeeds_ensure (Option.isSome_iff_ne_none.mpr htarget)).bind ?_
  refine Answers.bind (succeeds_readServerAuthenticatedJson hjournal rfl) ?_
  obtain ⟨hschema, hid, hsha, hserver, hoperation⟩ := hrecords.bound
  refine (succeeds_ensure (by simp [hschema, hid, hsha, hserver, hoperation, operationId])).bind ?_
  exact succeeds_serverRecoverStage hversioned hw hrecords htarget

theorem succeeds_serverRecover (hunderway : u.Underway w)
    (hjournal : w.Authentic formats (.journal u.operationId) .operationJournal (.journal journal))
    (htarget : w.files.get? .target ≠ none) :
    Succeeds formats (serverRecover formats true ⟨true, true⟩) w fun _ _ => True := by
  refine (succeeds_ensure rfl).bind ?_
  refine succeeds_acquireLock.bind ?_
  refine succeeds_exists.bind ?_
  obtain ⟨active, hactive, -⟩ := hw.marker
  rw [hactive.payload]
  exact succeeds_serverRecoverActive hversioned hw hunderway hjournal htarget

end

/-! ### Once the marker is gone -/

/-- The marker is there until the update has ended. -/
def Marked (u : ServerUpdate formats) (w : World) : Prop :=
  w.files.get? .active ≠ none ∨ u.Closed w

variable {β : Type} {x : Call α}

theorem guards_marked (hp : Writes .server files p)
    (hfiles : .active ∉ files) (hw : w.files.get? .active ≠ none) :
    (system formats).Guards anywhere (fun w => w.files.get? .active ≠ none)
      (fun _ w => w.files.get? .active ≠ none) p w :=
  (guards_kept hp hfiles).mono (fun _ h => h ▸ hw) fun _ _ h => h ▸ hw

theorem marked_bind {f : α → Call β} (hx : Writes .server files x.run)
    (hfiles : .active ∉ files) (hw : w.files.get? .active ≠ none) (hP : Returns formats x w P)
    (hf : ∀ a w', w'.files.get? .active ≠ none → P a w' → Preserves formats u.Marked (f a).run w') :
    Preserves formats u.Marked (x >>= f).run w :=
  Guards.except_bind (((guards_marked hx hfiles hw).and hP).mono (fun _ h => .inl h.1)
    fun _ _ h => h) (fun _ _ h => ⟨.inl h.1, .inl h.1⟩) fun a w' h => hf a w' h.1 (h.2 a rfl)

theorem guards_closed (hp : Writes .server files p)
    (hfiles : .journal u.operationId ∉ files) (hw : u.Closed w) :
    Preserves formats u.Closed p w := by
  obtain ⟨journal, hget, hterminal⟩ := hw
  exact (guards_kept hp hfiles).mono (fun _ h => ⟨journal, h.trans hget, hterminal⟩)
    fun _ _ h => ⟨journal, h.trans hget, hterminal⟩

theorem guards_marked_releaseMarker {wanted : Bool} (hw : w.files.get? .active ≠ none)
    (hclosed : wanted = true → u.Closed w) :
    Preserves formats u.Marked (releaseMarker formats u.plan wanted).run w := by
  cases wanted with
  | false => exact ⟨.inl hw, .inl hw⟩
  | true =>
    exact (guards_closed (writes_releaseMarker subset_rfl) (by simp) (hclosed rfl)).mono
      (fun _ h => .inr h) fun _ _ h => .inr h

theorem closed_of_journal
    (hstage : stage.isTerminal = true) (h : ∃ now, w.files.get? (.journal u.operationId) =
      some (.document (.journal (operationJournal u.plan u.planSha256 stage backup error now)))) :
    u.Closed w := by
  obtain ⟨now, hget⟩ := h
  exact ⟨_, hget, hstage⟩

theorem active_notMem_journal : FileName.active ∉ authenticated (.journal u.operationId) := by
  simp

theorem guards_marked_finishSuccess (hw : w.files.get? .active ≠ none) :
    Preserves formats u.Marked (finishSuccess formats u.plan u.planSha256 directory).run w := by
  refine marked_bind (writes_writeStatus (Set.mem_singleton _)) (by simp) hw returns_trivial
    fun _ w1 hw1 _ => ?_
  refine marked_bind writes_journal active_notMem_journal hw1 returns_journal fun _ w2 hw2 h2 => ?_
  have hclosed : u.Closed w2 := closed_of_journal rfl h2
  have hkept : Returns formats (clearReadiness u.plan) w2 fun _ w' => u.Closed w' :=
    (guards_closed (writes_clearReadiness subset_rfl) (by simp) hclosed).mono (fun _ _ => trivial) fun _ _ h _ _ => h
  exact marked_bind (writes_clearReadiness subset_rfl) (by simp) hw2 hkept
    fun _ w3 hw3 h3 => guards_marked_releaseMarker hw3 fun _ => h3

theorem guards_marked_finishFailure {ending : Ending}
    (hending : ending.clearActive = true → ending.stage.isTerminal = true)
    (hw : w.files.get? .active ≠ none) : Preserves formats u.Marked
      (finishFailure formats u.plan u.planSha256 backup ending).run w := by
  refine marked_bind (writes_writeStatus (Set.mem_singleton _)) (by simp) hw returns_trivial
    fun _ w1 hw1 _ => ?_
  refine marked_bind writes_journal active_notMem_journal hw1 returns_journal fun _ w2 hw2 h2 => ?_
  refine Guards.seq (guards_marked_releaseMarker hw2 fun hclear => ?_) fun _ w3 h3 => ⟨h3, h3⟩
  exact closed_of_journal (hending hclear) h2

theorem endingOf_closes {error : UpdateError} (r : Except UpdateError (Option Unit)) :
    (endingOf error r).clearActive = true → (endingOf error r).stage.isTerminal = true := by
  match r with
  | .ok (some _) => exact fun _ => rfl
  | .ok none => exact fun _ => rfl
  | .error _ => exact nofun

theorem active_notMem_updateFiles {operationId : Uuid} : .active ∉ updateFiles operationId := by
  simp

theorem writes_server (h : Writes u.plan.product files p) : Writes .server files p := u.product ▸ h

variable (hw : w.files.get? .active ≠ none)
include hw

theorem guards_marked_handleFailure {error : UpdateError} : Preserves formats u.Marked
      (handleFailure formats u.plan u.planSha256 error backup).run w := by
  refine marked_bind writes_serverHandoffFailureRoute (Set.notMem_empty _) hw returns_trivial
    fun manual w1 hw1 _ => ?_
  split_ifs
  · exact (guards_marked (writes_server writes_requireManualRecovery) active_notMem_updateFiles
      hw1).mono (fun _ h => .inl h) fun _ _ h => .inl h
  · refine Guards.lift_bind ((guards_marked (writes_server writes_automaticRollback)
      active_notMem_updateFiles hw1).mono (fun _ h => .inl h) fun _ _ h => h) fun r w2 h2 => ?_
    exact guards_marked_finishFailure (endingOf_closes r) h2

theorem guards_marked_executeHelper : Preserves formats u.Marked
      (executeHelper formats u.plan u.planSha256).run w := by
  refine marked_bind writes_journal active_notMem_journal hw returns_trivial fun _ w1 hw1 _ => ?_
  refine marked_bind (writes_writeStatus (Set.mem_singleton _)) (by simp) hw1 returns_trivial
    fun _ w2 hw2 _ => ?_
  refine Guards.lift_bind ((guards_marked (writes_server writes_executeHelperInner)
    active_notMem_updateFiles hw2).mono (fun _ h => .inl h) fun _ _ h => h) fun r w3 h3 => ?_
  match r with
  | .ok directory => exact guards_marked_finishSuccess h3
  | .error (error, backup) => exact guards_marked_handleFailure h3

end Recovered

section Main

variable {schedule : Schedule} {w0 : World} {allowed : Overwrite → Prop} {base : List Overwrite}
  {planSha256 : String}

theorem guards_marked_runHelper (hw : u.Begun allowed base w) :
    (system formats).Guards anywhere (fun w => u.Unchanged w ∨ u.Marked w)
      (fun _ w => u.Unchanged w ∨ u.Marked w)
      (Updater.runHelper formats u.operationId planSha256).run w := by
  refine guards_helper .server (fun _ hx => guards_begun hx status_disjoint_watched)
    (fun _ h => .inl h.unchanged) (fun plan w1 hget hsha h1 hactive => ?_) hw
  rw [hw.held.underway.plan.payload] at hget
  cases hget
  subst hsha
  exact (guards_marked_executeHelper hactive).mono (fun _ => .inr) fun _ _ => .inr

theorem guards_sound_idle_runHelper (hw : Idle schedule w0 w) (hsound : w.Sound .server) :
    Preserves formats (World.Sound .server)
      (Updater.runHelper formats schedule.operationId planSha256).run w := by
  have hstatus : {.status} ⊆ scheduleFiles schedule.operationId :=
    Set.singleton_subset_iff.mpr (.inr (.inl rfl))
  have hboth : Idle schedule w0 w ∧ w.Sound .server := ⟨hw, hsound⟩
  exact guards_helper .server (fun _ hx h => (guards_idle hx hstatus (by simp) h.1).and
    (guards_sound hx h.2)) (fun _ h => h.2) (fun _ _ _ _ h hactive => (hactive h.1.marker).elim)
    hboth

/-- **What an update leaves**, wherever it is cut off. -/
theorem left_of_update (hproduct : schedule.product = .server)
    (hprevious : ∀ content, w0.files.get? .target = some content → content = previous)
    (hactive : w0.files.get? .active = none) (hsound : w0.Sound .server)
    (hupdate : Update formats schedule w0 w) : w.Sound .server ∧ (Idle schedule w0 w ∨
      ∃ u : ServerUpdate formats, u.Follows schedule previous w0 ∧ u.Underway w ∧
        (u.Unchanged w ∨ u.Marked w)) := by
  rw [← hproduct] at hsound
  cases hupdate with
  | scheduled h =>
    refine ⟨hproduct ▸ (guards_sound_scheduleUpdate hsound).of_ends h, ?_⟩
    refine ((guards_scheduleUpdate hproduct hprevious hactive).of_ends h).imp (fun h => h) ?_
    rintro ⟨u, hfollows, hbegun⟩
    exact ⟨u, hfollows, hbegun.held.underway, .inl hbegun.unchanged⟩
  | helped h h' =>
    have hsound' : World.Sound .server _ := hproduct ▸ (guards_sound_scheduleUpdate hsound).of_ends h
    obtain hidle | ⟨u, hfollows, hbegun⟩ :=
      (guards_scheduleUpdate hproduct hprevious hactive).of_ends h
    · have hidle' := (guards_idle_runHelper hidle).of_ends h'
      refine ⟨(guards_sound_idle_runHelper hidle hsound').of_ends h', .inl hidle'⟩
    · have hid : u.operationId = schedule.operationId := hfollows.plan.operationId
      rw [← hid] at h'
      refine ⟨(guards_sound_runHelper hsound' fun plan hget => ?_).of_ends h', .inr ⟨u, hfollows,
        ((keeps_runHelper ⟨fun _ => .inl, fun _ => .inr⟩ hbegun).held_of_ends h').underway,
        (guards_marked_runHelper hbegun).of_ends h'⟩⟩
      rw [hbegun.held.underway.plan.payload] at hget
      cases hget
      exact u.product

theorem Reverted.matches (hfollows : u.Follows schedule previous w0) (hw : u.Reverted w) :
    w.Matches formats schedule previous w0 := by
  have hid := hfollows.plan.operationId
  refine .inr ⟨hfollows.previous ▸ hw.installed, hw.database.imp (fun h => ?_) ?_⟩
  · obtain ⟨hoverwrites, hrestored, started, hopened, hprevious⟩ := h
    rw [hfollows.origin] at hoverwrites hrestored hopened
    rw [OpenedBy, hfollows.previous] at hprevious
    exact ⟨hoverwrites, hrestored, started, hopened, hprevious⟩
  · rintro ⟨directory, ⟨snapshot, hbacked⟩, hrestored, hopened⟩
    obtain ⟨metadata, hmetadata, hdescribes⟩ := hbacked.databaseSnapshot
    rw [OpenedBy, hfollows.previous] at hopened
    exact ⟨directory, metadata, hrestored, hmetadata.payload, hdescribes.operationId.trans hid,
      hdescribes.snapshotDirectory, hopened⟩

theorem Closed.matches (hfollows : u.Follows schedule previous w0) (hunderway : u.Underway w)
    (hw : u.Closed w) : w.Matches formats schedule previous w0 := by
  have hid := hfollows.plan.operationId
  obtain ⟨journal, hget, hterminal⟩ := hw
  obtain ⟨journal', hjournal', hrecords⟩ := hunderway.journal _ hget
  cases hjournal'
  by_cases hcompleted : journal.stage = .completed
  · refine .inl ⟨(hrecords.completed hcompleted).trans (congrArg some hfollows.plan.staged),
      journal, hid ▸ hget, hcompleted⟩
  · exact (hrecords.reverted hcompleted (.inl hterminal)).matches hfollows

theorem Idle.matches (hw : Idle schedule w0 w) (hprevious : w0.files.get? .target = some previous) :
    w.Matches formats schedule previous w0 := by
  obtain ⟨hdatabase, -, hoverwrites⟩ :=
    hw.agrees.database (by simp)
  refine .inr ⟨?_, .inl ⟨hoverwrites, by rw [hdatabase], [], by rw [hdatabase]; rfl, nofun⟩⟩
  rw [World.installedSha256, hw.agrees.file _ (by simp), hprevious]
  rfl

theorem succeeds_serverRecover_idle (hactive : w.files.get? .active = none)
    (hsound : w.Sound .server) :
    Succeeds formats (serverRecover formats true ⟨true, true⟩) w fun _ w' => w' = w := by
  refine (succeeds_ensure rfl).bind ?_
  refine succeeds_acquireLock.bind ?_
  refine succeeds_exists.bind ?_
  rw [hactive]
  exact succeeds_status hsound

end Main

end ServerUpdate

section Recovery

variable {schedule : Schedule} {w0 : World}

open ServerUpdate

/-- **An interrupted update of a server is recovered.** Wherever an apply or a rollback of a server was
cut off, if the marker is gone or readable, and if with the marker there are a journal that
authenticates and an executable in place, then `serverRecover` with all consents succeeds while nothing
fails, and leaves no marker and a matching pair of executable and database. -/
theorem serverRecovered_of_update (hproduct : schedule.product = .server)
    (hactive : w0.files.get? .active = none) (hprevious : w0.files.get? .target = some previous)
    (hstaged : schedule.StagedFor formats previous) (hsound : w0.Sound .server)
    (hupdate : Update formats schedule w0 w)
    (hmarker : w.files.get? .active ≠ none →
      ∃ document, w.Authentic formats .active .activeMarker document)
    (hfound : w.files.get? .active ≠ none → w.files.get? .target ≠ none ∧
      ∃ document, w.Authentic formats (.journal schedule.operationId) .operationJournal document)
    (choices : ℕ → Choice) : ∃ status w', (reliable formats).execute choices
      (serverRecover formats true ⟨true, true⟩).run w = (.ok status, w') ∧
      w'.files.get? .active = none ∧ w'.Matches formats schedule previous w0 := by
  have hinstalled : ∀ content, w0.files.get? .target = some content → content = previous :=
    fun content hget => Option.some.inj (hget.symm.trans hprevious)
  obtain ⟨hsound', hleft⟩ := left_of_update hproduct hinstalled hactive hsound hupdate
  by_cases hcleared : w.files.get? .active = none
  · obtain ⟨status, w', hexecute, hsame⟩ :=
      (succeeds_serverRecover_idle hcleared hsound').execute choices
    refine ⟨status, w', hexecute, hsame ▸ hcleared, hsame ▸ ?_⟩
    obtain hidle | ⟨u, hfollows, hunderway, hunchanged | hmarked⟩ := hleft
    · exact hidle.matches hprevious
    · exact hunchanged.reverted.matches hfollows
    · exact (hmarked.resolve_left fun h => h hcleared).matches hfollows hunderway
  · obtain hidle | ⟨u, hfollows, hunderway, -⟩ := hleft
    · exact (hcleared hidle.marker).elim
    have hid := hfollows.plan.operationId
    obtain ⟨document, hmarker⟩ := hmarker hcleared
    obtain ⟨active, hactive', hmarks⟩ := hunderway.marker _ hmarker.payload
    cases hactive'
    obtain ⟨htarget, document, hjournal⟩ := hfound hcleared
    rw [← hid] at hjournal
    obtain ⟨journal, hjournal', -⟩ := hunderway.journal _ hjournal.payload
    cases hjournal'
    have hversioned : u.Versioned := by
      rw [Versioned, hfollows.plan.fromVersion, hfollows.previous]
      exact hstaged
    have hrecovered := (succeeds_serverRecover hversioned
      ⟨⟨active, hmarker, hmarks⟩, hsound', hunderway.responsive⟩ hunderway hjournal
      htarget).and_guards (keeps_serverRecover hunderway.held u.consents_all)
    obtain ⟨status, w', hexecute, -, hheld, hended⟩ := hrecovered.execute choices
    obtain ⟨hgone, hclosed⟩ := hended status rfl hcleared
    exact ⟨status, w', hexecute, hgone, Closed.matches hfollows hheld.underway hclosed⟩

end Recovery

section Examples

/-- The file and the tag beside it authenticate. -/
def World.authenticates (formats : Formats) (w : World) (file : FileName) (purpose : Purpose) : Bool :=
  match w.files.get? file, w.files.get? (.authentication file) with
  | some (.document document), some (.document (.authentication tag)) =>
    decide (tag = authenticationOf formats purpose document)
  | _, _ => false

theorem authentic_of_authenticates {formats : Formats} {w : World} {file : FileName}
    {purpose : Purpose} (h : w.authenticates formats file purpose = true) :
    ∃ document, w.Authentic formats file purpose document := by
  unfold World.authenticates at h
  split at h
  case h_1 document tag hpayload htag =>
    obtain rfl := of_decide_eq_true h
    exact ⟨document, hpayload, htag⟩
  case h_2 => cases h

/-- What a recovery with all consents returns. -/
def consentedRecovery (w : World) : Except UpdateError UpdateStatus × World :=
  (reliable markedFormats).execute (fun _ => working)
    (serverRecover markedFormats true ⟨true, true⟩).run w

theorem update_helperCut {choices : List Choice} {w : World} (h : helperCut choices = some w) :
    Update markedFormats serverStaged runningServer w := by
  have hscheduled : serverScheduled.1.isSome = true := by decide +kernel
  obtain ⟨r, hr⟩ := Option.isSome_iff_exists.mp hscheduled
  exact .helped (ends_play (Prod.ext hr rfl)) (ends_tear h)

/-- A state in which the marker is readable, and in which recovery fails all the same. -/
def World.Unrecoverable (w : World) : Prop :=
  (∃ document, w.Authentic markedFormats .active .activeMarker document) ∧
    ∃ error w', consentedRecovery w = (.error error, w')

/-- **Two interrupted updates that are not recovered.** The machine fails after the helper has written
its first journal and before it has written the tag: the executable is in place, but the journal does
not authenticate. Or it fails between the two renames that install the candidate: the journal
authenticates, but there is no executable in place. -/
theorem recovery_fails_interrupted :
    (∃ w, Update markedFormats serverStaged runningServer w ∧ w.Unrecoverable ∧
      w.files.get? .target ≠ none) ∧
    ∃ w, Update markedFormats serverStaged runningServer w ∧ w.Unrecoverable ∧
      ∃ document, w.Authentic markedFormats (.journal ⟨7⟩) .operationJournal document := by
  have hunrecoverable : ∀ w : World, w.authenticates markedFormats .active .activeMarker = true →
      failed (consentedRecovery w).1 = true → w.Unrecoverable := fun w hmarker hfailed => by
    obtain ⟨error, herror⟩ := eq_error_of_failed hfailed
    exact ⟨authentic_of_authenticates hmarker, error, _, Prod.ext herror rfl⟩
  have hjournal : ∃ w ∈ helperCut (List.replicate 11 working),
      w.authenticates markedFormats .active .activeMarker = true ∧
        failed (consentedRecovery w).1 = true ∧ w.files.get? .target ≠ none := by decide +kernel
  have htarget : ∃ w ∈ helperCut (List.replicate 68 working),
      w.authenticates markedFormats .active .activeMarker = true ∧
        failed (consentedRecovery w).1 = true ∧
        w.authenticates markedFormats (.journal ⟨7⟩) .operationJournal = true := by
    decide +kernel
  constructor
  · obtain ⟨w, hcut, hmarker, hfailed, hpresent⟩ := hjournal
    exact ⟨w, update_helperCut hcut, hunrecoverable w hmarker hfailed, hpresent⟩
  · obtain ⟨w, hcut, hmarker, hfailed, hauthentic⟩ := htarget
    exact ⟨w, update_helperCut hcut, hunrecoverable w hmarker hfailed,
      authentic_of_authenticates hauthentic⟩

theorem runningServer_sound : runningServer.Sound .server := firstInstalled_sound.of_files rfl

/-- The helper is cut off after it has installed the candidate, and the update is recovered. -/
theorem recovered_of_helperCut : ∃ w, Update markedFormats serverStaged runningServer w ∧
    w.files.get? .active ≠ none ∧ ∃ status w', consentedRecovery w = (.ok status, w') ∧
      w'.files.get? .active = none ∧
      w'.Matches markedFormats serverStaged (.binary [1]) runningServer := by
  have h : ∃ w ∈ helperCut (List.replicate 75 working),
      w.authenticates markedFormats .active .activeMarker = true ∧
        w.authenticates markedFormats (.journal ⟨7⟩) .operationJournal = true ∧
        w.files.get? .target ≠ none := by decide +kernel
  have hproduct : serverStaged.product = .server := rfl
  have hactive : runningServer.files.get? .active = none := by decide +kernel
  have hprevious : runningServer.files.get? .target = some (.binary [1]) := rfl
  have hstaged : serverStaged.StagedFor markedFormats (.binary [1]) := .inr rfl
  obtain ⟨w, hcut, hmarker, hjournal, hpresent⟩ := h
  obtain ⟨document, hauthentic⟩ := authentic_of_authenticates hmarker
  have hfound : w.files.get? .active ≠ none := by
    rw [hauthentic.payload]
    exact nofun
  exact ⟨w, update_helperCut hcut, hfound, serverRecovered_of_update hproduct hactive hprevious
    hstaged runningServer_sound (update_helperCut hcut) (fun _ => ⟨document, hauthentic⟩)
    (fun _ => ⟨hpresent, authentic_of_authenticates hjournal⟩)
    fun _ => working⟩

end Examples

end LinkLake.Updater
