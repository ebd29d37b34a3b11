import LinkLake.Updater.Transaction.Server

/-!
# The steps of a server's update keep its journal true

Wherever a step of an update is cut off, what the journal records is true
(`ServerUpdate.Underway`), and the live database has been overwritten only as is allowed. The second
part is stated for any condition on overwrites, so that it can serve calls that may lose data and
calls that may not. `ServerUpdate.Keeps` is the triple for both.

A step belongs to a phase. Before the backup is recorded, the executable and the database are what
they were (`ServerUpdate.Unchanged`). From then on the journal names the backup
(`ServerUpdate.Engaged`), and executable and database may change, until a last journal is written
that says what they have become.
-/

namespace LinkLake.Updater

open CrashMachine FiniteMap

/-- What has overwritten the live database since some time is allowed. -/
def World.Overwrote (allowed : Overwrite → Prop) (base : List Overwrite) (w : World) : Prop :=
  ∃ since, w.overwrites = since ++ base ∧ ∀ overwrite ∈ since, allowed overwrite

variable {allowed : Overwrite → Prop} {base : List Overwrite} {error : Option UpdateError}

theorem World.Overwrote.congr {w w' : World}
    (hw : w.Overwrote allowed base) (h : w'.overwrites = w.overwrites) :
    w'.Overwrote allowed base := by
  obtain ⟨since, hsince, hallowed⟩ := hw
  exact ⟨since, h.trans hsince, hallowed⟩

theorem World.Overwrote.cons {w : World} {directory : BackupName} {snapshot : Snapshot}
    (hw : w.Overwrote allowed base) (h : allowed ⟨directory, snapshot.starts, w.starts⟩) :
    (w.restored directory snapshot).Overwrote allowed base := by
  obtain ⟨since, hsince, hallowed⟩ := hw
  refine ⟨⟨directory, snapshot.starts, w.starts⟩ :: since, congrArg (List.cons _) hsince, ?_⟩
  intro overwrite hmem
  obtain rfl | hmem := List.mem_cons.mp hmem
  · exact h
  · exact hallowed overwrite hmem

theorem Content.eq_of_databaseSnapshot? {content : Content}
    {metadata : ServerDatabaseSnapshotMetadata} (h : content.databaseSnapshot? = some metadata) :
    content = .document (.databaseSnapshot metadata) := by
  unfold Content.databaseSnapshot? at h
  split at h
  · rw [Option.some.inj h]
  · cases h

section Actions

variable {formats : Formats} {w : World} {I : World → Prop} {file binary : FileName}
  {directory : BackupName}

theorem guards_ensure {condition : Bool} {error : UpdateError} (hw : I w) :
    Preserves formats I (ensure condition error).run w := by
  unfold ensure
  split_ifs
  · exact ⟨hw, hw⟩
  · exact ⟨hw, hw⟩

theorem guards_removeDurableFile (hw : I w) (herase : I (w.eraseFile file)) :
    Preserves formats I (removeDurableFile file).run w := by
  refine guards_take.mpr ⟨⟨fun _ => hw, fun _ _ => hw⟩, fun choice => guards_ensure ?_⟩
  change I (perform formats choice w (.remove file)).2
  rw [perform]
  split
  · exact hw
  · obtain h | h | h := settle_cases choice w (w.eraseFile file) <;> rw [h] <;> assumption

theorem guards_startService (hw : I w) (hopened : ∀ choice, I (w.opened formats choice)) :
    Preserves formats I startService.run w := by
  refine guards_take.mpr ⟨⟨fun _ => hw, fun _ _ => hw⟩, fun choice => ?_⟩
  have hafter : I (performStart formats choice w).2 := by
    unfold performStart
    split_ifs
    · exact hopened choice
    · exact hw
    · split <;> first | exact hopened choice | exact hw
  change (system formats).Guards anywhere I _
    (match (performStart formats choice w).1 with
      | none => pure ()
      | some error => throw error : Call Unit).run (performStart formats choice w).2
  cases (performStart formats choice w).1 with
  | none => exact ⟨hafter, hafter⟩
  | some error => exact ⟨hafter, hafter⟩

theorem guards_restore (hw : I w) (hrestored : ∀ snapshot,
    w.snapshots.get? directory = some snapshot → I (w.restored directory snapshot)) :
    Preserves formats I (sys (.restore binary directory)).run w := by
  refine ⟨⟨fun _ => hw, fun _ _ => hw⟩, fun choice => ?_⟩
  have hafter : I (perform formats choice w (.restore binary directory)).2 := by
    rw [perform]
    split
    · exact hw
    · rename_i snapshot hsnapshot
      have hnew := hrestored snapshot hsnapshot
      obtain h | h | h := settle_cases choice w (w.restored directory snapshot) <;> rw [h] <;>
        assumption
  exact ⟨hafter, hafter⟩

end Actions

namespace ServerUpdate

variable {formats : Formats} {u : ServerUpdate formats} {w w' : World} {files : Set FileName}
  {α : Type} {x : Call α} {stage : Stage} {directory : BackupName} {stages : Stage → Bool}
  {metadata : ServerDatabaseSnapshotMetadata} {file : FileName}

section Rules

variable {w'' : World} {β : Type} {P : α → World → Prop} {f : α → Call β}
  {post : Except UpdateError α → World → Prop}

/-- What the journal records is true, and the database has been overwritten only as is allowed. -/
structure Held (u : ServerUpdate formats) (allowed : Overwrite → Prop) (base : List Overwrite)
    (w : World) : Prop where
  underway : u.Underway w
  overwrote : w.Overwrote allowed base

/-- Nothing has changed that the facts about the update depend on. -/
def Still (u : ServerUpdate formats) (w w' : World) : Prop := w.Agrees u.watchedᶜ w'

theorem Still.trans (h : u.Still w w') (h' : u.Still w' w'') : u.Still w w'' :=
  World.Agrees.trans h h'

theorem notMem_unwatched (h : file ∈ u.watched) : file ∉ u.watchedᶜ :=
  fun hmem => hmem h

theorem target_watched : .target ∈ u.watched := .inl (.inl (.inr (.inr (.inl rfl))))

theorem liveDatabase_watched : .liveDatabase ∈ u.watched := .inl (.inl (.inr (.inr (.inr rfl))))

theorem journal_watched : .journal u.operationId ∈ u.watched := .inl (.inl (.inr (.inl rfl)))

section

variable (h : u.Still w w')
include h

theorem Still.backed {snapshot : Snapshot} (hw : u.Backed directory snapshot w) :
    u.Backed directory snapshot w' :=
  hw.congr h (Set.disjoint_compl_left_iff_subset.mpr
    ((backupFiles_subset directory).trans Set.subset_union_right))

theorem Still.unchanged (hw : u.Unchanged w) : u.Unchanged w' :=
  hw.congr h (notMem_unwatched target_watched) (notMem_unwatched liveDatabase_watched)
    (notMem_unwatched journal_watched)

theorem Still.engaged (hw : u.Engaged stages directory w) : u.Engaged stages directory w' :=
  hw.congr h (notMem_unwatched journal_watched)

theorem Still.starts : w'.starts = w.starts :=
  (World.Agrees.database h (notMem_unwatched liveDatabase_watched)).2.1

theorem Still.target : w'.files.get? .target = w.files.get? .target :=
  World.Agrees.file h _ (notMem_unwatched target_watched)

theorem Still.held (hw : u.Held allowed base w)
    (hresponsive : u.plan.serviceInstalled = true → w'.Responsive) : u.Held allowed base w' :=
  ⟨hw.underway.congr h disjoint_compl_left hresponsive, hw.overwrote.congr
    (World.Agrees.database h (notMem_unwatched liveDatabase_watched)).2.2⟩

end

/-- Wherever the call is cut off the update is held, and however it ends the postcondition holds as
well. -/
def Keeps (u : ServerUpdate formats) (allowed : Overwrite → Prop) (base : List Overwrite)
    (x : Call α) (w : World) (post : Except UpdateError α → World → Prop) : Prop :=
  (system formats).Guards anywhere (u.Held allowed base)
    (fun r w' => u.Held allowed base w' ∧ post r w') x.run w

section

variable (hx : u.Keeps allowed base x w post)
include hx

theorem Keeps.held_of_ends {r : Option (Except UpdateError α)}
    (h : (system formats).Ends anywhere x.run w r w') : u.Held allowed base w' := by
  have hguards := Guards.mono hx (fun _ h => h) fun _ _ h => h.1
  exact hguards.of_ends h

variable {post' : Except UpdateError α → World → Prop}

theorem Keeps.mono (h : ∀ r w', post r w' → post' r w') : u.Keeps allowed base x w post' :=
  Guards.mono hx (fun _ => id) fun r w' hr => ⟨hr.1, h r w' hr.2⟩

theorem Keeps.and_held (h : ∀ r w', u.Held allowed base w' → post r w' → post' r w') :
    u.Keeps allowed base x w post' :=
  Guards.mono hx (fun _ hw' => hw') fun r w' hr => ⟨hr.1, h r w' hr.1 hr.2⟩

variable {post' : Except UpdateError β → World → Prop}

theorem Keeps.bind (herror : ∀ error w', post (.error error) w' → post' (.error error) w')
    (hf : ∀ a w', u.Held allowed base w' → post (.ok a) w' →
      u.Keeps allowed base (f a) w' post') : u.Keeps allowed base (x >>= f) w post' :=
  Guards.except_bind hx (fun error w' h => ⟨h.1, h.1, herror error w' h.2⟩)
    fun a w' h => hf a w' h.1 h.2

theorem Keeps.outcome_bind {f : Except UpdateError α → Call β}
    (hf : ∀ r w', u.Held allowed base w' → post r w' → u.Keeps allowed base (f r) w' post') :
    u.Keeps allowed base (outcome x >>= f) w post' :=
  Guards.lift_bind hx fun r w' h => hf r w' h.1 h.2

end

theorem keeps_pure {a : α} (hw : u.Held allowed base w) (hpost : post (.ok a) w) :
    u.Keeps allowed base (pure a) w post := ⟨hw, hw, hpost⟩

theorem keeps_throw {error : UpdateError}
    (hw : u.Held allowed base w) (hpost : post (.error error) w) :
    u.Keeps allowed base (throw error) w post := ⟨hw, hw, hpost⟩

theorem guards_responsive {p : Program Action.Answer α} (hp : Writes .server files p)
    (hw : u.plan.serviceInstalled = true → w.Responsive) :
    (system formats).Guards anywhere (fun w => u.plan.serviceInstalled = true → w.Responsive)
      (fun _ w => u.plan.serviceInstalled = true → w.Responsive) p w :=
  guards_of_only hp hw
    (fun choice s action _ hs h => (effect_perform formats choice s action).responsive (hs h))
    fun choice s action _ hs h => (effect_torn formats choice s action).responsive (hs h)

theorem keeps_of_agrees {Q : World → Prop} (hx : Writes .server files x.run)
    (hw : u.Held allowed base w) (hP : Returns formats x w P)
    (hafter : ∀ w', w.Agrees files w' → (u.plan.serviceInstalled = true → w'.Responsive) →
      u.Held allowed base w' ∧ Q w') :
    u.Keeps allowed base x w fun r w' => Q w' ∧ ∀ a, r = .ok a → P a w' := by
  refine (((guards_agrees hx).and (guards_responsive hx hw.underway.responsive)).and hP).mono
    (fun w' h => (hafter w' h.1.1 h.1.2).1) fun r w' h => ?_
  obtain ⟨hheld, hQ⟩ := hafter w' h.1.1 h.1.2
  exact ⟨hheld, hQ, h.2⟩

theorem keeps_quiet (hx : Writes .server files x.run)
    (hfiles : Disjoint files u.watched) (hw : u.Held allowed base w) (hP : Returns formats x w P) :
    u.Keeps allowed base x w fun r w' => u.Still w w' ∧ ∀ a, r = .ok a → P a w' := by
  have hstill : files ⊆ u.watchedᶜ := Set.subset_compl_iff_disjoint_right.mpr hfiles
  exact keeps_of_agrees hx hw hP fun w' h hresponsive =>
    ⟨Still.held (h.mono hstill) hw hresponsive, h.mono hstill⟩

/-- The update is held, and nothing that it depends on has changed since an earlier time. -/
structure Steady (u : ServerUpdate formats) (allowed : Overwrite → Prop) (base : List Overwrite)
    (w w' : World) : Prop where
  held : u.Held allowed base w'
  still : u.Still w w'

theorem Held.steady (hw : u.Held allowed base w) : u.Steady allowed base w w := ⟨hw, .refl _ _⟩

section Steady

variable {post : Except UpdateError β → World → Prop} (h : u.Steady allowed base w w')
include h

theorem Steady.quiet (hx : Writes .server files x.run) (hfiles : Disjoint files u.watched)
    (hP : Returns formats x w' P) (herror : ∀ error w'', u.Still w w'' → post (.error error) w'')
    (hf : ∀ a w'', u.Steady allowed base w w'' → P a w'' → u.Keeps allowed base (f a) w'' post) :
    u.Keeps allowed base (x >>= f) w' post :=
  (keeps_quiet hx hfiles h.held hP).bind (fun error w'' h' => herror error w'' (h.still.trans h'.1))
    fun a w'' hheld h' => hf a w'' ⟨hheld, h.still.trans h'.1⟩ (h'.2 a rfl)

theorem Steady.read (hx : Writes .server ∅ x.run) (hP : Returns formats x w' P)
    (herror : ∀ error w'', u.Still w w'' → post (.error error) w'')
    (hf : ∀ a w'', u.Steady allowed base w w'' → P a w'' → u.Keeps allowed base (f a) w'' post) :
    u.Keeps allowed base (x >>= f) w' post := h.quiet hx (Set.empty_disjoint _) hP herror hf

theorem Steady.skip (hx : Writes .server ∅ x.run)
    (herror : ∀ error w'', u.Still w w'' → post (.error error) w'')
    (hf : ∀ a w'', u.Steady allowed base w w'' → u.Keeps allowed base (f a) w'' post) :
    u.Keeps allowed base (x >>= f) w' post :=
  h.read hx returns_trivial herror fun a w'' h' _ => hf a w'' h'

end Steady

end Rules

section Journal

variable {backup : Option BackupName}

/-- The journal is in this stage, with this backup. -/
def Journaled (u : ServerUpdate formats) (stage : Stage) (backup : Option BackupName)
    (w : World) : Prop :=
  ∃ journal, w.files.get? (.journal u.operationId) = some (.document (.journal journal)) ∧
    journal.stage = stage ∧ journal.backupDirectory = backup

theorem Journaled.engaged {directory : BackupName}
    (hw : u.Journaled stage (some directory) w) (hstage : stages stage = true) :
    u.Engaged stages directory w := by
  obtain ⟨journal, hget, rfl, hbackup⟩ := hw
  exact ⟨journal, hget, hstage, hbackup⟩

theorem bound_operationJournal (now : ℕ) :
    u.Bound (operationJournal u.plan u.planSha256 stage backup error now) :=
  ⟨rfl, rfl, rfl, u.product, rfl⟩

theorem journalTag_unwatched : FileName.authentication (.journal u.operationId) ∉ u.watched := by
  simp

theorem still_setTag {content : Content} :
    u.Still w (w.setFile (.authentication (.journal u.operationId)) content) :=
  (agrees_setFile w _ content).mono (Set.singleton_subset_iff.mpr journalTag_unwatched)

theorem writeOperationJournal_server : writeOperationJournal formats u.plan u.planSha256 stage
    backup error = (do
      ensure (isSha256 u.planSha256) .malformedSha256
      let now ← sys .clock
      ensure u.plan.serverDatabase.isSome .journalWithoutTransaction
      writeServerAuthenticatedJson formats (.journal u.operationId) .operationJournal
        (.journal (operationJournal u.plan u.planSha256 stage backup error now))) := by
  unfold writeOperationJournal
  simp only [if_pos u.product]
  rfl

/-- Nothing but the journal has changed that the facts about the update depend on. -/
def Rewritten (u : ServerUpdate formats) (w w' : World) : Prop :=
  w.Agrees (insert (.journal u.operationId) u.watchedᶜ) w'

theorem Still.rewritten (h : u.Still w w') : u.Rewritten w w' :=
  World.Agrees.mono h (Set.subset_insert _ _)

theorem Rewritten.trans {w'' : World} (h : u.Rewritten w w') (h' : u.Rewritten w' w'') :
    u.Rewritten w w'' := World.Agrees.trans h h'

theorem Rewritten.notMem (hfile : file ∈ u.watched) (hne : file ≠ .journal u.operationId) :
    file ∉ insert (.journal u.operationId) u.watchedᶜ := fun hmem => hmem.elim hne fun h => h hfile

variable (hw : u.Held allowed base w)
include hw

theorem Held.setJournal {journal : UpdateJournal} (hrecords : u.Records journal w) :
    u.Held allowed base (w.setFile (.journal u.operationId) (.document (.journal journal))) :=
  ⟨hw.underway.setJournal hrecords, hw.overwrote⟩

/-- What can have become of the journal that a call writes. -/
structure Journals (u : ServerUpdate formats) (stage : Stage) (backup : Option BackupName)
    (w : World) (w' : World) : Prop where
  rewritten : u.Rewritten w w'
  journal : u.Still w w' ∨ u.Journaled stage backup w'

/-- The update is held while its journal is written. -/
def Journaling (u : ServerUpdate formats) (allowed : Overwrite → Prop) (base : List Overwrite)
    (stage : Stage) (backup : Option BackupName) (w w' : World) : Prop :=
  u.Held allowed base w' ∧ u.Journals stage backup w w'

variable (hrecords : ∀ now, u.Records (operationJournal u.plan u.planSha256 stage backup error now) w)
include hrecords

theorem guards_journal : (system formats).Guards anywhere (u.Journaling allowed base stage backup w)
      (fun r w' => u.Journaling allowed base stage backup w w' ∧
        ∀ a, r = .ok a → u.Journaled stage backup w')
      (writeOperationJournal formats u.plan u.planSha256 stage backup error).run w := by
  have hsame : u.Journaling allowed base stage backup w w :=
    ⟨hw, (Still.rewritten (.refl _ _)), .inl (.refl _ _)⟩
  have hensure : ∀ condition error, (system formats).Guards anywhere
      (u.Journaling allowed base stage backup w) (fun _ w' => w' = w)
      (ensure condition error).run w := fun condition error =>
    (guards_ensure (show w = w from rfl)).mono (fun _ h => h ▸ hsame) fun _ _ h => h.symm
  have hclock : (system formats).Guards anywhere (u.Journaling allowed base stage backup w)
      (fun _ w' => w' = w) (sys .clock).run w :=
    ⟨⟨fun _ => hsame, fun _ _ => hsame⟩, fun _ => ⟨hsame, rfl⟩⟩
  have herror : ∀ (failure : UpdateError) w', w' = w →
      u.Journaling allowed base stage backup w w' ∧ u.Journaling allowed base stage backup w w' ∧
      ∀ a : Unit, Except.error failure = .ok a → u.Journaled stage backup w' := by
    intro failure w' h
    rw [h]
    exact ⟨hsame, hsame, nofun⟩
  rw [writeOperationJournal_server]
  refine (hensure _ _).except_bind herror fun _ w1 h1 => ?_
  rw [h1]
  refine hclock.except_bind herror fun now w2 h2 => ?_
  rw [h2]
  refine (hensure _ _).except_bind herror fun _ w3 h3 => ?_
  rw [h3]
  -- the journal is written before its tag, and a crash may come between
  have hset := hw.setJournal (hrecords now)
  have hguards : Preserves formats (u.Journaling allowed base stage backup w)
      (writeServerAuthenticatedJson formats (.journal u.operationId) .operationJournal
        (.journal (operationJournal u.plan u.planSha256 stage backup error now))).run w := by
    refine Guards.seq (guards_writeDurableJson hsame ⟨hset, ?_, ?_⟩)
      fun _ w' h => guards_writeDurableJson h ⟨?_, ?_, ?_⟩
    · exact (agrees_setFile w _ _).mono (by simp)
    · exact .inr ⟨_, get?_insert_self _ _ _, rfl, rfl⟩
    · exact still_setTag.held h.1 h.1.underway.responsive
    · exact h.2.rewritten.trans still_setTag.rewritten
    · refine h.2.journal.imp (fun h => h.trans still_setTag) fun ⟨journal, hget, hjournal⟩ => ?_
      exact ⟨journal, (get?_insert_of_ne (by simp)).trans hget, hjournal⟩
  refine (Guards.and hguards returns_writeServerAuthenticatedJson).mono (fun w' h => h.1)
    fun r w' h => ⟨h.1, fun a hr => ⟨_, (h.2 a hr).1.payload, rfl, rfl⟩⟩

theorem keeps_journal :
    u.Keeps allowed base (writeOperationJournal formats u.plan u.planSha256 stage backup error) w
      fun r w' => u.Journals stage backup w w' ∧ ∀ a, r = .ok a → u.Journaled stage backup w' :=
  (guards_journal hw hrecords).mono (fun _ h => h.1) fun _ _ h => ⟨h.1.1, h.1.2, h.2⟩

end Journal

section Backup

/-- What a snapshot that has been taken is, and its metadata. -/
def Taken (u : ServerUpdate formats) (directory : BackupName)
    (metadata : ServerDatabaseSnapshotMetadata) (w : World) : Prop :=
  ∃ snapshot, w.snapshots.get? directory = some snapshot ∧ snapshot.starts = w.starts ∧
    u.Describes directory snapshot metadata

theorem returns_backupServerDatabase {context : ServerUpdateContext}
    (hexecutable : w.files.get? (.backup directory) = some u.previous) :
    Returns formats (backupServerDatabase directory context u.operationId u.planSha256) w
      fun metadata w' => u.Taken directory metadata w' := by
  have hreads : Writes .server ∅ (validateUpdateContext context).run := writes_validateUpdateContext
  have hcontext : Returns formats (validateUpdateContext context) w fun _ w' =>
      w.Agrees ∅ w' ∧ isSha256 context.sourceLedgerSha256 = true := by
    refine (returns_agrees hreads).and ?_
    refine returns_ensure.bind fun _ w1 h1 => returns_after fun _ _ => ?_
    refine returns_after fun _ _ => returns_trivial.mono fun _ _ _ => ?_
    exact (Bool.and_eq_true_iff.mp h1.2).2
  refine hcontext.bind fun _ w1 ⟨hagrees, hledger⟩ => returns_ensure.reads fun _ _ => ?_
  refine returns_sha256File.reads fun digest hdigest => returns_ensure.reads fun _ _ => ?_
  rw [hagrees.file _ (Set.notMem_empty _), hexecutable] at hdigest
  refine returns_inspectServerDatabase.reads fun report hreport => ?_
  refine returns_ensure.reads fun _ hsame => ?_
  obtain ⟨hschema, hledger'⟩ := Bool.and_eq_true_iff.mp hsame
  rw [hreport] at hschema hledger'
  refine returns_takeSnapshot.bind fun taken w2 h2 => returns_ensure.reads fun _ htaken => ?_
  obtain ⟨content, rfl⟩ := h2 htaken
  refine returns_snapshotSha256.reads fun found hfound => returns_expect.reads fun sha hsome => ?_
  refine returns_clock.bind fun now w3 h3 => returns_pure.mono fun metadata w4 h4 => ?_
  subst h3
  obtain ⟨rfl, rfl⟩ := h4
  have hsnapshot := get?_insert_self w1.snapshots directory
    (⟨content, w1.database.schema, w1.database.ledgerSha256, w1.starts⟩ : Snapshot)
  refine ⟨_, hsnapshot, rfl, rfl, rfl, rfl, (eq_of_beq hschema).symm, (eq_of_beq hledger').symm,
    hledger, rfl, ?_, rfl, (Option.some.inj hdigest).symm⟩
  have hsha := (hsome ▸ hfound).resolve_left nofun
  rw [World.snapshotted, hsnapshot] at hsha
  exact Option.some.inj hsha

/-- The snapshot is there, with its metadata and the executable that goes with it. -/
structure Snapshotted (u : ServerUpdate formats) (directory : BackupName)
    (metadata : ServerDatabaseSnapshotMetadata) (w : World) : Prop where
  executable : w.files.get? (.backup directory) = some u.previous
  taken : u.Taken directory metadata w
  document : w.files.get? (.databaseSnapshot directory) =
    some (.document (.databaseSnapshot metadata))

theorem Taken.congr {files : Set FileName} {w' : World}
    (hw : u.Taken directory metadata w) (h : w.Agrees files w')
    (hsnapshot : .snapshot directory ∉ files) (hdatabase : .liveDatabase ∉ files) :
    u.Taken directory metadata w' := by
  obtain ⟨snapshot, hget, hstarts, hdescribes⟩ := hw
  exact ⟨snapshot, (h.snapshot directory hsnapshot).trans hget,
    hstarts.trans (h.database hdatabase).2.1.symm, hdescribes⟩

theorem returns_writeSnapshotMetadata :
    Returns formats (writeSnapshotMetadata directory metadata) w fun _ w' =>
      w.Agrees {.databaseSnapshot directory} w' ∧ w'.files.get? (.databaseSnapshot directory) =
        some (.document (.databaseSnapshot metadata)) := by
  have hwrites : Writes .server {.databaseSnapshot directory}
      (writeSnapshotMetadata directory metadata).run := writes_writeSnapshotMetadata rfl
  refine (returns_agrees hwrites).and (returns_after fun _ w1 => ?_)
  refine returns_writeDurableJson.mono fun _ w2 h2 => ?_
  rw [h2]
  exact get?_insert_self _ _ _

theorem returns_createServerDatabaseSnapshot
    (hexecutable : w.files.get? (.backup directory) = some u.previous) :
    Returns formats (createServerDatabaseSnapshot u.plan directory u.planSha256) w
      fun found w' => w.Agrees (backupFiles directory) w' ∧ found = some directory ∧
        ∃ metadata, u.Snapshotted directory metadata w' := by
  have hwrites : Writes .server (backupFiles directory)
      (createServerDatabaseSnapshot u.plan directory u.planSha256).run :=
    writes_createServerDatabaseSnapshot (.inl (.inl (.inr rfl))) (.inr (.inl rfl))
  refine (returns_agrees hwrites).and ?_
  obtain ⟨transaction, htransaction⟩ := Option.isSome_iff_exists.mp u.transaction
  unfold createServerDatabaseSnapshot
  rw [htransaction]
  refine returns_ensure.reads fun _ _ => ?_
  have hreads : Writes .server ∅ (snapshotContext transaction).run := writes_snapshotContext
  refine (returns_agrees hreads).bind fun context w2 h2 => ?_
  have hexecutable2 := (h2.file (.backup directory) (Set.notMem_empty _)).trans hexecutable
  have hbackup : Writes .server {.snapshot directory}
      (backupServerDatabase directory context u.operationId u.planSha256).run :=
    writes_backupServerDatabase rfl
  refine ((returns_agrees hbackup).and (returns_backupServerDatabase hexecutable2)).bind
    fun metadata w3 h3 => ?_
  have hexecutable3 := (h3.1.file (.backup directory) (by simp)).trans hexecutable2
  refine returns_writeSnapshotMetadata.bind fun _ w4 h4 => returns_pure.mono fun found w5 h5 => ?_
  obtain ⟨rfl, rfl⟩ := h5
  refine ⟨rfl, metadata, ?_, h3.2.congr h4.1 (by simp) (by simp), h4.2⟩
  exact (h4.1.file (.backup directory) (by simp)).trans hexecutable3

theorem returns_authenticateSnapshot (hw : u.Snapshotted directory metadata w) :
    Returns formats (authenticateSnapshot formats (some directory)) w fun _ w' =>
      w.Agrees (authenticated (.databaseSnapshot directory)) w' ∧ w'.Authentic formats
        (.databaseSnapshot directory) .databaseSnapshot (.databaseSnapshot metadata) := by
  have hread : Returns formats (readSnapshotMetadata directory) w fun found w' =>
      w.Agrees ∅ w' ∧ found = metadata := by
    have hreads : Writes .server ∅ (readSnapshotMetadata directory).run :=
      writes_readSnapshotMetadata
    refine (returns_agrees hreads).and ?_
    refine returns_readDurableJson.bind fun found w1 h1 => returns_after fun _ _ => ?_
    refine returns_pure.mono fun value _ hvalue => hvalue.1.trans ?_
    obtain ⟨-, content, hget, hparse⟩ := h1
    rw [hw.document] at hget
    cases hget
    exact (Option.some.inj hparse).symm
  refine hread.bind fun found w1 h1 => ?_
  obtain ⟨hagrees, rfl⟩ := h1
  refine returns_writeServerAuthenticatedJson.mono fun _ w2 h2 => ⟨?_, h2.1⟩
  exact (hagrees.mono (Set.empty_subset _)).trans h2.2

theorem returns_writeBackupMetadata {digest : String}
    {now : ℕ} (hw : u.Snapshotted directory metadata w) :
    Returns formats (writeBackupMetadata formats u.plan directory
      (backupMetadata u.plan digest (some directory) now)) w fun _ w' =>
        w.Agrees (backupFiles directory) w' ∧
          ∃ snapshot, u.Backed directory snapshot w' ∧ snapshot.starts = w'.starts := by
  unfold writeBackupMetadata
  rw [if_pos u.product]
  refine (returns_authenticateSnapshot hw).bind fun _ w1 h1 => ?_
  refine returns_writeServerAuthenticatedJson.mono fun _ w2 h2 => ?_
  have hagrees := (h1.1.mono Set.subset_union_left).trans (h2.2.mono Set.subset_union_right)
  obtain ⟨snapshot, hget, hstarts, hdescribes⟩ :=
    hw.taken.congr hagrees (by simp) (by simp)
  have hmetadata := h1.2.congr h2.2 (by simp)
  refine ⟨hagrees.mono ?_, snapshot, ⟨?_, hget, ⟨_, h2.1, rfl, rfl⟩, metadata, hmetadata,
    hdescribes⟩, hstarts⟩
  · rintro file (hfile | hfile)
    · exact .inr hfile
    · exact .inl (.inr hfile)
  · exact (hagrees.file _ (by simp)).trans hw.executable

/-- **A backup that has been created is complete**, and no server has been started since. -/
theorem returns_createBackup (htarget : w.files.get? .target = some u.previous) :
    Returns formats (createBackup formats u.plan u.planSha256) w fun directory w' =>
      w.Agrees (backupFiles directory) w' ∧
        ∃ snapshot, u.Backed directory snapshot w' ∧ snapshot.starts = w'.starts := by
  have huuid : Writes .server ∅ (sys .newUuid).run := writes_read .newUuid rfl
  refine returns_clock.bind fun created w1 h1 => (returns_agrees huuid).bind fun id w2 h2 => ?_
  subst h1
  refine returns_copyFile.bind fun _ w3 h3 => returns_sha256File.reads fun digest _ => ?_
  obtain ⟨content, hcontent, h3⟩ := h3
  rw [h2.file _ (Set.notMem_empty _), htarget] at hcontent
  cases hcontent
  refine returns_ensure.reads fun _ _ => ?_
  have hcopied : w1.Agrees (backupFiles ⟨u.plan.fromVersion, created, id⟩) w3 :=
    (h2.mono (Set.empty_subset _)).trans
      (h3 ▸ (agrees_setFile w2 _ _).mono (Set.singleton_subset_iff.mpr (.inl (.inl (.inl rfl)))))
  have hexecutable : w3.files.get? (.backup ⟨u.plan.fromVersion, created, id⟩) =
      some u.previous := h3 ▸ get?_insert_self _ _ _
  refine (returns_createServerDatabaseSnapshot hexecutable).bind
    fun found w4 h4 => returns_clock.bind fun now w5 h5 => ?_
  obtain ⟨hsnapshot, rfl, metadata, hsnapshotted⟩ := h4
  subst h5
  refine (returns_writeBackupMetadata hsnapshotted).bind fun _ w6 h6 => ?_
  refine returns_pure.mono fun directory w7 h7 => ?_
  rw [h7.1, h7.2]
  exact ⟨(hcopied.trans hsnapshot).trans h6.1, h6.2⟩

end Backup

/-! ## Before the backup is recorded -/

theorem Unchanged.records (hw : u.Unchanged w) (hstage : stage ≠ .completed) (now : ℕ) :
    u.Records (operationJournal u.plan u.planSha256 stage none error now) w :=
  ⟨bound_operationJournal now, nofun, fun h => (hstage h).elim, fun _ _ => hw.reverted⟩

theorem Underway.unchanged (hw : u.Underway w) (hbefore : u.Unchanged w) (hafter : u.Unchanged w')
    (hfiles : ∀ file ∈ insert .active (insert (.journal u.operationId)
      (authenticated (.plan u.operationId))), w'.files.get? file = w.files.get? file)
    (hresponsive : u.plan.serviceInstalled = true → w'.Responsive) : u.Underway w' := by
  refine ⟨fun content hget => ?_, ⟨?_, ?_⟩, fun content hget => ?_, hresponsive⟩
  · rw [hfiles _ (.inl rfl)] at hget
    exact hw.marker content hget
  · exact (hfiles _ (.inr (.inr (.inl rfl)))).trans hw.plan.payload
  · exact (hfiles _ (.inr (.inr (.inr rfl)))).trans hw.plan.tag
  · rw [hfiles _ (.inr (.inl rfl))] at hget
    obtain ⟨journal, rfl, hrecords⟩ := hw.journal content hget
    have hnone := hbefore.unrecorded journal hget
    refine ⟨journal, rfl, hrecords.bound, fun directory hsome => ?_, fun hstage => ?_,
      fun _ _ => hafter.reverted⟩
    · cases hnone.symm.trans hsome
    · rw [World.installedSha256, hafter.target, ← hbefore.target]
      exact hrecords.completed hstage

theorem Unchanged.opened (hw : u.Unchanged w) (choice : Choice) :
    u.Unchanged (w.opened formats choice) := by
  obtain ⟨started, hopened, hprevious⟩ := hw.database.openedBy
  refine ⟨hw.target, ⟨hw.database.overwrites, hw.database.restoredFrom,
    formats.sha256 u.previous :: started, ?_, ?_⟩, hw.unrecorded⟩
  · simp only [World.opened, hw.target, hopened]
    rfl
  · intro digest hmem
    obtain rfl | hmem := List.mem_cons.mp hmem
    · rfl
    · exact hprevious digest hmem

theorem keeps_unchanged {P : α → World → Prop} (hx : Writes .server files x.run)
    (hfiles : Disjoint files ({.active, .journal u.operationId, .target, .liveDatabase} ∪
      authenticated (.plan u.operationId)))
    (hw : u.Held allowed base w) (hbefore : u.Unchanged w) (hP : Returns formats x w P) :
    u.Keeps allowed base x w fun r w' => u.Unchanged w' ∧ ∀ a, r = .ok a → P a w' := by
  have hkept : ∀ file ∈ ({.active, .journal u.operationId, .target, .liveDatabase} ∪
      authenticated (.plan u.operationId) : Set FileName), file ∉ files :=
    fun _ hfile => Set.disjoint_right.mp hfiles hfile
  refine keeps_of_agrees hx hw hP fun w' h hresponsive => ?_
  have hdatabase := hkept .liveDatabase (.inl (.inr (.inr (.inr rfl))))
  have hunchanged := hbefore.congr h (hkept _ (.inl (.inr (.inr (.inl rfl))))) hdatabase
    (hkept _ (.inl (.inr (.inl rfl))))
  refine ⟨⟨hw.underway.unchanged hbefore hunchanged (fun file hfile => h.file _ (hkept _ ?_))
    hresponsive, hw.overwrote.congr (h.database hdatabase).2.2⟩, hunchanged⟩
  obtain rfl | rfl | hplan := hfile
  · exact .inl (.inl rfl)
  · exact .inl (.inr (.inl rfl))
  · exact .inr hplan

theorem keeps_unchanged_createBackup (hw : u.Held allowed base w) (hbefore : u.Unchanged w) :
    u.Keeps allowed base (createBackup formats u.plan u.planSha256) w fun r w' =>
      u.Unchanged w' ∧ ∀ directory, r = .ok directory → w.Agrees (backupFiles directory) w' ∧
        ∃ snapshot, u.Backed directory snapshot w' ∧ snapshot.starts = w'.starts := by
  refine keeps_unchanged (writes_createBackup backupFiles_subset) ?_ hw hbefore
    (returns_createBackup hbefore.target)
  simp

theorem keeps_unchanged_restart (hw : u.Held allowed base w) (hbefore : u.Unchanged w) :
    u.Keeps allowed base (restartServiceAfterUpdate u.plan) w fun _ w' => u.Unchanged w' := by
  have hopened : ∀ choice, u.Held allowed base (w.opened formats choice) ∧
      u.Unchanged (w.opened formats choice) := fun choice =>
    have hafter := hbefore.opened choice
    ⟨⟨hw.underway.unchanged hbefore hafter (fun _ _ => rfl) fun _ => .inr rfl, hw.overwrote⟩,
      hafter⟩
  unfold restartServiceAfterUpdate
  split_ifs
  · exact (guards_startService ⟨hw, hbefore⟩ hopened).mono (fun _ h => h.1) fun _ _ => id
  · exact keeps_pure hw hbefore

theorem Unchanged.journals (hbefore : u.Unchanged w) (h : u.Journals stage none w w') :
    u.Unchanged w' := by
  obtain hstill | ⟨journal, hget, -, hnone⟩ := h.journal
  · exact hstill.unchanged hbefore
  · have hagrees : w.Agrees _ w' := h.rewritten
    refine ⟨(hagrees.file _ (Rewritten.notMem target_watched nofun)).trans hbefore.target,
      hbefore.database.congr hagrees (Rewritten.notMem liveDatabase_watched nofun),
      fun found hfound => ?_⟩
    rw [hget] at hfound
    cases hfound
    exact hnone

theorem keeps_unchanged_journal
    (hw : u.Held allowed base w) (hbefore : u.Unchanged w) (hstage : stage ≠ .completed) :
    u.Keeps allowed base (writeOperationJournal formats u.plan u.planSha256 stage none error) w
      fun _ w' => u.Unchanged w' ∧ u.Rewritten w w' :=
  (keeps_journal hw (hbefore.records hstage)).mono fun _ _ h =>
    ⟨hbefore.journals h.1, h.1.rewritten⟩

section Engaged

theorem Backs.advance {stage' : Stage} (hw : u.Backs stage directory w)
    (h : stage'.precedesCandidate = true → stage.precedesCandidate = true) :
    u.Backs stage' directory w := by
  obtain ⟨snapshot, hbacked, hstarts⟩ := hw
  exact ⟨snapshot, hbacked, fun h' => hstarts fun hrestarts => h (h' hrestarts)⟩

theorem Engaged.backs (hw : u.Engaged stages directory w) (hunderway : u.Underway w) :
    ∃ stage, stages stage = true ∧ u.Backs stage directory w := by
  obtain ⟨journal, hget, hstage, hbackup⟩ := hw
  obtain ⟨journal', hjournal, hrecords⟩ := hunderway.journal _ hget
  cases hjournal
  exact ⟨journal.stage, hstage, hrecords.backup directory hbackup⟩

theorem Backs.records (hw : u.Backs stage directory w) (hstage : stage.isTerminal = false) (now : ℕ) :
    u.Records (operationJournal u.plan u.planSha256 stage (some directory) error now) w := by
  refine ⟨bound_operationJournal now, fun other hother => ?_, fun hcompleted => ?_, ?_⟩
  · cases hother
    exact hw
  · have hcompleted' : stage = .completed := hcompleted
    rw [hcompleted'] at hstage
    cases hstage
  · rintro - (hterminal | hnone)
    · cases hstage.symm.trans hterminal
    · cases hnone

theorem keeps_engaged {P : α → World → Prop} (hx : Writes .server files x.run)
    (hfiles : Disjoint files u.held) (hdatabase : .liveDatabase ∉ files)
    (hw : u.Held allowed base w) (hengaged : u.Engaged stages directory w)
    (hstages : ∀ stage, stages stage = true → stage.isTerminal = false) (hP : Returns formats x w P) :
    u.Keeps allowed base x w fun r w' => u.Engaged stages directory w' ∧ w.Agrees files w' ∧
      ∀ a, r = .ok a → P a w' := by
  have hjournal := Set.disjoint_right.mp hfiles (.inl (.inl (.inr rfl)))
  have hafter : u.Keeps allowed base x w fun r w' => (u.Engaged stages directory w' ∧
      w.Agrees files w') ∧ ∀ a, r = .ok a → P a w' := by
    refine keeps_of_agrees hx hw hP fun w' h hresponsive => ?_
    obtain ⟨-, hstarts, hoverwrites⟩ := h.database hdatabase
    exact ⟨⟨hw.underway.engaged_congr hengaged hstages h hfiles (.inl hstarts) hresponsive,
      hw.overwrote.congr hoverwrites⟩, hengaged.congr h hjournal, h⟩
  exact hafter.mono fun _ _ h => ⟨h.1.1, h.1.2, h.2⟩

theorem agrees_opened (choice : Choice) : w.Agrees {.liveDatabase} (w.opened formats choice) :=
  ⟨fun _ _ => rfl, fun _ _ => rfl, fun h => (h rfl).elim⟩

theorem liveDatabase_disjoint_held : Disjoint {.liveDatabase} u.held := by
  simp

theorem keeps_engaged_restart (hw : u.Held allowed base w) (hengaged : u.Engaged stages directory w)
    (hstages : ∀ stage, stages stage = true →
      stage.isTerminal = false ∧ stage.precedesCandidate = false) :
    u.Keeps allowed base (restartServiceAfterUpdate u.plan) w fun _ w' =>
      u.Engaged stages directory w' ∧ (w' = w ∨ ∃ choice, w' = w.opened formats choice) := by
  have hjournal : FileName.journal u.operationId ∉ ({.liveDatabase} : Set FileName) := by simp
  unfold restartServiceAfterUpdate
  split_ifs with hrestarts
  · have hopened : ∀ choice, u.Held allowed base (w.opened formats choice) := fun choice =>
      ⟨hw.underway.engaged_congr hengaged (fun stage h => (hstages stage h).1)
        (agrees_opened choice) liveDatabase_disjoint_held
        (.inr ⟨hrestarts, fun stage h => (hstages stage h).2⟩) fun _ => .inr rfl, hw.overwrote⟩
    have hguards : (system formats).Guards anywhere
        (fun w' => u.Held allowed base w' ∧ u.Engaged stages directory w' ∧
          (w' = w ∨ ∃ choice, w' = w.opened formats choice)) _ startService.run w :=
      guards_startService ⟨hw, hengaged, .inl rfl⟩ fun choice =>
        ⟨hopened choice, hengaged.congr (agrees_opened choice) hjournal, .inr ⟨choice, rfl⟩⟩
    exact hguards.mono (fun _ h => h.1) fun _ _ h => h
  · exact keeps_pure hw ⟨hengaged, .inl rfl⟩

theorem keeps_engaged_journal (hw : u.Held allowed base w)
    (hengaged : u.Engaged stages directory w) (hbacks : u.Backs stage directory w)
    (hstage : stage.isTerminal = false) (hmem : stages stage = true) :
    u.Keeps allowed base
      (writeOperationJournal formats u.plan u.planSha256 stage (some directory) error) w
      fun r w' => u.Engaged stages directory w' ∧ u.Rewritten w w' ∧
        ∀ a, r = .ok a → u.Journaled stage (some directory) w' := by
  refine (keeps_journal hw (hbacks.records hstage)).mono fun r w' h => ⟨?_, h.1.rewritten, h.2⟩
  obtain hstill | hjournaled := h.1.journal
  · exact hstill.engaged hengaged
  · exact hjournaled.engaged hmem

end Engaged

section Restore

variable {snapshot : Snapshot}

/-- The database may be restored from the backup. -/
structure Ready (u : ServerUpdate formats) (allowed : Overwrite → Prop) (directory : BackupName)
    (snapshot : Snapshot) (w : World) : Prop where
  backed : u.Backed directory snapshot w
  unstarted : u.plan.restarts = false → snapshot.starts = w.starts
  permitted : allowed ⟨directory, snapshot.starts, w.starts⟩
  phase : u.Unchanged w ∨ u.Engaged Stage.inProgress directory w

theorem Still.ready (h : u.Still w w') (hw : u.Ready allowed directory snapshot w) :
    u.Ready allowed directory snapshot w' := by
  refine ⟨h.backed hw.backed, ?_, ?_, hw.phase.imp h.unchanged h.engaged⟩
  · rw [h.starts]
    exact hw.unstarted
  · rw [h.starts]
    exact hw.permitted

theorem Ready.backs (hw : u.Ready allowed directory snapshot w)
    (hstage : stage.precedesCandidate = false) : u.Backs stage directory w := by
  refine ⟨snapshot, hw.backed, fun h => hw.unstarted ?_⟩
  by_contra hrestarts
  cases hstage.symm.trans (h (Bool.not_eq_false _ ▸ hrestarts))

theorem returns_readAuthenticatedSnapshot :
    Returns formats (readAuthenticatedSnapshot formats directory) w fun metadata _ =>
      w.files.get? (.databaseSnapshot directory) =
        some (.document (.databaseSnapshot metadata)) := by
  refine returns_readServerAuthenticatedJson.reads fun _ _ => ?_
  refine returns_readDurableJson.reads fun value ⟨content, hget, hparse⟩ => ?_
  refine returns_after fun _ _ => returns_pure.mono fun metadata _ hmetadata => ?_
  rw [hget, hmetadata.1, Content.eq_of_databaseSnapshot? hparse]

theorem returns_rollbackSnapshot (hw : u.Backed directory snapshot w) :
    Returns formats (rollbackSnapshot formats u.plan directory u.planSha256) w fun metadata _ =>
      u.Describes directory snapshot metadata := by
  obtain ⟨metadata, hmetadata, -, hdirectory⟩ := hw.metadata
  obtain ⟨document, hdocument, hdescribes⟩ := hw.databaseSnapshot
  refine returns_readServerAuthenticatedJson.reads fun found ⟨content, hget, hparse⟩ => ?_
  rw [hmetadata.payload] at hget
  cases hget
  cases hparse
  refine returns_ensure.reads fun _ _ => returns_expect.reads fun directory' hdirectory' => ?_
  cases hdirectory.symm.trans hdirectory'
  refine returns_readAuthenticatedSnapshot.bind fun found w1 h1 => ?_
  refine returns_after fun _ _ => returns_pure.mono fun value _ hvalue => ?_
  rw [hdocument.payload] at h1
  cases h1
  rw [hvalue.1]
  exact hdescribes

theorem agrees_restored : w.Agrees {.liveDatabase} (w.restored directory snapshot) :=
  ⟨fun _ _ => rfl, fun _ _ => rfl, fun h => (h rfl).elim⟩

theorem Held.restored (hw : u.Held allowed base w) (hready : u.Ready allowed directory snapshot w) :
    u.Held allowed base (w.restored directory snapshot) := by
  refine ⟨?_, ?_⟩
  · obtain hunchanged | hengaged := hready.phase
    · have hbacked : u.Backed directory snapshot (w.restored directory snapshot) :=
        hready.backed.congr agrees_restored (by simp)
      have hreverted : u.Reverted (w.restored directory snapshot) :=
        ⟨hunchanged.reverted.installed, .inr ⟨directory, ⟨snapshot, hbacked⟩, rfl, nofun⟩⟩
      refine ⟨hw.underway.marker, ⟨hw.underway.plan.payload, hw.underway.plan.tag⟩,
        fun content hget => ?_, hw.underway.responsive⟩
      obtain ⟨journal, rfl, hrecords⟩ := hw.underway.journal content hget
      have hnone := hunchanged.unrecorded journal hget
      refine ⟨journal, rfl, hrecords.bound, fun other hsome => ?_, hrecords.completed,
        fun _ _ => hreverted⟩
      cases hnone.symm.trans hsome
    · refine hw.underway.engaged_congr hengaged (fun stage h => ?_) agrees_restored
        liveDatabase_disjoint_held (.inl rfl) hw.underway.responsive
      exact Bool.not_eq_true' _ ▸ h
  · exact hw.overwrote.cons hready.permitted

/-- Of what the facts about the update depend on, only the database has changed, and no server has
been started. -/
structure Overwritten (u : ServerUpdate formats) (w w' : World) : Prop where
  agrees : w.Agrees (insert .liveDatabase u.watchedᶜ) w'
  starts : w'.starts = w.starts

theorem Still.overwritten (h : u.Still w w') : u.Overwritten w w' :=
  ⟨World.Agrees.mono h (Set.subset_insert _ _), h.starts⟩

section

variable (h : u.Overwritten w w')
include h

theorem Overwritten.trans {w'' : World} (h' : u.Overwritten w' w'') :
    u.Overwritten w w'' := ⟨h.agrees.trans h'.agrees, h'.starts.trans h.starts⟩

theorem Overwritten.backed (hw : u.Backed directory snapshot w) :
    u.Backed directory snapshot w' := by
  refine hw.congr h.agrees (Set.disjoint_left.mpr fun file hmem hfile => ?_)
  obtain rfl | hmem := hmem
  · simp at hfile
  · exact hmem (.inr (backupFiles_subset directory hfile))

theorem Overwritten.backs (hw : u.Backs stage directory w) : u.Backs stage directory w' := by
  obtain ⟨snapshot, hbacked, hstarts⟩ := hw
  refine ⟨snapshot, h.backed hbacked, ?_⟩
  rw [h.starts]
  exact hstarts

end

/-- The database has just been restored from the directory. -/
def JustRestored (directory : BackupName) (w : World) : Prop :=
  w.database.restoredFrom = some directory ∧ w.database.openedBy = []

theorem Rewritten.justRestored (h : u.Rewritten w w') (hw : JustRestored directory w) :
    JustRestored directory w' := by
  unfold JustRestored
  rw [(World.Agrees.database h (Rewritten.notMem liveDatabase_watched nofun)).1]
  exact hw

/-- The database may be restored from the directory as long as nothing else changes. -/
def Restorable (u : ServerUpdate formats) (allowed : Overwrite → Prop) (base : List Overwrite)
    (directory : BackupName) (w : World) : Prop :=
  ∀ w' found, u.Steady allowed base w w' → w'.snapshots.get? directory = some found →
    u.Held allowed base (w'.restored directory found)

theorem keeps_restoreServerDatabase {binary : FileName} (hw : u.Held allowed base w)
    (hrestored : u.Restorable allowed base metadata.snapshotDirectory w) :
    u.Keeps allowed base (restoreServerDatabase binary metadata) w fun r w' =>
      u.Overwritten w w' ∧ ∀ a, r = .ok a → JustRestored metadata.snapshotDirectory w' := by
  have hstill : ∀ (error : UpdateError) w', u.Still w w' → u.Overwritten w w' ∧
      ∀ a : Unit, Except.error error = .ok a → JustRestored metadata.snapshotDirectory w' :=
    fun error w' h => ⟨h.overwritten, nofun⟩
  refine hw.steady.skip writes_validateSnapshotMetadata hstill fun _ w1 h1 => ?_
  refine h1.skip writes_ensure hstill fun _ w2 h2 => ?_
  refine h2.skip writes_sha256File hstill fun digest w3 h3 => ?_
  refine h3.skip writes_ensure hstill fun _ w4 h4 => ?_
  have hrestore : u.Keeps allowed base (sys (.restore binary metadata.snapshotDirectory)) w4
      fun r w' => u.Overwritten w w' ∧
        ∀ a, r = .ok a → a = true → JustRestored metadata.snapshotDirectory w' := by
    have hguards : (system formats).Guards anywhere
        (fun w' => u.Held allowed base w' ∧ u.Overwritten w w')
        (fun _ w' => u.Held allowed base w' ∧ u.Overwritten w w')
        (sys (.restore binary metadata.snapshotDirectory)).run w4 := by
      refine guards_restore ⟨h4.held, h4.still.overwritten⟩ fun found hfound => ?_
      refine ⟨hrestored w4 found h4 hfound,
        h4.still.overwritten.trans ⟨agrees_restored.mono ?_, rfl⟩⟩
      exact Set.singleton_subset_iff.mpr (.inl rfl)
    refine (Guards.and hguards returns_restore).mono (fun _ h => h.1.1) fun r w' h =>
      ⟨h.1.1, h.1.2, fun a hr ha => ?_⟩
    obtain ⟨found, -, rfl⟩ := h.2 a hr ha
    exact ⟨rfl, rfl⟩
  refine hrestore.bind (fun error w' h => ⟨h.1, nofun⟩) fun restored w5 hw5 h5 => ?_
  refine hw5.steady.read writes_ensure returns_ensure
    (fun _ _ h => ⟨h5.1.trans h.overwritten, nofun⟩) fun _ w6 h6 ⟨_, hdone⟩ => ?_
  refine h6.skip writes_inspectServerDatabase
    (fun _ _ h => ⟨h5.1.trans h.overwritten, nofun⟩) fun report w7 h7 => ?_
  refine h7.skip writes_ensure (fun _ _ h => ⟨h5.1.trans h.overwritten, nofun⟩) fun _ w8 h8 => ?_
  have hensure : ∀ condition error, Writes .server ∅ (ensure condition error).run :=
    fun _ _ => writes_ensure
  refine (keeps_quiet (hensure _ _) (Set.empty_disjoint _) h8.held returns_trivial).mono
    fun r w' h => ?_
  have hstill' := h8.still.trans h.1
  exact ⟨h5.1.trans hstill'.overwritten, fun _ _ =>
    hstill'.rewritten.justRestored (h5.2 restored rfl hdone)⟩

def restoring (stage : Stage) : Bool := stage == .databaseRestoredForRollback

theorem restoring_spec (h : restoring stage = true) :
    stage.isTerminal = false ∧ stage.precedesCandidate = false := by
  rw [eq_of_beq h]
  exact ⟨rfl, rfl⟩

theorem Engaged.backs_late (hw : u.Engaged stages directory w) (hunderway : u.Underway w) :
    u.Backs .recoveryRequired directory w := by
  obtain ⟨stage, -, hbacks⟩ := hw.backs hunderway
  exact hbacks.advance nofun

theorem executableFiles_disjoint_held : Disjoint executableFiles u.held := by
  rw [Set.disjoint_left]
  rintro file ((rfl | ⟨id, rfl⟩) | ⟨id, rfl⟩) hmem <;>
    simp at hmem

theorem liveDatabase_notMem_executableFiles : FileName.liveDatabase ∉ executableFiles := by
  simp

/-- **The previous executable is put back** on the database that was restored for it. -/
theorem keeps_restoreExecutable (hw : u.Held allowed base w)
    (hengaged : u.Engaged restoring directory w) (hrestored : JustRestored directory w) :
    u.Keeps allowed base (restoreExecutable u.plan directory) w fun r w' =>
      u.Engaged restoring directory w' ∧ ∀ a, r = .ok a → u.Reverted w' := by
  refine (keeps_engaged (writes_atomicReplaceWithRetryInner subset_rfl)
    executableFiles_disjoint_held liveDatabase_notMem_executableFiles hw
    hengaged (fun stage h => (restoring_spec h).1) returns_trivial).bind
    (fun error w' h => ⟨h.1, by simp⟩) fun _ w1 hw1 h1 => ?_
  obtain ⟨hengaged1, hagrees, -⟩ := h1
  have hrestored1 : JustRestored directory w1 := by
    unfold JustRestored
    rw [(hagrees.database liveDatabase_notMem_executableFiles).1]
    exact hrestored
  refine hw1.steady.read writes_sha256File returns_sha256File
    (fun _ _ h => ⟨h.engaged hengaged1, by simp⟩) fun digest w2 h2 h => ?_
  obtain ⟨rfl, hdigest⟩ := h
  refine h2.read writes_ensure returns_ensure (fun _ _ h => ⟨h.engaged hengaged1, by simp⟩)
    fun _ w3 h3 hequal => ?_
  rw [eq_of_beq hequal.2, u.expected] at hdigest
  refine h3.skip writes_verifyInstalledVersion (fun _ _ h => ⟨h.engaged hengaged1, by simp⟩)
    fun _ w4 h => ?_
  obtain ⟨hw4, h4⟩ := h
  have hinstalled : w4.installedSha256 formats = some (formats.sha256 u.previous) := by
    rw [World.installedSha256, h4.target]
    exact hdigest
  have hrestored4 := h4.rewritten.justRestored hrestored1
  refine (keeps_engaged_restart hw4 (h4.engaged hengaged1) fun stage h => restoring_spec h).and_held
    fun r w' hw' h => ⟨h.1, fun _ _ => ?_⟩
  obtain ⟨snapshot, hbacked, -⟩ := h.1.backs_late hw'.underway
  obtain rfl | ⟨choice, rfl⟩ := h.2
  · refine ⟨hinstalled, .inr ⟨directory, ⟨snapshot, hbacked⟩, hrestored4.1, ?_⟩⟩
    rw [hrestored4.2]
    rintro _ ⟨⟩
  · refine ⟨hinstalled, .inr ⟨directory, ⟨snapshot, hbacked⟩, hrestored4.1, ?_⟩⟩
    obtain ⟨content, htarget, hsha⟩ := Option.map_eq_some_iff.mp hinstalled
    simp only [World.opened, hrestored4.2, htarget, Option.elim_some, hsha]
    exact fun digest hmem => List.mem_singleton.mp hmem

theorem readinessFiles_disjoint_watched : Disjoint readinessFiles u.watched := by
  rw [Set.disjoint_left]
  rintro file ((rfl | rfl) | (rfl | rfl)) hmem <;>
    simp at hmem

theorem Rewritten.backs (h : u.Rewritten w w') (hw : u.Backs stage directory w) :
    u.Backs stage directory w' := by
  refine hw.congr h (Rewritten.notMem liveDatabase_watched nofun)
    (Set.disjoint_left.mpr fun file hmem hfile => ?_)
  obtain rfl | hmem := hmem
  · simp at hfile
  · exact hmem (.inr (backupFiles_subset directory hfile))

theorem Ready.failed (hw : u.Ready allowed directory snapshot w) (error : UpdateError) (w' : World)
    (h : u.Still w w') : u.Backs .recoveryRequired directory w' ∧
      ∀ a : Unit, Except.error error = .ok a → u.Reverted w' :=
  ⟨(h.ready hw).backs rfl, nofun⟩

/-- **Going back to the previous server.** Wherever it is cut off, the journal is true; however it
ends, the backup is still there; and if it succeeds, the previous executable is installed on the
database of the snapshot. -/
theorem keeps_restoreServer (hw : u.Held allowed base w)
    (hready : u.Ready allowed directory snapshot w) :
    u.Keeps allowed base (restoreServer formats u.plan directory u.planSha256) w fun r w' =>
      u.Backs .recoveryRequired directory w' ∧ ∀ a, r = .ok a → u.Reverted w' := by
  refine hw.steady.read writes_rollbackSnapshot (returns_rollbackSnapshot hready.backed) hready.failed
    fun metadata w1 h1 hdescribes => ?_
  refine h1.skip writes_stopCandidate hready.failed fun _ w2 h2 => ?_
  refine h2.quiet (writes_clearServerReadinessContract subset_rfl)
    readinessFiles_disjoint_watched returns_trivial hready.failed fun _ w3 ⟨hw3, h3⟩ _ => ?_
  have hready3 := h3.ready hready
  have hbacks3 : u.Backs .recoveryRequired directory w3 := hready3.backs rfl
  have hrestored : u.Restorable allowed base metadata.snapshotDirectory w3 := by
    rw [hdescribes.snapshotDirectory]
    intro w' found h hfound
    have hready' := h.still.ready hready3
    cases hready'.backed.taken.symm.trans hfound
    exact h.held.restored hready'
  refine (keeps_restoreServerDatabase hw3 hrestored).bind
    (fun error w' h => ⟨h.1.backs hbacks3, nofun⟩) fun _ w4 hw4 h4 => ?_
  rw [hdescribes.snapshotDirectory] at h4
  have hbacks4 := h4.1.backs hbacks3
  have hjournal : u.Backs .databaseRestoredForRollback directory w4 := hbacks4.advance nofun
  refine (keeps_journal hw4 (hjournal.records rfl)).bind
    (fun error w' h => ⟨h.1.rewritten.backs hbacks4, nofun⟩) fun _ w5 hw5 h5 => ?_
  have hengaged : u.Engaged restoring directory w5 := (h5.2 _ rfl).engaged rfl
  refine (keeps_restoreExecutable hw5 hengaged
    (h5.1.rewritten.justRestored (h4.2 _ rfl))).and_held fun r w' hw' h => ⟨?_, h.2⟩
  exact h.1.backs_late hw'.underway

theorem keeps_restoreAfterFailure (hw : u.Held allowed base w)
    (hready : u.Ready allowed directory snapshot w) :
    u.Keeps allowed base (restoreAfterFailure formats u.plan directory u.planSha256) w fun r w' =>
      u.Backs .recoveryRequired directory w' ∧ ∀ a, r = .ok a → u.Reverted w' := by
  refine hw.steady.skip (writes_read (.exists (.backup directory)) rfl) hready.failed
    fun present w1 h1 => ?_
  refine h1.skip writes_ensure hready.failed fun _ w2 h2 => ?_
  rw [if_pos u.product]
  exact keeps_restoreServer h2.held (h2.still.ready hready)

end Restore

section Install

/-- The snapshot that a rollback was scheduled with, as it was then. -/
def Selected (u : ServerUpdate formats) (overwrite : Overwrite) : Prop :=
  ∃ context metadata snapshot, u.plan.serverDatabase = some (.rollback context) ∧
    context.restoreSnapshot = true ∧
    u.origin.files.get? (.databaseSnapshot context.snapshotDirectory) =
      some (.document (.databaseSnapshot metadata)) ∧
    u.origin.snapshots.get? metadata.snapshotDirectory = some snapshot ∧
    overwrite.directory = metadata.snapshotDirectory ∧
    overwrite.startsAtSnapshot = snapshot.starts

/-- What the update may overwrite: a database that has not been started since the snapshot, and any
by the selected snapshot. -/
structure Permits (u : ServerUpdate formats) (allowed : Overwrite → Prop) : Prop where
  safe : ∀ overwrite : Overwrite, overwrite.startsAtSnapshot = overwrite.starts → allowed overwrite
  selected : ∀ overwrite, u.Selected overwrite → allowed overwrite

/-- The snapshots of other directories are what they were when the update was scheduled. -/
structure Others (u : ServerUpdate formats) (directory : BackupName) (w : World) : Prop where
  document : ∀ other, other ≠ directory →
    w.files.get? (.databaseSnapshot other) = u.origin.files.get? (.databaseSnapshot other)
  snapshot : ∀ other, other ≠ directory →
    w.snapshots.get? other = u.origin.snapshots.get? other

theorem databaseSnapshot_watched : .databaseSnapshot directory ∈ u.watched :=
  .inr (backupFiles_subset directory (.inr (.inl rfl)))

theorem snapshot_watched : .snapshot directory ∈ u.watched :=
  .inr (backupFiles_subset directory (.inl (.inl (.inr rfl))))

theorem Rewritten.document (h : u.Rewritten w w') (directory : BackupName) :
    w'.files.get? (.databaseSnapshot directory) = w.files.get? (.databaseSnapshot directory) :=
  World.Agrees.file h (.databaseSnapshot directory)
    (Rewritten.notMem databaseSnapshot_watched nofun)

theorem Rewritten.snapshot (h : u.Rewritten w w') (directory : BackupName) :
    w'.snapshots.get? directory = w.snapshots.get? directory :=
  World.Agrees.snapshot h directory (Rewritten.notMem snapshot_watched nofun)

theorem Rewritten.others (h : u.Rewritten w w') (hw : u.Others directory w) :
    u.Others directory w' :=
  ⟨fun other hother => (h.document other).trans (hw.document other hother),
    fun other hother => (h.snapshot other).trans (hw.snapshot other hother)⟩

theorem Still.others (h : u.Still w w') (hw : u.Others directory w) : u.Others directory w' :=
  h.rewritten.others hw

theorem permitted_manual {context : ServerRollbackContext} {found : Snapshot}
    (hpermits : u.Permits allowed)
    (hothers : u.Others directory w) (hbacks : u.Backs .backupCreated directory w)
    (hcontext : u.plan.serverDatabase = some (.rollback context))
    (hrestore : context.restoreSnapshot = true)
    (hmetadata : w.files.get? (.databaseSnapshot context.snapshotDirectory) =
      some (.document (.databaseSnapshot metadata)))
    (hfound : w.snapshots.get? metadata.snapshotDirectory = some found) :
    allowed ⟨metadata.snapshotDirectory, found.starts, w.starts⟩ := by
  obtain ⟨snapshot, hbacked, hstarts⟩ := hbacks
  by_cases hown : metadata.snapshotDirectory = directory
  · rw [hown] at hfound
    cases hbacked.taken.symm.trans hfound
    exact hpermits.safe _ (hstarts fun _ => rfl)
  · have hdirectory : context.snapshotDirectory ≠ directory := by
      rintro rfl
      obtain ⟨document, hdocument, hdescribes⟩ := hbacked.databaseSnapshot
      cases hdocument.payload.symm.trans hmetadata
      exact hown hdescribes.snapshotDirectory
    refine hpermits.selected _ ⟨context, metadata, found, hcontext, hrestore, ?_, ?_, rfl, rfl⟩
    · exact (hothers.document _ hdirectory).symm.trans hmetadata
    · exact (hothers.snapshot _ hown).symm.trans hfound

theorem precedesCandidate_spec (h : stage.precedesCandidate = true) : stage.isTerminal = false := by
  cases stage <;> first | rfl | cases h

theorem Engaged.backs_any
    (hw : u.Engaged Stage.precedesCandidate directory w) (hunderway : u.Underway w) :
    u.Backs stage directory w := by
  obtain ⟨stage', hstage', hbacks⟩ := hw.backs hunderway
  exact hbacks.advance fun _ => hstage'

theorem Overwritten.engaged (h : u.Overwritten w w') (hw : u.Engaged stages directory w) :
    u.Engaged stages directory w' :=
  hw.congr h.agrees fun hmem => hmem.elim nofun fun h => h journal_watched

section Transition

variable (hpermits : u.Permits allowed)
include hpermits

theorem keeps_manualRollback {context : ServerRollbackContext}
    (hcontext : u.plan.serverDatabase = some (.rollback context)) (hw : u.Held allowed base w)
    (hengaged : u.Engaged Stage.precedesCandidate directory w) (hothers : u.Others directory w) :
    u.Keeps allowed base (manualRollback formats u.plan context directory u.planSha256) w
      fun _ w' => u.Engaged Stage.precedesCandidate directory w' := by
  unfold manualRollback
  split_ifs with hrestore
  · refine hw.steady.read writes_readAuthenticatedSnapshot returns_readAuthenticatedSnapshot
      (fun _ _ h => h.engaged hengaged) fun metadata w1 h1 hmetadata => ?_
    refine h1.skip writes_validateSnapshotMetadata (fun _ _ h => h.engaged hengaged)
      fun _ w2 h2 => ?_
    refine h2.skip writes_ensure (fun _ _ h => h.engaged hengaged) fun _ w3 ⟨hw3, hstill⟩ => ?_
    have hrestored : u.Restorable allowed base metadata.snapshotDirectory w3 := by
      intro w' found ⟨hw', h⟩ hfound
      have hengaged' := (hstill.trans h).engaged hengaged
      have hmetadata' := (World.Agrees.file (hstill.trans h) _
        (notMem_unwatched databaseSnapshot_watched)).trans hmetadata
      have hallowed := permitted_manual hpermits ((hstill.trans h).others hothers)
        (hengaged'.backs_any hw'.underway) hcontext hrestore hmetadata' hfound
      refine ⟨hw'.underway.engaged_congr hengaged' (fun _ => precedesCandidate_spec)
        agrees_restored liveDatabase_disjoint_held (.inl rfl) hw'.underway.responsive, ?_⟩
      exact hw'.overwrote.cons hallowed
    refine (keeps_restoreServerDatabase hw3 hrestored).bind
      (fun error w' h => h.1.engaged (hstill.engaged hengaged)) fun _ w4 hw4 h4 => ?_
    have hengaged4 := h4.1.engaged (hstill.engaged hengaged)
    exact (keeps_engaged_journal hw4 hengaged4 (hengaged4.backs_any hw4.underway) rfl rfl).mono
      fun r w' h => h.1
  · exact keeps_pure hw hengaged

theorem keeps_prepareServerDatabaseTransition (hw : u.Held allowed base w)
    (hengaged : u.Engaged Stage.precedesCandidate directory w) (hothers : u.Others directory w) :
    u.Keeps allowed base (prepareServerDatabaseTransition formats u.plan directory u.planSha256) w
      fun _ w' => u.Engaged Stage.precedesCandidate directory w' := by
  obtain ⟨transaction, htransaction⟩ := Option.isSome_iff_exists.mp u.transaction
  unfold prepareServerDatabaseTransition
  rw [htransaction]
  refine hw.steady.skip writes_readServerAuthenticatedJson (fun _ _ h => h.engaged hengaged)
    fun metadata w1 h1 => ?_
  refine h1.skip writes_ensure (fun _ _ h => h.engaged hengaged) fun _ w2 h2 => ?_
  cases transaction with
  | apply context =>
    refine h2.skip writes_expect (fun _ _ h => h.engaged hengaged) fun _ w3 h3 => ?_
    refine h3.skip writes_readAuthenticatedSnapshot (fun _ _ h => h.engaged hengaged)
      fun _ w4 h4 => ?_
    refine h4.skip writes_validateSnapshotMetadata (fun _ _ h => h.engaged hengaged)
      fun _ w5 h5 => ?_
    refine h5.skip writes_preflightServerDatabase (fun _ _ h => h.engaged hengaged)
      fun _ w6 ⟨hw6, h6⟩ => ?_
    have hengaged6 := h6.engaged hengaged
    exact (keeps_engaged_journal hw6 hengaged6 (hengaged6.backs_any hw6.underway) rfl rfl).mono
      fun r w' h => h.1
  | rollback context =>
    refine h2.skip (writes_inspectServerDatabase.bind fun _ => writes_ensure)
      (fun _ _ h => h.engaged hengaged) fun _ w3 ⟨hw3, h3⟩ => ?_
    exact keeps_manualRollback hpermits htransaction hw3 (h3.engaged hengaged) (h3.others hothers)

end Transition

/-- The stages between the backup and the end of the update. -/
def installing (stage : Stage) : Bool :=
  stage.precedesCandidate || isServerCandidateHandoffStage stage

theorem handoff_spec (h : isServerCandidateHandoffStage stage = true) :
    stage.isTerminal = false ∧ stage.precedesCandidate = false := by
  cases stage <;> first | exact ⟨rfl, rfl⟩ | cases h

theorem Engaged.installing_of_precedes (hw : u.Engaged Stage.precedesCandidate directory w) :
    u.Engaged installing directory w := hw.mono fun _ h => Bool.or_eq_true_iff.mpr (.inl h)

theorem Engaged.installing_of_handoff (hw : u.Engaged isServerCandidateHandoffStage directory w) :
    u.Engaged installing directory w := hw.mono fun _ h => Bool.or_eq_true_iff.mpr (.inr h)

theorem keeps_executeServerCandidateHandoff (hw : u.Held allowed base w)
    (hengaged : u.Engaged Stage.precedesCandidate directory w) :
    u.Keeps allowed base (executeServerCandidateHandoff formats u.plan u.planSha256 directory) w
      fun _ w' => u.Engaged installing directory w' := by
  refine hw.steady.skip writes_ensure (fun _ _ h => (h.engaged hengaged).installing_of_precedes)
    fun _ w1 h1 => ?_
  refine h1.quiet (writes_prepareServerReadinessRequest subset_rfl)
    readinessFiles_disjoint_watched returns_trivial
    (fun _ _ h => (h.engaged hengaged).installing_of_precedes) fun request w2 ⟨hw2, h2⟩ _ => ?_
  have hengaged2 := h2.engaged hengaged
  refine (keeps_engaged_journal hw2 hengaged2.installing_of_precedes
    (hengaged2.backs_any hw2.underway) rfl rfl).bind (fun error w' h => h.1)
    fun _ w3 hw3 h3 => ?_
  have hengaged3 : u.Engaged isServerCandidateHandoffStage directory w3 := (h3.2.2 _ rfl).engaged rfl
  refine (keeps_engaged_restart hw3 hengaged3 fun _ => handoff_spec).bind
    (fun error w' h => h.1.installing_of_handoff) fun _ w4 hw4 h4 => ?_
  have hbacks4 : u.Backs .candidateStarted directory w4 :=
    (h4.1.backs_late hw4.underway).advance nofun
  refine (keeps_engaged_journal hw4 h4.1 hbacks4 rfl rfl).bind
    (fun error w' h => h.1.installing_of_handoff) fun _ w5 hw5 h5 => ?_
  refine hw5.steady.quiet (writes_waitForServerBusinessReadiness subset_rfl)
    readinessFiles_disjoint_watched returns_trivial
    (fun _ _ h => (h.engaged h5.1).installing_of_handoff) fun _ w6 ⟨hw6, h6⟩ _ => ?_
  have hengaged6 := h6.engaged h5.1
  have hbacks6 : u.Backs .candidateReady directory w6 :=
    (hengaged6.backs_late hw6.underway).advance nofun
  exact (keeps_engaged_journal hw6 hengaged6 hbacks6 rfl rfl).mono
    fun r w' h => h.1.installing_of_handoff

theorem restart_of_not_handoff (h : ¬ serverCandidateServiceHandoffRequired u.plan = true) :
    restartServiceAfterUpdate u.plan = pure () := by
  unfold restartServiceAfterUpdate
  unfold serverCandidateServiceHandoffRequired at h
  rw [u.product] at h
  exact if_neg h

/-- **While the candidate is installed, the journal names the backup**, and it says when the candidate
may have been started. -/
theorem keeps_installCandidate (hpermits : u.Permits allowed) (hw : u.Held allowed base w)
    (hengaged : u.Engaged Stage.precedesCandidate directory w) (hothers : u.Others directory w) :
    u.Keeps allowed base (installCandidate formats u.plan u.planSha256 directory) w
      fun _ w' => u.Engaged installing directory w' := by
  refine (keeps_prepareServerDatabaseTransition hpermits hw hengaged hothers).bind
    (fun error w' h => h.installing_of_precedes) fun _ w1 hw1 hengaged1 => ?_
  refine (keeps_engaged (writes_atomicReplaceWithRetryInner subset_rfl)
    executableFiles_disjoint_held liveDatabase_notMem_executableFiles
    hw1 hengaged1 (fun _ => precedesCandidate_spec) returns_trivial).bind
    (fun error w' h => h.1.installing_of_precedes) fun _ w2 hw2 h2 => ?_
  have hstill : ∀ (_ : UpdateError) w', u.Still w2 w' → u.Engaged installing directory w' :=
    fun _ _ h => (h.engaged h2.1).installing_of_precedes
  refine hw2.steady.skip writes_sha256File hstill fun _ w3 h3 => ?_
  refine h3.skip writes_ensure hstill fun _ w4 h4 => ?_
  refine h4.skip writes_verifyInstalledVersion hstill fun _ w5 ⟨hw5, h5⟩ => ?_
  split_ifs with hhandoff
  · exact keeps_executeServerCandidateHandoff hw5 (h5.engaged h2.1)
  · rw [restart_of_not_handoff hhandoff]
    exact keeps_pure hw5 (h5.engaged h2.1).installing_of_precedes

end Install

end ServerUpdate

end LinkLake.Updater
