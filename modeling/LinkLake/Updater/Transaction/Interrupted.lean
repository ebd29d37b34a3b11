import LinkLake.Updater.Transaction.Returns

/-!
# Updates of the client and the manager that are cut off

An update is scheduled and then run by the helper, and either may be cut off anywhere or stop on an
error (`Update`). As long as the active marker is there, nothing is known of the installed executable;
once it is gone again, the update has settled: the executable is the staged one if the journal has
reached `completed`, and the previous one otherwise (`settled_of_update`).

So an update whose marker has been cleared needs no recovery, and `recover` says so. An update whose
marker is still there cannot be recovered at all: the journal is in an envelope, and `recover` reads it
as a bare journal. For the same reason `verifyCompletedUpdate` never succeeds.
-/

namespace LinkLake.Updater

open CrashMachine FiniteMap

section Update

variable (formats : Formats)

/-- The journal of an operation of the client or the manager has reached `completed`. -/
def World.Completed (operationId : Uuid) (w : World) : Prop :=
  ∃ envelope, w.files.get? (.journal operationId) = some (.document (.envelope envelope)) ∧
    envelope.payload.stage = .completed

/-- The installed executable is the staged one if the journal has reached `completed`, and the
previous one otherwise. -/
def World.Settled (operationId : Uuid) (previous staged : String) (w : World) : Prop :=
  (w.Completed operationId → w.installedSha256 formats = some staged) ∧
    (¬ w.Completed operationId → w.installedSha256 formats = some previous)

end Update

variable {operationId : Uuid} {staged planSha256 : String} {α β : Type} {w w' : World}
  {plan : HelperPlan} {files : Set FileName} {product owner : UpdateProduct} {schedule : Schedule}
  {content : Content}

section Rules

variable {formats : Formats} {previous : String}

theorem World.Completed.congr (h : w'.files.get? (.journal operationId) =
    w.files.get? (.journal operationId)) : w'.Completed operationId ↔ w.Completed operationId := by
  rw [World.Completed, World.Completed, h]

theorem World.Settled.congr (hw : w.Settled formats operationId previous staged)
    (htarget : w'.files.get? .target = w.files.get? .target)
    (hjournal : w'.files.get? (.journal operationId) = w.files.get? (.journal operationId)) :
    w'.Settled formats operationId previous staged := by
  unfold World.Settled World.installedSha256 at hw ⊢
  rw [World.Completed.congr hjournal, htarget]
  exact hw

end Rules

section Helper

variable {formats : Formats} {previous : String} {backup : BackupName} {p : Program Action.Answer α}
  {error : UpdateError}

theorem returns_restoreExecutable : Returns formats (restoreExecutable plan backup) w fun _ w' =>
      w'.installedSha256 formats = some plan.expectedTargetSha256 := by
  refine returns_after fun _ w1 => ?_
  have hrest : Writes plan.product {.liveDatabase} (do
      verifyInstalledVersion .target plan.fromVersion
      restartServiceAfterUpdate plan : Call Unit).run :=
    writes_verifyInstalledVersion.seq <| writes_restartServiceAfterUpdate rfl
  exact returns_checkedTarget hrest (by simp)

theorem returns_restoreAfterFailure :
    Returns formats (restoreAfterFailure formats plan backup planSha256) w fun _ w' =>
      w'.installedSha256 formats = some plan.expectedTargetSha256 := by
  refine returns_after fun _ _ => returns_after fun _ _ => ?_
  split_ifs
  · exact returns_after fun _ _ => returns_after fun _ _ =>
      returns_after fun _ _ => returns_after fun _ _ =>
        returns_after fun _ _ => returns_restoreExecutable
  · exact returns_after fun _ _ => returns_restoreExecutable

/-- How the replacement ends: the staged executable is installed, or it has failed with a backup to go
back to, or it has failed before the executable was touched. -/
def Replacement (formats : Formats) (plan : HelperPlan) (w : World) :
    Except (UpdateError × Option BackupName) BackupName → World → Prop
  | .ok _, w' => w'.installedSha256 formats = some plan.stagedSha256
  | .error (_, none), w' => w'.files.get? .target = w.files.get? .target
  | .error (_, some _), _ => True

theorem ensures_kept (file : FileName) (hp : Writes product files p) (hfile : file ∉ files) :
    (system formats).Guards anywhere (fun _ => True)
      (fun _ w' => w'.files.get? file = w.files.get? file) p w :=
  (guards_kept hp hfile).mono (fun _ _ => trivial) fun _ _ => id

theorem replacement_abandonUpdate {w' : World} (h : w'.files.get? .target = w.files.get? .target) :
    (system formats).Guards anywhere (fun _ => True) (Replacement formats plan w)
      (abandonUpdate plan error) w' := by
  have hrestart : Writes plan.product {.liveDatabase} (restartServiceAfterUpdate plan).run :=
    writes_restartServiceAfterUpdate rfl
  refine (ensures_kept .target hrestart (by simp)).bind fun _ w'' h' => ⟨trivial, ?_⟩
  exact h'.trans h

theorem replacement_executeWithBackup {w' : World} :
    (system formats).Guards anywhere (fun _ => True) (Replacement formats plan w)
      (executeWithBackup formats plan planSha256 backup) w' := by
  have hinstall : Returns formats (do
      writeOperationJournal formats plan planSha256 .backupCreated (some backup) none
      installCandidate formats plan planSha256 backup) w' fun _ w'' =>
        w''.installedSha256 formats = some plan.stagedSha256 :=
    returns_after fun _ _ => returns_installCandidate
  refine Guards.bind hinstall fun r w'' h => ⟨trivial, ?_⟩
  cases r with
  | error error => trivial
  | ok _ => exact h _ rfl

theorem target_notMem_backups : FileName.target ∉ ⋃ directory, backupFiles directory := by
  simp

theorem replacement_executeHelperInner :
    (system formats).Guards anywhere (fun _ => True) (Replacement formats plan w)
      (executeHelperInner formats plan planSha256) w := by
  have hstop : Writes plan.product ∅ (stopServiceForUpdate plan).run := writes_stopServiceForUpdate
  have hbackup : Writes plan.product (⋃ directory, backupFiles directory)
      (createBackup formats plan planSha256).run :=
    writes_createBackup fun directory => Set.subset_iUnion _ directory
  refine (ensures_kept .target hstop (Set.notMem_empty _)).bind fun r w1 h1 => ?_
  cases r with
  | error error => exact ⟨trivial, h1⟩
  | ok _ =>
    refine (ensures_kept .target (writes_writeOperationJournal subset_rfl) (by simp)).bind
      fun r w2 h2 => ?_
    cases r with
    | error error => exact replacement_abandonUpdate (h2.trans h1)
    | ok _ =>
      refine (ensures_kept .target hbackup target_notMem_backups).bind fun r w3 h3 => ?_
      cases r with
      | error error => exact replacement_abandonUpdate (h3.trans (h2.trans h1))
      | ok backup => exact replacement_executeWithBackup

theorem returns_writeOperationJournal {stage : Stage} {backup : Option BackupName}
    {error : Option UpdateError} (hproduct : plan.product ≠ .server) :
    Returns formats (writeOperationJournal formats plan planSha256 stage backup error) w
      fun _ w' => ∃ envelope, w'.files.get? (.journal plan.operationId) =
        some (.document (.envelope envelope)) ∧ envelope.payload.stage = stage := by
  refine returns_after fun _ _ => returns_after fun now w2 => ?_
  rw [if_neg hproduct]
  refine returns_writeDurableJson.mono fun _ w' h => ?_
  rw [h]
  exact ⟨_, get?_insert_self _ _ _, rfl⟩

/-- The update is in progress, or it has settled. -/
def World.Held (formats : Formats) (operationId : Uuid) (previous staged : String) (w : World) :
    Prop :=
  w.files.get? .active ≠ none ∨ w.Settled formats operationId previous staged

theorem active_notMem_updateFiles : FileName.active ∉ updateFiles operationId := by
  simp

theorem guards_marked {post : α → World → Prop} (hp : Writes product (updateFiles operationId) p)
    (hmarker : w.files.get? .active ≠ none)
    (hpost : (system formats).Guards anywhere (fun _ => True) post p w) :
    (system formats).Guards anywhere (World.Held formats operationId previous staged)
      (fun r w' => w'.files.get? .active ≠ none ∧ post r w') p w := by
  refine ((guards_kept hp active_notMem_updateFiles).and hpost).mono (fun w' h => .inl ?_)
    fun r w' h => ⟨?_, h.2⟩
  · rw [h.1]
    exact hmarker
  · rw [h.1]
    exact hmarker

theorem guards_marked_bind {β : Type} {x : Call α} {f : α → Call β}
    {P : α → World → Prop} (hx : Writes product (updateFiles operationId) x.run)
    (hmarker : w.files.get? .active ≠ none) (hP : Returns formats x w P)
    (hf : ∀ a w', w'.files.get? .active ≠ none → P a w' →
      Preserves formats (World.Held formats operationId previous staged) (f a).run w') :
    Preserves formats (World.Held formats operationId previous staged) (x >>= f).run w :=
  (guards_marked hx hmarker hP).except_bind (fun _ _ h => ⟨.inl h.1, .inl h.1⟩)
    fun a w' h => hf a w' h.1 (h.2 a rfl)

theorem guards_releaseMarker {wanted : Bool} (hw : w.Settled formats operationId previous staged) :
    Preserves formats (World.Held formats operationId previous staged)
      (releaseMarker formats plan wanted).run w := by
  have hwrites : Writes plan.product (authenticated .active)
      (releaseMarker formats plan wanted).run := writes_releaseMarker subset_rfl
  have htarget : FileName.target ∉ authenticated .active := by simp
  have hjournal : FileName.journal operationId ∉ authenticated .active := by simp
  refine ((guards_kept hwrites htarget).and (guards_kept hwrites hjournal)).mono
    (fun w' h => .inr (hw.congr h.1 h.2)) fun _ w' h => .inr (hw.congr h.1 h.2)

section Finish

variable (hproduct : plan.product ≠ .server)
include hproduct

variable (hmarker : w.files.get? .active ≠ none)
include hmarker

theorem guards_finishSuccess {backup : BackupName}
    (hinstalled : w.installedSha256 formats = some staged) :
    Preserves formats (World.Held formats plan.operationId previous staged)
      (finishSuccess formats plan planSha256 backup).run w := by
  have hstatus : ∀ state, Writes plan.product {.status}
      (writeStatus plan state "component binary and service state were verified" none
        (some backup)).run := fun state => writes_writeStatus rfl
  have hjournal : Writes plan.product (authenticated (.journal plan.operationId))
      (writeOperationJournal formats plan planSha256 .completed (some backup) none).run :=
    writes_writeOperationJournal subset_rfl
  refine guards_marked_bind ((hstatus _).mono (by simp)) hmarker
    (returns_installed (hstatus _) (by simp) hinstalled) fun _ w1 hmarker1 h1 => ?_
  refine guards_marked_bind (hjournal.mono journal_subset) hmarker1
    ((returns_writeOperationJournal hproduct).and
      (returns_installed hjournal (by simp) h1)) fun _ w2 _ h2 => ?_
  have hcompleted := h2.1
  rw [clearReadiness, if_neg hproduct]
  change (system formats).Guards anywhere _ _ (releaseMarker formats plan true).run w2
  exact guards_releaseMarker ⟨fun _ => h2.2, fun h => (h hcompleted).elim⟩

theorem guards_finishFailure {backup : Option BackupName} {ending : Ending}
    (hending : ending.clearActive = true →
      ending.stage ≠ .completed ∧ w.installedSha256 formats = some previous) :
    Preserves formats (World.Held formats plan.operationId previous staged)
      (finishFailure formats plan planSha256 backup ending).run w := by
  have hstatus : Writes plan.product {.status}
      (writeStatus plan ending.state ending.message (some ending.error) backup).run :=
    writes_writeStatus rfl
  have hjournal : Writes plan.product (authenticated (.journal plan.operationId))
      (writeOperationJournal formats plan planSha256 ending.stage backup
        (some ending.error)).run := writes_writeOperationJournal subset_rfl
  have htarget : FileName.target ∉ ({.status} : Set FileName) := by simp
  have htarget' : FileName.target ∉ authenticated (.journal plan.operationId) := by
    simp
  refine guards_marked_bind (hstatus.mono (by simp)) hmarker
    (returns_kept hstatus htarget) fun _ w1 hmarker1 h1 => ?_
  refine guards_marked_bind (hjournal.mono journal_subset) hmarker1
    ((returns_writeOperationJournal hproduct).and (returns_kept hjournal htarget'))
    fun _ w2 hmarker2 ⟨⟨envelope, hget, hequal⟩, hkept⟩ => ?_
  refine Guards.seq ?_ fun _ w3 h3 => ⟨h3, h3⟩
  cases hclear : ending.clearActive with
  | false => exact ⟨.inl hmarker2, .inl hmarker2⟩
  | true =>
    obtain ⟨hne, hinstalled⟩ := hending hclear
    have hunfinished : ¬ w2.Completed plan.operationId := by
      rintro ⟨envelope', hget', hequal'⟩
      rw [hget] at hget'
      cases hget'
      exact hne (hequal.symm.trans hequal')
    refine guards_releaseMarker ⟨fun h => (hunfinished h).elim, fun _ => ?_⟩
    rw [World.installedSha256, hkept, h1]
    exact hinstalled

end Finish

theorem returns_automaticRollback {backup : Option BackupName} :
    Returns formats (automaticRollback formats plan planSha256 backup) w fun r w' =>
      match r with
      | some _ => w'.installedSha256 formats = some plan.expectedTargetSha256
      | none => backup = none ∧ w' = w := by
  cases backup with
  | none => exact returns_pure.mono fun r w' h => by rw [h.1, h.2]; exact ⟨rfl, rfl⟩
  | some backup =>
    refine returns_restoreAfterFailure.bind fun _ w1 h1 => returns_pure.mono fun r w2 h2 => ?_
    rw [h2.1, h2.2]
    exact h1

theorem guards_handleFailure {backup : Option BackupName}
    (hproduct : plan.product ≠ .server) (hmarker : w.files.get? .active ≠ none)
    (hbackup : backup = none → w.installedSha256 formats = some plan.expectedTargetSha256) :
    Preserves formats (World.Held formats plan.operationId plan.expectedTargetSha256 staged)
      (handleFailure formats plan planSha256 error backup).run w := by
  unfold handleFailure serverHandoffFailureRoute
  rw [if_neg hproduct]
  refine Guards.lift_bind (guards_marked writes_automaticRollback hmarker
    returns_automaticRollback) fun rollback w1 ⟨hmarker1, hrollback⟩ => ?_
  refine guards_finishFailure hproduct hmarker1 fun hclear => ?_
  match rollback, hrollback with
  | .ok (some _), hrollback => exact ⟨nofun, hrollback _ rfl⟩
  | .ok none, hrollback =>
    obtain ⟨hnone, rfl⟩ := hrollback _ rfl
    exact ⟨nofun, hbackup hnone⟩
  | .error _, _ => cases hclear

/-- **The helper settles the update before it clears the marker.** -/
theorem guards_executeHelper (hproduct : plan.product ≠ .server)
    (hmarker : w.files.get? .active ≠ none)
    (hinstalled : w.installedSha256 formats = some plan.expectedTargetSha256) :
    Preserves formats
      (World.Held formats plan.operationId plan.expectedTargetSha256 plan.stagedSha256)
      (executeHelper formats plan planSha256).run w := by
  have hjournal : Writes plan.product (authenticated (.journal plan.operationId))
      (writeOperationJournal formats plan planSha256 .helperStarted none none).run :=
    writes_writeOperationJournal subset_rfl
  have hstatus : Writes plan.product {.status} (writeStatus plan "installing"
      "verifying and replacing the LinkLake component binary" none none).run :=
    writes_writeStatus rfl
  refine guards_marked_bind (hjournal.mono journal_subset) hmarker
    (returns_installed hjournal (by simp) hinstalled) fun _ w1 hmarker1 h1 => ?_
  refine guards_marked_bind (hstatus.mono (by simp)) hmarker1
    (returns_installed hstatus (by simp) h1) fun _ w2 hmarker2 h2 => ?_
  refine Guards.lift_bind (guards_marked writes_executeHelperInner hmarker2
    replacement_executeHelperInner) fun r w3 h3 => ?_
  obtain ⟨hmarker3, hreplacement⟩ := h3
  obtain ⟨error, _ | backup⟩ | backup := r
  · refine guards_handleFailure hproduct hmarker3 fun _ => ?_
    rw [World.installedSha256, hreplacement]
    exact h2
  · exact guards_handleFailure hproduct hmarker3 (by simp)
  · exact guards_finishSuccess hproduct hmarker3 hreplacement

end Helper

section Start

variable {formats : Formats} {previous : String} {x : Call α}

/-- Until the helper runs, the previous executable is installed, the journal has not reached
`completed`, and the plan, if there is one, is that of the update. -/
structure World.Started (formats : Formats) (schedule : Schedule) (previous : String) (w : World) :
    Prop where
  installed : w.installedSha256 formats = some previous
  unfinished : ¬ w.Completed schedule.operationId
  plan : ∀ plan, w.files.get? (.plan schedule.operationId) = some (.document (.plan plan)) →
    plan.Follows schedule previous

theorem World.Started.held {staged : String} (hw : w.Started formats schedule previous) :
    w.Held formats schedule.operationId previous staged :=
  .inr ⟨fun h => (hw.unfinished h).elim, fun _ => hw.installed⟩

theorem World.Started.congr (hw : w.Started formats schedule previous)
    (h : ∀ file ∈ ({.target, .journal schedule.operationId,
      .plan schedule.operationId} : Set FileName), w'.files.get? file = w.files.get? file) :
    w'.Started formats schedule previous := by
  have htarget := h .target (by simp)
  have hjournal := h (.journal schedule.operationId) (by simp)
  have hplan := h (.plan schedule.operationId) (by simp)
  refine ⟨?_, ?_, ?_⟩
  · rw [World.installedSha256, htarget]
    exact hw.installed
  · rw [World.Completed.congr hjournal]
    exact hw.unfinished
  · rw [hplan]
    exact hw.plan

theorem guards_started {p : Program Action.Answer α} (hp : Writes product files p)
    (hfiles : Disjoint files {.target, .journal schedule.operationId, .plan schedule.operationId})
    (hw : w.Started formats schedule previous) :
    Preserves formats (World.Started formats schedule previous) p w := by
  refine guards_of_only hp hw (fun choice s action haction hs => ?_)
    fun choice s action haction hs => ?_
  · exact hs.congr fun file hfile => (effect_perform formats choice s action).get?_eq
      fun h => Set.disjoint_left.mp hfiles (haction.1 file h) hfile
  · exact hs.congr fun file hfile => (effect_torn formats choice s action).get?_eq
      fun h => Set.disjoint_left.mp hfiles (haction.1 file h) hfile

theorem World.Started.setPlan (hw : w.Started formats schedule previous)
    (hplan : plan.Follows schedule previous) :
    (w.setFile (.plan schedule.operationId) (.document (.plan plan))).Started formats schedule
      previous := by
  refine ⟨?_, ?_, fun found hget => ?_⟩
  · rw [World.installedSha256, World.setFile, get?_insert_of_ne (by simp)]
    exact hw.installed
  · rw [World.Completed.congr (w := w) (get?_insert_of_ne (by simp))]
    exact hw.unfinished
  · rw [World.setFile, get?_insert_self] at hget
    cases hget
    exact hplan

theorem World.Started.setJournal {envelope : JournalEnvelope}
    (hw : w.Started formats schedule previous) (hstage : envelope.payload.stage ≠ .completed) :
    (w.setFile (.journal schedule.operationId) (.document (.envelope envelope))).Started formats
      schedule previous := by
  refine ⟨?_, ?_, fun found hget => hw.plan found ?_⟩
  · rw [World.installedSha256, World.setFile, get?_insert_of_ne (by simp)]
    exact hw.installed
  · rintro ⟨found, hget, hcompleted⟩
    rw [World.setFile, get?_insert_self] at hget
    cases hget
    exact hstage hcompleted
  · rw [World.setFile, get?_insert_of_ne (by simp)] at hget
    exact hget

theorem guards_started_reads (hx : Writes schedule.product ∅ x.run)
    (hw : w.Started formats schedule previous) :
    Preserves formats (World.Started formats schedule previous) x.run w :=
  guards_started hx (Set.empty_disjoint _) hw

theorem guards_started_release {wanted : Bool} (hw : w.Started formats schedule previous) :
    Preserves formats (World.Started formats schedule previous)
      (releaseMarker formats plan wanted).run w := by
  have hrelease : Writes plan.product (authenticated .active)
      (releaseMarker formats plan wanted).run := writes_releaseMarker subset_rfl
  exact guards_started hrelease (by simp) hw

theorem writeState_of_ne {file : FileName} {purpose : Purpose}
    {document : Document} (h : owner ≠ .server) :
    writeState formats owner file purpose document = writeDurableJson file document := if_neg h

section Plan

variable (hplan : plan.Follows schedule previous) (hproduct : schedule.product ≠ .server)
include hplan hproduct

theorem guards_started_journal {stage : Stage} {backup : Option BackupName}
    {error : Option UpdateError} (hstage : stage ≠ .completed) (hw : w.Started formats schedule previous) :
    Preserves formats (World.Started formats schedule previous)
      (writeOperationJournal formats plan planSha256 stage backup error).run w := by
  refine Guards.seq (guards_started_reads writes_ensure hw) fun _ w1 h1 => ?_
  refine Guards.seq (guards_started_reads (writes_read .clock rfl) h1) fun now w2 h2 => ?_
  rw [if_neg (hplan.product ▸ hproduct), hplan.operationId]
  exact guards_writeDurableJson h2 (h2.setJournal hstage)

variable (hw : w.Started formats schedule previous)
include hw

theorem guards_started_publishPlan :
    Preserves formats (World.Started formats schedule previous) (publishPlan formats plan).run w := by
  have hnot := hplan.product ▸ hproduct
  have hactive : ∀ active, Writes plan.product {.active}
      (writeDurableJson .active (.active active)).run := fun _ => writes_writeDurableJson rfl trivial
  refine Guards.seq ?_ fun _ w1 h1 => ?_
  · rw [writeState_of_ne hnot, hplan.operationId]
    exact guards_writeDurableJson hw (hw.setPlan hplan)
  refine Guards.seq (guards_started_journal hplan hproduct nofun h1) fun _ w2 h2 => ?_
  refine Guards.seq (guards_started_reads (writes_read .clock rfl) h2) fun now w3 h3 => ?_
  rw [writeState_of_ne hnot]
  exact guards_started (hactive _) (by simp) h3

theorem guards_started_guarded : Preserves formats (World.Started formats schedule previous)
      (guarded formats plan (launchHelper formats plan planSha256)).run w :=
  guards_launch (fun _ hx => guards_started hx (by simp))
    (fun _ => guards_started_journal hplan hproduct nofun) (fun _ => guards_started_release) hw

end Plan

theorem guards_scheduleUpdate (hproduct : schedule.product ≠ .server)
    (hw : w.Started formats schedule previous) :
    Preserves formats (World.Started formats schedule previous)
      (scheduleUpdate formats schedule).run w := by
  refine Guards.seq (guards_started_reads writes_acquireLock hw) fun _ w1 h1 => ?_
  refine Guards.seq (guards_started_reads (writes_read (.exists .active) rfl) h1)
    fun active w2 h2 => ?_
  refine Guards.seq (guards_started_reads writes_ensure h2) fun _ w3 h3 => ?_
  refine (guards_started_reads writes_preparePlan h3).step (returns_preparePlan h3.installed)
    (fun _ => id) fun plan w4 h4 hplan => ?_
  refine Guards.seq (guards_started_publishPlan hplan hproduct h4) fun _ w5 h5 => ?_
  exact Guards.seq (guards_started_guarded hplan hproduct h5) fun _ w6 h6 => ⟨h6, h6⟩

theorem guards_runHelper (hproduct : schedule.product ≠ .server)
    (hw : w.Started formats schedule previous) :
    Preserves formats (World.Held formats schedule.operationId previous schedule.staged.binarySha256)
      (runHelper formats schedule.operationId planSha256).run w := by
  refine guards_helper schedule.product (fun _ hx => guards_started hx (by simp))
    (fun _ h => h.held) (fun plan w1 hget _ h1 hactive => ?_) hw
  obtain ⟨hid, hplanProduct, hstaged, hprevious, -⟩ := hw.plan plan hget
  have hinstalled := h1.installed
  rw [← hid, ← hstaged, ← hprevious] at *
  exact guards_executeHelper (hplanProduct ▸ hproduct) hactive hinstalled

theorem World.Started.of_fresh (htarget : w.files.get? .target = some content)
    (hjournal : w.files.get? (.journal schedule.operationId) = none)
    (hplan : w.files.get? (.plan schedule.operationId) = none) :
    w.Started formats schedule (formats.sha256 content) := by
  refine ⟨?_, ?_, fun plan hget => ?_⟩
  · rw [World.installedSha256, htarget]
    rfl
  · rintro ⟨envelope, hget, -⟩
    rw [hjournal] at hget
    cases hget
  · rw [hplan] at hget
    cases hget

/-- **An update whose marker is gone has settled.** -/
theorem settled_of_update (hproduct : schedule.product ≠ .server)
    (hw : w.Started formats schedule previous) (hupdate : Update formats schedule w w')
    (hcleared : w'.files.get? .active = none) :
    w'.Settled formats schedule.operationId previous schedule.staged.binarySha256 := by
  have hheld : w'.Held formats schedule.operationId previous schedule.staged.binarySha256 := by
    cases hupdate with
    | scheduled h => exact ((guards_scheduleUpdate hproduct hw).of_ends h).held
    | helped h h' =>
      exact (guards_runHelper hproduct ((guards_scheduleUpdate hproduct hw).of_ends h)).of_ends h'
  exact hheld.resolve_left fun h => h hcleared

/-! ### Files keep to their kinds -/

theorem guards_sound_reads (hx : Writes product ∅ x.run) (hw : w.Sound product) :
    Preserves formats (World.Sound product) x.run w := guards_sound hx hw

theorem guards_sound_scheduleUpdate (hw : w.Sound schedule.product) :
    Preserves formats (World.Sound schedule.product) (scheduleUpdate formats schedule).run w := by
  refine Guards.seq (guards_sound_reads writes_acquireLock hw) fun _ w1 h1 => ?_
  refine Guards.seq (guards_sound_reads (writes_read (.exists .active) rfl) h1)
    fun active w2 h2 => ?_
  refine Guards.seq (guards_sound_reads writes_ensure h2) fun _ w3 h3 => ?_
  refine (guards_sound_reads writes_preparePlan h3).step returns_preparePlan_product (fun _ => id)
    fun plan w4 h4 hproduct => ?_
  rw [← hproduct]
  have hsound : w4.Sound plan.product := hproduct ▸ h4
  exact guards_sound (writes_publishPlan.seq <| writes_guarded.seq <| writes_pure) hsound

theorem guards_sound_runHelper {operationId : Uuid} (hw : w.Sound product) (hplan : ∀ plan,
      w.files.get? (.plan operationId) = some (.document (.plan plan)) → plan.product = product) :
    Preserves formats (World.Sound product) (runHelper formats operationId planSha256).run w := by
  refine guards_helper product (fun _ hx => guards_sound hx) (fun _ => id)
    (fun plan w1 hget _ h1 _ => ?_) hw
  obtain rfl := hplan plan hget
  exact guards_sound writes_executeHelper h1

theorem sound_of_update (hproduct : schedule.product ≠ .server)
    (hw : w.Started formats schedule previous) (hsound : w.Sound schedule.product)
    (hupdate : Update formats schedule w w') : w'.Sound schedule.product := by
  cases hupdate with
  | scheduled h => exact (guards_sound_scheduleUpdate hsound).of_ends h
  | helped h h' =>
    have hstarted := (guards_scheduleUpdate hproduct hw).of_ends h
    have hsound' := (guards_sound_scheduleUpdate hsound).of_ends h
    exact (guards_sound_runHelper hsound' fun plan hget => (hstarted.plan plan hget).product).of_ends
      h'

end Start

section Recovery

variable {formats : Formats}

theorem succeeds_status (hsound : w.Sound product) :
    Succeeds formats status w fun _ w' => w' = w := by
  refine succeeds_exists.bind ?_
  cases hget : w.files.get? .status with
  | none =>
    have hversion : Succeeds formats (sys (.version .target)) w fun _ w' => w' = w :=
      succeeds_sys fun _ _ => rfl
    refine hversion.bind fun version w1 h1 => succeeds_clock.bind fun now w2 h2 => ?_
    exact succeeds_pure (h2.trans h1)
  | some content =>
    have hholds := hsound .status content hget
    cases content with
    | binary bytes => exact hholds.elim
    | document document =>
      cases document with
      | status found =>
        have hparse : Content.status? (.document (.status found)) = some found := rfl
        exact (succeeds_readDurableJson hget hparse).mono fun _ _ h => h.2
      | _ => exact hholds.elim

theorem succeeds_recover (hproduct : product ≠ .server) (hsound : w.Sound product)
    (hcleared : w.files.get? .active = none) :
    Succeeds formats (recover formats product true) w fun _ w' => w' = w := by
  refine (succeeds_ensure (by simpa using hproduct)).bind ?_
  refine (succeeds_ensure rfl).bind (succeeds_acquireLock.bind ?_)
  refine succeeds_exists.bind ?_
  rw [hcleared]
  exact succeeds_status hsound

/-- What it takes to schedule an update of the client or the manager. -/
structure Schedulable (formats : Formats) (schedule : Schedule) (w : World) : Prop where
  staged : schedule.staged.product = schedule.product
  transaction : schedule.serverDatabase = none
  installed : ∃ content, w.files.get? .target = some content ∧
    ∀ version, formats.version content = some version → schedule.staged.currentVersion = version
  binary : ∃ content, w.files.get? schedule.staged.stagedExecutable = some content ∧
    formats.sha256 content = schedule.staged.binarySha256
  service : w.service ≠ .transitioning ∧ w.service ≠ .unknown
  operation : schedule.operationId.isNil = false ∧ w.operations.get? schedule.operationId = none
  updater : ∃ content, w.files.get? .updater = some content

section Schedule

variable {error : Option UpdateError}

theorem succeeds_preparePlan (hproduct : schedule.product ≠ .server)
    (h : Schedulable formats schedule w) :
    Succeeds formats (preparePlan formats schedule) w fun plan w' =>
      plan.product = schedule.product ∧ w'.files = w.files := by
  obtain ⟨target, htarget, hversion⟩ := h.installed
  obtain ⟨binary, hbinary, hdigest⟩ := h.binary
  refine (succeeds_ensure (by simp [h.staged])).bind ?_
  refine (succeeds_ensure (by simp [h.transaction, hproduct])).bind ?_
  refine Answers.bind (succeeds_exists.bind (succeeds_ensure (by rw [htarget]; rfl))) ?_
  refine (succeeds_version htarget).bind ((succeeds_ensure ?_).bind ?_)
  · cases hfound : formats.version target with
    | none => rfl
    | some found => simp [hversion found hfound]
  refine (succeeds_sha256File hbinary).bind ?_
  rw [hdigest]
  refine (succeeds_ensure (beq_self_eq_true _)).bind ?_
  have hruntime : Succeeds formats settledRuntime w fun _ w' => w' = w := by
    have hanswer : Answers formats (sys .runtime) w (some w.service) :=
      succeeds_sys fun choice hfails => ⟨by rw [perform, if_neg (by simp [hfails])], rfl⟩
    refine hanswer.bind (Answers.bind (succeeds_expect rfl) ?_)
    cases hservice : w.service with
    | transitioning => exact (h.service.1 hservice).elim
    | unknown => exact (h.service.2 hservice).elim
    | _ => exact succeeds_pure rfl
  refine hruntime.bind fun service w1 h1 => (succeeds_ensure (by simp [h.operation.1])).bind ?_
  rw [h1]
  have hcreate : Succeeds formats (sys (.createDirectory schedule.operationId)) w
      fun created w' => created = true ∧ w'.files = w.files :=
    succeeds_sys fun choice hfails => by
      rw [perform, h.operation.2]
      simp only [settle_of_not_fails hfails]
      exact ⟨trivial, trivial⟩
  refine hcreate.bind fun created w2 h2 => (succeeds_ensure h2.1).bind ?_
  rw [h.transaction]
  refine (succeeds_ensure (by simpa using hproduct)).bind ?_
  refine (succeeds_sha256File (h2.2 ▸ htarget)).bind ?_
  refine succeeds_clock.bind fun now w3 h3 => succeeds_pure ⟨rfl, ?_⟩
  rw [h3, h2.2]

theorem succeeds_writeOperationJournal {stage : Stage} {backup : Option BackupName}
    (hproduct : plan.product ≠ .server) (hsha : isSha256 planSha256 = true) :
    Succeeds formats (writeOperationJournal formats plan planSha256 stage backup error) w
      fun _ w' => ∃ document, w' = w.setFile (.journal plan.operationId) (.document document) := by
  refine (succeeds_ensure hsha).bind (succeeds_clock.bind fun now w1 h1 => ?_)
  rw [if_neg hproduct, h1]
  exact succeeds_writeDurableJson.mono fun _ w' h => ⟨_, h⟩

theorem succeeds_publishPlan (hproduct : plan.product ≠ .server) :
    Succeeds formats (publishPlan formats plan) w fun _ w' =>
      w'.files.get? .updater = w.files.get? .updater := by
  unfold publishPlan
  rw [writeState_of_ne hproduct]
  refine succeeds_writeDurableJson.bind fun _ w1 h1 => ?_
  refine (succeeds_writeOperationJournal hproduct (formats.isSha256_sha256 _)).bind
    fun _ w2 h2 => succeeds_clock.bind fun now w3 h3 => ?_
  rw [writeState_of_ne hproduct]
  obtain ⟨document, h2⟩ := h2
  refine succeeds_writeDurableJson.mono fun _ w4 h4 => ?_
  rw [h4, h3, h2, h1]
  simp [World.setFile, get?_insert_of_ne]

theorem succeeds_writeStatus {state message : String} {backup : Option BackupName} :
    Succeeds formats (writeStatus plan state message error backup) w fun _ w' =>
      ∃ document, w' = w.setFile .status (.document document) := by
  refine succeeds_clock.bind fun now w1 h1 => succeeds_writeDurableJson.mono fun _ w2 h2 => ?_
  exact ⟨_, h1 ▸ h2⟩

theorem succeeds_launchHelper (h : w.files.get? .updater = some content) :
    Succeeds formats (launchHelper formats plan planSha256) w fun _ _ => True := by
  refine (succeeds_copyFile h).bind fun _ w1 h1 => ?_
  have hhelper : w1.files.get? (.helper plan.operationId) = some content := by
    rw [h1, World.setFile, get?_insert_self]
  have hupdater : w1.files.get? .updater = some content := by
    rw [h1, World.setFile, get?_insert_of_ne (by simp), h]
  refine (succeeds_sha256File hhelper).bind ?_
  refine (succeeds_sha256File hupdater).bind ?_
  refine (succeeds_ensure (beq_self_eq_true _)).bind ?_
  refine succeeds_writeStatus.bind fun _ w2 h2 => ?_
  have hspawn : Succeeds formats (sys (.spawn plan.operationId planSha256)) w2
      fun spawned _ => spawned = true :=
    succeeds_sys fun choice hfails => by rw [perform, hfails]; rfl
  refine hspawn.bind fun spawned w3 h3 => ?_
  rw [if_pos h3]
  exact succeeds_pure trivial

theorem succeeds_scheduleUpdate (hproduct : schedule.product ≠ .server)
    (h : Schedulable formats schedule w) (hcleared : w.files.get? .active = none) :
    Succeeds formats (scheduleUpdate formats schedule) w fun _ _ => True := by
  refine succeeds_acquireLock.bind ?_
  refine succeeds_exists.bind ?_
  rw [hcleared]
  refine (succeeds_ensure rfl).bind ?_
  refine (succeeds_preparePlan hproduct h).bind fun plan w1 h1 => ?_
  have hplan := h1.1 ▸ hproduct
  obtain ⟨content, hupdater⟩ := h.updater
  refine (succeeds_publishPlan hplan).bind fun _ w2 h2 => ?_
  rw [h1.2, hupdater] at h2
  refine Succeeds.bind (P := fun _ _ => True) ?_ fun _ _ _ => succeeds_pure trivial
  exact (succeeds_launchHelper h2).outcome_bind fun _ _ _ => succeeds_pure trivial

end Schedule

end Recovery

section Results

variable {formats : Formats} {w0 : World} {previous : Content}

theorem World.Sound.journal?_eq_none (hsound : w.Sound product) (hproduct : product ≠ .server)
    (hget : w.files.get? (.journal operationId) = some content) : content.journal? = none := by
  have hholds := hsound _ content hget
  match content, hholds with
  | .document (.journal journal), hholds => exact (hproduct hholds).elim
  | .document (.envelope envelope), _ => rfl

theorem returns_sound {x : Call α} (hx : Writes product ∅ x.run) (hsound : w.Sound product) :
    Returns formats x w fun _ w' => w'.Sound product :=
  (guards_sound hx hsound).mono (fun _ _ => trivial) fun _ _ h _ _ => h

theorem returns_recover (hproduct : product ≠ .server) (hsound : w.Sound product) :
    Returns formats (recover formats product true) w fun _ _ => w.files.get? .active = none := by
  refine returns_ensure.reads fun _ _ => returns_ensure.reads fun _ _ => ?_
  refine returns_acquireLock.bind fun _ w1 h1 => ?_
  subst h1
  refine returns_exists.reads fun present hpresent => ?_
  split_ifs with h
  · refine (returns_sound writes_readDurableJson hsound).bind fun active w2 hsound => ?_
    refine (returns_sound writes_ensure hsound).bind fun _ w3 hsound => ?_
    refine (returns_sound writes_readActivePlan hsound).bind fun _ w4 hsound => ?_
    refine (returns_sound writes_readDurableJson hsound).bind fun plan w5 hsound => ?_
    have hplan : Writes product ∅ (validateNonServerRecoveryPlan active plan).run :=
      writes_ensure.seq writes_ensure
    refine (returns_sound hplan hsound).bind fun _ w6 hsound => ?_
    refine returns_readDurableJson.bind fun journal w7 h7 => ?_
    obtain ⟨-, content, hget, hparse⟩ := h7
    rw [hsound.journal?_eq_none hproduct hget] at hparse
    cases hparse
  · refine returns_trivial.mono fun _ _ _ => ?_
    simpa [h] using hpresent

/-- **An update is recovered if and only if its marker has been cleared.** Wherever an update of the
client or the manager was cut off or has failed, `recover` succeeds and leaves the active marker
absent, the installed executable is the staged one if the journal has reached `completed` and the
previous one otherwise, and another update can be scheduled, if and only if the active marker is
absent before. -/
theorem recovered_iff_cleared (hproduct : schedule.product ≠ .server)
    (hsound : w0.Sound schedule.product) (hinstalled : w0.files.get? .target = some previous)
    (hfresh : w0.files.get? (.journal schedule.operationId) = none ∧
      w0.files.get? (.plan schedule.operationId) = none)
    (hupdate : Update formats schedule w0 w) (choices : ℕ → Choice) :
    (∃ status w', (reliable formats).execute choices (recover formats schedule.product true).run w =
        (.ok status, w') ∧ w'.files.get? .active = none ∧
      w'.Settled formats schedule.operationId (formats.sha256 previous)
        schedule.staged.binarySha256 ∧
      ∀ next, next.product = schedule.product → Schedulable formats next w' → ∀ choices',
        ∃ planSha256 w'', (reliable formats).execute choices' (scheduleUpdate formats next).run w' =
          (.ok planSha256, w'')) ↔ w.files.get? .active = none := by
  have hstarted : w0.Started formats schedule (formats.sha256 previous) :=
    .of_fresh hinstalled hfresh.1 hfresh.2
  have hsound' := sound_of_update hproduct hstarted hsound hupdate
  constructor
  · rintro ⟨status, w', hexecute, -⟩
    have hreturns : Returns formats (recover formats schedule.product true) w
        fun _ _ => w.files.get? .active = none := returns_recover hproduct hsound'
    have hfound := (Guards.reliable hreturns).execute choices
    rw [hexecute] at hfound
    exact hfound status rfl
  intro hcleared
  have hsettled := settled_of_update hproduct hstarted hupdate hcleared
  have hrecover : Succeeds formats (recover formats schedule.product true) w fun _ w' => w' = w :=
    succeeds_recover hproduct hsound' hcleared
  obtain ⟨status, w', hexecute, rfl⟩ := hrecover.execute choices
  refine ⟨status, w', hexecute, hcleared, hsettled, fun next hnext hschedulable choices' => ?_⟩
  obtain ⟨planSha256, w'', hnext, -⟩ :=
    (succeeds_scheduleUpdate (hnext ▸ hproduct) hschedulable hcleared).execute choices'
  exact ⟨planSha256, w'', hnext⟩

/-! ## Verification -/

theorem writes_validateNonServerRecoveryBackup {plan : HelperPlan} {backup : BackupName} :
    Writes product files (validateNonServerRecoveryBackup plan backup).run :=
  writes_readDurableJson.seq <| writes_ensure.seq <| (writes_read (.exists _) rfl).seq <|
    writes_ensure.seq <| writes_sha256File.seq <| writes_ensure.seq <| writes_verifyInstalledVersion

theorem writes_verifyCompletedUpdate :
    Writes product files (verifyCompletedUpdate formats owner operationId).run :=
  writes_ensure.seq <| writes_ensure.seq <| writes_acquireLock.seq <|
    (writes_read (.exists .active) rfl).seq <| writes_ensure.seq <| writes_readContent.seq <|
    writes_readDurableJson.seq <| writes_ensure.seq <| writes_readDurableJson.seq <|
    writes_ensure.seq <| writes_status.seq <| writes_ensure.seq <|
    writes_validateTargetExecutable.seq <| writes_sha256File.seq <| writes_ensure.seq <|
    writes_verifyInstalledVersion.seq <| writes_expect.seq <|
    writes_validateNonServerRecoveryBackup.seq <| writes_ensure.seq <| writes_pure

theorem returns_verifyCompletedUpdate (hproduct : product ≠ .server) (hsound : w.Sound product) :
    Returns formats (verifyCompletedUpdate formats product operationId) w fun _ _ => False := by
  refine (returns_sound writes_ensure hsound).bind fun _ w1 hsound => ?_
  refine (returns_sound writes_ensure hsound).bind fun _ w2 hsound => ?_
  refine (returns_sound writes_acquireLock hsound).bind fun _ w3 hsound => ?_
  refine (returns_sound (writes_read (.exists .active) rfl) hsound).bind fun _ w4 hsound => ?_
  refine (returns_sound writes_ensure hsound).bind fun _ w5 hsound => ?_
  refine (returns_sound writes_readContent hsound).bind fun _ w6 hsound => ?_
  refine (returns_sound writes_readDurableJson hsound).bind fun _ w7 hsound => ?_
  refine (returns_sound writes_ensure hsound).bind fun _ w8 hsound => ?_
  refine returns_readDurableJson.bind fun journal w9 h9 => ?_
  obtain ⟨-, content, hget, hparse⟩ := h9
  rw [hsound.journal?_eq_none hproduct hget] at hparse
  cases hparse

/-- **No update is verified.** Wherever an update of the client or the manager was cut off, has failed
or has ended, `verifyCompletedUpdate` returns an error and leaves the journal as it is. So it tells
completed updates from others if and only if the journal has not reached `completed`. -/
theorem verify_iff_unfinished {r : Except UpdateError CompletedUpdateVerification} {w' : World}
    (hproduct : schedule.product ≠ .server) (hsound : w0.Sound schedule.product)
    (hinstalled : w0.files.get? .target = some previous)
    (hfresh : w0.files.get? (.journal schedule.operationId) = none ∧
      w0.files.get? (.plan schedule.operationId) = none)
    (hupdate : Update formats schedule w0 w)
    (hverify : (system formats).Ends anywhere
      (verifyCompletedUpdate formats schedule.product schedule.operationId).run w (some r) w') :
    (∃ error, r = .error error) ∧
      (w'.Completed schedule.operationId ↔ w.Completed schedule.operationId) ∧
      (((∃ value, r = .ok value) ↔ w.Completed schedule.operationId) ↔
        ¬ w.Completed schedule.operationId) := by
  have hstarted : w0.Started formats schedule (formats.sha256 previous) :=
    .of_fresh hinstalled hfresh.1 hfresh.2
  have hsound' := sound_of_update hproduct hstarted hsound hupdate
  have hwrites : Writes schedule.product ∅
      (verifyCompletedUpdate formats schedule.product schedule.operationId).run :=
    writes_verifyCompletedUpdate
  have hkept := (guards_kept hwrites (Set.notMem_empty (.journal schedule.operationId))).of_return
    hverify
  cases r with
  | error error => exact ⟨⟨error, rfl⟩, World.Completed.congr hkept, by simp⟩
  | ok value =>
    exact ((returns_verifyCompletedUpdate hproduct hsound').of_return hverify value rfl).elim

end Results

section Examples

def zeroSha256 : String := "0000000000000000000000000000000000000000000000000000000000000000"

/-- The digest of an executable shows its first byte. -/
def plainSha256 : Content → String
  | .binary (1 :: _) => "1111111111111111111111111111111111111111111111111111111111111111"
  | .binary (2 :: _) => "2222222222222222222222222222222222222222222222222222222222222222"
  | _ => zeroSha256

def plainVersion : Content → Option String
  | .binary (1 :: _) => some "1.0.0"
  | .binary (2 :: _) => some "2.0.0"
  | _ => none

def plainFormats : Formats where
  length _ := 0
  sha256 := plainSha256
  hmac _ _ := zeroSha256
  version := plainVersion
  isSha256_sha256 content := by
    unfold plainSha256
    split <;> decide +kernel
  isSha256_hmac _ _ := by decide +kernel

def blank : World where
  files := ∅
  operations := ∅
  service := .stopped
  database := ⟨1, "", none, []⟩
  snapshots := ∅
  starts := 0
  overwrites := []

/-- A component whose first version is installed, with the second one downloaded. -/
def firstInstalled : World :=
  ((blank.setFile .target (.binary [1])).setFile (.staged "new") (.binary [2])).setFile .updater
    (.binary [3])

theorem firstInstalled_sound : firstInstalled.Sound product := by
  have hblank : blank.Sound product := fun _ _ h => nomatch h
  have htarget : FileName.IsExecutable .target := trivial
  have hstaged : FileName.IsExecutable (.staged "new") := trivial
  have hupdater : FileName.IsExecutable .updater := trivial
  exact ((hblank.setFile (htarget.holds _)).setFile (hstaged.holds _)).setFile (hupdater.holds _)

def secondStaged : Schedule where
  product := .client
  operation := .apply
  staged := ⟨.client, "1.0.0", "2.0.0", plainSha256 (.binary [2]), .staged "new"⟩
  serverDatabase := none
  operationId := ⟨7⟩

theorem secondStaged_product : secondStaged.product ≠ .server := nofun

/-- Nothing fails. -/
def steady : Choice := ⟨false, false, 0, ⟨8⟩, .binary [], false, .io, 1, ""⟩

def failed {α : Type} : Except UpdateError α → Bool
  | .error _ => true
  | .ok _ => false

theorem eq_error_of_failed {r : Except UpdateError α} (h : failed r = true) :
    ∃ error, r = .error error := by
  cases r with
  | error error => exact ⟨error, rfl⟩
  | ok a => cases h

theorem eq_ok_of_not_failed {r : Option (Except UpdateError α)} (h : r.map failed = some false) :
    ∃ a, r = some (.ok a) := by
  match r, h with
  | some (.ok a), _ => exact ⟨a, rfl⟩

/-- The schedule is cut off while the helper is copied. -/
def afterSchedule : Option World :=
  (system plainFormats).tear steady (List.replicate 16 steady)
    (scheduleUpdate plainFormats secondStaged).run firstInstalled

/-- **An update that cannot be recovered.** The machine fails after the active marker has been written;
`recover` reads the journal, which is in an envelope, as a bare one, and fails. -/
theorem recover_fails_while_active : ∃ w, Update plainFormats secondStaged firstInstalled w ∧
    w.files.get? .active ≠ none ∧ ∃ error w', (reliable plainFormats).execute (fun _ => steady)
      (recover plainFormats .client true).run w = (.error error, w') := by
  have h : ∃ w ∈ afterSchedule, w.files.get? .active ≠ none ∧ failed
      ((reliable plainFormats).execute (fun _ => steady)
        (recover plainFormats .client true).run w).1 = true := by decide +kernel
  obtain ⟨w, htear, hactive, hfailed⟩ := h
  refine ⟨w, .scheduled (ends_tear htear), hactive, ?_⟩
  obtain ⟨error, herror⟩ := eq_error_of_failed hfailed
  exact ⟨error, _, Prod.ext herror rfl⟩

/-- The schedule and the helper run to their ends. -/
def scheduledRun : Option (Except UpdateError String) × World :=
  (system plainFormats).play (List.replicate 40 steady)
    (scheduleUpdate plainFormats secondStaged).run firstInstalled

def helperRun : Option (Except UpdateError Unit) × World :=
  (system plainFormats).play (List.replicate 80 steady)
    (runHelper plainFormats ⟨7⟩ zeroSha256).run scheduledRun.2

theorem update_helperRun : Update plainFormats secondStaged firstInstalled helperRun.2 := by
  have hschedule : scheduledRun.1.isSome = true := by decide +kernel
  have hhelper : helperRun.1.isSome = true := by decide +kernel
  obtain ⟨r, hr⟩ := Option.isSome_iff_exists.mp hschedule
  obtain ⟨r', hr'⟩ := Option.isSome_iff_exists.mp hhelper
  exact .helped (ends_play (Prod.ext hr rfl)) (ends_play (Prod.ext hr' rfl))

theorem firstInstalled_fresh : firstInstalled.files.get? (.journal secondStaged.operationId) = none ∧
    firstInstalled.files.get? (.plan secondStaged.operationId) = none := by
  constructor <;> decide +kernel

/-- An update that ran to its end is recovered: there is nothing to do. -/
theorem recovered_of_helperRun : helperRun.2.files.get? .active = none ∧
    ∃ status w', (reliable plainFormats).execute (fun _ => steady)
      (recover plainFormats .client true).run helperRun.2 = (.ok status, w') ∧
      w'.Settled plainFormats ⟨7⟩ (plainSha256 (.binary [1])) (plainSha256 (.binary [2])) := by
  have hcleared : helperRun.2.files.get? .active = none := by decide +kernel
  have hinstalled : firstInstalled.files.get? .target = some (.binary [1]) := rfl
  obtain ⟨status, w', hexecute, -, hsettled, -⟩ := (recovered_iff_cleared secondStaged_product
    firstInstalled_sound hinstalled firstInstalled_fresh update_helperRun
    fun _ => steady).mpr hcleared
  exact ⟨hcleared, status, w', hexecute, hsettled⟩

/-- **A completed update that is not verified.** The helper has succeeded, and nothing has changed
since; verification reads the journal, which is in an envelope, as a bare one, and fails. -/
theorem verify_fails_completed : ∃ w1 w, (∃ planSha256, (system plainFormats).Ends anywhere
      (scheduleUpdate plainFormats secondStaged).run firstInstalled (some (.ok planSha256)) w1) ∧
    (system plainFormats).Ends anywhere (runHelper plainFormats ⟨7⟩ zeroSha256).run w1
      (some (.ok ())) w ∧
    ∃ error w', (reliable plainFormats).execute (fun _ => steady)
      (verifyCompletedUpdate plainFormats .client ⟨7⟩).run w = (.error error, w') := by
  have hschedule : (scheduledRun.1.map failed) = some false := by decide +kernel
  have hhelper : (helperRun.1.map failed) = some false := by decide +kernel
  have hverify : failed ((reliable plainFormats).execute (fun _ => steady)
      (verifyCompletedUpdate plainFormats .client ⟨7⟩).run helperRun.2).1 = true := by
    decide +kernel
  obtain ⟨planSha256, hr⟩ := eq_ok_of_not_failed hschedule
  obtain ⟨u, hr'⟩ := eq_ok_of_not_failed hhelper
  obtain ⟨error, herror⟩ := eq_error_of_failed hverify
  exact ⟨scheduledRun.2, helperRun.2, ⟨planSha256, ends_play (Prod.ext hr rfl)⟩,
    ends_play (Prod.ext hr' rfl), error, _, Prod.ext herror rfl⟩

/-- An update that was cut off is not verified. -/
theorem verify_of_afterSchedule : ∃ w error w', Update plainFormats secondStaged firstInstalled w ∧
    (system plainFormats).Ends anywhere (verifyCompletedUpdate plainFormats .client ⟨7⟩).run w
      (some (.error error)) w' ∧ ¬ w'.Completed ⟨7⟩ := by
  have h : ∃ w ∈ afterSchedule, ((system plainFormats).play (List.replicate 40 steady)
      (verifyCompletedUpdate plainFormats .client ⟨7⟩).run w).1.isSome = true := by
    decide +kernel
  have hinstalled : firstInstalled.files.get? .target = some (.binary [1]) := rfl
  obtain ⟨w, htear, hplay⟩ := h
  obtain ⟨r, hr⟩ := Option.isSome_iff_exists.mp hplay
  have hscheduled := ends_tear htear
  have hstarted := (guards_scheduleUpdate secondStaged_product
      (.of_fresh hinstalled firstInstalled_fresh.1 firstInstalled_fresh.2)).of_ends hscheduled
  have hverify : (system plainFormats).Ends anywhere
      (verifyCompletedUpdate plainFormats .client ⟨7⟩).run w (some r) _ :=
    ends_play (Prod.ext hr rfl)
  obtain ⟨⟨error, rfl⟩, hsame, -⟩ := verify_iff_unfinished secondStaged_product
    firstInstalled_sound hinstalled firstInstalled_fresh (.scheduled hscheduled) hverify
  exact ⟨w, error, _, .scheduled hscheduled, hverify, hsame.not.mpr hstarted.unfinished⟩

end Examples

end LinkLake.Updater
