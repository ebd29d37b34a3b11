import LinkLake.Updater.Transaction.ServerSteps

/-!
# The schedule and the helper of a server's update

`scheduleUpdate` writes plan, journal and marker of a server's update in this order, so that a marker
that is there has a plan and a journal (`keeps_scheduleUpdate`). `executeHelper` then runs through the
phases of the update, and every way it can end leaves a true journal (`keeps_executeHelper`).
-/

namespace LinkLake.Updater

open CrashMachine

namespace ServerUpdate

/-! ## The helper -/

variable {formats : Formats} {u : ServerUpdate formats} {allowed : Overwrite → Prop}
  {base : List Overwrite} {w w' : World} {directory : BackupName} {backup : Option BackupName}
  {error : Option UpdateError} {content : Content}

section Inner

/-- The backup is complete, and no server has been started since. -/
def FreshlyBacked (u : ServerUpdate formats) (directory : BackupName) (w : World) : Prop :=
  ∃ snapshot, u.Backed directory snapshot w ∧ snapshot.starts = w.starts

/-- The snapshots are what they were when the update was scheduled. -/
structure Fresh (u : ServerUpdate formats) (w : World) : Prop where
  document : ∀ other,
    w.files.get? (.databaseSnapshot other) = u.origin.files.get? (.databaseSnapshot other)
  snapshot : ∀ other, w.snapshots.get? other = u.origin.snapshots.get? other

/-- How the installation ends. -/
def Inner (u : ServerUpdate formats) :
    Except (UpdateError × Option BackupName) BackupName → World → Prop
  | .ok directory, w => u.Engaged installing directory w ∧
      w.installedSha256 formats = some u.plan.stagedSha256
  | .error (_, none), w => u.Unchanged w
  | .error (_, some directory), w => u.Unchanged w ∧ u.FreshlyBacked directory w ∨
      u.Engaged installing directory w

theorem Rewritten.fresh (h : u.Rewritten w w') (hw : u.Fresh w) : u.Fresh w' :=
  ⟨fun other => (h.document other).trans (hw.document other),
    fun other => (h.snapshot other).trans (hw.snapshot other)⟩

theorem Still.freshlyBacked (h : u.Still w w') (hw : u.FreshlyBacked directory w) :
    u.FreshlyBacked directory w' := by
  obtain ⟨snapshot, hbacked, hstarts⟩ := hw
  exact ⟨snapshot, h.backed hbacked, hstarts.trans h.starts.symm⟩

theorem Fresh.others (hw : u.Fresh w) (h : w.Agrees (backupFiles directory) w') :
    u.Others directory w' := by
  refine ⟨fun other hother => (h.file _ ?_).trans (hw.document other),
    fun other hother => (h.snapshot _ ?_).trans (hw.snapshot other)⟩
  · simpa using hother
  · simpa using hother

theorem guards_abandonUpdate {error : UpdateError} (hw : u.Held allowed base w)
    (hunchanged : u.Unchanged w) :
    (system formats).Guards anywhere (u.Held allowed base)
      (fun r w' => u.Held allowed base w' ∧ u.Inner r w') (abandonUpdate u.plan error) w :=
  Guards.bind (keeps_unchanged_restart hw hunchanged) fun _ _ h => ⟨h.1, h.1, h.2⟩

section Inner

variable (hpermits : u.Permits allowed)
include hpermits

theorem guards_executeWithBackup (hw : u.Held allowed base w) (hunchanged : u.Unchanged w)
    (hbacked : u.FreshlyBacked directory w) (hothers : u.Others directory w) :
    (system formats).Guards anywhere (u.Held allowed base)
      (fun r w' => u.Held allowed base w' ∧ u.Inner r w')
      (executeWithBackup formats u.plan u.planSha256 directory) w := by
  have hbacks : u.Backs .backupCreated directory w := by
    obtain ⟨snapshot, hbacked, hstarts⟩ := hbacked
    exact ⟨snapshot, hbacked, fun _ => hstarts⟩
  have hinstall : u.Keeps allowed base (do
      writeOperationJournal formats u.plan u.planSha256 .backupCreated (some directory) none
      installCandidate formats u.plan u.planSha256 directory) w fun r w' =>
        (∃ error, r = .error error) ∧ u.Unchanged w' ∧ u.FreshlyBacked directory w' ∨
          u.Engaged installing directory w' := by
    refine (keeps_journal hw (hbacks.records rfl)).bind (fun error w' h => ?_) fun _ w1 hw1 h1 => ?_
    · obtain hstill | hjournaled := h.1.journal
      · exact .inl ⟨⟨error, rfl⟩, hstill.unchanged hunchanged, hstill.freshlyBacked hbacked⟩
      · exact .inr (hjournaled.engaged rfl)
    · have hengaged : u.Engaged Stage.precedesCandidate directory w1 := (h1.2 _ rfl).engaged rfl
      exact (keeps_installCandidate hpermits hw1 hengaged
        (h1.1.rewritten.others hothers)).mono fun r w' h => .inr h
  have hreturns : Returns formats (do
      writeOperationJournal formats u.plan u.planSha256 .backupCreated (some directory) none
      installCandidate formats u.plan u.planSha256 directory) w fun _ w' =>
        w'.installedSha256 formats = some u.plan.stagedSha256 :=
    returns_after fun _ _ => returns_installCandidate
  refine Guards.bind ((Guards.and hinstall hreturns).mono (fun _ h => h.1) fun _ _ h => h)
    fun r w' h => ⟨h.1.1, h.1.1, ?_⟩
  cases r with
  | error error => exact h.1.2.imp (fun h' => h'.2) fun h' => h'
  | ok a => exact ⟨h.1.2.resolve_left nofun, h.2 a rfl⟩

/-- **The installation**, from the stop of the service to the readiness of the candidate. -/
theorem guards_executeHelperInner (hw : u.Held allowed base w) (hunchanged : u.Unchanged w)
    (hfresh : u.Fresh w) :
    (system formats).Guards anywhere (u.Held allowed base)
      (fun r w' => u.Held allowed base w' ∧ u.Inner r w')
      (executeHelperInner formats u.plan u.planSha256) w := by
  have hstop : Writes .server ∅ (stopServiceForUpdate u.plan).run := writes_stopServiceForUpdate
  refine Guards.bind (keeps_quiet hstop (Set.empty_disjoint _) hw returns_trivial) fun r w1 h1 => ?_
  obtain ⟨hw1, hstill, -⟩ := h1
  have hunchanged1 := hstill.unchanged hunchanged
  cases r with
  | error error => exact ⟨hw1, hw1, hunchanged1⟩
  | ok _ =>
    have hstage : Stage.serviceStopped ≠ .completed := nofun
    refine Guards.bind (keeps_unchanged_journal hw1 hunchanged1 hstage) fun r w2 h2 => ?_
    obtain ⟨hw2, hunchanged2, hrewritten⟩ := h2
    cases r with
    | error error => exact guards_abandonUpdate hw2 hunchanged2
    | ok _ =>
      refine Guards.bind (keeps_unchanged_createBackup hw2 hunchanged2) fun r w3 h3 => ?_
      obtain ⟨hw3, hunchanged3, hbackup⟩ := h3
      cases r with
      | error error => exact guards_abandonUpdate hw3 hunchanged3
      | ok directory =>
        obtain ⟨hagrees, hbacked⟩ := hbackup directory rfl
        have hfresh2 := hrewritten.fresh (hstill.rewritten.fresh hfresh)
        exact guards_executeWithBackup hpermits hw3 hunchanged3 hbacked (hfresh2.others hagrees)

end Inner

end Inner

section Finish

theorem status_disjoint_watched : Disjoint {.status} u.watched := by
  simp

theorem markerTag_unwatched : FileName.authentication .active ∉ u.watched := by
  simp

variable (hw : u.Held allowed base w)
include hw

theorem keeps_clearActiveMarker :
    u.Keeps allowed base (clearActiveMarker formats .server u.operationId) w fun _ w' =>
      w.Agrees (authenticated .active) w' := by
  have hwrites : Writes .server (authenticated .active)
      (clearActiveMarker formats .server u.operationId).run := writes_clearActiveMarker subset_rfl
  suffices h : u.Keeps allowed base (clearActiveMarker formats .server u.operationId) w
      fun _ _ => True from
    (Guards.and h (guards_agrees hwrites)).mono (fun _ h => h.1) fun _ _ h => ⟨h.1.1, h.2⟩
  refine hw.steady.skip writes_readState (fun _ _ _ => trivial) fun active w1 h1 => ?_
  refine h1.skip writes_ensure (fun _ _ _ => trivial) fun _ w2 ⟨hw2, _⟩ => ?_
  rw [if_pos rfl]
  have herase : u.Held allowed base (w2.eraseFile .active) :=
    ⟨hw2.underway.eraseMarker, hw2.overwrote⟩
  have hguards : Preserves formats (u.Held allowed base)
      (removeServerAuthenticatedState .active).run w2 := by
    refine Guards.seq (guards_removeDurableFile hw2 herase) fun _ w3 hw3 => ?_
    have hstill : u.Still w3 (w3.eraseFile (.authentication .active)) :=
      (agrees_eraseFile w3 _).mono (Set.singleton_subset_iff.mpr markerTag_unwatched)
    exact guards_removeDurableFile hw3 (hstill.held hw3 hw3.underway.responsive)
  exact hguards.mono (fun _ h => h) fun _ _ h => ⟨h, trivial⟩

theorem keeps_releaseMarker {wanted : Bool} :
    u.Keeps allowed base (releaseMarker formats u.plan wanted) w fun _ w' =>
      w.Agrees (authenticated .active) w' := by
  unfold releaseMarker
  split_ifs
  · rw [u.product]
    exact (keeps_clearActiveMarker hw).outcome_bind fun _ w' hw' h => keeps_pure hw' h
  · exact keeps_pure hw (.refl _ _)

theorem keeps_status {state message : String} :
    u.Keeps allowed base (writeStatus u.plan state message error backup) w fun _ w' =>
      u.Still w w' := by
  have hwrites : Writes .server {.status} (writeStatus u.plan state message error backup).run :=
    writes_writeStatus rfl
  exact (keeps_quiet hwrites status_disjoint_watched hw returns_trivial).mono fun _ _ h => h.1

theorem keeps_finishSuccess (hengaged : u.Engaged installing directory w)
    (hinstalled : w.installedSha256 formats = some u.plan.stagedSha256) :
    u.Keeps allowed base (finishSuccess formats u.plan u.planSha256 directory) w
      fun _ _ => True := by
  refine (keeps_status hw).bind (fun _ _ _ => trivial) fun _ w1 hw1 h1 => ?_
  have hbacks : u.Backs .completed directory w1 :=
    ((h1.engaged hengaged).backs_late hw1.underway).advance nofun
  have hrecords : ∀ now, u.Records (operationJournal u.plan u.planSha256 .completed
      (some directory) none now) w1 := by
    refine fun now => ⟨bound_operationJournal now, fun other hother => ?_, fun _ => ?_,
      fun h => (h rfl).elim⟩
    · cases hother
      exact hbacks
    · rw [World.installedSha256, h1.target]
      exact hinstalled
  refine (keeps_journal hw1 hrecords).bind (fun _ _ _ => trivial) fun _ w2 hw2 _ => ?_
  exact hw2.steady.quiet (writes_clearReadiness subset_rfl) readinessFiles_disjoint_watched
    returns_trivial (fun _ _ _ => trivial)
    fun _ w3 h3 _ => (keeps_releaseMarker h3.held).mono fun _ _ _ => trivial

theorem keeps_finishFailure {ending : Ending}
    (hrecords : ∀ w' now, u.Held allowed base w' → u.Still w w' →
      u.Records (operationJournal u.plan u.planSha256 ending.stage backup
        (some ending.error) now) w') :
    u.Keeps allowed base (finishFailure formats u.plan u.planSha256 backup ending) w
      fun _ _ => True := by
  refine (keeps_status hw).bind (fun _ _ _ => trivial) fun _ w1 hw1 h1 => ?_
  refine (keeps_journal hw1 fun now => hrecords w1 now hw1 h1).bind (fun _ _ _ => trivial)
    fun _ w2 hw2 _ => ?_
  exact (keeps_releaseMarker hw2).bind (fun _ _ _ => trivial) fun _ w3 hw3 _ =>
    keeps_throw hw3 trivial

theorem keeps_requireManualRecovery {error : UpdateError}
    (hrecords : ∀ w' message now, u.Held allowed base w' → u.Still w w' →
      u.Records (operationJournal u.plan u.planSha256 .recoveryRequired backup message now) w') :
    u.Keeps allowed base (requireManualRecovery formats u.plan u.planSha256 error backup) w
      fun _ _ => True := by
  refine (keeps_quiet writes_stopCandidate (Set.empty_disjoint _) hw returns_trivial).outcome_bind
    fun stopped w1 hw1 h1 => ?_
  refine (keeps_status hw1).bind (fun _ _ _ => trivial) fun _ w2 hw2 h2 => ?_
  exact (keeps_journal hw2 fun now => hrecords w2 _ now hw2 (h1.1.trans h2)).bind
    (fun _ _ _ => trivial) fun _ w3 hw3 _ => keeps_throw hw3 trivial

end Finish

section Failure

variable {error : UpdateError}

theorem Content.eq_of_journal? {journal : UpdateJournal}
    (h : content.journal? = some journal) : content = .document (.journal journal) := by
  unfold Content.journal? at h
  split at h
  · rw [Option.some.inj h]
  · cases h

theorem returns_serverHandoffFailureRoute :
    Returns formats (serverHandoffFailureRoute formats u.plan) w fun manual _ =>
      manual = false → ∃ journal, w.files.get? (.journal u.operationId) =
        some (.document (.journal journal)) ∧
          isServerCandidateHandoffStage journal.stage = false := by
  unfold serverHandoffFailureRoute
  rw [if_pos u.product]
  have hstarted : Returns formats (serverCandidateHandoffStarted formats u.plan) w
      fun started _ => ∃ journal, w.files.get? (.journal u.operationId) =
        some (.document (.journal journal)) ∧
          started = isServerCandidateHandoffStage journal.stage := by
    refine returns_readServerAuthenticatedJson.bind fun journal w1 h1 => ?_
    refine returns_after fun _ _ => returns_pure.mono fun started _ hstarted => ?_
    obtain ⟨-, content, hget, hparse⟩ := h1
    exact ⟨journal, Content.eq_of_journal? hparse ▸ hget, hstarted.1⟩
  refine hstarted.bind fun started w1 h => ?_
  obtain ⟨journal, hget, hstage⟩ := h
  split_ifs with hcase
  · refine returns_after fun _ _ => returns_pure.mono fun manual _ hmanual => ?_
    simp [hmanual.1]
  · refine returns_pure.mono fun manual _ _ _ => ⟨journal, hget, hstage.symm.trans ?_⟩
    exact Bool.not_eq_true _ ▸ hcase

theorem Inner.ready (hpermits : u.Permits allowed)
    (hunderway : u.Underway w) (hw : u.Inner (.error (error, some directory)) w)
    (hroute : ∃ journal, w.files.get? (.journal u.operationId) =
      some (.document (.journal journal)) ∧ isServerCandidateHandoffStage journal.stage = false) :
    ∃ snapshot, u.Ready allowed directory snapshot w := by
  obtain ⟨hunchanged, snapshot, hbacked, hstarts⟩ | hengaged := hw
  · exact ⟨snapshot, hbacked, fun _ => hstarts, hpermits.safe _ hstarts, .inl hunchanged⟩
  · obtain ⟨journal, hget, hstage, hdirectory⟩ := id hengaged
    obtain ⟨journal', hget', hhandoff⟩ := hroute
    rw [hget] at hget'
    cases hget'
    have hprecedes : journal.stage.precedesCandidate = true := by
      obtain h | h := Bool.or_eq_true_iff.mp hstage
      · exact h
      · cases hhandoff.symm.trans h
    obtain ⟨journal', hjournal', hrecords⟩ := hunderway.journal _ hget
    cases hjournal'
    obtain ⟨snapshot, hbacked, hsince⟩ := hrecords.backup directory hdirectory
    have hstarts := hsince fun _ => hprecedes
    refine ⟨snapshot, hbacked, fun _ => hstarts, hpermits.safe _ hstarts, .inr ?_⟩
    refine ⟨journal, hget, ?_, hdirectory⟩
    rw [Stage.inProgress, precedesCandidate_spec hprecedes]
    rfl

theorem Inner.still (h : u.Still w w') (hw : u.Inner (.error (error, backup)) w) :
    u.Inner (.error (error, backup)) w' := by
  cases backup with
  | none => exact h.unchanged hw
  | some directory =>
    exact hw.imp (fun hw => ⟨h.unchanged hw.1, h.freshlyBacked hw.2⟩) fun hw => h.engaged hw

theorem Inner.records_recoveryRequired {message : Option UpdateError} (hunderway : u.Underway w)
    (hw : u.Inner (.error (error, backup)) w) (now : ℕ) :
    u.Records (operationJournal u.plan u.planSha256 .recoveryRequired backup message now) w := by
  cases backup with
  | none =>
    have hstage : Stage.recoveryRequired ≠ .completed := nofun
    exact Unchanged.records hw hstage now
  | some directory =>
    have hbacks : u.Backs .recoveryRequired directory w := by
      obtain ⟨-, snapshot, hbacked, hstarts⟩ | hengaged := hw
      · exact ⟨snapshot, hbacked, fun _ => hstarts⟩
      · exact hengaged.backs_late hunderway
    exact hbacks.records rfl now

theorem keeps_automaticRollback {snapshot : Snapshot} (hw : u.Held allowed base w)
    (hready : u.Ready allowed directory snapshot w) :
    u.Keeps allowed base (automaticRollback formats u.plan u.planSha256 (some directory)) w
      fun r w' => u.Backs .recoveryRequired directory w' ∧
        ∀ value, r = .ok value → value = some () ∧ u.Reverted w' :=
  (keeps_restoreAfterFailure hw hready).bind (fun _ _ h => ⟨h.1, nofun⟩) fun _ _ hw1 h1 =>
    keeps_pure hw1 ⟨h1.1, fun _ hvalue => ⟨(Except.ok.inj hvalue).symm, h1.2 _ rfl⟩⟩

theorem Still.reverted (h : u.Still w w') (hw : u.Reverted w) : u.Reverted w' :=
  hw.congr h (notMem_unwatched target_watched) (notMem_unwatched liveDatabase_watched)
    (Set.disjoint_compl_left_iff_subset.mpr Set.subset_union_right)

variable (hpermits : u.Permits allowed)
include hpermits

/-- **A failed update** is rolled back, left to manual recovery, or was nothing but a failure. -/
theorem keeps_handleFailure
    (hw : u.Held allowed base w) (hinner : u.Inner (.error (error, backup)) w) :
    u.Keeps allowed base (handleFailure formats u.plan u.planSha256 error backup) w
      fun _ _ => True := by
  refine hw.steady.read writes_serverHandoffFailureRoute returns_serverHandoffFailureRoute
    (fun _ _ _ => trivial) fun manual w1 ⟨hw1, h1⟩ hroute => ?_
  have hinner1 := hinner.still h1
  split_ifs with hmanual
  · exact keeps_requireManualRecovery hw1 fun w' message now hw' h =>
      (hinner1.still h).records_recoveryRequired hw'.underway now
  · obtain ⟨journal, hget, hstage⟩ := hroute (Bool.not_eq_true _ ▸ hmanual)
    have hget1 := (World.Agrees.file h1 _ (notMem_unwatched journal_watched)).trans hget
    cases backup with
    | none =>
      have hrollback : u.Keeps allowed base (automaticRollback formats u.plan u.planSha256 none) w1
          fun r w' => r = .ok none ∧ u.Unchanged w' := keeps_pure hw1 ⟨rfl, hinner1⟩
      refine hrollback.outcome_bind fun r w2 hw2 h2 => ?_
      obtain ⟨rfl, hunchanged⟩ := h2
      have hstage : Stage.failedBeforeReplacement ≠ .completed := nofun
      exact keeps_finishFailure hw2 fun w' now _ h => (h.unchanged hunchanged).records hstage now
    | some directory =>
      obtain ⟨snapshot, hready⟩ := hinner1.ready hpermits hw1.underway ⟨journal, hget1, hstage⟩
      refine (keeps_automaticRollback hw1 hready).outcome_bind fun r w2 hw2 h2 => ?_
      refine keeps_finishFailure hw2 fun w' now _ h => ?_
      have hbacks := h.rewritten.backs h2.1
      cases r with
      | error rollbackError => exact hbacks.records rfl now
      | ok value =>
        obtain ⟨rfl, hreverted⟩ := h2.2 value rfl
        refine ⟨bound_operationJournal now, fun other hother => ?_, nofun, fun _ _ => ?_⟩
        · cases hother
          exact hbacks.advance nofun
        · exact h.reverted hreverted

/-- **The helper keeps the journal true**, whatever fails and wherever it is cut off. -/
theorem keeps_executeHelper (hw : u.Held allowed base w) (hunchanged : u.Unchanged w)
    (hfresh : u.Fresh w) :
    u.Keeps allowed base (executeHelper formats u.plan u.planSha256) w fun _ _ => True := by
  have hstage : Stage.helperStarted ≠ .completed := nofun
  refine (keeps_unchanged_journal hw hunchanged hstage).bind (fun _ _ _ => trivial)
    fun _ w1 hw1 h1 => ?_
  refine (keeps_status hw1).bind (fun _ _ _ => trivial) fun _ w2 hw2 h2 => ?_
  refine Guards.lift_bind (guards_executeHelperInner hpermits hw2 (h2.unchanged h1.1)
    (h2.rewritten.fresh (h1.2.fresh hfresh))) fun r w3 ⟨hw3, hinner⟩ => ?_
  match r, hinner with
  | .ok directory, hinner => exact keeps_finishSuccess hw3 hinner.1 hinner.2
  | .error (error, backup), hinner => exact keeps_handleFailure hpermits hw3 hinner

end Failure

/-! ## The schedule -/

/-- The update has been scheduled, and its helper has not begun. -/
structure Begun (u : ServerUpdate formats) (allowed : Overwrite → Prop) (base : List Overwrite)
    (w : World) : Prop where
  held : u.Held allowed base w
  unchanged : u.Unchanged w
  fresh : u.Fresh w

theorem Begun.still (hw : u.Begun allowed base w) (hheld : u.Held allowed base w')
    (h : u.Still w w') : u.Begun allowed base w' :=
  ⟨hheld, h.unchanged hw.unchanged, h.rewritten.fresh hw.fresh⟩

theorem Begun.marker (hw : u.Begun allowed base w) (hheld : u.Held allowed base w')
    (h : w.Agrees (authenticated .active) w') : u.Begun allowed base w' := by
  refine ⟨hheld, hw.unchanged.congr h (by simp) (by simp)
    (by simp), fun other => ?_, fun other => ?_⟩
  · exact (h.file _ (by simp)).trans (hw.fresh.document other)
  · exact (h.snapshot _ (by simp)).trans (hw.fresh.snapshot other)

theorem guards_begun {α : Type} {x : Call α} {files : Set FileName}
    (hx : Writes .server files x.run) (hfiles : Disjoint files u.watched)
    (hw : u.Begun allowed base w) :
    Preserves formats (u.Begun allowed base) x.run w := by
  have hstill : files ⊆ u.watchedᶜ := Set.subset_compl_iff_disjoint_right.mpr hfiles
  have hkeeps := (keeps_quiet hx hfiles hw.held returns_trivial).and (guards_agrees hx)
  exact hkeeps.mono (fun _ h => hw.still h.1 (h.2.mono hstill))
    fun _ _ h => hw.still h.1.1 (h.2.mono hstill)

theorem guards_begun_reads {α : Type} {x : Call α} (hx : Writes .server ∅ x.run)
    (hw : u.Begun allowed base w) :
    Preserves formats (u.Begun allowed base) x.run w := guards_begun hx (Set.empty_disjoint _) hw

theorem guards_begun_status {state message : String}
    {backup : Option BackupName} (hw : u.Begun allowed base w) :
    Preserves formats (u.Begun allowed base)
      (writeStatus u.plan state message error backup).run w :=
  guards_begun (writes_writeStatus (Set.mem_singleton _)) status_disjoint_watched hw

theorem guards_begun_journal {stage : Stage} (hstage : stage ≠ .completed)
    (hw : u.Begun allowed base w) :
    Preserves formats (u.Begun allowed base)
      (writeOperationJournal formats u.plan u.planSha256 stage none error).run w := by
  have hkept : ∀ w', u.Held allowed base w' ∧ u.Journals stage none w w' →
      u.Begun allowed base w' := fun w' h =>
    ⟨h.1, hw.unchanged.journals h.2, h.2.rewritten.fresh hw.fresh⟩
  exact (guards_journal hw.held (hw.unchanged.records hstage)).mono hkept fun _ w' h => hkept w' h.1

theorem guards_begun_release {wanted : Bool} (hw : u.Begun allowed base w) :
    Preserves formats (u.Begun allowed base) (releaseMarker formats u.plan wanted).run w := by
  have hwrites : Writes .server (authenticated .active)
      (releaseMarker formats u.plan wanted).run := writes_releaseMarker subset_rfl
  exact (Guards.and (keeps_releaseMarker hw.held) (guards_agrees hwrites)).mono
    (fun _ h => hw.marker h.1 h.2) fun _ _ h => hw.marker h.1.1 h.2

theorem guards_begun_guarded (hw : u.Begun allowed base w) :
    Preserves formats (u.Begun allowed base)
      (guarded formats u.plan (launchHelper formats u.plan u.planSha256)).run w := by
  refine guards_launch (fun _ hx => guards_begun (u.product ▸ hx) ?_)
    (fun _ => guards_begun_journal nofun) (fun _ => guards_begun_release) hw
  simp

section Publish

variable {schedule : Schedule} {w0 : World} {previous : Content} {files : Set FileName}
  {planSha256 : String}

/-- The update is one of this schedule. -/
structure Follows (u : ServerUpdate formats) (schedule : Schedule) (previous : Content)
    (w0 : World) : Prop where
  plan : u.plan.Follows schedule (formats.sha256 previous)
  previous : u.previous = previous
  origin : u.origin = w0

/-- Overwrites that lose nothing, or that a rollback was scheduled to make. -/
def Harmless (u : ServerUpdate formats) (overwrite : Overwrite) : Prop :=
  overwrite.startsAtSnapshot = overwrite.starts ∨ u.Selected overwrite

/-- Nothing that matters has happened yet. -/
structure Idle (schedule : Schedule) (w0 w : World) : Prop where
  marker : w.files.get? .active = none
  agrees : w0.Agrees (scheduleFiles schedule.operationId) w

/-- There is no marker yet, or the update has been scheduled. -/
def Scheduled (formats : Formats) (schedule : Schedule) (previous : Content) (w0 w : World) :
    Prop :=
  Idle schedule w0 w ∨ ∃ u : ServerUpdate formats, u.Follows schedule previous w0 ∧
    u.Begun u.Harmless w0.overwrites w

theorem Idle.congr (hw : Idle schedule w0 w) (h : w.Agrees files w')
    (hfiles : files ⊆ scheduleFiles schedule.operationId) (hactive : .active ∉ files) :
    Idle schedule w0 w' :=
  ⟨(h.file _ hactive).trans hw.marker, hw.agrees.trans (h.mono hfiles)⟩

theorem guards_idle {α : Type} {p : Program Action.Answer α}
    (hp : Writes .server files p) (hfiles : files ⊆ scheduleFiles schedule.operationId)
    (hactive : .active ∉ files) (hw : Idle schedule w0 w) :
    Preserves formats (Idle schedule w0) p w :=
  (guards_agrees hp).mono (fun _ h => hw.congr h hfiles hactive)
    fun _ _ h => hw.congr h hfiles hactive

theorem guards_idle_reads {α : Type} {x : Call α} (hx : Writes .server ∅ x.run)
    (hw : Idle schedule w0 w) :
    Preserves formats (Idle schedule w0) x.run w :=
  guards_idle hx (Set.empty_subset _) (Set.notMem_empty _) hw

theorem returns_journal {stage : Stage} {backup : Option BackupName} :
    Returns formats (writeOperationJournal formats u.plan u.planSha256 stage backup error) w
      fun _ w' => ∃ now, w'.files.get? (.journal u.operationId) = some (.document (.journal
        (operationJournal u.plan u.planSha256 stage backup error now))) := by
  rw [writeOperationJournal_server]
  refine returns_after fun _ _ => returns_after fun now _ => ?_
  refine returns_after fun _ _ => returns_writeServerAuthenticatedJson.mono fun _ _ h => ?_
  exact ⟨now, h.1.payload⟩

/-- The update is ready for its marker. -/
structure Prepared (u : ServerUpdate formats) (w : World) : Prop where
  plan : w.Authentic formats (.plan u.operationId) .helperPlan (.plan u.plan)
  journal : ∃ now, w.files.get? (.journal u.operationId) = some (.document (.journal
    (operationJournal u.plan u.planSha256 .scheduled none none now)))
  responsive : u.plan.serviceInstalled = true → w.Responsive

theorem Idle.unchanged (hw : Idle schedule w0 w) (hfollows : u.Follows schedule previous w0)
    (htarget : w0.files.get? .target = some previous)
    (hjournal : ∀ journal, w.files.get? (.journal u.operationId) =
      some (.document (.journal journal)) → journal.backupDirectory = none) : u.Unchanged w := by
  have hdatabase := hw.agrees.database (by simp)
  refine ⟨?_, ⟨?_, ?_, [], ?_, nofun⟩, hjournal⟩
  · rw [hw.agrees.file _ (by simp), hfollows.previous]
    exact htarget
  · rw [hfollows.origin]
    exact hdatabase.2.2
  · rw [hfollows.origin, hdatabase.1]
  · rw [hfollows.origin, hdatabase.1]
    rfl

theorem Idle.fresh (hw : Idle schedule w0 w) (hfollows : u.Follows schedule previous w0) :
    u.Fresh w := by
  refine ⟨fun other => ?_, fun other => ?_⟩
  · rw [hfollows.origin]
    exact hw.agrees.file _ (by simp)
  · rw [hfollows.origin]
    exact hw.agrees.snapshot _ (by simp)

theorem Prepared.setMarker {active : ActiveUpdate} (hprepared : u.Prepared w)
    (hw : Idle schedule w0 w) (hfollows : u.Follows schedule previous w0)
    (htarget : w0.files.get? .target = some previous) (hmarks : u.Marks active) :
    u.Begun u.Harmless w0.overwrites (w.setFile .active (.document (.active active))) := by
  have hagrees := agrees_setFile w .active (.document (.active active))
  obtain ⟨now, hjournal⟩ := hprepared.journal
  have hunchanged : u.Unchanged w := by
    refine hw.unchanged hfollows htarget fun journal hget => ?_
    rw [hjournal] at hget
    cases hget
    rfl
  have hstage : Stage.scheduled ≠ .completed := nofun
  have hafter := hunchanged.congr hagrees (by simp) (by simp) (by simp)
  have hdatabase := hw.agrees.database (by simp)
  refine ⟨⟨⟨fun content hget => ?_, ?_, fun content hget => ?_, hprepared.responsive⟩, ?_⟩, hafter,
    ?_, ?_⟩
  · rw [World.setFile, FiniteMap.get?_insert_self] at hget
    exact ⟨active, (Option.some.inj hget).symm, hmarks⟩
  · exact hprepared.plan.congr hagrees (by simp)
  · rw [hagrees.file _ (by simp), hjournal] at hget
    exact ⟨_, (Option.some.inj hget).symm, hafter.records hstage now⟩
  · exact ⟨[], hdatabase.2.2, nofun⟩
  · exact fun other => (hagrees.file _ (by simp)).trans ((hw.fresh hfollows).document other)
  · exact (hw.fresh hfollows).snapshot

/-- There is no marker yet, or this update has been scheduled. -/
def Nearing (u : ServerUpdate formats) (schedule : Schedule) (w0 w : World) : Prop :=
  Idle schedule w0 w ∨ u.Begun u.Harmless w0.overwrites w

theorem Nearing.setMarkerTag (hw : u.Nearing schedule w0 w) :
    u.Nearing schedule w0 (w.setFile (.authentication .active) content) := by
  have hagrees := agrees_setFile w (.authentication .active) content
  have hstill : u.Still w (w.setFile (.authentication .active) content) :=
    hagrees.mono (Set.singleton_subset_iff.mpr markerTag_unwatched)
  refine hw.imp (fun h => ?_) fun h => ?_
  · refine h.congr hagrees (Set.singleton_subset_iff.mpr ?_) (by simp)
    exact .inl (.inr (.inr rfl))
  · exact h.still (hstill.held h.held h.held.underway.responsive) hstill

theorem writeState_server {file : FileName} {purpose : Purpose} {document : Document} :
    writeState formats u.plan.product file purpose document =
      writeServerAuthenticatedJson formats file purpose document := if_pos u.product

/-- The marker that is published. -/
def marker (u : ServerUpdate formats) (now : ℕ) : ActiveUpdate where
  schemaVersion := updateSchemaVersion
  operationId := u.plan.operationId
  product := u.plan.product
  planOperation := u.plan.operationId
  planSha256 := u.planSha256
  createdUnixSeconds := now

theorem marks_marker (u : ServerUpdate formats) (now : ℕ) : u.Marks (u.marker now) :=
  ⟨rfl, rfl, u.product, rfl, rfl⟩

theorem writes_journal {stage : Stage} : Writes .server (authenticated (.journal u.operationId))
      (writeOperationJournal formats u.plan u.planSha256 stage backup error).run := by
  have h : Writes u.plan.product (authenticated (.journal u.operationId)) (writeOperationJournal
    formats u.plan u.planSha256 stage backup error).run := writes_writeOperationJournal subset_rfl
  rw [u.product] at h
  exact h

theorem guards_publishPlan (hfollows : u.Follows schedule previous w0)
    (htarget : w0.files.get? .target = some previous) (hw : Idle schedule w0 w)
    (hresponsive : u.plan.serviceInstalled = true → w.Responsive) :
    (system formats).Guards anywhere (u.Nearing schedule w0)
      (fun r w' => u.Nearing schedule w0 w' ∧ ∀ a, r = .ok a → u.Begun u.Harmless w0.overwrites w')
      (publishPlan formats u.plan).run w := by
  have hid : u.operationId = schedule.operationId := hfollows.plan.operationId
  unfold publishPlan
  rw [writeState_server]
  -- the plan and its tag
  have hplan : Writes .server (authenticated (.plan u.operationId)) (writeServerAuthenticatedJson
      formats (.plan u.operationId) .helperPlan (.plan u.plan)).run :=
    writes_writeServerAuthenticatedJson subset_rfl trivial
  have hplanFiles : authenticated (.plan u.operationId) ⊆ scheduleFiles schedule.operationId := by
    rw [hid]
    exact fun _ h => .inl (.inl (.inl h))
  have hwritten := (returns_writeServerAuthenticatedJson.mono fun _ _ h => h.1).and
      (returns_responsive hplan hresponsive)
  refine Guards.except_bind (((guards_idle hplan hplanFiles (by simp) hw).and
    hwritten).mono (fun _ h => .inl h.1) fun _ _ h => h)
    (fun _ _ h => ⟨.inl h.1, .inl h.1, nofun⟩) fun _ w1 h1 => ?_
  obtain ⟨hauthentic, hresponsive1⟩ := h1.2 _ rfl
  -- the journal and its tag
  have hjournalFiles : authenticated (.journal u.operationId) ⊆
      scheduleFiles schedule.operationId := by
    rw [hid]
    exact fun _ h => .inl (.inl (.inr h))
  have hprepared : Returns formats (writeOperationJournal formats u.plan u.planSha256 .scheduled
      none none) w1 fun _ w' => u.Prepared w' := by
    refine ((returns_agrees writes_journal).and (returns_journal.and
      (returns_responsive writes_journal hresponsive1))).mono fun _ w' h => ⟨?_, h.2.1, h.2.2⟩
    exact hauthentic.congr h.1 (by simp)
  refine Guards.except_bind (((guards_idle writes_journal hjournalFiles (by simp)
    h1.1).and hprepared).mono (fun _ h => .inl h.1) fun _ _ h => h)
    (fun _ _ h => ⟨.inl h.1, .inl h.1, nofun⟩) fun _ w2 h2 => ?_
  refine Guards.except_bind (((guards_idle_reads (writes_read .clock rfl) h2.1).and returns_clock).mono
    (fun _ h => .inl h.1) fun _ _ h => h) (fun _ _ h => ⟨.inl h.1, .inl h.1, nofun⟩)
    fun now w3 h3 => ?_
  obtain rfl := h3.2 _ rfl
  -- the marker and its tag
  change (system formats).Guards anywhere _ _ (writeState formats u.plan.product .active
    .activeMarker (.active (u.marker now))).run w3
  rw [writeState_server]
  have hset := (h2.2 _ rfl).setMarker h2.1 hfollows htarget (u.marks_marker now)
  have hguards : Preserves formats (u.Nearing schedule w0) (writeServerAuthenticatedJson formats
      .active .activeMarker (.active (u.marker now))).run w3 :=
    Guards.seq (guards_writeDurableJson (.inl h2.1) (.inr hset)) fun _ w' h =>
      guards_writeDurableJson h h.setMarkerTag
  refine (Guards.and hguards returns_writeServerAuthenticatedJson).mono (fun _ h => h.1)
    fun r w' h => ⟨h.1, fun a hr => h.1.resolve_left fun hidle => ?_⟩
  cases hidle.marker.symm.trans (h.2 a hr).1.payload

theorem Nearing.scheduled (hfollows : u.Follows schedule previous w0)
    (hw : u.Nearing schedule w0 w) : Scheduled formats schedule previous w0 w :=
  hw.imp (fun h => h) fun h => ⟨u, hfollows, h⟩

/-- **The schedule of a server's update**, wherever it is cut off. -/
theorem guards_scheduleUpdate (hproduct : schedule.product = .server)
    (hprevious : ∀ content, w0.files.get? .target = some content → content = previous)
    (hactive : w0.files.get? .active = none) :
    Preserves formats (Scheduled formats schedule previous w0)
      (Updater.scheduleUpdate formats schedule).run w0 := by
  have hidle : Idle schedule w0 w0 := ⟨hactive, .refl _ _⟩
  refine (guards_idle_reads writes_acquireLock hidle).step returns_trivial (fun _ => .inl)
    fun _ w1 h1 _ => ?_
  refine (guards_idle_reads (writes_read (.exists .active) rfl) h1).step returns_trivial
    (fun _ => .inl) fun active w2 h2 _ => ?_
  refine (guards_idle_reads writes_ensure h2).step returns_trivial (fun _ => .inl)
    fun _ w3 h3 _ => ?_
  have hsame := h3.agrees.file .target (by simp)
  -- without an executable nothing is scheduled
  cases htarget : w0.files.get? .target with
  | none =>
    exact (guards_idle_reads writes_preparePlan h3).step returns_preparePlan_target (fun _ => .inl)
      fun plan _ _ h => (h (hsame.trans htarget)).elim
  | some content =>
  obtain rfl := hprevious content htarget
  have hinstalled : w3.installedSha256 formats = some (formats.sha256 content) := by
    rw [World.installedSha256, hsame, htarget]
    rfl
  refine (guards_idle_reads writes_preparePlan h3).step
    ((returns_preparePlan hinstalled).and returns_preparePlan_responsive) (fun _ => .inl)
    fun plan w4 h4 h => ?_
  obtain ⟨hfollows, hresponsive⟩ := h
  have hserver : plan.product = .server := hfollows.product.trans hproduct
  have htransaction : plan.serverDatabase.isSome = true := by
    rw [← hfollows.transaction, hserver]
    rfl
  let u : ServerUpdate formats := ⟨plan, content, w0, hfollows.schemaVersion, hserver,
    htransaction, hfollows.previous⟩
  have hu : u.Follows schedule content w0 := ⟨hfollows, rfl, rfl⟩
  refine Guards.except_bind ((guards_publishPlan hu htarget h4 hresponsive).mono
    (fun _ h => h.scheduled hu) fun _ _ h => h) (fun _ _ h => ⟨h.1.scheduled hu, h.1.scheduled hu⟩)
    fun _ w5 h5 => ?_
  have hscheduled : ∀ w, u.Begun u.Harmless w0.overwrites w →
      Scheduled formats schedule content w0 w := fun w h => .inr ⟨u, hu, h⟩
  exact Guards.except_bind ((guards_begun_guarded (h5.2 _ rfl)).mono hscheduled
    fun _ => hscheduled) (fun _ _ h => ⟨h, h⟩) fun _ _ h => ⟨h, h⟩

/-! ## The run of an update -/

theorem guards_idle_runHelper (hw : Idle schedule w0 w) :
    Preserves formats (Idle schedule w0)
      (Updater.runHelper formats schedule.operationId planSha256).run w := by
  have hstatus : {.status} ⊆ scheduleFiles schedule.operationId :=
    Set.singleton_subset_iff.mpr (.inr (.inl rfl))
  exact guards_helper .server (fun _ hx => guards_idle hx hstatus (by simp)) (fun _ => id)
    (fun _ _ _ _ h hactive => (hactive h.marker).elim) hw

theorem keeps_runHelper {allowed : Overwrite → Prop}
    {base : List Overwrite} (hpermits : u.Permits allowed) (hw : u.Begun allowed base w) :
    u.Keeps allowed base (Updater.runHelper formats u.operationId planSha256) w
      fun _ _ => True := by
  refine (guards_helper .server (fun _ hx => guards_begun hx status_disjoint_watched)
    (fun _ h => h.held) (fun plan w1 hget hsha h1 _ => ?_) hw).mono (fun _ => id)
    fun _ _ h => ⟨h, trivial⟩
  rw [hw.held.underway.plan.payload] at hget
  cases hget
  subst hsha
  exact Guards.mono (keeps_executeHelper hpermits h1.held h1.unchanged h1.fresh) (fun _ => id)
    fun _ _ h => h.1

end Publish

end ServerUpdate

end LinkLake.Updater
