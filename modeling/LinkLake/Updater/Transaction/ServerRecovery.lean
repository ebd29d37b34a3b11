import LinkLake.Updater.Transaction.ServerHelper

/-!
# Recovering a server's update

`serverRecover` finds the state in which an update, or an earlier recovery, was cut off. It keeps the
journal true as the helper does (`keeps_serverRecover`), so that it can be cut off and called again any
number of times.
-/

namespace LinkLake.Updater

open CrashMachine

theorem Content.eq_of_active? {content : Content} {active : ActiveUpdate}
    (h : content.active? = some active) : content = .document (.active active) := by
  unfold Content.active? at h
  split at h
  · rw [Option.some.inj h]
  · cases h

namespace ServerUpdate

section Recover

variable {formats : Formats} {u : ServerUpdate formats} {allowed : Overwrite → Prop}
  {base : List Overwrite} {w w' : World} {directory : BackupName} {journal : UpdateJournal}
  {consent : ServerRecoveryConsent} {mismatch : UpdateError} {active : ActiveUpdate}

/-- The journal says that the update has ended. -/
def Closed (u : ServerUpdate formats) (w : World) : Prop :=
  ∃ journal, w.files.get? (.journal u.operationId) = some (.document (.journal journal)) ∧
    journal.stage.isTerminal = true

/-- The update has ended, and its marker is gone. -/
structure Ended (u : ServerUpdate formats) (w : World) : Prop where
  marker : w.files.get? .active = none
  journal : ∃ journal, w.files.get? (.journal u.operationId) = some (.document (.journal journal)) ∧
    journal.stage.isTerminal = true

theorem returns_clearActiveMarker :
    Returns formats (clearActiveMarker formats .server u.operationId) w fun _ w' =>
      w'.files.get? .active = none := by
  refine returns_after fun _ _ => returns_after fun _ w1 => ?_
  rw [if_pos rfl]
  refine returns_removeDurableFile.bind fun _ w2 h2 => returns_removeDurableFile.mono fun _ w3 h3 => ?_
  rw [h3, World.eraseFile, FiniteMap.get?_erase_of_ne (by simp), h2]
  exact FiniteMap.get?_erase_self _ _

theorem keeps_clearAndReport (hw : u.Held allowed base w) (hjournal : u.Closed w) :
    u.Keeps allowed base (do
      clearActiveMarker formats .server u.plan.operationId
      Updater.status) w fun r w' => ∀ a, r = .ok a → u.Ended w' := by
  have hclear : u.Keeps allowed base (clearActiveMarker formats .server u.plan.operationId) w
      fun r w' => ∀ a, r = .ok a → u.Ended w' := by
    refine (Guards.and (keeps_clearActiveMarker hw) returns_clearActiveMarker).mono (fun _ h => h.1)
      fun r w' h => ⟨h.1.1, fun a hr => ⟨h.2 a hr, ?_⟩⟩
    obtain ⟨journal, hget, hterminal⟩ := hjournal
    exact ⟨journal, (h.1.2.file _ (by simp)).trans hget, hterminal⟩
  have hstatus : Writes .server ∅ Updater.status.run := writes_status
  refine hclear.bind (fun _ _ _ => nofun) fun _ w1 hw1 h1 => ?_
  refine (Guards.and (keeps_quiet hstatus (Set.empty_disjoint _) hw1 returns_trivial)
    (guards_agrees hstatus)).mono (fun _ h => h.1) fun r w' h => ⟨h.1.1, fun a hr => ?_⟩
  obtain ⟨hmarker, journal, hget, hterminal⟩ := h1 _ rfl
  exact ⟨(h.2.file _ (Set.notMem_empty _)).trans hmarker, journal,
    (h.2.file _ (Set.notMem_empty _)).trans hget, hterminal⟩

theorem keeps_serverRecoverTerminal (hw : u.Held allowed base w)
    (hget : w.files.get? (.journal u.operationId) = some (.document (.journal journal)))
    (hterminal : journal.stage.isTerminal = true) :
    u.Keeps allowed base (serverRecoverTerminal formats u.plan) w
      fun r w' => ∀ a, r = .ok a → u.Ended w' := by
  refine hw.steady.quiet (writes_clearServerReadinessContract subset_rfl)
    readinessFiles_disjoint_watched returns_trivial (fun _ _ _ => nofun)
    fun _ w1 h1 _ => keeps_clearAndReport h1.held ⟨journal, ?_, hterminal⟩
  exact (World.Agrees.file h1.still _ (notMem_unwatched journal_watched)).trans hget

theorem Journaled.terminal {stage : Stage} {backup : Option BackupName}
    (h : u.Journaled stage backup w) (hstage : stage.isTerminal = true) : u.Closed w := by
  obtain ⟨journal, hget, rfl, -⟩ := h
  exact ⟨journal, hget, hstage⟩

theorem keeps_serverRecoverWithoutBackup (hw : u.Held allowed base w) (hreverted : u.Reverted w) :
    u.Keeps allowed base (serverRecoverWithoutBackup formats u.plan u.planSha256) w
      fun r w' => ∀ a, r = .ok a → u.Ended w' := by
  refine hw.steady.skip writes_sha256File (fun _ _ _ => nofun) fun _ w1 h1 => ?_
  refine h1.skip writes_ensure (fun _ _ _ => nofun) fun _ w2 ⟨hw2, h2⟩ => ?_
  refine (keeps_status hw2).bind (fun _ _ _ => nofun) fun _ w3 hw3 h3 => ?_
  have hrecords : ∀ now, u.Records (operationJournal u.plan u.planSha256 .failedBeforeReplacement
      none (some .noReplacementBackup) now) w3 := fun now =>
    ⟨bound_operationJournal now, nofun, nofun, fun _ _ =>
      (h2.trans h3).reverted hreverted⟩
  refine (keeps_journal hw3 hrecords).bind (fun _ _ _ => nofun) fun _ w4 hw4 h4 => ?_
  exact keeps_clearAndReport hw4 ((h4.2 _ rfl).terminal rfl)

theorem keeps_serverRecoverFromBackup {snapshot : Snapshot} (hw : u.Held allowed base w)
    (hready : u.Ready allowed directory snapshot w) :
    u.Keeps allowed base (serverRecoverFromBackup formats u.plan u.planSha256 directory) w
      fun r w' => ∀ a, r = .ok a → u.Ended w' := by
  refine (keeps_restoreAfterFailure hw hready).outcome_bind fun r w1 hw1 h1 => ?_
  cases r with
  | ok _ =>
    refine (keeps_status hw1).bind (fun _ _ _ => nofun) fun _ w2 hw2 h2 => ?_
    have hbacks : u.Backs .recovered directory w2 := (h2.rewritten.backs h1.1).advance nofun
    have hrecords : ∀ now, u.Records (operationJournal u.plan u.planSha256 .recovered
        (some directory) none now) w2 := by
      refine fun now => ⟨bound_operationJournal now, fun other hother => ?_, nofun, fun _ _ => ?_⟩
      · cases hother
        exact hbacks
      · exact h2.reverted (h1.2 _ rfl)
    refine (keeps_journal hw2 hrecords).bind (fun _ _ _ => nofun) fun _ w3 hw3 h3 => ?_
    exact keeps_clearAndReport hw3 ((h3.2 _ rfl).terminal rfl)
  | error error =>
    refine (keeps_journal hw1 (h1.1.records rfl)).outcome_bind fun _ w2 hw2 _ => ?_
    exact (keeps_status hw2).outcome_bind fun _ w3 hw3 _ => keeps_throw hw3 nofun

/-- The database may be overwritten from the backup that the journal names. -/
def Consents (u : ServerUpdate formats) (allowed : Overwrite → Prop)
    (consent : ServerRecoveryConsent) (w : World) : Prop :=
  ∀ journal directory snapshot,
    w.files.get? (.journal u.operationId) = some (.document (.journal journal)) →
    (!journal.stage.needsConsent
      || (consent.restoreAfterCandidateHandoff && consent.confirmDataLoss)) = true →
    journal.stage.isTerminal = false → u.Backed directory snapshot w →
    ((u.plan.restarts = true → journal.stage.precedesCandidate = true) →
      snapshot.starts = w.starts) → allowed ⟨directory, snapshot.starts, w.starts⟩

theorem consents_all (u : ServerUpdate formats) : u.Consents (fun _ => True) consent w :=
  fun _ _ _ _ _ _ _ _ => trivial

theorem keeps_serverRecoverStage (hw : u.Held allowed base w)
    (hconsents : u.Consents allowed consent w)
    (hget : w.files.get? (.journal u.operationId) = some (.document (.journal journal))) :
    u.Keeps allowed base (serverRecoverStage formats u.plan u.planSha256 journal consent) w
      fun r w' => ∀ a, r = .ok a → u.Ended w' := by
  obtain ⟨journal', hjournal', hrecords⟩ := hw.underway.journal _ hget
  cases hjournal'
  refine hw.steady.read writes_ensure returns_ensure (fun _ _ _ => nofun) fun _ w1 ⟨hw1, _⟩ h1 => ?_
  obtain ⟨rfl, hconsent⟩ := h1
  split_ifs with hterminal
  · exact keeps_serverRecoverTerminal hw1 hget hterminal
  · have hopen := Bool.not_eq_true _ ▸ hterminal
    cases hbackup : journal.backupDirectory with
    | none =>
      refine keeps_serverRecoverWithoutBackup hw1 (hrecords.reverted (fun h => ?_) (.inr hbackup))
      rw [h] at hopen
      cases hopen
    | some directory =>
      obtain ⟨snapshot, hbacked, hstarts⟩ := hrecords.backup directory hbackup
      have hready : u.Ready allowed directory snapshot w1 := by
        refine ⟨hbacked, fun hrestarts => hstarts fun h => ?_, ?_, .inr ⟨journal, hget, ?_, hbackup⟩⟩
        · cases hrestarts.symm.trans h
        · exact hconsents journal directory snapshot hget hconsent hopen hbacked hstarts
        · rw [Stage.inProgress, hopen]
          rfl
      exact keeps_serverRecoverFromBackup hw1 hready

theorem returns_readActivePlan :
    Returns formats (readActivePlan formats active mismatch) w fun _ w' => w' = w := by
  refine returns_readContent.reads fun content _ => returns_ensure.reads fun _ _ => ?_
  exact returns_ensure.reads fun _ _ => returns_pure.mono fun _ _ h => h.2

variable {I : World → Prop} {α β : Type} {post : Except UpdateError UpdateStatus → World → Prop}
  {confirmed : Bool}

theorem guards_read_bind {x : Call α} {f : α → Call β} {P : α → Prop}
    {post : Except UpdateError β → World → Prop} (hx : Writes .server ∅ x.run)
    (hw : u.Underway w) (hquiet : ∀ w', u.Still w w' → u.Underway w' → I w')
    (herror : ∀ error w', I w' → post (.error error) w')
    (hP : Returns formats x w fun a w' => w' = w ∧ P a)
    (hf : ∀ a, P a → (system formats).Guards anywhere I post (f a).run w) :
    (system formats).Guards anywhere I post (x >>= f).run w := by
  have hheld : u.Held (fun _ => True) w.overwrites w := ⟨hw, [], rfl, nofun⟩
  have hstill : ∀ w', w.Agrees ∅ w' → u.Still w w' := fun w' h => h.mono (Set.empty_subset _)
  have hguards : (system formats).Guards anywhere I (fun r w' => I w' ∧ ∀ a, r = .ok a →
      w' = w ∧ P a) x.run w := by
    refine ((keeps_quiet hx (Set.empty_disjoint _) hheld hP).and (guards_agrees hx)).mono
      (fun w' h => ?_) fun r w' h => ⟨?_, h.1.2.2⟩
    · exact hquiet w' (hstill w' h.2) h.1.underway
    · exact hquiet w' h.1.2.1 h.1.1.underway
  refine Guards.except_bind hguards (fun error w' h => ⟨h.1, herror error w' h.1⟩) fun a w' h => ?_
  obtain ⟨rfl, ha⟩ := h.2 a rfl
  exact hf a ha

theorem guards_serverRecoverActive
    (hw : u.Underway w) (hquiet : ∀ w', u.Still w w' → u.Underway w' → I w')
    (herror : ∀ error w', I w' → post (.error error) w') (hstage : ∀ journal,
      w.files.get? (.journal u.operationId) = some (.document (.journal journal)) →
      (system formats).Guards anywhere I post
        (serverRecoverStage formats u.plan u.planSha256 journal consent).run w) :
    (system formats).Guards anywhere I post (serverRecoverActive formats consent).run w := by
  refine guards_read_bind writes_readServerAuthenticatedJson hw hquiet herror
    returns_readServerAuthenticatedJson fun active ⟨content, hget, hparse⟩ => ?_
  obtain rfl := Content.eq_of_active? hparse
  obtain ⟨active', hactive', hmarks⟩ := hw.marker _ hget
  cases hactive'
  refine guards_read_bind writes_ensure hw hquiet herror returns_ensure fun _ _ => ?_
  refine guards_read_bind writes_readActivePlan hw hquiet herror
    (returns_readActivePlan.mono fun _ _ h => ⟨h, trivial⟩) fun _ _ => ?_
  rw [hmarks.planOperation, hmarks.planSha256]
  refine guards_read_bind writes_readServerAuthenticatedJson hw hquiet herror
    returns_readServerAuthenticatedJson fun plan ⟨content, hplan, hparsePlan⟩ => ?_
  rw [hw.plan.payload] at hplan
  cases hplan
  cases hparsePlan
  refine guards_read_bind writes_ensure hw hquiet herror returns_ensure fun _ _ => ?_
  refine guards_read_bind writes_ensure hw hquiet herror returns_ensure fun _ _ => ?_
  refine guards_read_bind (writes_read (.exists .target) rfl) hw hquiet herror returns_exists
    fun _ _ => ?_
  refine guards_read_bind writes_ensure hw hquiet herror returns_ensure fun _ _ => ?_
  refine guards_read_bind writes_readServerAuthenticatedJson hw hquiet herror
    returns_readServerAuthenticatedJson fun journal ⟨content, hjournal, hparseJournal⟩ => ?_
  obtain rfl := Content.eq_of_journal? hparseJournal
  refine guards_read_bind writes_ensure hw hquiet herror returns_ensure fun _ _ => ?_
  exact hstage journal hjournal

theorem guards_serverRecover (hw : u.Underway w)
    (hquiet : ∀ w', u.Still w w' → u.Underway w' → I w')
    (herror : ∀ error w', I w' → post (.error error) w')
    (hidle : w.files.get? .active = none → ∀ r w', I w' → post r w') (hstage : ∀ journal,
      w.files.get? (.journal u.operationId) = some (.document (.journal journal)) →
      (system formats).Guards anywhere I post
        (serverRecoverStage formats u.plan u.planSha256 journal consent).run w) :
    (system formats).Guards anywhere I post (serverRecover formats confirmed consent).run w := by
  refine guards_read_bind writes_ensure hw hquiet herror returns_ensure fun _ _ => ?_
  refine guards_read_bind writes_acquireLock hw hquiet herror
    (returns_acquireLock.mono fun _ _ h => ⟨h, trivial⟩) fun _ _ => ?_
  refine guards_read_bind (writes_read (.exists .active) rfl) hw hquiet herror returns_exists
    fun present hpresent => ?_
  split_ifs with hactive
  · exact guards_serverRecoverActive hw hquiet herror hstage
  · have hnone : w.files.get? .active = none := by
      rw [hpresent] at hactive
      exact Option.not_isSome_iff_eq_none.mp hactive
    have hstatus : Writes .server ∅ Updater.status.run := writes_status
    have hheld : u.Held (fun _ => True) w.overwrites w := ⟨hw, [], rfl, nofun⟩
    refine ((keeps_quiet hstatus (Set.empty_disjoint _) hheld returns_trivial).and
      (guards_agrees hstatus)).mono (fun w' h => ?_) fun r w' h => hidle hnone r w' ?_
    · exact hquiet w' (h.2.mono (Set.empty_subset _)) h.1.underway
    · exact hquiet w' h.1.2.1 h.1.1.underway

/-- **A recovery keeps the journal true**, whatever fails and wherever it is cut off. If it finds a
marker and succeeds, the update has ended. -/
theorem keeps_serverRecover (hw : u.Held allowed base w) (hconsents : u.Consents allowed consent w) :
    u.Keeps allowed base (serverRecover formats confirmed consent) w
      fun r w' => ∀ a, r = .ok a → w.files.get? .active ≠ none → u.Ended w' := by
  refine guards_serverRecover hw.underway (fun w' h hunderway => ?_) (fun _ _ h => ⟨h, nofun⟩)
    (fun hnone _ _ h => ⟨h, fun _ _ hsome => (hsome hnone).elim⟩) fun journal hget => ?_
  · exact h.held hw hunderway.responsive
  · exact (keeps_serverRecoverStage hw hconsents hget).mono fun r w' h a hr _ => h a hr

end Recover

end ServerUpdate

end LinkLake.Updater
