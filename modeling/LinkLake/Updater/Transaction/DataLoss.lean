import LinkLake.Updater.Transaction.Interrupted
import LinkLake.Updater.Transaction.ServerRecovery

/-!
# What a server's update can lose

A server that has been started on the live database may have accepted writes. When the database is
then overwritten from the snapshot that the update took before, these writes are lost. This is meant
to happen only after the caller of `serverRecover` has agreed to it.

A run of an update (`ServerRun`) is its schedule, its helper, and any number of recoveries, each of
which may fail anywhere and be cut off anywhere. The helper overwrites the database only while no
server has been started since the snapshot, and so does a recovery without consent
(`overwrites_of_serverRun`), unless it finds the rollback of a server that ran as a service cut off
after the journal said that the database had been restored: the rollback may have started the previous
server by then.
-/

namespace LinkLake.Updater

open CrashMachine

/-- The caller has agreed to lose what was written since the snapshot. -/
def ServerRecoveryConsent.full (consent : ServerRecoveryConsent) : Bool :=
  consent.restoreAfterCandidateHandoff && consent.confirmDataLoss

/-- The run of a server's update: its schedule, then its helper at most once, and recoveries at any
time. Every call may be cut off. The flag says whether the helper has been started. -/
inductive ServerRun (formats : Formats) (schedule : Schedule) (w0 : World) : Bool → World → Prop
  | scheduled {w : World} {r : Option (Except UpdateError String)}
      (h : (system formats).Ends anywhere (scheduleUpdate formats schedule).run w0 r w) :
      ServerRun formats schedule w0 false w
  | helped {w w' : World} {planSha256 : String} {r : Option (Except UpdateError Unit)}
      (hrun : ServerRun formats schedule w0 false w)
      (h : (system formats).Ends anywhere
        (runHelper formats schedule.operationId planSha256).run w r w') :
      ServerRun formats schedule w0 true w'
  | recovered {helped : Bool} {w w' : World} {confirmed : Bool} {consent : ServerRecoveryConsent}
      {r : Option (Except UpdateError UpdateStatus)}
      (hrun : ServerRun formats schedule w0 helped w)
      (h : (system formats).Ends anywhere (serverRecover formats confirmed consent).run w r w') :
      ServerRun formats schedule w0 helped w'

/-- No server has been started between the snapshot and the overwrite. -/
def Overwrite.LosesNothing (overwrite : Overwrite) : Prop :=
  overwrite.startsAtSnapshot = overwrite.starts

/-- The overwrite is from the older snapshot that a rollback was scheduled to restore. -/
def Schedule.Selects (schedule : Schedule) (w0 : World) (overwrite : Overwrite) : Prop :=
  ∃ context metadata snapshot, schedule.serverDatabase = some (.rollback context) ∧
    context.restoreSnapshot = true ∧
    w0.files.get? (.databaseSnapshot context.snapshotDirectory) =
      some (.document (.databaseSnapshot metadata)) ∧
    w0.snapshots.get? metadata.snapshotDirectory = some snapshot ∧
    overwrite.directory = metadata.snapshotDirectory ∧
    overwrite.startsAtSnapshot = snapshot.starts

/-- The rollback of a server that ran as a service has restored the database, and has not ended. -/
def World.RollbackOpen (operationId : Uuid) (w : World) : Prop :=
  ∃ plan journal, w.files.get? (.plan operationId) = some (.document (.plan plan)) ∧
    plan.restarts = true ∧
    w.files.get? (.journal operationId) = some (.document (.journal journal)) ∧
    journal.stage = .databaseRestoredForRollback

namespace ServerUpdate

/-! ## A recovery before the helper -/

variable {formats : Formats} {u : ServerUpdate formats} {allowed : Overwrite → Prop} {w w' : World}

section Before

variable {base : List Overwrite} {consent : ServerRecoveryConsent} {journal : UpdateJournal}

section

variable (hw : u.Begun allowed base w)
include hw

theorem guards_begun_clearAndReport : Preserves formats (u.Begun allowed base) (do
        clearActiveMarker formats .server u.plan.operationId
        Updater.status : Call UpdateStatus).run w := by
  have hwrites : Writes .server (authenticated .active)
      (clearActiveMarker formats .server u.plan.operationId).run :=
    writes_clearActiveMarker subset_rfl
  refine Guards.seq ((Guards.and (keeps_clearActiveMarker hw.held) (guards_agrees hwrites)).mono
    (fun _ h => hw.marker h.1 h.2) fun _ _ h => hw.marker h.1.1 h.2) fun _ w1 h1 => ?_
  exact guards_begun_reads writes_status h1

theorem guards_begun_serverRecoverStage
    (hget : w.files.get? (.journal u.operationId) = some (.document (.journal journal))) :
    Preserves formats (u.Begun allowed base)
      (serverRecoverStage formats u.plan u.planSha256 journal consent).run w := by
  refine Guards.seq (guards_begun_reads writes_ensure hw) fun _ w1 h1 => ?_
  rw [hw.unchanged.unrecorded journal hget]
  split_ifs
  · refine Guards.seq (guards_begun (writes_clearServerReadinessContract subset_rfl)
      readinessFiles_disjoint_watched h1) fun _ w2 h2 => guards_begun_clearAndReport h2
  · have hstage : Stage.failedBeforeReplacement ≠ .completed := nofun
    refine Guards.seq (guards_begun_reads writes_sha256File h1) fun _ w2 h2 => ?_
    refine Guards.seq (guards_begun_reads writes_ensure h2) fun _ w3 h3 => ?_
    refine Guards.seq (guards_begun_status h3) fun _ w4 h4 => ?_
    exact Guards.seq (guards_begun_journal hstage h4) fun _ w5 h5 => guards_begun_clearAndReport h5

theorem guards_begun_serverRecover {confirmed : Bool} :
    Preserves formats (u.Begun allowed base) (serverRecover formats confirmed consent).run w :=
  guards_serverRecover hw.held.underway
    (fun _ h hunderway => hw.still (h.held hw.held hunderway.responsive) h) (fun _ _ h => h)
    (fun _ _ _ h => h) fun _ hget => guards_begun_serverRecoverStage hw hget

end

theorem guards_idle_serverRecover {schedule : Schedule} {w0 : World} {confirmed : Bool}
    (hw : Idle schedule w0 w) :
    Preserves formats (Idle schedule w0) (serverRecover formats confirmed consent).run w := by
  refine Guards.seq (guards_idle_reads writes_ensure hw) fun _ w1 h1 => ?_
  refine Guards.seq (guards_idle_reads writes_acquireLock h1) fun _ w2 h2 => ?_
  refine (guards_idle_reads (writes_read (.exists .active) rfl) h2).step returns_exists (fun _ => id)
    fun present w3 h3 ⟨_, hpresent⟩ => ?_
  rw [hpresent, h2.marker]
  exact guards_idle_reads writes_status h3

end Before

section Run

variable {schedule : Schedule} {previous : Content} {w0 : World} {helped : Bool}

/-- What is known of the state of a run: there is no marker, or the journal is true. Until the helper
is started, executable and database are unchanged. -/
def Reached (formats : Formats) (schedule : Schedule) (previous : Content) (w0 : World)
    (helped : Bool) (w : World) : Prop :=
  Idle schedule w0 w ∨ ∃ u : ServerUpdate formats, u.Follows schedule previous w0 ∧
    u.Underway w ∧ (helped = false → u.Unchanged w ∧ u.Fresh w)

theorem Underway.held (hw : u.Underway w) : u.Held allowed w.overwrites w := ⟨hw, [], rfl, nofun⟩

theorem held_of_runHelper {planSha256 : String} {r : Option (Except UpdateError Unit)}
    (hpermits : u.Permits allowed) (hfollows : u.Follows schedule previous w0) (hw : u.Underway w)
    (hbefore : u.Unchanged w ∧ u.Fresh w) (h : (system formats).Ends anywhere
      (Updater.runHelper formats schedule.operationId planSha256).run w r w') :
    u.Held allowed w.overwrites w' := by
  have hid := hfollows.plan.operationId
  rw [← hid] at h
  exact (keeps_runHelper hpermits ⟨hw.held, hbefore.1, hbefore.2⟩).held_of_ends h

theorem reached_of_serverRun (hproduct : schedule.product = .server)
    (hprevious : ∀ content, w0.files.get? .target = some content → content = previous)
    (hactive : w0.files.get? .active = none) (hrun : ServerRun formats schedule w0 helped w) :
    Reached formats schedule previous w0 helped w := by
  induction hrun with
  | scheduled h =>
    refine ((guards_scheduleUpdate hproduct hprevious hactive).of_ends h).imp (fun h => h) ?_
    rintro ⟨u, hfollows, hbegun⟩
    exact ⟨u, hfollows, hbegun.held.underway, fun _ => ⟨hbegun.unchanged, hbegun.fresh⟩⟩
  | helped _ h ih =>
    obtain hidle | ⟨u, hfollows, hunderway, hbefore⟩ := ih
    · exact .inl ((guards_idle_runHelper hidle).of_ends h)
    · have hheld := held_of_runHelper
        ⟨fun _ _ => trivial, fun _ _ => trivial⟩ hfollows hunderway (hbefore rfl) h
      exact .inr ⟨u, hfollows, hheld.underway, nofun⟩
  | @recovered helped _ _ _ _ _ _ h ih =>
    obtain hidle | ⟨u, hfollows, hunderway, hbefore⟩ := ih
    · exact .inl ((guards_idle_serverRecover hidle).of_ends h)
    · have hheld := (keeps_serverRecover hunderway.held u.consents_all).held_of_ends h
      refine .inr ⟨u, hfollows, hheld.underway, fun hnot => ?_⟩
      obtain ⟨hunchanged, hfresh⟩ := hbefore hnot
      have hbegun : u.Begun (fun _ => True) _ _ := ⟨hunderway.held, hunchanged, hfresh⟩
      have hafter := (guards_begun_serverRecover hbegun).of_ends h
      exact ⟨hafter.unchanged, hafter.fresh⟩

theorem precedesCandidate_of_not_consented {stage : Stage} (hopen : stage.isTerminal = false)
    (hconsent : stage.needsConsent = false) (hrestored : stage ≠ .databaseRestoredForRollback) :
    stage.precedesCandidate = true := by
  cases stage <;> simp_all [Stage.isTerminal, Stage.needsConsent, Stage.precedesCandidate]

theorem consents_losesNothing {consent : ServerRecoveryConsent}
    (hunderway : u.Underway w) (hconsent : consent.full = false)
    (hopen : ¬ w.RollbackOpen u.operationId) : u.Consents Overwrite.LosesNothing consent w := by
  intro journal directory snapshot hget hneeds hterminal _ hstarts
  refine hstarts fun hrestarts => precedesCandidate_of_not_consented hterminal ?_ fun hstage => ?_
  · rw [show (consent.restoreAfterCandidateHandoff && consent.confirmDataLoss) = false from hconsent,
      Bool.or_false, Bool.not_eq_true'] at hneeds
    exact hneeds
  · exact hopen ⟨u.plan, journal, hunderway.plan.payload, hrestarts, hget, hstage⟩

theorem Selected.selects {overwrite : Overwrite}
    (hfollows : u.Follows schedule previous w0) (h : u.Selected overwrite) :
    schedule.Selects w0 overwrite := by
  obtain ⟨context, metadata, snapshot, hcontext, hrest⟩ := h
  rw [hfollows.origin] at hrest
  exact ⟨context, metadata, snapshot, hfollows.plan.serverDatabase.symm.trans hcontext, hrest⟩

theorem Idle.overwrites (hw : Idle schedule w0 w) : w.overwrites = w0.overwrites :=
  (hw.agrees.database (by simp)).2.2

theorem Idle.overwrote (hw : Idle schedule w0 w)
    (hw' : Idle schedule w0 w') : w'.Overwrote allowed w.overwrites :=
  ⟨[], hw'.overwrites.trans hw.overwrites.symm, nofun⟩

/-- The installed executable of the state in which an update is scheduled. -/
def installed (w0 : World) : Content := (w0.files.get? .target).getD (.binary [])

theorem eq_installed (w0 : World) (content : Content)
    (h : w0.files.get? .target = some content) : content = installed w0 := by
  rw [installed, h]
  rfl

end Run

end ServerUpdate

section Main

variable {formats : Formats} {schedule : Schedule} {w0 : World}

open ServerUpdate

/-- **Nothing is lost without consent.** Over every run of a server's update, the schedule leaves the
database alone; the helper overwrites it from the snapshot of the update only if no server has been
started since the snapshot; and so does a recovery without consent, unless it finds a rollback that
has restored the database and has not ended. -/
theorem overwrites_of_serverRun (hproduct : schedule.product = .server)
    (hactive : w0.files.get? .active = none) :
    (∀ r w, (system formats).Ends anywhere (scheduleUpdate formats schedule).run w0 r w →
      w.overwrites = w0.overwrites) ∧
    (∀ w planSha256 r w', ServerRun formats schedule w0 false w →
      (system formats).Ends anywhere
        (runHelper formats schedule.operationId planSha256).run w r w' →
      w'.Overwrote (fun overwrite => overwrite.LosesNothing ∨ schedule.Selects w0 overwrite)
        w.overwrites) ∧
    ∀ helped w confirmed consent r w', ServerRun formats schedule w0 helped w →
      consent.full = false → ¬ w.RollbackOpen schedule.operationId →
      (system formats).Ends anywhere (serverRecover formats confirmed consent).run w r w' →
      w'.Overwrote Overwrite.LosesNothing w.overwrites := by
  have hreached : ∀ {helped w}, ServerRun formats schedule w0 helped w →
      Reached formats schedule (installed w0) w0 helped w :=
    reached_of_serverRun hproduct (eq_installed w0) hactive
  refine ⟨fun r w h => ?_, fun w planSha256 r w' hrun h => ?_,
    fun helped w confirmed consent r w' hrun hconsent hopen h => ?_⟩
  · obtain hidle | ⟨u, hfollows, -, hbefore⟩ := hreached (.scheduled h)
    · exact hidle.overwrites
    · exact hfollows.origin ▸ (hbefore rfl).1.database.overwrites
  · obtain hidle | ⟨u, hfollows, hunderway, hbefore⟩ := hreached hrun
    · exact hidle.overwrote ((guards_idle_runHelper hidle).of_ends h)
    · exact (held_of_runHelper ⟨fun _ => .inl, fun _ hselected => .inr (hselected.selects hfollows)⟩
        hfollows hunderway (hbefore rfl) h).overwrote
  · obtain hidle | ⟨u, hfollows, hunderway, -⟩ := hreached hrun
    · exact hidle.overwrote ((guards_idle_serverRecover hidle).of_ends h)
    · have hid := hfollows.plan.operationId
      rw [← hid] at hopen
      have hconsents := consents_losesNothing hunderway hconsent hopen
      exact ((keeps_serverRecover hunderway.held hconsents).held_of_ends h).overwrote

end Main

section Examples

/-- The digest of a journal shows whether the helper has just been started. -/
def markedSha256 : Content → String
  | .document (.journal ⟨_, _, _, _, _, .helperStarted, _, _, _⟩) =>
    "3333333333333333333333333333333333333333333333333333333333333333"
  | content => plainSha256 content

theorem isSha256_markedSha256 (content : Content) : isSha256 (markedSha256 content) = true := by
  unfold markedSha256
  split
  · decide +kernel
  · exact plainFormats.isSha256_sha256 _

def markedFormats : Formats where
  length _ := 0
  sha256 := markedSha256
  hmac _ := markedSha256
  version := plainVersion
  isSha256_sha256 := isSha256_markedSha256
  isSha256_hmac _ := isSha256_markedSha256

/-- A server that runs as a service, with its second version downloaded. -/
def runningServer : World :=
  { firstInstalled with service := .running, database := ⟨1, zeroSha256, none, []⟩ }

def serverStaged : Schedule where
  product := .server
  operation := .apply
  staged := ⟨.server, "1.0.0", "2.0.0", plainSha256 (.binary [2]), .staged "new"⟩
  serverDatabase := some (.apply ⟨.staged "new", plainSha256 (.binary [1]),
    plainSha256 (.binary [2]), 1, zeroSha256⟩)
  operationId := ⟨7⟩

/-- Nothing fails. -/
def working : Choice := { steady with ledgerSha256 := zeroSha256 }

def failing : Choice := { working with fails := true }

/-- The state in which the helper is started. -/
def serverScheduled : Option (Except UpdateError String) × World :=
  (system markedFormats).play (List.replicate 40 working)
    (scheduleUpdate markedFormats serverStaged).run runningServer

/-- The state in which a crash cuts off the helper. -/
def helperCut (choices : List Choice) : Option World :=
  (system markedFormats).tear working choices (runHelper markedFormats ⟨7⟩ zeroSha256).run
    serverScheduled.2

theorem serverRun_scheduled : ServerRun markedFormats serverStaged runningServer false
    serverScheduled.2 := by
  have h : serverScheduled.1.isSome = true := by decide +kernel
  obtain ⟨r, hr⟩ := Option.isSome_iff_exists.mp h
  exact .scheduled (ends_play (Prod.ext hr rfl))

theorem serverRun_helperCut {choices : List Choice} {w : World} (h : helperCut choices = some w) :
    ServerRun markedFormats serverStaged runningServer true w :=
  .helped serverRun_scheduled (ends_tear h)

/-- A recovery without consent. -/
def recoveryRun (w : World) : Option (Except UpdateError UpdateStatus) × World :=
  (system markedFormats).play (List.replicate 120 working)
    (serverRecover markedFormats true ⟨false, false⟩).run w

/-- The last overwrite has lost what a server may have written. -/
def World.lost (w w' : World) : Bool :=
  match w'.overwrites with
  | overwrite :: rest => decide (rest = w.overwrites ∧ overwrite.startsAtSnapshot < overwrite.starts)
  | [] => false

theorem not_overwrote_of_lost {w w' : World} (h : w.lost w' = true) :
    ¬ w'.Overwrote Overwrite.LosesNothing w.overwrites := by
  rintro ⟨since, hsince, hnothing⟩
  unfold World.lost at h
  split at h
  case h_2 => cases h
  case h_1 overwrite rest hlast =>
    obtain ⟨rfl, hlost⟩ := of_decide_eq_true h
    have happend := hlast.symm.trans hsince
    have hone : since = [overwrite] := (List.append_cancel_right happend).symm
    exact hlost.ne (hnothing overwrite (by simp [hone]))

/-- **Writes that are lost without consent.** The journal cannot be written after the backup, so that
the helper rolls back: it restores the database, puts the previous executable back and starts it.
Before the journal says that the update has been rolled back, the machine fails. A recovery without
consent then overwrites the database once more, with all that the previous server has written. -/
theorem recovery_loses_writes : ∃ w r w', ServerRun markedFormats serverStaged runningServer true w ∧
    (system markedFormats).Ends anywhere (serverRecover markedFormats true ⟨false, false⟩).run w
      (some (.ok r)) w' ∧ ¬ w'.Overwrote Overwrite.LosesNothing w.overwrites := by
  have h : ∃ w ∈ helperCut (List.replicate 41 working ++ failing :: List.replicate 37 working),
      (recoveryRun w).1.map failed = some false ∧ w.lost (recoveryRun w).2 = true := by
    decide +kernel
  obtain ⟨w, hcut, hrecovered, hlost⟩ := h
  obtain ⟨status, hstatus⟩ := eq_ok_of_not_failed hrecovered
  exact ⟨w, status, _, serverRun_helperCut hcut, ends_play (Prod.ext hstatus rfl),
    not_overwrote_of_lost hlost⟩

/-- The stage of the journal. -/
def World.stage? (w : World) (operationId : Uuid) : Option Stage :=
  ((w.files.get? (.journal operationId)).bind Content.journal?).map (·.stage)

/-- The helper is cut off after it has installed the candidate: a recovery without consent restores
the database, and loses nothing. -/
theorem recovery_loses_nothing : ∃ w r w', ServerRun markedFormats serverStaged runningServer true w ∧
    (system markedFormats).Ends anywhere (serverRecover markedFormats true ⟨false, false⟩).run w r
      w' ∧ w'.overwrites ≠ w.overwrites ∧ w'.Overwrote Overwrite.LosesNothing w.overwrites := by
  have h : ∃ w ∈ helperCut (List.replicate 75 working), (recoveryRun w).1.isSome = true ∧
      (recoveryRun w).2.overwrites ≠ w.overwrites ∧ w.stage? ⟨7⟩ = some .databasePreflighted := by
    decide +kernel
  have hproduct : serverStaged.product = .server := rfl
  have hactive : runningServer.files.get? .active = none := by decide +kernel
  obtain ⟨w, hcut, hsome, hne, hstage⟩ := h
  obtain ⟨r, hr⟩ := Option.isSome_iff_exists.mp hsome
  have hopen : ¬ w.RollbackOpen ⟨7⟩ := by
    rintro ⟨plan, journal, -, -, hjournal, hlate⟩
    rw [World.stage?, hjournal] at hstage
    cases hlate.symm.trans (Option.some.inj hstage)
  have hends : (system markedFormats).Ends anywhere
      (serverRecover markedFormats true ⟨false, false⟩).run w (some r) (recoveryRun w).2 :=
    ends_play (Prod.ext hr rfl)
  exact ⟨w, some r, _, serverRun_helperCut hcut, hends, hne,
    (overwrites_of_serverRun hproduct hactive).2.2 true w true ⟨false, false⟩ _ _
      (serverRun_helperCut hcut) rfl hopen hends⟩

end Examples

end LinkLake.Updater
