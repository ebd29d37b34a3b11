import LinkLake.Updater.Transaction.Footprint

/-!
# What a call has done when it succeeds, and when it does succeed

Two ways to speak of a call. `Returns` is about a machine on which anything may fail: *if* the call
succeeds, then its value and the state after it have a property. `Succeeds` is about a machine on which
nothing fails: the call *does* succeed, with a property.
-/

namespace LinkLake.Updater

open CrashMachine

/-- The digest of the installed executable. -/
def World.installedSha256 (formats : Formats) (w : World) : Option String :=
  (w.files.get? .target).map formats.sha256

variable {formats : Formats} {α β : Type} {w : World} {x : Call α} {P : α → World → Prop}
  {file : FileName} {Q : β → World → Prop} {planSha256 : String} {f : α → Call β}
  {J I : World → Prop} {condition : Bool} {choice : Choice} {action : Action}

section Returns

variable {files : Set FileName} {product : UpdateProduct} {binary : FileName}
  {directory : BackupName} {error : UpdateError} {operationId : Uuid} {parse : Content → Option α}
  {plan : HelperPlan} {document : Document} {purpose : Purpose} {schedule : Schedule}
  {previous : String}

/-! ## What a call that succeeds has done -/

/-- If the call succeeds, its value and the state after it satisfy the postcondition. -/
def Returns (formats : Formats) (x : Call α) (w : World) (post : α → World → Prop) : Prop :=
  (system formats).Guards anywhere (fun _ => True) (fun r w' => ∀ a, r = .ok a → post a w') x.run w

theorem Returns.bind (hx : Returns formats x w P) (hf : ∀ a w', P a w' → Returns formats (f a) w' Q) :
    Returns formats (x >>= f) w Q :=
  Guards.except_bind hx (fun _ _ _ => ⟨trivial, nofun⟩) fun a w' h => hf a w' (h a rfl)

theorem Returns.mono {Q : α → World → Prop} (hx : Returns formats x w P)
    (h : ∀ a w', P a w' → Q a w') : Returns formats x w Q :=
  Guards.mono hx (fun _ => id) fun _ w' hr a ha => h a w' (hr a ha)

theorem Returns.and {Q : α → World → Prop} (hP : Returns formats x w P) (hQ : Returns formats x w Q) :
    Returns formats x w fun a w' => P a w' ∧ Q a w' :=
  (Guards.and hP hQ).mono (fun _ _ => trivial) fun _ _ h a ha => ⟨h.1 a ha, h.2 a ha⟩

theorem returns_trivial : Returns formats x w fun _ _ => True :=
  guards_trivial.mono (fun _ => id) fun _ _ _ _ _ => trivial

theorem Preserves.step (hx : Preserves formats J x.run w) (hr : Returns formats x w P)
    (hJ : ∀ w, J w → I w) (hf : ∀ a w', J w' → P a w' → Preserves formats I (f a).run w') :
    Preserves formats I (x >>= f).run w :=
  Guards.except_bind ((Guards.and hx hr).mono (fun _ h => hJ _ h.1) fun _ _ => id)
    (fun _ _ h => ⟨hJ _ h.1, hJ _ h.1⟩) fun a w' h => hf a w' h.1 (h.2 a rfl)

theorem returns_after (h : ∀ a w', Returns formats (f a) w' Q) : Returns formats (x >>= f) w Q :=
  returns_trivial.bind fun a w' _ => h a w'

theorem Returns.reads {R : α → Prop} (hx : Returns formats x w fun a w' => w' = w ∧ R a)
    (hf : ∀ a, R a → Returns formats (f a) w Q) : Returns formats (x >>= f) w Q :=
  hx.bind fun a _ h => h.1 ▸ hf a h.2

theorem returns_pure {a : α} : Returns formats (pure a) w fun b w' => b = a ∧ w' = w :=
  ⟨trivial, fun _ h => ⟨(Except.ok.inj h).symm, rfl⟩⟩

theorem returns_throw : Returns formats (throw error) w P := ⟨trivial, nofun⟩

theorem returns_ensure :
    Returns formats (ensure condition error) w fun _ w' => w' = w ∧ condition = true := by
  unfold ensure
  split_ifs with h
  · exact ⟨trivial, fun _ _ => ⟨rfl, h⟩⟩
  · exact returns_throw

theorem returns_expect {a : Option α} :
    Returns formats (expect error a) w fun b w' => w' = w ∧ a = some b := by
  cases a with
  | none => exact returns_throw
  | some a => exact ⟨trivial, fun _ h => ⟨rfl, congrArg some (Except.ok.inj h)⟩⟩

theorem returns_sys :
    Returns formats (sys action) w fun a w' => ∃ choice, perform formats choice w action = (a, w') :=
  ⟨⟨fun _ => trivial, fun _ _ => trivial⟩, fun choice => ⟨trivial, fun _ h =>
    ⟨choice, Prod.ext (Except.ok.inj h) rfl⟩⟩⟩

theorem returns_acquireLock : Returns formats acquireLock w fun _ w' => w' = w := by
  refine returns_sys.bind fun acquired w1 h1 => returns_ensure.mono fun _ w2 h2 => ?_
  obtain ⟨choice, hperform⟩ := h1
  exact h2.1.trans (Prod.mk.inj hperform).2.symm

theorem returns_exists : Returns formats (sys (.exists file)) w fun present w' =>
      w' = w ∧ present = (w.files.get? file).isSome := by
  refine returns_sys.mono fun present w' ⟨choice, hperform⟩ => ?_
  exact ⟨(Prod.mk.inj hperform).2.symm, (Prod.mk.inj hperform).1.symm⟩

theorem returns_clock : Returns formats (sys .clock) w fun _ w' => w' = w := by
  refine returns_sys.mono fun now w' ⟨choice, hperform⟩ => ?_
  exact (Prod.mk.inj hperform).2.symm

theorem returns_sha256File : Returns formats (sha256File file) w fun digest w' =>
      w' = w ∧ (w.files.get? file).map formats.sha256 = some digest := by
  refine returns_sys.bind fun answer w1 ⟨choice, hperform⟩ => returns_expect.mono ?_
  rintro digest w2 ⟨rfl, rfl⟩
  rw [perform] at hperform
  split_ifs at hperform
  · cases hperform
  · obtain ⟨hanswer, rfl⟩ := Prod.mk.inj hperform
    exact ⟨rfl, hanswer⟩

theorem returns_readContent : Returns formats (readContent file) w fun content w' =>
      w' = w ∧ w.files.get? file = some content := by
  refine returns_sys.bind fun answer w1 ⟨choice, hperform⟩ => returns_expect.mono ?_
  rintro content w2 ⟨rfl, rfl⟩
  rw [perform] at hperform
  split_ifs at hperform
  · cases hperform
  · obtain ⟨hanswer, rfl⟩ := Prod.mk.inj hperform
    exact ⟨rfl, hanswer⟩

theorem returns_readDurableJson : Returns formats (readDurableJson parse file) w fun a w' =>
      w' = w ∧ ∃ content, w.files.get? file = some content ∧ parse content = some a := by
  refine returns_readContent.reads fun content hget => returns_expect.mono fun a w1 h1 => ?_
  exact ⟨h1.1, content, hget, h1.2⟩

theorem returns_readServerAuthenticatedJson :
    Returns formats (readServerAuthenticatedJson formats parse file purpose) w fun a w' =>
      w' = w ∧ ∃ content, w.files.get? file = some content ∧ parse content = some a := by
  refine returns_readContent.reads fun content hget => returns_readDurableJson.reads fun tag _ => ?_
  refine returns_ensure.reads fun _ _ => returns_ensure.reads fun _ _ => ?_
  refine returns_ensure.reads fun _ _ => returns_expect.mono fun a w1 h1 => ?_
  exact ⟨h1.1, content, hget, h1.2⟩

theorem returns_readState {owner : UpdateProduct} :
    Returns formats (readState formats owner parse file purpose) w fun a w' =>
      w' = w ∧ ∃ content, w.files.get? file = some content ∧ parse content = some a := by
  unfold readState
  split_ifs
  · exact returns_readServerAuthenticatedJson
  · exact returns_readDurableJson

theorem eq_of_settle {w1 w2 : World} (h : choice.settle w w1 = (true, w2)) : w2 = w1 := by
  obtain hsettle | hsettle | hsettle := settle_cases choice w w1 <;> rw [hsettle] at h
  · exact (Prod.mk.inj h).2.symm
  · cases (Prod.mk.inj h).1
  · cases (Prod.mk.inj h).1

theorem returns_writeDurableJson :
    Returns formats (writeDurableJson file document) w fun _ w' =>
      w' = w.setFile file (.document document) := by
  refine returns_sys.bind fun written w1 ⟨choice, hperform⟩ => returns_ensure.mono ?_
  rintro _ w2 ⟨rfl, rfl⟩
  exact eq_of_settle hperform

theorem returns_removeDurableFile :
    Returns formats (removeDurableFile file) w fun _ w' => w' = w.eraseFile file := by
  refine returns_sys.bind fun removed w1 ⟨choice, hperform⟩ => returns_ensure.mono ?_
  rintro _ w2 ⟨rfl, rfl⟩
  rw [perform] at hperform
  split at hperform
  · cases (Prod.mk.inj hperform).1
  · exact eq_of_settle hperform

theorem returns_copyFile {source destination : FileName} :
    Returns formats (copyFile source destination) w fun _ w' =>
      ∃ content, w.files.get? source = some content ∧ w' = w.setFile destination content := by
  refine returns_sys.bind fun copied w1 ⟨choice, hperform⟩ => returns_ensure.mono ?_
  rintro _ w2 ⟨rfl, rfl⟩
  rw [perform] at hperform
  split at hperform
  · cases (Prod.mk.inj hperform).1
  · rename_i content hcontent
    split_ifs at hperform
    · cases (Prod.mk.inj hperform).1
    · cases (Prod.mk.inj hperform).1
    · exact ⟨content, hcontent, (Prod.mk.inj hperform).2.symm⟩

theorem returns_inspectServerDatabase :
    Returns formats (inspectServerDatabase binary) w fun report w' =>
      w' = w ∧ report = ⟨w.database.schema, w.database.ledgerSha256⟩ := by
  refine returns_sys.bind fun answer w1 ⟨choice, hperform⟩ => returns_expect.mono ?_
  rintro report w2 ⟨rfl, rfl⟩
  rw [perform] at hperform
  split_ifs at hperform
  · cases hperform
  · obtain ⟨hanswer, rfl⟩ := Prod.mk.inj hperform
    exact ⟨rfl, (Option.some.inj hanswer).symm⟩

theorem returns_takeSnapshot :
    Returns formats (sys (.takeSnapshot binary directory)) w fun taken w' =>
      taken = true → ∃ content, w' = w.snapshotted directory content := by
  refine returns_sys.mono fun taken w' ⟨choice, hperform⟩ htaken => ?_
  rw [htaken] at hperform
  exact ⟨choice.content, eq_of_settle hperform⟩

theorem returns_restore :
    Returns formats (sys (.restore binary directory)) w fun restored w' => restored = true →
      ∃ snapshot, w.snapshots.get? directory = some snapshot ∧
        w' = w.restored directory snapshot := by
  refine returns_sys.mono fun restored w' ⟨choice, hperform⟩ hrestored => ?_
  rw [perform, hrestored] at hperform
  split at hperform
  · cases (Prod.mk.inj hperform).1
  · rename_i snapshot hsnapshot
    exact ⟨snapshot, hsnapshot, eq_of_settle hperform⟩

theorem returns_snapshotSha256 :
    Returns formats (sys (.snapshotSha256 directory)) w fun digest w' => w' = w ∧
      (digest = none ∨
        digest = (w.snapshots.get? directory).map fun snapshot =>
          formats.sha256 snapshot.content) := by
  refine returns_sys.mono fun digest w' ⟨choice, hperform⟩ => ?_
  rw [perform] at hperform
  obtain ⟨hdigest, rfl⟩ := Prod.mk.inj hperform
  refine ⟨rfl, ?_⟩
  rw [← hdigest]
  split_ifs
  · exact .inl rfl
  · exact .inr rfl

theorem returns_agrees (hx : Writes product files x.run) :
    Returns formats x w fun _ w' => w.Agrees files w' :=
  (guards_agrees hx).mono (fun _ _ => trivial) fun _ _ h _ _ => h

theorem returns_kept (hx : Writes product files x.run) (hfile : file ∉ files) :
    Returns formats x w fun _ w' => w'.files.get? file = w.files.get? file :=
  (guards_kept hx hfile).mono (fun _ _ => trivial) fun _ _ h _ _ => h

theorem guards_writeDurableJson (hw : I w) (hset : I (w.setFile file (.document document))) :
    Preserves formats I (writeDurableJson file document).run w := by
  refine guards_take.mpr ⟨⟨fun _ => hw, fun _ _ => hw⟩, fun choice => ?_⟩
  change (system formats).Guards anywhere I _ (ensure (Choice.settle choice w _).1 .io).run
    (Choice.settle choice w _).2
  have hafter : I (choice.settle w (w.setFile file (.document document))).2 := by
    obtain h | h | h := settle_cases choice w (w.setFile file (.document document)) <;> rw [h] <;>
      assumption
  unfold ensure
  split_ifs
  · exact ⟨hafter, hafter⟩
  · exact ⟨hafter, hafter⟩

theorem returns_installed {α : Type} {x : Call α} {digest : String}
    (hx : Writes product files x.run) (htarget : .target ∉ files)
    (h : w.installedSha256 formats = some digest) :
    Returns formats x w fun _ w' => w'.installedSha256 formats = some digest :=
  (returns_kept hx htarget).mono fun _ w' h' => by rw [World.installedSha256, h']; exact h

theorem returns_checkedTarget {expected : String} {x : Call Unit}
    (hx : Writes product files x.run) (htarget : .target ∉ files) :
    Returns formats (do
      let digest ← sha256File .target
      ensure (digest == expected) error
      x) w fun _ w' => w'.installedSha256 formats = some expected := by
  refine returns_sha256File.reads fun digest hdigest => returns_ensure.reads fun _ hequal => ?_
  rw [eq_of_beq hequal] at hdigest
  exact returns_installed hx htarget hdigest

theorem target_notMem_handoff : FileName.target ∉
    authenticated (.journal operationId) ∪ readinessFiles ∪ {.liveDatabase} := by
  simp

theorem returns_installCandidate {backup : BackupName} :
    Returns formats (installCandidate formats plan planSha256 backup) w fun _ w' =>
      w'.installedSha256 formats = some plan.stagedSha256 := by
  refine returns_after fun _ _ => returns_after fun _ w2 => ?_
  have hrest : Writes plan.product
      (authenticated (.journal plan.operationId) ∪ readinessFiles ∪ {.liveDatabase})
      (do
        verifyInstalledVersion .target plan.toVersion
        if serverCandidateServiceHandoffRequired plan then
          executeServerCandidateHandoff formats plan planSha256 backup
        else restartServiceAfterUpdate plan : Call Unit).run := by
    refine writes_verifyInstalledVersion.bind fun _ => ?_
    split_ifs
    · exact writes_executeServerCandidateHandoff (fun _ h => .inl (.inl h))
        (fun _ h => .inl (.inr h)) (.inr rfl)
    · exact writes_restartServiceAfterUpdate (.inr rfl)
  exact returns_checkedTarget hrest target_notMem_handoff

/-! ## Plans -/

/-- The plan is one that the update was scheduled with. -/
structure HelperPlan.Follows (plan : HelperPlan) (schedule : Schedule) (previous : String) :
    Prop where
  operationId : plan.operationId = schedule.operationId
  product : plan.product = schedule.product
  staged : plan.stagedSha256 = schedule.staged.binarySha256
  previous : plan.expectedTargetSha256 = previous
  schemaVersion : plan.schemaVersion = updateSchemaVersion
  fromVersion : plan.fromVersion = schedule.staged.currentVersion
  serverDatabase : plan.serverDatabase = schedule.serverDatabase
  transaction : (plan.product == .server) = plan.serverDatabase.isSome

theorem returns_responsive {c : Prop} (hx : Writes product files x.run) (h : c → w.Responsive) :
    Returns formats x w fun _ w' => c → w'.Responsive := by
  refine (guards_of_only hx h (fun choice s action _ hs hc => ?_)
    fun choice s action _ hs hc => ?_).mono (fun _ _ => trivial) fun _ _ h' _ _ => h'
  · exact (effect_perform formats choice s action).responsive (hs hc)
  · exact (effect_torn formats choice s action).responsive (hs hc)

theorem returns_responsive_reads {c : Prop} (hx : Writes .server ∅ x.run) (h : c → w.Responsive) :
    Returns formats x w fun _ w' => c → w'.Responsive := returns_responsive hx h

theorem returns_installed_reads {x : Call α} (hx : Writes .client ∅ x.run)
    (h : w.installedSha256 formats = some previous) :
    Returns formats x w fun _ w' => w'.installedSha256 formats = some previous :=
  returns_installed hx (Set.notMem_empty _) h

theorem returns_preparePlan (h : w.installedSha256 formats = some previous) :
    Returns formats (preparePlan formats schedule) w fun plan _ =>
      plan.Follows schedule previous := by
  -- everything before the digest of the target leaves the target alone
  refine (returns_installed_reads writes_ensure h).bind fun _ w1 h => ?_
  refine ((returns_installed_reads writes_ensure h).and returns_ensure).bind fun _ w2 h2 => ?_
  obtain ⟨h, -, htransaction⟩ := h2
  refine (returns_installed_reads writes_validateTargetExecutable h).bind fun _ w3 h => ?_
  refine (returns_installed_reads (writes_read (.version .target) rfl) h).bind
    fun version w4 h => ?_
  refine ((returns_installed_reads writes_ensure h).and returns_ensure).bind fun _ w5 h5 => ?_
  obtain ⟨h, -, hversion⟩ := h5
  refine (returns_installed_reads writes_sha256File h).bind fun _ w6 h => ?_
  refine (returns_installed_reads writes_ensure h).bind fun _ w7 h => ?_
  refine (returns_installed_reads writes_settledRuntime h).bind fun _ w8 h => ?_
  refine (returns_installed_reads writes_ensure h).bind fun _ w9 h => ?_
  refine (returns_installed_reads (writes_read (.createDirectory _) rfl) h).bind fun _ w10 h => ?_
  refine (returns_installed_reads writes_ensure h).bind fun _ w11 h => ?_
  refine (returns_installed_reads writes_validateServerTransaction h).bind fun _ w12 h => ?_
  refine returns_sha256File.bind fun target w13 htarget => returns_after fun now _ => ?_
  refine returns_pure.mono fun plan _ hplan => ?_
  obtain ⟨rfl, -⟩ := hplan
  have hdigest := htarget.2.symm.trans h
  refine ⟨rfl, rfl, rfl, Option.some.inj hdigest, rfl, ?_, rfl, eq_of_beq htransaction⟩
  cases version with
  | none => rfl
  | some version => exact (eq_of_beq hversion).symm

theorem returns_preparePlan_product : Returns formats (preparePlan formats schedule) w fun plan _ =>
    plan.product = schedule.product := by
  iterate 14 refine returns_after fun _ _ => ?_
  exact returns_pure.mono fun plan _ h => congrArg HelperPlan.product h.1

theorem returns_preparePlan_target :
    Returns formats (preparePlan formats schedule) w fun _ _ => w.files.get? .target ≠ none := by
  refine returns_ensure.reads fun _ _ => returns_ensure.reads fun _ _ => ?_
  have hchecked : Returns formats validateTargetExecutable w fun _ _ =>
      w.files.get? .target ≠ none :=
    returns_exists.reads fun present hpresent => returns_ensure.mono fun _ _ h hnone => by
      rw [h.2, hnone] at hpresent
      cases hpresent
  exact hchecked.bind fun _ _ h => returns_trivial.mono fun _ _ _ => h

theorem returns_settledRuntime : Returns formats settledRuntime w fun runtime w' =>
    runtime ≠ .notInstalled → w'.Responsive := by
  refine returns_sys.bind fun answer w1 ⟨choice, hperform⟩ => returns_expect.bind ?_
  rintro runtime w2 ⟨rfl, rfl⟩
  rw [perform] at hperform
  split_ifs at hperform
  · cases hperform
  · obtain ⟨hanswer, rfl⟩ := Prod.mk.inj hperform
    obtain hservice := Option.some.inj hanswer
    cases runtime with
    | notInstalled => exact returns_pure.mono fun _ _ h hne => (hne h.1).elim
    | stopped => exact returns_pure.mono fun _ _ h _ => h.2 ▸ .inl hservice
    | running => exact returns_pure.mono fun _ _ h _ => h.2 ▸ .inr hservice
    | transitioning => exact returns_throw
    | unknown => exact returns_throw

theorem returns_preparePlan_responsive :
    Returns formats (preparePlan formats schedule) w fun plan w' =>
      plan.serviceInstalled = true → w'.Responsive := by
  iterate 7 refine returns_after fun _ _ => ?_
  refine returns_settledRuntime.bind fun service w1 h1 => ?_
  refine (returns_responsive_reads writes_ensure h1).bind fun _ w2 h2 => ?_
  refine (returns_responsive_reads (writes_read (.createDirectory _) rfl) h2).bind fun _ w3 h3 => ?_
  refine (returns_responsive_reads writes_ensure h3).bind fun _ w4 h4 => ?_
  refine (returns_responsive_reads writes_validateServerTransaction h4).bind fun _ w5 h5 => ?_
  refine (returns_responsive_reads writes_sha256File h5).bind fun target w6 h6 => ?_
  refine returns_clock.bind fun now w7 h7 => returns_pure.mono fun plan w8 h8 => ?_
  rw [h8.1, h8.2, h7]
  exact fun hinstalled => h6 (bne_iff_ne.mp hinstalled)

theorem Content.eq_of_plan? {content : Content} (h : content.plan? = some plan) :
    content = .document (.plan plan) := by
  unfold Content.plan? at h
  split at h
  · rw [Option.some.inj h]
  · cases h

theorem returns_readHelperPlan :
    Returns formats (readHelperPlan formats operationId planSha256) w fun plan w' =>
      w' = w ∧ w.files.get? (.plan operationId) = some (.document (.plan plan)) ∧
        sha256Document formats (.plan plan) = planSha256 := by
  refine returns_ensure.reads fun _ _ => returns_readContent.reads fun content hget => ?_
  refine returns_ensure.reads fun _ hdigest => returns_expect.reads fun plan hplan => ?_
  have hsha := eq_of_beq hdigest
  obtain rfl := Content.eq_of_plan? hplan
  split_ifs
  · refine returns_readServerAuthenticatedJson.mono fun found w' h => ?_
    obtain ⟨hw', content', hget', hplan'⟩ := h
    rw [hget] at hget'
    cases hget'
    cases hplan'
    exact ⟨hw', hget, hsha⟩
  · refine returns_pure.mono fun found w' h => ?_
    obtain ⟨rfl, hw'⟩ := h
    exact ⟨hw', hget, hsha⟩

theorem returns_validateHelperPlan :
    Returns formats (validateHelperPlan formats operationId plan) w fun _ w' =>
      w'.files.get? .active ≠ none := by
  iterate 8 refine returns_after fun _ _ => ?_
  refine returns_readState.reads fun active ⟨content, hget, _⟩ => returns_ensure.mono fun _ w1 h1 => ?_
  rw [h1.1, hget]
  exact nofun

end Returns

section Reliable

variable {a : α} {error : UpdateError}

/-- While nothing fails, the call succeeds, with a postcondition. -/
def Succeeds (formats : Formats) (x : Call α) (w : World) (post : α → World → Prop) : Prop :=
  (reliable formats).Guards nowhere (fun _ => True) (fun r w' => ∃ a, r = .ok a ∧ post a w') x.run w

theorem Succeeds.bind
    (hx : Succeeds formats x w P) (hf : ∀ a w', P a w' → Succeeds formats (f a) w' Q) :
    Succeeds formats (x >>= f) w Q := by
  refine Guards.except_bind hx (fun e w' h => ?_) fun a w' h => ?_
  · obtain ⟨a, ha, -⟩ := h
    cases ha
  · obtain ⟨b, hb, hP⟩ := h
    cases hb
    exact hf a w' hP

/-- While nothing fails, the call answers `a` and changes nothing. -/
abbrev Answers (formats : Formats) (x : Call α) (w : World) (a : α) : Prop :=
  Succeeds formats x w fun b w' => b = a ∧ w' = w

theorem Answers.bind (hx : Answers formats x w a) (hf : Succeeds formats (f a) w Q) :
    Succeeds formats (x >>= f) w Q := by
  refine Succeeds.bind hx fun b w' h => ?_
  rw [h.1, h.2]
  exact hf

theorem succeeds_pure (h : P a w) : Succeeds formats (pure a) w P := ⟨trivial, a, rfl, h⟩

theorem succeeds_ensure (h : condition = true) : Answers formats (ensure condition error) w () := by
  rw [ensure, if_pos h]
  exact succeeds_pure ⟨rfl, rfl⟩

theorem succeeds_expect {o : Option α} (h : o = some a) : Answers formats (expect error o) w a := by
  rw [h]
  exact succeeds_pure ⟨rfl, rfl⟩

theorem succeeds_sys {P : action.Answer → World → Prop}
    (h : ∀ choice : Choice, choice.fails = false →
      P (perform formats choice w action).1 (perform formats choice w action).2) :
    Succeeds formats (sys action) w P :=
  ⟨⟨fun _ => trivial, fun _ _ => trivial⟩, fun _ => ⟨trivial, _, rfl, h _ rfl⟩⟩

section

variable (hx : Succeeds formats x w P)
include hx

theorem Succeeds.mono {Q : α → World → Prop} (h : ∀ a w', P a w' → Q a w') :
    Succeeds formats x w Q :=
  Guards.mono hx (fun _ => id) fun _ w' ⟨a, ha, hP⟩ => ⟨a, ha, h a w' hP⟩

theorem Succeeds.execute (choices : ℕ → Choice) : ∃ a w',
      (reliable formats).execute choices x.run w = (.ok a, w') ∧ P a w' := by
  obtain ⟨a, ha, hP⟩ := Guards.execute hx choices
  exact ⟨a, _, Prod.ext ha rfl, hP⟩

theorem Succeeds.outcome_bind {f : Except UpdateError α → Call β}
    (hf : ∀ a w', P a w' → Succeeds formats (f (.ok a)) w' Q) :
    Succeeds formats (outcome x >>= f) w Q := by
  refine Guards.lift_bind hx fun r w' h => ?_
  obtain ⟨a, rfl, hP⟩ := h
  exact hf a w' hP

end

variable {source destination : FileName} {content : Content} {crash : World → Prop}

theorem succeeds_acquireLock : Answers formats acquireLock w () := by
  have hlock : Answers formats (sys .lock) w true :=
    succeeds_sys fun choice hfails => ⟨by rw [perform, hfails]; rfl, rfl⟩
  exact hlock.bind (succeeds_ensure rfl)

theorem succeeds_clock : Succeeds formats (sys .clock) w fun _ w' => w' = w :=
  succeeds_sys fun _ _ => rfl

theorem succeeds_newUuid : Succeeds formats (sys .newUuid) w fun _ w' => w' = w :=
  succeeds_sys fun _ _ => rfl

theorem succeeds_exists : Answers formats (sys (.exists file)) w (w.files.get? file).isSome :=
  succeeds_sys fun _ _ => ⟨rfl, rfl⟩

section

variable (h : w.files.get? file = some content)
include h

theorem succeeds_readContent : Answers formats (readContent file) w content := by
  have hread : Answers formats (sys (.read file)) w (some content) :=
    succeeds_sys fun choice hfails => by
      rw [perform, if_neg (by simp [hfails]), h]
      exact ⟨rfl, rfl⟩
  exact hread.bind (succeeds_expect rfl)

theorem succeeds_readDurableJson {parse : Content → Option α} (hparse : parse content = some a) :
    Answers formats (readDurableJson parse file) w a := by
  exact (succeeds_readContent h).bind (succeeds_expect hparse)

theorem succeeds_sha256File : Answers formats (sha256File file) w (formats.sha256 content) := by
  have hread : Answers formats (sys (.sha256 file)) w (some (formats.sha256 content)) :=
    succeeds_sys fun choice hfails => by
      rw [perform, if_neg (by simp [hfails]), h]
      exact ⟨rfl, rfl⟩
  exact hread.bind (succeeds_expect rfl)

theorem succeeds_version : Answers formats (sys (.version file)) w (formats.version content) :=
  succeeds_sys fun choice hfails => by
    rw [perform, if_neg (by simp [hfails]), h]
    exact ⟨rfl, rfl⟩

end

theorem settle_of_not_fails (h : choice.fails = false) (w w' : World) :
    choice.settle w w' = (true, w') := by
  rw [Choice.settle, if_neg (by simp [h])]

theorem succeeds_writeDurableJson {document : Document} :
    Succeeds formats (writeDurableJson file document) w fun _ w' =>
      w' = w.setFile file (.document document) := by
  have hwrite : Succeeds formats (sys (.write file document)) w fun written w' =>
      written = true ∧ w' = w.setFile file (.document document) :=
    succeeds_sys fun choice hfails => by
      rw [perform, settle_of_not_fails hfails]
      exact ⟨rfl, rfl⟩
  exact hwrite.bind fun written w' h => (succeeds_ensure h.1).mono fun _ _ h' => h'.2.trans h.2

theorem succeeds_removeDurableFile (h : w.files.get? file = some content) :
    Succeeds formats (removeDurableFile file) w fun _ w' => w' = w.eraseFile file := by
  have hremove : Succeeds formats (sys (.remove file)) w fun removed w' =>
      removed = true ∧ w' = w.eraseFile file :=
    succeeds_sys fun choice hfails => by
      rw [perform, h]
      simp only [settle_of_not_fails hfails]
      exact ⟨trivial, trivial⟩
  exact hremove.bind fun removed w' h => (succeeds_ensure h.1).mono fun _ _ h' => h'.2.trans h.2

theorem succeeds_copyFile (h : w.files.get? source = some content) :
    Succeeds formats (copyFile source destination) w fun _ w' =>
      w' = w.setFile destination content := by
  have hcopy : Succeeds formats (sys (.copy source destination)) w fun copied w' =>
      copied = true ∧ w' = w.setFile destination content :=
    succeeds_sys fun choice hfails => by
      rw [perform, h]
      simp only [hfails, Bool.false_eq_true, if_false]
      exact ⟨trivial, trivial⟩
  exact hcopy.bind fun copied w' h => (succeeds_ensure h.1).mono fun _ _ h' => h'.2.trans h.2

theorem succeeds_removeIfPresent :
    Succeeds formats (removeIfPresent file) w fun _ w' => w' = w.eraseFile file ∨ w' = w := by
  refine succeeds_exists.bind ?_
  split_ifs with hpresent
  · obtain ⟨content, hget⟩ := Option.isSome_iff_exists.mp hpresent
    exact (succeeds_removeDurableFile hget).mono fun _ _ h => .inl h
  · exact succeeds_pure (.inr rfl)

theorem succeeds_rename (h : w.files.get? source = some content) :
    Succeeds formats (sys (.rename source destination)) w fun renamed w' =>
      renamed = true ∧ w' = (w.eraseFile source).setFile destination content :=
  succeeds_sys fun choice hfails => by
    rw [perform, h]
    simp only [settle_of_not_fails hfails]
    exact ⟨trivial, trivial⟩

theorem Guards.reliable {p : Program Action.Answer α}
    {post : α → World → Prop} (h : (system formats).Guards anywhere crash post p w) :
    (reliable formats).Guards nowhere (fun _ => True) post p w := by
  induction p generalizing w with
  | done a => exact ⟨trivial, h.2⟩
  | act action next ih =>
    exact ⟨⟨fun _ => trivial, fun _ _ => trivial⟩,
      fun choice => ih _ (h.2 { choice with fails := false })⟩

theorem Succeeds.and_guards {post : Except UpdateError α → World → Prop}
    (hx : Succeeds formats x w P) (hpost : (system formats).Guards anywhere crash post x.run w) :
    Succeeds formats x w fun a w' => P a w' ∧ post (.ok a) w' := by
  refine (CrashMachine.Guards.and hx (Guards.reliable hpost)).mono (fun _ _ => trivial)
    fun r w' h => ?_
  obtain ⟨⟨a, rfl, hP⟩, hr⟩ := h
  exact ⟨a, rfl, hP, hr⟩

end Reliable

theorem guards_launch {plan : HelperPlan}
    {w : World} (hquiet : ∀ {α : Type} {x : Call α} (w : World),
      Writes plan.product {.status, .helper plan.operationId} x.run → I w →
      Preserves formats I x.run w)
    (hjournal : ∀ w, I w → Preserves formats I (writeOperationJournal formats plan planSha256
      .helperSpawnFailed none (some .io)).run w)
    (hrelease : ∀ w, I w → Preserves formats I (releaseMarker formats plan true).run w) (hw : I w) :
    Preserves formats I (guarded formats plan (launchHelper formats plan planSha256)).run w := by
  have hlaunch : Preserves formats I (launchHelper formats plan planSha256).run w := by
    refine Guards.seq (hquiet _ (writes_copyFile (.inr rfl) trivial) hw) fun _ w1 h1 => ?_
    refine Guards.seq (hquiet _ writes_sha256File h1) fun helper w2 h2 => ?_
    refine Guards.seq (hquiet _ writes_sha256File h2) fun updater w3 h3 => ?_
    refine Guards.seq (hquiet _ writes_ensure h3) fun _ w4 h4 => ?_
    refine Guards.seq (hquiet _ (writes_writeStatus (.inl rfl)) h4) fun _ w5 h5 => ?_
    refine Guards.seq (hquiet _ (writes_read (.spawn _ _) rfl) h5) fun spawned w6 h6 => ?_
    split_ifs
    · exact ⟨h6, h6⟩
    · refine Guards.seq (hquiet _ (writes_writeStatus (.inl rfl)) h6) fun _ w7 h7 => ?_
      refine Guards.lift_bind (hjournal _ h7) fun _ w8 h8 => ?_
      exact Guards.seq (hrelease _ h8) fun _ w9 h9 => ⟨h9, h9⟩
  refine Guards.lift_bind hlaunch fun r w1 h1 => ?_
  cases r with
  | ok _ => exact ⟨h1, h1⟩
  | error error => exact Guards.seq (hrelease _ h1) fun _ w2 h2 => ⟨h2, h2⟩

theorem guards_helper (product : UpdateProduct) {operationId : Uuid} {w : World}
    (hquiet : ∀ {α : Type} {x : Call α} (w : World), Writes product {.status} x.run → J w →
      Preserves formats J x.run w) (hJ : ∀ w, J w → I w)
    (hexecute : ∀ plan w', w.files.get? (.plan operationId) = some (.document (.plan plan)) →
      sha256Document formats (.plan plan) = planSha256 → J w' → w'.files.get? .active ≠ none →
      Preserves formats I (executeHelper formats plan planSha256).run w') (hw : J w) :
    Preserves formats I (runHelper formats operationId planSha256).run w := by
  refine (hquiet _ writes_readHelperPlan hw).step returns_readHelperPlan hJ fun plan w1 h1 hread => ?_
  obtain ⟨rfl, hget, hsha⟩ := hread
  refine Guards.lift_bind ((Guards.and (hquiet _ writes_validateHelperPlan h1)
    returns_validateHelperPlan).mono (fun _ h => hJ _ h.1) fun _ _ => id) fun r w2 h2 => ?_
  obtain ⟨h2, hactive⟩ := h2
  cases r with
  | error error =>
    exact Guards.lift_bind ((hquiet _ (writes_writeStatus rfl) h2).mono hJ fun _ _ => id)
      fun _ w3 h3 => ⟨hJ _ h3, hJ _ h3⟩
  | ok a =>
    refine (hquiet _ writes_acquireLock h2).step returns_acquireLock hJ fun _ w3 h3 hsame => ?_
    exact hexecute plan w3 hget hsha h3 (hsame ▸ hactive a rfl)

end LinkLake.Updater
