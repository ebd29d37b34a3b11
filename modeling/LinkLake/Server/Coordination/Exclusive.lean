import LinkLake.Server.Coordination.Leadership

/-!
# Leases are exclusive

Leases on jobs and on ports, in every run in which no identifier of a lease is drawn twice
(`leasesExclusive_of_run`): a resource has one lease at a time, one that was replaced is of no use
any more, and what an acquisition answers depends on the lease of the same leadership only.

A job is bound to its kind for good. The leader that asks for a job under another kind gets an error,
also while its own lease on the job runs (`acquire_other_kind`).
-/

namespace LinkLake.Coordination

open Fallible

variable {d d' : Database} {e : Call × Reply} {es : List (Call × Reply)} {persistent : Bool}
  {c : HaCoordinator} {fencingToken now : ℕ} {i : Uuid} {α : Type} {error : CoordinationError}
  {row : PublicPortLease}

/-! ## One lease at a time -/

/-- No identifier of a lease is drawn twice. -/
def Fresh {κ : Type} (acquired : Call × Reply → Option (κ × Uuid)) (es : List (Call × Reply)) :
    Prop :=
  ((es.filterMap acquired).map Prod.snd).Nodup

instance {κ : Type} (acquired : Call × Reply → Option (κ × Uuid)) (es : List (Call × Reply)) :
    Decidable (Fresh acquired es) := inferInstanceAs (Decidable (List.Nodup _))

/-- What is expected of a table of leases after the calls `es`. -/
structure LeasesExclusive {κ : Type} (acquired used : Call × Reply → Option (κ × Uuid))
    (es : List (Call × Reply)) (d : Database) : Prop where
  /-- One lease of a resource can be used. -/
  single : ∀ e1 d1 e2 d2, Step d e1 d1 → Step d e2 d2 → ∀ k i1 i2,
    used e1 = some (k, i1) → used e2 = some (k, i2) → i1 = i2
  /-- A lease that was replaced is of no use. -/
  superseded : ∀ past e1 between e2 future, es = past ++ e1 :: (between ++ e2 :: future) →
    ∀ k i1 i2, acquired e1 = some (k, i1) → acquired e2 = some (k, i2) →
    ∀ e d', Step d e d' → used e ≠ some (k, i1)

theorem leasesExclusive {κ : Type} {acquired used : Call × Reply → Option (κ × Uuid)}
    {table : Database → κ → Option (Lease Uuid Incarnation)}
    (htable : ∀ d e d', Step d e d' → LeaseMove (authority d) (table d) (table d') (acquired e))
    (hused : ∀ d e d', Step d e d' → ∀ k i, used e = some (k, i) →
      ∃ l, table d k = some l ∧ l.id = i)
    {d0 : Database} (hrun : Run Step d0 es d) (hfresh : Fresh acquired es) :
    LeasesExclusive acquired used es d where
  single e1 d1 e2 d2 h1 h2 k i1 i2 hu1 hu2 := by
    obtain ⟨l1, hl1, rfl⟩ := hused d e1 d1 h1 k i1 hu1
    obtain ⟨l2, hl2, rfl⟩ := hused d e2 d2 h2 k i2 hu2
    rw [Option.some.inj (hl1.symm.trans hl2)]
  superseded past e1 between e2 future hes k i1 i2 h1 h2 e d' hstep hu := by
    subst hes
    obtain ⟨l, hl, hid⟩ := hused d e d' hstep k i1 hu
    exact superseded_of_run htable hrun hfresh h1 h2 hl hid

/-! ## Using a lease -/

theorem jobKey?_eq {jobKey key k : String} {id : Uuid} (hkey : JobLeases.IsJobKey jobKey key)
    (h : (jobKey? jobKey).map (·, id) = some (k, i)) : key = k ∧ id = i := by
  rw [jobKey?, show normalizeIdentifier jobKey "job key" maxJobKeyBytes = .ok key from hkey] at h
  exact Prod.mk.inj (Option.some.inj h)

theorem usedJob_row (h : Step d e d') {k : String} (hu : usedJob e = some (k, i)) :
    ∃ row, d.jobLeases.get? k = some row ∧ row.leaseId = i := by
  obtain ⟨⟨operation, now, leaseId⟩, reply⟩ := e
  rw [Step] at h
  simp only [usedJob] at hu
  split at hu
  case h_1 =>
    obtain ⟨result, hcall, heq⟩ := map_eq_ok.mp h
    obtain ⟨key, hkey, ⟨hnone, -⟩ | ⟨row, row', -, hget, hid, -, -⟩⟩ := JobLeases.renew_eq_ok hcall
    · rw [hnone] at heq
      cases heq
    · obtain ⟨rfl, rfl⟩ := jobKey?_eq hkey hu
      exact ⟨row, hget, hid⟩
  case h_2 =>
    obtain ⟨result, hcall, heq⟩ := map_eq_ok.mp h
    obtain ⟨key, hkey, ⟨hnone, -⟩ | ⟨row, row', -, hget, hid, -, -⟩⟩ := JobLeases.finish_eq_ok hcall
    · rw [hnone] at heq
      cases heq
    · obtain ⟨rfl, rfl⟩ := jobKey?_eq hkey hu
      exact ⟨row, hget, hid⟩
  case h_3 =>
    obtain ⟨result, hcall, heq⟩ := map_eq_ok.mp h
    obtain ⟨code, hfinish⟩ := JobLeases.fail_eq_ok hcall
    obtain ⟨key, hkey, ⟨hnone, -⟩ | ⟨row, row', -, hget, hid, -, -⟩⟩ :=
      JobLeases.finish_eq_ok hfinish
    · rw [hnone] at heq
      cases heq
    · obtain ⟨rfl, rfl⟩ := jobKey?_eq hkey hu
      exact ⟨row, hget, hid⟩
  case h_4 =>
    cases hu
    obtain ⟨_, hcall, -⟩ := map_eq_ok.mp h
    exact JobLeases.assertSqliteTransactionLease_eq_ok hcall
  case h_5 => cases hu

theorem usedPort_row (h : Step d e d') {k : PublicPortProtocol × UInt16}
    (hu : usedPort e = some (k, i)) :
    ∃ row, d.publicPortOwnership.get? k = some row ∧ row.leaseId = i := by
  obtain ⟨⟨operation, now, leaseId⟩, reply⟩ := e
  rw [Step] at h
  simp only [usedPort] at hu
  split at hu
  case h_1 =>
    cases hu
    obtain ⟨result, hcall, heq⟩ := map_eq_ok.mp h
    obtain ⟨hnone, -⟩ | ⟨row, leaseUntil, hget, hid, -⟩ := PublicPortOwnership.renew_eq_ok hcall
    · rw [hnone] at heq
      cases heq
    · exact ⟨row, hget, hid⟩
  case h_2 =>
    cases hu
    obtain ⟨result, hcall, heq⟩ := map_eq_ok.mp h
    obtain ⟨hfalse, -⟩ | ⟨-, row, hget, hid, -⟩ := PublicPortOwnership.release_eq_ok hcall
    · rw [hfalse] at heq
      cases heq
    · exact ⟨row, hget, hid⟩
  case h_3 => cases hu

/-! ## Acquiring a lease -/

/-- A row is not newer than a grant, and with its token it is the holder's own. -/
def Behind (token : ℕ) (owner : Incarnation) (c : HaCoordinator) (fencingToken : ℕ) : Prop :=
  token ≤ fencingToken ∧ (token = fencingToken → owner = c.incarnation)

theorem behind_of_fenced {κ : Type} {t : κ → Option (Lease Uuid Incarnation)}
    (hfenced : Fenced (authority d) t)
    (hfence : c.assertSqliteTransactionFence fencingToken now d = .ok ()) {k : κ}
    {l : Lease Uuid Incarnation} (hl : t k = some l) :
    Behind l.grant.token l.grant.holder c fencingToken := by
  obtain ⟨g, hg, hprecedes⟩ := hfenced k l hl
  obtain rfl := Option.some.inj (hg.symm.trans (grant_of_fence hfence))
  refine ⟨hprecedes.token_le, fun htoken => ?_⟩
  rw [hprecedes.eq_of_token_eq htoken]

theorem behind_job (hfenced : Fenced (authority d) (jobTable d.jobLeases))
    (hfence : c.assertSqliteTransactionFence fencingToken now d = .ok ()) {key : String}
    {row : JobLease} (hget : d.jobLeases.get? key = some row) :
    Behind row.fencingToken (row.ownerInstanceId, row.ownerIncarnationId) c fencingToken :=
  behind_of_fenced hfenced hfence (l := row.toLease) (by rw [jobTable, hget]; rfl)

theorem behind_port (hfenced : Fenced (authority d) (portTable d.publicPortOwnership))
    (hfence : c.assertSqliteTransactionFence fencingToken now d = .ok ())
    {key : PublicPortProtocol × UInt16} (hget : d.publicPortOwnership.get? key = some row) :
    Behind row.fencingToken (row.ownerInstanceId, row.ownerIncarnationId) c fencingToken :=
  behind_of_fenced hfenced hfence (l := row.toLease) (by rw [portTable, hget]; rfl)

theorem claim_eq {token leaseUntil : ℕ} {instanceId incarnationId : String}
    {newer reused : CoordinationError}
    (h : Behind token (instanceId, incarnationId) c fencingToken) : (do
      rejectIf (fencingToken < token) newer
      if token < fencingToken then pure .fresh
      else do
        rejectIf (¬ (instanceId = c.instanceId ∧ incarnationId = c.incarnationId)) reused
        if leaseUntil ≤ now then pure .fresh else pure .conflict : Except _ ClaimMode) =
      if token = fencingToken ∧ now < leaseUntil then .ok .conflict else .ok .fresh := by
  obtain ⟨hle, hown⟩ := h
  rw [rejectIf_of_not (not_lt.mpr hle), ok_bind]
  by_cases htoken : token = fencingToken
  · obtain ⟨hinstance, hincarnation⟩ := Prod.mk.inj (hown htoken)
    rw [if_neg (by omega), rejectIf_of_not (not_not.mpr ⟨hinstance, hincarnation⟩), ok_bind]
    by_cases hruns : now < leaseUntil
    · rw [if_neg (not_le.mpr hruns), if_pos ⟨htoken, hruns⟩]
      rfl
    · rw [if_pos (not_lt.mp hruns), if_neg fun hboth => hruns hboth.2]
      rfl
  · rw [if_pos (by omega), if_neg fun hboth => htoken hboth.1]
    rfl

theorem jobClaimMode_eq {row : JobLease} {jobKind : String}
    (h : Behind row.fencingToken (row.ownerInstanceId, row.ownerIncarnationId) c fencingToken) :
    JobLease.claimMode (some row) c jobKind fencingToken now =
      if row.jobKind ≠ jobKind then .error .jobKind
      else if row.fencingToken = fencingToken ∧ now < row.leaseUntilUnixSeconds then .ok .conflict
      else .ok .fresh := by
  rw [JobLease.claimMode, claim_eq h, rejectIf]
  split_ifs <;> rfl

theorem portClaimMode_eq
    (h : Behind row.fencingToken (row.ownerInstanceId, row.ownerIncarnationId) c fencingToken) :
    PublicPortLease.claimMode (some row) c fencingToken now =
      if row.fencingToken = fencingToken ∧ now < row.leaseUntilUnixSeconds then .ok .conflict
      else .ok .fresh := claim_eq h

/-- An error of a table whose leases contradict the leader's token. -/
def CoordinationError.isContradiction : CoordinationError → Bool
  | .jobNewerToken | .jobTokenReused | .portNewerToken | .portTokenReused => true
  | _ => false

/-- The computation fails, if it does, for another reason. -/
def Consistent {α : Type} (x : Except CoordinationError α) : Prop :=
  ∀ error, x = .error error → error.isContradiction = false

theorem consistent_ok (a : α) : Consistent (.ok a) := fun _ h => by cases h

theorem consistent_error
    (h : error.isContradiction = false) : Consistent (.error error : Except _ α) := by
  rintro _ ⟨⟩
  exact h

theorem Consistent.bind {β : Type} {x : Except CoordinationError α}
    {f : α → Except CoordinationError β} (hx : Consistent x)
    (hf : ∀ a, x = .ok a → Consistent (f a)) : Consistent (x >>= f) := by
  intro error h
  obtain hfirst | ⟨a, ha, hrest⟩ := bind_eq_error.mp h
  · exact hx error hfirst
  · exact hf a ha error hrest

theorem consistent_rejectIf {c : Prop} [Decidable c]
    (h : error.isContradiction = false) : Consistent (rejectIf c error) := by
  rw [rejectIf]
  split
  · exact consistent_error h
  · exact consistent_ok ()

theorem consistent_asI64 (n : ℕ) : Consistent (asI64 n) :=
  (consistent_rejectIf rfl).bind fun _ _ => consistent_ok n

theorem consistent_normalizeIdentifier (value label : String) (maximum : ℕ) :
    Consistent (normalizeIdentifier value label maximum) := by
  rw [normalizeIdentifier]
  refine (consistent_rejectIf rfl).bind fun _ _ => ?_
  refine (consistent_rejectIf rfl).bind fun _ _ => ?_
  exact (consistent_rejectIf rfl).bind fun _ _ => consistent_ok _

theorem consistent_fence (c : HaCoordinator) (fencingToken now : ℕ) (d : Database) :
    Consistent (c.assertSqliteTransactionFence fencingToken now d) := by
  refine (consistent_rejectIf rfl).bind fun _ _ => ?_
  exact (consistent_asI64 fencingToken).bind fun _ _ => consistent_rejectIf rfl

/-- What the leader is told when it asks for a job. -/
structure JobsAcquirable (d : Database) : Prop where
  /-- It gets nothing exactly when its leadership holds a lease on the job that runs, of the kind it
  asks for. -/
  conflict : ∀ (j : JobLeases) jobKey jobKind fencingToken now leaseId,
    j.coordinator.assertSqliteTransactionFence fencingToken now d = .ok () →
    ((∃ d', j.acquire jobKey jobKind fencingToken now leaseId d = .ok (none, d')) ↔
      ∃ key row, JobLeases.IsJobKey jobKey key ∧ d.jobLeases.get? key = some row ∧
        (row.ownerInstanceId, row.ownerIncarnationId) = j.coordinator.incarnation ∧
        row.fencingToken = fencingToken ∧ now < row.leaseUntilUnixSeconds ∧
        normalizeIdentifier jobKind "job kind" maxJobKindBytes = .ok row.jobKind)
  /-- The table never contradicts the token of the leader. -/
  consistent : ∀ (j : JobLeases) jobKey jobKind fencingToken now leaseId,
    Consistent (j.acquire jobKey jobKind fencingToken now leaseId d)

theorem jobsAcquirable (hfenced : Fenced (authority d) (jobTable d.jobLeases)) :
    JobsAcquirable d where
  conflict j jobKey jobKind fencingToken now leaseId hfence := by
    constructor
    · rintro ⟨d', hnone⟩
      obtain ⟨-, -, key, kind, hkey, hkind, hmode⟩ := JobLeases.acquire_eq_none.mp hnone
      cases hget : d.jobLeases.get? key with
      | none =>
        rw [hget] at hmode
        cases hmode
      | some row =>
        have hbehind := behind_job hfenced hfence hget
        rw [hget, jobClaimMode_eq hbehind] at hmode
        split_ifs at hmode with hother hheld
        · exact ⟨key, row, hkey, hget, hbehind.2 hheld.1, hheld.1, hheld.2,
            not_not.mp hother ▸ hkind⟩
        · cases hmode
    · rintro ⟨key, row, hkey, hget, -, htoken, hruns, hkind⟩
      refine ⟨d, JobLeases.acquire_eq_none.mpr ⟨rfl, hfence, key, row.jobKind, hkey, hkind, ?_⟩⟩
      rw [hget, jobClaimMode_eq (behind_job hfenced hfence hget), if_neg (not_not.mpr rfl),
        if_pos ⟨htoken, hruns⟩]
  consistent j jobKey jobKind fencingToken now leaseId := by
    refine (consistent_normalizeIdentifier _ _ _).bind fun key _ => ?_
    refine (consistent_normalizeIdentifier _ _ _).bind fun kind _ => ?_
    refine (consistent_rejectIf rfl).bind fun _ _ => ?_
    refine (consistent_fence _ _ _ _).bind fun _ hfence => ?_
    have hmode : Consistent (JobLease.claimMode (d.jobLeases.get? key) j.coordinator kind
        fencingToken now) := by
      cases hget : d.jobLeases.get? key with
      | none => exact consistent_ok _
      | some row =>
        rw [jobClaimMode_eq (behind_job hfenced hfence hget)]
        split_ifs
        · exact consistent_error rfl
        · exact consistent_ok _
        · exact consistent_ok _
    refine hmode.bind fun mode _ => ?_
    cases mode with
    | conflict => exact consistent_ok _
    | fresh =>
      refine (consistent_asI64 _).bind fun _ _ => ?_
      exact (consistent_asI64 _).bind fun _ _ => consistent_ok _

/-- What the leader is told when it asks for a port. -/
structure PortsAcquirable (d : Database) : Prop where
  /-- It gets nothing exactly when its leadership holds a lease on the port that runs. -/
  conflict : ∀ (o : PublicPortOwnership) protocol publicPort policyId fencingToken now leaseId,
    o.coordinator.assertSqliteTransactionFence fencingToken now d = .ok () →
    ((∃ d', o.acquire protocol publicPort policyId fencingToken now leaseId d = .ok (none, d')) ↔
      publicPort ≠ 0 ∧ ∃ row, d.publicPortOwnership.get? (protocol, publicPort) = some row ∧
        (row.ownerInstanceId, row.ownerIncarnationId) = o.coordinator.incarnation ∧
        row.fencingToken = fencingToken ∧ now < row.leaseUntilUnixSeconds)
  /-- The table never contradicts the token of the leader. -/
  consistent : ∀ (o : PublicPortOwnership) protocol publicPort policyId fencingToken now leaseId,
    Consistent (o.acquire protocol publicPort policyId fencingToken now leaseId d)

theorem portsAcquirable (hfenced : Fenced (authority d) (portTable d.publicPortOwnership)) :
    PortsAcquirable d where
  conflict o protocol publicPort policyId fencingToken now leaseId hfence := by
    constructor
    · rintro ⟨d', hnone⟩
      obtain ⟨-, hport, -, hmode⟩ := PublicPortOwnership.acquire_eq_none.mp hnone
      cases hget : d.publicPortOwnership.get? (protocol, publicPort) with
      | none =>
        rw [hget] at hmode
        cases hmode
      | some row =>
        have hbehind := behind_port hfenced hfence hget
        rw [hget, portClaimMode_eq hbehind] at hmode
        split_ifs at hmode with hheld
        · exact ⟨hport, row, rfl, hbehind.2 hheld.1, hheld.1, hheld.2⟩
        · cases hmode
    · rintro ⟨hport, row, hget, -, htoken, hruns⟩
      refine ⟨d, PublicPortOwnership.acquire_eq_none.mpr ⟨rfl, hport, hfence, ?_⟩⟩
      rw [hget, portClaimMode_eq (behind_port hfenced hfence hget), if_pos ⟨htoken, hruns⟩]
  consistent o protocol publicPort policyId fencingToken now leaseId := by
    have hvalid : Consistent (validatePortAndFence publicPort fencingToken) :=
      (consistent_rejectIf rfl).bind fun _ _ => consistent_rejectIf rfl
    refine hvalid.bind fun _ _ => ?_
    refine (consistent_fence _ _ _ _).bind fun _ hfence => ?_
    have hmode : Consistent (PublicPortLease.claimMode
        (d.publicPortOwnership.get? (protocol, publicPort)) o.coordinator fencingToken now) := by
      cases hget : d.publicPortOwnership.get? (protocol, publicPort) with
      | none => exact consistent_ok _
      | some row =>
        rw [portClaimMode_eq (behind_port hfenced hfence hget)]
        split_ifs <;> exact consistent_ok _
    refine hmode.bind fun mode _ => ?_
    cases mode with
    | conflict => exact consistent_ok _
    | fresh =>
      refine (consistent_asI64 _).bind fun _ _ => ?_
      exact (consistent_asI64 _).bind fun _ _ => consistent_ok _

/-! ## Runs -/

/-- **Leases are exclusive in every run** in which no identifier is drawn twice. -/
theorem leasesExclusive_of_run (hrun : Run Step (Database.empty persistent) es d)
    (hjobs : Fresh acquiredJob es) (hports : Fresh acquiredPort es) :
    LeasesExclusive acquiredJob usedJob es d ∧ LeasesExclusive acquiredPort usedPort es d ∧
      JobsAcquirable d ∧ PortsAcquirable d := by
  have hmove : ∀ d e d', Step d e d' → Authority.Move (authority d) (authority d') :=
    fun _ _ _ => leadershipMove
  have hjobMove : ∀ d e d', Step d e d' → LeaseMove (authority d) (jobTable d.jobLeases)
      (jobTable d'.jobLeases) (acquiredJob e) := fun _ _ _ => jobMove
  have hportMove : ∀ d e d', Step d e d' → LeaseMove (authority d)
      (portTable d.publicPortOwnership) (portTable d'.publicPortOwnership) (acquiredPort e) :=
    fun _ _ _ => portMove
  have hstart : (authority (Database.empty persistent)).Bounded := fun _ hgrant => by cases hgrant
  refine ⟨leasesExclusive hjobMove (fun d e d' hstep k i hu => ?_) hrun hjobs,
    leasesExclusive hportMove (fun d e d' hstep k i hu => ?_) hrun hports,
    jobsAcquirable (fenced_of_run hmove hjobMove hrun hstart fun _ _ hl => by cases hl),
    portsAcquirable (fenced_of_run hmove hportMove hrun hstart fun _ _ hl => by cases hl)⟩
  · obtain ⟨row, hget, hid⟩ := usedJob_row hstep hu
    exact ⟨row.toLease, by rw [jobTable, hget]; rfl, hid⟩
  · obtain ⟨row, hget, hid⟩ := usedPort_row hstep hu
    exact ⟨row.toLease, by rw [portTable, hget]; rfl, hid⟩

/-- The lease of the first leader is replaced. -/
theorem leasesExclusive_of_run_takeover : ∃ es d, Run Step (Database.empty true) es d ∧
    es.filterMap acquiredJob = [("backup", .fromU128 1), ("backup", .fromU128 2)] ∧
    Fresh acquiredJob es ∧ Fresh acquiredPort es ∧ LeasesExclusive acquiredJob usedJob es d ∧
    LeasesExclusive acquiredPort usedPort es d ∧ JobsAcquirable d ∧ PortsAcquirable d := by
  have h : ∃ x ∈ perform call (fun _ _ => True) (Database.empty true) Sample.backups,
      x.1.filterMap acquiredJob = [("backup", .fromU128 1), ("backup", .fromU128 2)] ∧
        Fresh acquiredJob x.1 ∧ Fresh acquiredPort x.1 := by
    decide +kernel
  obtain ⟨⟨es, d⟩, hcalls, hjobs, hfreshJob, hfreshPort⟩ := h
  have hrun := Run.of_calls hcalls
  exact ⟨es, d, hrun, hjobs, hfreshJob, hfreshPort,
    leasesExclusive_of_run hrun hfreshJob hfreshPort⟩

/-- The leader asks for a job that it holds, under another kind: it is told of an error, although its
own lease runs. -/
theorem acquire_other_kind : ∃ es d row, Run Step (Database.empty true) es d ∧
    (Sample.jobs Sample.west).coordinator.assertSqliteTransactionFence 2 113 d = .ok () ∧
    d.jobLeases.get? "backup" = some row ∧
    (row.ownerInstanceId, row.ownerIncarnationId) = Sample.west.incarnation ∧
    row.fencingToken = 2 ∧ 113 < row.leaseUntilUnixSeconds ∧
    (Sample.jobs Sample.west).acquire "backup" "weekly" 2 113 (.fromU128 3) d =
      .error .jobKind := by
  have h : ∃ x ∈ perform call (fun _ _ => True) (Database.empty true) Sample.backups,
      (Sample.jobs Sample.west).coordinator.assertSqliteTransactionFence 2 113 x.2 = .ok () ∧
      ∃ row ∈ x.2.jobLeases.get? "backup",
        (row.ownerInstanceId, row.ownerIncarnationId) = Sample.west.incarnation ∧
        row.fencingToken = 2 ∧ 113 < row.leaseUntilUnixSeconds ∧
        ((Sample.jobs Sample.west).acquire "backup" "weekly" 2 113 (.fromU128 3) x.2).map
          (fun _ => ()) = .error .jobKind := by
    decide +kernel
  obtain ⟨⟨es, d⟩, hcalls, hfence, row, hget, howner, htoken, hopen, herror⟩ := h
  exact ⟨es, d, row, Run.of_calls hcalls, hfence, hget, howner, htoken, hopen,
    map_eq_error.mp herror⟩

end LinkLake.Coordination
