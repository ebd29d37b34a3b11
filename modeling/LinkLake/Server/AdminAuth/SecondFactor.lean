import LinkLake.Server.AdminAuth.Store

/-!
# The second factor of an administrator

Once `enable_totp` has succeeded, a login has to come with a code for the secret that was confirmed,
until a code for it disables the second factor or the user is deleted
(`login_presents_code`). The exception is `begin_totp`: it puts a new secret in the place of the one
in force and disables the second factor until the new secret is confirmed, so that a session is
enough to remove it (`begun_unprotected`).
-/

namespace LinkLake.AdminAuth

open Fallible FiniteMap

section

variable [Credentials] {s s' : AdminAuth} {username secret : String} {e : Event}

/-- The secret of a user's second factor, and whether it is enabled. -/
def factor (s : AdminAuth) (username : String) : Option (Option String × Bool) :=
  (s.administrators.get? username).map fun row => (row.totpSecret, row.totpEnabled)

/-- The call removes the second factor with a code for the secret, or it deletes the user. -/
def Releases (username secret : String) : Event → Prop
  | ((now, .disableTotp name code), .answer true) =>
    name = username ∧ verifyTotp secret code now = true
  | ((_, .deleteUser _ name), .answer true) => name = username
  | _ => False

/-- The call begins no new second factor for a user who has one enabled. -/
def Calm (s : AdminAuth) : Event → Prop
  | ((_, .beginTotp username _), _) =>
    ∀ row, s.administrators.get? username = some row → row.totpEnabled = false
  | _ => True

/-! ## What keeps the second factor -/

omit [Credentials] in
theorem factor_congr (h : s'.administrators = s.administrators) :
    s'.factor username = s.factor username := by
  rw [factor, h, factor]

omit [Credentials] in
theorem factor_deleteSessions (p : Uuid → AdminSession → Bool) :
    (s.deleteSessions p).factor username = s.factor username := rfl

omit [Credentials] in
theorem factor_update {name : String} {f : Administrator → Administrator}
    (hf : name = username → ∀ row, s.administrators.get? username = some row →
      (f row).totpSecret = row.totpSecret ∧ (f row).totpEnabled = row.totpEnabled) :
    (s.update name f).factor username = s.factor username := by
  rw [factor, factor, update, get?_map]
  cases hrow : s.administrators.get? username with
  | none => rfl
  | some row =>
    by_cases hname : username = name
    · simp [hname, hf hname.symm row hrow]
    · simp [hname]

/-- **A step keeps the second factor that is in force**, unless it releases it or begins a new one
in its place. -/
theorem factor_step (hstep : s.Step e s') (hcalm : s.Calm e) (hkept : ¬ Releases username secret e)
    (hfactor : s.factor username = some (some secret, true)) :
    s'.factor username = some (some secret, true) := by
  obtain ⟨⟨now, c⟩, reply⟩ := e
  obtain ⟨row, hrow, hrowFactor⟩ := Option.map_eq_some_iff.mp hfactor
  obtain ⟨hsecret, henabled⟩ := Prod.mk.inj hrowFactor
  rw [← hfactor]
  unfold Step at hstep
  cases c with
  | login =>
    obtain ⟨rfl, -⟩ | ⟨_, -, -, -, heq⟩ := login_eq_ok hstep
    · rfl
    · rw [(Prod.mk.inj heq).2]
      exact (factor_update fun _ _ _ => by simp).trans (factor_congr rfl)
  | authenticateSession cookieValue =>
    rw [← (pair_eq_ok.mp hstep).2]
    exact factor_congr administrators_authenticateSession
  | logout cookieValue =>
    cases hstep
    unfold logout
    cases parseCookie cookieValue <;> rfl
  | changePassword cookieValue newPassword hash =>
    obtain ⟨-, hstep⟩ := bind_unit_eq_ok.mp hstep
    have hauth : (s.authenticateSession now cookieValue).2.administrators = s.administrators :=
      administrators_authenticateSession
    split at hstep <;> rename_i hresult <;> rw [hresult] at hauth <;>
      cases hstep
    · exact factor_congr hauth
    · refine (factor_deleteSessions _).trans ((factor_update fun _ _ _ => ?_).trans
        (factor_congr hauth))
      exact ⟨rfl, rfl⟩
  | createUser request hash =>
    obtain ⟨hnew, _, -, rfl⟩ := createUser_eq_ok hstep
    have hne : username ≠ request.username := fun h => hnew (h ▸ mem_of_get? hrow)
    simp only [factor, get?_insert_of_ne hne]
  | updateUser actor name request =>
    obtain ⟨rfl, -⟩ | ⟨_, -, -, rfl⟩ := updateUser_eq_ok hstep
    · rfl
    · have hkept : (s.rewritten name request).factor username = s.factor username :=
        factor_update fun _ _ _ => by simp
      split <;> exact hkept
  | deleteUser actor name =>
    obtain ⟨rfl, -⟩ | ⟨rfl, -, rfl⟩ := deleteUser_eq_ok hstep
    · rfl
    · have hne : username ≠ name := fun h => hkept h.symm
      simp only [factor, get?_erase_of_ne hne]
  | resetUserPassword name newPassword hash force =>
    obtain ⟨-, hstep⟩ := bind_unit_eq_ok.mp hstep
    split_ifs at hstep <;> cases hstep
    · exact (factor_deleteSessions _).trans (factor_update fun _ _ _ => by simp)
    · rfl
  | revokeUserSessions name =>
    have hresult := pure_eq_ok.mp hstep
    unfold revokeUserSessions at hresult
    split_ifs at hresult <;> obtain ⟨-, rfl⟩ := Prod.mk.inj hresult <;> rfl
  | beginTotp name new =>
    have hresult := pure_eq_ok.mp hstep
    unfold beginTotp at hresult
    split_ifs at hresult <;> cases hresult
    · rfl
    · refine factor_update fun hname _ _ => ?_
      cases (hcalm row (hname ▸ hrow)).symm.trans henabled
  | enableTotp name currentSessionId code =>
    have hresult := pure_eq_ok.mp hstep
    unfold enableTotp at hresult
    repeat' split at hresult
    all_goals obtain ⟨-, rfl⟩ := Prod.mk.inj hresult
    · rfl
    · rfl
    · refine (factor_deleteSessions _).trans (factor_update fun _ row' hrow' => ?_)
      cases hrow.symm.trans hrow'
      exact ⟨rfl, henabled.symm⟩
  | disableTotp name code =>
    have hresult := pure_eq_ok.mp hstep
    unfold disableTotp at hresult
    repeat' split at hresult
    all_goals obtain ⟨rfl, rfl⟩ := Prod.mk.inj hresult
    · rfl
    · rfl
    · rename_i found hfound hverified
      refine factor_update fun hname => ?_
      subst hname
      rw [hrow, Option.filter_some, henabled, if_pos rfl, Option.bind_some, hsecret] at hfound
      cases hfound
      exact (hkept ⟨rfl, by simpa using hverified⟩).elim
  | listUsers => exact (pair_eq_ok.mp hstep).2 ▸ rfl
  | listSessions => exact (pair_eq_ok.mp hstep).2 ▸ rfl
  | revokeSession =>
    obtain ⟨-, hstep⟩ := bind_unit_eq_ok.mp hstep
    exact (pair_eq_ok.mp hstep).2 ▸ rfl

theorem verified_of_refusal {now : ℕ} {row : Administrator} {totpCode : Option String}
    (h : refusal now row totpCode = none) (hsecret : row.totpSecret = some secret)
    (henabled : row.totpEnabled = true) :
    ∃ code, totpCode = some code ∧ verifyTotp secret code now = true := by
  rw [refusal, if_pos henabled, hsecret] at h
  split at h
  · cases h
  · rename_i hnone
    cases hnone
  · rename_i code found hcode hfound
    cases hfound
    split_ifs at h with hverified
    exact ⟨code, (Option.filter_eq_some_iff.mp hcode).1, hverified⟩

/-- **A second factor that has been confirmed stays in force**, as long as nobody begins a new one
in its place: until a code for its secret disables it or the user is deleted, it is the one that was
confirmed, and every login of the user that succeeds presents a code for it. -/
theorem login_presents_code {s0 s1 s2 : AdminAuth} {confirmed : ℕ} {currentSessionId : Uuid}
    {code : String} {es : List Event}
    (hsecret : (s0.administrators.get? username).bind (·.totpSecret) = some secret)
    (henable : s0.Step ((confirmed, .enableTotp username currentSessionId code), .answer true) s1)
    (hrun : Run (fun s e s' => s.Step e s' ∧ s.Calm e) s1 es s2)
    (hkept : ∀ e ∈ es, ¬ Releases username secret e) :
    s2.factor username = some (some secret, true) ∧
      ∀ now password totpCode remoteAddr userAgent sessionId sessionSecret session s3,
        s2.Step ((now, .login username password totpCode remoteAddr userAgent sessionId
          sessionSecret), .attempt (.success session)) s3 →
        ∃ code, totpCode = some code ∧ verifyTotp secret code now = true := by
  have hfactor : s2.factor username = some (some secret, true) := by
    refine hrun.invariant_on (I := fun s => s.factor username = some (some secret, true))
      (fun s e s' hnot hs hstep => factor_step hstep.1 hstep.2 hnot hs) hkept ?_
    obtain ⟨row, hrow, hrowSecret⟩ := Option.bind_eq_some_iff.mp hsecret
    have hresult := pure_eq_ok.mp henable
    unfold enableTotp at hresult
    repeat' split at hresult
    all_goals obtain ⟨hanswer, rfl⟩ := Prod.mk.inj hresult
    · cases hanswer
    · cases hanswer
    · simp [factor, deleteOtherSessions, deleteSessions, update, hrow, hrowSecret]
  refine ⟨hfactor, fun now password totpCode _ _ _ _ session s3 hlogin => ?_⟩
  obtain ⟨row, hrow, hrowFactor⟩ := Option.map_eq_some_iff.mp hfactor
  obtain ⟨-, hnot⟩ | ⟨row', hrow', -, hrefusal, -⟩ := login_eq_ok hlogin
  · exact (hnot session rfl).elim
  · cases hrow.symm.trans hrow'
    obtain ⟨hrowSecret, henabled⟩ := Prod.mk.inj hrowFactor
    exact verified_of_refusal hrefusal hrowSecret henabled

end

namespace Sample

/-- Credentials in clear text. -/
scoped instance : Credentials where
  verifyPassword password hash := .ok (password == hash)
  sha256 := id
  verifyTotp secret code _ := secret == code
  uuid := ⟨fun _ => none, fun _ => []⟩

/-- A store with one user, who has not confirmed a second factor yet. -/
def store : AdminAuth where
  administrators := (∅ : FiniteMap String Administrator).insert "ops" {
    displayName := "ops", role := .administrator, enabled := true, mustChangePassword := false,
    createdUnixSeconds := 0, lastLoginUnixSeconds := none, totpEnabled := false,
    passwordHash := "password", totpSecret := some "first" }
  sessions := ∅

def enable : ℕ × Call := (0, .enableTotp "ops" .nil "first")

def login (totpCode : Option String) : ℕ × Call :=
  (9, .login "ops" "password" totpCode none none .nil [])

end Sample

open Sample

/-- Two logins with a code. -/
theorem login_presents_code_first : ∃ s1 first s2 second s3,
    Sample.store.Step (Sample.enable, .answer true) s1 ∧
      s1.Step (Sample.login (some "first"), .attempt (.success first)) s2 ∧
      s2.Step (Sample.login (some "first"), .attempt (.success second)) s3 ∧
      s2.factor "ops" = some (some "first", true) ∧
      ∃ code, some "first" = some code ∧ verifyTotp "first" code 9 = true := by
  have hsecret : (Sample.store.administrators.get? "ops").bind (·.totpSecret) = some "first" := rfl
  obtain ⟨s1, henable, first, s2, hfirst, second, s3, hsecond⟩ : ∃ s1,
      Sample.store.Step (Sample.enable, .answer true) s1 ∧ ∃ first s2,
        s1.Step (Sample.login (some "first"), .attempt (.success first)) s2 ∧ ∃ second s3,
          s2.Step (Sample.login (some "first"), .attempt (.success second)) s3 := by
    unfold Step
    exact ⟨_, rfl, _, _, rfl, _, _, rfl⟩
  have hpresents := login_presents_code hsecret henable (.single ⟨hfirst, trivial⟩)
    (by simp [Releases, Sample.login])
  exact ⟨s1, first, s2, second, s3, henable, hfirst, hsecond, hpresents.1,
    hpresents.2 _ _ _ _ _ _ _ _ _ hsecond⟩

/-- **A session is enough to remove the second factor**: once a new one has been begun, a login
succeeds without any code. -/
theorem begun_unprotected : ∃ s1 s2 s3 session,
    Sample.store.Step (Sample.enable, .answer true) s1 ∧
      s1.Step ((5, .beginTotp "ops" "second"), .secret (some "second")) s2 ∧
      s2.Step (Sample.login none, .attempt (.success session)) s3 := by
  unfold Step
  exact ⟨_, _, _, _, rfl, rfl, rfl⟩

end LinkLake.AdminAuth
