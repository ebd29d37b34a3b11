import LinkLake.Core.Uuid
import LinkLake.Foundations.Fallible
import LinkLake.Foundations.FiniteMap
import LinkLake.Foundations.Runs
import LinkLake.Foundations.Splitting
import LinkLake.Foundations.Text

/-!
# The store of administrators and their sessions

The tables `administrators` and `admin_sessions`, and the public operations of `AdminAuth`
(`admin_auth.rs`) on them. An operation reads the clock once. What it draws at random comes with the
call: the id and the secret of a session, the hash of a password with its salt, and the second
factor's secret. An operation that fails has changed nothing.
-/

namespace LinkLake

open Fallible Splitting

/-- What a user may do. -/
inductive UserRole
  | administrator
  | operator
  | auditor
  deriving DecidableEq

/-- The columns of a user that others may see. -/
structure UserProfile where
  displayName : String
  role : UserRole
  enabled : Bool
  mustChangePassword : Bool
  createdUnixSeconds : ℕ
  lastLoginUnixSeconds : Option ℕ
  totpEnabled : Bool

/-- A row of the table of administrators. -/
structure Administrator extends UserProfile where
  passwordHash : String
  totpSecret : Option String

/-- A row of the table of sessions. -/
structure AdminSession where
  secretHash : List Char
  username : String
  createdUnixSeconds : ℕ
  expiresUnixSeconds : ℕ
  remoteAddr : Option String
  userAgent : Option String

/-- The two tables by their primary keys. -/
structure AdminAuth where
  administrators : FiniteMap String Administrator
  sessions : FiniteMap Uuid AdminSession

/-- A session as it is handed to the browser. -/
structure NewSession where
  sessionId : Uuid
  cookieValue : List Char
  displayName : String
  expiresUnixSeconds : ℕ
  passwordChangeRequired : Bool
  role : UserRole
  totpEnabled : Bool

/-- The answer to a login. -/
inductive LoginAttempt
  | success (session : NewSession)
  | invalidCredentials
  | totpRequired

/-- Who a cookie stands for. -/
structure SessionIdentity where
  sessionId : Uuid
  username : String
  displayName : String
  role : UserRole
  expiresUnixSeconds : ℕ
  passwordChangeRequired : Bool
  totpEnabled : Bool

/-- A user as it is listed. -/
structure UserRecord extends UserProfile where
  username : String
  activeSessions : ℕ

/-- A request for a new user. -/
structure CreateUser where
  username : String
  displayName : String
  role : UserRole
  password : String
  forcePasswordChange : Bool

/-- A request to change a user. -/
structure UpdateUser where
  displayName : String
  role : UserRole
  enabled : Bool

/-- What the store takes from libraries: the check of a password against its Argon2 hash, the
SHA-256 digest of a session's secret in hexadecimal, the check of a one-time code against a secret
at a time, and the text form of identifiers. -/
class Credentials where
  verifyPassword : String → String → Except String Bool
  sha256 : List Char → List Char
  verifyTotp : String → String → ℕ → Bool
  uuid : Text.TextForm Uuid

export Credentials (verifyPassword verifyTotp)

/-- A password has at least twelve bytes. -/
def validatePassword (password : String) : Except String Unit :=
  rejectIf (password.utf8ByteSize < 12) "administrator password must contain at least 12 characters"

/-- Check a user name and a password. -/
def validateCredentials (username password : String) : Except String Unit := do
  rejectIf (¬ (3 ≤ username.utf8ByteSize ∧ username.utf8ByteSize ≤ 64 ∧
      ∀ c ∈ username.toList, c.isAlphanum ∨ c = '_' ∨ c = '-'))
    "administrator username must be 3-64 ASCII letters, digits, underscores, or hyphens"
  validatePassword password

/-- Check a display name. -/
def validateDisplayName (displayName : String) : Except String Unit :=
  let shown := (Text.trim displayName).toList
  rejectIf (shown = [] ∨ 80 < shown.length ∨ ∃ c ∈ shown, Text.isControl c)
    "display name must contain 1-80 visible characters"

namespace AdminAuth

/-- Sessions last eight hours. -/
def sessionLifetimeSeconds : ℕ := 8 * 60 * 60

/-- The replies of the operations. -/
inductive Reply
  | attempt (attempt : LoginAttempt)
  | identity (identity : Option SessionIdentity)
  | done
  | answer (answer : Bool)
  | user (record : Option UserRecord)
  | users (records : List UserRecord)
  | sessions (rows : List (Uuid × AdminSession))
  | secret (secret : Option String)

/-! ## Statements -/

/-- `UPDATE administrators SET … WHERE username = …`. -/
def update (s : AdminAuth) (username : String) (f : Administrator → Administrator) : AdminAuth :=
  { s with administrators := s.administrators.map fun name row =>
      if name = username then f row else row }

/-- `DELETE FROM admin_sessions WHERE …`. -/
def deleteSessions (s : AdminAuth) (p : Uuid → AdminSession → Bool) : AdminAuth :=
  { s with sessions := s.sessions.filter fun id row => !p id row }

/-- End all sessions of a user. -/
def deleteSessionsOf (s : AdminAuth) (username : String) : AdminAuth :=
  s.deleteSessions fun _ row => row.username = username

/-- End all sessions of a user but one. -/
def deleteOtherSessions (s : AdminAuth) (username : String) (sessionId : Uuid) : AdminAuth :=
  s.deleteSessions fun id row => row.username = username ∧ id ≠ sessionId

/-- Forget the sessions that have ended. -/
def deleteExpired (s : AdminAuth) (now : ℕ) : AdminAuth :=
  s.deleteSessions fun _ row => row.expiresUnixSeconds ≤ now

/-- The listed form of a row, with the number of sessions that meet a condition. -/
def record (s : AdminAuth) (p : AdminSession → Bool) (username : String) (row : Administrator) :
    UserRecord where
  toUserProfile := row.toUserProfile
  username := username
  activeSessions := (s.sessions.filter fun _ session => session.username = username && p session).size

/-- The listed form of one user. -/
def user (s : AdminAuth) (username : String) (now : ℕ) : Option UserRecord :=
  (s.administrators.get? username).map (s.record (now < ·.expiresUnixSeconds) username)

/-- How many administrators can log in. -/
def enabledAdministratorCount (s : AdminAuth) : ℕ :=
  (s.administrators.filter fun _ row => row.role = .administrator ∧ row.enabled).size

/-! ## Users -/

variable (s : AdminAuth) (now : ℕ)

/-- All users by name, once the expired sessions are gone. -/
def listUsers : List UserRecord :=
  ((s.deleteExpired now).administrators.toList.mergeSort fun a b => a.1 ≤ b.1).map fun entry =>
    (s.deleteExpired now).record (fun _ => true) entry.1 entry.2

/-- Add a user whose name is not taken. -/
def createUser (request : CreateUser) (hash : String) : Except String (Reply × AdminAuth) := do
  validateCredentials request.username request.password
  validateDisplayName request.displayName
  rejectIf (request.username ∈ s.administrators) "username already exists"
  let s1 : AdminAuth := { s with administrators := s.administrators.insert request.username {
    displayName := Text.trim request.displayName
    role := request.role
    enabled := true
    mustChangePassword := request.forcePasswordChange
    createdUnixSeconds := now
    lastLoginUnixSeconds := none
    totpEnabled := false
    passwordHash := hash
    totpSecret := none } }
  let record ← okOr (s1.user request.username now) "created user could not be read"
  pure (.user record, s1)

/-- The row of a user after a request. -/
def rewritten (username : String) (request : UpdateUser) : AdminAuth :=
  s.update username fun row => { row with
    displayName := Text.trim request.displayName
    role := request.role
    enabled := request.enabled }

/-- Change profile, role and state of a user; the last administrator who can log in stays one. -/
def updateUser (actor username : String) (request : UpdateUser) :
    Except String (Reply × AdminAuth) := do
  validateDisplayName request.displayName
  let some current := s.user username now | pure (.user none, s)
  let lowered : Prop := ¬ request.enabled ∨ request.role ≠ .administrator
  rejectIf (username = actor ∧ lowered) "current user cannot be disabled or demoted"
  rejectIf (current.enabled ∧ current.role = .administrator ∧ lowered ∧
    s.enabledAdministratorCount ≤ 1) "last administrator cannot be disabled or demoted"
  let s1 := s.rewritten username request
  let s2 := if ¬ request.enabled ∨ request.role ≠ current.role then s1.deleteSessionsOf username
    else s1
  pure (.user (s2.user username now), s2)

/-- Remove a user with all sessions, except the actor and the last administrator. -/
def deleteUser (actor username : String) : Except String (Reply × AdminAuth) := do
  let some current := s.user username now | pure (.answer false, s)
  rejectIf (username = actor) "current user cannot be deleted"
  rejectIf (current.enabled ∧ current.role = .administrator ∧ s.enabledAdministratorCount ≤ 1)
    "last administrator cannot be deleted"
  let s1 := s.deleteSessionsOf username
  pure (.answer true, { s1 with administrators := s1.administrators.erase username })

/-- Set the password of a user, and end all sessions of that user. -/
def resetUserPassword (username newPassword hash : String) (forcePasswordChange : Bool) :
    Except String (Reply × AdminAuth) := do
  validatePassword newPassword
  if username ∉ s.administrators then pure (.answer false, s) else
  let s1 := s.update username fun row =>
    { row with passwordHash := hash, mustChangePassword := forcePasswordChange }
  pure (.answer true, s1.deleteSessionsOf username)

/-- End all sessions of a user; the answer says whether there is such a user. -/
def revokeUserSessions (username : String) : Reply × AdminAuth :=
  if (s.user username now).isNone then (.answer false, s)
  else (.answer true, s.deleteSessionsOf username)

/-- The function `begin_totp`; the secret in Base32 is the one drawn. -/
def beginTotp (username secret : String) : Reply × AdminAuth :=
  if (s.user username now).isNone then (.secret none, s)
  else (.secret (some secret), s.update username fun row =>
    { row with totpSecret := some secret, totpEnabled := false })

/-- All sessions that have not ended. -/
def listSessions : List (Uuid × AdminSession) :=
  (s.deleteExpired now).sessions.toList.mergeSort fun a b =>
    b.2.createdUnixSeconds ≤ a.2.createdUnixSeconds

/-- End a session other than that of the actor. -/
def revokeSession (actorSessionId sessionId : Uuid) : Except String (Reply × AdminAuth) := do
  rejectIf (actorSessionId = sessionId) "current session cannot be revoked from session management"
  pure (.answer (sessionId ∈ s.sessions), s.deleteSessions fun id _ => id = sessionId)

section

variable {s now} {s' : AdminAuth} {username actor : String} {reply : Reply}

theorem createUser_eq_ok {request : CreateUser} {hash : String}
    (h : s.createUser now request hash = .ok (reply, s')) :
    request.username ∉ s.administrators ∧ ∃ row : Administrator, row.enabled = true ∧
      s' = { s with administrators := s.administrators.insert request.username row } := by
  obtain ⟨-, h⟩ := bind_unit_eq_ok.mp h
  obtain ⟨-, h⟩ := bind_unit_eq_ok.mp h
  obtain ⟨hnew, h⟩ := bind_unit_eq_ok.mp h
  obtain ⟨record, -, h⟩ := bind_eq_ok.mp h
  exact ⟨rejectIf_eq_ok.mp hnew, _, rfl, (pair_eq_ok.mp h).2.symm⟩

theorem notMem_of_user_ne (h : ∀ current, s.user username now ≠ some current) :
    username ∉ s.administrators :=
  FiniteMap.get?_eq_none.mp (Option.map_eq_none_iff.mp (Option.eq_none_iff_forall_ne_some.mpr h))

theorem updateUser_eq_ok {request : UpdateUser}
    (h : s.updateUser now actor username request = .ok (reply, s')) :
    s' = s ∧ username ∉ s.administrators ∨ ∃ row, s.administrators.get? username = some row ∧
      ¬ (row.enabled = true ∧ row.role = .administrator ∧
        (¬ request.enabled = true ∨ request.role ≠ .administrator) ∧
        s.enabledAdministratorCount ≤ 1) ∧
      s' = if ¬ request.enabled = true ∨ request.role ≠ row.role then
          (s.rewritten username request).deleteSessionsOf username
        else s.rewritten username request := by
  obtain ⟨-, h⟩ := bind_unit_eq_ok.mp h
  split at h
  · rename_i current hcurrent
    obtain ⟨row, hrow, rfl⟩ := Option.map_eq_some_iff.mp hcurrent
    obtain ⟨-, h⟩ := bind_unit_eq_ok.mp h
    obtain ⟨hlast, h⟩ := bind_unit_eq_ok.mp h
    exact .inr ⟨row, hrow, rejectIf_eq_ok.mp hlast, (pair_eq_ok.mp h).2.symm⟩
  · rename_i hnone
    exact .inl ⟨(pair_eq_ok.mp h).2.symm, notMem_of_user_ne hnone⟩

theorem deleteUser_eq_ok (h : s.deleteUser now actor username = .ok (reply, s')) :
    s' = s ∧ username ∉ s.administrators ∨ reply = .answer true ∧
      (∃ row, s.administrators.get? username = some row ∧
        ¬ (row.enabled = true ∧ row.role = .administrator ∧ s.enabledAdministratorCount ≤ 1)) ∧
      s' = { s.deleteSessionsOf username with
        administrators := s.administrators.erase username } := by
  unfold deleteUser at h
  split at h
  · rename_i current hcurrent
    obtain ⟨row, hrow, rfl⟩ := Option.map_eq_some_iff.mp hcurrent
    obtain ⟨-, h⟩ := bind_unit_eq_ok.mp h
    obtain ⟨hlast, h⟩ := bind_unit_eq_ok.mp h
    cases h
    exact .inr ⟨rfl, ⟨row, hrow, rejectIf_eq_ok.mp hlast⟩, rfl⟩
  · rename_i hnone
    exact .inl ⟨(pair_eq_ok.mp h).2.symm, notMem_of_user_ne hnone⟩

end

/-! ## Credentials -/

variable [Credentials]

/-- A session is stored under the digest of its secret. -/
def hashSessionSecret (secret : List Char) : List Char :=
  "sha256:".toList ++ Credentials.sha256 secret

/-- The session and the secret that a cookie names. -/
def parseCookie (cookieValue : List Char) : Option (Uuid × List Char) :=
  (splitOnce '.' cookieValue).bind fun p => (Credentials.uuid.parse p.1).map fun id => (id, p.2)

/-- Why the second factor refuses a login, if it does. -/
def refusal (row : Administrator) (totpCode : Option String) : Option LoginAttempt :=
  if row.totpEnabled then
    match totpCode.filter (Text.trim · ≠ ""), row.totpSecret with
    | none, _ => some .totpRequired
    | some _, none => some .invalidCredentials
    | some code, some secret =>
      if verifyTotp secret code now then none else some .invalidCredentials
  else none

/-- The session of a login that succeeds. Expired sessions go first. -/
def openSession (username : String) (row : Administrator) (remoteAddr userAgent : Option String)
    (sessionId : Uuid) (sessionSecret : List Char) : NewSession × AdminAuth :=
  let s1 := s.deleteExpired now
  let expiresUnixSeconds := now + sessionLifetimeSeconds
  let s2 : AdminAuth := { s1 with sessions := s1.sessions.insert sessionId {
    secretHash := hashSessionSecret sessionSecret
    username
    createdUnixSeconds := now
    expiresUnixSeconds
    remoteAddr := remoteAddr.map fun value => String.ofList (value.toList.take 128)
    userAgent := userAgent.map fun value => String.ofList (value.toList.take 512) } }
  ({ sessionId
     cookieValue := Credentials.uuid.format sessionId ++ '.' :: sessionSecret
     displayName := row.displayName
     expiresUnixSeconds
     passwordChangeRequired := row.mustChangePassword
     role := row.role
     totpEnabled := row.totpEnabled },
    s2.update username fun row => { row with lastLoginUnixSeconds := some now })

/-- The function `login_with_context`. The source also verifies the password of an unknown user,
against a dummy hash and only for the time this takes. -/
def login (username password : String) (totpCode remoteAddr userAgent : Option String)
    (sessionId : Uuid) (sessionSecret : List Char) : Except String (Reply × AdminAuth) := do
  let some row := s.administrators.get? username | pure (.attempt .invalidCredentials, s)
  let verified ← (if row.enabled then verifyPassword password row.passwordHash else pure false)
  if !verified then pure (.attempt .invalidCredentials, s) else
  if let some refused := refusal now row totpCode then pure (.attempt refused, s) else
  pure ((s.openSession now username row remoteAddr userAgent sessionId sessionSecret).map
    (.attempt ∘ .success) id)

/-- Who the cookie of a request stands for. -/
def authenticateSession (cookieValue : List Char) : Option SessionIdentity × AdminAuth :=
  match parseCookie cookieValue with
  | none => (none, s)
  | some (sessionId, secret) =>
    match s.sessions.get? sessionId with
    | none => (none, s)
    | some session =>
      match (s.administrators.get? session.username).filter (·.enabled) with
      | none => (none, s)
      | some row =>
        if session.expiresUnixSeconds ≤ now then (none, s)
        -- Sessions of older versions, whose secrets were hashed in another way, end here.
        else if !"sha256:".toList.isPrefixOf session.secretHash then
          (none, s.deleteSessions fun id _ => id = sessionId)
        else if hashSessionSecret secret ≠ session.secretHash then (none, s)
        else (some {
          sessionId
          username := session.username
          displayName := row.displayName
          role := row.role
          expiresUnixSeconds := session.expiresUnixSeconds
          passwordChangeRequired := row.mustChangePassword
          totpEnabled := row.totpEnabled }, s)

/-- End the session of a cookie. -/
def logout (cookieValue : List Char) : AdminAuth :=
  (parseCookie cookieValue).elim s fun cookie => s.deleteSessions fun id _ => id = cookie.1

/-- Set the own password, and end all other sessions. -/
def changePassword (cookieValue : List Char) (newPassword hash : String) :
    Except String (Reply × AdminAuth) := do
  validatePassword newPassword
  match s.authenticateSession now cookieValue with
  | (none, s1) => pure (.answer false, s1)
  | (some identity, s1) =>
    let s2 := s1.update identity.username fun row =>
      { row with passwordHash := hash, mustChangePassword := false }
    pure (.answer true, s2.deleteOtherSessions identity.username identity.sessionId)

/-- Turn the second factor on, if the code fits the stored secret; other sessions of the user end. -/
def enableTotp (username : String) (currentSessionId : Uuid) (code : String) : Reply × AdminAuth :=
  match (s.administrators.get? username).bind (·.totpSecret) with
  | none => (.answer false, s)
  | some secret =>
    if !verifyTotp secret code now then (.answer false, s)
    else (.answer true, (s.update username fun row =>
      { row with totpEnabled := true }).deleteOtherSessions username currentSessionId)

/-- Turn the second factor off, if the code fits. -/
def disableTotp (username code : String) : Reply × AdminAuth :=
  match ((s.administrators.get? username).filter (·.totpEnabled)).bind (·.totpSecret) with
  | none => (.answer false, s)
  | some secret =>
    if !verifyTotp secret code now then (.answer false, s)
    else (.answer true, s.update username fun row =>
      { row with totpSecret := none, totpEnabled := false })

/-! ## Calls -/

/-- The calls of the store. -/
inductive Call
  | login (username password : String) (totpCode remoteAddr userAgent : Option String)
      (sessionId : Uuid) (sessionSecret : List Char)
  | authenticateSession (cookieValue : List Char)
  | logout (cookieValue : List Char)
  | changePassword (cookieValue : List Char) (newPassword hash : String)
  | listUsers
  | createUser (request : CreateUser) (hash : String)
  | updateUser (actor username : String) (request : UpdateUser)
  | deleteUser (actor username : String)
  | resetUserPassword (username newPassword hash : String) (forcePasswordChange : Bool)
  | revokeUserSessions (username : String)
  | beginTotp (username secret : String)
  | enableTotp (username : String) (currentSessionId : Uuid) (code : String)
  | disableTotp (username code : String)
  | listSessions
  | revokeSession (actorSessionId sessionId : Uuid)

/-- A call at a time. -/
def call : ℕ × Call → Except String (Reply × AdminAuth)
  | (now, .login username password totpCode remoteAddr userAgent sessionId sessionSecret) =>
    s.login now username password totpCode remoteAddr userAgent sessionId sessionSecret
  | (now, .authenticateSession cookieValue) =>
    pure ((s.authenticateSession now cookieValue).map .identity id)
  | (_, .logout cookieValue) => pure (.done, s.logout cookieValue)
  | (now, .changePassword cookieValue newPassword hash) =>
    s.changePassword now cookieValue newPassword hash
  | (now, .listUsers) => pure (.users (s.listUsers now), s.deleteExpired now)
  | (now, .createUser request hash) => s.createUser now request hash
  | (now, .updateUser actor username request) => s.updateUser now actor username request
  | (now, .deleteUser actor username) => s.deleteUser now actor username
  | (_, .resetUserPassword username newPassword hash force) =>
    s.resetUserPassword username newPassword hash force
  | (now, .revokeUserSessions username) => pure (s.revokeUserSessions now username)
  | (now, .beginTotp username secret) => pure (s.beginTotp now username secret)
  | (now, .enableTotp username currentSessionId code) =>
    pure (s.enableTotp now username currentSessionId code)
  | (now, .disableTotp username code) => pure (s.disableTotp now username code)
  | (now, .listSessions) => pure (.sessions (s.listSessions now), s.deleteExpired now)
  | (_, .revokeSession actorSessionId sessionId) => s.revokeSession actorSessionId sessionId

/-- A call with its time and its reply. -/
abbrev Event := (ℕ × Call) × Reply

/-- The call of the event succeeds with its reply. -/
def Step (e : Event) (s' : AdminAuth) : Prop := s.call e.1 = .ok (e.2, s')

/-! ## Credentials in use -/

variable {s now} {s' : AdminAuth} {username password : String}
  {totpCode remoteAddr userAgent : Option String} {sessionId : Uuid}
  {sessionSecret cookieValue : List Char} {row : Administrator} {reply : Reply}

theorem refusal_ne_success {session : NewSession} :
    refusal now row totpCode ≠ some (.success session) := by
  unfold refusal
  repeat' split
  all_goals simp

theorem login_eq_ok (h : s.login now username password totpCode remoteAddr userAgent sessionId
      sessionSecret = .ok (reply, s')) :
    (s' = s ∧ ∀ session, reply ≠ .attempt (.success session)) ∨
      ∃ row, s.administrators.get? username = some row ∧ row.enabled = true ∧
        refusal now row totpCode = none ∧ (reply, s') =
          (s.openSession now username row remoteAddr userAgent sessionId sessionSecret).map
            (.attempt ∘ .success) id := by
  unfold login at h
  split at h
  · rename_i row hrow
    obtain ⟨verified, hverified, h⟩ := bind_eq_ok.mp h
    split_ifs at h with hrefused
    · cases h
      exact .inl ⟨rfl, by simp⟩
    · split at h
      · rename_i refused hrefusal
        cases h
        refine .inl ⟨rfl, fun session hsession => ?_⟩
        rw [Reply.attempt.inj hsession] at hrefusal
        exact refusal_ne_success hrefusal
      · rename_i hrefusal
        have henabled : row.enabled = true := by
          by_contra hdisabled
          rw [if_neg hdisabled] at hverified
          cases hverified
          exact hrefused rfl
        refine .inr ⟨row, hrow, henabled, ?_, (pure_eq_ok.mp h).symm⟩
        exact Option.eq_none_iff_forall_ne_some.mpr hrefusal
  · cases h
    exact .inl ⟨rfl, by simp⟩

theorem administrators_authenticateSession :
    (s.authenticateSession now cookieValue).2.administrators = s.administrators := by
  unfold authenticateSession
  repeat' split
  all_goals rfl

end AdminAuth

end LinkLake
