import AuditSphere.Auth.UserAccess

/-!
# The authentication service

`AuthService`: local login with its lockout, the second factor and its recovery codes,
sessions with rotating refresh tokens, and the change of a password. None of its methods
runs in a transaction; each statement is a call of its own.
-/

namespace AuditSphere.Auth

open Prisma Theory Shared

/-- `MAX_FAILED_LOGINS`. -/
def maxFailedLogins : ℕ := 5

/-- `LOCKOUT_MINUTES`, in milliseconds. -/
def lockoutMs : ℕ := 15 * 60000

/-- `GENERIC_LOGIN_ERROR`. -/
def genericLoginError : AuthError := .unauthorized "Invalid email or password"

section Service

variable (env : Platform)

/-- `verifyPassword`. -/
def verifyPassword (hashed : Option String) (password : String) : Bool :=
  hashed.any fun h => h ≠ "" && env.verify h password

/-! ### Sessions -/

/-- `issueSession`; a session that continues no family begins one. -/
def issueSession (d : Draws) (userId : Uuid) (info : RequestMeta) (family : Option Uuid) : Method Session := do
  let user ← load env.mfaEnforcement userId true
  match user with
  | none => throw (.unauthorized "User not found")
  | some user => do
    let time ← now
    insertToken (d.uuid 0) {
      tenantId := user.tenantId
      userId := user.id
      tokenHash := env.sha256 d.token
      family := family.getD (d.uuid 1)
      userAgent := info.userAgent
      ipAddress := info.ip
      expiresAt := time + env.refreshTtlMs
      revokedAt := none
      replacedBy := none }
    let access := env.signAccess ⟨user.id, user.tenantId, user.email, user.roles⟩
    auditRecord (some user.id) "auth.login" "User" user.id
    pure ⟨user, ⟨access, d.token⟩⟩

/-- The session may go on: its user is active, and so is the tenant. -/
def AuthUser.valid (u : AuthUser) : Bool := u.status = .active && u.tenant.any fun t => t.2.isActive

/-- The successor of a refresh token. -/
def successor (d : Draws) (info : RequestMeta) (existing : RefreshToken) (time : Date) : RefreshToken where
  tenantId := existing.tenantId
  userId := existing.userId
  tokenHash := env.sha256 d.token
  family := existing.family
  userAgent := info.userAgent.or existing.userAgent
  ipAddress := info.ip.or existing.ipAddress
  expiresAt := time + env.refreshTtlMs
  revokedAt := none
  replacedBy := none

/-- `refreshToken.update`: the token that was presented is revoked and points to its successor. -/
def replaceToken (id next : Uuid) (time : Date) : Method Unit :=
  .call fun s => if (s.refreshTokens.find id).isNone then .error (.prisma .p2025)
    else .ok ((), { s with refreshTokens := s.refreshTokens.modify (fun j _ => j = id) fun t =>
      { t with revokedAt := some time, replacedBy := some next } })

/-- `refresh`, once it has found the token and looked at the clock. -/
def refreshFound (d : Draws) (info : RequestMeta) (id : Uuid) (existing : RefreshToken) (time : Date) :
    Method Session :=
  if existing.revokedAt.isSome then do
    -- a token that has been rotated is presented again: the whole family goes
    revokeTokens (fun t => t.family = existing.family) time
    auditRecord (some existing.userId) "auth.refresh_reuse_detected" "RefreshToken" id
    throw (.unauthorized "Refresh token reuse detected; session revoked")
  else if existing.expiresAt ≤ time then throw (.unauthorized "Refresh token expired")
  else do
    let user ← load env.mfaEnforcement existing.userId true
    match user.filter AuthUser.valid with
    | none => throw (.unauthorized "Session is no longer valid")
    | some user => do
      insertToken (d.uuid 0) (successor env d info existing time)
      replaceToken id (d.uuid 0) time
      let access := env.signAccess ⟨user.id, user.tenantId, user.email, user.roles⟩
      auditRecord (some user.id) "auth.refresh" "RefreshToken" (d.uuid 0)
      pure ⟨user, ⟨access, d.token⟩⟩

/-- `refresh`. -/
def refresh (d : Draws) (rawToken : Option String) (info : RequestMeta) : Method Session :=
  match rawToken.filter (· ≠ "") with
  | none => throw (.unauthorized "No refresh token")
  | some raw => do
    let existing ← .read fun s => s.tokenByHash (env.sha256 raw)
    match existing with
    | none => throw (.unauthorized "Invalid refresh token")
    | some (id, existing) => do
      let time ← now
      refreshFound env d info id existing time

/-- `logout`, once it has found the token: its family goes, unless it is revoked already. -/
def logoutFound (existing : RefreshToken) : Method Unit := do
  if existing.revokedAt.isNone then do
    let time ← now
    revokeTokens (fun t => t.family = existing.family) time
    auditRecord (some existing.userId) "auth.logout" "User" existing.userId
  else auditRecord (some existing.userId) "auth.logout" "User" existing.userId

/-- `logout`, if there is no such token. -/
def logoutWithout (actor : Option Uuid) : Method Unit :=
  match actor with
  | some id => auditRecord (some id) "auth.logout" "User" id
  | none => pure ()

/-- `logout`; `actor` is the user of the access token, if it is valid. -/
def logout (rawToken : Option String) (actor : Option Uuid) : Method Unit :=
  match rawToken.filter (· ≠ "") with
  | none => logoutWithout actor
  | some raw => do
    let existing ← .read fun s => s.tokenByHash (env.sha256 raw)
    match existing with
    | some (_, existing) => logoutFound existing
    | none => logoutWithout actor

/-- `revokeAllSessions`, with the family that is kept. -/
def revokeOthers (userId : Uuid) (keepFamily : Option Uuid) : Method Unit := do
  let time ← now
  revokeTokens (fun t => t.userId = userId && keepFamily.all (t.family ≠ ·)) time

/-- `revokeAllSessions`: all families of the user, but that of the token that is excepted. -/
def revokeAllSessions (userId : Uuid) (exceptRawToken : Option String) : Method Unit :=
  match exceptRawToken.filter (· ≠ "") with
  | none => revokeOthers userId none
  | some raw => do
    let keepFamily ← .read fun s => (s.tokenByHash (env.sha256 raw)).map fun t => t.2.family
    revokeOthers userId keepFamily

/-! ### Local login -/

/-- `LoginDto`. -/
structure LoginDto where
  email : String
  password : String
  tenantSlug : Option String := none

/-- `LoginResult`. -/
inductive LoginResult where
  | session (s : Session)
  | mfa (mfaToken : String)

/-- `findLoginUser`: the oldest user with this e-mail address, with its tenant. -/
def Store.loginUser (s : Store) (email : String) (tenantSlug : Option String) :
    Option (WithId Account × Option Tenant) :=
  (s.users.entries.reverse.find? fun u => u.2.deletedAt.isNone && env.sameText u.2.email email &&
    (tenantSlug.filter (· ≠ "")).all fun slug => (s.tenants.find u.2.tenantId).any fun t => t.slug = slug).map fun u =>
      (u, s.tenants.find u.2.tenantId)

/-- `registerFailedLogin`: it counts on from the row that was read. -/
def registerFailedLogin (id : Uuid) (user : Account) (time : Date) : Method Unit := do
  let count := user.failedLoginCount + 1
  let lock := decide (maxFailedLogins ≤ count)
  updateUser id fun u => { u with
    failedLoginCount := if lock then 0 else count
    lockedUntil := if lock then some (time + lockoutMs) else user.lockedUntil }
  auditRecord (some id) (if lock then "auth.account_locked" else "auth.login_failed") "User" id

/-- `login`, with the right password. -/
def loginVerified (d : Draws) (info : RequestMeta) (id : Uuid) (user : Account) (time : Date) : Method LoginResult := do
  updateUser id fun u => { u with
    failedLoginCount := 0
    lockedUntil := none
    lastLoginAt := some time
    status := if user.status = .invited then .active else user.status }
  invalidate id
  if user.mfaEnabled then do
    let signed ← now
    auditRecord (some id) "auth.mfa_challenged" "User" id
    pure (.mfa (env.signMfa (id, user.tenantId) signed))
  else do
    let session ← issueSession env d id info none
    pure (.session session)

/-- `login`, once it has found the user and looked at the clock. -/
def loginFound (d : Draws) (dto : LoginDto) (info : RequestMeta) (id : Uuid) (user : Account) (tenant : Option Tenant)
    (time : Date) : Method LoginResult :=
  if user.status = .suspended ∨ user.status = .deactivated ∨ ¬tenant.any Tenant.isActive then do
    auditRecord (some id) "auth.login_denied" "User" id
    throw genericLoginError
  else if user.lockedUntil.any (time < ·) then do
    auditRecord (some id) "auth.login_locked" "User" id
    throw genericLoginError
  else if !verifyPassword env user.passwordHash dto.password then do
    registerFailedLogin id user time
    throw genericLoginError
  else loginVerified env d info id user time

/-- `login`. -/
def login (d : Draws) (dto : LoginDto) (info : RequestMeta) : Method LoginResult := do
  let found ← .read fun s => s.loginUser env dto.email dto.tenantSlug
  let time ← now
  match found with
  | none => throw genericLoginError
  | some ((id, user), tenant) =>
    if user.authProvider ≠ .localAccount ∨ user.passwordHash.all (· = "") then throw genericLoginError
    else loginFound env d dto info id user tenant time

/-! ### The second factor -/

/-- `replace(/\s+/g, '')`. -/
def withoutBlanks (code : String) : String := String.ofList (code.toList.filter fun c => !isTrimmed c)

/-- The code without white space, in upper case. -/
def normalized (code : String) : String := env.upper (withoutBlanks code)

/-- `/^\d{6}$/`. -/
def isOneTimeCode (code : String) : Bool := code.length = 6 && code.toList.all Char.isDigit

/-- `checkMfaCode`, from the recovery codes on: the first that matches is taken out of the
codes that were read. -/
def useRecoveryCode (id : Uuid) (codes : List String) (code : String) : Method Bool :=
  match codes.find? fun h => verifyPassword env (some h) code with
  | none => pure false
  | some hashed => do
    updateUser id fun u => { u with mfaRecoveryCodes := codes.filter (· ≠ hashed) }
    auditRecord (some id) "auth.recovery_code_used" "User" id
    pure true

/-- `checkMfaCode`. -/
def checkMfaCode (id : Uuid) (user : Account) (code : String) : Method Bool := do
  let code := normalized env code
  let time ← now
  if isOneTimeCode code && user.mfaSecretEnc.any fun secret => env.check code (env.decrypt secret) time then pure true
  else useRecoveryCode env id user.mfaRecoveryCodes code

/-- `verifyMfa`. -/
def verifyMfa (d : Draws) (mfaToken code : String) (info : RequestMeta) : Method Session := do
  let time ← now
  match env.verifyMfa mfaToken time with
  | none => throw (.unauthorized "MFA challenge expired, sign in again")
  | some (id, _) => do
    let user ← .read fun s => s.findUser id
    match user.filter fun u => u.mfaEnabled && u.mfaSecretEnc.any (· ≠ "") with
    | none => throw (.unauthorized "MFA is not enabled")
    | some user => do
      if ← checkMfaCode env id user code then issueSession env d id info none
      else do
        auditRecord (some id) "auth.mfa_failed" "User" id
        throw (.unauthorized "Invalid verification code")

/-- `mfaSetup`; it answers the secret. -/
def mfaSetup (d : Draws) (userId : Uuid) : Method String := do
  let user ← .read fun s => s.findUser userId
  match user with
  | none => throw (.prisma .p2025)
  | some user =>
    if user.mfaEnabled then throw (.badRequest "MFA is already enabled; disable it before re-enrolling")
    else do
      updateUser userId fun u => { u with mfaSecretEnc := some (env.encrypt d.secret) }
      auditRecord (some userId) "auth.mfa_setup_started" "User" userId
      pure d.secret

/-- `mfaEnable`; it answers the recovery codes. -/
def mfaEnable (d : Draws) (userId : Uuid) (code : String) : Method (List String) := do
  let user ← .read fun s => s.findUser userId
  match user with
  | none => throw (.prisma .p2025)
  | some user =>
    if user.mfaEnabled then throw (.badRequest "MFA is already enabled")
    else match user.mfaSecretEnc.filter (· ≠ "") with
      | none => throw (.badRequest "Run MFA setup first")
      | some secret => do
        let time ← now
        if !env.check (withoutBlanks code) (env.decrypt secret) time then
          throw (.badRequest "Invalid verification code")
        else do
          let hashes := d.recoveryCodes.zipIdx.map fun c => env.hash (d.salt c.2) c.1
          updateUser userId fun u => { u with mfaEnabled := true, mfaRecoveryCodes := hashes }
          invalidate userId
          auditRecord (some userId) "auth.mfa_enabled" "User" userId
          pure d.recoveryCodes

/-- `mfaDisable`. -/
def mfaDisable (userId : Uuid) (code : String) : Method Unit := do
  let user ← .read fun s => s.findUser userId
  match user with
  | none => throw (.prisma .p2025)
  | some user =>
    if !user.mfaEnabled then throw (.badRequest "MFA is not enabled")
    else do
      if ← checkMfaCode env userId user code then do
        updateUser userId fun u => { u with mfaEnabled := false, mfaSecretEnc := none, mfaRecoveryCodes := [] }
        invalidate userId
        auditRecord (some userId) "auth.mfa_disabled" "User" userId
      else throw (.badRequest "Invalid verification code")

/-! ### The password -/

/-- `changePassword`. -/
def changePassword (d : Draws) (userId : Uuid) (currentPassword newPassword : String)
    (currentRefreshToken : Option String) : Method Unit := do
  let user ← .read fun s => s.findUser userId
  match user with
  | none => throw (.prisma .p2025)
  | some user =>
    if user.authProvider ≠ .localAccount then throw (.badRequest "Password is managed by your identity provider")
    else if !verifyPassword env user.passwordHash currentPassword then
      throw (.badRequest "Current password is incorrect")
    else if currentPassword = newPassword then
      throw (.badRequest "New password must differ from the current one")
    else do
      updateUser userId fun u => { u with
        passwordHash := some (env.hash (d.salt 0) newPassword)
        failedLoginCount := 0
        lockedUntil := none
        mustChangePassword := false }
      invalidate userId
      revokeAllSessions env userId currentRefreshToken
      auditRecord (some userId) "auth.password_changed" "User" userId

end Service

end AuditSphere.Auth
