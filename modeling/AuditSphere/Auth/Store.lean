import AuditSphere.Db.Client
import AuditSphere.Shared.Permissions
import AuditSphere.Theory.Seen

/-!
# What authentication works on

The users, their roles and their refresh tokens, the process-wide cache of
`UserAccessService`, and the clock: time passes between the calls of a request as
anything else may happen there.

A role of a tenant is known by its key, so a user's roles are kept as keys. What is not
code of the services is a parameter (`Platform`): hashing, encryption, one-time codes,
signed tokens and the collation of the database. What a request draws at random comes
with the request (`Draws`).
-/

namespace AuditSphere.Auth

open Prisma Theory Shared

/-! ### Rows -/

/-- How a user signs in. -/
inductive AuthProvider where
  | localAccount | entraId
  deriving DecidableEq

/-- A tenant, with its settings for Entra ID. -/
structure Tenant where
  slug : String
  name : String
  isActive : Bool
  entraTenantId : Option String
  entraDefaultRole : Option RoleKey
  deriving DecidableEq

/-- A role that a user has, perhaps only for an entity of the universe. -/
structure UserRole where
  key : RoleKey
  entityId : Option Uuid
  deriving DecidableEq

/-- What `UserProfileDto` edits. -/
structure Profile where
  displayName : String
  firstName : Option String
  lastName : Option String
  jobTitle : Option String
  officeLocation : Option String
  country : Option String
  phone : Option String
  avatarUrl : Option String
  weeklyCapacity : ℚ
  chargeRate : Option ℚ
  deriving DecidableEq

/-- A user. -/
structure Account extends Profile where
  tenantId : Uuid
  email : String
  status : UserStatus
  authProvider : AuthProvider
  externalId : Option String
  passwordHash : Option String
  mfaEnabled : Bool
  mfaSecretEnc : Option String
  mfaRecoveryCodes : List String
  lastLoginAt : Option Date
  failedLoginCount : ℕ
  lockedUntil : Option Date
  /-- The one preference that matters here. -/
  mustChangePassword : Bool
  roles : List UserRole
  deletedAt : Option Date
  deriving DecidableEq

/-- A refresh token: only the hash of the token itself is kept. -/
structure RefreshToken where
  tenantId : Uuid
  userId : Uuid
  tokenHash : String
  family : Uuid
  userAgent : Option String
  ipAddress : Option String
  expiresAt : Date
  revokedAt : Option Date
  replacedBy : Option Uuid
  deriving DecidableEq

/-- `AuthUser`: what is known of the user who makes a request. -/
structure AuthUser where
  id : Uuid
  tenantId : Uuid
  email : String
  displayName : String
  firstName : Option String
  lastName : Option String
  jobTitle : Option String
  avatarUrl : Option String
  status : UserStatus
  authProvider : AuthProvider
  mfaEnabled : Bool
  mustChangePassword : Bool
  mfaRequiredToEnrol : Bool
  roles : List RoleKey
  permissions : List PermissionKey
  tenant : Option (WithId Tenant)
  deriving DecidableEq

/-- An entry of the cache. -/
structure CacheEntry where
  expires : Date
  value : AuthUser
  deriving DecidableEq

/-- An entry of the audit trail. -/
structure AuthEvent where
  actorId : Option Uuid
  action : String
  targetType : String
  targetId : Uuid
  deriving DecidableEq

/-- The shared state. -/
structure Store where
  clock : Date
  tenants : Table Uuid Tenant
  users : Table Uuid Account
  /-- `RolePermission`: what a tenant has added to a role. -/
  rolePermissions : Uuid → RoleKey → List PermissionKey
  refreshTokens : Table Uuid RefreshToken
  /-- The cache of `UserAccessService`. -/
  cache : Uuid → Option CacheEntry
  auditTrail : List AuthEvent

/-! ### Requests -/

/-- How a request fails. -/
inductive AuthError where
  | unauthorized (message : String)
  | forbidden (message : String)
  | badRequest (message : String)
  | notFound (message : String)
  | conflict (message : String)
  | serviceUnavailable (message : String)
  | prisma (code : PrismaCode)
  deriving DecidableEq

/-- A method of a service. -/
abbrev Method (α : Type) := Prog Store AuthError α

/-- What the access token says. -/
structure AccessTokenClaims where
  sub : Uuid
  tid : Uuid
  email : String
  roles : List RoleKey

/-- Which users must enrol a second factor. -/
inductive MfaEnforcement where
  | off | audit | all
  deriving DecidableEq

/-- What the services use and do not define, and their configuration. -/
structure Platform where
  sha256 : String → String
  /-- `hash` of argon2, with its salt. -/
  hash : String → String → String
  /-- `verify` of argon2. -/
  verify : String → String → Bool
  encrypt : String → String
  decrypt : String → String
  /-- `authenticator.check`: the code fits the secret at this time. -/
  check : String → String → Date → Bool
  /-- Texts that are equal for the database if case does not matter. -/
  sameText : String → String → Bool
  /-- `toUpperCase`. -/
  upper : String → String
  /-- `toLowerCase`. -/
  lower : String → String
  signAccess : AccessTokenClaims → String
  signMfa : Uuid × Uuid → Date → String
  verifyMfa : String → Date → Option (Uuid × Uuid)
  verifyEntraState : String → Date → Option String
  /-- `config.jwt.refreshTtlMs`. -/
  refreshTtlMs : ℕ
  mfaEnforcement : MfaEnforcement
  /-- `config.entra.tenantId`, if Entra ID is configured. -/
  entraTenantId : Option String

/-- What a request draws at random. -/
structure Draws where
  uuid : ℕ → Uuid
  /-- `randomToken(48)`. -/
  token : String
  /-- `authenticator.generateSecret()`. -/
  secret : String
  /-- The recovery codes. -/
  recoveryCodes : List String
  /-- `randomPassword()`. -/
  password : String
  /-- The salts of hashes. -/
  salt : ℕ → String

/-- `RequestMeta`. -/
structure RequestMeta where
  ip : Option String := none
  userAgent : Option String := none

/-- `IssuedTokens`. -/
structure IssuedTokens where
  access : String
  refresh : String
  deriving DecidableEq

/-- A session that is answered. -/
structure Session where
  user : AuthUser
  tokens : IssuedTokens
  deriving DecidableEq

/-! ### Calls -/

/-- `new Date()`. -/
def now : Method Date := .read (·.clock)

/-- `AuditTrailService.record`. -/
def auditRecord (actorId : Option Uuid) (action targetType : String) (targetId : Uuid) : Method Unit :=
  .write fun s => { s with auditTrail := ⟨actorId, action, targetType, targetId⟩ :: s.auditTrail }

/-- The user under an id, unless deleted. -/
def Store.findUser (s : Store) (id : Uuid) : Option Account := (s.users.find id).filter fun u => u.deletedAt.isNone

/-- `user.update` of one row, whatever its tenant. -/
def updateUser (id : Uuid) (f : Account → Account) : Method Unit :=
  .call fun s => if (s.users.find id).isNone then .error (.prisma .p2025)
    else .ok ((), { s with users := s.users.modify (fun j _ => j = id) f })

/-- `refreshToken.create`: neither its id nor its hash is used, and its user is there. -/
def insertToken (id : Uuid) (t : RefreshToken) : Method Unit :=
  .call fun s =>
    if (s.refreshTokens.first fun _ r => r.tokenHash = t.tokenHash).isSome then .error (.prisma .p2002)
    else if !refersTo s.users (some t.userId) then .error (.prisma .p2003)
    else match s.refreshTokens.insert id t with
      | none => .error (.prisma .p2002)
      | some refreshTokens => .ok ((), { s with refreshTokens })

/-- The refresh token with a hash. -/
def Store.tokenByHash (s : Store) (hash : String) : Option (WithId RefreshToken) :=
  s.refreshTokens.first fun _ t => t.tokenHash = hash

/-- `refreshToken.updateMany`: those of which `p` holds and that are not revoked are. -/
def revokeTokens (p : RefreshToken → Bool) (at_ : Date) : Method Unit :=
  .write fun s => { s with
    refreshTokens := s.refreshTokens.modify (fun _ t => p t && t.revokedAt.isNone) fun t => { t with revokedAt := some at_ } }

end AuditSphere.Auth
