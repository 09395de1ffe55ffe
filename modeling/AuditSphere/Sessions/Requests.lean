import AuditSphere.Users.Service

/-!
# Requests about sessions and users

What clients and administrators ask of the authentication and the users service, and what
happens besides: time passes, and an operator switches a tenant or removes a user in the
database, for which there is no endpoint.
-/

namespace AuditSphere.Sessions

open Prisma Theory Shared Auth Users

/-- A request. -/
inductive Request where
  | login (d : Draws) (dto : LoginDto) (info : RequestMeta)
  | verifyMfa (d : Draws) (mfaToken code : String) (info : RequestMeta)
  | callback (d : Draws) (stateCookie : Option String) (granted : Option EntraClaims) (info : RequestMeta)
  | issueSession (d : Draws) (userId : Uuid) (info : RequestMeta)
  | refresh (d : Draws) (rawToken : Option String) (info : RequestMeta)
  | logout (rawToken : Option String) (actor : Option Uuid)
  | revokeAllSessions (userId : Uuid) (exceptRawToken : Option String)
  | changePassword (d : Draws) (userId : Uuid) (currentPassword newPassword : String)
      (currentRefreshToken : Option String)
  | mfaSetup (d : Draws) (userId : Uuid)
  | mfaEnable (d : Draws) (userId : Uuid) (code : String)
  | mfaDisable (userId : Uuid) (code : String)
  | createUser (d : Draws) (actor : AuthUser) (dto : CreateUserDto)
  | updateUser (actor : AuthUser) (id : Uuid) (dto : UpdateUserDto)
  | setRoles (actor : AuthUser) (id : Uuid) (dto : SetRolesDto)
  | resetPassword (d : Draws) (actor : AuthUser) (id : Uuid)
  | resetMfa (actor : AuthUser) (id : Uuid)
  | load (id : Uuid) (fresh : Bool)
  /-- Time passes. -/
  | tick (elapsed : ℕ)
  /-- An operator activates a tenant, or deactivates it. -/
  | switchTenant (id : Uuid) (isActive : Bool)
  /-- An operator removes a user. -/
  | removeUser (id : Uuid)

/-- What is answered. -/
inductive Answer where
  | done
  | session (s : Session)
  | challenge (mfaToken : String)
  | redirect (s : Session) (returnTo : String)
  | secret (secret : String)
  | recoveryCodes (codes : List String)
  | user (user : UserView) (temporaryPassword : Option String)
  | password (temporaryPassword : String)
  | loaded (user : Option AuthUser)

/-- The answer to a login. -/
def Answer.ofLogin : LoginResult → Answer
  | .session s => .session s
  | .mfa token => .challenge token

variable (env : Platform)

/-- The program of a request. -/
def serve : Request → Method Answer
  | .login d dto info => Answer.ofLogin <$> login env d dto info
  | .verifyMfa d mfaToken code info => .session <$> verifyMfa env d mfaToken code info
  | .callback d stateCookie granted info =>
    (fun r => .redirect r.1 r.2) <$> callback env d stateCookie granted info
  | .issueSession d userId info => .session <$> issueSession env d userId info none
  | .refresh d rawToken info => .session <$> refresh env d rawToken info
  | .logout rawToken actor => (fun _ => .done) <$> logout env rawToken actor
  | .revokeAllSessions userId exceptRawToken => (fun _ => .done) <$> revokeAllSessions env userId exceptRawToken
  | .changePassword d userId currentPassword newPassword currentRefreshToken =>
    (fun _ => .done) <$> changePassword env d userId currentPassword newPassword currentRefreshToken
  | .mfaSetup d userId => .secret <$> mfaSetup env d userId
  | .mfaEnable d userId code => .recoveryCodes <$> mfaEnable env d userId code
  | .mfaDisable userId code => (fun _ => .done) <$> mfaDisable env userId code
  | .createUser d actor dto => (fun r => .user r.1 r.2) <$> Users.create env d actor dto
  | .updateUser actor id dto => (fun v => .user v none) <$> Users.update actor id dto
  | .setRoles actor id dto => (fun v => .user v none) <$> Users.setRoles actor id dto
  | .resetPassword d actor id => .password <$> Users.resetPassword env d actor id
  | .resetMfa actor id => (fun _ => .done) <$> Users.resetMfa actor id
  | .load id fresh => .loaded <$> load env.mfaEnforcement id fresh
  | .tick elapsed => (fun _ => .done) <$> (Prog.write fun s => { s with clock := s.clock + elapsed } : Method Unit)
  | .switchTenant id isActive => (fun _ => .done) <$> (Prog.write fun s =>
      { s with tenants := s.tenants.modify (fun j _ => j = id) fun t => { t with isActive } } : Method Unit)
  | .removeUser id => (fun _ => .done) <$> (Prog.write fun s =>
      { s with users := s.users.modify (fun j _ => j = id) fun u => { u with deletedAt := some s.clock } } : Method Unit)

/-! ### A small tenant -/

/-- A platform on which nothing is hidden: hashes and secrets are the texts themselves. -/
def platform : Platform where
  sha256 := fun s => s
  hash := fun _ s => s
  verify := fun h s => h = s
  encrypt := fun s => s
  decrypt := fun s => s
  check := fun code secret _ => code = secret
  sameText := fun a b => a = b
  upper := fun s => s
  lower := fun s => s
  signAccess := fun c => c.email
  signMfa := fun _ _ => "challenge"
  verifyMfa := fun token _ => if token = "challenge" then some (1, 1) else none
  verifyEntraState := fun _ _ => none
  refreshTtlMs := 1000
  mfaEnforcement := .off
  entraTenantId := none

/-- What the `n`-th request draws. -/
def draw (n : ℕ) (token : String) : Draws where
  uuid := fun k => 100 * n + k
  token
  secret := "secret"
  recoveryCodes := ["code one", "code two"]
  password := "temporary"
  salt := fun _ => ""

/-- A user of the tenant. -/
def person (email : String) (role : RoleKey) : Account where
  displayName := email
  firstName := none
  lastName := none
  jobTitle := none
  officeLocation := none
  country := none
  phone := none
  avatarUrl := none
  weeklyCapacity := 40
  chargeRate := none
  tenantId := 1
  email
  status := .active
  authProvider := .localAccount
  externalId := none
  passwordHash := some "password"
  mfaEnabled := false
  mfaSecretEnc := none
  mfaRecoveryCodes := []
  lastLoginAt := none
  failedLoginCount := 0
  lockedUntil := none
  mustChangePassword := false
  roles := [⟨role, none⟩]
  deletedAt := none

/-- A token of the first user. -/
def ticket (text : String) (family : Uuid) : RefreshToken where
  tenantId := 1
  userId := 1
  tokenHash := text
  family
  userAgent := none
  ipAddress := none
  expiresAt := 1000
  revokedAt := none
  replacedBy := none

/-- An administrator, who is signed in, and the chief audit executive. -/
def team : Store where
  clock := 0
  tenants := ⟨[(1, ⟨"bdo", "BDO", true, none, none⟩)], by decide⟩
  users := ⟨[(1, person "admin" .globalAdmin), (2, person "cae" .chiefAuditExecutive)], by decide⟩
  rolePermissions := fun _ _ => []
  refreshTokens := ⟨[(10, ticket "first" 7)], by decide⟩
  cache := fun _ => none
  auditTrail := []

end AuditSphere.Sessions
