import AuditSphere.Auth.Store

/-!
# The user access service

`UserAccessService`: who a user is and what the user may do, computed from the row and
kept in a cache for a minute. A load that does not find the user in the cache queries the
database and writes the cache afterwards; those who change a user invalidate its entry.
-/

namespace AuditSphere.Auth

open Prisma Theory Shared

/-- `CACHE_TTL_MS`. -/
def cacheTtlMs : ℕ := 60000

/-- `buildAuthUser`: the permissions of the roles, and what the tenant has added to them;
their order is left open. -/
def buildAuthUser (mfaEnforcement : MfaEnforcement) (s : Store) (id : Uuid) (u : Account) : AuthUser :=
  let roles := (u.roles.map UserRole.key).eraseDups
  { id
    tenantId := u.tenantId
    email := u.email
    displayName := u.displayName
    firstName := u.firstName
    lastName := u.lastName
    jobTitle := u.jobTitle
    avatarUrl := u.avatarUrl
    status := u.status
    authProvider := u.authProvider
    mfaEnabled := u.mfaEnabled
    mustChangePassword := u.mustChangePassword
    mfaRequiredToEnrol := u.authProvider = .localAccount && !u.mfaEnabled &&
      (mfaEnforcement = .all || (mfaEnforcement = .audit && roles.any (· ∈ auditFunctionRoles)))
    roles
    permissions := (permissionsForRoles roles ++ (u.roles.flatMap fun r => s.rolePermissions u.tenantId r.key)).eraseDups
    tenant := related s.tenants (some u.tenantId) }

/-- What a query for a user who is not deleted answers. -/
def Store.authUser (m : MfaEnforcement) (s : Store) (id : Uuid) : Option AuthUser :=
  (s.findUser id).map (buildAuthUser m s id)

/-- `cache.get`, with the time: an entry that has not expired. -/
def cached (id : Uuid) (fresh : Bool) : Method (Date × Option AuthUser) :=
  .read fun s => (s.clock,
    if fresh then none else ((s.cache id).filter fun e => s.clock < e.expires).map CacheEntry.value)

/-- `cache.set`. -/
def store (id : Uuid) (entry : CacheEntry) : Method Unit :=
  .write fun s => { s with cache := Function.update s.cache id (some entry) }

/-- `invalidate`. -/
def invalidate (id : Uuid) : Method Unit :=
  .write fun s => { s with cache := Function.update s.cache id none }

/-- `load`. -/
def load (m : MfaEnforcement) (id : Uuid) (fresh : Bool) : Method (Option AuthUser) := do
  let (time, hit) ← cached id fresh
  match hit with
  | some value => pure (some value)
  | none => do
    let user ← .read fun s => s.authUser m id
    match user with
    | none => do
      invalidate id
      pure none
    | some value => do
      store id ⟨time + cacheTtlMs, value⟩
      pure (some value)

end AuditSphere.Auth
