import AuditSphere.Auth.Service

/-!
# Sign-in with Entra ID

`EntraService.callback`: the claims that the identity provider answers for the code name
an e-mail address; its user is activated, or provisioned with the default role of the
tenant, and a session is issued.
-/

namespace AuditSphere.Auth

open Prisma Theory Shared

/-- `EntraClaims`. -/
structure EntraClaims where
  sub : Option String := none
  oid : Option String := none
  email : Option String := none
  preferredUsername : Option String := none
  upn : Option String := none
  name : Option String := none
  givenName : Option String := none
  familyName : Option String := none

/-- `DEFAULT_ENTRA_ROLE`. -/
def defaultEntraRole : RoleKey := .businessOwner

/-- The text without white space at its ends. -/
def trimEnds (s : String) : String :=
  String.ofList ((s.toList.dropWhile isTrimmed).reverse.dropWhile isTrimmed).reverse

section Entra

variable (env : Platform)

/-- The e-mail address that the claims name, or the empty text. -/
def EntraClaims.address (claims : EntraClaims) : String :=
  env.lower (trimEnds ((claims.email.or (claims.preferredUsername.or claims.upn)).getD ""))

/-- `resolveTenant`: the active tenant of the directory, or the only active one. -/
def Store.resolveTenant (s : Store) : Option (WithId Tenant) :=
  match s.tenants.first fun _ t => t.isActive && t.entraTenantId.isSome && t.entraTenantId = env.entraTenantId with
  | some t => some t
  | none => match s.tenants.rows fun _ t => t.isActive with
    | [t] => some t
    | _ => none

/-- What a sign-in makes of a user who is there. -/
def EntraClaims.apply (claims : EntraClaims) (email : String) (time : Date) (existing u : Account) : Account := { u with
  authProvider := .entraId
  externalId := (claims.oid.or claims.sub).or existing.externalId
  status := .active
  lastLoginAt := some time
  failedLoginCount := 0
  lockedUntil := none
  displayName := if existing.displayName = "" then claims.name.getD email else existing.displayName
  firstName := existing.firstName.or claims.givenName
  lastName := existing.lastName.or claims.familyName }

/-- The user whom a sign-in provisions. -/
def EntraClaims.newUser (claims : EntraClaims) (tenant : WithId Tenant) (email : String) (time : Date) : Account where
  displayName := claims.name.getD email
  firstName := claims.givenName
  lastName := claims.familyName
  jobTitle := none
  officeLocation := none
  country := none
  phone := none
  avatarUrl := none
  weeklyCapacity := 40
  chargeRate := none
  tenantId := tenant.1
  email
  status := .active
  authProvider := .entraId
  externalId := claims.oid.or claims.sub
  passwordHash := none
  mfaEnabled := false
  mfaSecretEnc := none
  mfaRecoveryCodes := []
  lastLoginAt := some time
  failedLoginCount := 0
  lockedUntil := none
  mustChangePassword := false
  roles := [⟨tenant.2.entraDefaultRole.getD defaultEntraRole, none⟩]
  deletedAt := none

/-- `user.create`: its id is not used, and no user of the tenant has its e-mail address. -/
def insertUser (id : Uuid) (u : Account) : Method Unit :=
  .call fun s =>
    if (s.users.first fun _ r => r.tenantId = u.tenantId && r.email = u.email).isSome then .error (.prisma .p2002)
    else match s.users.insert id u with
      | none => .error (.prisma .p2002)
      | some users => .ok ((), { s with users })

/-- `provisionUser`; it answers the id of the user. -/
def provisionUser (d : Draws) (claims : EntraClaims) (email : String) : Method Uuid := do
  let tenant ← .read fun s => s.resolveTenant env
  match tenant with
  | none => throw (.badRequest ("Cannot determine which tenant this Microsoft directory belongs to; " ++
      "set settings.entraTenantId on the tenant"))
  | some tenant => do
    let existing ← .read fun s => s.users.first fun _ u =>
      u.tenantId = tenant.1 && env.sameText u.email email && u.deletedAt.isNone
    let time ← now
    match existing with
    | some (id, existing) =>
      if existing.status = .suspended ∨ existing.status = .deactivated then
        throw (.unauthorized "Your account is not active")
      else do
        updateUser id (claims.apply email time existing)
        pure id
    | none => do
      insertUser (d.uuid 2) (claims.newUser tenant email time)
      auditRecord (some (d.uuid 2)) "user.provisioned" "User" (d.uuid 2)
      pure (d.uuid 2)

/-- `callback`; `granted` is what the identity provider answers for the code. -/
def callback (d : Draws) (stateCookie : Option String) (granted : Option EntraClaims) (info : RequestMeta) :
    Method (Session × String) := do
  if env.entraTenantId.isNone then throw (.serviceUnavailable ("Microsoft Entra ID sign-in is not configured. " ++
      "Set ENTRA_TENANT_ID, ENTRA_CLIENT_ID and ENTRA_CLIENT_SECRET."))
  else match stateCookie.filter (· ≠ "") with
    | none => throw (.unauthorized "Missing sign-in state; start the sign-in again")
    | some cookie => do
      let time ← now
      match env.verifyEntraState cookie time with
      | none => throw (.unauthorized "Sign-in session expired, start again")
      | some returnTo =>
        match granted with
        | none => throw (.unauthorized "Microsoft sign-in failed")
        | some claims =>
          let email := claims.address env
          if email = "" ∨ '@' ∉ email.toList then
            throw (.unauthorized "Microsoft account has no usable email claim")
          else do
            let id ← provisionUser env d claims email
            let session ← issueSession env d id info none
            pure (session, returnTo)

end Entra

end AuditSphere.Auth
