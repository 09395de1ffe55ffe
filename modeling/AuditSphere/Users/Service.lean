import AuditSphere.Auth.Entra

/-!
# The users service

`UsersService`: administrators create users, edit them with their status, set their roles,
and reset a password or a second factor. The queries are confined to the tenant of the
actor; the revocation of sessions is not.
-/

namespace AuditSphere.Users

open Prisma Theory Shared Auth

/-! ### Requests -/

/-- `CreateUserDto`. -/
structure CreateUserDto where
  email : String
  displayName : String
  roles : List RoleKey
  firstName : Field String := none
  lastName : Field String := none
  jobTitle : Field String := none
  officeLocation : Field String := none
  country : Field String := none
  phone : Field String := none
  avatarUrl : Field String := none
  weeklyCapacity : Field ℚ := none
  chargeRate : Field ℚ := none
  password : Option String := none

/-- `UpdateUserDto`. -/
structure UpdateUserDto where
  displayName : Field String := none
  firstName : Field String := none
  lastName : Field String := none
  jobTitle : Field String := none
  officeLocation : Field String := none
  country : Field String := none
  phone : Field String := none
  avatarUrl : Field String := none
  weeklyCapacity : Field ℚ := none
  chargeRate : Field ℚ := none
  status : Field UserStatus := none

/-- What the supplied properties make of a user. -/
def UpdateUserDto.apply (dto : UpdateUserDto) (u : Account) : Except AuthError Account :=
  match dto.displayName.onRequired u.displayName, dto.weeklyCapacity.onRequired u.weeklyCapacity,
    dto.status.onRequired u.status with
  | some displayName, some weeklyCapacity, some status => .ok { u with
      displayName
      firstName := dto.firstName.onNullable u.firstName
      lastName := dto.lastName.onNullable u.lastName
      jobTitle := dto.jobTitle.onNullable u.jobTitle
      officeLocation := dto.officeLocation.onNullable u.officeLocation
      country := dto.country.onNullable u.country
      phone := dto.phone.onNullable u.phone
      avatarUrl := dto.avatarUrl.onNullable u.avatarUrl
      weeklyCapacity
      chargeRate := dto.chargeRate.onNullable u.chargeRate
      status
      deletedAt := if dto.status.orNull = some .deactivated then none else u.deletedAt }
  | _, _, _ => .error (.prisma .validation)

/-- What is answered of a user. -/
structure UserView where
  id : Uuid
  profile : Profile
  email : String
  status : UserStatus
  authProvider : AuthProvider
  mfaEnabled : Bool
  lastLoginAt : Option Date
  roles : List RoleKey

/-- `shape`. -/
def shape (id : Uuid) (u : Account) : UserView :=
  ⟨id, u.toProfile, u.email, u.status, u.authProvider, u.mfaEnabled, u.lastLoginAt, (u.roles.map UserRole.key).eraseDups⟩

/-! ### Queries and writes of the tenant -/

/-- The user under an id, if it is one of the actor's tenant and not deleted. -/
def findScoped (actor : AuthUser) (s : Store) (id : Uuid) : Option Account :=
  (s.findUser id).filter fun u => u.tenantId = actor.tenantId

/-- `user.update` of one row of the tenant. -/
def updateScoped (actor : AuthUser) (id : Uuid) (f : Account → Except AuthError Account) : Method Account :=
  .call fun s => match (s.users.find id).filter fun u => u.tenantId = actor.tenantId with
    | none => .error (.prisma .p2025)
    | some u => match f u with
      | .error e => .error e
      | .ok u' => .ok (u', { s with users := s.users.modify (fun j _ => j = id) fun _ => u' })

/-- `get`. -/
def get (actor : AuthUser) (id : Uuid) : Method UserView := do
  let user ← .read fun s => findScoped actor s id
  match user with
  | none => throw (.notFound "User not found")
  | some user => pure (shape id user)

section Service

variable (env : Platform)

/-! ### Methods -/

/-- The row of a new user. -/
def newUser (d : Draws) (actor : AuthUser) (dto : CreateUserDto) : Account where
  displayName := dto.displayName
  firstName := dto.firstName.orNull
  lastName := dto.lastName.orNull
  jobTitle := dto.jobTitle.orNull
  officeLocation := dto.officeLocation.orNull
  country := dto.country.orNull
  phone := dto.phone.orNull
  avatarUrl := dto.avatarUrl.orNull
  weeklyCapacity := dto.weeklyCapacity.orNull.getD 40
  chargeRate := dto.chargeRate.orNull
  tenantId := actor.tenantId
  email := dto.email
  status := if dto.password.isSome then .active else .invited
  authProvider := .localAccount
  externalId := none
  passwordHash := some (env.hash (d.salt 0) (dto.password.getD d.password))
  mfaEnabled := false
  mfaSecretEnc := none
  mfaRecoveryCodes := []
  lastLoginAt := none
  failedLoginCount := 0
  lockedUntil := none
  mustChangePassword := false
  roles := dto.roles.eraseDups.map fun key => ⟨key, none⟩
  deletedAt := none

/-- `create`; it answers the password that was drawn, if none was given. -/
def create (d : Draws) (actor : AuthUser) (dto : CreateUserDto) : Method (UserView × Option String) := do
  let existing ← .read fun s => s.users.first fun _ u => u.tenantId = actor.tenantId && env.sameText u.email dto.email
  if existing.isSome then throw (.conflict "A user with this email already exists")
  else do
    insertUser (d.uuid 0) (newUser env d actor dto)
    Auth.auditRecord (some actor.id) "user.created" "User" (d.uuid 0)
    pure (shape (d.uuid 0) (newUser env d actor dto), if dto.password.isSome then none else some d.password)

/-- The sessions of a user end. -/
def revokeUser (id : Uuid) : Method Unit := do
  let time ← now
  revokeTokens (fun t => t.userId = id) time

/-- `update`. -/
def update (actor : AuthUser) (id : Uuid) (dto : UpdateUserDto) : Method UserView := do
  let before ← .read fun s => findScoped actor s id
  match before with
  | none => throw (.notFound "User not found")
  | some _ =>
    if dto.status.orNull.any (· ≠ .active) ∧ id = actor.id then
      throw (.badRequest "You cannot suspend or deactivate your own account")
    else do
      let after ← updateScoped actor id dto.apply
      if dto.status.orNull.any fun status => status ≠ .active ∧ status ≠ .invited then do
        revokeUser id
        invalidate id
        Auth.auditRecord (some actor.id) "user.updated" "User" id
        pure (shape id after)
      else do
        invalidate id
        Auth.auditRecord (some actor.id) "user.updated" "User" id
        pure (shape id after)

/-- `SetRolesDto`. -/
structure SetRolesDto where
  roles : List RoleKey

/-- What `setRoles` makes of a user: the roles for single entities stay. -/
def SetRolesDto.apply (dto : SetRolesDto) (u : Account) : Account := { u with
  roles := (u.roles.filter fun r => r.entityId.isSome) ++ dto.roles.eraseDups.map fun key => ⟨key, none⟩ }

/-- `setRoles`. The transaction does not look at the tenant of the user again. -/
def setRoles (actor : AuthUser) (id : Uuid) (dto : SetRolesDto) : Method UserView := do
  let before ← .read fun s => findScoped actor s id
  match before with
  | none => throw (.notFound "User not found")
  | some _ =>
    if id = actor.id ∧ .globalAdmin ∉ dto.roles ∧ .globalAdmin ∈ actor.roles then
      throw (.badRequest "You cannot remove your own administrator role")
    else do
      updateUser id dto.apply
      invalidate id
      let after ← get actor id
      Auth.auditRecord (some actor.id) "user.roles_changed" "User" id
      pure after

/-- `resetPassword`; it answers the temporary password. -/
def resetPassword (d : Draws) (actor : AuthUser) (id : Uuid) : Method String := do
  if id = actor.id then throw (.badRequest "Use Change password for your own account")
  else do
    let user ← .read fun s => findScoped actor s id
    match user with
    | none => throw (.notFound "User not found")
    | some user =>
      if user.authProvider ≠ .localAccount then
        throw (.badRequest "This password is managed by the identity provider")
      else do
        let _ ← updateScoped actor id fun u => .ok { u with
          passwordHash := some (env.hash (d.salt 0) d.password)
          failedLoginCount := 0
          lockedUntil := none
          mustChangePassword := true }
        revokeUser id
        invalidate id
        Auth.auditRecord (some actor.id) "user.password_reset" "User" id
        pure d.password

/-- `resetMfa`. -/
def resetMfa (actor : AuthUser) (id : Uuid) : Method Unit := do
  if id = actor.id then throw (.badRequest "You cannot administratively reset your own MFA")
  else do
    let user ← .read fun s => findScoped actor s id
    match user with
    | none => throw (.notFound "User not found")
    | some user =>
      if user.authProvider ≠ .localAccount then throw (.badRequest "MFA is managed by the identity provider")
      else do
        let _ ← updateScoped actor id fun u => .ok { u with mfaEnabled := false, mfaSecretEnc := none, mfaRecoveryCodes := [] }
        revokeUser id
        invalidate id
        Auth.auditRecord (some actor.id) "user.mfa_reset" "User" id

end Service

end AuditSphere.Users
