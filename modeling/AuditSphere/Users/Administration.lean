import AuditSphere.Sessions.Requests

/-!
# The administration of users

What the calls of administrators make of the users of a tenant, and whether a tenant keeps an
administrator: `update` and `setRoles` protect an administrator from themselves only, so it
takes another administrator, or somebody else with the permission to manage users, to remove
one.
-/

namespace AuditSphere.Users

open Prisma Theory Shared Auth

/-- A call of somebody who may manage users. -/
inductive UserCall where
  | create (d : Draws) (actor : AuthUser) (dto : CreateUserDto)
  | update (actor : AuthUser) (id : Uuid) (dto : UpdateUserDto)
  | setRoles (actor : AuthUser) (id : Uuid) (dto : SetRolesDto)

/-- Who makes the call. -/
def UserCall.actor : UserCall → AuthUser
  | .create _ actor _ | .update actor _ _ | .setRoles actor _ _ => actor

/-- The user whom the call is about. -/
def UserCall.target : UserCall → Uuid
  | .create d _ _ => d.uuid 0
  | .update _ id _ | .setRoles _ id _ => id

section Calls

variable (env : Platform)

/-- The program of a call. -/
def administer : UserCall → Method UserView
  | .create d actor dto => Prod.fst <$> create env d actor dto
  | .update actor id dto => update actor id dto
  | .setRoles actor id dto => setRoles actor id dto

/-- What an accepted call makes of the users. -/
def Done (s : Store) (users : Table Uuid Account) : UserCall → Prop
  | .create d actor dto => s.users.insert (d.uuid 0) (newUser env d actor dto) = some users
  | .update actor id dto => ∃ u u', findScoped actor s id = some u ∧
    ¬(dto.status.orNull.any (· ≠ .active) ∧ id = actor.id) ∧ dto.apply u = .ok u' ∧
    users = s.users.modify (fun j _ => j = id) fun _ => u'
  | .setRoles actor id dto => ∃ u, findScoped actor s id = some u ∧
    ¬(id = actor.id ∧ .globalAdmin ∉ dto.roles ∧ .globalAdmin ∈ actor.roles) ∧
    users = s.users.modify (fun j _ => j = id) dto.apply

/-- A call is accepted and does what it says, or it leaves the users. -/
def Settles (s : Store) (c : UserCall) (r : Except AuthError UserView × Store) : Prop :=
  ((∃ v, r.1 = .ok v) ∧ Done env s r.2.users c) ∨ ((∃ e, r.1 = .error e) ∧ r.2.users = s.users)

variable {env}

/-- A user of the tenant who is found is there. -/
theorem find_of_findScoped {actor : AuthUser} {s : Store} {id : Uuid} {u : Account} (h : findScoped actor s id = some u) :
    s.users.find id = some u ∧ u.deletedAt.isNone = true ∧ u.tenantId = actor.tenantId := by
  obtain ⟨hfind, htenant⟩ := Option.filter_eq_some_iff.mp h
  obtain ⟨hu, hdeleted⟩ := Option.filter_eq_some_iff.mp hfind
  exact ⟨hu, hdeleted, of_decide_eq_true htenant⟩

theorem settles_create (d : Draws) (actor : AuthUser) (dto : CreateUserDto) (s : Store) :
    Settles env s (.create d actor dto) ((administer env (.create d actor dto)).run s) := by
  rw [administer, ← bind_pure_comp, Prog.run_bind, create, Prog.run_bind, Prog.run_read]
  by_cases hmail : (s.users.first fun _ u => u.tenantId = actor.tenantId && env.sameText u.email dto.email).isSome
  · simp only [hmail, if_true]
    exact .inr ⟨⟨_, rfl⟩, rfl⟩
  simp only [hmail, Bool.false_eq_true, if_false]
  rw [Prog.run_bind, insertUser, Prog.run_call]
  by_cases htaken : (s.users.first fun _ r => r.tenantId = (newUser env d actor dto).tenantId &&
      r.email = (newUser env d actor dto).email).isSome
  · rw [if_pos htaken]
    exact .inr ⟨⟨_, rfl⟩, rfl⟩
  rw [if_neg htaken]
  cases hinsert : s.users.insert (d.uuid 0) (newUser env d actor dto) with
  | none => exact .inr ⟨⟨_, rfl⟩, rfl⟩
  | some users => exact .inl ⟨⟨_, rfl⟩, hinsert⟩

theorem settles_update (actor : AuthUser) (id : Uuid) (dto : UpdateUserDto) (s : Store) :
    Settles env s (.update actor id dto) ((administer env (.update actor id dto)).run s) := by
  rw [administer, update, Prog.run_bind, Prog.run_read]
  cases hbefore : findScoped actor s id with
  | none => exact .inr ⟨⟨_, rfl⟩, rfl⟩
  | some user =>
    obtain ⟨hu, -, htenant⟩ := find_of_findScoped hbefore
    dsimp only
    rw [Prog.run_ite]
    by_cases hself : dto.status.orNull.any (· ≠ .active) ∧ id = actor.id
    · rw [if_pos hself]
      exact .inr ⟨⟨_, rfl⟩, rfl⟩
    rw [if_neg hself, Prog.run_bind, updateScoped, Prog.run_call, hu, Option.filter_some, if_pos (decide_eq_true htenant)]
    cases hf : dto.apply user with
    | error e =>
      simp only [hf]
      exact .inr ⟨⟨e, rfl⟩, rfl⟩
    | ok after =>
      simp only [hf]
      rw [Prog.run_ite]
      split <;> exact .inl ⟨⟨_, rfl⟩, user, after, hbefore, hself, hf, rfl⟩

theorem settles_setRoles (actor : AuthUser) (id : Uuid) (dto : SetRolesDto) (s : Store) :
    Settles env s (.setRoles actor id dto) ((administer env (.setRoles actor id dto)).run s) := by
  rw [administer, setRoles, Prog.run_bind, Prog.run_read]
  cases hbefore : findScoped actor s id with
  | none => exact .inr ⟨⟨_, rfl⟩, rfl⟩
  | some user =>
    obtain ⟨hu, hdeleted, htenant⟩ := find_of_findScoped hbefore
    dsimp only
    rw [Prog.run_ite]
    by_cases hself : id = actor.id ∧ .globalAdmin ∉ dto.roles ∧ .globalAdmin ∈ actor.roles
    · rw [if_pos hself]
      exact .inr ⟨⟨_, rfl⟩, rfl⟩
    -- the user is found again after the update
    have hafter : findScoped actor { s with
        users := s.users.modify (fun j _ => j = id) dto.apply, cache := Function.update s.cache id none } id =
        some (dto.apply user) := by
      rw [findScoped, Store.findUser, Table.find_modify, hu]
      simp [SetRolesDto.apply, hdeleted, htenant]
    rw [if_neg hself, Prog.run_bind, Auth.updateUser, Prog.run_call, hu]
    simp only [Option.isNone_some, Bool.false_eq_true, if_false]
    rw [Prog.run_bind, invalidate, Prog.run_write]
    dsimp only
    rw [Prog.run_bind, get, Prog.run_bind, Prog.run_read, hafter]
    exact .inl ⟨⟨_, rfl⟩, user, hbefore, hself, rfl⟩

/-- **Every call** is accepted and does what it says, or it leaves the users. -/
theorem administer_settles (env : Platform) (s : Store) (c : UserCall) : Settles env s c ((administer env c).run s) := by
  cases c with
  | create d actor dto => exact settles_create d actor dto s
  | update actor id dto => exact settles_update actor id dto s
  | setRoles actor id dto => exact settles_setRoles actor id dto s

/-- The users after a call: those that it says, or those before it. -/
theorem users_after (env : Platform) (s : Store) (c : UserCall) :
    Done env s (after (administer env) s c).users c ∨ (after (administer env) s c).users = s.users :=
  (administer_settles env s c).imp And.right And.right

/-- Another user is still the same after a call. -/
theorem Done.find_ne {s : Store} {users : Table Uuid Account} {c : UserCall} (h : Done env s users c) {id : Uuid}
    (hid : id ≠ c.target) : users.find id = s.users.find id := by
  cases c with
  | create d actor dto =>
    rw [(Table.find_of_insert h).2]
    exact if_neg hid
  | update actor j dto =>
    obtain ⟨u, u', -, -, -, rfl⟩ := h
    rw [Table.find_modify]
    cases s.users.find id <;> simp [show id ≠ j from hid]
  | setRoles actor j dto =>
    obtain ⟨u, -, -, rfl⟩ := h
    rw [Table.find_modify]
    cases s.users.find id <;> simp [show id ≠ j from hid]

/-- What an update leaves of a user. -/
theorem apply_keeps {dto : UpdateUserDto} {u u' : Account} (h : dto.apply u = .ok u') :
    u'.tenantId = u.tenantId ∧ u'.roles = u.roles ∧ (u.deletedAt = none → u'.deletedAt = none) ∧
      (dto.status.orNull.any (· ≠ .active) = false → u.status = .active → u'.status = .active) := by
  rw [UpdateUserDto.apply] at h
  split at h
  · rename_i displayName weeklyCapacity status hname hcapacity hstatus
    cases h
    refine ⟨rfl, rfl, fun hdeleted => ?_, fun hkept hactive => ?_⟩
    · dsimp only
      rw [hdeleted, ite_self]
    · rcases hdto : dto.status with _ | _ | new <;> rw [hdto] at hstatus hkept
      · exact (Option.some.inj hstatus).symm.trans hactive
      · cases hstatus
      · cases hstatus
        simpa [Field.orNull] using hkept
  · cases h

/-! ### The last administrator -/

/-- The user is an administrator of the tenant, and active. -/
def Administers (s : Store) (tenantId id : Uuid) : Prop :=
  ∃ u, s.users.find id = some u ∧ u.deletedAt = none ∧ u.tenantId = tenantId ∧ u.status = .active ∧
    ∃ r ∈ u.roles, r.key = .globalAdmin

/-- The call takes from its target what makes an administrator. -/
def UserCall.removes : UserCall → Bool
  | .create .. => false
  | .update _ _ dto => dto.status.orNull.any (· ≠ .active)
  | .setRoles _ _ dto => .globalAdmin ∉ dto.roles

/-- Who removes an administrator of the tenant is another one, and acts as one. -/
def Peered (tenantId : Uuid) (s : Store) (c : UserCall) : Prop :=
  c.removes = true → Administers s tenantId c.target →
    Administers s tenantId c.actor.id ∧ .globalAdmin ∈ c.actor.roles

/-- A call that removes an administrator who acts as one is not about themselves. -/
theorem Done.not_self {s : Store} {users : Table Uuid Account} {c : UserCall} (h : Done env s users c)
    (hremoves : c.removes = true) (hadmin : .globalAdmin ∈ c.actor.roles) : c.actor.id ≠ c.target := by
  cases c with
  | create d actor dto => cases hremoves
  | update actor id dto =>
    obtain ⟨u, u', -, hself, -, -⟩ := h
    exact fun heq => hself ⟨hremoves, heq.symm⟩
  | setRoles actor id dto =>
    obtain ⟨u, -, hself, -⟩ := h
    exact fun heq => hself ⟨heq.symm, of_decide_eq_true hremoves, hadmin⟩

/-- The target of a call that removes nothing is still an administrator. -/
theorem Done.still_administers {s s' : Store} {c : UserCall} {tenantId : Uuid} (h : Done env s s'.users c)
    (hkeeps : c.removes = false) (htarget : Administers s tenantId c.target) : Administers s' tenantId c.target := by
  obtain ⟨u, hu, hdeleted, htenant, hstatus, r, hr, hkey⟩ := htarget
  cases c with
  | create d actor dto =>
    have hnone := (Table.find_of_insert h).1
    rw [show UserCall.target _ = d.uuid 0 from rfl, hnone] at hu
    cases hu
  | update actor id dto =>
    obtain ⟨u₁, u', hfound, -, hf, husers⟩ := h
    have heq := (find_of_findScoped hfound).1.symm.trans hu
    cases heq
    obtain ⟨htenant', hroles, hdeleted', hstatus'⟩ := apply_keeps hf
    refine ⟨u', ?_, hdeleted' hdeleted, htenant'.trans htenant, hstatus' hkeeps hstatus, r, hroles ▸ hr, hkey⟩
    rw [husers]
    exact (Table.find_modify_self ..).trans (congrArg _ hu)
  | setRoles actor id dto =>
    obtain ⟨u₁, -, -, husers⟩ := h
    have hlisted : .globalAdmin ∈ dto.roles := by simpa [UserCall.removes] using hkeeps
    refine ⟨dto.apply u, ?_, hdeleted, htenant, hstatus, ⟨.globalAdmin, none⟩, ?_, rfl⟩
    · rw [husers]
      exact (Table.find_modify_self ..).trans (congrArg _ hu)
    · simp [SetRolesDto.apply, hlisted]

/-- Others stay administrators. -/
theorem Done.others_administer {s s' : Store} {c : UserCall} {tenantId id : Uuid} (h : Done env s s'.users c)
    (hid : id ≠ c.target) (hadmin : Administers s tenantId id) : Administers s' tenantId id := by
  rwa [Administers, h.find_ne hid]

end Calls

section Examples

open Sessions (platform team person draw)

/-- A second administrator of the team. -/
def deputy : AuthUser := buildAuthUser .off team 300 (person "deputy" .globalAdmin)

/-- The administrator of the team, as requests know the user. -/
def principal : AuthUser := buildAuthUser .off team 1 (person "admin" .globalAdmin)

/-- The audit executive of the team, who may manage users. -/
def executive : AuthUser := buildAuthUser .off team 2 (person "cae" .chiefAuditExecutive)

/-- The administrator makes a deputy and is suspended by the deputy. -/
def succession : List UserCall :=
  [.update deputy 1 { status := some (some .suspended) },
   .create (draw 3 "") principal
    { email := "deputy", displayName := "deputy", roles := [.globalAdmin], password := some "password" }]

theorem administers_of_find {s : Store} {tenantId id : Uuid} (h : (s.users.find id).any (fun u => u.deletedAt.isNone &&
    u.tenantId = tenantId && u.status = .active && u.roles.any fun r => r.key = .globalAdmin) = true) :
    Administers s tenantId id := by
  obtain ⟨u, hu, h⟩ := (Option.any_eq_true ..).mp h
  simp only [Bool.and_eq_true, decide_eq_true_eq, List.any_eq_true, Option.isNone_iff_eq_none] at h
  exact ⟨u, hu, h.1.1.1, h.1.1.2, h.1.2, h.2⟩

end Examples

end AuditSphere.Users
