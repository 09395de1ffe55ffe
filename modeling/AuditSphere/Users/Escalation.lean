import AuditSphere.Users.Administration

/-!
# Permissions that administration hands on

Whoever may manage users may assign every role, to themselves too; the services do not
compare the permissions of a role with those of the actor. So what a call hands on is bounded
by the roles that it lists, and a group of users gains nothing as long as the roles listed for
its members have only permissions that the group has.
-/

namespace AuditSphere.Users

open Prisma Theory Shared Auth

/-- The user has the permission, by its roles. -/
def Holds (s : Store) (id : Uuid) (p : PermissionKey) : Prop :=
  ∃ u, s.users.find id = some u ∧ p ∈ permissionsForRoles (u.roles.map UserRole.key)

/-- The roles that a call lists. -/
def UserCall.roles : UserCall → List RoleKey
  | .create _ _ dto => dto.roles
  | .update .. => []
  | .setRoles _ _ dto => dto.roles

/-- The permission is one of the actor, or the target has it already. -/
def Covered (s : Store) (c : UserCall) (p : PermissionKey) : Prop :=
  p ∈ permissionsForRoles c.actor.roles ∨ Holds s c.target p

section Escalation

variable {env : Platform}

/-- The permissions of a user. -/
def permissionsOf (u : Account) : List PermissionKey := permissionsForRoles (u.roles.map UserRole.key)

/-- What roles give that are assigned for the whole tenant. -/
theorem mem_permissions_assigned {roles : List RoleKey} {p : PermissionKey} :
    p ∈ permissionsForRoles ((roles.eraseDups.map fun key => (⟨key, none⟩ : UserRole)).map UserRole.key) ↔
      p ∈ permissionsForRoles roles := by
  simp only [mem_permissionsForRoles, List.map_map, List.mem_map, List.mem_eraseDups, Function.comp_def, exists_eq_right]

theorem mem_permissions_apply {dto : SetRolesDto} {u : Account} {p : PermissionKey} :
    (p ∈ permissionsForRoles dto.roles → p ∈ permissionsOf (dto.apply u)) ∧
      (p ∈ permissionsOf (dto.apply u) → p ∈ permissionsForRoles dto.roles ∨ p ∈ permissionsOf u) := by
  have hsplit : p ∈ permissionsOf (dto.apply u) ↔
      p ∈ permissionsForRoles ((u.roles.filter fun r => r.entityId.isSome).map UserRole.key) ∨
        p ∈ permissionsForRoles dto.roles := by
    rw [permissionsOf, SetRolesDto.apply, List.map_append, permissionsForRoles, List.flatMap_append, List.mem_append]
    exact or_congr_right mem_permissions_assigned
  rw [hsplit]
  refine ⟨.inr, fun h => h.symm.imp_right fun hp => ?_⟩
  obtain ⟨key, hkey, hp⟩ := mem_permissionsForRoles.mp hp
  obtain ⟨r, hr, rfl⟩ := List.mem_map.mp hkey
  exact mem_permissionsForRoles.mpr ⟨r.key, List.mem_map_of_mem (List.mem_filter.mp hr).1, hp⟩

/-- After a call its target has the permissions of the listed roles, and no others but those from before. -/
theorem Done.target_permissions {s : Store} {users : Table Uuid Account} {c : UserCall} (h : Done env s users c) :
    ∃ u', users.find c.target = some u' ∧ ∀ p, (p ∈ permissionsForRoles c.roles → p ∈ permissionsOf u') ∧
      (p ∈ permissionsOf u' → p ∈ permissionsForRoles c.roles ∨ Holds s c.target p) := by
  cases c with
  | create d actor dto =>
    refine ⟨newUser env d actor dto, ?_, fun p => ⟨mem_permissions_assigned.mpr, fun h => .inl ?_⟩⟩
    · rw [(Table.find_of_insert h).2]
      exact if_pos rfl
    · exact mem_permissions_assigned.mp h
  | update actor id dto =>
    obtain ⟨u, u', hfound, -, hf, rfl⟩ := h
    obtain ⟨hu, -, -⟩ := find_of_findScoped hfound
    have hroles := (apply_keeps hf).2.1
    refine ⟨u', ?_, fun p => ⟨fun hp => absurd hp List.not_mem_nil, fun hp => .inr ⟨u, hu, ?_⟩⟩⟩
    · exact (Table.find_modify_self ..).trans (congrArg _ hu)
    · rwa [permissionsOf, hroles] at hp
  | setRoles actor id dto =>
    obtain ⟨u, hfound, -, rfl⟩ := h
    obtain ⟨hu, -, -⟩ := find_of_findScoped hfound
    refine ⟨dto.apply u, ?_, fun p => ⟨mem_permissions_apply.1, fun hp => ?_⟩⟩
    · exact (Table.find_modify_self ..).trans (congrArg _ hu)
    · exact (mem_permissions_apply.2 hp).imp_right fun hp => ⟨u, hu, hp⟩

/-- What an accepted call hands on is the actor's, or the target had it, exactly if that is so of the listed roles. -/
theorem Done.covered_iff {s s' : Store} {c : UserCall} (h : Done env s s'.users c) :
    (∀ p, Holds s' c.target p → Covered s c p) ↔ ∀ p ∈ permissionsForRoles c.roles, Covered s c p := by
  obtain ⟨u', hu', hp⟩ := h.target_permissions
  constructor
  · exact fun hcovered p hlisted => hcovered p ⟨u', hu', (hp p).1 hlisted⟩
  · rintro hlisted p ⟨u, hu, hheld⟩
    rw [hu', Option.some.injEq] at hu
    subst hu
    exact ((hp p).2 hheld).elim (hlisted p) .inr

/-- The permissions of others are the same after a call. -/
theorem Done.holds_ne {s s' : Store} {c : UserCall} (h : Done env s s'.users c) {id : Uuid} (hid : id ≠ c.target)
    (p : PermissionKey) : Holds s' id p ↔ Holds s id p := by
  rw [Holds, Holds, h.find_ne hid]

/-- The roles that a call lists for a member of the group give what some member has. -/
def WithinGroup (group : Set Uuid) (s : Store) (c : UserCall) : Prop :=
  c.target ∈ group → ∀ p ∈ permissionsForRoles c.roles, ∃ a ∈ group, Holds s a p

/-- **A group gains nothing** by calls that stay within it. -/
theorem group_gains_nothing {group : Set Uuid} {s₀ : Store} {past : List UserCall}
    (hwithin : Always (administer env) (WithinGroup group) s₀ past) :
    ∀ a ∈ group, ∀ p, Holds (history (administer env) s₀ past) a p → ∃ b ∈ group, Holds s₀ b p := by
  refine always_of_step (I := fun _ s => ∀ a ∈ group, ∀ p, Holds s a p → ∃ b ∈ group, Holds s₀ b p)
    (fun a ha p hp => ⟨a, ha, hp⟩) ?_ past hwithin
  intro past s c ih hcall _ a ha p hp
  rcases users_after env s c with hdone | hsame
  · by_cases hat : a = c.target
    · subst hat
      obtain ⟨u', hu', hrow⟩ := hdone.target_permissions
      obtain ⟨u, hu, hheld⟩ := hp
      rw [hu', Option.some.injEq] at hu
      subst hu
      rcases (hrow p).2 hheld with hlisted | hbefore
      · obtain ⟨b, hb, hp⟩ := hcall ha p hlisted
        exact ih b hb p hp
      · exact ih c.target ha p hbefore
    · exact ih a ha p ((hdone.holds_ne hat p).mp hp)
  · rw [Holds, hsame] at hp
    exact ih a ha p hp

end Escalation

section Examples

open Sessions (platform team person draw)

/-- The executive makes the administrator of the team an auditor. -/
def reassignment : UserCall := .setRoles executive 1 ⟨[.seniorAuditor]⟩

end Examples

end AuditSphere.Users
