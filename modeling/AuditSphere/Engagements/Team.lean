import AuditSphere.Documents.Restricted
import AuditSphere.Engagements.Lifecycle
import AuditSphere.Engagements.Requests

/-!
# The team of an engagement

`addMember` and `removeMember`, and what they keep together with `create` and `update`: the users
who are named as lead, manager or partner of an engagement are members of it, and no user is a member
twice (`Staffed`). An update writes the names first and adds the members after that; in between some
of them are owed (`Owing`), but none of the calls that follow can fail.

The role and the planned hours of a member are checked and answered; they are not kept, as nothing
that is modelled here reads them.
-/

namespace AuditSphere.Engagements.Team

open Prisma Theory Shared

/-! ### Members -/

/-- What a member does. -/
inductive EngagementRole where
  | partner | manager | lead | senior | junior | reviewer | specialist | observer
  deriving DecidableEq

/-- The name of the role in lower case. -/
def EngagementRole.text : EngagementRole → String
  | .partner => "partner"
  | .manager => "manager"
  | .lead => "lead"
  | .senior => "senior"
  | .junior => "junior"
  | .reviewer => "reviewer"
  | .specialist => "specialist"
  | .observer => "observer"

/-- `AddMemberDto`. -/
structure AddMemberDto where
  userId : Uuid
  role : EngagementRole
  plannedHours : Field ℚ := none

/-- A member, with the user. -/
structure Member where
  engagementId : Uuid
  role : EngagementRole
  plannedHours : Option ℚ
  user : WithId User

/-- The hours fit a column of eight digits, two of them decimals. -/
def AddMemberDto.fits (dto : AddMemberDto) : Bool := dto.plannedHours.orNull.all fun h => h * 100 + 1 / 2 < 100000000

/-- The users who lead, manage and are the partner of an engagement. -/
def keyRoles (e : Engagement) : List Uuid := e.leadId.toList ++ e.managerId.toList ++ e.partnerId.toList

/-- The new member is told, unless it is the user who makes the request. -/
def tellMember (ctx : Ctx) (id : Uuid) (dto : AddMemberDto) : Service Unit :=
  if dto.userId = ctx.userId then pure ()
  else do
    let e ← assertEngagement ctx id
    notify ctx (some dto.userId) {
      type := "engagement.assigned"
      title := s!"You were added to {e.auditNumber} {e.title} as {dto.role.text}"
      link := s!"/engagements/{id}" }

/-- `addMember`. -/
def addMember (ctx : Ctx) (id : Uuid) (dto : AddMemberDto) : Service Member := do
  let _ ← assertEngagement ctx id
  let user ← .read fun db => ctx.findById db.users dto.userId fun u => u.deletedAt.isNone
  match user with
  | none => throw (.badRequest "User not found")
  | some user =>
    if !dto.fits then throw (.internal "numeric field overflow")
    else do
      upsertMember ctx id dto.userId
      auditRecord ctx "engagement.member_added" "Engagement" id
      tellMember ctx id dto
      pure ⟨id, dto.role, dto.plannedHours.orNull, (dto.userId, user)⟩

/-- `engagementMember.deleteMany`: how many there were. -/
def deleteMember (ctx : Ctx) (id userId : Uuid) : Service ℕ :=
  .call fun db => .ok
    ((ctx.findById db.engagements id fun _ => true).elim 0 fun e => (e.members.filter (· = userId)).length,
      { db with engagements := db.engagements.modify (fun j e => ctx.sees e && j = id) fun e =>
        { e with members := e.members.filter (· ≠ userId) } })

/-- `removeMember`. -/
def removeMember (ctx : Ctx) (id userId : Uuid) : Service Unit := do
  let engagement ← assertEngagement ctx id
  if userId ∈ keyRoles engagement then
    throw (.badRequest "Reassign the lead/manager/partner before removing them from the team")
  else do
    let count ← deleteMember ctx id userId
    if count = 0 then throw (.notFound "Member not found")
    else auditRecord ctx "engagement.member_removed" "Engagement" id

/-! ### Requests -/

/-- A request that concerns the team of an engagement, with its user. -/
inductive Request where
  | create (ctx : Ctx) (dto : CreateEngagementDto)
  | update (ctx : Ctx) (id : Uuid) (dto : UpdateEngagementDto)
  | addMember (ctx : Ctx) (id : Uuid) (dto : AddMemberDto)
  | removeMember (ctx : Ctx) (id userId : Uuid)

/-- What a request answers. -/
inductive Response where
  | created (e : WithId Engagement)
  | updated (e : EngagementView)
  | member (m : Member)
  | removed

/-- The user who makes the request. -/
def Request.ctx : Request → Ctx
  | .create ctx .. | .update ctx .. | .addMember ctx .. | .removeMember ctx .. => ctx

/-- The permission that the route asks for. -/
def Request.permission : Request → PermissionKey
  | .create .. => .engagementCreate
  | .update .. | .addMember .. | .removeMember .. => .engagementManage

/-- The controller: the user must hold the permission of the route. -/
def serve (r : Request) : Service Response :=
  if !r.ctx.hasPermission r.permission then throw (.forbidden s!"Missing permission: {r.permission.key}")
  else match r with
    | .create ctx dto => do return .created (← create ctx dto)
    | .update ctx id dto => do return .updated (← update ctx id dto)
    | .addMember ctx id dto => do return .member (← addMember ctx id dto)
    | .removeMember ctx id userId => do
      let _ ← removeMember ctx id userId
      return .removed

/-! ### What a team is -/

/-- The users who are named are members, but for some who are owed to an engagement, and no user is one twice. -/
def Owing (id : Uuid) (owed : List Uuid) (db : Db) : Prop :=
  ∀ i e, db.engagements.find i = some e →
    e.members.Nodup ∧ ∀ u ∈ keyRoles e, u ∈ e.members ∨ i = id ∧ u ∈ owed

/-- The lead, the manager and the partner of an engagement are members of it, and no user is a member twice. -/
def Staffed (db : Db) : Prop :=
  ∀ id e, db.engagements.find id = some e →
    ((∀ u, e.leadId = some u → u ∈ e.members) ∧ (∀ u, e.managerId = some u → u ∈ e.members) ∧
      ∀ u, e.partnerId = some u → u ∈ e.members) ∧ e.members.Nodup

theorem mem_keyRoles {e : Engagement} {u : Uuid} :
    u ∈ keyRoles e ↔ e.leadId = some u ∨ e.managerId = some u ∨ e.partnerId = some u := by
  simp [keyRoles]

theorem staffed_iff {db : Db} (id : Uuid) : Staffed db ↔ Owing id [] db := by
  refine forall_congr' fun i => forall_congr' fun e => imp_congr_right fun _ => ?_
  simp only [mem_keyRoles, List.not_mem_nil, and_false, or_false]
  constructor
  · rintro ⟨⟨hlead, hmanager, hpartner⟩, hnodup⟩
    refine ⟨hnodup, fun u hu => ?_⟩
    rcases hu with h | h | h
    · exact hlead u h
    · exact hmanager u h
    · exact hpartner u h
  · rintro ⟨hnodup, h⟩
    exact ⟨⟨fun u hu => h u (.inl hu), fun u hu => h u (.inr (.inl hu)), fun u hu => h u (.inr (.inr hu))⟩, hnodup⟩

theorem Owing.of_same {id : Uuid} {owed : List Uuid} {db db' : Db} (h : Owing id owed db)
    (hsame : db'.engagements = db.engagements) : Owing id owed db' := by
  unfold Owing
  rw [hsame]
  exact h

theorem Owing.quiet {id : Uuid} {owed : List Uuid} {db db' : Db} (h : Owing id owed db) (hquiet : Quiet db db') :
    Owing id owed db' := by
  obtain ⟨auditTrail, notifications, rfl⟩ := hquiet.eq
  exact h.of_same rfl

theorem Staffed.quiet {db db' : Db} (h : Staffed db) (hquiet : Quiet db db') : Staffed db' :=
  (staffed_iff 0).mpr (((staffed_iff 0).mp h).quiet hquiet)

/-! ### Creation -/

/-- The lead, the manager if that is another user, and the partner if that is yet another one. -/
theorem members_eq (dto : CreateEngagementDto) :
    dto.members = dto.leadId.orNull.toList ++
      (dto.managerId.orNull.filter fun m => dto.leadId.orNull ≠ some m).toList ++
      (dto.partnerId.orNull.filter fun p => dto.leadId.orNull ≠ some p && dto.managerId.orNull ≠ some p).toList := by
  unfold CreateEngagementDto.members
  rcases dto.leadId.orNull with _ | l <;> rcases dto.managerId.orNull with _ | m <;>
    rcases dto.partnerId.orNull with _ | p <;> simp [List.eraseDups_cons, Option.filter]
  all_goals grind

theorem members_nodup (dto : CreateEngagementDto) : dto.members.Nodup := by
  rw [members_eq]
  rcases dto.leadId.orNull with _ | l <;> rcases dto.managerId.orNull with _ | m <;>
    rcases dto.partnerId.orNull with _ | p <;> simp [Option.filter]
  all_goals grind

theorem newEngagement_keyRoles (ctx : Ctx) (dto : CreateEngagementDto) (auditNumber : String) :
    ∀ u ∈ keyRoles (newEngagement ctx dto auditNumber), u ∈ (newEngagement ctx dto auditNumber).members := by
  intro u hu
  exact List.mem_eraseDups.mpr hu

/-- A new engagement has its team from the start. -/
theorem insertNumbered_staffed (ctx : Ctx) (dto : CreateEngagementDto) (year left : ℕ) {s : Db} (h : Staffed s) :
    Staffed ((insertNumbered ctx dto year left).run s).2 := by
  induction left generalizing s with
  | zero => exact h
  | succ left ih =>
    rw [insertNumbered, Prog.run_bind_of_ok (Prog.run_read _ s)]
    split
    · exact h
    rename_i auditNumber _
    rw [Prog.run_catching]
    split
    · rename_i hrun
      obtain ⟨-, -, -, hrows, -⟩ := insertEngagement_ok hrun
      refine (staffed_iff 0).mpr fun i e he => ?_
      rw [hrows] at he
      split at he
      · cases he
        exact ⟨members_nodup dto, fun u hu => .inl (newEngagement_keyRoles ctx dto auditNumber u hu)⟩
      · exact (staffed_iff 0).mp h i e he
    · rename_i hrun
      have hsame := Prog.atomic_call _ _ _ _ hrun
      subst hsame
      rw [Prog.run_ite]
      split
      · exact ih h
      · exact h

theorem create_staffed (ctx : Ctx) (dto : CreateEngagementDto) {s : Db} (h : Staffed s) :
    Staffed ((create ctx dto).run s).2 := by
  have hentity : (assertEntity ctx dto.entityId).ReadOnly := by
    unfold assertEntity assertRelated
    split
    · exact Prog.readOnly_pure _
    · exact (Prog.readOnly_read _).bind fun _ => .ite (Prog.readOnly_throw _) (Prog.readOnly_pure _)
  have hquiet : ∀ created : WithId Engagement, (auditRecord ctx "engagement.created" "Engagement" created.1 >>= fun _ =>
      notifyMany ctx ([dto.leadId.orNull, dto.managerId.orNull, dto.partnerId.orNull].filter
          fun u => u.isSome && u ≠ some ctx.userId) {
        type := "engagement.assigned"
        title := s!"You were added to {created.2.auditNumber} {created.2.title}"
        link := s!"/engagements/{created.1}" } >>= fun _ => (pure created : Service _)).Within Quiet :=
    fun created => (auditRecord_quiet ctx _ _ _).bind fun _ => (notifyMany_quiet ctx _ _).bind fun _ =>
      Prog.within_pure _
  have hsame : ∀ r s₁, (assertEntity ctx dto.entityId).run s = (r, s₁) → s₁ = s := fun r s₁ hrun => by
    have := hentity s
    rwa [hrun] at this
  refine Prog.run_bind_state (fun e s₁ hrun => hsame _ s₁ hrun ▸ h) fun _ s₁ hrun => ?_
  rw [hsame _ s₁ hrun]
  have hinserted := insertNumbered_staffed ctx dto (dto.year ctx.now) 5 h
  refine Prog.run_bind_state (fun e s₂ hrun => ?_) fun created s₂ hrun => ?_
  · rwa [hrun] at hinserted
  · rw [hrun] at hinserted
    obtain ⟨a, s₃, hrun, hs₃⟩ := (hquiet created).run Quiet.refl (fun _ _ _ => Quiet.trans) s₂
    exact (congrArg Prod.snd hrun).symm ▸ hinserted.quiet hs₃

/-! ### Editing -/

/-- The user who is named for a role anew. -/
def newly (userId : Field Uuid) (before : Option Uuid) : List Uuid :=
  (userId.orNull.filter fun u => before ≠ some u).toList

/-- The engagement is there, one of the tenant. -/
def Ready (ctx : Ctx) (id : Uuid) (db : Db) : Prop := ∃ e, db.engagements.find id = some e ∧ ctx.sees e = true

theorem mem_newly {userId : Field Uuid} {before : Option Uuid} {u : Uuid} (h : userId.onNullable before = some u) :
    before = some u ∨ u ∈ newly userId before := by
  rcases userId with _ | _ | v
  · exact .inl h
  · cases h
  · rw [Field.onNullable_some, Option.some.injEq] at h
    subst h
    by_cases hb : before = some v
    · exact .inl hb
    · exact .inr (by simp [newly, Field.orNull, hb])

theorem Ready.quiet {ctx : Ctx} {id : Uuid} {db db' : Db} (h : Ready ctx id db) (hquiet : Quiet db db') :
    Ready ctx id db' := by
  obtain ⟨auditTrail, notifications, rfl⟩ := hquiet.eq
  exact h

/-- The row with one more member, unless that is one already. -/
def joined (u : Uuid) (e : Engagement) : Engagement :=
  if u ∈ e.members then e else { e with members := e.members ++ [u] }

theorem joined_keyRoles (u : Uuid) (e : Engagement) : keyRoles (joined u e) = keyRoles e := by
  unfold joined
  split <;> rfl

theorem mem_joined {u v : Uuid} {e : Engagement} : v ∈ (joined u e).members ↔ v ∈ e.members ∨ v = u := by
  unfold joined
  split
  · rename_i hu
    constructor
    · exact .inl
    · rintro (hv | rfl)
      · exact hv
      · exact hu
  · simp

theorem joined_nodup {u : Uuid} {e : Engagement} (h : e.members.Nodup) : (joined u e).members.Nodup := by
  unfold joined
  split
  · exact h
  · rename_i hu
    exact List.nodup_append.mpr ⟨h, List.nodup_singleton u, fun v hv w hw hvw => hu (by simp_all)⟩

/-- A user who exists becomes a member. -/
theorem upsertMember_run {ctx : Ctx} {id u : Uuid} {s : Db} (hready : Ready ctx id s)
    (huser : refersTo s.users (some u) = true) :
    ∃ s', (upsertMember ctx id u).run s = (.ok (), s') ∧ s'.users = s.users ∧ Ready ctx id s' ∧
      ∀ rest, Owing id (u :: rest) s → Owing id rest s' := by
  obtain ⟨e, he, hsees⟩ := hready
  have hrefers : (refersTo s.engagements (some id) && refersTo s.users (some u)) = true := by
    rw [huser, Bool.and_true]
    exact refersTo_iff.mpr fun i hi => ⟨e, by rw [← Option.some.inj hi, he]⟩
  refine ⟨{ s with engagements := s.engagements.modify (fun j e => ctx.sees e && j = id) (joined u) },
    Prog.run_call_ok.mpr (if_pos hrefers), rfl, ⟨joined u e, ?_, ?_⟩, fun rest h i e' he' => ?_⟩
  · rw [Table.find_modify, he]
    simp [hsees]
  · unfold joined
    split <;> exact hsees
  · rw [Table.find_modify] at he'
    obtain ⟨e₀, he₀, rfl⟩ := Option.map_eq_some_iff.mp he'
    obtain ⟨hnodup, hroles⟩ := h i e₀ he₀
    split
    · refine ⟨joined_nodup hnodup, fun v hv => ?_⟩
      rw [joined_keyRoles] at hv
      rw [mem_joined]
      rcases hroles v hv with hmember | ⟨hi, howed⟩
      · exact .inl (.inl hmember)
      · rcases List.mem_cons.mp howed with hvu | hrest
        · exact .inl (.inr hvu)
        · exact .inr ⟨hi, hrest⟩
    · rename_i hother
      refine ⟨hnodup, fun v hv => (hroles v hv).imp_right fun ⟨hi, howed⟩ => absurd ?_ hother⟩
      subst hi
      rw [he, Option.some.injEq] at he₀
      simp [← he₀, hsees]

/-- A user who is named anew, and exists, becomes a member. -/
theorem assign_run {ctx : Ctx} {id : Uuid} (role : String) {userId : Field Uuid} (before : Option Uuid)
    (after : Engagement) {s : Db} (hready : Ready ctx id s) (huser : refersTo s.users userId.orNull = true) :
    ∃ s', (assign ctx id role userId before after).run s = (.ok (), s') ∧ s'.users = s.users ∧ Ready ctx id s' ∧
      ∀ rest, Owing id (newly userId before ++ rest) s → Owing id rest s' := by
  unfold assign newly
  cases hnamed : userId.orNull with
  | none => exact ⟨s, rfl, rfl, hready, fun rest h => h⟩
  | some u =>
    dsimp only
    by_cases hbefore : before = some u
    · rw [if_pos hbefore]
      exact ⟨s, rfl, rfl, hready, fun rest h => by simpa [hbefore, Option.filter] using h⟩
    · rw [if_neg hbefore]
      obtain ⟨s₁, hrun, husers, hready₁, howing⟩ := upsertMember_run hready (hnamed ▸ huser)
      rw [Prog.run_bind_of_ok hrun]
      obtain ⟨_, s₂, hrun₂, hquiet⟩ := (notify_quiet ctx (if u = ctx.userId then none else some u) {
        type := "engagement.assigned"
        title := s!"You are now {role} on {after.auditNumber} {after.title}"
        link := s!"/engagements/{id}" }).run Quiet.refl (fun _ _ _ => Quiet.trans) s₁
      refine ⟨s₂, hrun₂, ?_, hready₁.quiet hquiet, fun rest h => (howing rest ?_).quiet hquiet⟩
      · obtain ⟨auditTrail, notifications, rfl⟩ := hquiet.eq
        exact husers
      · simpa [hbefore, Option.filter] using h

theorem apply_members {dto : UpdateEngagementDto} {e e' : Engagement} (h : dto.apply e = .ok e') :
    e'.members = e.members ∧ e'.tenantId = e.tenantId := by
  unfold UpdateEngagementDto.apply at h
  split at h
  · cases h
    exact ⟨rfl, rfl⟩
  · cases h

theorem constrained_users {db : Db} {id : Uuid} {e : Engagement} (h : constrained db id e = .ok ()) :
    refersTo db.users e.leadId = true ∧ refersTo db.users e.managerId = true ∧ refersTo db.users e.partnerId = true := by
  unfold constrained at h
  split at h
  · cases h
  split at h
  · rename_i hall
    simp only [Bool.and_eq_true] at hall
    exact ⟨hall.1.1.2, hall.1.2, hall.2⟩
  · cases h

theorem refersTo_named {t : Table Uuid User} {given : Field Uuid} {old : Option Uuid}
    (h : refersTo t (given.onNullable old) = true) : refersTo t given.orNull = true := by
  rcases given with _ | v
  · rfl
  · exact h

theorem assertEngagement_run (ctx : Ctx) (id : Uuid) (s : Db) :
    (∃ e, ctx.findById s.engagements id (fun e => e.deletedAt.isNone) = some e ∧
      (assertEngagement ctx id).run s = (.ok e, s)) ∨
    (assertEngagement ctx id).run s = (.error (.notFound "Engagement not found"), s) := by
  unfold assertEngagement
  rw [Prog.run_bind_of_ok (Prog.run_read _ s)]
  cases ctx.findById s.engagements id fun e => e.deletedAt.isNone with
  | none => exact .inr rfl
  | some e => exact .inl ⟨e, rfl, rfl⟩

theorem assertReport_readOnly (ctx : Ctx) (id : Uuid) (before : Engagement) (reportDocumentId : Field Uuid) :
    (assertReport ctx id before reportDocumentId).ReadOnly := by
  unfold assertReport
  split
  · exact Prog.readOnly_pure _
  · refine Prog.ReadOnly.ite (Prog.readOnly_throw _) ?_
    split
    · exact Prog.readOnly_pure _
    · refine Prog.ReadOnly.bind ?_ fun d => Prog.ReadOnly.ite (Prog.readOnly_throw _) (Prog.readOnly_pure _)
      refine Prog.ReadOnly.bind ?_ fun _ => (Prog.readOnly_read _).bind fun doc => ?_
      · exact (Documents.documentScope_readOnly ctx).bind fun scope => (Prog.readOnly_read _).bind fun found =>
          Prog.ReadOnly.ite (Prog.readOnly_throw _) (Prog.readOnly_pure _)
      · split
        · exact Prog.readOnly_throw _
        · split
          · exact Prog.readOnly_throw _
          · exact Prog.readOnly_pure _

/-- After the write of an update, those who are named anew are owed. -/
theorem updated_owing {ctx : Ctx} {id : Uuid} {dto : UpdateEngagementDto} {s s' : Db} {v : EngagementView}
    {before : Engagement} (h : Staffed s) (hbefore : s.engagements.find id = some before)
    (hrun : (updateEngagement ctx id dto.apply).run s = (.ok v, s')) :
    Ready ctx id s' ∧ refersTo s'.users dto.leadId.orNull = true ∧ refersTo s'.users dto.managerId.orNull = true ∧
      refersTo s'.users dto.partnerId.orNull = true ∧
      Owing id (newly dto.leadId before.leadId ++ (newly dto.managerId before.managerId ++
        (newly dto.partnerId before.partnerId ++ []))) s' := by
  obtain ⟨e, e', he, hsees, happly, hc, -, hrows, hrest⟩ := updateEngagement_ok hrun
  rw [hbefore, Option.some.injEq] at he
  subst he
  obtain ⟨hlead, hmanager, hpartner⟩ := apply_roles happly
  obtain ⟨hmembers, htenant⟩ := apply_members happly
  obtain ⟨hleadUser, hmanagerUser, hpartnerUser⟩ := constrained_users hc
  have husers : s'.users = s.users := by rw [hrest]
  rw [hlead] at hleadUser
  rw [hmanager] at hmanagerUser
  rw [hpartner] at hpartnerUser
  refine ⟨⟨e', by rw [hrows, if_pos rfl], ?_⟩, husers ▸ refersTo_named hleadUser, husers ▸ refersTo_named hmanagerUser,
    husers ▸ refersTo_named hpartnerUser, fun i r hr => ?_⟩
  · exact (Ctx.sees_iff_tenant rfl).mpr (htenant.trans ((Ctx.sees_iff_tenant rfl).mp hsees))
  rw [hrows] at hr
  split at hr
  · rename_i hi
    cases hr
    obtain ⟨⟨hleadMember, hmanagerMember, hpartnerMember⟩, hnodup⟩ := h id before hbefore
    refine ⟨hmembers ▸ hnodup, fun u hu => ?_⟩
    rw [hmembers, mem_keyRoles, hlead, hmanager, hpartner] at *
    simp only [hi, true_and, List.mem_append]
    rcases hu with hu | hu | hu
    · exact (mem_newly hu).imp (hleadMember u) .inl
    · exact (mem_newly hu).imp (hmanagerMember u) fun h => .inr (.inl h)
    · exact (mem_newly hu).imp (hpartnerMember u) fun h => .inr (.inr (.inl h))
  · obtain ⟨hnodup, hroles⟩ := (staffed_iff id).mp h i r hr
    refine ⟨hnodup, fun u hu => .inl ((hroles u hu).resolve_right ?_)⟩
    rintro ⟨-, hu⟩
    exact List.not_mem_nil hu

theorem Staffed.of_run {p : Service Unit} (hp : p.ReadOnly) {s s' : Db} {r : Except HttpError Unit} (h : Staffed s)
    (hrun : p.run s = (r, s')) : Staffed s' := by
  have hsame : s' = s := by
    have := hp s
    rwa [hrun] at this
  exact hsame.symm ▸ h

theorem update_staffed (ctx : Ctx) (id : Uuid) (dto : UpdateEngagementDto) {s : Db} (h : Staffed s) :
    Staffed ((update ctx id dto).run s).2 := by
  unfold update
  rcases assertEngagement_run ctx id s with ⟨before, hbefore, hrun⟩ | hrun
  swap
  · rw [Prog.run_bind_of_error hrun]
    exact h
  obtain ⟨hfind, -, -⟩ := Ctx.findById_eq_some.mp hbefore
  rw [Prog.run_bind_of_ok hrun]
  have hreport := assertReport_readOnly ctx id before dto.reportDocumentId
  refine Prog.run_bind_state (fun e s₁ hrun => h.of_run hreport hrun) fun _ s₁ hrun => ?_
  have hsame : s₁ = s := by
    have := hreport s
    rwa [hrun] at this
  rw [hsame, Prog.run_ite]
  split
  · exact h
  refine Prog.run_bind_state (fun e s₂ hrun => ?_) fun after s₂ hrun => ?_
  · rw [Prog.atomic_call _ _ _ _ hrun]
    exact h
  -- From here on nothing fails: the users who are owed become members one after the other.
  obtain ⟨hready₂, hlead, hmanager, hpartner, howing⟩ := updated_owing h hfind hrun
  obtain ⟨_, s₃, hrun₃, hquiet⟩ := (auditRecord_quiet ctx "engagement.updated" "Engagement" id).run Quiet.refl
    (fun _ _ _ => Quiet.trans) s₂
  have husers₃ : s₃.users = s₂.users := by
    obtain ⟨auditTrail, notifications, rfl⟩ := hquiet.eq
    rfl
  obtain ⟨s₄, hrun₄, husers₄, hready₄, howing₄⟩ :=
    assign_run "lead" before.leadId after.row.2 (hready₂.quiet hquiet) (husers₃ ▸ hlead)
  obtain ⟨s₅, hrun₅, husers₅, hready₅, howing₅⟩ :=
    assign_run "manager" before.managerId after.row.2 hready₄ (husers₄ ▸ husers₃ ▸ hmanager)
  obtain ⟨s₆, hrun₆, -, -, howing₆⟩ :=
    assign_run "partner" before.partnerId after.row.2 hready₅ (husers₅ ▸ husers₄ ▸ husers₃ ▸ hpartner)
  rw [Prog.run_bind_of_ok hrun₃, Prog.run_bind_of_ok hrun₄, Prog.run_bind_of_ok hrun₅, Prog.run_bind_of_ok hrun₆]
  exact (staffed_iff id).mpr (howing₆ _ (howing₅ _ (howing₄ _ (howing.quiet hquiet))))

/-! ### Members one by one -/

theorem tellMember_quiet (ctx : Ctx) (id : Uuid) (dto : AddMemberDto) (s : Db) :
    Quiet s ((tellMember ctx id dto).run s).2 := by
  unfold tellMember
  rw [Prog.run_ite]
  split
  · exact Quiet.refl s
  · rcases assertEngagement_run ctx id s with ⟨e, -, hrun⟩ | hrun
    · rw [Prog.run_bind_of_ok hrun]
      obtain ⟨_, s', hrun', hquiet⟩ := (notify_quiet ctx (some dto.userId) {
        type := "engagement.assigned"
        title := s!"You were added to {e.auditNumber} {e.title} as {dto.role.text}"
        link := s!"/engagements/{id}" }).run Quiet.refl (fun _ _ _ => Quiet.trans) s
      exact (congrArg Prod.snd hrun').symm ▸ hquiet
    · rw [Prog.run_bind_of_error hrun]
      exact Quiet.refl s

theorem addMember_staffed (ctx : Ctx) (id : Uuid) (dto : AddMemberDto) {s : Db} (h : Staffed s) :
    Staffed ((addMember ctx id dto).run s).2 := by
  unfold addMember
  rcases assertEngagement_run ctx id s with ⟨e, he, hrun⟩ | hrun
  swap
  · rw [Prog.run_bind_of_error hrun]
    exact h
  rw [Prog.run_bind_of_ok hrun, Prog.run_bind_of_ok (Prog.run_read _ s)]
  split
  · exact h
  rename_i user huser
  rw [Prog.run_ite]
  split
  · exact h
  obtain ⟨hfind, hsees, -⟩ := Ctx.findById_eq_some.mp he
  have hexists : refersTo s.users (some dto.userId) = true :=
    refersTo_iff.mpr fun i hi => ⟨user, by rw [← Option.some.inj hi]; exact (Ctx.findById_eq_some.mp huser).1⟩
  obtain ⟨s₁, hrun₁, -, -, howing⟩ := upsertMember_run ⟨e, hfind, hsees⟩ hexists
  have hstaffed : Staffed s₁ := by
    refine (staffed_iff id).mpr (howing [] fun i r hr => ?_)
    obtain ⟨hnodup, hroles⟩ := (staffed_iff id).mp h i r hr
    exact ⟨hnodup, fun u hu => (hroles u hu).imp_right fun ⟨_, hnone⟩ => absurd hnone List.not_mem_nil⟩
  obtain ⟨_, s₂, hrun₂, hquiet⟩ := (auditRecord_quiet ctx "engagement.member_added" "Engagement" id).run Quiet.refl
    (fun _ _ _ => Quiet.trans) s₁
  have hstaffed₂ := hstaffed.quiet hquiet
  have htold := tellMember_quiet ctx id dto s₂
  rw [Prog.run_bind_of_ok hrun₁, Prog.run_bind_of_ok hrun₂]
  refine Prog.run_bind_state (fun e s₃ hrun => ?_) fun _ s₃ hrun => ?_
  all_goals
    rw [hrun] at htold
    exact hstaffed₂.quiet htold

/-- A user who is not named for a role is no member any more. -/
theorem deleteMember_staffed (ctx : Ctx) {id userId : Uuid} {e : Engagement} {s : Db} (h : Staffed s)
    (he : s.engagements.find id = some e) (hrole : userId ∉ keyRoles e) :
    Staffed ((deleteMember ctx id userId).run s).2 := by
  refine (staffed_iff id).mpr fun i e' he' => ?_
  obtain ⟨e₀, he₀, rfl⟩ := Option.map_eq_some_iff.mp ((Table.find_modify _ _ _ i).symm.trans he')
  obtain ⟨hnodup, hroles⟩ := (staffed_iff id).mp h i e₀ he₀
  split
  · rename_i hi
    have hi : i = id := by
      rw [Bool.and_eq_true] at hi
      exact of_decide_eq_true hi.2
    subst hi
    rw [he, Option.some.injEq] at he₀
    subst he₀
    refine ⟨hnodup.filter _, fun u hu => (hroles u hu).imp_left fun hmember => List.mem_filter.mpr ⟨hmember, ?_⟩⟩
    exact decide_eq_true fun heq : u = userId => hrole (heq ▸ hu)
  · exact ⟨hnodup, hroles⟩

theorem removeMember_staffed (ctx : Ctx) (id userId : Uuid) {s : Db} (h : Staffed s) :
    Staffed ((removeMember ctx id userId).run s).2 := by
  unfold removeMember
  rcases assertEngagement_run ctx id s with ⟨e, he, hrun⟩ | hrun
  swap
  · rw [Prog.run_bind_of_error hrun]
    exact h
  rw [Prog.run_bind_of_ok hrun, Prog.run_ite]
  split
  · exact h
  rename_i hrole
  have hdeleted := deleteMember_staffed ctx h (Ctx.findById_eq_some.mp he).1 hrole
  refine Prog.run_bind_state (fun e s₁ hrun => ?_) fun count s₁ hrun => ?_
  · rwa [hrun] at hdeleted
  · rw [hrun] at hdeleted
    rw [Prog.run_ite]
    split
    · exact hdeleted
    · obtain ⟨_, s₂, hrun₂, hquiet⟩ := (auditRecord_quiet ctx "engagement.member_removed" "Engagement" id).run
        Quiet.refl (fun _ _ _ => Quiet.trans) s₁
      exact (congrArg Prod.snd hrun₂).symm ▸ hdeleted.quiet hquiet

/-! ### Runs -/

theorem staffed_after (s : Db) (r : Request) (h : Staffed s) : Staffed (after serve s r) := by
  unfold after serve
  rw [Prog.run_ite]
  split
  · exact h
  · cases r with
    | create ctx dto =>
      dsimp only
      rw [run_return]
      exact create_staffed ctx dto h
    | update ctx id dto =>
      dsimp only
      rw [run_return]
      exact update_staffed ctx id dto h
    | addMember ctx id dto =>
      dsimp only
      rw [run_return]
      exact addMember_staffed ctx id dto h
    | removeMember ctx id userId =>
      dsimp only
      rw [run_return]
      exact removeMember_staffed ctx id userId h

/-- An office without engagements. -/
def newOffice : Db := { Workpapers.office with engagements := .empty }

/-- Ben leads and manages an engagement; then Cleo leads it, Ann joins, and Cleo cannot be removed but Ann can. -/
def staffing : List Request :=
  [.removeMember (director 3 305) 300 1, .removeMember (director 3 304) 300 3,
    .addMember (director 3 303) 300 { userId := 1, role := .senior },
    .update (director 3 302) 300 { leadId := some (some 3) },
    .create (director 3 300)
      { title := "Payroll", type := .operational, leadId := some (some 2), managerId := some (some 2) }]

example : ((history serve newOffice staffing).engagements.find 300).map (fun e => (e.leadId, e.members)) =
    some (some 3, [2, 3]) := by
  decide +kernel

end AuditSphere.Engagements.Team
