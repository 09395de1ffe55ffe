import AuditSphere.Comments.Service
import AuditSphere.Db.Requests
import AuditSphere.Workpapers.History

/-!
# Internal comments

A comment that is internal is hidden from business users. No listing shows it to anyone outside
the audit function. But those who are mentioned in it are notified, with the beginning of its
text, whoever they are: a comment stays inside exactly if no one else is mentioned who can be
notified (`confined_iff`).
-/

namespace AuditSphere.Comments

open Prisma Theory Shared Documents

/-! ### What is sent -/

/-- What a user is sent. -/
def notification (ctx : Ctx) (input : NotifyInput) (u : Uuid) : Notification :=
  ⟨ctx.tenantId, u, input.type, input.title, input.body, input.link⟩

/-- What users are sent, those who can be notified. -/
def sent (ctx : Ctx) (db : Db) (userIds : List (Option Uuid)) (input : NotifyInput) : List Notification :=
  (userIds.filterMap fun u => u.filter (notifiable ctx db)).map (notification ctx input)

theorem mem_sent_iff {ctx : Ctx} {db : Db} {userIds : List (Option Uuid)} {input : NotifyInput} {n : Notification} :
    n ∈ sent ctx db userIds input ↔
      ∃ u, some u ∈ userIds ∧ notifiable ctx db u = true ∧ n = notification ctx input u := by
  simp only [sent, List.mem_map, List.mem_filterMap, Option.filter_eq_some_iff]
  constructor
  · rintro ⟨u, ⟨v, hv, rfl, hu⟩, rfl⟩
    exact ⟨u, hv, hu, rfl⟩
  · rintro ⟨u, hmem, hu, rfl⟩
    exact ⟨u, ⟨some u, hmem, rfl, hu⟩, rfl⟩

/-- One user after another is notified; the last comes first. -/
theorem forM_notify_run (ctx : Ctx) (input : NotifyInput) (userIds : List (Option Uuid)) (s : Db) :
    (userIds.forM fun u => notify ctx u input).run s =
      (.ok (), { s with notifications := (sent ctx s userIds input).reverse ++ s.notifications }) := by
  induction userIds generalizing s with
  | nil => rfl
  | cons u us ih =>
    refine (Prog.run_bind _ _ s).trans ?_
    cases u with
    | none => exact ih s
    | some u =>
      cases hu : notifiable ctx s u with
      | false =>
        have hrun : (notify ctx (some u) input).run s = (.ok (), s) := by simp [notify, Prog.run_bind, hu]
        rw [hrun]
        refine (ih s).trans ?_
        simp [sent, hu]
      | true =>
        have hrun : (notify ctx (some u) input).run s =
            (.ok (), { s with notifications := notification ctx input u :: s.notifications }) := by
          simp [notify, Prog.run_bind, hu, notification]
        rw [hrun]
        have hsent : sent ctx s (some u :: us) input = notification ctx input u :: sent ctx s us input := by
          simp [sent, Option.filter_some, hu]
        rw [hsent, List.reverse_cons, List.append_assoc]
        exact ih _

theorem notifyMany_run (ctx : Ctx) (userIds : List (Option Uuid)) (input : NotifyInput) (s : Db) :
    (notifyMany ctx userIds input).run s =
      (.ok (), { s with notifications := (sent ctx s userIds.eraseDups input).reverse ++ s.notifications }) :=
  forM_notify_run ctx input userIds.eraseDups s

/-! ### What a creation does -/

/-- The user may comment on the record. -/
def commentable (ctx : Ctx) (db : Db) (targetType : String) (targetId : Uuid) : Bool :=
  if targetType = "Engagement" then ctx.hasPermission .engagementRead && ctx.count db.engagements (fun j e =>
    j = targetId && e.deletedAt.isNone && ObjectAccess.engagementScope ctx db j e) ≠ 0
  else if targetType = "Finding" then ctx.hasPermission .findingRead && ctx.count db.findings (fun j f =>
    j = targetId && f.deletedAt.isNone && ObjectAccess.findingScope ctx db f) ≠ 0
  else if targetType = "DocumentRequest" then ctx.hasPermission .requestRead && ctx.count db.requests (fun j r =>
    j = targetId && ObjectAccess.requestScope ctx r) ≠ 0
  else targetType = "Workpaper" && ctx.hasPermission .workpaperRead && ctx.count db.workpapers (fun j w =>
    j = targetId && w.deletedAt.isNone) ≠ 0

/-- The checks of a creation pass. -/
def creatable (ctx : Ctx) (db : Db) (dto : CreateCommentDto) : Bool :=
  commentable ctx db dto.targetType dto.targetId &&
    !(ObjectAccess.isPortalScoped ctx && (dto.mentions.orNull.getD []).any fun m => m ≠ ctx.userId) &&
    dto.parentId.orNull.all (fun i => (ctx.findById db.comments i fun c =>
      c.targetType = dto.targetType && c.targetId = dto.targetId && c.deletedAt.isNone).isSome) &&
    (dto.mentioned = [] || (ctx.count db.users fun i u => i ∈ dto.mentioned && u.deletedAt.isNone) = dto.mentioned.length) &&
    refersTo db.users (some ctx.userId) && (db.comments.find (ctx.uuid 0)).isNone

/-- The program looks at the state, and succeeds exactly if `b`. -/
def Tests (p : Service Unit) (s : Db) (b : Bool) : Prop :=
  b = true ∧ p.run s = (.ok (), s) ∨ b = false ∧ ∃ e, p.run s = (.error e, s)

section Tests

variable {s : Db} {p q : Service Unit} {b c : Bool}

theorem tests_guard (e : HttpError) : Tests (if b then throw e else pure ()) s (!b) := by
  cases b with
  | false => exact .inl ⟨rfl, rfl⟩
  | true => exact .inr ⟨rfl, e, rfl⟩

theorem tests_throw (e : HttpError) : Tests (throw e) s false := .inr ⟨rfl, e, rfl⟩

theorem Tests.bind (hp : Tests p s b) (hq : Tests q s c) : Tests (p >>= fun _ => q) s (b && c) := by
  rcases hp with ⟨rfl, hp⟩ | ⟨rfl, e, hp⟩
  · unfold Tests
    rw [Prog.run_bind, hp]
    exact hq
  · exact .inr ⟨rfl, e, by rw [Prog.run_bind, hp]⟩

theorem Tests.ite {C : Prop} [Decidable C] (hp : Tests p s b) (hq : Tests q s c) :
    Tests (if C then p else q) s (if C then b else c) := by
  split
  · exact hp
  · exact hq

/-- A query that must count something. -/
theorem tests_count (n : Db → ℕ) (e : HttpError) :
    Tests (.read n >>= fun found => if found = 0 then throw e else pure ()) s (n s ≠ 0) := by
  by_cases h : n s = 0
  · exact .inr ⟨by simp [h], e, by simp [Prog.run_bind, h]⟩
  · exact .inl ⟨by simp [h], by simp [Prog.run_bind, h]⟩

end Tests

theorem newComment_author (ctx : Ctx) (dto : CreateCommentDto) : (newComment ctx dto).authorId = ctx.userId := rfl

section Checks

variable (ctx : Ctx) (s : Db)

theorem assertFeaturePermission_tests (permission : PermissionKey) :
    Tests (assertFeaturePermission ctx permission) s (ctx.hasPermission permission) := by
  have := tests_guard (s := s) (b := !ctx.hasPermission permission) (.forbidden s!"Missing permission: {permission.key}")
  rwa [Bool.not_not] at this

theorem assertCommentTarget_tests (targetType : String) (targetId : Uuid) :
    Tests (assertCommentTarget ctx targetType targetId) s (commentable ctx s targetType targetId) := by
  refine Tests.ite ((assertFeaturePermission_tests ctx s _).bind (tests_count _ _)) ?_
  refine Tests.ite ((assertFeaturePermission_tests ctx s _).bind (tests_count _ _)) ?_
  refine Tests.ite ((assertFeaturePermission_tests ctx s _).bind (tests_count _ _)) ?_
  by_cases h : targetType = "Workpaper"
  · simp only [h, decide_true, Bool.true_and, if_true]
    exact (assertFeaturePermission_tests ctx s _).bind (tests_count _ _)
  · simp only [h, decide_false, Bool.false_and, if_false]
    exact tests_throw _

theorem assertParent_tests (dto : CreateCommentDto) : Tests (assertParent ctx dto) s
    (dto.parentId.orNull.all fun i => (ctx.findById s.comments i fun c =>
      c.targetType = dto.targetType && c.targetId = dto.targetId && c.deletedAt.isNone).isSome) := by
  unfold assertParent assertRelated
  cases dto.parentId.orNull with
  | none => exact .inl ⟨rfl, rfl⟩
  | some i =>
    dsimp only [Option.all_some]
    cases hfind : ctx.findById s.comments i fun c =>
      c.targetType = dto.targetType && c.targetId = dto.targetId && c.deletedAt.isNone with
    | none => exact .inr ⟨rfl, _, by rw [Prog.run_bind, Prog.run_read]; dsimp only; rw [hfind]; rfl⟩
    | some c => exact .inl ⟨rfl, by rw [Prog.run_bind, Prog.run_read]; dsimp only; rw [hfind]; rfl⟩

theorem assertMentions_tests (mentions : List Uuid) : Tests (assertMentions ctx mentions) s
    (mentions = [] || (ctx.count s.users fun i u => i ∈ mentions && u.deletedAt.isNone) = mentions.length) := by
  unfold assertMentions
  by_cases hnil : mentions = []
  · exact .inl ⟨by simp [hnil], by simp [hnil]⟩
  · by_cases hcount : (ctx.count s.users fun i u => i ∈ mentions && u.deletedAt.isNone) = mentions.length
    · exact .inl ⟨by simp [hcount], by simp [hnil, Prog.run_bind, hcount]⟩
    · exact .inr ⟨by simp [hnil, hcount], _, by simp [hnil, Prog.run_bind, hcount]; rfl⟩

/-- **What a creation does**: it fails and changes nothing, or its comment is there, and those
who are mentioned are sent a notification. -/
theorem create_run (displayName : String) (dto : CreateCommentDto) :
    (creatable ctx s dto = false ∧ ∃ e, (create ctx displayName dto).run s = (.error e, s)) ∨
    creatable ctx s dto = true ∧ ∃ comments auditTrail,
      insertRow s.comments (ctx.uuid 0) (newComment ctx dto) = .ok comments ∧
      (create ctx displayName dto).run s = (.ok (view { s with comments } (ctx.uuid 0, newComment ctx dto)),
        { s with comments, auditTrail, notifications :=
          (sent ctx s ((recipients ctx dto).map some).eraseDups (mentionNotice displayName dto)).reverse ++
            s.notifications }) := by
  unfold create creatable
  rcases assertCommentTarget_tests ctx s dto.targetType dto.targetId with ⟨htarget, hrun⟩ | ⟨htarget, e, hrun⟩
  swap
  · exact .inl ⟨by simp [htarget], e, by rw [Prog.run_bind, hrun]⟩
  rw [Prog.run_bind, hrun, htarget, Bool.true_and]
  dsimp only
  cases hportal : ObjectAccess.isPortalScoped ctx && (dto.mentions.orNull.getD []).any fun m => m ≠ ctx.userId with
  | true => exact .inl ⟨by simp, _, rfl⟩
  | false =>
  rw [if_neg (by simp), Bool.not_false, Bool.true_and]
  rcases assertParent_tests ctx s dto with ⟨hparent, hrun⟩ | ⟨hparent, e, hrun⟩
  swap
  · exact .inl ⟨by simp [hparent], e, by rw [Prog.run_bind, hrun]⟩
  rw [Prog.run_bind, hrun, hparent, Bool.true_and]
  dsimp only
  rcases assertMentions_tests ctx s dto.mentioned with ⟨hmentions, hrun⟩ | ⟨hmentions, e, hrun⟩
  swap
  · exact .inl ⟨by rw [hmentions]; rfl, e, by rw [Prog.run_bind, hrun]⟩
  rw [Prog.run_bind, hrun, hmentions, Bool.true_and]
  dsimp only
  -- the parent that was found can be referred to
  have hrefers : refersTo s.comments (newComment ctx dto).parentId = true := by
    refine refersTo_iff.mpr fun i hi => ?_
    have hi : dto.parentId.orNull = some i := hi
    rw [hi, Option.all_some] at hparent
    obtain ⟨c, hc⟩ := Option.isSome_iff_exists.mp hparent
    exact ⟨c, (Ctx.findById_eq_some.mp hc).1⟩
  cases hauthor : refersTo s.users (some ctx.userId) with
  | false =>
    refine .inl ⟨rfl, .prisma .p2003, ?_⟩
    simp [Prog.run_bind, insertComment, newComment_author, hauthor]
  | true =>
  cases hinsert : insertRow s.comments (ctx.uuid 0) (newComment ctx dto) with
  | error e =>
    refine .inl ⟨?_, e, by simp [Prog.run_bind, insertComment, hrefers, newComment_author, hauthor, hinsert]⟩
    cases hfresh : s.comments.find (ctx.uuid 0) with
    | some c => rfl
    | none =>
      obtain ⟨comments, hinserted⟩ := insertRow_fresh hfresh (newComment ctx dto)
      rw [hinsert] at hinserted
      cases hinserted
  | ok comments =>
    refine .inr ⟨by simp [(insertRow_ok hinsert).1], comments, ⟨ctx.tenantId, ctx.userId, "comment.created", dto.targetType, dto.targetId⟩ :: s.auditTrail,
      rfl, ?_⟩
    have hwrite : (insertComment (ctx.uuid 0) (newComment ctx dto)).run s =
        (.ok (view { s with comments } (ctx.uuid 0, newComment ctx dto)), { s with comments }) := by
      simp [insertComment, hrefers, newComment_author, hauthor, hinsert]
    rw [Prog.run_bind, hwrite]
    dsimp only
    rw [auditRecord, Prog.run_bind, Prog.run_write]
    dsimp only
    rw [Prog.run_bind, notifyMany_run]
    rfl

end Checks

/-! ### What is disclosed -/

/-- The comments that a response shows. -/
def Response.comments : Response → List Comment
  | .page p => p.items.map fun c => c.row.2
  | .created c => [c.row.2]

/-- What has been sent in between. -/
def told (s s' : Db) : List Notification := s'.notifications.take (s'.notifications.length - s.notifications.length)

theorem told_append {s s' : Db} {ns : List Notification} (h : s'.notifications = ns ++ s.notifications) : told s s' = ns := by
  unfold told
  rw [h, List.length_append, Nat.add_sub_cancel, List.take_left]

/-- Internal comments stay inside the audit function: no one else is answered one, and if the
request creates one, no one else is sent a notification of it. -/
structure Confined (rolesOf : Uuid → List String) (s : Db) (r : Request) : Prop where
  answered : isAuditFunction (rolesOf r.ctx.userId) = false → ∀ response,
    ((serve rolesOf r).run s).1 = .ok response → ∀ c ∈ response.comments, c.isInternal = false
  told : (∃ id c, s.comments.find id = none ∧ (after (serve rolesOf) s r).comments.find id = some c ∧
    c.isInternal = true) → ∀ n ∈ told s (after (serve rolesOf) s r), isAuditFunction (rolesOf n.userId) = true

/-- The request creates an internal comment, and mentions someone outside the audit function
who can be notified. -/
def Discloses (rolesOf : Uuid → List String) (s : Db) : Request → Bool
  | .list .. => false
  | .create ctx _ dto => routePermissions.any ctx.hasPermission && creatable (authenticated rolesOf ctx) s dto &&
      internal (authenticated rolesOf ctx) dto &&
      (recipients ctx dto).any fun m => notifiable ctx s m && !isAuditFunction (rolesOf m)

section Requests

variable {rolesOf : Uuid → List String} {s : Db}

/-- Without a permission of the route nothing happens. -/
theorem serve_denied {r : Request} (h : routePermissions.any r.ctx.hasPermission = false) :
    ∃ e, (serve rolesOf r).run s = (.error e, s) := by
  unfold serve
  exact ⟨_, by rw [h]; rfl⟩

theorem serve_list {ctx : Ctx} {query : CommentListQueryDto} (h : routePermissions.any ctx.hasPermission = true) :
    (serve rolesOf (.list ctx query)).run s = (((list (authenticated rolesOf ctx) query).run s).1.map .page,
      ((list (authenticated rolesOf ctx) query).run s).2) := by
  unfold serve
  rw [if_neg (by simp [Request.ctx, h])]
  exact run_return _ _ _

theorem serve_create {ctx : Ctx} {displayName : String} {dto : CreateCommentDto}
    (h : routePermissions.any ctx.hasPermission = true) : (serve rolesOf (.create ctx displayName dto)).run s =
      (((create (authenticated rolesOf ctx) displayName dto).run s).1.map .created,
        ((create (authenticated rolesOf ctx) displayName dto).run s).2) := by
  unfold serve
  rw [if_neg (by simp [Request.ctx, h])]
  exact run_return _ _ _

/-- A listing changes nothing, and shows no internal comment to anyone outside the audit function. -/
theorem list_answers (ctx : Ctx) (query : CommentListQueryDto) : ((list ctx query).run s).2 = s ∧
    (isAuditFunction ctx.roles = false → ∀ page, ((list ctx query).run s).1 = .ok page →
      ∀ c ∈ page.items, c.row.2.isInternal = false) := by
  unfold list
  rw [Prog.run_bind]
  rcases assertCommentTarget_tests ctx s query.targetType query.targetId with ⟨-, hrun⟩ | ⟨-, e, hrun⟩
  swap
  · rw [hrun]
    exact ⟨rfl, fun _ _ h => by cases h⟩
  rw [hrun]
  refine ⟨rfl, fun haudit page hpage c hc => ?_⟩
  cases hpage
  obtain ⟨row, hrow, rfl⟩ := List.mem_map.mp hc
  have hmem : row ∈ ctx.findMany s.comments fun _ c => listed ctx query c :=
    (List.mergeSort_perm _ _).mem_iff.mp (List.mem_of_mem_drop (List.mem_of_mem_take hrow))
  obtain ⟨-, hcond⟩ := (Table.mem_rows_iff _ _ _ _).mp hmem
  simp only [listed, haudit, Bool.false_or, Bool.and_eq_true, Bool.not_eq_true'] at hcond
  exact hcond.2.2

/-- A request that changes nothing, and answers nothing internal, is confined. -/
theorem confined_of_same {r : Request} (hsame : ((serve rolesOf r).run s).2 = s)
    (hanswered : isAuditFunction (rolesOf r.ctx.userId) = false → ∀ response,
      ((serve rolesOf r).run s).1 = .ok response → ∀ c ∈ response.comments, c.isInternal = false) :
    Confined rolesOf s r := by
  refine ⟨hanswered, ?_⟩
  rintro ⟨id, c, hfresh, hc, -⟩
  rw [after, hsame, hfresh] at hc
  cases hc

theorem confined_of_failed {r : Request} {e : HttpError} (h : (serve rolesOf r).run s = (.error e, s)) :
    Confined rolesOf s r :=
  confined_of_same (by rw [h]) fun _ response hok => by rw [h] at hok; cases hok

theorem list_confined (ctx : Ctx) (query : CommentListQueryDto) : Confined rolesOf s (.list ctx query) := by
  cases hpermitted : routePermissions.any ctx.hasPermission with
  | false =>
    obtain ⟨e, hrun⟩ : ∃ e, (serve rolesOf (.list ctx query)).run s = (.error e, s) := serve_denied hpermitted
    exact confined_of_failed hrun
  | true =>
    obtain ⟨hsame, hanswers⟩ := list_answers (s := s) (authenticated rolesOf ctx) query
    refine confined_of_same ((congrArg Prod.snd (serve_list hpermitted)).trans hsame) ?_
    intro haudit response hok c hc
    rw [serve_list hpermitted] at hok
    cases hlist : ((list (authenticated rolesOf ctx) query).run s).1 with
    | error e =>
      rw [hlist] at hok
      cases hok
    | ok page =>
      rw [hlist] at hok
      cases hok
      obtain ⟨v, hv, rfl⟩ := List.mem_map.mp hc
      exact hanswers haudit page hlist v hv

/-- A comment that is created stays inside exactly if it is not internal, or no one else is told. -/
theorem create_confined_iff (ctx : Ctx) (displayName : String) (dto : CreateCommentDto) :
    Confined rolesOf s (.create ctx displayName dto) ↔ Discloses rolesOf s (.create ctx displayName dto) = false := by
  cases hpermitted : routePermissions.any ctx.hasPermission with
  | false =>
    obtain ⟨e, hrun⟩ : ∃ e, (serve rolesOf (.create ctx displayName dto)).run s = (.error e, s) :=
      serve_denied hpermitted
    exact iff_of_true (confined_of_failed hrun) (by simp [Discloses, hpermitted])
  | true =>
  have hserve : (serve rolesOf (.create ctx displayName dto)).run s = _ := serve_create hpermitted
  rcases create_run (authenticated rolesOf ctx) s displayName dto with
    ⟨hcreatable, e, hrun⟩ | ⟨hcreatable, comments, auditTrail, hinsert, hrun⟩
  · rw [hrun] at hserve
    exact iff_of_true (confined_of_failed hserve) (by simp [Discloses, hcreatable])
  rw [hrun] at hserve
  obtain ⟨hfresh, hrows⟩ := insertRow_ok hinsert
  have hafter : (after (serve rolesOf) s (.create ctx displayName dto)).comments = comments := by
    rw [after, hserve]
  have htold : told s (after (serve rolesOf) s (.create ctx displayName dto)) =
      (sent ctx s ((recipients ctx dto).map some).eraseDups (mentionNotice displayName dto)).reverse := by
    rw [after, hserve]
    exact told_append rfl
  have hrow : comments.find (ctx.uuid 0) = some (newComment (authenticated rolesOf ctx) dto) := by
    rw [hrows]
    exact if_pos rfl
  cases hinternal : internal (authenticated rolesOf ctx) dto with
  | false =>
    refine iff_of_true ⟨fun _ response hok c hc => ?_, ?_⟩ (by simp [Discloses, hinternal])
    · rw [hserve] at hok
      cases hok
      obtain rfl := List.mem_singleton.mp hc
      exact hinternal
    · rintro ⟨id, c, hnone, hc, htrue⟩
      rw [hafter, hrows] at hc
      split at hc
      · cases hc
        exact absurd htrue (by rw [show (newComment (authenticated rolesOf ctx) dto).isInternal = false from hinternal]; simp)
      · rw [hnone] at hc
        cases hc
  | true =>
    have hdiscloses : Discloses rolesOf s (.create ctx displayName dto) =
        (recipients ctx dto).any fun m => notifiable ctx s m && !isAuditFunction (rolesOf m) := by
      simp [Discloses, hpermitted, hcreatable, hinternal]
    rw [hdiscloses, List.any_eq_false]
    constructor
    · intro hconfined m hm
      simp only [Bool.and_eq_true, Bool.not_eq_true', not_and, Bool.not_eq_false]
      intro hnotifiable
      refine hconfined.told ⟨ctx.uuid 0, _, hfresh, by rw [hafter]; exact hrow, hinternal⟩
        (notification ctx (mentionNotice displayName dto) m) ?_
      rw [htold, List.mem_reverse, mem_sent_iff]
      exact ⟨m, by simpa using hm, hnotifiable, rfl⟩
    · intro hinside
      refine ⟨fun haudit => ?_, fun _ n hn => ?_⟩
      · have hnot : internal (authenticated rolesOf ctx) dto = false := by
          have haudit : isAuditFunction (authenticated rolesOf ctx).roles = false := haudit
          simp [internal, haudit]
        rw [hinternal] at hnot
        cases hnot
      · rw [htold, List.mem_reverse, mem_sent_iff] at hn
        obtain ⟨u, hu, hnotifiable, rfl⟩ := hn
        show isAuditFunction (rolesOf u) = true
        simpa [hnotifiable] using hinside u (by simpa using hu)

end Requests

/-- **Internal comments stay inside the audit function**: in a history of listings and comments,
no one outside the audit function is answered an internal comment or sent a notification of
one, exactly if no internal comment mentions such a user who can be notified. -/
theorem confined_iff (rolesOf : Uuid → List String) (s₀ : Db) (past : List Request) :
    Always (serve rolesOf) (Confined rolesOf) s₀ past ↔
      Always (serve rolesOf) (fun s r => Discloses rolesOf s r = false) s₀ past := by
  refine always_congr (fun s r => ?_) s₀ past
  cases r with
  | list ctx query => exact iff_of_true (list_confined ctx query) rfl
  | create ctx displayName dto => exact create_confined_iff ctx displayName dto

/-- Ann is an auditor; Ben and Cleo are business owners. -/
def rolesOf (u : Uuid) : List String := if u = 1 then ["JUNIOR_AUDITOR"] else ["BUSINESS_OWNER"]

/-- Ann writes a comment on engagement 10 that is internal, and mentions Cleo. -/
def aside : Request :=
  .create { Workpapers.actor 1 500 with permissions := [.engagementRead] } "Ann"
    { targetType := "Engagement", targetId := 10, body := "Cleo must not know", mentions := some (some [3]) }

/-- The comment is internal, and Cleo is sent its text. -/
theorem aside_told :
    ((history (serve rolesOf) Workpapers.office [aside]).comments.find 500).map
        (fun c => (c.isInternal, c.body)) = some (true, "Cleo must not know") ∧
    (history (serve rolesOf) Workpapers.office [aside]).notifications.map (fun n => (n.userId, n.body)) =
      [(3, some "Cleo must not know")] ∧
    isAuditFunction (rolesOf 3) = false ∧
    ¬Always (serve rolesOf) (Confined rolesOf) Workpapers.office [aside] := by
  refine ⟨by decide +kernel, by decide +kernel, by decide, fun h => ?_⟩
  have hdiscloses := (create_confined_iff _ _ _).mp h.1
  revert hdiscloses
  decide +kernel

end AuditSphere.Comments
