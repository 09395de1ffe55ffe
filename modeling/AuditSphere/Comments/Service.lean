import AuditSphere.Documents.Queries

/-!
# The comments service

`CommentsService`: the comments on an engagement, a finding, a request or a workpaper. A
comment of the audit function is internal unless it says otherwise; a listing hides the
internal ones from everyone else. Those who are mentioned are notified, with the beginning of
the text.
-/

namespace AuditSphere.Comments

open Prisma Theory Shared Documents

/-! ### Requests -/

/-- `CommentListQueryDto`. -/
structure CommentListQueryDto where
  targetType : String
  targetId : Uuid
  page : Option ℕ := none
  pageSize : Option ℕ := none

/-- `CreateCommentDto`. -/
structure CreateCommentDto where
  targetType : String
  targetId : Uuid
  body : String
  parentId : Field Uuid := none
  isInternal : Field Bool := none
  mentions : Field (List Uuid) := none

/-- `isAuditFunction`, of the roles of a user. -/
def isAuditFunction (roles : List String) : Bool := roles.any fun r => r ∈ ObjectAccess.auditFunctionRoles

/-! ### The record that is commented on -/

/-- `assertFeaturePermission`. -/
def assertFeaturePermission (ctx : Ctx) (permission : PermissionKey) : Service Unit :=
  if !ctx.hasPermission permission then throw (.forbidden s!"Missing permission: {permission.key}") else pure ()

/-- The workpaper is there. -/
def assertWorkpaper (ctx : Ctx) (id : Uuid) : Service Unit := do
  let found ← .read fun db => ctx.count db.workpapers fun j w => j = id && w.deletedAt.isNone
  if found = 0 then throw (.notFound "Workpaper not found") else pure ()

/-- `assertCommentTarget`. -/
def assertCommentTarget (ctx : Ctx) (targetType : String) (targetId : Uuid) : Service Unit :=
  if targetType = "Engagement" then do
    assertFeaturePermission ctx .engagementRead
    ObjectAccess.assertEngagement ctx targetId
  else if targetType = "Finding" then do
    assertFeaturePermission ctx .findingRead
    ObjectAccess.assertFinding ctx targetId
  else if targetType = "DocumentRequest" then do
    assertFeaturePermission ctx .requestRead
    ObjectAccess.assertRequest ctx targetId
  else if targetType = "Workpaper" then do
    assertFeaturePermission ctx .workpaperRead
    assertWorkpaper ctx targetId
  else throw (.forbidden "Comments are supported only for engagements, findings, requests, and workpapers")

/-! ### Reading -/

/-- A comment with `COMMENT_INCLUDE`. -/
structure CommentView where
  row : WithId Comment
  author : Option (WithId User)

/-- The row with what `COMMENT_INCLUDE` adds. -/
def view (db : Db) (row : WithId Comment) : CommentView where
  row
  author := related db.users (some row.2.authorId)

/-- The `where` of a listing. -/
def listed (ctx : Ctx) (query : CommentListQueryDto) (c : Comment) : Bool :=
  c.targetType = query.targetType && c.targetId = query.targetId && c.deletedAt.isNone &&
    (isAuditFunction ctx.roles || !c.isInternal)

/-- The comments of a listing, the oldest first. -/
def ordered (ctx : Ctx) (query : CommentListQueryDto) (db : Db) : List (WithId Comment) :=
  (ctx.findMany db.comments fun _ c => listed ctx query c).mergeSort fun a b => a.2.createdAt ≤ b.2.createdAt

/-- `list`. -/
def list (ctx : Ctx) (query : CommentListQueryDto) : Service (Documents.Page CommentView) := do
  assertCommentTarget ctx query.targetType query.targetId
  let page := pageNumber query.page
  let pageSize := pageLength query.pageSize
  let total ← .read fun db => ctx.count db.comments fun _ c => listed ctx query c
  let items ← .read fun db => (((ordered ctx query db).drop ((page - 1) * pageSize)).take pageSize).map (view db)
  pure { items, total, page, pageSize }

/-! ### Writing -/

/-- Who is mentioned, each once. -/
def CreateCommentDto.mentioned (dto : CreateCommentDto) : List Uuid := (dto.mentions.orNull.getD []).eraseDups

/-- The comment is internal. -/
def internal (ctx : Ctx) (dto : CreateCommentDto) : Bool :=
  if isAuditFunction ctx.roles then dto.isInternal.orNull.getD true else false

/-- `comment.create`. -/
def insertComment (id : Uuid) (c : Comment) : Service CommentView := .call fun db =>
  if refersTo db.comments c.parentId && refersTo db.users (some c.authorId) then do
    let comments ← insertRow db.comments id c
    pure (view { db with comments } (id, c), { db with comments })
  else .error (.prisma .p2003)

/-- The row of a new comment. -/
def newComment (ctx : Ctx) (dto : CreateCommentDto) : Comment where
  tenantId := ctx.tenantId
  targetType := dto.targetType
  targetId := dto.targetId
  parentId := dto.parentId.orNull
  authorId := ctx.userId
  body := dto.body
  mentions := dto.mentioned
  isInternal := internal ctx dto
  createdAt := ctx.now
  deletedAt := none

/-- The comment that is answered, if there is one, is a comment on the same record. -/
def assertParent (ctx : Ctx) (dto : CreateCommentDto) : Service Unit :=
  assertRelated ctx Db.comments dto.parentId
    (fun _ c => c.targetType = dto.targetType && c.targetId = dto.targetId && c.deletedAt.isNone)
    (.badRequest "Parent comment not found on this target")

/-- Those who are mentioned are users. -/
def assertMentions (ctx : Ctx) (mentions : List Uuid) : Service Unit :=
  if mentions = [] then pure ()
  else do
    let found ← .read fun db => ctx.count db.users fun i u => i ∈ mentions && u.deletedAt.isNone
    if found ≠ mentions.length then throw (.badRequest "One or more mentioned users were not found") else pure ()

/-- What those are told who are mentioned. -/
def mentionNotice (displayName : String) (dto : CreateCommentDto) : NotifyInput where
  type := "comment.mentioned"
  title := s!"{displayName} mentioned you in a comment"
  body := some (excerpt 200 dto.body)
  link := some s!"/{dto.targetType.toLower}s/{dto.targetId}"

/-- Who is told: those who are mentioned, but for the author. -/
def recipients (ctx : Ctx) (dto : CreateCommentDto) : List Uuid := dto.mentioned.filter fun m => m ≠ ctx.userId

/-- `create`, by a user with that name. -/
def create (ctx : Ctx) (displayName : String) (dto : CreateCommentDto) : Service CommentView := do
  assertCommentTarget ctx dto.targetType dto.targetId
  if ObjectAccess.isPortalScoped ctx && (dto.mentions.orNull.getD []).any fun m => m ≠ ctx.userId then
    throw (.badRequest "Portal comments cannot mention other users")
  else do
    assertParent ctx dto
    assertMentions ctx dto.mentioned
    let created ← insertComment (ctx.uuid 0) (newComment ctx dto)
    auditRecord ctx "comment.created" dto.targetType dto.targetId
    notifyMany ctx ((recipients ctx dto).map some) (mentionNotice displayName dto)
    pure created

/-! ### All requests -/

/-- A request for comments, with its user. -/
inductive Request where
  | list (ctx : Ctx) (query : CommentListQueryDto)
  | create (ctx : Ctx) (displayName : String) (dto : CreateCommentDto)

/-- What a request answers. -/
inductive Response where
  | page (p : Documents.Page CommentView)
  | created (c : CommentView)

/-- The user who makes the request. -/
def Request.ctx : Request → Ctx
  | .list ctx _ | .create ctx .. => ctx

/-- The permissions of which the routes ask for one. -/
def routePermissions : List PermissionKey := [.engagementRead, .findingRead, .requestRead, .workpaperRead]

/-- The user, with the roles that the directory has. -/
def authenticated (rolesOf : Uuid → List String) (ctx : Ctx) : Ctx := { ctx with roles := rolesOf ctx.userId }

/-- The controller: the user must hold one of the permissions of the route. -/
def serve (rolesOf : Uuid → List String) (r : Request) : Service Response :=
  if !routePermissions.any r.ctx.hasPermission then
    throw (.forbidden ("Missing permission: " ++ " or ".intercalate (routePermissions.map PermissionKey.key)))
  else match r with
    | .list ctx query => do return .page (← list (authenticated rolesOf ctx) query)
    | .create ctx displayName dto => do return .created (← create (authenticated rolesOf ctx) displayName dto)

end AuditSphere.Comments
