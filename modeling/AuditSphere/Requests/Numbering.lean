import AuditSphere.Db.Numbered
import AuditSphere.Requests.Service

/-!
# The references of document requests

The requests for documents of an engagement are numbered `DR-01`, `DR-02`, ...
(`requestNumbers`), as its evidence records are: `create` checks first and then numbers a
request (`create_allocates`), with the reference that follows the highest one
(`created_issued`), wherever that is free and nothing else stands in the way (`create_accepted`).
-/

namespace AuditSphere.Requests

open Prisma Theory Shared

/-- The number of a reference with a padded number. -/
theorem requestNumber_pad (width n : ℕ) : requestNumber ("DR-" ++ pad n width) = some n := by
  unfold requestNumber
  rw [String.toList_append, toList_pad]
  simp only [show "DR-".toList = ['D', 'R', '-'] from rfl, List.cons_append, List.nil_append]
  rw [if_pos ⟨numeral_ne_nil width n, List.all_eq_true.mpr fun c => isDigit_of_mem_numeral⟩, toNat?_numeral]

/-- `DR-01`, `DR-02`, ... -/
def requestNumbers : Numbering String 100 :=
  textNumbering "DR-" 2 100 Nat.zero_lt_two hundred_eq nextRequestReference rfl fun n => by
    simp [nextRequestReference, requestNumber_pad]

/-- The references of the requests of an engagement. -/
def requestReferences (s : Db) (engagementId : Uuid) : Uuid → Option String :=
  references s.requests (fun r => r.engagementId = engagementId) DocumentRequest.reference

/-- The highest of them. -/
def highestReference (s : Db) (engagementId : Uuid) : Option String :=
  greatest ((s.requests.rows fun _ r => r.engagementId = engagementId).map fun r => r.2.reference)

theorem highestReference_highest (s : Db) (engagementId : Uuid) :
    Highest (present (requestReferences s engagementId)) (highestReference s engagementId) :=
  highest_greatest fun _ _ _ => rfl

/-- A query of the tenant of the engagement finds the highest reference. -/
theorem latestReference_eq {s : Db} {ctx : Ctx} {engagementId : Uuid} {n : ℕ}
    (hof : OfEngagement s s.requests (fun r => r.engagementId = engagementId) engagementId)
    (hread : ∃ e, ctx.findById s.engagements engagementId (·.deletedAt.isNone) = some e)
    (hfilled : present (requestReferences s engagementId) = requestNumbers.filled n) :
    latestReference ctx s engagementId = highestReference s engagementId := by
  unfold latestReference highestReference
  rw [findMany_stem (p := fun r : DocumentRequest => r.engagementId = engagementId)]
  intro j r hfind hp
  refine ⟨hof.sees hread hfind hp, ?_⟩
  exact startsWith_of_filled (fun k => startsWith_append "DR-" (pad k 2)) hfilled hfind hp

/-! ### What a creation does -/

/-- An attempt to insert a request, numbered after the latest one. -/
def attempted (ctx : Ctx) (dto : CreateRequestDto) (attempt : ℕ) (latest : Option String) :
    Service (WithId DocumentRequest) :=
  insertRequest (ctx.uuid attempt) (newRequest ctx dto (nextRequestReference latest))

/-- The loop numbers requests. -/
theorem insertNumbered_numbered (ctx : Ctx) (dto : CreateRequestDto) :
    Numbered (fun db => latestReference ctx db dto.engagementId) (attempted ctx dto) (insertNumbered ctx dto) where
  exhausted := ⟨_, rfl⟩
  attempt _ := rfl
  atomic _ _ := Prog.atomic_call _

theorem insertRequest_ok {id : Uuid} {r : DocumentRequest} {s s' : Db} {a : WithId DocumentRequest}
    (h : (insertRequest id r).run s = (.ok a, s')) :
    a = (id, r) ∧ constrained s id r = .ok () ∧ s.requests.find id = none ∧
      (∀ j, s'.requests.find j = if j = id then some r else s.requests.find j) ∧
      s' = { s with requests := s'.requests } := by
  obtain ⟨_, hc, h⟩ := Prog.bind_eq_ok.mp (Prog.run_call_ok.mp h)
  obtain ⟨t, ht, h⟩ := Prog.bind_eq_ok.mp h
  cases h
  obtain ⟨hfresh, hrow⟩ := insertRow_ok ht
  exact ⟨rfl, hc, hfresh, hrow, rfl⟩

/-- Creation checks first, then numbers a request, and then succeeds and only records and
tells what was done. -/
theorem create_rest (ctx : Ctx) (dto : CreateRequestDto) :
    ∃ rest : Engagement → WithId DocumentRequest → Service RequestView, create ctx dto = (do
      let engagement ← .read fun db => ctx.findById db.engagements dto.engagementId fun e => e.deletedAt.isNone
      match engagement with
      | none => throw (.notFound "Engagement not found")
      | some engagement => do
        assertAssignee ctx dto.assigneeId
        let created ← insertNumbered ctx dto 5
        rest engagement created) ∧
    ∀ engagement s attempt latest created s₂, (attempted ctx dto attempt latest).run s = (.ok created, s₂) →
      (rest engagement created).Succeeds s₂ ∧ Quiet s₂ ((rest engagement created).run s₂).2 := by
  refine ⟨_, rfl, fun engagement s attempt latest created s₂ hinsert => ?_⟩
  obtain ⟨rfl, -, -, hrows, -⟩ := insertRequest_ok hinsert
  obtain ⟨_, s₃, haudit, h₃⟩ := (auditRecord_quiet ctx "request.created" "DocumentRequest" (ctx.uuid attempt)).run
    Quiet.refl (fun _ _ _ => Quiet.trans) s₂
  obtain ⟨_, s₄, hnotify, h₄⟩ := (notify_quiet ctx (newRequest ctx dto (nextRequestReference latest)).assigneeId _).run
    Quiet.refl (fun _ _ _ => Quiet.trans) s₃
  -- the request is found
  have hfound : ctx.findById s₄.requests (ctx.uuid attempt) (fun _ => true) =
      some (newRequest ctx dto (nextRequestReference latest)) := by
    rw [h₃.trans h₄]
    exact Ctx.findById_eq_some.mpr ⟨(hrows _).trans (if_pos rfl), (Ctx.sees_iff_tenant rfl).mpr rfl, rfl⟩
  unfold Prog.Succeeds
  rw [Prog.run_bind, haudit]
  dsimp only
  rw [Prog.run_bind, hnotify]
  dsimp only
  rw [Prog.run_bind, Prog.run_read]
  dsimp only
  rw [hfound]
  exact ⟨⟨_, _, rfl⟩, h₃.trans h₄⟩

theorem assertAssignee_readOnly (ctx : Ctx) (assigneeId : Field Uuid) : (assertAssignee ctx assigneeId).ReadOnly := by
  unfold assertAssignee assertRelated
  split
  · exact Prog.readOnly_pure _
  · exact (Prog.readOnly_read _).bind fun row => Prog.ReadOnly.ite (Prog.readOnly_throw _) (Prog.readOnly_pure _)

/-- **Creation** checks first, and then numbers a request. -/
theorem create_allocates (ctx : Ctx) (dto : CreateRequestDto) :
    Allocates (fun db => latestReference ctx db dto.engagementId) (attempted ctx dto) Quiet (create ctx dto) := by
  obtain ⟨rest, hcreate, hrest⟩ := create_rest ctx dto
  rw [hcreate]
  refine allocates_bind (Prog.readOnly_read _) fun engagement => ?_
  split
  · exact allocates_throw _
  · refine allocates_bind (assertAssignee_readOnly ctx _) fun _ => ?_
    exact (insertNumbered_numbered ctx dto).allocates (hrest _)

theorem serve_allocates (ctx : Ctx) (dto : CreateRequestDto) :
    Allocates (fun db => latestReference ctx db dto.engagementId) (attempted ctx dto) Quiet (serve (.create ctx dto)) :=
  Allocates.ite (allocates_throw _) (create_allocates ctx dto)

/-- A new request: the number follows the latest one, and the row is there afterwards. -/
structure Recorded (s : Db) (ctx : Ctx) (dto : CreateRequestDto) (id : Uuid) (r : DocumentRequest) (s' : Db) : Prop where
  row : r = newRequest ctx dto (nextRequestReference (latestReference ctx s dto.engagementId))
  engagement : ∃ engagement, ctx.findById s.engagements dto.engagementId (·.deletedAt.isNone) = some engagement
  fresh : s.requests.find id = none
  admitted : constrained s id r = .ok ()
  rows : ∀ j, s'.requests.find j = if j = id then some r else s.requests.find j
  rest : s' = { s with requests := s'.requests, auditTrail := s'.auditTrail, notifications := s'.notifications }

/-- A request for a new request changes nothing, or it succeeds and the row is new. -/
theorem create_effect (s : Db) (ctx : Ctx) (dto : CreateRequestDto) :
    (¬Accepted serve s (.create ctx dto) ∧ after serve s (.create ctx dto) = s) ∨
      (Accepted serve s (.create ctx dto) ∧ ∃ id r, Recorded s ctx dto id r (after serve s (.create ctx dto))) := by
  rcases serve_allocates ctx dto s with hfail | ⟨hacc, attempt, a, s₂, hinsert, hquiet⟩
  · exact .inl hfail
  obtain ⟨-, hc, hfresh, hrows, hrest⟩ := insertRequest_ok hinsert
  refine .inr ⟨hacc, ctx.uuid attempt,
    newRequest ctx dto (nextRequestReference (latestReference ctx s dto.engagementId)), rfl, ?_, hfresh, hc, fun j => ?_, ?_⟩
  · obtain ⟨v, s', hrun⟩ := hacc
    unfold serve create at hrun
    rw [Prog.run_guard_ok] at hrun
    obtain ⟨engagement, s₁, hread, hrun⟩ := Prog.run_bind_ok.mp hrun.2
    cases hread
    split at hrun
    · cases hrun
    · rename_i engagement hengagement
      exact ⟨engagement, hengagement⟩
  · unfold after
    obtain ⟨_, _, heq⟩ := hquiet.eq
    rw [heq]
    exact hrows j
  · unfold after
    obtain ⟨_, _, heq⟩ := hquiet.eq
    rw [heq, hrest]

/-! ### References -/

/-- The request creates a request for documents of an engagement. -/
def CreatesOn (engagementId : Uuid) (s : Db) (r : Request) : Prop :=
  (∃ ctx dto, r = .create ctx dto ∧ dto.engagementId = engagementId) ∧ Accepted serve s r

/-- What creates no request of the engagement keeps the references of its requests. -/
theorem references_kept {s : Db} {r : Request} {engagementId : Uuid} (h : ¬CreatesOn engagementId s r) :
    requestReferences (after serve s r) engagementId = requestReferences s engagementId := by
  cases r with
  | create ctx dto =>
    rcases create_effect s ctx dto with ⟨-, hsame⟩ | ⟨hacc, id, r, hrecorded⟩
    · rw [hsame]
    · have hother : dto.engagementId ≠ engagementId := fun hid => h ⟨⟨ctx, dto, rfl, hid⟩, hacc⟩
      refine references_insert_other hrecorded.fresh hrecorded.rows ?_
      rw [hrecorded.row]
      simp [newRequest, hother]

/-- What a request for a new request writes. -/
theorem serve_write (s : Db) (r : Request) : ∃ requests auditTrail notifications,
    after serve s r = { s with requests, auditTrail, notifications } := by
  cases r with
  | create ctx dto =>
    rcases create_effect s ctx dto with ⟨-, hsame⟩ | ⟨-, id, r, hrecorded⟩
    · exact ⟨_, _, _, hsame⟩
    · exact ⟨_, _, _, hrecorded.rest⟩

section Create

variable {s : Db} {ctx : Ctx} {dto : CreateRequestDto}

/-- **A new request** has the reference that follows the highest one, which was free. -/
theorem created_issued {n : ℕ}
    (hof : OfEngagement s s.requests (fun r => r.engagementId = dto.engagementId) dto.engagementId)
    (hfilled : present (requestReferences s dto.engagementId) = requestNumbers.filled n)
    (hacc : Accepted serve s (.create ctx dto)) :
    requestNumbers.next (highestReference s dto.engagementId) ∉ present (requestReferences s dto.engagementId) ∧
      ∃ j, Issued (requestReferences s dto.engagementId) j (requestNumbers.next (highestReference s dto.engagementId))
        (requestReferences (after serve s (.create ctx dto)) dto.engagementId) := by
  rcases create_effect s ctx dto with ⟨hfail, -⟩ | ⟨-, id, r, hrecorded⟩
  · exact absurd hacc hfail
  have hrow := hrecorded.row
  rw [latestReference_eq hof hrecorded.engagement hfilled] at hrow
  have hnext : requestNumbers.next (highestReference s dto.engagementId) = r.reference := by
    rw [hrow]
    rfl
  rw [hnext]
  refine ⟨(unique_iff hrecorded.fresh fun _ _ => rfl).mp ?_, id,
    references_insert hrecorded.fresh hrecorded.rows (by rw [hrow]; simp [newRequest])⟩
  have hadmitted := hrecorded.admitted
  unfold constrained at hadmitted
  split at hadmitted
  · cases hadmitted
  · rename_i hunique
    rw [hrow] at hunique ⊢
    exact (Bool.not_eq_true _).mp hunique

/-- A request for a new request in which nothing but its reference may be in the way. -/
structure Admissible (s : Db) (ctx : Ctx) (dto : CreateRequestDto) : Prop where
  permitted : ctx.hasPermission .requestManage = true
  engagement : ∃ engagement, ctx.findById s.engagements dto.engagementId (·.deletedAt.isNone) = some engagement
  assignee : Found ctx Db.users dto.assigneeId (fun _ u => u.deletedAt.isNone) (· = ·) s s
  user : refersTo s.users (some ctx.userId) = true
  fresh : s.requests.find (ctx.uuid 0) = none

/-- **A request is created** if its reference is free. -/
theorem create_accepted (h : Admissible s ctx dto)
    (hfree : nextRequestReference (latestReference ctx s dto.engagementId) ∉
      present (requestReferences s dto.engagementId)) :
    Accepted serve s (.create ctx dto) := by
  obtain ⟨engagement, hengagement⟩ := h.engagement
  -- the first attempt inserts the request
  have hadmitted : constrained s (ctx.uuid 0) (newRequest ctx dto
      (nextRequestReference (latestReference ctx s dto.engagementId))) = .ok () := by
    unfold constrained
    rw [if_neg, if_pos]
    · have hon : refersTo s.engagements (some dto.engagementId) = true :=
        refersTo_iff.mpr fun _ hi => ⟨engagement, Option.some.inj hi ▸ (Ctx.findById_eq_some.mp hengagement).1⟩
      simp [newRequest, hon, h.assignee.refersTo, h.user]
    · exact (Bool.not_eq_true _).mpr ((unique_iff h.fresh fun _ _ => rfl).mpr hfree)
  obtain ⟨requests, hrequests⟩ := insertRow_fresh h.fresh (newRequest ctx dto
    (nextRequestReference (latestReference ctx s dto.engagementId)))
  have hinsert : (attempted ctx dto 0 (latestReference ctx s dto.engagementId)).run s =
      (.ok (ctx.uuid 0, newRequest ctx dto (nextRequestReference (latestReference ctx s dto.engagementId))),
        { s with requests }) := by
    refine Prog.run_call_ok.mpr ?_
    rw [hadmitted, hrequests]
    rfl
  obtain ⟨rest, hcreate, hrest⟩ := create_rest ctx dto
  refine Prog.succeeds_guard (by simp [Request.permission, Request.ctx, h.permitted]) ?_
  dsimp only
  rw [hcreate]
  refine Prog.succeeds_bind (Prog.run_read _ s) ?_
  rw [hengagement]
  refine Prog.succeeds_bind (assertRelated_run h.assignee _) ?_
  exact Prog.succeeds_bind ((insertNumbered_numbered ctx dto).run_first hinsert) (hrest _ _ _ _ _ _ hinsert).1

end Create

end AuditSphere.Requests
