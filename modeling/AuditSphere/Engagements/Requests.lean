import AuditSphere.Db.Requests
import AuditSphere.Engagements.Service

/-!
# What a request for an engagement does

Each request makes one call that matters: `create` inserts an engagement with the first
entry of its history (`Created`), `update` changes one (`Updated`), `transition` moves one
and writes an entry (`Moved`). Everything else is aside (`Aside`): it concerns the audit
trail, the notifications and new members of an engagement. `serve_meets` says so for any
interference by others.
-/

namespace AuditSphere.Engagements

open Prisma Theory Shared

/-! ### What is aside -/

/-- The row of an engagement, with perhaps more members. -/
structure Joined (e e' : Engagement) : Prop where
  rest : e' = { e with members := e'.members }
  members : ∀ u ∈ e.members, u ∈ e'.members

theorem Joined.refl (e : Engagement) : Joined e e := ⟨rfl, fun _ => id⟩

theorem Joined.trans {e e' e'' : Engagement} (h : Joined e e') (h' : Joined e' e'') : Joined e e'' := by
  refine ⟨?_, fun u hu => h'.members u (h.members u hu)⟩
  rw [h'.rest, h.rest]

theorem joined_refl (row : Option Engagement) : Option.Rel Joined row row := by
  cases row with
  | none => exact .none
  | some e => exact .some (.refl e)

theorem joined_trans {row row' row'' : Option Engagement} (h : Option.Rel Joined row row')
    (h' : Option.Rel Joined row' row'') : Option.Rel Joined row row'' := by
  cases h with
  | none => exact h'
  | some h =>
    cases h' with
    | some h' => exact .some (h.trans h')

/-- Nothing but the audit trail, the notifications and the members of engagements changes. -/
structure Aside (a b : Db) : Prop where
  engagements : ∀ j, Option.Rel Joined (a.engagements.find j) (b.engagements.find j)
  rest : b = { a with
    engagements := b.engagements, auditTrail := b.auditTrail, notifications := b.notifications }

theorem Aside.of_quiet {a b : Db} (h : Quiet a b) : Aside a b := by
  obtain ⟨auditTrail, notifications, rfl⟩ := h.eq
  exact ⟨fun j => joined_refl _, rfl⟩

theorem Aside.refl (a : Db) : Aside a a := .of_quiet (Quiet.refl a)

theorem Aside.trans {a b c : Db} (h : Aside a b) (h' : Aside b c) : Aside a c :=
  ⟨fun j => joined_trans (h.engagements j) (h'.engagements j), by rw [h'.rest, h.rest]⟩

theorem Interference.of_aside : Interference Aside Aside := ⟨Aside.refl, fun _ _ _ => Aside.trans, fun _ _ => id⟩

/-- The row of an engagement before, where nothing but what is aside has changed since. -/
theorem Aside.row {a b : Db} (h : Aside a b) {j : Uuid} {e' : Engagement} (he' : b.engagements.find j = some e') :
    ∃ e, a.engagements.find j = some e ∧ Joined e e' := by
  have hrel := h.engagements j
  rw [he'] at hrel
  cases hrow : a.engagements.find j with
  | none =>
    rw [hrow] at hrel
    cases hrel
  | some e =>
    rw [hrow] at hrel
    cases hrel with
    | some hjoined => exact ⟨e, rfl, hjoined⟩

/-- The row of an engagement afterwards. -/
theorem Aside.row_after {a b : Db} (h : Aside a b) {j : Uuid} {e : Engagement} (he : a.engagements.find j = some e) :
    ∃ e', b.engagements.find j = some e' ∧ Joined e e' := by
  have hrel := h.engagements j
  rw [he] at hrel
  cases hrow : b.engagements.find j with
  | none =>
    rw [hrow] at hrel
    cases hrel
  | some e' =>
    rw [hrow] at hrel
    cases hrel with
    | some hjoined => exact ⟨e', rfl, hjoined⟩

/-! ### Commits -/

/-- What a guard of the workflow says of an engagement in a state. Two of them first look
whether there are any workpapers. -/
def guardHolds (R : Db → Db → Prop) (ctx : Ctx) (id : Uuid) (e : Engagement) (guard : String) (db : Db) : Prop :=
  match guard with
  | "has_objectives_and_scope" => isBlank e.objectives = false ∧ isBlank e.scope = false
  | "has_lead" => e.leadId.isSome = true
  | "programme_approved" => 0 < ctx.count db.programs fun _ p =>
      p.engagementId = id && p.status ∈ [.approved, .inProgress, .completed]
  | "all_workpapers_prepared" => (∃ db₀, R db₀ db ∧ 0 < workpaperCount ctx db₀ id fun _ => true) ∧
      (workpaperCount ctx db id fun w => w.status = .draft) = 0
  | "all_workpapers_signed_off" => (∃ db₀, R db₀ db ∧ 0 < workpaperCount ctx db₀ id fun _ => true) ∧
      (workpaperCount ctx db id fun w => w.status ≠ .signedOff) = 0
  | "no_open_review_notes" => uncleared ctx db id = 0
  | "all_findings_agreed_or_accepted" => ∀ f ∈ findingsOf ctx db id, f.2.status ∉ [.draft, .managementReview]
  | "all_findings_owned_and_submitted" => ∀ f ∈ findingsOf ctx db id, unassigned f.2 = false ∧ f.2.status ≠ .draft
  | _ => True

/-- A new engagement. -/
structure Created (R : Db → Db → Prop) (s : Db) (ctx : Ctx) (dto : CreateEngagementDto) (year : ℕ)
    (id historyId : Uuid) (auditNumber : String) (s₁ s₂ : Db) : Prop where
  entity : Found ctx Db.entities dto.entityId (fun _ e => e.deletedAt.isNone) R s s₁
  numbered : ∃ s₀, R s s₀ ∧ R s₀ s₁ ∧ nextAuditNumber year (latestNumber ctx s₀ year) = .ok auditNumber
  admitted : constrained s₁ id (newEngagement ctx dto auditNumber) = .ok ()
  fresh : s₁.engagements.find id = none
  rows : ∀ j, s₂.engagements.find j =
    if j = id then some (newEngagement ctx dto auditNumber) else s₁.engagements.find j
  appended : s₂.stageHistory.entries = (historyId, opened ctx id) :: s₁.stageHistory.entries
  rest : s₂ = { s₁ with engagements := s₂.engagements, stageHistory := s₂.stageHistory }

/-- A changed engagement: the row `before` was read and checked, the row `e` is changed. -/
structure Updated (R : Db → Db → Prop) (s : Db) (ctx : Ctx) (id : Uuid) (dto : UpdateEngagementDto)
    (before e e' : Engagement) (s₁ s₂ : Db) : Prop where
  read : ∃ s₀, R s s₀ ∧ R s₀ s₁ ∧ ctx.findById s₀.engagements id (·.deletedAt.isNone) = some before
  report : dto.reportDocumentId.isSome = true → before.stage ≠ .closed
  status : ∀ status, dto.status = some (some status) → status = .active ∨ status = .onHold
  row : s₁.engagements.find id = some e
  sees : ctx.sees e = true
  change : dto.apply e = .ok e'
  admitted : constrained s₁ id e' = .ok ()
  rows : ∀ j, s₂.engagements.find j = if j = id then some e' else s₁.engagements.find j
  rest : s₂ = { s₁ with engagements := s₂.engagements }

/-- A transition: the row `engagement` was read, its transition `t` checked, the row `e` is moved. -/
structure Moved (R : Db → Db → Prop) (s : Db) (ctx : Ctx) (id : Uuid) (dto : TransitionDto)
    (t : Transition EngagementStage) (engagement e : Engagement) (s₁ s₂ : Db) : Prop where
  read : ∃ s₀, R s s₀ ∧ R s₀ s₁ ∧ ctx.findById s₀.engagements id (·.deletedAt.isNone) = some engagement
  declared : findTransition engagementWorkflow engagement.stage dto.action = some t
  permitted : t.permission ∈ ctx.permissions
  guards : ∀ guard ∈ t.guards, ∃ sg, R s sg ∧ R sg s₁ ∧ guardHolds R ctx id engagement guard sg
  row : s₁.engagements.find id = some e
  sees : ctx.sees e = true
  admitted : constrained s₁ id (transitioned ctx t engagement e) = .ok ()
  rows : ∀ j, s₂.engagements.find j =
    if j = id then some (transitioned ctx t engagement e) else s₁.engagements.find j
  appended : s₂.stageHistory.entries = (ctx.uuid 0, stageEntry ctx id dto t engagement) :: s₁.stageHistory.entries
  rest : s₂ = { s₁ with engagements := s₂.engagements, stageHistory := s₂.stageHistory }

/-- The one call of a request that matters. -/
inductive Commit (R : Db → Db → Prop) (s : Db) : Request → Db → Db → Prop where
  | create {ctx dto id historyId auditNumber s₁ s₂}
    (h : Created R s ctx dto (dto.year ctx.now) id historyId auditNumber s₁ s₂) : Commit R s (.create ctx dto) s₁ s₂
  | update {ctx id dto before e e' s₁ s₂} (h : Updated R s ctx id dto before e e' s₁ s₂) :
    Commit R s (.update ctx id dto) s₁ s₂
  | transition {ctx id dto t engagement e s₁ s₂} (h : Moved R s ctx id dto t engagement e s₁ s₂) :
    Commit R s (.transition ctx id dto) s₁ s₂

/-- A call of a request. -/
def Call (R : Db → Db → Prop) (s : Db) (r : Request) (s₁ s₂ : Db) : Prop := Aside s₁ s₂ ∨ Commit R s r s₁ s₂

/-! ### The writes -/

theorem insertStageEntry_ok {id : Uuid} {h : EngagementStageHistory} {s s' : Db}
    (hrun : (insertStageEntry id h).run s = (.ok (), s')) :
    s'.stageHistory.entries = (id, h) :: s.stageHistory.entries ∧ s' = { s with stageHistory := s'.stageHistory } := by
  have hrun := Prog.run_call_ok.mp hrun
  split at hrun
  · obtain ⟨t, ht, hrun⟩ := Prog.bind_eq_ok.mp hrun
    cases hrun
    exact ⟨insertRow_entries ht, rfl⟩
  · cases hrun

theorem insertEngagement_ok {id historyId : Uuid} {e : Engagement} {h : EngagementStageHistory} {s s' : Db}
    {a : WithId Engagement} (hrun : (insertEngagement id historyId e h).run s = (.ok a, s')) :
    a = (id, e) ∧ constrained s id e = .ok () ∧ s.engagements.find id = none ∧
      (∀ j, s'.engagements.find j = if j = id then some e else s.engagements.find j) ∧
      s'.stageHistory.entries = (historyId, h) :: s.stageHistory.entries ∧
      s' = { s with engagements := s'.engagements, stageHistory := s'.stageHistory } := by
  obtain ⟨_, s₁, hrow, hrun⟩ := Prog.run_bind_ok.mp (Prog.run_transaction_ok.mp hrun)
  obtain ⟨_, hc, hrow⟩ := Prog.bind_eq_ok.mp (Prog.run_call_ok.mp hrow)
  obtain ⟨t, ht, hrow⟩ := Prog.bind_eq_ok.mp hrow
  cases hrow
  obtain ⟨_, s₂, hentry, hrun⟩ := Prog.run_bind_ok.mp hrun
  cases hrun
  obtain ⟨hfresh, hrows⟩ := insertRow_ok ht
  obtain ⟨happended, hrest⟩ := insertStageEntry_ok hentry
  exact ⟨rfl, hc, hfresh, fun j => by rw [hrest]; exact hrows j, happended, by rw [hrest]⟩

theorem updateEngagement_ok {ctx : Ctx} {id : Uuid} {g : Engagement → Except HttpError Engagement} {s s' : Db}
    {v : EngagementView} (hrun : (updateEngagement ctx id g).run s = (.ok v, s')) :
    ∃ e e', s.engagements.find id = some e ∧ ctx.sees e = true ∧ g e = .ok e' ∧ constrained s id e' = .ok () ∧
      v = view s' (id, e') ∧ (∀ j, s'.engagements.find j = if j = id then some e' else s.engagements.find j) ∧
      s' = { s with engagements := s'.engagements } := by
  obtain ⟨⟨e', t⟩, ht, hrun⟩ := Prog.bind_eq_ok.mp (Prog.run_call_ok.mp hrun)
  obtain ⟨_, hc, hrun⟩ := Prog.bind_eq_ok.mp hrun
  cases hrun
  obtain ⟨e, hfind, hsees, hg, hrows⟩ := updateRow_ok ht
  exact ⟨e, e', hfind, hsees, hg, hc, rfl, hrows, rfl⟩

/-- What the transaction of a transition does. -/
theorem transitionTransaction_ok {ctx : Ctx} {id : Uuid} {dto : TransitionDto} {t : Transition EngagementStage}
    {engagement : Engagement} {s s' : Db} {v : EngagementView}
    (hrun : (transitionTransaction ctx id dto t engagement).run s = (.ok v, s')) :
    ∃ e, s.engagements.find id = some e ∧ ctx.sees e = true ∧
      constrained s id (transitioned ctx t engagement e) = .ok () ∧
      (∀ j, s'.engagements.find j =
        if j = id then some (transitioned ctx t engagement e) else s.engagements.find j) ∧
      s'.stageHistory.entries = (ctx.uuid 0, stageEntry ctx id dto t engagement) :: s.stageHistory.entries ∧
      s' = { s with engagements := s'.engagements, stageHistory := s'.stageHistory } := by
  obtain ⟨_, s₁, he, hrun⟩ := Prog.run_bind_ok.mp (Prog.run_transaction_ok.mp hrun)
  obtain ⟨_, s₂, hh, hrun⟩ := Prog.run_bind_ok.mp hrun
  cases hrun
  obtain ⟨e, e', hfind, hsees, hchange, hc, -, hrows, hrest₁⟩ := updateEngagement_ok he
  cases hchange
  obtain ⟨happended, hrest₂⟩ := insertStageEntry_ok hh
  refine ⟨e, hfind, hsees, hc, fun j => ?_, ?_, ?_⟩
  · rw [hrest₂]
    exact hrows j
  · rw [happended, hrest₁]
  · rw [hrest₂, hrest₁]

theorem upsertMember_ok {ctx : Ctx} {id userId : Uuid} {s s' : Db}
    (hrun : (upsertMember ctx id userId).run s = (.ok (), s')) : Aside s s' := by
  have hrun := Prog.run_call_ok.mp hrun
  split at hrun
  · cases hrun
    refine ⟨fun j => ?_, rfl⟩
    dsimp only
    rw [Table.find_modify]
    generalize s.engagements.find j = row
    cases row with
    | none => exact .none
    | some e =>
      refine .some ?_
      dsimp only
      split
      · split
        · exact .refl e
        · exact ⟨rfl, fun u hu => List.mem_append_left _ hu⟩
      · exact .refl e
  · cases hrun

/-! ### What can be seen -/

/-- The engagement is there, and the user may see it. -/
def Accessible (ctx : Ctx) (id : Uuid) (db : Db) : Prop :=
  ∃ e, ctx.findById db.engagements id (·.deletedAt.isNone) = some e ∧ ObjectAccess.engagementScope ctx db id e = true

theorem accessible_iff_count {ctx : Ctx} {id : Uuid} {db : Db} :
    (ctx.count db.engagements fun j e =>
      j = id && e.deletedAt.isNone && ObjectAccess.engagementScope ctx db j e) ≠ 0 ↔ Accessible ctx id db := by
  unfold Accessible
  simp only [Ctx.count_ne_zero_iff, Ctx.findById_eq_some, Bool.and_eq_true, decide_eq_true_eq]
  constructor
  · rintro ⟨j, e, hfind, hsees, ⟨rfl, hdeleted⟩, hscope⟩
    exact ⟨e, ⟨hfind, hsees, hdeleted⟩, hscope⟩
  · rintro ⟨e, ⟨hfind, hsees, hdeleted⟩, hscope⟩
    exact ⟨id, e, hfind, hsees, ⟨rfl, hdeleted⟩, hscope⟩

/-- A user who may see an engagement may see it when only more has been written of it, and
the members are more. -/
theorem engagementScope_mono {ctx : Ctx} {a b : Db} {id : Uuid} {e e' : Engagement} (hrequests : b.requests = a.requests)
    (hfindings : b.findings = a.findings) (hlead : e'.leadId = e.leadId) (hmanager : e'.managerId = e.managerId)
    (hpartner : e'.partnerId = e.partnerId) (hmembers : ∀ u ∈ e.members, u ∈ e'.members)
    (hstakeholders : e'.stakeholders = e.stakeholders) (h : ObjectAccess.engagementScope ctx a id e = true) :
    ObjectAccess.engagementScope ctx b id e' = true := by
  unfold ObjectAccess.engagementScope ObjectAccess.directEngagementScope at h ⊢
  rw [hlead, hmanager, hpartner, hstakeholders, hrequests, hfindings]
  simp only [Bool.or_eq_true, decide_eq_true_eq] at h ⊢
  have := hmembers ctx.userId
  tauto

theorem Accessible.aside {ctx : Ctx} {id : Uuid} {a b : Db} (h : Accessible ctx id a) (haside : Aside a b) :
    Accessible ctx id b := by
  obtain ⟨e, hfound, hscope⟩ := h
  obtain ⟨hfind, hsees, hdeleted⟩ := Ctx.findById_eq_some.mp hfound
  obtain ⟨e', hfind', hjoined⟩ := haside.row_after hfind
  refine ⟨e', Ctx.findById_eq_some.mpr ⟨hfind', ?_, ?_⟩, ?_⟩
  · rw [hjoined.rest]
    exact hsees
  · rw [hjoined.rest]
    exact hdeleted
  · refine engagementScope_mono ?_ ?_ ?_ ?_ ?_ hjoined.members ?_ hscope
    · rw [haside.rest]
    · rw [haside.rest]
    all_goals rw [hjoined.rest]

/-- What a transition does not change. -/
theorem transitioned_kept (ctx : Ctx) (t : Transition EngagementStage) (engagement e : Engagement) :
    let e' := transitioned ctx t engagement e
    e'.tenantId = e.tenantId ∧ e'.auditNumber = e.auditNumber ∧ e'.deletedAt = e.deletedAt ∧ e'.leadId = e.leadId ∧
      e'.managerId = e.managerId ∧ e'.partnerId = e.partnerId ∧ e'.members = e.members ∧
      e'.stakeholders = e.stakeholders ∧ e'.stage = t.toState := by
  unfold transitioned
  dsimp only
  split
  · split <;> exact ⟨rfl, rfl, rfl, rfl, rfl, rfl, rfl, rfl, rfl⟩
  all_goals exact ⟨rfl, rfl, rfl, rfl, rfl, rfl, rfl, rfl, rfl⟩

/-- A user who may see an engagement may see it after its transition. -/
theorem Moved.accessible {R : Db → Db → Prop} {s : Db} {ctx : Ctx} {id : Uuid} {dto : TransitionDto}
    {t : Transition EngagementStage} {engagement e : Engagement} {s₁ s₂ : Db}
    (h : Moved R s ctx id dto t engagement e s₁ s₂) (haccess : Accessible ctx id s₁) : Accessible ctx id s₂ := by
  obtain ⟨e', hfound, hscope⟩ := haccess
  obtain ⟨hrow, hsees, hdeleted⟩ := Ctx.findById_eq_some.mp hfound
  rw [h.row, Option.some.injEq] at hrow
  subst hrow
  obtain ⟨htenant, -, hdel, hlead, hmanager, hpartner, hmembers, hstakeholders, -⟩ :=
    transitioned_kept ctx t engagement e
  refine ⟨_, Ctx.findById_eq_some.mpr ⟨by rw [h.rows, if_pos rfl], ?_, ?_⟩, ?_⟩
  · rw [Ctx.sees_iff_tenant rfl] at hsees ⊢
    exact htenant.trans hsees
  · rw [hdel]
    exact hdeleted
  · refine engagementScope_mono ?_ ?_ hlead hmanager hpartner ?_ hstakeholders hscope
    · rw [h.rest]
    · rw [h.rest]
    · rw [hmembers]
      exact fun _ hu => hu

/-! ### The methods -/

/-- What is left of `transition` once it has read the row. -/
def proceed (ctx : Ctx) (id : Uuid) (dto : TransitionDto) (engagement : Engagement) : Service EngagementResponse := do
  let t ← workflowTransition guardRegistry EngagementStage.text engagementWorkflow engagement.stage
    ⟨(id, engagement), ctx, dto.action, dto.comment.orNull⟩ []
  let updated ← transitionTransaction ctx id dto t engagement
  afterTransition ctx id dto updated.row.2 t
  get ctx id

theorem transition_eq (ctx : Ctx) (id : Uuid) (dto : TransitionDto) :
    transition ctx id dto =
      ObjectAccess.assertEngagement ctx id >>= fun _ => assertEngagement ctx id >>= proceed ctx id dto := rfl

theorem counts_quiet (ctx : Ctx) (id : Uuid) : (counts ctx id).Within Quiet := by
  have hread : ∀ {α β : Type} {f : Db → α} {k : α → Service β}, (∀ a, (k a).Within Quiet) →
      (Prog.read f >>= k).Within Quiet := fun h => (Prog.within_read _ Quiet.refl).bind h
  unfold counts
  exact hread fun _ => hread fun _ => hread fun _ => hread fun _ => hread fun _ => hread fun _ => hread fun _ =>
    hread fun _ => hread fun _ => Prog.within_pure _

theorem afterTransition_quiet (ctx : Ctx) (id : Uuid) (dto : TransitionDto) (updated : Engagement)
    (t : Transition EngagementStage) : (afterTransition ctx id dto updated t).Within Quiet :=
  (auditRecord_quiet ctx _ _ id).bind fun _ => notifyMany_quiet ctx _ _

/-- The guards that the transitions name. -/
theorem engagementWorkflow_guards : ∀ t ∈ engagementWorkflow.transitions, ∀ guard ∈ t.guards,
    guard ∈ ["has_objectives_and_scope", "has_lead", "programme_approved", "all_workpapers_prepared",
      "all_workpapers_signed_off", "no_open_review_notes", "all_findings_agreed_or_accepted",
      "all_findings_owned_and_submitted"] := by
  decide

section Methods

variable {R G : Db → Db → Prop} (hR : Interference Aside R)

include hR

/-- A program that changes only what is aside. -/
theorem meets_aside {α : Type} {p : Service α} (hp : p.Within Quiet) (hG : ∀ a b, Aside a b → G a b) (s : Db) :
    p.Meets R G (fun r s' => (∃ a, r = .ok a) ∧ R s s') s :=
  (hp.mono fun _ _ => Aside.of_quiet).meets hG hR.aside hR.refl hR.trans s

/-- A guard that first looks whether there are workpapers. -/
theorem checks_workpapers (hG : ∀ s, G s s) (ctx : Ctx) (id : Uuid) (p : Workpaper → Bool) (message : ℕ → String) :
    Checks R G (fun db => (∃ db₀, R db₀ db ∧ 0 < workpaperCount ctx db₀ id fun _ => true) ∧ workpaperCount ctx db id p = 0)
      (do
        let total ← .read fun db => workpaperCount ctx db id fun _ => true
        let rest ← .read fun db => workpaperCount ctx db id p
        if total = 0 then pure ⟨false, "No workpapers have been created"⟩ else pure ⟨rest = 0, message rest⟩) := by
  intro s
  rw [Prog.meets_read_bind]
  refine fun s₁ h₁ => ⟨hG s₁, ?_⟩
  rw [Prog.meets_read_bind]
  refine fun s₂ h₂ => ⟨hG s₂, ?_⟩
  have h02 := hR.trans _ _ _ h₁ h₂
  rw [Prog.meets_ite]
  split
  · exact ⟨_, rfl, h02, fun h => by cases h⟩
  · rename_i htotal
    refine ⟨_, rfl, h02, fun h => ⟨s₂, h02, hR.refl s₂, ⟨s₁, h₂, Nat.pos_of_ne_zero htotal⟩, ?_⟩⟩
    simpa using h

/-- Each guard of the workflow is registered, and says what `guardHolds` says. -/
theorem guards_checked (hG : ∀ s, G s s) (ctx : Ctx) (id : Uuid) (e : Engagement) (action : String)
    (comment : Option String) (t : Transition EngagementStage) (ht : t ∈ engagementWorkflow.transitions)
    (guard : String) (hguard : guard ∈ t.guards ++ []) :
    ∃ fn, guardRegistry.get engagementWorkflow.name guard = some fn ∧
      Checks R G (guardHolds R ctx id e guard) (fn ⟨(id, e), ctx, action, t.fromState, t.toState, comment⟩) := by
  rw [List.append_nil] at hguard
  have hcases := engagementWorkflow_guards t ht guard hguard
  simp only [List.mem_cons, List.not_mem_nil, or_false] at hcases
  rcases hcases with rfl | rfl | rfl | rfl | rfl | rfl | rfl | rfl
  · refine ⟨_, rfl, checks_pure hR.refl fun h _ => ?_⟩
    simpa [guardHolds] using h
  · refine ⟨_, rfl, checks_pure hR.refl fun h _ => ?_⟩
    simpa [guardHolds] using h
  · refine ⟨_, rfl, checks_read hR.refl hG fun s h => ?_⟩
    simpa [guardHolds] using h
  · exact ⟨_, rfl, checks_workpapers hR hG ctx id _ fun drafts => s!"{drafts} workpaper(s) still in draft"⟩
  · exact ⟨_, rfl, checks_workpapers hR hG ctx id _ fun pending => s!"{pending} workpaper(s) not yet signed off"⟩
  · refine ⟨_, rfl, checks_read hR.refl hG fun s h => ?_⟩
    simpa [guardHolds] using h
  · refine ⟨_, rfl, checks_read hR.refl hG fun s h => ?_⟩
    simpa [guardHolds] using h
  · refine ⟨_, rfl, checks_read hR.refl hG fun s h => ?_⟩
    simp only [Bool.and_eq_true, decide_eq_true_eq, List.length_eq_zero_iff, List.filter_eq_nil_iff] at h
    intro f hf
    exact ⟨by simpa using h.1 f hf, by simpa using h.2 f hf⟩

omit hR in
theorem assertEngagement_meets (hG : ∀ s, G s s) (ctx : Ctx) (id : Uuid) (s : Db) :
    (assertEngagement ctx id).Meets R G (fun r s' => R s s' ∧
      ∀ e, r = .ok e → ctx.findById s'.engagements id (·.deletedAt.isNone) = some e) s := by
  unfold assertEngagement
  rw [Prog.meets_read_bind]
  refine fun s' hs' => ⟨hG s', ?_⟩
  split
  · exact ⟨hs', fun _ h => by cases h⟩
  · rename_i e he
    refine ⟨hs', fun _ h => ?_⟩
    cases h
    exact he

omit hR in
theorem accessEngagement_meets (hG : ∀ s, G s s) (ctx : Ctx) (id : Uuid) (s : Db) :
    (ObjectAccess.assertEngagement ctx id).Meets R G
      (fun r s' => R s s' ∧ ((∃ u, r = .ok u) → Accessible ctx id s')) s := by
  unfold ObjectAccess.assertEngagement
  rw [Prog.meets_read_bind]
  refine fun s' hs' => ⟨hG s', ?_⟩
  rw [Prog.meets_ite]
  split
  · exact ⟨hs', fun ⟨_, h⟩ => by cases h⟩
  · rename_i hcount
    exact ⟨hs', fun _ => accessible_iff_count.mp hcount⟩

/-! ### Creation -/

theorem insertNumbered_meets (ctx : Ctx) (dto : CreateEngagementDto) (year : ℕ) {s : Db} (hG : ∀ s, G s s)
    (hinsert : ∀ id historyId auditNumber s₁ s₂, Created R s ctx dto year id historyId auditNumber s₁ s₂ → G s₁ s₂)
    (left : ℕ) : ∀ s₀, R s s₀ → Found ctx Db.entities dto.entityId (fun _ e => e.deletedAt.isNone) R s s₀ →
      (insertNumbered ctx dto year left).Meets R G (fun r s' => ((∃ e, r = .error e) ∧ R s s') ∨
        ∃ id historyId auditNumber s₁, R s s₁ ∧ Created R s ctx dto year id historyId auditNumber s₁ s' ∧
          r = .ok (id, newEngagement ctx dto auditNumber)) s₀ := by
  induction left with
  | zero => exact fun _ h₀ _ => .inl ⟨⟨_, rfl⟩, h₀⟩
  | succ left ih =>
    intro s₀ h₀ hentity
    unfold insertNumbered
    rw [Prog.meets_read_bind]
    refine fun s₁ h₁ => ⟨hG s₁, ?_⟩
    have h01 := hR.trans _ _ _ h₀ h₁
    split
    · exact .inl ⟨⟨_, rfl⟩, h01⟩
    rename_i auditNumber hnumber
    rw [Prog.meets_catching]
    refine Prog.meets_of_transaction fun s₂ h₂ r s₃ hrun => ?_
    have h02 := hR.trans _ _ _ h01 h₂
    have hentity₂ := (hentity.later hR.trans h₁).later hR.trans h₂
    rcases r with e | a
    · have : s₃ = s₂ := Prog.atomic_call _ _ _ _ hrun
      subst this
      refine ⟨hG s₃, ?_⟩
      dsimp only
      rw [Prog.meets_ite]
      split
      · exact ih s₃ h02 hentity₂
      · exact .inl ⟨⟨_, rfl⟩, h02⟩
    · obtain ⟨rfl, hc, hfresh, hrows, happended, hrest⟩ := insertEngagement_ok hrun
      have hcreated : Created R s ctx dto year _ _ auditNumber s₂ s₃ :=
        ⟨hentity₂, ⟨s₁, h01, h₂, hnumber⟩, hc, hfresh, hrows, happended, hrest⟩
      exact ⟨hinsert _ _ _ s₂ s₃ hcreated, .inr ⟨_, _, _, s₂, h02, hcreated, rfl⟩⟩

theorem create_meets (ctx : Ctx) (dto : CreateEngagementDto) (s : Db) :
    (create ctx dto).Meets R (Call R s (.create ctx dto)) (Done Aside R (Commit R s (.create ctx dto)) s) s := by
  have hG : ∀ s', Call R s (.create ctx dto) s' s' := fun s' => .inl (Aside.refl s')
  unfold create
  rw [Prog.meets_bind]
  refine (assertRelated_meets hR.refl hG _ s).mono ?_
  rintro (e | u) s₀ ⟨h₀, hentity⟩
  · exact .failed e h₀
  dsimp only
  rw [Prog.meets_bind]
  refine (insertNumbered_meets hR ctx dto _ hG (fun _ _ _ _ _ h => .inr (.create h)) 5 s₀ h₀ (hentity ⟨u, rfl⟩)).mono ?_
  rintro (e | created) s₂ (⟨⟨e', he⟩, h₂⟩ | ⟨id, historyId, auditNumber, s₁, h₁, hcreated, heq⟩)
  · exact .failed e h₂
  · cases heq
  · cases he
  cases heq
  refine (meets_aside hR ?_ (fun _ _ => .inl) s₂).mono fun r s' ⟨hok, hs'⟩ =>
    .inr ⟨s₁, s₂, h₁, .create hcreated, hs', fun _ => hok⟩
  exact (auditRecord_quiet ctx _ _ _).bind fun _ => (notifyMany_quiet ctx _ _).bind fun _ => Prog.within_pure _

/-! ### Editing -/

theorem assertReport_meets (hG : ∀ a b, Aside a b → G a b) (ctx : Ctx) (id : Uuid) (before : Engagement)
    (reportDocumentId : Field Uuid) (s : Db) :
    (assertReport ctx id before reportDocumentId).Meets R G (fun r s' => R s s' ∧
      ((∃ u, r = .ok u) → reportDocumentId.isSome = true → before.stage ≠ .closed)) s := by
  have hGrefl : ∀ s, G s s := fun s => hG _ _ (Aside.refl s)
  unfold assertReport
  cases reportDocumentId with
  | none => exact ⟨hR.refl s, fun _ h => by cases h⟩
  | some documentId =>
    dsimp only
    rw [Prog.meets_ite]
    split
    · exact ⟨hR.refl s, fun ⟨_, h⟩ => by cases h⟩
    rename_i hopen
    cases documentId with
    | none => exact ⟨hR.refl s, fun _ _ => hopen⟩
    | some documentId =>
      dsimp only [Documents.assertDocument, ObjectAccess.assertDocument]
      rw [Prog.meets_bind, Prog.meets_bind, Prog.meets_bind]
      refine (meets_aside hR (ObjectAccess.documentScope_quiet ctx) hG s).mono ?_
      rintro _ s₁ ⟨⟨scope, rfl⟩, h₁⟩
      dsimp only
      rw [Prog.meets_read_bind]
      refine fun s₂ h₂ => ⟨hGrefl s₂, ?_⟩
      have h02 := hR.trans _ _ _ h₁ h₂
      rw [Prog.meets_ite]
      split
      · exact ⟨h02, fun ⟨_, h⟩ => by cases h⟩
      rw [Prog.meets_pure]
      dsimp only
      rw [Prog.meets_read_bind]
      refine fun s₃ h₃ => ⟨hGrefl s₃, ?_⟩
      have h03 := hR.trans _ _ _ h02 h₃
      split
      · exact ⟨h03, fun ⟨_, h⟩ => by cases h⟩
      split
      · exact ⟨h03, fun ⟨_, h⟩ => by cases h⟩
      rw [Prog.meets_pure]
      dsimp only
      rw [Prog.meets_ite]
      split
      · exact ⟨h03, fun ⟨_, h⟩ => by cases h⟩
      · exact ⟨h03, fun _ _ => hopen⟩

omit hR in
/-- The engagement is there, and so is the user who is named. -/
def Assignable (id : Uuid) (userId : Field Uuid) (s : Db) : Prop :=
  refersTo s.engagements (some id) = true ∧ refersTo s.users userId.orNull = true

omit hR in
theorem Assignable.aside {id : Uuid} {userId : Field Uuid} {a b : Db} (h : Assignable id userId a) (haside : Aside a b) :
    Assignable id userId b := by
  obtain ⟨hengagement, huser⟩ := h
  refine ⟨?_, by rw [haside.rest]; exact huser⟩
  obtain ⟨e, he⟩ := Option.isSome_iff_exists.mp hengagement
  obtain ⟨e', he', -⟩ := haside.row_after he
  simp [refersTo, he']

/-- A user who can be assigned is. -/
theorem assign_meets (hG : ∀ a b, Aside a b → G a b) (ctx : Ctx) (id : Uuid) (role : String) (userId : Field Uuid)
    (before : Option Uuid) (after : Engagement) (s : Db) :
    (assign ctx id role userId before after).Meets R G (fun r s' => R s s' ∧
      ((∀ a b, R a b → Aside a b) → Assignable id userId s → ∃ u, r = .ok u)) s := by
  unfold assign
  split
  · exact ⟨hR.refl s, fun _ _ => ⟨_, rfl⟩⟩
  rename_i u hu
  rw [Prog.meets_ite]
  split
  · exact ⟨hR.refl s, fun _ _ => ⟨_, rfl⟩⟩
  rw [Prog.meets_bind]
  refine Prog.meets_of_call fun s₁ h₁ r s₂ hrun => ?_
  rcases r with e | _
  · have hsame : s₂ = s₁ := Prog.atomic_call _ _ _ _ hrun
    subst hsame
    refine ⟨hG _ _ (Aside.refl s₂), h₁, fun haside hassignable => ?_⟩
    obtain ⟨hengagement, huser⟩ := hassignable.aside (haside _ _ h₁)
    rw [hu] at huser
    simp [hengagement, huser] at hrun
  · have hupsert := upsertMember_ok hrun
    refine ⟨hG _ _ hupsert, ?_⟩
    refine (meets_aside hR (notify_quiet ctx _ _) hG s₂).mono fun r s' ⟨hok, hs'⟩ => ⟨?_, fun _ _ => hok⟩
    exact hR.trans _ _ _ h₁ (hR.trans _ _ _ (hR.aside _ _ hupsert) hs')

omit hR in
/-- What an edit makes of the users who are named for a role. -/
theorem apply_roles {dto : UpdateEngagementDto} {e e' : Engagement} (h : dto.apply e = .ok e') :
    e'.leadId = dto.leadId.onNullable e.leadId ∧ e'.managerId = dto.managerId.onNullable e.managerId ∧
      e'.partnerId = dto.partnerId.onNullable e.partnerId := by
  unfold UpdateEngagementDto.apply at h
  split at h
  · cases h
    exact ⟨rfl, rfl, rfl⟩
  · cases h

omit hR in
/-- After an edit the users whom it names can be assigned. -/
theorem assignable_of_updated {s : Db} {ctx : Ctx} {id : Uuid} {dto : UpdateEngagementDto} {before e e' : Engagement}
    {s₁ s₂ : Db} (h : Updated R s ctx id dto before e e' s₁ s₂) :
    Assignable id dto.leadId s₂ ∧ Assignable id dto.managerId s₂ ∧ Assignable id dto.partnerId s₂ := by
  have hengagement : refersTo s₂.engagements (some id) = true := by
    simp [refersTo, h.rows]
  have husers : s₂.users = s₁.users := by rw [h.rest]
  have hnamed : ∀ {given : Field Uuid} {old : Option Uuid}, refersTo s₁.users (given.onNullable old) = true →
      refersTo s₂.users given.orNull = true := by
    intro given old hrefers
    rw [husers]
    cases given with
    | none => rfl
    | some v => exact hrefers
  have hrefers := h.admitted
  unfold constrained at hrefers
  split at hrefers
  · cases hrefers
  split at hrefers
  · rename_i hall
    obtain ⟨hlead, hmanager, hpartner⟩ := apply_roles h.change
    rw [hlead, hmanager, hpartner] at hall
    simp only [Bool.and_eq_true] at hall
    obtain ⟨⟨⟨-, hlead⟩, hmanager⟩, hpartner⟩ := hall
    exact ⟨⟨hengagement, hnamed hlead⟩, ⟨hengagement, hnamed hmanager⟩, ⟨hengagement, hnamed hpartner⟩⟩
  · cases hrefers

theorem update_meets (ctx : Ctx) (id : Uuid) (dto : UpdateEngagementDto) (s : Db) :
    (update ctx id dto).Meets R (Call R s (.update ctx id dto)) (Done Aside R (Commit R s (.update ctx id dto)) s) s := by
  have hG : ∀ a b, Aside a b → Call R s (.update ctx id dto) a b := fun _ _ => .inl
  have hGrefl : ∀ a, Call R s (.update ctx id dto) a a := fun a => .inl (Aside.refl a)
  unfold update
  rw [Prog.meets_bind]
  refine (assertEngagement_meets hGrefl ctx id s).mono ?_
  rintro (e | before) s₀ ⟨h₀, hread⟩
  · exact .failed e h₀
  dsimp only
  rw [Prog.meets_bind]
  refine (assertReport_meets hR hG ctx id before dto.reportDocumentId s₀).mono ?_
  rintro (e | u) s₁ ⟨h₁, hreport⟩
  · exact .failed e (hR.trans _ _ _ h₀ h₁)
  have h01 := hR.trans _ _ _ h₀ h₁
  dsimp only
  rw [Prog.meets_ite]
  split
  · exact .failed _ h01
  rename_i hstatus
  refine meets_commit hR h01 hGrefl (fun _ _ => .inr) ?_ ?_
  · intro s₂ s₃ v h₂ hrun
    obtain ⟨e, e', hfind, hsees, hchange, hc, -, hrows, hrest⟩ := updateEngagement_ok hrun
    exact .update (show Updated R s ctx id dto before e e' s₂ s₃ from {
      read := ⟨s₀, h₀, hR.trans _ _ _ h₁ h₂, hread before rfl⟩
      report := hreport ⟨u, rfl⟩
      status := fun status h => by
        rw [h] at hstatus
        simp only [Field.orNull, Option.join_some, Option.any_some, decide_eq_true_eq] at hstatus
        have : ¬status = .active → status = .onHold := by simpa using hstatus
        tauto
      row := hfind
      sees := hsees
      change := hchange
      admitted := hc
      rows := hrows
      rest := hrest })
  intro s₂ s₃ v _ hcommit _
  have hassignable : Assignable id dto.leadId s₃ ∧ Assignable id dto.managerId s₃ ∧ Assignable id dto.partnerId s₃ := by
    cases hcommit with
    | update h => exact assignable_of_updated h
  rw [Prog.meets_bind]
  refine (meets_aside hR (auditRecord_quiet ctx _ _ _) hG s₃).mono ?_
  rintro _ s₄ ⟨⟨_, rfl⟩, h₄⟩
  dsimp only
  rw [Prog.meets_bind]
  refine (assign_meets hR hG ctx id _ _ _ _ s₄).mono ?_
  rintro (e | u₁) s₅ ⟨h₅, hlead⟩
  · refine ⟨hR.trans _ _ _ h₄ h₅, fun haside => ?_⟩
    obtain ⟨_, hfail⟩ := hlead haside (hassignable.1.aside (haside _ _ h₄))
    cases hfail
  have h35 := hR.trans _ _ _ h₄ h₅
  dsimp only
  rw [Prog.meets_bind]
  refine (assign_meets hR hG ctx id _ _ _ _ s₅).mono ?_
  rintro (e | u₂) s₆ ⟨h₆, hmanager⟩
  · refine ⟨hR.trans _ _ _ h35 h₆, fun haside => ?_⟩
    obtain ⟨_, hfail⟩ := hmanager haside (hassignable.2.1.aside (haside _ _ h35))
    cases hfail
  have h36 := hR.trans _ _ _ h35 h₆
  dsimp only
  rw [Prog.meets_bind]
  refine (assign_meets hR hG ctx id _ _ _ _ s₆).mono ?_
  rintro (e | u₃) s₇ ⟨h₇, hpartner⟩
  · refine ⟨hR.trans _ _ _ h36 h₇, fun haside => ?_⟩
    obtain ⟨_, hfail⟩ := hpartner haside (hassignable.2.2.aside (haside _ _ h36))
    cases hfail
  · exact ⟨hR.trans _ _ _ h36 h₇, fun _ => ⟨_, rfl⟩⟩

/-! ### Transitions -/

/-- The final query of a transition succeeds if the engagement is there and others change
only what is aside. -/
theorem get_meets (hG : ∀ a b, Aside a b → G a b) (ctx : Ctx) (id : Uuid) (s : Db) :
    (get ctx id).Meets R G (fun r s' => R s s' ∧
      ((∀ a b, R a b → Aside a b) → Accessible ctx id s → ∃ a, r = .ok a)) s := by
  have hGrefl : ∀ s, G s s := fun s => hG _ _ (Aside.refl s)
  unfold get ObjectAccess.assertEngagement
  rw [Prog.meets_bind, Prog.meets_read_bind]
  refine fun s₀ h₀ => ⟨hGrefl s₀, ?_⟩
  rw [Prog.meets_ite]
  split
  · rename_i hcount
    exact ⟨h₀, fun haside haccess => absurd hcount (accessible_iff_count.mpr (haccess.aside (haside _ _ h₀)))⟩
  rw [Prog.meets_pure]
  dsimp only
  rw [Prog.meets_read_bind]
  refine fun s₁ h₁ => ⟨hGrefl s₁, ?_⟩
  have h01 := hR.trans _ _ _ h₀ h₁
  split
  · rename_i hnone
    refine ⟨h01, fun haside haccess => ?_⟩
    obtain ⟨e, hfound, -⟩ := haccess.aside (haside _ _ h01)
    rw [hfound] at hnone
    cases hnone
  rename_i detailed hdetailed
  obtain ⟨e, hfound, rfl⟩ := Option.map_eq_some_iff.mp hdetailed
  rw [Prog.meets_bind]
  refine (meets_aside hR (counts_quiet ctx id) hG s₁).mono ?_
  rintro _ s₂ ⟨⟨counted, rfl⟩, h₂⟩
  dsimp only
  rw [Prog.meets_read_bind]
  refine fun s₃ h₃ => ⟨hGrefl s₃, ?_⟩
  rw [Prog.meets_bind]
  refine (availableActions_meets hR.refl hR.trans (P := fun _ => guardHolds R ctx id e)
    (fun t ht guard hguard => guards_checked hR hGrefl ctx id e t.action none t ht guard hguard) s₃).mono ?_
  rintro _ s₄ ⟨actions, rfl, h₄⟩
  exact ⟨hR.trans _ _ _ h01 (hR.trans _ _ _ h₂ (hR.trans _ _ _ h₃ h₄)), fun _ _ => ⟨_, rfl⟩⟩

/-- **After the row has been read**: the transition of this row is committed, or nothing is. -/
theorem proceed_meets {ctx : Ctx} {id : Uuid} {dto : TransitionDto} {engagement : Engagement} {C : Db → Db → Prop}
    {s s₀ : Db} (h₀ : R s s₀) (hfound : ctx.findById s₀.engagements id (·.deletedAt.isNone) = some engagement)
    (haccess : ∃ sₐ, R sₐ s₀ ∧ Accessible ctx id sₐ) (hG : ∀ a b, Aside a b → G a b) (hCG : ∀ a b, C a b → G a b)
    (hC : ∀ t e s₁ s₂, Moved R s ctx id dto t engagement e s₁ s₂ → C s₁ s₂) :
    (proceed ctx id dto engagement).Meets R G (Done Aside R C s) s₀ := by
  have hGrefl : ∀ s, G s s := fun s => hG _ _ (Aside.refl s)
  unfold proceed
  rw [Prog.meets_bind]
  refine (AuditSphere.transition_meets hR.refl hR.trans (P := guardHolds R ctx id engagement)
    (fun t ht guard hguard =>
      guards_checked hR hGrefl ctx id engagement dto.action dto.comment.orNull t ht guard hguard)
    s₀).mono ?_
  rintro (e | t) s₁ ⟨h₁, hpassed⟩
  · exact .failed e (hR.trans _ _ _ h₀ h₁)
  obtain ⟨hdeclared, hpermitted, hguards⟩ := hpassed t rfl
  have hmoves : ∀ s₂ s₃ v, R s₁ s₂ → (transitionTransaction ctx id dto t engagement).run s₂ = (.ok v, s₃) →
      ∃ e, Moved R s ctx id dto t engagement e s₂ s₃ := by
    intro s₂ s₃ v h₂ hrun
    obtain ⟨e, hfind, hsees, hc, hrows, happended, hrest⟩ := transitionTransaction_ok hrun
    exact ⟨e, {
      read := ⟨s₀, h₀, hR.trans _ _ _ h₁ h₂, hfound⟩
      declared := hdeclared
      permitted := hpermitted
      guards := fun guard hguard => by
        obtain ⟨sg, hg₁, hg₂, hholds⟩ := hguards guard (List.mem_append_left _ hguard)
        exact ⟨sg, hR.trans _ _ _ h₀ hg₁, hR.trans _ _ _ hg₂ h₂, hholds⟩
      row := hfind
      sees := hsees
      admitted := hc
      rows := hrows
      appended := happended
      rest := hrest }⟩
  dsimp only
  refine meets_commit hR (hR.trans _ _ _ h₀ h₁) hGrefl hCG ?_ ?_
  · intro s₂ s₃ v h₂ hrun
    obtain ⟨e, hmoved⟩ := hmoves s₂ s₃ v h₂ hrun
    exact hC t e s₂ s₃ hmoved
  intro s₂ s₃ v h₂ _ hrun
  obtain ⟨e, hmoved⟩ := hmoves s₂ s₃ v h₂ hrun
  obtain ⟨sₐ, hₐ, haccess⟩ := haccess
  rw [Prog.meets_bind]
  refine (meets_aside hR (afterTransition_quiet ctx id dto v.row.2 t) hG s₃).mono ?_
  rintro _ s₄ ⟨⟨_, rfl⟩, h₄⟩
  refine (get_meets hR hG ctx id s₄).mono fun r s' ⟨h', hend⟩ => ?_
  refine ⟨hR.trans _ _ _ h₄ h', fun haside => hend haside ?_⟩
  refine (hmoved.accessible (haccess.aside (haside _ _ ?_))).aside (haside _ _ h₄)
  exact hR.trans _ _ _ hₐ (hR.trans _ _ _ h₁ h₂)

theorem transition_meets (ctx : Ctx) (id : Uuid) (dto : TransitionDto) (s : Db) :
    (transition ctx id dto).Meets R (Call R s (.transition ctx id dto))
      (Done Aside R (Commit R s (.transition ctx id dto)) s) s := by
  have hG : ∀ s', Call R s (.transition ctx id dto) s' s' := fun s' => .inl (Aside.refl s')
  rw [transition_eq, Prog.meets_bind]
  refine (accessEngagement_meets hG ctx id s).mono ?_
  rintro (e | u) sₐ ⟨hₐ, haccess⟩
  · exact .failed e hₐ
  dsimp only
  rw [Prog.meets_bind]
  refine (assertEngagement_meets hG ctx id sₐ).mono ?_
  rintro (e | engagement) s₀ ⟨h₀, hread⟩
  · exact .failed e (hR.trans _ _ _ hₐ h₀)
  exact proceed_meets hR (hR.trans _ _ _ hₐ h₀) (hread engagement rfl) ⟨sₐ, h₀, haccess ⟨u, rfl⟩⟩ (fun _ _ => .inl)
    (fun _ _ => .inr) fun _ _ _ _ => .transition

/-- **What a request does**, whatever comes between its calls. -/
theorem serve_meets (r : Request) (s : Db) : (serve r).Meets R (Call R s r) (Done Aside R (Commit R s r) s) s := by
  unfold serve
  rw [Prog.meets_ite]
  split
  · exact .failed _ (hR.refl s)
  cases r with
  | create ctx dto => exact meets_map (create_meets hR ctx dto s) _
  | update ctx id dto => exact meets_map (update_meets hR ctx id dto s) _
  | transition ctx id dto => exact meets_map (transition_meets hR ctx id dto s) _

end Methods

end AuditSphere.Engagements
