import AuditSphere.Db.Requests
import AuditSphere.Findings.Service

/-!
# What a request for a finding does

Each request makes at most one call that matters: `create` inserts a finding with the
first entry of its history (`Created`), `update` changes one (`Updated`). The other
calls change only the audit trail and the notifications (`Quiet`). `serve_meets` says
so for any interference by others.
-/

namespace AuditSphere.Findings

open Prisma Theory Shared

/-! ### Commits -/

/-- The action owner that is given is an active user of the tenant. -/
def OwnerFound (R : Db → Db → Prop) (s : Db) (ctx : Ctx) (actionOwnerId : Field Uuid) (s₁ : Db) : Prop :=
  Found ctx Db.users actionOwnerId (fun _ u => u.status = .active && u.deletedAt.isNone) R s s₁

/-- The evidence that is given is on the engagement. -/
def EvidenceFound (R : Db → Db → Prop) (s : Db) (ctx : Ctx) (engagementId : Uuid) (evidenceIds : Field (List Uuid))
    (s₁ : Db) : Prop :=
  ∀ ids, evidenceIds.orNull = some ids → ∃ s₀, R s s₀ ∧ R s₀ s₁ ∧ ∀ i ∈ ids, ∃ e,
    s₀.evidence.find i = some e ∧ ctx.sees e = true ∧ e.engagementId = engagementId

/-- What `create` has checked. -/
structure CreateChecked (R : Db → Db → Prop) (s : Db) (ctx : Ctx) (dto : CreateFindingDto) (engagement : Engagement)
    (s₁ : Db) : Prop where
  since : R s s₁
  opened : engagement.stage ≠ .closed
  read : ∃ s₀, R s s₀ ∧ R s₀ s₁ ∧
    ctx.findById s₀.engagements dto.engagementId (·.deletedAt.isNone) = some engagement
  owner : OwnerFound R s ctx dto.actionOwnerId s₁
  workpaper : Found ctx Db.workpapers dto.workpaperId
    (fun _ w => w.engagementId = dto.engagementId && w.deletedAt.isNone) R s s₁
  repeated : Found ctx Db.findings dto.repeatOfId (fun _ f => f.deletedAt.isNone) R s s₁

/-- A new finding. -/
structure Created (R : Db → Db → Prop) (s : Db) (ctx : Ctx) (dto : CreateFindingDto) (engagement : Engagement)
    (id historyId : Uuid) (reference : String) (s₁ s₂ : Db) : Prop where
  checked : CreateChecked R s ctx dto engagement s₁
  numbered : ∃ s₀, R s s₀ ∧ R s₀ s₁ ∧ reference = nextFindingReference (latestReference ctx s₀ dto.engagementId)
  admitted : constrained s₁ id (newFinding ctx dto engagement reference) = .ok ()
  fresh : s₁.findings.find id = none
  rows : ∀ j, s₂.findings.find j =
    if j = id then some (newFinding ctx dto engagement reference) else s₁.findings.find j
  freshEntry : s₁.findingHistory.find historyId = none
  entries : ∀ j, s₂.findingHistory.find j = if j = historyId then some (raised ctx id) else s₁.findingHistory.find j
  appended : s₂.findingHistory.entries = (historyId, raised ctx id) :: s₁.findingHistory.entries
  rest : s₂ = { s₁ with findings := s₂.findings, findingHistory := s₂.findingHistory }

/-- A changed finding: the row `before` was read and checked, the row `f` is changed. -/
structure Updated (R : Db → Db → Prop) (s : Db) (ctx : Ctx) (id : Uuid) (dto : UpdateFindingDto)
    (before f f' : Finding) (s₁ s₂ : Db) : Prop where
  since : R s s₁
  read : ∃ s₀, R s s₀ ∧ R s₀ s₁ ∧ ctx.findById s₀.findings id (·.deletedAt.isNone) = some before
  editable : assertEditable ctx before dto = .ok ()
  owner : OwnerFound R s ctx dto.actionOwnerId s₁
  evidence : EvidenceFound R s ctx before.engagementId dto.evidenceIds s₁
  row : s₁.findings.find id = some f
  sees : ctx.sees f = true
  change : dto.apply f = .ok f'
  admitted : constrained s₁ id f' = .ok ()
  rows : ∀ j, s₂.findings.find j = if j = id then some f' else s₁.findings.find j
  rest : s₂ = { s₁ with findings := s₂.findings }

/-- A call of a request. -/
inductive Call (R : Db → Db → Prop) (s : Db) : Request → Db → Db → Prop where
  | quiet {r s₁ s₂} (h : Quiet s₁ s₂) : Call R s r s₁ s₂
  | create {ctx dto engagement id historyId reference s₁ s₂}
    (h : Created R s ctx dto engagement id historyId reference s₁ s₂) : Call R s (.create ctx dto) s₁ s₂
  | update {ctx id dto before f f' s₁ s₂} (h : Updated R s ctx id dto before f f' s₁ s₂) :
    Call R s (.update ctx id dto) s₁ s₂

/-- The commit of a request. -/
inductive Commit (R : Db → Db → Prop) (s : Db) : Request → Db → Db → Prop where
  | create {ctx dto engagement id historyId reference s₁ s₂}
    (h : Created R s ctx dto engagement id historyId reference s₁ s₂) : Commit R s (.create ctx dto) s₁ s₂
  | update {ctx id dto before f f' s₁ s₂} (h : Updated R s ctx id dto before f f' s₁ s₂) :
    Commit R s (.update ctx id dto) s₁ s₂

theorem Commit.call {R : Db → Db → Prop} {s : Db} {r : Request} {s₁ s₂ : Db} (h : Commit R s r s₁ s₂) :
    Call R s r s₁ s₂ := by
  cases h with
  | create h => exact .create h
  | update h => exact .update h

/-! ### The writes -/

theorem insertFinding_ok {id historyId : Uuid} {f : Finding} {h : FindingStatusHistory} {s s' : Db}
    {a : WithId Finding} (hrun : (insertFinding id historyId f h).run s = (.ok a, s')) :
    a = (id, f) ∧ constrained s id f = .ok () ∧
      (s.findings.find id = none ∧ ∀ j, s'.findings.find j = if j = id then some f else s.findings.find j) ∧
      (s.findingHistory.find historyId = none ∧
        ∀ j, s'.findingHistory.find j = if j = historyId then some h else s.findingHistory.find j) ∧
      s'.findingHistory.entries = (historyId, h) :: s.findingHistory.entries ∧
      s' = { s with findings := s'.findings, findingHistory := s'.findingHistory } := by
  obtain ⟨_, hc, hrun⟩ := Prog.bind_eq_ok.mp (Prog.run_call_ok.mp hrun)
  obtain ⟨t, ht, hrun⟩ := Prog.bind_eq_ok.mp hrun
  obtain ⟨t', ht', hrun⟩ := Prog.bind_eq_ok.mp hrun
  cases hrun
  exact ⟨rfl, hc, insertRow_ok ht, insertRow_ok ht', insertRow_entries ht', rfl⟩

theorem updateFinding_ok {ctx : Ctx} {id : Uuid} {g : Finding → Except HttpError Finding} {s s' : Db}
    {v : FindingView} (hrun : (updateFinding ctx id g).run s = (.ok v, s')) :
    ∃ f f', s.findings.find id = some f ∧ ctx.sees f = true ∧ g f = .ok f' ∧ constrained s id f' = .ok () ∧
      v = view s' (id, f') ∧ (∀ j, s'.findings.find j = if j = id then some f' else s.findings.find j) ∧
      s' = { s with findings := s'.findings } := by
  obtain ⟨⟨f', t⟩, ht, hrun⟩ := Prog.bind_eq_ok.mp (Prog.run_call_ok.mp hrun)
  obtain ⟨_, hc, hrun⟩ := Prog.bind_eq_ok.mp hrun
  cases hrun
  obtain ⟨f, hfind, hsees, hg, hrows⟩ := updateRow_ok ht
  exact ⟨f, f', hfind, hsees, hg, hc, rfl, hrows, rfl⟩

/-! ### The methods -/

/-- The finding is there, and the user may see it. -/
def Accessible (ctx : Ctx) (id : Uuid) (db : Db) : Prop :=
  ∃ f, ctx.findById db.findings id (·.deletedAt.isNone) = some f ∧ ObjectAccess.findingScope ctx db f = true

theorem accessible_iff_count {ctx : Ctx} {id : Uuid} {db : Db} :
    (ctx.count db.findings fun j f => j = id && f.deletedAt.isNone && ObjectAccess.findingScope ctx db f) ≠ 0 ↔
      Accessible ctx id db := by
  unfold Accessible
  simp only [Ctx.count_ne_zero_iff, Ctx.findById_eq_some, Bool.and_eq_true, decide_eq_true_eq]
  constructor
  · rintro ⟨j, f, hfind, hsees, ⟨rfl, hdeleted⟩, hscope⟩
    exact ⟨f, ⟨hfind, hsees, hdeleted⟩, hscope⟩
  · rintro ⟨f, ⟨hfind, hsees, hdeleted⟩, hscope⟩
    exact ⟨id, f, hfind, hsees, ⟨rfl, hdeleted⟩, hscope⟩

section Methods

variable {R G : Db → Db → Prop} (hR : Interference Quiet R)

include hR

/-- A program that changes nothing that matters. -/
theorem meets_quiet {α : Type} {p : Service α} (hp : p.Within Quiet) (hG : ∀ a b, Quiet a b → G a b) (s : Db) :
    p.Meets R G (fun r s' => (∃ a, r = .ok a) ∧ R s s') s :=
  hp.meets hG hR.aside hR.refl hR.trans s

omit hR in
theorem accessFinding_meets (hG : ∀ s, G s s) (ctx : Ctx) (id : Uuid) (s : Db) :
    (ObjectAccess.assertFinding ctx id).Meets R G (fun r s' => R s s' ∧ ((∃ u, r = .ok u) → Accessible ctx id s')) s := by
  unfold ObjectAccess.assertFinding
  rw [Prog.meets_read_bind]
  refine fun s' hs' => ⟨hG s', ?_⟩
  rw [Prog.meets_ite]
  split
  · exact ⟨hs', fun ⟨_, h⟩ => by cases h⟩
  · rename_i hcount
    exact ⟨hs', fun _ => accessible_iff_count.mp hcount⟩

theorem assertFinding_meets (hG : ∀ s, G s s) (ctx : Ctx) (id : Uuid) (s : Db) :
    (assertFinding ctx id).Meets R G (fun r s' => R s s' ∧ ∀ f, r = .ok f →
      ctx.findById s'.findings id (·.deletedAt.isNone) = some f ∧
        ∃ s₀, R s s₀ ∧ R s₀ s' ∧ Accessible ctx id s₀) s := by
  unfold assertFinding
  rw [Prog.meets_bind]
  refine (accessFinding_meets hG ctx id s).mono ?_
  rintro (e | u) s₀ ⟨h₀, haccess⟩
  · exact ⟨h₀, fun f h => by cases h⟩
  dsimp only
  rw [Prog.meets_read_bind]
  refine fun s₁ h₁ => ⟨hG s₁, ?_⟩
  have h01 := hR.trans _ _ _ h₀ h₁
  split
  · exact ⟨h01, fun f h => by cases h⟩
  · rename_i f hf
    refine ⟨h01, fun f' h => ?_⟩
    cases h
    exact ⟨hf, s₀, h₀, h₁, haccess ⟨u, rfl⟩⟩

theorem assertEvidence_meets (hG : ∀ s, G s s) (ctx : Ctx) (engagementId : Uuid) (evidenceIds : Field (List Uuid))
    (s : Db) : (assertEvidence ctx engagementId evidenceIds).Meets R G
      (fun r s' => R s s' ∧ ((∃ u, r = .ok u) → EvidenceFound R s ctx engagementId evidenceIds s')) s := by
  unfold assertEvidence EvidenceFound
  cases evidenceIds.orNull with
  | none => exact ⟨hR.refl s, fun _ ids h => by cases h⟩
  | some ids =>
    dsimp only
    rw [Prog.meets_read_bind]
    refine fun s' hs' => ⟨hG s', ?_⟩
    rw [Prog.meets_ite]
    split
    · refine ⟨hs', ?_⟩
      rintro ⟨_, h⟩
      cases h
    · rename_i hcount
      refine ⟨hs', fun _ ids' hids => ?_⟩
      cases hids
      refine ⟨s', hs', hR.refl s', fun i hi => ?_⟩
      obtain ⟨e, hfind, hsees, hp⟩ := Ctx.found_of_count (not_not.mp hcount) i hi
      exact ⟨e, hfind, hsees, by simpa using hp⟩

theorem CreateChecked.later {ctx : Ctx} {dto : CreateFindingDto} {engagement : Engagement} {s s₁ s₂ : Db}
    (h : CreateChecked R s ctx dto engagement s₁) (h₁₂ : R s₁ s₂) : CreateChecked R s ctx dto engagement s₂ where
  since := hR.trans _ _ _ h.since h₁₂
  opened := h.opened
  read := by
    obtain ⟨s₀, h₀, h₁, hfound⟩ := h.read
    exact ⟨s₀, h₀, hR.trans _ _ _ h₁ h₁₂, hfound⟩
  owner := h.owner.later hR.trans h₁₂
  workpaper := h.workpaper.later hR.trans h₁₂
  repeated := h.repeated.later hR.trans h₁₂

/-- The loop: each attempt reads and then inserts, and a failed insertion changes nothing. -/
theorem insertNumbered_meets (ctx : Ctx) (dto : CreateFindingDto) (engagement : Engagement) {s : Db}
    (hG : ∀ s, G s s) (hinsert : ∀ id historyId reference s₁ s₂,
      Created R s ctx dto engagement id historyId reference s₁ s₂ → G s₁ s₂) (left : ℕ) :
    ∀ s₀, CreateChecked R s ctx dto engagement s₀ →
      (insertNumbered ctx dto engagement left).Meets R G (fun r s' => ((∃ e, r = .error e) ∧ R s s') ∨
        ∃ id historyId reference s₁, Created R s ctx dto engagement id historyId reference s₁ s' ∧
          r = .ok (id, newFinding ctx dto engagement reference)) s₀ := by
  induction left with
  | zero => exact fun _ hchecked => .inl ⟨⟨_, rfl⟩, hchecked.since⟩
  | succ left ih =>
    intro s₀ hchecked
    unfold insertNumbered
    rw [Prog.meets_read_bind]
    refine fun s₁ h₁ => ⟨hG s₁, ?_⟩
    rw [Prog.meets_catching]
    refine Prog.meets_of_call fun s₂ h₂ r s₃ hrun => ?_
    have hchecked₁ := hchecked.later hR h₁
    have hchecked₂ := hchecked₁.later hR h₂
    rcases r with e | a
    · have : s₃ = s₂ := Prog.atomic_call _ _ _ _ hrun
      subst this
      refine ⟨hG s₃, ?_⟩
      dsimp only
      rw [Prog.meets_ite]
      split
      · exact ih s₃ hchecked₂
      · exact .inl ⟨⟨_, rfl⟩, hchecked₂.since⟩
    · obtain ⟨rfl, hc, ⟨hfresh, hrows⟩, ⟨hfreshEntry, hentries⟩, happended, hrest⟩ := insertFinding_ok hrun
      have hcreated : Created R s ctx dto engagement _ _ _ s₂ s₃ :=
        ⟨hchecked₂, ⟨s₁, hchecked₁.since, h₂, rfl⟩, hc, hfresh, hrows, hfreshEntry, hentries, happended, hrest⟩
      exact ⟨hinsert _ _ _ s₂ s₃ hcreated, .inr ⟨_, _, _, s₂, hcreated, rfl⟩⟩

omit hR in
/-- A new finding is found. -/
theorem Created.found {ctx : Ctx} {dto : CreateFindingDto} {engagement : Engagement} {id historyId : Uuid}
    {reference : String} {s s₁ s₂ : Db} (h : Created R s ctx dto engagement id historyId reference s₁ s₂) :
    ctx.findById s₂.findings id (fun _ => true) = some (newFinding ctx dto engagement reference) := by
  rw [Ctx.findById_eq_some, h.rows, if_pos rfl, Ctx.sees_iff_tenant rfl]
  exact ⟨rfl, rfl, rfl⟩

theorem create_meets (ctx : Ctx) (dto : CreateFindingDto) (s : Db) :
    (create ctx dto).Meets R (Call R s (.create ctx dto)) (Done Quiet R (Commit R s (.create ctx dto)) s) s := by
  have hG : ∀ s', Call R s (.create ctx dto) s' s' := fun s' => .quiet (Quiet.refl s')
  unfold create
  rw [Prog.meets_read_bind]
  refine fun s₀ h₀ => ⟨hG s₀, ?_⟩
  split
  · exact .failed _ h₀
  rename_i engagement hengagement
  rw [Prog.meets_ite]
  split
  · exact .failed _ h₀
  rename_i hopened
  rw [Prog.meets_bind]
  refine (assertRelated_meets hR.refl hG _ s₀).mono ?_
  rintro (e | u) s₁ ⟨h₁, howner⟩
  · exact .failed e (hR.trans _ _ _ h₀ h₁)
  have h01 := hR.trans _ _ _ h₀ h₁
  dsimp only
  rw [Prog.meets_bind]
  refine (assertRelated_meets hR.refl hG _ s₁).mono ?_
  rintro (e | u') s₂ ⟨h₂, hworkpaper⟩
  · exact .failed e (hR.trans _ _ _ h01 h₂)
  have h02 := hR.trans _ _ _ h01 h₂
  dsimp only
  rw [Prog.meets_bind]
  refine (assertRelated_meets hR.refl hG _ s₂).mono ?_
  rintro (e | u'') s₃ ⟨h₃, hrepeated⟩
  · exact .failed e (hR.trans _ _ _ h02 h₃)
  have h23 := hR.trans _ _ _ h₂ h₃
  have hchecked : CreateChecked R s ctx dto engagement s₃ := {
    since := hR.trans _ _ _ h02 h₃
    opened := hopened
    read := ⟨s₀, h₀, hR.trans _ _ _ h₁ h23, hengagement⟩
    owner := ((howner ⟨u, rfl⟩).later hR.trans h23).earlier hR.trans h₀
    workpaper := ((hworkpaper ⟨u', rfl⟩).later hR.trans h₃).earlier hR.trans h01
    repeated := (hrepeated ⟨u'', rfl⟩).earlier hR.trans h02 }
  dsimp only
  rw [Prog.meets_bind]
  refine (insertNumbered_meets hR ctx dto engagement hG (fun _ _ _ _ _ => .create) 5 s₃ hchecked).mono ?_
  rintro (e | created) s₄ (⟨⟨e', he⟩, h₄⟩ | ⟨id, historyId, reference, sᵢ, hcreated, heq⟩)
  · exact .failed e h₄
  · cases heq
  · cases he
  cases heq
  dsimp only
  rw [Prog.meets_bind]
  refine (meets_quiet hR (auditRecord_quiet ctx _ _ _) (fun _ _ => .quiet) s₄).mono ?_
  rintro r s₅ ⟨⟨u, rfl⟩, h₅⟩
  dsimp only
  rw [Prog.meets_read_bind]
  refine fun s' h' => ⟨hG s', ?_⟩
  have h45 := hR.trans _ _ _ h₅ h'
  split
  · rename_i hnone
    refine .inr ⟨sᵢ, s₄, hcreated.checked.since, .create hcreated, h45, fun hquiet => ?_⟩
    have hfound := hcreated.found
    obtain ⟨auditTrail, notifications, rfl⟩ := (hquiet _ _ h45).eq
    rw [Option.map_eq_none_iff, hfound] at hnone
    cases hnone
  · exact .inr ⟨sᵢ, s₄, hcreated.checked.since, .create hcreated, h45, fun _ => ⟨_, rfl⟩⟩

theorem update_meets (ctx : Ctx) (id : Uuid) (dto : UpdateFindingDto) (s : Db) :
    (update ctx id dto).Meets R (Call R s (.update ctx id dto)) (Done Quiet R (Commit R s (.update ctx id dto)) s) s := by
  have hG : ∀ s', Call R s (.update ctx id dto) s' s' := fun s' => .quiet (Quiet.refl s')
  unfold update
  rw [Prog.meets_bind]
  refine (assertFinding_meets hR hG ctx id s).mono ?_
  rintro (e | before) s₀ ⟨h₀, hread⟩
  · exact .failed e h₀
  dsimp only
  split
  · exact .failed _ h₀
  rename_i heditable
  rw [Prog.meets_bind]
  refine (assertRelated_meets hR.refl hG _ s₀).mono ?_
  rintro (e | u) s₁ ⟨h₁, howner⟩
  · exact .failed e (hR.trans _ _ _ h₀ h₁)
  have h01 := hR.trans _ _ _ h₀ h₁
  dsimp only
  rw [Prog.meets_bind]
  refine (assertEvidence_meets hR hG ctx before.engagementId dto.evidenceIds s₁).mono ?_
  rintro (e | u') s₂ ⟨h₂, hevidence⟩
  · exact .failed e (hR.trans _ _ _ h01 h₂)
  refine meets_commit hR (hR.trans _ _ _ h01 h₂) hG (fun _ _ => Commit.call) ?_ ?_
  · intro s₃ s₄ v h₃ hrun
    obtain ⟨f, f', hfind, hsees, hchange, hc, -, hrows, hrest⟩ := updateFinding_ok hrun
    have h13 := hR.trans _ _ _ h₁ (hR.trans _ _ _ h₂ h₃)
    exact .update (show Updated R s ctx id dto before f f' s₃ s₄ from {
      since := hR.trans _ _ _ h₀ h13
      read := ⟨s₀, h₀, h13, (hread before rfl).1⟩
      editable := heditable
      owner := ((howner ⟨u, rfl⟩).later hR.trans (hR.trans _ _ _ h₂ h₃)).earlier hR.trans h₀
      evidence := fun ids hids => by
        obtain ⟨sₑ, h₄, h₅, hall⟩ := hevidence ⟨u', rfl⟩ ids hids
        exact ⟨sₑ, hR.trans _ _ _ h01 h₄, hR.trans _ _ _ h₅ h₃, hall⟩
      row := hfind
      sees := hsees
      change := hchange
      admitted := hc
      rows := hrows
      rest := hrest })
  · intro s₃ s₄ v _ _ _
    refine meets_answered hR ?_ (fun _ _ => .quiet) s₄
    exact (auditRecord_quiet ctx _ _ _).bind fun _ => (notify_quiet ctx _ _).bind fun _ => Prog.within_pure _

/-- **What a request does**, whatever comes between its calls. -/
theorem serve_meets (r : Request) (s : Db) : (serve r).Meets R (Call R s r) (Done Quiet R (Commit R s r) s) s := by
  unfold serve
  rw [Prog.meets_ite]
  split
  · exact .failed _ (hR.refl s)
  cases r with
  | create ctx dto => exact meets_map (create_meets hR ctx dto s) _
  | update ctx id dto => exact meets_map (update_meets hR ctx id dto s) _

end Methods

end AuditSphere.Findings
