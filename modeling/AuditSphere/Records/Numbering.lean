import AuditSphere.Engagements.Numbering
import AuditSphere.Engagements.Work
import AuditSphere.Evidence.Numbering
import AuditSphere.Findings.Numbering
import AuditSphere.Requests.Numbering

/-!
# The numbering of records

Requests to all services that number records, served one after another. The references of the
findings, evidence records and document requests of an engagement, and those of the
engagements of a tenant and year, are each given one by one (`allocation`): `n` successful
creations give the references from 1 to `n`. References are compared as texts, and so the first
number that is too wide for its zeros stands before the one before it. When it has been given,
every further creation finds the same reference again, and fails: `numbered_iff` says that the
next creation succeeds exactly below that limit.
-/

namespace AuditSphere.Records

open Prisma Theory Shared

/-- A request to one of the services. -/
inductive Request where
  | work (r : Work.Request)
  | evidence (r : Evidence.Request)
  | request (r : Requests.Request)

/-- What a request answers. -/
inductive Response where
  | work (a : Work.Response)
  | evidence (a : Evidence.EvidenceView)
  | request (a : Requests.RequestView)

/-- Requests go to their service. -/
def serve : Request → Service Response
  | .work r => do return .work (← Work.serve r)
  | .evidence r => do return .evidence (← Evidence.serve r)
  | .request r => do return .request (← Requests.serve r)

/-! ### Each service by itself -/

section Services

variable (s : Db)

@[simp] theorem accepted_work (r : Work.Request) : Accepted serve s (.work r) ↔ Accepted Work.serve s r :=
  accepted_return rfl s

@[simp] theorem accepted_evidence (r : Evidence.Request) : Accepted serve s (.evidence r) ↔ Accepted Evidence.serve s r :=
  accepted_return rfl s

@[simp] theorem accepted_request (r : Requests.Request) : Accepted serve s (.request r) ↔ Accepted Requests.serve s r :=
  accepted_return rfl s

@[simp] theorem after_work (r : Work.Request) : after serve s (.work r) = after Work.serve s r :=
  congrArg Prod.snd (run_return _ _ s)

@[simp] theorem after_evidence (r : Evidence.Request) : after serve s (.evidence r) = after Evidence.serve s r :=
  congrArg Prod.snd (run_return _ _ s)

@[simp] theorem after_request (r : Requests.Request) : after serve s (.request r) = after Requests.serve s r :=
  congrArg Prod.snd (run_return _ _ s)

/-- A request for an engagement, a workpaper or a finding writes no evidence and no document requests. -/
theorem work_keep (r : Work.Request) :
    (after Work.serve s r).evidence = s.evidence ∧ (after Work.serve s r).requests = s.requests := by
  cases r with
  | engagement r =>
    obtain ⟨_, _, _, _, h⟩ := Work.engagements_write s r
    rw [Work.after_engagement, h]
    exact ⟨rfl, rfl⟩
  | workpaper r =>
    obtain ⟨_, _, _, _, _, _, _, h⟩ := Work.workpapers_write s r
    rw [Work.after_workpaper, h]
    exact ⟨rfl, rfl⟩
  | finding o =>
    obtain ⟨_, _, _, _, _, h⟩ := Work.findings_write s o
    rw [Work.after_finding, h]
    exact ⟨rfl, rfl⟩

/-- A request for evidence writes no engagements, findings and document requests. -/
theorem evidence_keep (r : Evidence.Request) : (after Evidence.serve s r).engagements = s.engagements ∧
    (after Evidence.serve s r).findings = s.findings ∧ (after Evidence.serve s r).requests = s.requests := by
  obtain ⟨_, _, _, _, h⟩ := Evidence.serve_write s r
  rw [h]
  exact ⟨rfl, rfl, rfl⟩

/-- A request for a document request writes no engagements, findings and evidence. -/
theorem request_keep (r : Requests.Request) : (after Requests.serve s r).engagements = s.engagements ∧
    (after Requests.serve s r).findings = s.findings ∧ (after Requests.serve s r).evidence = s.evidence := by
  obtain ⟨_, _, _, h⟩ := Requests.serve_write s r
  rw [h]
  exact ⟨rfl, rfl, rfl⟩

variable {s}

/-- An engagement stays, with its tenant. -/
theorem engagement_stays (r : Request) {i : Uuid} {e : Engagement} (he : s.engagements.find i = some e) :
    ∃ e', (after serve s r).engagements.find i = some e' ∧ e'.tenantId = e.tenantId := by
  cases r with
  | work r =>
    rw [after_work]
    exact Work.engagement_stays r he
  | evidence r =>
    rw [after_evidence, (evidence_keep s r).1]
    exact ⟨e, he, rfl⟩
  | request r =>
    rw [after_request, (request_keep s r).1]
    exact ⟨e, he, rfl⟩

end Services

/-! ### Rows of an engagement are of its tenant -/

section Owned

variable {s : Db} {i : Uuid}

/-- Rows that are old ones, or are of an engagement that was there, are of the tenant of their engagement. -/
theorem ofEngagement_step {ρ : Type} [TenantRow ρ] {t t' : Table Uuid ρ} {p : ρ → Bool} (r : Request)
    (h : OfEngagement s t p i)
    (horigin : ∀ j row', t'.find j = some row' → p row' = true →
      (∃ row, t.find j = some row ∧ p row = true ∧ TenantRow.tenantOf row' = TenantRow.tenantOf row) ∨
        ∃ e, s.engagements.find i = some e ∧ TenantRow.tenantOf row' = some e.tenantId) :
    OfEngagement (after serve s r) t' p i := by
  intro j row' hrow' hp
  have howner : ∃ e, s.engagements.find i = some e ∧ TenantRow.tenantOf row' = some e.tenantId := by
    rcases horigin j row' hrow' hp with ⟨row, hrow, hp, htenant⟩ | hnew
    · rw [htenant]
      exact h j row hrow hp
    · exact hnew
  obtain ⟨e, he, htenant⟩ := howner
  obtain ⟨e', he', hsame⟩ := engagement_stays r he
  exact ⟨e', he', by rw [htenant, hsame]⟩

/-- The findings of an engagement are of its tenant. -/
def FindingsOf (i : Uuid) (s : Db) : Prop := OfEngagement s s.findings (fun f => f.engagementId = i) i

theorem findingsOf_step (r : Request) (h : FindingsOf i s) : FindingsOf i (after serve s r) := by
  refine ofEngagement_step r h fun j f' hf' hp => ?_
  rw [decide_eq_true_eq] at hp
  cases r with
  | work r =>
    rw [after_work] at hf'
    rcases Work.finding_origin r hf' with ⟨f, hf, htenant, hid⟩ | ⟨e, he, htenant⟩
    · exact .inl ⟨f, hf, by rw [← hid, hp, decide_eq_true_eq], congrArg some htenant⟩
    · exact .inr ⟨e, hp ▸ he, congrArg some htenant.symm⟩
  | evidence r =>
    rw [after_evidence, (evidence_keep s r).2.1] at hf'
    exact .inl ⟨f', hf', by simpa using hp, rfl⟩
  | request r =>
    rw [after_request, (request_keep s r).2.1] at hf'
    exact .inl ⟨f', hf', by simpa using hp, rfl⟩

/-- The evidence records of an engagement are of its tenant. -/
def EvidenceOf (i : Uuid) (s : Db) : Prop := OfEngagement s s.evidence (fun e => e.engagementId = i) i

theorem evidenceOf_step (r : Request) (h : EvidenceOf i s) : EvidenceOf i (after serve s r) := by
  refine ofEngagement_step r h fun j e' he' hp => ?_
  cases r with
  | work r =>
    rw [after_work, (work_keep s r).1] at he'
    exact .inl ⟨e', he', hp, rfl⟩
  | evidence r =>
    rw [after_evidence] at he'
    cases r with
    | create ctx dto =>
      rcases Evidence.create_effect s ctx dto with ⟨-, hsame⟩ | ⟨-, id, e, hrecorded⟩
      · rw [hsame] at he'
        exact .inl ⟨e', he', hp, rfl⟩
      · rw [hrecorded.rows] at he'
        split at he'
        · cases he'
          obtain ⟨engagement, hread⟩ := hrecorded.engagement
          obtain ⟨hengagement, hsees, -⟩ := Ctx.findById_eq_some.mp hread
          rw [hrecorded.row] at hp ⊢
          have hid : dto.engagementId = i := of_decide_eq_true hp
          exact .inr ⟨engagement, hid ▸ hengagement, congrArg some ((Ctx.sees_iff_tenant rfl).mp hsees).symm⟩
        · exact .inl ⟨e', he', hp, rfl⟩
    | update ctx id dto =>
      have hsame := Evidence.update_same s ctx id dto j
      rw [he'] at hsame
      generalize s.evidence.find j = row at hsame
      cases hsame with
      | some hsame => exact .inl ⟨_, rfl, by rw [← hsame.2.1, hp], congrArg some hsame.1⟩
  | request r =>
    rw [after_request, (request_keep s r).2.2] at he'
    exact .inl ⟨e', he', hp, rfl⟩

/-- The document requests of an engagement are of its tenant. -/
def RequestsOf (i : Uuid) (s : Db) : Prop := OfEngagement s s.requests (fun r => r.engagementId = i) i

theorem requestsOf_step (r : Request) (h : RequestsOf i s) : RequestsOf i (after serve s r) := by
  refine ofEngagement_step r h fun j q' hq' hp => ?_
  cases r with
  | work r =>
    rw [after_work, (work_keep s r).2] at hq'
    exact .inl ⟨q', hq', hp, rfl⟩
  | evidence r =>
    rw [after_evidence, (evidence_keep s r).2.2] at hq'
    exact .inl ⟨q', hq', hp, rfl⟩
  | request r =>
    rw [after_request] at hq'
    cases r with
    | create ctx dto =>
      rcases Requests.create_effect s ctx dto with ⟨-, hsame⟩ | ⟨-, id, q, hrecorded⟩
      · rw [hsame] at hq'
        exact .inl ⟨q', hq', hp, rfl⟩
      · rw [hrecorded.rows] at hq'
        split at hq'
        · cases hq'
          obtain ⟨engagement, hread⟩ := hrecorded.engagement
          obtain ⟨hengagement, hsees, -⟩ := Ctx.findById_eq_some.mp hread
          rw [hrecorded.row] at hp ⊢
          have hid : dto.engagementId = i := of_decide_eq_true hp
          exact .inr ⟨engagement, hid ▸ hengagement, congrArg some ((Ctx.sees_iff_tenant rfl).mp hsees).symm⟩
        · exact .inl ⟨q', hq', hp, rfl⟩

end Owned

/-! ### What is numbered together -/

/-- Records that are numbered together: those of an engagement, or the engagements of a tenant
and a year with four digits. -/
inductive Scope where
  | findings (engagementId : Uuid)
  | evidence (engagementId : Uuid)
  | requests (engagementId : Uuid)
  | engagements (tenantId : Uuid) (year : ℕ) (hyear : 1000 ≤ year ∧ year ≤ 9999)

namespace Scope

/-- The first number that does not fit the zeros. -/
def limit : Scope → ℕ
  | .findings _ | .requests _ => 100
  | .evidence _ | .engagements .. => 1000

/-- The references. -/
def numbers : (k : Scope) → Numbering String k.limit
  | .findings _ => Findings.findingNumbers
  | .evidence _ => Evidence.evidenceNumbers
  | .requests _ => Requests.requestNumbers
  | .engagements _ year hyear => Engagements.auditNumbers year hyear

/-- The references that the records have. -/
def references (s : Db) : Scope → Uuid → Option String
  | .findings i => Findings.findingReferences s i
  | .evidence i => Evidence.evidenceReferences s i
  | .requests i => Requests.requestReferences s i
  | .engagements tenantId year _ => Engagements.engagementNumbers s tenantId year

/-- The highest of them. -/
def highest (s : Db) : Scope → Option String
  | .findings i => Findings.highestReference s i
  | .evidence i => Evidence.highestReference s i
  | .requests i => Requests.highestReference s i
  | .engagements tenantId year _ => Engagements.highestNumber s tenantId year

/-- The request succeeds and creates such a record. -/
def Creates (k : Scope) (s : Db) (r : Request) : Prop :=
  match k with
  | .findings i => ∃ o, r = .work (.finding o) ∧ Findings.CreatesOn i s o
  | .evidence i => ∃ q, r = .evidence q ∧ Evidence.CreatesOn i s q
  | .requests i => ∃ q, r = .request q ∧ Requests.CreatesOn i s q
  | .engagements tenantId year _ => ∃ q, r = .work (.engagement q) ∧ Engagements.CreatesIn tenantId year s q

/-- The request is to create such a record, and nothing but its reference may be in the way. -/
def Admissible (k : Scope) (s : Db) (r : Request) : Prop :=
  match k with
  | .findings i => ∃ ctx dto, r = .work (.finding (.edit (.create ctx dto))) ∧ dto.engagementId = i ∧
      Findings.Admissible s ctx dto
  | .evidence i => ∃ ctx dto, r = .evidence (.create ctx dto) ∧ dto.engagementId = i ∧ Evidence.Admissible s ctx dto
  | .requests i => ∃ ctx dto, r = .request (.create ctx dto) ∧ dto.engagementId = i ∧ Requests.Admissible s ctx dto
  | .engagements tenantId year _ => ∃ ctx dto, r = .work (.engagement (.create ctx dto)) ∧ ctx.tenantId = tenantId ∧
      dto.year ctx.now = year ∧ Engagements.Admissible s ctx dto

/-- The records are of the tenant of their engagement. -/
def Owned (k : Scope) (s : Db) : Prop :=
  match k with
  | .findings i => FindingsOf i s
  | .evidence i => EvidenceOf i s
  | .requests i => RequestsOf i s
  | .engagements .. => True

/-- Where there are no records yet they are. -/
theorem owned_of_none {k : Scope} {s : Db} (h : ∀ j, k.references s j = none) : k.Owned s := by
  have hnone : ∀ {ρ : Type} [TenantRow ρ] {t : Table Uuid ρ} {p : ρ → Bool} {ref : ρ → String} {i : Uuid},
      (∀ j, AuditSphere.references t p ref j = none) → OfEngagement s t p i := by
    intro ρ _ t p ref i h j r hfind hp
    have hsome : AuditSphere.references t p ref j = some (ref r) := references_eq_some.mpr ⟨r, hfind, hp, rfl⟩
    rw [h j] at hsome
    cases hsome
  cases k with
  | findings i => exact hnone h
  | evidence i => exact hnone h
  | requests i => exact hnone h
  | engagements _ _ _ => trivial

theorem highest_highest (k : Scope) (s : Db) : Highest (present (k.references s)) (k.highest s) := by
  cases k with
  | findings i => exact Findings.highestReference_highest s i
  | evidence i => exact Evidence.highestReference_highest s i
  | requests i => exact Requests.highestReference_highest s i
  | engagements tenantId year hyear => exact Engagements.highestNumber_highest s tenantId year

theorem owned_step {k : Scope} {s : Db} (r : Request) (h : k.Owned s) : k.Owned (after serve s r) := by
  cases k with
  | findings i => exact findingsOf_step r h
  | evidence i => exact evidenceOf_step r h
  | requests i => exact requestsOf_step r h
  | engagements _ _ _ => trivial

/-- A request that creates no such record keeps their references. -/
theorem references_kept {k : Scope} {s : Db} {r : Request} (h : ¬k.Creates s r) :
    k.references (after serve s r) = k.references s := by
  cases k with
  | findings i =>
    unfold references Findings.findingReferences
    cases r with
    | work r =>
      cases r with
      | engagement r => rw [after_work, Work.after_engagement, (Work.engagements_keep s r).2.2]
      | workpaper r => rw [after_work, Work.after_workpaper, (Work.workpapers_keep s r).2]
      | finding o =>
        rw [after_work, Work.after_finding]
        exact Findings.references_kept fun hC => h ⟨o, rfl, hC⟩
    | evidence r => rw [after_evidence, (evidence_keep s r).2.1]
    | request r => rw [after_request, (request_keep s r).2.1]
  | evidence i =>
    unfold references Evidence.evidenceReferences
    cases r with
    | work r => rw [after_work, (work_keep s r).1]
    | evidence r =>
      rw [after_evidence]
      exact Evidence.references_kept fun hC => h ⟨r, rfl, hC⟩
    | request r => rw [after_request, (request_keep s r).2.2]
  | requests i =>
    unfold references Requests.requestReferences
    cases r with
    | work r => rw [after_work, (work_keep s r).2]
    | evidence r => rw [after_evidence, (evidence_keep s r).2.2]
    | request r =>
      rw [after_request]
      exact Requests.references_kept fun hC => h ⟨r, rfl, hC⟩
  | engagements tenantId year hyear =>
    unfold references Engagements.engagementNumbers
    cases r with
    | work r =>
      cases r with
      | engagement r =>
        rw [after_work, Work.after_engagement]
        exact Engagements.references_kept hyear fun hC => h ⟨r, rfl, hC⟩
      | workpaper r => rw [after_work, Work.after_workpaper, (Work.workpapers_keep s r).1]
      | finding o => rw [after_work, Work.after_finding, (Work.findings_keep s o).1]
    | evidence r => rw [after_evidence, (evidence_keep s r).1]
    | request r => rw [after_request, (request_keep s r).1]

/-- A request that creates such a record gives it the reference that follows the highest one. -/
theorem created_issued {k : Scope} {s : Db} {r : Request} {n : ℕ} (howned : k.Owned s)
    (hfilled : present (k.references s) = k.numbers.filled n) (h : k.Creates s r) :
    k.numbers.next (k.highest s) ∉ present (k.references s) ∧
      ∃ j, Issued (k.references s) j (k.numbers.next (k.highest s)) (k.references (after serve s r)) := by
  cases k with
  | findings i =>
    obtain ⟨_, rfl, ⟨ctx, dto, rfl, rfl⟩, hacc⟩ := h
    rw [after_work, Work.after_finding]
    exact Findings.created_issued howned hfilled hacc
  | evidence i =>
    obtain ⟨_, rfl, ⟨ctx, dto, rfl, rfl⟩, hacc⟩ := h
    rw [after_evidence]
    exact Evidence.created_issued howned hfilled hacc
  | requests i =>
    obtain ⟨_, rfl, ⟨ctx, dto, rfl, rfl⟩, hacc⟩ := h
    rw [after_request]
    exact Requests.created_issued howned hfilled hacc
  | engagements tenantId year hyear =>
    obtain ⟨_, rfl, ⟨ctx, dto, rfl, rfl, rfl⟩, hacc⟩ := h
    rw [after_work, Work.after_engagement]
    exact Engagements.created_issued hyear hacc

/-- Each kind of record is numbered by the requests that create it. -/
theorem allocation (k : Scope) : Allocation serve k.numbers (fun s => k.references s) (fun s => k.highest s) k.Creates
    k.Owned where
  invariant _ r := owned_step r
  highest s _ := k.highest_highest s
  kept _ _ _ := references_kept
  created _ _ _ := created_issued

/-- An admissible request creates a record if the reference that follows is free. -/
theorem creates_of_free {k : Scope} {s : Db} {r : Request} {n : ℕ} (hadmissible : k.Admissible s r) (howned : k.Owned s)
    (hfilled : present (k.references s) = k.numbers.filled n)
    (hfree : k.numbers.next (k.highest s) ∉ present (k.references s)) : k.Creates s r := by
  cases k with
  | findings i =>
    obtain ⟨ctx, dto, rfl, rfl, h⟩ := hadmissible
    obtain ⟨e, he, -⟩ := h.engagement
    refine ⟨_, rfl, ⟨ctx, dto, rfl, rfl⟩, Findings.create_accepted h ?_⟩
    rw [Findings.latestReference_eq howned ⟨e, he⟩ hfilled]
    exact hfree
  | evidence i =>
    obtain ⟨ctx, dto, rfl, rfl, h⟩ := hadmissible
    refine ⟨_, rfl, ⟨ctx, dto, rfl, rfl⟩, Evidence.create_accepted h ?_⟩
    rw [Evidence.latestReference_eq howned h.engagement hfilled]
    exact hfree
  | requests i =>
    obtain ⟨ctx, dto, rfl, rfl, h⟩ := hadmissible
    refine ⟨_, rfl, ⟨ctx, dto, rfl, rfl⟩, Requests.create_accepted h ?_⟩
    rw [Requests.latestReference_eq howned h.engagement hfilled]
    exact hfree
  | engagements tenantId year hyear =>
    obtain ⟨ctx, dto, rfl, rfl, rfl, h⟩ := hadmissible
    exact ⟨_, rfl, ⟨ctx, dto, rfl, rfl, rfl⟩, Engagements.create_accepted hyear h hfree⟩

end Scope

/-! ### Findings one after another -/

/-- A finding on engagement 10. -/
def cash : Findings.CreateFindingDto where
  engagementId := 10
  title := "Cash"
  severity := .high
  condition := "Not counted"
  criteria := "Count weekly"

/-- Ann raises it. -/
def raise (n : ℕ) : Request := .work (.finding (.edit (.create (Findings.member 1 (1000 + 2 * n)) cash)))

/-- Ann raises so many findings. -/
def raises : ℕ → List Request
  | 0 => []
  | n + 1 => raise n :: raises n

/-- What the office is like after that. -/
structure Raised (n : ℕ) (s : Db) : Prop where
  tally : Tally serve (Scope.findings 10).Creates Workpapers.office n (raises n)
  rest : s = { Workpapers.office with
    findings := s.findings, findingHistory := s.findingHistory, auditTrail := s.auditTrail }
  fresh : ∀ j, 1000 + 2 * n ≤ j → s.findings.find j = none ∧ s.findingHistory.find j = none

/-- Nothing but its reference may be in the way of the next finding. -/
theorem Raised.ready {n : ℕ} {s : Db} (h : Raised n s) : Findings.Admissible s (Findings.member 1 (1000 + 2 * n)) cash where
  permitted := rfl
  engagement := by
    rw [h.rest]
    exact ⟨Workpapers.treasury, rfl, by decide, rfl⟩
  owner := fun _ h => by cases h
  workpaper := fun _ h => by cases h
  repeated := fun _ h => by cases h
  process := rfl
  risk := rfl
  control := rfl
  user := by
    rw [h.rest]
    rfl
  fresh := (h.fresh _ le_rfl).1
  freshEntry := (h.fresh _ (Nat.le_succ _)).2

theorem Raised.admissible {n : ℕ} {s : Db} (h : Raised n s) : (Scope.findings 10).Admissible s (raise n) :=
  ⟨_, _, rfl, rfl, h.ready⟩

/-- Each of the first hundred findings is created. -/
theorem raised {n : ℕ} (hn : n ≤ 100) : Raised n (history serve Workpapers.office (raises n)) := by
  induction n with
  | zero => exact ⟨.none, rfl, fun _ _ => ⟨rfl, rfl⟩⟩
  | succ n ih =>
    have hraised := ih (by omega)
    have hnone : ∀ j, (Scope.findings 10).references Workpapers.office j = none := fun _ => rfl
    obtain ⟨howned, hfilled, -⟩ := (Scope.findings 10).allocation.filled (Scope.owned_of_none hnone) hnone hraised.tally
    have hcreates := (((Scope.findings 10).allocation.next_iff (Scope.owned_of_none hnone) hnone hraised.tally
      fun howned hfilled => Scope.creates_of_free hraised.admissible howned hfilled).mpr (show n < 100 by omega)).1
    have hfree := (Scope.created_issued howned hfilled hcreates).1
    have htally := hraised.tally.hit hcreates
    rw [show history serve Workpapers.office (raises (n + 1)) =
      after serve (history serve Workpapers.office (raises n)) (raise n) from rfl]
    generalize history serve Workpapers.office (raises n) = s at *
    obtain ⟨e, he, -⟩ := hraised.ready.engagement
    have hlatest := Findings.latestReference_eq howned ⟨e, he⟩ hfilled
    obtain ⟨engagement, v, findings, entries, auditTrail, hfindings, hentries, hrun⟩ := Findings.create_run hraised.ready (by
      rw [show cash.engagementId = 10 from rfl, hlatest]
      exact hfree)
    have hafter : after serve s (raise n) = { s with findings, findingHistory := entries, auditTrail } := by
      rw [raise, after_work, Work.after_finding, after, hrun]
    rw [hafter]
    refine ⟨htally, by rw [hraised.rest], fun j hj => ?_⟩
    obtain ⟨hfresh, hfreshEntry⟩ := hraised.fresh j (by omega)
    constructor
    · refine ((insertRow_ok hfindings).2 j).trans ((if_neg ?_).trans hfresh)
      show j ≠ 1000 + 2 * n + 0
      omega
    · refine ((insertRow_ok hentries).2 j).trans ((if_neg ?_).trans hfreshEntry)
      show j ≠ 1000 + 2 * n + 1
      omega

/-- **References are given one by one, up to a limit**: after `n` successful creations, with
other requests in between, the references are those from 1 to `n`. The next creation, if nothing
but its reference is in the way, succeeds and gives a new record the number `n + 1`, which no
record has, exactly if `n` is below the limit. -/
theorem numbered_iff (k : Scope) (s₀ : Db) (hnone : ∀ j, k.references s₀ j = none) {n : ℕ} {past : List Request}
    (h : Tally serve k.Creates s₀ n past) {r : Request} (hr : k.Admissible (history serve s₀ past) r) :
    present (k.references (history serve s₀ past)) = k.numbers.filled n ∧
      ((k.Creates (history serve s₀ past) r ∧
        k.numbers.ref (n + 1) ∉ present (k.references (history serve s₀ past)) ∧
        ∃ j, Issued (k.references (history serve s₀ past)) j (k.numbers.ref (n + 1))
          (k.references (after serve (history serve s₀ past) r))) ↔ n < k.limit) := by
  have howned := Scope.owned_of_none hnone
  obtain ⟨-, hfilled, -⟩ := k.allocation.filled howned hnone h
  have hiff := k.allocation.next_iff howned hnone h fun howned hfilled => Scope.creates_of_free hr howned hfilled
  refine ⟨hfilled, ?_⟩
  rw [← hiff, hfilled]
  have hnew : k.numbers.ref (n + 1) ∉ k.numbers.filled n := by
    rw [Numbering.ref_mem_filled]
    omega
  tauto

/-- The tenth finding is `F-10`. -/
theorem numbered_iff_tenth :
    present ((Scope.findings 10).references (history serve Workpapers.office (raises 9))) = Findings.findingNumbers.filled 9 ∧
      (((Scope.findings 10).Creates (history serve Workpapers.office (raises 9)) (raise 9) ∧
        Findings.findingNumbers.ref 10 ∉ present ((Scope.findings 10).references (history serve Workpapers.office (raises 9))) ∧
        ∃ j, Issued ((Scope.findings 10).references (history serve Workpapers.office (raises 9))) j
          (Findings.findingNumbers.ref 10)
          ((Scope.findings 10).references (after serve (history serve Workpapers.office (raises 9)) (raise 9)))) ↔ 9 < 100) :=
  numbered_iff (.findings 10) Workpapers.office (fun _ => rfl) (raised (n := 9) (by decide)).tally
    (raised (n := 9) (by decide)).admissible

/-- After a hundred findings the next one is not created, although nothing else is in the way. -/
theorem hundred_findings : Tally serve (Scope.findings 10).Creates Workpapers.office 100 (raises 100) ∧
    (Scope.findings 10).Admissible (history serve Workpapers.office (raises 100)) (raise 100) ∧
    ¬Accepted serve (history serve Workpapers.office (raises 100)) (raise 100) := by
  have hraised := raised (n := 100) le_rfl
  have hnone : ∀ j, (Scope.findings 10).references Workpapers.office j = none := fun _ => rfl
  refine ⟨hraised.tally, hraised.admissible, fun hacc => ?_⟩
  rw [raise, accepted_work, Work.accepted_finding] at hacc
  exact absurd ((Scope.findings 10).allocation.lt_of_creates (Scope.owned_of_none hnone) hnone hraised.tally
    (r := raise 100) ⟨_, rfl, ⟨_, _, rfl, rfl⟩, hacc⟩) (lt_irrefl 100)

end AuditSphere.Records
