import AuditSphere.Findings.Operations
import AuditSphere.Workpapers.History

/-!
# Findings over a history of operations

Operations served one after another. `perform_effect` says what one of them makes of the
database: nothing that matters if it fails, its commit on the tables that it found if it
succeeds. `perform_row` is the same for the row of a single finding: the row is kept, or
created, edited, moved by a transition or extended (`RowStep`).
-/

namespace AuditSphere.Findings

open Prisma Theory Shared

/-! ### Operations served alone -/

/-- What was found before a commit that nothing came in between of is found in the tables themselves. -/
theorem found_alone {ρ : Type} [TenantRow ρ] {ctx : Ctx} {table : Db → Table Uuid ρ} {id : Field Uuid}
    {p : Db → ρ → Bool} {s s₁ : Db} (hquery : ∀ a b, Quiet a b → table b = table a ∧ p b = p a)
    (h : Found ctx table id p Quiet s s₁) : Found ctx table id p (· = ·) s s := by
  intro i hi
  obtain ⟨s₀, r, h₀, -, hr⟩ := h i hi
  obtain ⟨htable, hp⟩ := hquery _ _ h₀
  exact ⟨s, r, rfl, rfl, by rw [← htable, ← hp]; exact hr⟩

theorem Commit.alone {r : Request} {s s₁ s₂ : Db} (h : Commit Quiet s r s₁ s₂) (h₁ : Quiet s s₁) :
    Commit (· = ·) s r s { s₂ with auditTrail := s.auditTrail, notifications := s.notifications } := by
  obtain ⟨auditTrail, notifications, rfl⟩ := h₁.eq
  have hquery : ∀ {ρ : Type} {table : Db → Table Uuid ρ}, (∀ a auditTrail notifications,
      table { a with auditTrail, notifications } = table a) → ∀ (p : ρ → Bool) (a b : Db), Quiet a b →
      table b = table a ∧ (fun _ : Db => p) b = (fun _ : Db => p) a := by
    intro ρ table htable p a b hab
    obtain ⟨_, _, rfl⟩ := hab.eq
    exact ⟨htable _ _ _, rfl⟩
  cases h with
  | @create ctx dto engagement id historyId reference _ _ h =>
    refine .create (show Created (· = ·) s ctx dto engagement id historyId reference s _ from {
      checked := {
        since := rfl
        opened := h.checked.opened
        read := ?_
        owner := found_alone (hquery (fun _ _ _ => rfl) _) h.checked.owner
        workpaper := found_alone (hquery (fun _ _ _ => rfl) _) h.checked.workpaper
        repeated := found_alone (hquery (fun _ _ _ => rfl) _) h.checked.repeated }
      numbered := ?_
      admitted := h.admitted
      fresh := h.fresh
      rows := h.rows
      freshEntry := h.freshEntry
      entries := h.entries
      appended := h.appended
      rest := ?_ })
    · obtain ⟨s₀, h₀, -, hread⟩ := h.checked.read
      obtain ⟨_, _, rfl⟩ := h₀.eq
      exact ⟨s, rfl, rfl, hread⟩
    · obtain ⟨s₀, h₀, -, hnumbered⟩ := h.numbered
      obtain ⟨_, _, rfl⟩ := h₀.eq
      exact ⟨s, rfl, rfl, hnumbered⟩
    · rw [h.rest]
  | @update ctx id dto before f f' _ _ h =>
    refine .update (show Updated (· = ·) s ctx id dto before f f' s _ from {
      since := rfl
      read := ?_
      editable := h.editable
      owner := found_alone (hquery (fun _ _ _ => rfl) _) h.owner
      evidence := ?_
      row := h.row
      sees := h.sees
      change := h.change
      admitted := h.admitted
      rows := h.rows
      rest := ?_ })
    · obtain ⟨s₀, h₀, -, hread⟩ := h.read
      obtain ⟨_, _, rfl⟩ := h₀.eq
      exact ⟨s, rfl, rfl, hread⟩
    · intro ids hids
      obtain ⟨s₀, h₀, -, hall⟩ := h.evidence ids hids
      obtain ⟨_, _, rfl⟩ := h₀.eq
      exact ⟨s, rfl, rfl, hall⟩
    · rw [h.rest]

/-- A commit that nothing came in between of is one on the tables that the operation found. -/
theorem Committed.alone {o : Operation} {s s₁ s₂ : Db} (h : Committed Quiet s o s₁ s₂) (h₁ : Quiet s s₁) :
    Committed (· = ·) s o s { s₂ with auditTrail := s.auditTrail, notifications := s.notifications } := by
  have hread : ∀ {P : Db → Prop}, (∀ a b, Quiet a b → P b → P a) → (∃ s₀, Quiet s s₀ ∧ Quiet s₀ s₁ ∧ P s₀) →
      ∃ s₀, s = s₀ ∧ s₀ = s ∧ P s₀ := by
    rintro P hP ⟨s₀, h₀, -, h⟩
    exact ⟨s, rfl, rfl, hP _ _ h₀ h⟩
  obtain ⟨auditTrail, notifications, rfl⟩ := h₁.eq
  cases h with
  | edit h => exact .edit (h.alone rfl)
  | @transition ctx id dto t finding f _ _ h =>
    refine .transition (show Moved (· = ·) s ctx id dto t finding f s _ from {
      read := hread ?_ h.read
      declared := h.declared
      permitted := h.permitted
      guards := fun guard hguard => hread ?_ (h.guards guard hguard)
      row := h.row
      sees := h.sees
      admitted := h.admitted
      rows := h.rows
      appended := h.appended
      recommendations := h.recommendations
      rest := by rw [h.rest] })
    · intro a b hab hfound
      obtain ⟨_, _, rfl⟩ := hab.eq
      exact hfound
    · intro a b hab hholds
      obtain ⟨_, _, rfl⟩ := hab.eq
      exact hholds
  | @extend ctx id dto before f _ _ h =>
    refine .extend (show Extended (· = ·) s ctx id dto before f s _ from {
      read := hread ?_ h.read
      actionable := h.actionable
      later := h.later
      row := h.row
      sees := h.sees
      admitted := h.admitted
      rows := h.rows
      rest := by rw [h.rest] })
    intro a b hab hfound
    obtain ⟨_, _, rfl⟩ := hab.eq
    exact hfound
  | @addRecommendation ctx findingId dto finding sequence _ _ h =>
    refine .addRecommendation (show RecommendationAdded (· = ·) s ctx findingId dto finding sequence s _ from {
      read := hread ?_ h.read
      opened := h.opened
      admitted := h.admitted
      fresh := h.fresh
      rows := h.rows
      rest := by rw [h.rest] })
    intro a b hab hfound
    obtain ⟨_, _, rfl⟩ := hab.eq
    exact hfound
  | @updateRecommendation ctx id dto before finding r r' _ _ h =>
    refine .updateRecommendation (show RecommendationChanged (· = ·) s ctx id dto before finding r r' s _ from {
      read := hread ?_ h.read
      editable := h.editable
      row := h.row
      sees := h.sees
      change := h.change
      rows := h.rows
      rest := by rw [h.rest] })
    intro a b hab hfound
    obtain ⟨_, _, rfl⟩ := hab.eq
    exact hfound

/-- **One operation after another.** One that fails leaves the tables as they were; one that
succeeds commits on the tables that it found. -/
theorem perform_effect (s : Db) (o : Operation) :
    (¬Accepted perform s o ∧ Quiet s (after perform s o)) ∨
      (Accepted perform s o ∧ ∃ s₂, Committed (· = ·) s o s s₂ ∧ Quiet s₂ (after perform s o)) := by
  have hdone := ((perform_meets Interference.of_quiet o s).run Quiet.refl).alone
  unfold Accepted after
  rcases hrun : (perform o).run s with ⟨e | a, s'⟩ <;> rw [hrun] at hdone
  · rcases hdone with ⟨-, hquiet⟩ | ⟨⟨a, ⟨⟩⟩, -⟩
    exact .inl ⟨by rintro ⟨a, s₁, ⟨⟩⟩, hquiet⟩
  · rcases hdone with ⟨⟨_, ⟨⟩⟩, -⟩ | ⟨-, s₁, s₂, h₁, hcommitted, h₂⟩
    refine .inr ⟨⟨a, s', rfl⟩, _, hcommitted.alone h₁, Quiet.trans (Quiet.symm ?_) h₂⟩
    exact rfl

/-- The finding whose row an operation writes if it succeeds; a new finding is not known before. -/
def Operation.finding : Operation → Option Uuid
  | .edit (.update _ id _) | .transition _ id _ | .extend _ id _ => some id
  | _ => none

/-- The finding is there, for this user, before an operation. -/
def found (ctx : Ctx) (db : Db) (id : Uuid) : Option Finding := ctx.findById db.findings id (·.deletedAt.isNone)

theorem found_eq_some {ctx : Ctx} {db : Db} {id : Uuid} {f : Finding} :
    found ctx db id = some f ↔ db.findings.find id = some f ∧ f.tenantId = ctx.tenantId ∧ f.deletedAt = none := by
  rw [found, Ctx.findById_eq_some, Ctx.sees_iff_tenant rfl, Option.isNone_iff_eq_none]

/-- What an operation makes of the row of finding `i`. -/
inductive RowStep (s : Db) (i : Uuid) : Operation → Option Finding → Prop where
  /-- The operation fails, or it is not about this row. -/
  | kept {o} (h : ¬Accepted perform s o ∨ o.finding ≠ some i) : RowStep s i o (s.findings.find i)
  /-- The row is new. -/
  | created {ctx dto} (engagement : Engagement) (reference : String)
      (accepted : Accepted perform s (.edit (.create ctx dto))) (fresh : s.findings.find i = none)
      (read : ctx.findById s.engagements dto.engagementId (·.deletedAt.isNone) = some engagement)
      (opened : engagement.stage ≠ .closed) :
      RowStep s i (.edit (.create ctx dto)) (some (newFinding ctx dto engagement reference))
  /-- The row is edited. -/
  | edited {ctx dto} (f f' : Finding) (accepted : Accepted perform s (.edit (.update ctx i dto)))
      (hfound : found ctx s i = some f) (editable : assertEditable ctx f dto = .ok ()) (change : dto.apply f = .ok f') :
      RowStep s i (.edit (.update ctx i dto)) (some f')
  /-- The row is moved by a transition. -/
  | moved {ctx dto} (t : Transition FindingStatus) (f : Finding) (accepted : Accepted perform s (.transition ctx i dto))
      (hfound : found ctx s i = some f) (declared : findTransition findingWorkflow f.status dto.action = some t)
      (guards : ∀ guard ∈ t.guards ++ extraGuardsFor dto.action, guardHolds ctx i f guard s) :
      RowStep s i (.transition ctx i dto) (some (transitioned ctx t f f))
  /-- The due date is extended. -/
  | extended {ctx dto} (f : Finding) (accepted : Accepted perform s (.extend ctx i dto))
      (hfound : found ctx s i = some f) (actionable : f.status ∈ actionableStatuses)
      (later : f.dueDate.all (· < dto.dueDate) = true) :
      RowStep s i (.extend ctx i dto) (some (extended dto f f))

/-- The row that is written is the row that was read. -/
theorem row_of_read {s : Db} {ctx : Ctx} {id : Uuid} {f finding : Finding}
    (hread : ∃ s₀, s = s₀ ∧ s₀ = s ∧ ctx.findById s₀.findings id (·.deletedAt.isNone) = some finding)
    (hrow : s.findings.find id = some f) : f = finding ∧ found ctx s id = some f := by
  obtain ⟨_, rfl, -, hfound⟩ := hread
  have hfind := (Ctx.findById_eq_some.mp hfound).1
  rw [hrow, Option.some.injEq] at hfind
  subst hfind
  exact ⟨rfl, hfound⟩

/-- **One operation and one finding.** -/
theorem perform_row (s : Db) (o : Operation) (i : Uuid) : RowStep s i o ((after perform s o).findings.find i) := by
  rcases perform_effect s o with ⟨hfail, hquiet⟩ | ⟨hacc, s₂, hcommitted, hquiet⟩
  · obtain ⟨_, _, heq⟩ := hquiet.eq
    rw [heq]
    exact .kept (.inl hfail)
  have hrow : (after perform s o).findings = s₂.findings := by
    obtain ⟨_, _, heq⟩ := hquiet.eq
    rw [heq]
  rw [hrow]
  clear hrow hquiet
  have hkept : ∀ {id : Uuid}, o.finding = some id → i ≠ id → RowStep s i o (s.findings.find i) :=
    fun hid hi => .kept (.inr fun h => hi (Option.some.inj (h.symm.trans hid)))
  cases hcommitted with
  | edit h =>
    cases h with
    | @create ctx dto engagement id _ reference _ _ h =>
      rw [h.rows]
      by_cases hi : i = id
      · subst hi
        obtain ⟨_, rfl, -, hread⟩ := h.checked.read
        rw [if_pos rfl]
        exact .created engagement reference hacc h.fresh hread h.checked.opened
      · rw [if_neg hi]
        exact .kept (.inr fun h => by cases h)
    | @update ctx id dto before f f' _ _ h =>
      rw [h.rows]
      by_cases hi : i = id
      · subst hi
        obtain ⟨rfl, hfound⟩ := row_of_read h.read h.row
        rw [if_pos rfl]
        exact .edited f f' hacc hfound h.editable h.change
      · rw [if_neg hi]
        exact hkept rfl hi
  | @transition ctx id dto t finding f _ _ h =>
    rw [h.rows]
    by_cases hi : i = id
    · subst hi
      obtain ⟨rfl, hfound⟩ := row_of_read h.read h.row
      rw [if_pos rfl]
      refine .moved t f hacc hfound h.declared fun guard hguard => ?_
      obtain ⟨_, rfl, -, hholds⟩ := h.guards guard hguard
      exact hholds
    · rw [if_neg hi]
      exact hkept rfl hi
  | @extend ctx id dto before f _ _ h =>
    rw [h.rows]
    by_cases hi : i = id
    · subst hi
      obtain ⟨rfl, hfound⟩ := row_of_read h.read h.row
      rw [if_pos rfl]
      exact .extended f hacc hfound h.actionable h.later
    · rw [if_neg hi]
      exact hkept rfl hi
  | addRecommendation h =>
    rw [h.rest]
    exact .kept (.inr fun h => by cases h)
  | updateRecommendation h =>
    rw [h.rest]
    exact .kept (.inr fun h => by cases h)

/-! ### A finding for examples -/

/-- A user of the office who may do everything with findings. -/
def member (userId k : Uuid) : Ctx := { Workpapers.actor userId k with
  permissions := [.findingRead, .findingManage, .findingSubmit, .findingRespond, .findingValidate] }

/-- A user takes an action on finding 200. -/
def take (userId k : Uuid) (action : String) : Operation := .transition (member userId k) 200 { action }

/-- A user edits finding 200. -/
def change (userId k : Uuid) (dto : UpdateFindingDto) : Operation := .edit (.update (member userId k) 200 dto)

/-- Ann has raised finding 200, for which Ben is to act, and submitted it. -/
def submitted : List Operation :=
  [take 1 203 "submit",
    .edit (.create (member 1 200) {
      engagementId := 10
      title := "Cash"
      severity := .high
      condition := "Not counted"
      criteria := "Count weekly"
      recommendation := some (some "Count")
      actionOwnerId := some (some 2)
      dueDate := some (some 500) })]

/-- Ben has responded and agreed. -/
def agreed : List Operation :=
  take 2 205 "agree" :: change 2 204 { managementResponse := some (some "We will") } :: submitted

/-- The operation succeeds. -/
def succeeds (s : Db) (o : Operation) : Bool := ((perform o).run s).1.isOk

theorem accepted_of_succeeds {s : Db} {o : Operation} (h : succeeds s o = true) : Accepted perform s o := by
  unfold succeeds at h
  rcases hrun : (perform o).run s with ⟨e | a, s'⟩
  · rw [hrun] at h
    cases h
  · exact ⟨a, s', hrun⟩

end AuditSphere.Findings
