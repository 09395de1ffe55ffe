import AuditSphere.Findings.History

/-!
# What was agreed

Management agrees a finding with a response, an action owner and a due date. What is
proved of every history of operations:

* `agreed_unless_cleared` — an agreed finding has all three, unless an edit has taken one
  away since; one can (`response_cleared`).
* `dueDate_kept_iff` — the due date of an agreed finding moves only by extensions exactly
  if no edit supplies another one; one can (`dueDate_slipped`).
* `validator_not_owner_iff` — who validates a finding is not its action owner exactly if
  the finding is not addressed to that user's e-mail address; it can be
  (`validated_by_owner`).
-/

namespace AuditSphere.Findings

open Prisma Theory Shared

/-- The statuses of a finding that management has agreed. -/
def agreedStatuses : List FindingStatus := [.agreed, .implementation, .validation, .closed]

/-- Finding `i` is moved by an action. -/
def Moves (action : String) (i : Uuid) (s : Db) (o : Operation) : Prop :=
  (∃ ctx dto, o = .transition ctx i dto ∧ dto.action = action) ∧ Accepted perform s o

/-- Finding `i` is edited, with properties of a certain kind. -/
def Edits (supplies : UpdateFindingDto → Prop) (i : Uuid) (s : Db) (o : Operation) : Prop :=
  (∃ ctx dto, o = .edit (.update ctx i dto) ∧ supplies dto) ∧ Accepted perform s o

theorem Moves.finding {action : String} {i : Uuid} {s : Db} {o : Operation} (h : Moves action i s o) :
    o.finding = some i := by
  obtain ⟨⟨ctx, dto, rfl, -⟩, -⟩ := h
  rfl

/-- A row that is kept is not moved. -/
theorem not_moves_of_kept {action : String} {i : Uuid} {s : Db} {o : Operation}
    (h : ¬Accepted perform s o ∨ o.finding ≠ some i) : ¬Moves action i s o :=
  fun hmoves => h.elim (fun hfail => hfail hmoves.2) fun hother => hother hmoves.finding

/-! ### What an edit changes -/

/-- What an edit makes of a finding. -/
theorem apply_ok {dto : UpdateFindingDto} {f f' : Finding} (h : dto.apply f = .ok f') :
    f'.managementResponse = dto.managementResponse.onNullable f.managementResponse ∧
      f'.actionOwnerId = dto.actionOwnerId.onNullable f.actionOwnerId ∧
      f'.actionOwnerName = dto.actionOwnerName.onNullable f.actionOwnerName ∧
      f'.actionOwnerEmail = dto.actionOwnerEmail.onNullable f.actionOwnerEmail ∧
      f'.dueDate = dto.dueDate.onNullable f.dueDate ∧ f'.status = f.status ∧
      f'.originalDueDate = f.originalDueDate ∧ f'.extensionCount = f.extensionCount ∧
      f'.engagementId = f.engagementId ∧ f'.tenantId = f.tenantId ∧ f'.deletedAt = f.deletedAt := by
  unfold UpdateFindingDto.apply at h
  split at h
  · cases h
    exact ⟨rfl, rfl, rfl, rfl, rfl, rfl, rfl, rfl, rfl, rfl, rfl⟩
  · cases h

/-! ### Response, owner and due date -/

/-- The response that an edit supplies is blank. -/
def ClearsResponse (dto : UpdateFindingDto) : Prop := ∃ v, dto.managementResponse = some v ∧ isBlank v = true

/-- An edit takes away one of the names of the action owner. -/
def ClearsOwner (dto : UpdateFindingDto) : Prop :=
  dto.actionOwnerId = some none ∨ (∃ v, dto.actionOwnerName = some v ∧ isBlank v = true) ∨
    ∃ v, dto.actionOwnerEmail = some v ∧ isBlank v = true

/-- An edit takes away the due date. -/
def ClearsDueDate (dto : UpdateFindingDto) : Prop := dto.dueDate = some none

section Lacking

variable (lacks : Finding → Bool) {clears : UpdateFindingDto → Prop} {s₀ : Db} {i : Uuid}

/-- What a finding is asked for when it is agreed, it lacks only if it was taken away since. -/
theorem lacking_since_agreed
    (happly : ∀ dto f f', dto.apply f = .ok f' → lacks f' = true → lacks f = true ∨ clears dto)
    (hmoved : ∀ ctx t f, lacks (transitioned ctx t f f) = lacks f)
    (hextended : ∀ dto f, lacks (extended dto f f) = true → lacks f = true)
    (hguards : ∀ ctx f s, (∀ guard ∈ FindingWorkflow.agree.guards, guardHolds ctx i f guard s) → lacks f = false)
    (h₀ : ∀ f, s₀.findings.find i = some f → f.status ∉ agreedStatuses) (past : List Operation) :
    ∀ f, (history perform s₀ past).findings.find i = some f → f.status ∈ agreedStatuses → lacks f = true →
      Since perform (Moves "agree" i) (Edits clears i) s₀ past := by
  induction past with
  | nil => exact fun f hf hstatus _ => absurd hstatus (h₀ f hf)
  | cons o past ih =>
    intro f' hf' hstatus hlacks
    have hstep := perform_row (history perform s₀ past) o i
    rw [history] at hf'
    generalize (after perform (history perform s₀ past) o).findings.find i = row at hstep hf'
    cases hstep with
    | kept h => exact .inr ⟨not_moves_of_kept h, ih f' hf' hstatus hlacks⟩
    | created engagement reference _ _ _ _ =>
      cases hf'
      exact absurd hstatus (by simp [newFinding, agreedStatuses])
    | @edited ctx dto f _ accepted hfound _ change =>
      cases hf'
      obtain ⟨-, -, -, -, -, hstatus', -⟩ := apply_ok change
      rw [hstatus'] at hstatus
      rcases happly dto f f' change hlacks with hlacked | hclears
      · refine .inr ⟨?_, ih f (found_eq_some.mp hfound).1 hstatus hlacked⟩
        rintro ⟨⟨_, _, ⟨⟩, _⟩, _⟩
      · exact .inl ⟨⟨ctx, dto, rfl, hclears⟩, accepted⟩
    | @moved ctx dto t f accepted hfound declared guards =>
      cases hf'
      obtain ⟨-, -, -, -, -, -, -, -, -, -, hto⟩ := transitioned_kept ctx t f f
      obtain ⟨hcases, hfrom, hname⟩ := findingWorkflow_cases declared
      rw [hmoved] at hlacks
      rw [hto] at hstatus
      by_cases hagree : t = FindingWorkflow.agree
      · -- the guards have just asked for it
        subst hagree
        have := hguards ctx f _ fun guard hguard => guards guard (List.mem_append_left _ hguard)
        rw [hlacks] at this
        cases this
      · have hagreed : f.status ∈ agreedStatuses := by
          rw [hfrom]
          rcases hcases with rfl | rfl | rfl | rfl | rfl | rfl | rfl | rfl
          case inr.inr.inl => exact absurd rfl hagree
          all_goals first | decide | exact absurd hstatus (by decide)
        refine .inr ⟨?_, ih f (found_eq_some.mp hfound).1 hagreed hlacks⟩
        rintro ⟨⟨_, _, ⟨⟩, h⟩, _⟩
        rw [hname] at h
        rcases hcases with rfl | rfl | rfl | rfl | rfl | rfl | rfl | rfl
        case inr.inr.inl => exact hagree rfl
        all_goals exact absurd h (by decide)
    | @extended ctx dto f accepted hfound actionable _ =>
      cases hf'
      refine .inr ⟨?_, ih f (found_eq_some.mp hfound).1 hstatus (hextended dto f hlacks)⟩
      rintro ⟨⟨_, _, ⟨⟩, _⟩, _⟩

end Lacking

/-- The guards of `agree` ask for a response, an action owner and a due date. -/
theorem agree_guards {ctx : Ctx} {i : Uuid} {f : Finding} {s : Db}
    (h : ∀ guard ∈ FindingWorkflow.agree.guards, guardHolds ctx i f guard s) :
    isBlank f.managementResponse = false ∧ hasOwner f = true ∧ f.dueDate.isSome = true :=
  ⟨h "has_management_response" (by decide), h "has_action_owner_and_due_date" (by decide)⟩

/-- **Agreed unless cleared**: an agreed finding has a response, an action owner and a due
date, unless an edit has taken it away since the finding was last agreed. -/
theorem agreed_unless_cleared (s₀ : Db) (i : Uuid)
    (h₀ : ∀ f, s₀.findings.find i = some f → f.status ∉ agreedStatuses) (past : List Operation) (f : Finding)
    (hf : (history perform s₀ past).findings.find i = some f) (hstatus : f.status ∈ agreedStatuses) :
    (isBlank f.managementResponse = true → Since perform (Moves "agree" i) (Edits ClearsResponse i) s₀ past) ∧
      (hasOwner f = false → Since perform (Moves "agree" i) (Edits ClearsOwner i) s₀ past) ∧
      (f.dueDate = none → Since perform (Moves "agree" i) (Edits ClearsDueDate i) s₀ past) := by
  refine ⟨fun hlacks => ?_, fun hlacks => ?_, fun hlacks => ?_⟩
  · refine lacking_since_agreed (fun f => isBlank f.managementResponse) ?_ ?_ (fun _ _ => id)
      (fun _ _ _ h => (agree_guards h).1) h₀ past f hf hstatus hlacks
    · intro dto f f' h hblank
      rw [(apply_ok h).1] at hblank
      cases hv : dto.managementResponse with
      | none => exact .inl (by simpa [hv] using hblank)
      | some v => exact .inr ⟨v, hv, by simpa [hv] using hblank⟩
    · intro ctx t f
      obtain ⟨-, -, -, -, -, -, hresponse, -⟩ := transitioned_kept ctx t f f
      exact congrArg isBlank hresponse
  · refine lacking_since_agreed (fun f => !hasOwner f) ?_ ?_ (fun _ _ => id)
      (fun _ _ _ h => by simp [(agree_guards h).2.1]) h₀ past f hf hstatus (by simp [hlacks])
    · intro dto f f' h hblank
      obtain ⟨-, hid, hname, hemail, -⟩ := apply_ok h
      by_contra hnot
      simp only [hasOwner, hid, hname, hemail, ClearsOwner, not_or, not_exists, not_and] at hblank hnot
      obtain ⟨howner, hid', hname', hemail'⟩ := hnot
      cases hi : dto.actionOwnerId <;> cases hn : dto.actionOwnerName <;> cases he : dto.actionOwnerEmail <;>
        simp_all
    · intro ctx t f
      obtain ⟨-, -, -, -, -, -, -, hid, hname, hemail, -⟩ := transitioned_kept ctx t f f
      simp only [hasOwner, hid, hname, hemail]
  · refine lacking_since_agreed (fun f => f.dueDate.isNone) ?_ ?_ (fun _ _ h => by cases h)
      (fun _ _ _ h => by simp [(agree_guards h).2.2]) h₀ past f hf hstatus (by simp [hlacks])
    · intro dto f f' h hnone
      rw [(apply_ok h).2.2.2.2.1] at hnone
      cases hv : dto.dueDate with
      | none => exact .inl (by simpa [hv] using hnone)
      | some v => exact .inr (by simpa [hv, ClearsDueDate] using hnone)
    · intro ctx t f
      obtain ⟨-, -, -, -, hdue, -⟩ := transitioned_kept ctx t f f
      exact congrArg Option.isNone hdue

/-- Ben blanks the response of a finding that he has agreed. -/
def cleared : List Operation := change 2 206 { managementResponse := some none } :: agreed

/-- An agreed finding can be without a response. -/
theorem response_cleared : ∃ f, (history perform Workpapers.office cleared).findings.find 200 = some f ∧
    f.status ∈ agreedStatuses ∧ isBlank f.managementResponse = true :=
  ⟨_, rfl, by decide, rfl⟩

/-- The theorem at that finding. -/
theorem agreed_unless_cleared_ben :
    Since perform (Moves "agree" 200) (Edits ClearsResponse 200) Workpapers.office cleared :=
  (agreed_unless_cleared Workpapers.office 200 (fun _ h => by cases h) cleared _ rfl (by decide)).1 rfl

/-! ### The due date -/

/-- The due date of finding `i` changes only together with the number of its extensions. -/
def MovesByExtension (i : Uuid) (s s' : Db) : Prop :=
  ∀ f f', s.findings.find i = some f → s'.findings.find i = some f' → f'.dueDate ≠ f.dueDate →
    f'.extensionCount = f.extensionCount + 1

/-- If finding `i` is due later than originally, it has been extended. -/
def LateOnlyIfExtended (i : Uuid) (s : Db) : Prop :=
  ∀ f due original, s.findings.find i = some f → f.dueDate = some due → f.originalDueDate = some original →
    original < due → 0 < f.extensionCount

section DueDate

variable (s₀ : Db) (i : Uuid)

/-- Finding `i` has been agreed. -/
def HasBeenAgreed (past : List Operation) : Prop := Since perform (fun _ _ => False) (Moves "agree" i) s₀ past

/-- Once finding `i` has been agreed, its due date slips only through extensions. -/
def DueDateKept : List Operation → Prop
  | [] => True
  | o :: past => DueDateKept past ∧
      (HasBeenAgreed s₀ i past → MovesByExtension i (history perform s₀ past) (history perform s₀ (o :: past))) ∧
      (HasBeenAgreed s₀ i (o :: past) → LateOnlyIfExtended i (history perform s₀ (o :: past)))

end DueDate

/-- An edit supplies another due date for finding `i`, which is agreed. -/
def Redates (i : Uuid) (s : Db) (o : Operation) : Prop :=
  ∃ f, s.findings.find i = some f ∧ f.status ∈ agreedStatuses ∧
    Edits (fun dto => ∃ d, dto.dueDate = some d ∧ d ≠ f.dueDate) i s o

/-- An edited finding, where no other due date is supplied for an agreed one. -/
theorem dueDate_of_not_redates {i : Uuid} {s : Db} {ctx : Ctx} {dto : UpdateFindingDto} {f f' : Finding}
    (hnot : ¬Redates i s (.edit (.update ctx i dto))) (hacc : Accepted perform s (.edit (.update ctx i dto)))
    (hf : s.findings.find i = some f) (hstatus : f.status ∈ agreedStatuses) (h : dto.apply f = .ok f') :
    f'.dueDate = f.dueDate := by
  rw [(apply_ok h).2.2.2.2.1]
  cases hd : dto.dueDate with
  | none => rfl
  | some d =>
    by_contra hne
    exact hnot ⟨f, hf, hstatus, ⟨ctx, dto, rfl, d, hd, hne⟩, hacc⟩

/-- What holds of the dates of a finding, as long as no edit supplies another due date. -/
def DatesFit (f : Finding) : Prop :=
  if f.status ∈ agreedStatuses then f.extensionCount = 0 → f.dueDate = f.originalDueDate
  else f.originalDueDate = none

/-- What a transition makes of the dates. -/
theorem transitioned_dates {ctx : Ctx} {t : Transition FindingStatus} {f : Finding} {action : String}
    (h : findTransition findingWorkflow f.status action = some t) (hfit : DatesFit f) : DatesFit (transitioned ctx t f f) := by
  obtain ⟨hcases, hfrom, -⟩ := findingWorkflow_cases h
  unfold DatesFit at hfit ⊢
  rcases hcases with rfl | rfl | rfl | rfl | rfl | rfl | rfl | rfl <;> rw [hfrom] at hfit
  case inr.inr.inl =>
    intro _
    have hnone : f.originalDueDate = none := hfit
    simp [transitioned, FindingWorkflow.agree, hnone]
  all_goals exact hfit

section DueDate

variable {s₀ : Db} {i : Uuid}

/-- The agreed statuses are those of the findings that have been agreed. -/
theorem hasBeenAgreed_iff (h₀ : ∀ f, s₀.findings.find i = some f → f.status ∉ agreedStatuses) (past : List Operation) :
    HasBeenAgreed s₀ i past ↔ ∃ f, (history perform s₀ past).findings.find i = some f ∧ f.status ∈ agreedStatuses := by
  induction past with
  | nil =>
    refine ⟨fun h => h.elim, ?_⟩
    rintro ⟨f, hf, hstatus⟩
    exact h₀ f hf hstatus
  | cons o past ih =>
    have hsplit : HasBeenAgreed s₀ i (o :: past) ↔
        Moves "agree" i (history perform s₀ past) o ∨ HasBeenAgreed s₀ i past := by
      simp [HasBeenAgreed, Since]
    rw [hsplit, ih]
    have hstep := perform_row (history perform s₀ past) o i
    rw [history]
    generalize (after perform (history perform s₀ past) o).findings.find i = row at hstep ⊢
    cases hstep with
    | kept h => simp [not_moves_of_kept h]
    | @created ctx dto engagement reference _ fresh _ _ =>
      have hnot : ¬Moves "agree" i (history perform s₀ past) (.edit (.create ctx dto)) := by
        rintro ⟨⟨_, _, ⟨⟩, -⟩, -⟩
      rw [fresh]
      simp [hnot, newFinding, agreedStatuses]
    | @edited ctx dto f f' _ hfound _ change =>
      have hnot : ¬Moves "agree" i (history perform s₀ past) (.edit (.update ctx i dto)) := by
        rintro ⟨⟨_, _, ⟨⟩, -⟩, -⟩
      obtain ⟨-, -, -, -, -, hstatus, -⟩ := apply_ok change
      simp [hnot, (found_eq_some.mp hfound).1, hstatus]
    | @moved ctx dto t f accepted hfound declared _ =>
      obtain ⟨-, -, -, -, -, -, -, -, -, -, hto⟩ := transitioned_kept ctx t f f
      obtain ⟨hcases, hfrom, hname⟩ := findingWorkflow_cases declared
      have hmoves : Moves "agree" i (history perform s₀ past) (.transition ctx i dto) ↔ dto.action = "agree" := by
        constructor
        · rintro ⟨⟨_, _, ⟨⟩, h⟩, -⟩
          exact h
        · exact fun h => ⟨⟨ctx, dto, rfl, h⟩, accepted⟩
      rw [hmoves, hname, (found_eq_some.mp hfound).1]
      simp only [Option.some.injEq, exists_eq_left', hto, hfrom]
      rcases hcases with rfl | rfl | rfl | rfl | rfl | rfl | rfl | rfl <;> decide
    | @extended ctx dto f _ hfound _ _ =>
      have hnot : ¬Moves "agree" i (history perform s₀ past) (.extend ctx i dto) := by
        rintro ⟨⟨_, _, ⟨⟩, -⟩, -⟩
      simp [hnot, (found_eq_some.mp hfound).1, extended]

/-- The dates fit in every state of a history in which no edit supplies another due date. -/
theorem datesFit_of_history (h₀ : ∀ f, s₀.findings.find i = some f → f.status ∉ agreedStatuses ∧ f.originalDueDate = none)
    (past : List Operation) (halways : Always perform (fun s o => ¬Redates i s o) s₀ past) :
    ∀ f, (history perform s₀ past).findings.find i = some f → DatesFit f := by
  induction past with
  | nil =>
    intro f hf
    obtain ⟨hstatus, hnone⟩ := h₀ f hf
    simpa [DatesFit, hstatus] using hnone
  | cons o past ih =>
    intro f' hf'
    have hstep := perform_row (history perform s₀ past) o i
    rw [history] at hf'
    generalize (after perform (history perform s₀ past) o).findings.find i = row at hstep hf'
    cases hstep with
    | kept h => exact ih halways.2 f' hf'
    | created engagement reference _ _ _ _ =>
      cases hf'
      exact rfl
    | @edited ctx dto f _ accepted hfound _ change =>
      cases hf'
      have hrow := (found_eq_some.mp hfound).1
      have hfit := ih halways.2 f hrow
      obtain ⟨-, -, -, -, -, hstatus, horiginal, hcount, -⟩ := apply_ok change
      unfold DatesFit at hfit ⊢
      rw [hstatus, horiginal, hcount]
      by_cases hagreed : f.status ∈ agreedStatuses
      · rw [if_pos hagreed] at hfit ⊢
        rw [dueDate_of_not_redates halways.1 accepted hrow hagreed change]
        exact hfit
      · rw [if_neg hagreed] at hfit ⊢
        exact hfit
    | moved t f _ hfound declared _ =>
      cases hf'
      exact transitioned_dates declared (ih halways.2 f (found_eq_some.mp hfound).1)
    | extended f _ hfound actionable _ =>
      cases hf'
      have hagreed : f.status ∈ agreedStatuses := by
        simp only [actionableStatuses, agreedStatuses, List.mem_cons] at actionable ⊢
        tauto
      unfold DatesFit
      rw [if_pos (by exact hagreed)]
      exact fun h => absurd h (Nat.succ_ne_zero _)

end DueDate

/-- **The due date**: once a finding has been agreed, its due date slips only through
extensions, exactly as long as no edit supplies another one. -/
theorem dueDate_kept_iff (s₀ : Db) (i : Uuid)
    (h₀ : ∀ f, s₀.findings.find i = some f → f.status ∉ agreedStatuses ∧ f.originalDueDate = none)
    (past : List Operation) : DueDateKept s₀ i past ↔ Always perform (fun s o => ¬Redates i s o) s₀ past := by
  have hagreed := hasBeenAgreed_iff fun f hf => (h₀ f hf).1
  induction past with
  | nil => exact Iff.rfl
  | cons o past ih =>
    constructor
    · rintro ⟨hkept, hmoves, -⟩
      refine ⟨?_, ih.mp hkept⟩
      rintro ⟨f, hf, hstatus, ⟨ctx, dto, rfl, d, hd, hne⟩, hacc⟩
      have hmoves := hmoves ((hagreed past).mpr ⟨f, hf, hstatus⟩)
      have hstep := perform_row (history perform s₀ past) (.edit (.update ctx i dto)) i
      cases hrow : (after perform (history perform s₀ past) (.edit (.update ctx i dto))).findings.find i with
      | none =>
        rw [hrow] at hstep
        generalize hr : (none : Option Finding) = row at hstep
        cases hstep with
        | kept h => exact h.elim (fun h => h hacc) fun h => h rfl
        | edited => cases hr
      | some f' =>
        rw [hrow] at hstep
        generalize hr : some f' = row at hstep
        cases hstep with
        | kept h => exact h.elim (fun h => h hacc) fun h => h rfl
        | edited f₁ f₂ _ hfound _ change =>
          cases hr
          rw [(found_eq_some.mp hfound).1, Option.some.injEq] at hf
          subst hf
          obtain ⟨-, -, -, -, hdue, -, -, hcount, -⟩ := apply_ok change
          rw [hd, Field.onNullable_some] at hdue
          have := hmoves f₁ f' (found_eq_some.mp hfound).1 hrow (by rw [hdue]; exact hne)
          omega
    · intro halways
      refine ⟨ih.mpr halways.2, fun hbefore f f' hf hf' hne => ?_, fun hnow f due original hf hdue horiginal hlt => ?_⟩
      · obtain ⟨f₁, hf₁, hstatus⟩ := (hagreed past).mp hbefore
        rw [hf, Option.some.injEq] at hf₁
        subst hf₁
        have hstep := perform_row (history perform s₀ past) o i
        rw [history] at hf'
        generalize (after perform (history perform s₀ past) o).findings.find i = row at hstep hf'
        cases hstep with
        | kept h =>
          rw [hf, Option.some.injEq] at hf'
          exact absurd (congrArg Finding.dueDate hf').symm hne
        | created _ _ _ fresh _ _ =>
          rw [hf] at fresh
          cases fresh
        | edited f₁ f₂ accepted hfound _ change =>
          cases hf'
          have hrow := (found_eq_some.mp hfound).1
          rw [hf, Option.some.injEq] at hrow
          subst hrow
          exact absurd (dueDate_of_not_redates halways.1 accepted hf hstatus change) hne
        | @moved ctx dto t f₁ _ hfound _ _ =>
          cases hf'
          have hrow := (found_eq_some.mp hfound).1
          rw [hf, Option.some.injEq] at hrow
          subst hrow
          obtain ⟨-, -, -, -, hdue, -⟩ := transitioned_kept ctx t f f
          exact absurd hdue hne
        | extended f₁ _ hfound _ _ =>
          cases hf'
          have hrow := (found_eq_some.mp hfound).1
          rw [hf, Option.some.injEq] at hrow
          subst hrow
          rfl
      · obtain ⟨f₁, hf₁, hstatus⟩ := (hagreed (o :: past)).mp hnow
        rw [hf, Option.some.injEq] at hf₁
        subst hf₁
        have hfit := datesFit_of_history h₀ (o :: past) halways f hf
        rw [DatesFit, if_pos hstatus, hdue, horiginal, Option.some.injEq] at hfit
        by_contra hzero
        exact absurd (hfit (by omega)) (Nat.ne_of_gt hlt)

/-- Ben gives himself more time. -/
def slipped : List Operation := change 2 206 { dueDate := some (some 900) } :: agreed

/-- The due date of an agreed finding can slip without an extension. -/
theorem dueDate_slipped : HasBeenAgreed Workpapers.office 200 slipped ∧
    ∃ f, (history perform Workpapers.office slipped).findings.find 200 = some f ∧
      f.dueDate = some 900 ∧ f.originalDueDate = some 500 ∧ f.extensionCount = 0 :=
  ⟨(hasBeenAgreed_iff (fun _ h => by cases h) slipped).mpr ⟨_, rfl, by decide⟩, _, rfl, rfl, rfl, rfl⟩

/-- The theorem before he does. -/
theorem dueDate_kept_agreed : DueDateKept Workpapers.office 200 agreed := by
  refine (dueDate_kept_iff Workpapers.office 200 (fun _ h => by cases h) agreed).mpr ?_
  refine ⟨?_, ?_, ?_, ?_, trivial⟩
  · rintro ⟨f, -, -, ⟨_, _, ⟨⟩, -⟩, -⟩
  · rintro ⟨f, -, -, ⟨_, _, heq, d, hd, -⟩, -⟩
    cases heq
    cases hd
  · rintro ⟨f, -, -, ⟨_, _, ⟨⟩, -⟩, -⟩
  · rintro ⟨f, -, -, ⟨_, _, ⟨⟩, -⟩, -⟩

/-! ### The validator -/

/-- **The validator**: in every history, who validates a finding, or rejects its validation,
is not its action owner exactly if the finding is not addressed to that user's e-mail address. -/
theorem validator_not_owner_iff (s₀ : Db) (past : List Operation) (ctx : Ctx) (id : Uuid) (dto : TransitionDto)
    (haction : dto.action = "validate_and_close" ∨ dto.action = "reject_validation")
    (hacc : Accepted perform (history perform s₀ past) (.transition ctx id dto)) :
    ∃ f, (history perform s₀ past).findings.find id = some f ∧
      (ObjectAccess.directFindingOwnerScope ctx f = false ↔ ObjectAccess.byEmail ctx f.actionOwnerEmail = false) := by
  have hstep := perform_row (history perform s₀ past) (.transition ctx id dto) id
  generalize (after perform (history perform s₀ past) (.transition ctx id dto)).findings.find id = row at hstep
  cases hstep with
  | kept h => exact h.elim (fun h => absurd hacc h) fun h => absurd rfl h
  | moved t f _ hfound _ guards =>
    have hother : f.actionOwnerId ≠ some ctx.userId :=
      guards validatorGuard (List.mem_append_right _ (by simp [extraGuardsFor, haction]))
    exact ⟨f, (found_eq_some.mp hfound).1, by simp [ObjectAccess.directFindingOwnerScope, hother]⟩

/-- A user of the office, with an e-mail address. -/
def addressed (userId k : Uuid) (email : String) : Ctx := { member userId k with email := some email }

/-- Finding 200 is addressed to Ben by e-mail, agreed, and implemented. -/
def implemented : List Operation :=
  [take 2 209 "request_validation",
    .updateRecommendation (member 2 208) 207 { status := some (some .implemented) },
    .addRecommendation (member 1 207) 200 { text := "Count weekly" },
    take 2 206 "start_implementation", take 2 205 "agree",
    change 2 204 {
      managementResponse := some (some "We will")
      actionOwnerId := some none
      actionOwnerEmail := some (some "BEN@bank.example") }] ++ submitted

/-- Ben validates the finding. -/
def validation : Operation := .transition (addressed 2 210 "ben@bank.example") 200 { action := "validate_and_close" }

/-- The action owner of a finding can validate it. -/
theorem validated_by_owner : Accepted perform (history perform Workpapers.office implemented) validation ∧
    ∃ f, (history perform Workpapers.office implemented).findings.find 200 = some f ∧
      ObjectAccess.directFindingOwnerScope (addressed 2 210 "ben@bank.example") f = true := by
  have hemail : ((history perform Workpapers.office implemented).findings.find 200).map (·.actionOwnerEmail) =
      some (some "BEN@bank.example") := by
    decide +kernel
  obtain ⟨f, hf, hemail⟩ := Option.map_eq_some_iff.mp hemail
  have hsame : "BEN@bank.example".toLower = "ben@bank.example".toLower := by
    show String.map Char.toLower _ = String.map Char.toLower _
    simp [← String.toList_inj, String.toList_map]
  refine ⟨accepted_of_succeeds (by decide +kernel), f, hf, ?_⟩
  simp [ObjectAccess.directFindingOwnerScope, ObjectAccess.byEmail, addressed, hemail, hsame]

/-- The theorem at that validation. -/
theorem validator_not_owner_iff_ben : ∃ f, (history perform Workpapers.office implemented).findings.find 200 = some f ∧
    (ObjectAccess.directFindingOwnerScope (addressed 2 210 "ben@bank.example") f = false ↔
      ObjectAccess.byEmail (addressed 2 210 "ben@bank.example") f.actionOwnerEmail = false) :=
  validator_not_owner_iff Workpapers.office implemented (addressed 2 210 "ben@bank.example") 200
    { action := "validate_and_close" } (.inl rfl) (accepted_of_succeeds (by decide +kernel))

end AuditSphere.Findings
