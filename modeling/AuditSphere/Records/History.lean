import AuditSphere.Engagements.Work
import AuditSphere.Theory.Path

/-!
# Histories of findings and engagements

Each finding and each engagement has a history of its status or stage: one row when it
is created, and one for every transition, written in the transaction that moves the
record (`findingRecord`, `engagementRecord`). A transition reads the record at its
second call, checks what it has read, and writes later, with no look at the record as
it is then.

So the rows are a path through the workflow exactly as long as every transaction of a
transition finds the record where it was read (`history_path_iff`). What no interleaving
breaks: each row is a declared step, and the last one leads to the status (`rows_declared`).
-/

namespace AuditSphere.Work

open Prisma Theory Shared

/-! ### Records -/

/-- A step that the machine declares. -/
def Declared {S : Type} (m : StateMachine S) (a b : S) : Prop := ∃ t ∈ m.transitions, t.fromState = a ∧ t.toState = b

section Record

variable {S ρ η : Type} (state : ρ → S) (row : η → Uuid × Option S × S)

/-- The record under a key, with the rows of the history that are of this key. -/
def record (rows : Table Uuid ρ) (history : Table Uuid η) (i : Uuid) : Recorded S where
  state := (rows.find i).map state
  rows := (history.entries.filter fun h => (row h.2).1 = i).map fun h => (row h.2).2

variable {state row} {rows rows' : Table Uuid ρ} {history history' : Table Uuid η} {i id hid : Uuid} {h : η}

/-- An entry is added to the history of its record. -/
theorem record_appended (happended : history'.entries = (hid, h) :: history.entries) :
    (record state row rows history' i).rows =
      if (row h).1 = i then (row h).2 :: (record state row rows history i).rows
      else (record state row rows history i).rows := by
  unfold record
  dsimp only
  rw [happended, List.filter_cons]
  by_cases hi : (row h).1 = i
  · rw [if_pos (by simpa using hi), if_pos hi, List.map_cons]
  · rw [if_neg (by simpa using hi), if_neg hi]

variable {initial : S} {declared : S → S → Prop} {read : Option S}

/-- An edit that keeps the state. -/
theorem record_edited {r r' : ρ} (hrow : rows.find id = some r) (hstate : state r' = state r)
    (hrows : ∀ j, rows'.find j = if j = id then some r' else rows.find j) :
    record state row rows' history i = record state row rows history i := by
  unfold record
  rw [hrows]
  split
  · rename_i hi
    rw [hi, hrow, Option.map_some, Option.map_some, hstate]
  · rfl

/-- A record that is created with its first entry. -/
theorem record_created {r : ρ} (hfresh : rows.find id = none) (hstate : state r = initial)
    (hrows : ∀ j, rows'.find j = if j = id then some r else rows.find j)
    (happended : history'.entries = (hid, h) :: history.entries) (hentry : row h = (id, none, initial)) :
    Advance initial declared read (record state row rows history i) (record state row rows' history' i) := by
  have hstate' : (record state row rows' history' i).state = (rows'.find i).map state := rfl
  have hlater : (record state row rows' history' i).rows = _ := record_appended happended
  rw [hentry] at hlater
  rw [hrows] at hstate'
  generalize record state row rows' history' i = v' at hstate' hlater ⊢
  obtain ⟨state', rows'⟩ := v'
  dsimp only at hstate' hlater
  subst hstate' hlater
  by_cases hi : i = id
  · subst hi
    rw [if_pos rfl, if_pos rfl, Option.map_some, hstate]
    unfold record
    rw [hfresh]
    exact .created
  · rw [if_neg hi, if_neg (Ne.symm hi)]
    exact .kept _

/-- A record that is moved with an entry. -/
theorem record_moved {r r' : ρ} {a c : S} (hrow : rows.find id = some r) (hstate : state r' = c)
    (hrows : ∀ j, rows'.find j = if j = id then some r' else rows.find j)
    (happended : history'.entries = (hid, h) :: history.entries) (hentry : row h = (id, some a, c))
    (hac : declared a c) (hread : i = id → read = some a) :
    Advance initial declared read (record state row rows history i) (record state row rows' history' i) := by
  have hstate' : (record state row rows' history' i).state = (rows'.find i).map state := rfl
  have hlater : (record state row rows' history' i).rows = _ := record_appended happended
  rw [hentry] at hlater
  rw [hrows] at hstate'
  generalize record state row rows' history' i = v' at hstate' hlater ⊢
  obtain ⟨state', rows'⟩ := v'
  dsimp only at hstate' hlater
  subst hstate' hlater
  by_cases hi : i = id
  · subst hi
    rw [if_pos rfl, if_pos rfl, Option.map_some, hstate]
    unfold record
    rw [hrow]
    exact .moved (hread rfl) hac
  · rw [if_neg hi, if_neg (Ne.symm hi)]
    exact .kept _

end Record

/-- What a transition reads at its second call. -/
theorem readAt_second {S : Type} (view : Db → Recorded S) {s₁ s₂ : Db} {l : List Db} (h : [s₂, s₁] <:+ l) :
    readAt view 1 l = (view s₂).state := by
  obtain ⟨later, rfl⟩ := h
  simp [readAt]

/-! ### Findings -/

/-- A finding with its history. -/
def findingRecord (i : Uuid) (s : Db) : Recorded FindingStatus :=
  record Finding.status (fun h => (h.findingId, h.fromStatus, h.toStatus)) s.findings s.findingHistory i

/-- What a call makes of a finding whose status has been read. -/
abbrev FindingAdvance (i : Uuid) (read : Option FindingStatus) (s s' : Db) : Prop :=
  Advance .draft (Declared findingWorkflow) read (findingRecord i s) (findingRecord i s')

section Findings

variable {i : Uuid} {read : Option FindingStatus} {R : Db → Db → Prop} {s s₁ s₂ : Db}

theorem finding_kept (hrows : s₂.findings = s₁.findings) (hhistory : s₂.findingHistory = s₁.findingHistory) :
    FindingAdvance i read s₁ s₂ := by
  have : findingRecord i s₂ = findingRecord i s₁ := by
    unfold findingRecord
    rw [hrows, hhistory]
  rw [FindingAdvance, this]
  exact .kept _

theorem finding_quiet (h : Quiet s₁ s₂) : FindingAdvance i read s₁ s₂ := by
  obtain ⟨_, _, rfl⟩ := h.eq
  exact finding_kept rfl rfl

theorem finding_moved {ctx : Ctx} {id : Uuid} {dto : TransitionDto} {t : Transition FindingStatus} {finding f : Finding}
    (h : Findings.Moved R s ctx id dto t finding f s₁ s₂) (hread : i = id → read = some finding.status) :
    FindingAdvance i read s₁ s₂ := by
  obtain ⟨ht, hfrom, -⟩ := findTransition_some h.declared
  obtain ⟨-, -, -, -, -, -, -, -, -, -, hstatus⟩ := Findings.transitioned_kept ctx t finding f
  exact record_moved h.row hstatus h.rows h.appended rfl ⟨t, ht, hfrom, rfl⟩ hread

theorem finding_edited {id : Uuid} {f f' : Finding} (hrow : s₁.findings.find id = some f) (hstatus : f'.status = f.status)
    (hrows : ∀ j, s₂.findings.find j = if j = id then some f' else s₁.findings.find j)
    (hrest : s₂ = { s₁ with findings := s₂.findings }) : FindingAdvance i read s₁ s₂ := by
  have hhistory : s₂.findingHistory = s₁.findingHistory := by rw [hrest]
  have : findingRecord i s₂ = findingRecord i s₁ := by
    unfold findingRecord
    rw [hhistory]
    exact record_edited hrow hstatus hrows
  rw [FindingAdvance, this]
  exact .kept _

/-- A call of any other operation on findings. -/
theorem finding_advance {o : Findings.Operation} (ho : ∀ ctx id dto, o ≠ .transition ctx id dto)
    (h : Findings.OperationCall R s o s₁ s₂) : FindingAdvance i read s₁ s₂ := by
  rcases h with hquiet | hcommit
  · exact finding_quiet hquiet
  cases hcommit with
  | edit h =>
    cases h with
    | create h => exact record_created h.fresh rfl h.rows h.appended rfl
    | update h =>
      obtain ⟨-, -, -, -, -, hstatus, -⟩ := Findings.apply_ok h.change
      exact finding_edited h.row hstatus h.rows h.rest
  | transition h => exact absurd rfl (ho _ _ _)
  | extend h => exact finding_edited h.row (show (Findings.extended _ _ _).status = _ from rfl) h.rows h.rest
  | addRecommendation h =>
    rw [h.rest]
    exact finding_kept rfl rfl
  | updateRecommendation h =>
    rw [h.rest]
    exact finding_kept rfl rfl

/-- A transition of a finding, along what it has seen. -/
theorem finding_transition_along (i : Uuid) (ctx : Ctx) (id : Uuid) (dto : TransitionDto) :
    (Findings.perform (.transition ctx id dto)).Along
      (fun l s s' => FindingAdvance i (readAt (findingRecord i) 1 l) s s') (fun _ _ => True) [] := by
  unfold Findings.perform
  dsimp only
  rw [Prog.along_ite]
  split
  · trivial
  refine Prog.Along.map ?_ _
  rw [Findings.transition_eq, Prog.along_bind]
  unfold Findings.assertFinding ObjectAccess.assertFinding
  rw [Prog.along_bind, Prog.along_read_bind]
  refine fun s₁ => ⟨.kept _, ?_⟩
  rw [Prog.along_ite]
  split
  · trivial
  rename_i haccess
  rw [Prog.along_pure]
  dsimp only
  rw [Prog.along_read_bind]
  refine fun s₂ => ⟨.kept _, ?_⟩
  split
  · trivial
  rename_i finding hfound
  rw [Prog.along_pure]
  -- from here on the row is the one that was read in `s₂`
  have hread : (findingRecord id s₂).state = some finding.status := by
    show (s₂.findings.find id).map Finding.status = some finding.status
    rw [(Ctx.findById_eq_some.mp hfound).1]
    rfl
  have hproceed := Findings.proceed_meets (s := s₂) (Interference.of_anything Quiet) trivial hfound
    ⟨s₁, trivial, Findings.accessible_iff_count.mp haccess⟩
    (G := fun a b => Quiet a b ∨ ∃ t f, Findings.Moved (fun _ _ => True) s₂ ctx id dto t finding f a b)
    (C := fun a b => ∃ t f, Findings.Moved (fun _ _ => True) s₂ ctx id dto t finding f a b)
    (fun _ _ => .inl) (fun _ _ => .inr) fun t f _ _ h => ⟨t, f, h⟩
  refine (hproceed.along [s₂, s₁]).mono ?_ fun _ _ _ _ => trivial
  rintro l a b hl (hquiet | ⟨t, f, hmoved⟩)
  · exact finding_quiet hquiet
  · refine finding_moved hmoved fun hi => ?_
    rw [readAt_second _ hl, hi, hread]

end Findings

/-! ### Engagements -/

/-- An engagement with its history. -/
def engagementRecord (i : Uuid) (s : Db) : Recorded EngagementStage :=
  record Engagement.stage (fun h => (h.engagementId, h.fromStage, h.toStage)) s.engagements s.stageHistory i

/-- What a call makes of an engagement whose stage has been read. -/
abbrev EngagementAdvance (i : Uuid) (read : Option EngagementStage) (s s' : Db) : Prop :=
  Advance .planning (Declared engagementWorkflow) read (engagementRecord i s) (engagementRecord i s')

section Engagements

variable {i : Uuid} {read : Option EngagementStage} {R : Db → Db → Prop} {s s₁ s₂ : Db}

theorem engagement_kept (hrows : ∀ j, (s₂.engagements.find j).map Engagement.stage = (s₁.engagements.find j).map Engagement.stage)
    (hhistory : s₂.stageHistory = s₁.stageHistory) : EngagementAdvance i read s₁ s₂ := by
  have : engagementRecord i s₂ = engagementRecord i s₁ := by
    unfold engagementRecord record
    rw [hrows, hhistory]
  rw [EngagementAdvance, this]
  exact .kept _

theorem engagement_aside (h : Engagements.Aside s₁ s₂) : EngagementAdvance i read s₁ s₂ := by
  refine engagement_kept (fun j => ?_) (by rw [h.rest])
  have hrow := h.engagements j
  generalize s₁.engagements.find j = row at hrow
  generalize s₂.engagements.find j = row' at hrow
  cases hrow with
  | none => rfl
  | some hjoined => exact congrArg some hjoined.fields.1

theorem engagement_moved {ctx : Ctx} {id : Uuid} {dto : TransitionDto} {t : Transition EngagementStage}
    {engagement e : Engagement} (h : Engagements.Moved R s ctx id dto t engagement e s₁ s₂)
    (hread : i = id → read = some engagement.stage) : EngagementAdvance i read s₁ s₂ := by
  obtain ⟨ht, hfrom, -⟩ := findTransition_some h.declared
  obtain ⟨-, -, -, -, -, -, -, -, hstage⟩ := Engagements.transitioned_kept ctx t engagement e
  exact record_moved h.row hstage h.rows h.appended rfl ⟨t, ht, hfrom, rfl⟩ hread

/-- A call of any other request for engagements. -/
theorem engagement_advance {r : Engagements.Request} (hr : ∀ ctx id dto, r ≠ .transition ctx id dto)
    (h : Engagements.Call R s r s₁ s₂) : EngagementAdvance i read s₁ s₂ := by
  rcases h with haside | hcommit
  · exact engagement_aside haside
  cases hcommit with
  | create h => exact record_created h.fresh rfl h.rows h.appended rfl
  | update h =>
    refine engagement_kept (fun j => ?_) (by rw [h.rest])
    rw [h.rows]
    split
    · rename_i hj
      rw [hj, h.row]
      exact congrArg some (Engagements.apply_status h.change).1
    · rfl
  | transition h => exact absurd rfl (hr _ _ _)

/-- A transition of an engagement, along what it has seen. -/
theorem engagement_transition_along (i : Uuid) (ctx : Ctx) (id : Uuid) (dto : TransitionDto) :
    (Engagements.serve (.transition ctx id dto)).Along
      (fun l s s' => EngagementAdvance i (readAt (engagementRecord i) 1 l) s s') (fun _ _ => True) [] := by
  unfold Engagements.serve
  dsimp only
  rw [Prog.along_ite]
  split
  · trivial
  refine Prog.Along.map ?_ _
  rw [Engagements.transition_eq, Prog.along_bind]
  unfold Engagements.assertEngagement ObjectAccess.assertEngagement
  rw [Prog.along_read_bind]
  refine fun s₁ => ⟨.kept _, ?_⟩
  rw [Prog.along_ite]
  split
  · trivial
  rename_i haccess
  rw [Prog.along_pure]
  dsimp only
  rw [Prog.along_bind, Prog.along_read_bind]
  refine fun s₂ => ⟨.kept _, ?_⟩
  split
  · trivial
  rename_i engagement hfound
  rw [Prog.along_pure]
  -- from here on the row is the one that was read in `s₂`
  have hread : (engagementRecord id s₂).state = some engagement.stage := by
    show (s₂.engagements.find id).map Engagement.stage = some engagement.stage
    rw [(Ctx.findById_eq_some.mp hfound).1]
    rfl
  have hproceed := Engagements.proceed_meets (s := s₂) (Interference.of_anything Engagements.Aside) trivial hfound
    ⟨s₁, trivial, Engagements.accessible_iff_count.mp haccess⟩
    (G := fun a b => Engagements.Aside a b ∨
      ∃ t e, Engagements.Moved (fun _ _ => True) s₂ ctx id dto t engagement e a b)
    (C := fun a b => ∃ t e, Engagements.Moved (fun _ _ => True) s₂ ctx id dto t engagement e a b)
    (fun _ _ => .inl) (fun _ _ => .inr) fun t e _ _ h => ⟨t, e, h⟩
  refine (hproceed.along [s₂, s₁]).mono ?_ fun _ _ _ _ => trivial
  rintro l a b hl (haside | ⟨t, e, hmoved⟩)
  · exact engagement_aside haside
  · refine engagement_moved hmoved fun hi => ?_
    rw [readAt_second _ hl, hi, hread]

end Engagements

/-! ### All requests -/

/-- A request for a workpaper touches neither findings nor engagements. -/
theorem workpaper_along {P : List Db → Db → Db → Prop} (r : Workpapers.Request)
    (hP : ∀ l a b, b.findings = a.findings → b.findingHistory = a.findingHistory → b.engagements = a.engagements →
      b.stageHistory = a.stageHistory → P l a b) :
    (Workpapers.serve r).Along P (fun _ _ => True) [] := by
  refine ((Workpapers.serve_meets (R := fun _ _ => True) ⟨fun _ => trivial, fun _ _ => trivial, fun _ => trivial⟩ r
    Workpapers.office).along []).mono ?_ fun _ _ _ _ => trivial
  rintro l a b - hcall
  rcases hcall with haside | hcommit
  · rw [haside.rest]
    exact hP l a _ rfl rfl rfl rfl
  · cases hcommit with
    | create h =>
      rw [h.rest]
      exact hP l a _ rfl rfl rfl rfl
    | update h =>
      rw [h.rest]
      exact hP l a _ rfl rfl rfl rfl
    | transition h =>
      rw [h.rest]
      exact hP l a _ rfl rfl rfl rfl
    | createReviewNote h =>
      rw [h.rest]
      exact hP l a _ rfl rfl rfl rfl
    | updateReviewNote h =>
      rw [h.rest]
      exact hP l a _ rfl rfl rfl rfl

/-- Every request, along what it has seen, and a finding. -/
theorem finding_along (i : Uuid) (r : Request) :
    (serve r).Along (fun l s s' => FindingAdvance i (readAt (findingRecord i) 1 l) s s') (fun _ _ => True) [] := by
  cases r with
  | engagement r =>
    refine Prog.Along.map ?_ _
    refine ((Engagements.serve_meets (Interference.of_anything Engagements.Aside) r Workpapers.office).along []).mono ?_
      fun _ _ _ _ => trivial
    rintro l a b - (haside | hcommit)
    · exact finding_kept (by rw [haside.rest]) (by rw [haside.rest])
    · cases hcommit with
      | create h => exact finding_kept (by rw [h.rest]) (by rw [h.rest])
      | update h => exact finding_kept (by rw [h.rest]) (by rw [h.rest])
      | transition h => exact finding_kept (by rw [h.rest]) (by rw [h.rest])
  | workpaper r => exact (workpaper_along r fun _ _ _ hrows hhistory _ _ => finding_kept hrows hhistory).map _
  | finding o =>
    refine Prog.Along.map ?_ _
    by_cases ho : ∀ ctx id dto, o ≠ .transition ctx id dto
    · refine ((Findings.perform_meets (Interference.of_anything Quiet) o Workpapers.office).along []).mono ?_
        fun _ _ _ _ => trivial
      exact fun l a b _ hcall => finding_advance ho hcall
    · push Not at ho
      obtain ⟨ctx, id, dto, rfl⟩ := ho
      exact finding_transition_along i ctx id dto

/-- Every request, along what it has seen, and an engagement. -/
theorem engagement_along (i : Uuid) (r : Request) :
    (serve r).Along (fun l s s' => EngagementAdvance i (readAt (engagementRecord i) 1 l) s s') (fun _ _ => True) [] := by
  have hkept : ∀ {read a b}, b.engagements = a.engagements → b.stageHistory = a.stageHistory →
      EngagementAdvance i read a b := by
    intro read a b hrows hhistory
    exact engagement_kept (fun j => by rw [hrows]) hhistory
  cases r with
  | engagement r =>
    refine Prog.Along.map ?_ _
    by_cases hr : ∀ ctx id dto, r ≠ .transition ctx id dto
    · refine ((Engagements.serve_meets (Interference.of_anything Engagements.Aside) r Workpapers.office).along []).mono
        ?_ fun _ _ _ _ => trivial
      exact fun l a b _ hcall => engagement_advance hr hcall
    · push Not at hr
      obtain ⟨ctx, id, dto, rfl⟩ := hr
      exact engagement_transition_along i ctx id dto
  | workpaper r => exact (workpaper_along r fun _ _ _ _ _ hrows hhistory => hkept hrows hhistory).map _
  | finding o =>
    refine Prog.Along.map ?_ _
    refine ((Findings.perform_meets (Interference.of_anything Quiet) o Workpapers.office).along []).mono ?_
      fun _ _ _ _ => trivial
    rintro l a b - (hquiet | hcommit)
    · obtain ⟨_, _, rfl⟩ := hquiet.eq
      exact hkept rfl rfl
    · cases hcommit with
      | edit h =>
        cases h with
        | create h => exact hkept (by rw [h.rest]) (by rw [h.rest])
        | update h => exact hkept (by rw [h.rest]) (by rw [h.rest])
      | transition h => exact hkept (by rw [h.rest]) (by rw [h.rest])
      | extend h => exact hkept (by rw [h.rest]) (by rw [h.rest])
      | addRecommendation h => exact hkept (by rw [h.rest]) (by rw [h.rest])
      | updateRecommendation h => exact hkept (by rw [h.rest]) (by rw [h.rest])

/-- The rows are a path through the workflow to the status of the finding. -/
abbrev FindingPath (i : Uuid) (s : Db) : Prop := (findingRecord i s).Fits .draft (Declared findingWorkflow)

/-- The rows are a path through the workflow to the stage of the engagement. -/
abbrev EngagementPath (i : Uuid) (s : Db) : Prop := (engagementRecord i s).Fits .planning (Declared engagementWorkflow)

/-- **Histories are paths**, in whatever order any number of requests take their turns,
exactly as long as every transaction that moves a record finds it where it was read. -/
theorem history_path_iff (s₀ : Db) (evs : List (Event Request)) (i : Uuid) :
    (FindingPath i s₀ → ((∀ past, past <:+ evs → FindingPath i (interleave serve s₀ past).st) ↔
      AllCurrent serve (findingRecord i) 1 s₀ evs)) ∧
    (EngagementPath i s₀ → ((∀ past, past <:+ evs → EngagementPath i (interleave serve s₀ past).st) ↔
      AllCurrent serve (engagementRecord i) 1 s₀ evs)) :=
  ⟨fun h => fits_iff_current (finding_along i) h evs, fun h => fits_iff_current (engagement_along i) h evs⟩

/-- **What no interleaving breaks**: every row is a declared step or the first one, and the
last one leads to the status. -/
theorem rows_declared (s₀ : Db) (evs : List (Event Request)) (i : Uuid) :
    (FindingPath i s₀ →
      (findingRecord i (interleave serve s₀ evs).st).Loose .draft (Declared findingWorkflow)) ∧
    (EngagementPath i s₀ →
      (engagementRecord i (interleave serve s₀ evs).st).Loose .planning (Declared engagementWorkflow)) :=
  ⟨fun h => loose_of_interleave (finding_along i) h.loose evs,
    fun h => loose_of_interleave (engagement_along i) h.loose evs⟩

/-! ### Two submissions -/

/-- Ann has raised finding 200. -/
def raised : Db := history Findings.perform Workpapers.office Findings.submitted.tail

theorem raised_record : findingRecord 200 raised = ⟨some .draft, [(none, .draft)]⟩ := by decide +kernel

theorem raised_path : FindingPath 200 raised := by
  rw [FindingPath, raised_record]
  exact .start

/-- She submits it: the request looks twice, and writes at its third call. -/
def submission : List (Event Request) := List.replicate 8 (.turn 0) ++ [.start (.finding (Findings.take 1 203 "submit"))]

/-- The theorem where the finding is submitted once. -/
theorem history_path_submission : ∀ past, past <:+ submission → FindingPath 200 (interleave serve raised past).st :=
  ((history_path_iff raised submission 200).1 raised_path).mpr (by decide +kernel)

/-- She submits it twice at once: both requests read the finding before either writes. -/
def doubleSubmission : List (Event Request) :=
  [.turn 1, .turn 0, .turn 1, .turn 1, .turn 0, .turn 0,
    .start (.finding (Findings.take 1 303 "submit")), .start (.finding (Findings.take 1 203 "submit"))]

/-- Then the history says twice that the finding left the draft. -/
theorem doubleSubmission_branches :
    FindingPath 200 raised ∧ ¬FindingPath 200 (interleave serve raised doubleSubmission).st := by
  refine ⟨raised_path, fun h => ?_⟩
  have hrecord : findingRecord 200 (interleave serve raised doubleSubmission).st =
      ⟨some .managementReview, [(some .draft, .managementReview), (some .draft, .managementReview), (none, .draft)]⟩ := by
    decide +kernel
  rw [FindingPath, hrecord] at h
  have hlast := (path_step_iff.mp h).1.head
  cases hlast

end AuditSphere.Work
