import AuditSphere.Programs.Operations
import AuditSphere.Workpapers.History
import AuditSphere.Common.Pagination
import AuditSphere.Theory.Renumbering

/-!
# The order of the steps

Reordering a programme is meant to number its steps `0, …, n - 1`: those listed
first, in the order in which they are first named, and the others after them, in
the order they were shown in. `reorder` numbers the listed ids one after the
other, so an id named twice leaves a gap, and takes the others as the database
returns them, which is not by their `sortOrder`. `reordered_iff` says that these
are the only two ways to go wrong.
-/

namespace AuditSphere.Programs

open Prisma Theory

/-! ### What reordering is for -/

/-- The steps of a programme, as the database returns them. -/
def stepsOf (ctx : Ctx) (programId : Uuid) (db : Db) : List (WithId AuditProgramStep) :=
  ctx.findMany db.programSteps fun _ s => s.programId = programId

/-- The first step is shown before the second: by `sortOrder`, then by reference. -/
def ShownBefore [Collation] (a b : AuditProgramStep) : Prop :=
  a.sortOrder < b.sortOrder ∨ a.sortOrder = b.sortOrder ∧ Collation.le b.reference a.reference = false

instance [Collation] (a b : AuditProgramStep) : Decidable (ShownBefore a b) :=
  inferInstanceAs (Decidable (_ ∨ _))

theorem not_shownBefore_self [Collation] (a : AuditProgramStep) : ¬ShownBefore a a := by
  rintro (h | ⟨-, h⟩)
  · exact absurd h (lt_irrefl _)
  · have := Collation.le_total a.reference a.reference
    simp [h] at this

/-- What reordering is to make of the steps of a programme. -/
structure Reordered [Collation] (stepIds : List Uuid) (before after : List (WithId AuditProgramStep)) : Prop where
  /-- The steps are those there were. -/
  same : (after.map Prod.fst).Perm (before.map Prod.fst)
  /-- Their places are `0, …, n - 1`, each used once. -/
  places : (after.map fun e => e.2.sortOrder).Perm (List.range after.length)
  /-- Those listed come first, in the order of their first occurrence. -/
  listed : ∀ a ∈ after, ∀ b ∈ after, a.1 ∈ stepIds → stepIds.idxOf a.1 < stepIds.idxOf b.1 →
    a.2.sortOrder < b.2.sortOrder
  /-- The others follow in the order they were shown in. -/
  others : ∀ a ∈ before, ∀ b ∈ before, a.1 ∉ stepIds → b.1 ∉ stepIds → ShownBefore a.2 b.2 →
    ∀ a' ∈ after, ∀ b' ∈ after, a'.1 = a.1 → b'.1 = b.1 → a'.2.sortOrder < b'.2.sortOrder

/-! ### What `reorder` does -/

/-- A step after the steps of a list have been numbered. -/
def placed (ids : List Uuid) (e : WithId AuditProgramStep) : WithId AuditProgramStep :=
  (e.1, { e.2 with sortOrder := renumbered 0 ids e.1 e.2.sortOrder })

/-- The order `reorder` gives the steps. -/
def ordered (stepIds : List Uuid) (steps : List (WithId AuditProgramStep)) : List Uuid :=
  stepIds ++ (steps.map Prod.fst).filter fun id => id ∉ stepIds

theorem renumber_entries {ctx : Ctx} {n : ℕ} {ids : List Uuid} {s s' : Db} {u : Unit}
    (h : (renumber ctx n ids).run s = (.ok u, s')) :
    s'.programSteps.entries = s.programSteps.entries.map fun e =>
      (e.1, { e.2 with sortOrder := renumbered n ids e.1 e.2.sortOrder }) := by
  induction ids generalizing n s with
  | nil =>
    cases h
    exact (List.map_id _).symm
  | cons id ids ih =>
    obtain ⟨_, s₁, h₁, h⟩ := Prog.run_bind_ok.mp h
    obtain ⟨⟨step, t⟩, ht, h₁⟩ := Prog.bind_eq_ok.mp (Prog.run_call_ok.mp h₁)
    cases h₁
    unfold updateRow at ht
    split at ht
    · cases ht
    rename_i r hr
    cases ht
    rw [ih h]
    simp only [Table.modify, List.map_map]
    refine List.map_congr_left fun e he => ?_
    have hfind := (s.programSteps.find_eq_some_iff e.1 e.2).mpr he
    by_cases hid : e.1 = id
    · -- The row under the id is the one that was found.
      have hrow : r = e.2 := by
        have := (Ctx.findById_eq_some.mp hr).1
        rw [← hid, hfind, Option.some.injEq] at this
        exact this.symm
      simp [hid, hrow, renumbered]
    · simp [hid, renumbered]

theorem assertProgram_ok {ctx : Ctx} {id : Uuid} {s s' : Db} {program : AuditProgram}
    (h : (assertProgram ctx id).run s = (.ok program, s')) : s' = s := by
  unfold assertProgram at h
  obtain ⟨_, _, ⟨⟩, h⟩ := Prog.run_bind_ok.mp h
  split at h <;> cases h
  rfl

/-- What an accepted call does: the listed ids are steps of the programme, and the steps are numbered in the
order `ordered`. -/
theorem reorder_ok {ctx : Ctx} {programId : Uuid} {stepIds : List Uuid} {s s' : Db} {v : Option ProgramView}
    (h : (reorder ctx programId stepIds).run s = (.ok v, s')) :
    (∀ id ∈ stepIds, id ∈ (stepsOf ctx programId s).map Prod.fst) ∧
      stepsOf ctx programId s' = (stepsOf ctx programId s).map (placed (ordered stepIds (stepsOf ctx programId s))) := by
  unfold reorder at h
  obtain ⟨_, s₀, hprogram, hrest⟩ := Prog.run_bind_ok.mp h
  rw [assertProgram_ok hprogram] at hrest
  clear h
  obtain ⟨ids, _, ⟨⟩, h⟩ := Prog.run_bind_ok.mp hrest
  obtain ⟨hknown, h⟩ := Prog.run_guard_ok.mp h
  obtain ⟨_, s₁, hrun, h⟩ := Prog.run_bind_ok.mp h
  obtain ⟨_, _, ⟨⟩, h⟩ := Prog.run_bind_ok.mp h
  cases h
  refine ⟨by simpa [stepsOf] using hknown, ?_⟩
  have hentries := renumber_entries (Prog.run_transaction_ok.mp hrun)
  simp only [stepsOf, Ctx.findMany, Table.rows]
  rw [hentries, List.filter_map]
  rfl

/-! ### When it does what it is for -/

section Order

variable {stepIds : List Uuid} {steps : List (WithId AuditProgramStep)}

theorem mem_ordered {id : Uuid} (hknown : ∀ id ∈ stepIds, id ∈ steps.map Prod.fst) :
    id ∈ steps.map Prod.fst ↔ id ∈ ordered stepIds steps := by
  rw [ordered, List.mem_append, List.mem_filter, decide_eq_true_eq]
  constructor
  · intro h
    by_cases hid : id ∈ stepIds
    · exact .inl hid
    · exact .inr ⟨h, hid⟩
  · rintro (h | h)
    · exact hknown id h
    · exact h.1

/-- The order repeats an id exactly when the list does. -/
theorem nodup_ordered (hkeys : (steps.map Prod.fst).Nodup) : (ordered stepIds steps).Nodup ↔ stepIds.Nodup := by
  rw [ordered, List.nodup_append]
  refine ⟨fun h => h.1, fun h => ⟨h, hkeys.filter _, ?_⟩⟩
  rintro a ha b hb rfl
  exact absurd ha (of_decide_eq_true (List.mem_filter.mp hb).2)

/-- Without repetitions, the place of a step is its place in the order. -/
theorem placed_sortOrder (hkeys : (steps.map Prod.fst).Nodup) (hnodup : stepIds.Nodup)
    (hknown : ∀ id ∈ stepIds, id ∈ steps.map Prod.fst) {e : WithId AuditProgramStep} (he : e ∈ steps) :
    (placed (ordered stepIds steps) e).2.sortOrder = (ordered stepIds steps).idxOf e.1 := by
  have hmem := (mem_ordered hknown).mp (List.mem_map_of_mem he)
  rw [placed, renumbered_of_nodup ((nodup_ordered hkeys).mpr hnodup) hmem, Nat.zero_add]

theorem idxOf_ordered_of_mem {id : Uuid} (h : id ∈ stepIds) : (ordered stepIds steps).idxOf id = stepIds.idxOf id :=
  List.idxOf_append_of_mem h

/-- The steps that are not listed. -/
def unlisted (stepIds : List Uuid) (steps : List (WithId AuditProgramStep)) : List (WithId AuditProgramStep) :=
  steps.filter fun e => e.1 ∉ stepIds

theorem mem_unlisted {e : WithId AuditProgramStep} : e ∈ unlisted stepIds steps ↔ e ∈ steps ∧ e.1 ∉ stepIds := by
  simp [unlisted]

/-- Those not listed come after the list, as the database returns them. -/
theorem idxOf_ordered_of_unlisted (hkeys : (steps.map Prod.fst).Nodup) {k : ℕ} (hk : k < (unlisted stepIds steps).length) :
    (ordered stepIds steps).idxOf (unlisted stepIds steps)[k].1 = stepIds.length + k := by
  have hunlisted := (mem_unlisted.mp (List.getElem_mem hk)).2
  have hnodup : ((unlisted stepIds steps).map Prod.fst).Nodup := (List.filter_sublist.map Prod.fst).nodup hkeys
  have hsame : (steps.map Prod.fst).filter (fun id => id ∉ stepIds) = (unlisted stepIds steps).map Prod.fst :=
    List.filter_map
  have hplace := hnodup.idxOf_getElem k (by simpa using hk)
  rw [List.getElem_map] at hplace
  rw [ordered, List.idxOf_append_of_notMem hunlisted, hsame, hplace]

variable [Collation]

/-- **The steps are put in the order they are meant to be in** exactly when the list repeats no id and the others stand
in the order they are shown in. -/
theorem reordered_placed_iff (hkeys : (steps.map Prod.fst).Nodup) (hknown : ∀ id ∈ stepIds, id ∈ steps.map Prod.fst) :
    Reordered stepIds steps (steps.map (placed (ordered stepIds steps))) ↔
      stepIds.Nodup ∧ (unlisted stepIds steps).Pairwise fun a b => ¬ShownBefore b.2 a.2 := by
  have hplaces : (((steps.map (placed (ordered stepIds steps))).map fun e => e.2.sortOrder).Perm
      (List.range (steps.map (placed (ordered stepIds steps))).length)) ↔ stepIds.Nodup := by
    rw [List.map_map, List.length_map, ← nodup_ordered hkeys]
    exact renumbered_perm_range_iff hkeys (fun _ => mem_ordered hknown) fun e => e.2.sortOrder
  constructor
  · rintro ⟨-, hperm, -, hothers⟩
    have hnodup := hplaces.mp hperm
    refine ⟨hnodup, List.pairwise_iff_getElem.mpr fun i j hi hj hij hshown => ?_⟩
    obtain ⟨hmi, hui⟩ := mem_unlisted.mp (List.getElem_mem hi)
    obtain ⟨hmj, huj⟩ := mem_unlisted.mp (List.getElem_mem hj)
    have hlt := hothers _ hmj _ hmi huj hui hshown _ (List.mem_map_of_mem hmj) _ (List.mem_map_of_mem hmi) rfl rfl
    rw [placed_sortOrder hkeys hnodup hknown hmj, placed_sortOrder hkeys hnodup hknown hmi,
      idxOf_ordered_of_unlisted hkeys hi, idxOf_ordered_of_unlisted hkeys hj] at hlt
    omega
  · rintro ⟨hnodup, hshown⟩
    refine ⟨by rw [List.map_map]; exact .refl _, hplaces.mpr hnodup, ?_, ?_⟩
    · intro a' ha' b' hb' hlisted hfirst
      obtain ⟨a, ha, rfl⟩ := List.mem_map.mp ha'
      obtain ⟨b, hb, rfl⟩ := List.mem_map.mp hb'
      change a.1 ∈ stepIds at hlisted
      change stepIds.idxOf a.1 < stepIds.idxOf b.1 at hfirst
      rw [placed_sortOrder hkeys hnodup hknown ha, placed_sortOrder hkeys hnodup hknown hb,
        idxOf_ordered_of_mem hlisted]
      by_cases hb : b.1 ∈ stepIds
      · rw [idxOf_ordered_of_mem hb]
        exact hfirst
      · rw [ordered, List.idxOf_append_of_notMem hb]
        have := List.idxOf_lt_length_of_mem hlisted
        exact this.trans_le (Nat.le_add_right _ _)
    · intro a ha b hb hua hub hbefore a' ha' b' hb' hia hib
      obtain ⟨a₁, ha₁, rfl⟩ := List.mem_map.mp ha'
      obtain ⟨b₁, hb₁, rfl⟩ := List.mem_map.mp hb'
      obtain ⟨i, hi, rfl⟩ := List.getElem_of_mem (mem_unlisted.mpr ⟨ha, hua⟩)
      obtain ⟨j, hj, rfl⟩ := List.getElem_of_mem (mem_unlisted.mpr ⟨hb, hub⟩)
      rw [placed_sortOrder hkeys hnodup hknown ha₁, placed_sortOrder hkeys hnodup hknown hb₁,
        show a₁.1 = _ from hia, show b₁.1 = _ from hib, idxOf_ordered_of_unlisted hkeys hi, idxOf_ordered_of_unlisted hkeys hj]
      -- A step that is shown later does not stand earlier.
      have hij : i < j := by
        rcases lt_trichotomy i j with hij | rfl | hij
        · exact hij
        · exact absurd hbefore (not_shownBefore_self _)
        · exact absurd hbefore (List.pairwise_iff_getElem.mp hshown j i hj hi hij)
      omega

end Order

/-- **When `reorder` reorders**: the list repeats no id, and the database returns the steps that are not listed in the
order they are shown in. -/
theorem reordered_iff [Collation] {ctx : Ctx} {programId : Uuid} {stepIds : List Uuid} {s s' : Db}
    {v : Option ProgramView} (h : (reorder ctx programId stepIds).run s = (.ok v, s')) :
    Reordered stepIds (stepsOf ctx programId s) (stepsOf ctx programId s') ↔
      stepIds.Nodup ∧ (unlisted stepIds (stepsOf ctx programId s)).Pairwise fun a b => ¬ShownBefore b.2 a.2 := by
  obtain ⟨hknown, hafter⟩ := reorder_ok h
  have hkeys : ((stepsOf ctx programId s).map Prod.fst).Nodup :=
    (List.filter_sublist.map Prod.fst).nodup s.programSteps.nodup
  rw [hafter]
  exact reordered_placed_iff hkeys hknown

/-! ### A programme of three steps -/

/-- A user who manages programmes. -/
def programmer : Ctx := { Workpapers.actor 1 900 with permissions := [.programManage] }

/-- A step of programme 60. -/
def cashStep (reference : String) (sortOrder : ℕ) : AuditProgramStep where
  tenantId := 1
  programId := 60
  sectionName := "Cash"
  reference
  sortOrder
  objective := "Cash is recorded"
  procedure := "Inspect"
  riskId := none
  controlId := none
  assigneeId := none
  estimatedHours := none
  status := .notStarted

/-- Programme 60 has the steps 70, 71 and 72, of which the database returns the last one first. -/
def programmed : Db := { Workpapers.office with
  programs := ⟨[(60, ⟨1, 10, "Treasury", none, .draft, none, none, none⟩)], by decide⟩
  programSteps := ⟨[(72, cashStep "1.3" 2), (70, cashStep "1.1" 0), (71, cashStep "1.2" 1)], by decide⟩ }

theorem reorder_succeeds_of_isOk {stepIds : List Uuid} (h : ((reorder programmer 60 stepIds).run programmed).1.isOk = true) :
    (reorder programmer 60 stepIds).Succeeds programmed := by
  rcases hrun : (reorder programmer 60 stepIds).run programmed with ⟨e | v, s'⟩
  · rw [hrun] at h
    cases h
  · exact ⟨v, s', hrun⟩

/-- Step 72 is put first: the others keep their order. -/
theorem reordered_last_first : ∃ v s', (reorder programmer 60 [72]).run programmed = (.ok v, s') ∧
    @Reordered characterwise [72] (stepsOf programmer 60 programmed) (stepsOf programmer 60 s') := by
  obtain ⟨v, s', h⟩ := @reorder_succeeds_of_isOk [72] (by decide +kernel)
  exact ⟨v, s', h, (@reordered_iff characterwise _ _ _ _ _ _ h).mpr (by decide +kernel)⟩

/-- Step 70 is named twice, and no step gets the first place; step 70 is put first, and step 72, which was the last,
becomes the second. -/
theorem not_reordered :
    (∃ v s', (reorder programmer 60 [70, 70]).run programmed = (.ok v, s') ∧
      ¬@Reordered characterwise [70, 70] (stepsOf programmer 60 programmed) (stepsOf programmer 60 s')) ∧
    ∃ v s', (reorder programmer 60 [70]).run programmed = (.ok v, s') ∧
      ¬@Reordered characterwise [70] (stepsOf programmer 60 programmed) (stepsOf programmer 60 s') := by
  have hkeys : ((stepsOf programmer 60 programmed).map Prod.fst).Nodup := by decide +kernel
  have hfails : ∀ stepIds : List Uuid, (reorder programmer 60 stepIds).Succeeds programmed →
      ¬(stepIds.Nodup ∧ (unlisted stepIds (stepsOf programmer 60 programmed)).Pairwise
        fun a b => ¬@ShownBefore characterwise b.2 a.2) →
      ∃ v s', (reorder programmer 60 stepIds).run programmed = (.ok v, s') ∧
        ¬@Reordered characterwise stepIds (stepsOf programmer 60 programmed) (stepsOf programmer 60 s') := by
    rintro stepIds ⟨v, s', h⟩ hnot
    obtain ⟨hknown, hafter⟩ := reorder_ok h
    refine ⟨v, s', h, ?_⟩
    rw [hafter]
    exact fun hre => hnot ((@reordered_placed_iff _ _ characterwise hkeys hknown).mp hre)
  exact ⟨hfails _ (reorder_succeeds_of_isOk (by decide +kernel)) (by decide +kernel),
    hfails _ (reorder_succeeds_of_isOk (by decide +kernel)) (by decide +kernel)⟩

end AuditSphere.Programs
