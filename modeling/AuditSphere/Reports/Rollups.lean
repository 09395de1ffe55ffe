import AuditSphere.Reports.Overdue
import AuditSphere.Theory.Lists
import Mathlib.Algebra.BigOperators.Group.List.Lemmas
import Mathlib.Data.List.Dedup

/-!
# The totals of the register

The register gives three totals of the findings that match: by severity, by status and by age. The first
two are asked of the database, for all findings that match; the third is counted from the rows that are
shown. So the totals by age describe the whole register exactly when it is shown whole.
-/

namespace AuditSphere.Reports

open Prisma Theory Shared Findings

/-! ### Counting -/

/-- The buckets hold each row once. -/
theorem sum_ageingCounts (now : Date) (items : List FindingRow) :
    ((ageingCounts now items).map Prod.snd).sum = items.length :=
  (sum_foldl_mapSet (fun item : FindingRow => ageingBucket item.dueDate now) items _).trans (Nat.zero_add _)

/-- The groups of a column hold each row once. -/
theorem sum_groupBy {κ ρ : Type} [DecidableEq κ] (key : ρ → κ) (rows : List (WithId ρ)) :
    ((groupBy key rows).map Prod.snd).sum = rows.length := by
  have hcount : ∀ k, (rows.countP fun r => key r.2 == k) = (rows.map fun r => key r.2).count k := by
    intro k
    rw [List.count, List.countP_map]
    rfl
  have hperm : (rows.map fun r => key r.2).eraseDups.Perm (rows.map fun r => key r.2).dedup :=
    (List.perm_ext_iff_of_nodup (nodup_eraseDups _) (List.nodup_dedup _)).mpr fun k => by
      rw [List.mem_eraseDups, List.mem_dedup]
  rw [groupBy, List.map_map]
  simp only [Function.comp_def, hcount]
  rw [(hperm.map _).sum_eq, List.sum_map_count_dedup_eq_length, List.length_map]

/-- Rows that are skipped are not shown: the first page shows all if they fit on it, and a later one if there
are none. -/
theorem min_skip_eq_iff {page size n : ℕ} (hsize : 0 < size) :
    min size (n - (max 1 page - 1) * size) = n ↔ n = 0 ∨ page ≤ 1 ∧ n ≤ size := by
  by_cases hpage : page ≤ 1
  · rw [max_eq_left hpage, Nat.sub_self, Nat.zero_mul]
    omega
  · have hskip : size ≤ (max 1 page - 1) * size := Nat.le_mul_of_pos_left _ (by omega)
    omega

/-! ### The register -/

section Register

variable [Collation] (ctx : Ctx) (query : FindingRegisterReportQueryDto) (all : Bool) (db : Db)

/-- How many findings match. -/
def matching : ℕ := ctx.count db.findings fun _ f => reported ctx query db f

/-- How many of them are shown: all of them in an export, and otherwise those of the page. -/
def shown : ℕ :=
  if all then matching ctx query db
  else min (pageArgs query.toPaginationDto).pageSize
    (matching ctx query db - (pageArgs query.toPaginationDto).skip)

/-- The three totals add up to the number of findings that match. -/
structure Whole (report : FindingsReport) : Prop where
  total : report.rows.total = matching ctx query db
  bySeverity : (report.bySeverity.map Prod.snd).sum = report.rows.total
  byStatus : (report.byStatus.map Prod.snd).sum = report.rows.total
  ageing : (report.ageing.map Prod.snd).sum = report.rows.total

variable {ctx query all db}

/-- So many rows are found of those that match. -/
theorem length_find (arrangement : Arrangement FindingColumn.value) (orderBy : OrderBy FindingColumn)
    (skip take : ℕ) : (arrangement.find orderBy (ctx.findMany db.findings fun _ f => reported ctx query db f)
      skip take).length = min take (matching ctx query db - skip) := by
  rw [Arrangement.find, List.length_take, List.length_drop, (arrangement.arranges _ _).perm.length_eq]
  rfl

/-- What the register answers: the totals of all that match, and the rows that are shown. -/
theorem run_findings {arrangement : Arrangement FindingColumn.value} {report : FindingsReport} {db' : Db}
    (h : (findings arrangement ctx query all).run db = (.ok report, db')) :
    report.rows.total = matching ctx query db ∧
      (report.bySeverity.map Prod.snd).sum = matching ctx query db ∧
      (report.byStatus.map Prod.snd).sum = matching ctx query db ∧
      (report.ageing.map Prod.snd).sum = shown ctx query all db := by
  obtain ⟨_, s₁, h₁, h⟩ := Prog.run_bind_ok.mp h
  cases h₁
  obtain ⟨_, s₂, h₂, h⟩ := Prog.run_bind_ok.mp h
  cases h₂
  obtain ⟨rows, s₃, h₃, h⟩ := Prog.run_bind_ok.mp h
  cases h
  have hrows : rows.total = matching ctx query db ∧ rows.items.length = shown ctx query all db := by
    unfold reportRows at h₃
    unfold shown
    cases all with
    | false =>
      cases h₃
      exact ⟨rfl, (List.length_map _).trans (length_find _ _ _ _)⟩
    | true =>
      obtain ⟨total, s₄, h₄, h₅⟩ := Prog.run_bind_ok.mp h₃
      cases h₄
      obtain ⟨-, h₅⟩ := Prog.run_guard_ok.mp h₅
      cases h₅
      refine ⟨rfl, (List.length_map _).trans ((length_find _ _ _ _).trans ?_)⟩
      rw [if_pos rfl, Nat.sub_zero]
      exact Nat.min_self _
  exact ⟨hrows.1, sum_groupBy _ _, sum_groupBy _ _, (sum_ageingCounts _ _).trans hrows.2⟩

omit [Collation] in
/-- All that match are shown in an export, and on the first page if they fit on it. -/
theorem shown_eq_iff : shown ctx query all db = matching ctx query db ↔
    all = true ∨ matching ctx query db = 0 ∨
      query.page.getD 1 ≤ 1 ∧ matching ctx query db ≤ (pageArgs query.toPaginationDto).pageSize := by
  have hsize := pageSize_pos query.toPaginationDto
  unfold shown
  cases all with
  | true => simp
  | false =>
    rw [if_neg Bool.false_ne_true, or_iff_right Bool.false_ne_true]
    exact min_skip_eq_iff hsize

/-- The totals describe the whole register exactly when all findings that match are shown. -/
theorem whole_iff {arrangement : Arrangement FindingColumn.value} {report : FindingsReport} {db' : Db}
    (h : (findings arrangement ctx query all).run db = (.ok report, db')) :
    Whole ctx query db report ↔
      all = true ∨ matching ctx query db = 0 ∨
        query.page.getD 1 ≤ 1 ∧ matching ctx query db ≤ (pageArgs query.toPaginationDto).pageSize := by
  obtain ⟨htotal, hseverity, hstatus, hageing⟩ := run_findings h
  rw [← shown_eq_iff]
  constructor
  · intro hwhole
    exact hageing.symm.trans (hwhole.ageing.trans htotal)
  · intro hshown
    exact ⟨htotal, hseverity.trans htotal.symm, hstatus.trans htotal.symm, hageing.trans (hshown.trans htotal.symm)⟩

end Register

open Workpapers (actor)

/-- The office with two findings that are due. -/
def dueTwice : Db :=
  { followUp .agreed with findings := ⟨[(30, due .agreed), (31, due .validation)], by decide⟩ }

/-- On a page of two, both are counted in each of the totals. -/
theorem whole_dueTwice : ∃ report,
    (@findings characterwise (@stable characterwise _ _ _) (actor 1 86400500) { pageSize := some 2 } false).run
        dueTwice = (.ok report, dueTwice) ∧
      Whole (actor 1 86400500) { pageSize := some 2 } dueTwice report :=
  ⟨_, rfl, (@whole_iff characterwise (actor 1 86400500) { pageSize := some 2 } false dueTwice _ _ _ rfl).mpr
    (.inr (.inr ⟨le_rfl, by decide +kernel⟩))⟩

/-- On a page of one, two findings are counted by severity and by status, and one by age. -/
theorem half_aged : ∃ report,
    (@findings characterwise (@stable characterwise _ _ _) (actor 1 86400500) { pageSize := some 1 } false).run
        dueTwice = (.ok report, dueTwice) ∧
      report.rows.total = 2 ∧ (report.bySeverity.map Prod.snd).sum = 2 ∧ (report.byStatus.map Prod.snd).sum = 2 ∧
      (report.ageing.map Prod.snd).sum = 1 ∧
      ¬Whole (actor 1 86400500) { pageSize := some 1 } dueTwice report := by
  refine ⟨_, rfl, ?_⟩
  obtain ⟨htotal, hseverity, hstatus, hageing⟩ :=
    @run_findings characterwise (actor 1 86400500) { pageSize := some 1 } false dueTwice _ _ _ rfl
  have hmatching : matching (actor 1 86400500) { pageSize := some 1 } dueTwice = 2 := by decide +kernel
  have hshown : shown (actor 1 86400500) { pageSize := some 1 } false dueTwice = 1 := by decide +kernel
  refine ⟨htotal.trans hmatching, hseverity.trans hmatching, hstatus.trans hmatching, hageing.trans hshown, ?_⟩
  intro hwhole
  have := hageing.symm.trans (hwhole.ageing.trans htotal)
  rw [hshown, hmatching] at this
  cases this

end AuditSphere.Reports
