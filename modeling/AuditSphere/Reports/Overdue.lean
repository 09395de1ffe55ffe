import AuditSphere.Reports.Findings
import AuditSphere.Workpapers.History

/-!
# What is overdue

Four parts of the code say whether a finding is overdue: the filter of the list, the ageing of a
listed finding, the summary of all findings, and the register of the reports. The first compares
instants, the others count whole days; the register does not look at the status, and the ageing of a
single finding does not look at its deletion. They agree on a finding exactly if it is not `contested`
(`oneMeaning_iff`).
-/

namespace AuditSphere.Reports

open Prisma Theory Shared Findings

/-! ### Whole days -/

/-- The due date has passed by a day. -/
def dayLate (f : Finding) (now : Date) : Bool := f.dueDate.any fun due => due + 86400000 ≤ now

theorem daysSince_pos_iff (due now : ℕ) : 0 < daysSince due now ↔ due + 86400000 ≤ now := by
  unfold daysSince msPerDay
  omega

theorem daysOverdue_pos_iff (f : Finding) (now : Date) : 0 < daysOverdue f.dueDate now ↔ dayLate f now = true := by
  unfold dayLate
  cases f.dueDate with
  | none => simp [daysOverdue]
  | some due =>
    rw [Option.any_some, decide_eq_true_eq, ← daysSince_pos_iff]
    exact Int.lt_toNat

theorem ageingBucket_ne_iff (f : Finding) (now : Date) :
    ageingBucket f.dueDate now ≠ "NOT_DUE" ↔ dayLate f now = true := by
  unfold dayLate
  cases f.dueDate with
  | none => simp [ageingBucket]
  | some due =>
    rw [Option.any_some, decide_eq_true_eq, ← daysSince_pos_iff]
    unfold ageingBucket
    dsimp only
    by_cases h : daysSince due now ≤ 0
    · rw [if_pos h]
      simp only [ne_eq, not_true_eq_false, false_iff]
      omega
    · rw [if_neg h]
      refine iff_of_true ?_ (by omega)
      split <;> [decide; split <;> [decide; split <;> [decide; split <;> decide]]]

theorem lt_of_day {due now : ℕ} (h : due + 86400000 ≤ now) : due < now := by omega

/-- A finding that is a day late is past its due date. -/
theorem past_of_dayLate {f : Finding} {now : Date} (h : dayLate f now = true) : f.dueDate.any (· < now) = true := by
  unfold dayLate at h
  cases hdue : f.dueDate with
  | none => simp [hdue] at h
  | some due =>
    rw [hdue] at h
    rw [Option.any_some, decide_eq_true_eq] at h ⊢
    exact lt_of_day h

/-! ### The four notions -/

/-- The total of overdue findings in the summary. -/
def overdueTotal (ctx : Ctx) (db : Db) : Except HttpError ℕ :=
  ((ageing ctx none none).run db).1.map AgeingSummary.overdueTotal

/-- The finding is counted in the total: without it, the total is smaller by one. -/
def Counted (ctx : Ctx) (db : Db) (id : Uuid) : Prop :=
  ∃ n, overdueTotal ctx { db with findings := db.findings.remove fun j _ => j = id } = .ok n ∧
    overdueTotal ctx db = .ok (n + 1)

/-- All parts agree on whether a finding of the user is overdue. -/
structure OneMeaning [Collation] (ctx : Ctx) (db : Db) (id : Uuid) (f : Finding) : Prop where
  /-- The days are counted if it is. -/
  days : 0 < (withAgeing f ctx.now).daysOverdue ↔ (withAgeing f ctx.now).isOverdue = true
  /-- It is in a bucket of its own. -/
  bucket : (withAgeing f ctx.now).ageingBucket ≠ "NOT_DUE" ↔ (withAgeing f ctx.now).isOverdue = true
  /-- The filter finds it. -/
  listed : findingsWhere { overdue := some true } ctx f = true ↔ (withAgeing f ctx.now).isOverdue = true
  /-- The summary counts it. -/
  counted : Counted ctx db id ↔ (withAgeing f ctx.now).isOverdue = true
  /-- Every register that has it gives it the same bucket. -/
  reported : ∀ arrangement query all report,
    (findings arrangement ctx query all).run db = (.ok report, db) → ∀ item ∈ report.rows.items, item.1.id = id →
      item.2 = (withAgeing f ctx.now).ageingBucket

/-- The parts disagree: a finding being acted on is late by less than a day, or it is late but
deleted; another finding is late and not deleted. -/
def contested (f : Finding) (now : Date) : Bool :=
  if f.status ∈ actionableStatuses then
    if f.deletedAt.isNone then f.dueDate.any (· < now) && !dayLate f now else dayLate f now
  else f.deletedAt.isNone && dayLate f now

/-- The ageing of a finding counts whole days. -/
theorem withAgeing_isOverdue (f : Finding) (now : Date) :
    (withAgeing f now).isOverdue = true ↔ f.status ∈ actionableStatuses ∧ dayLate f now = true := by
  simp only [withAgeing, Bool.and_eq_true, decide_eq_true_eq, daysOverdue_pos_iff]

/-- The filter compares instants. -/
theorem findingsWhere_overdue (ctx : Ctx) (f : Finding) : findingsWhere { overdue := some true } ctx f = true ↔
    f.deletedAt.isNone = true ∧ f.status ∈ actionableStatuses ∧ f.dueDate.any (· < ctx.now) = true := by
  simp only [findingsWhere, Option.all_none, Bool.and_true, reduceCtorEq, if_false, if_true, Bool.and_eq_true,
    decide_eq_true_eq]
  tauto

/-- The total counts the findings of the user that are acted on and a day late. -/
theorem overdueTotal_eq (ctx : Ctx) (db : Db) : overdueTotal ctx db = .ok (ctx.count db.findings fun _ f =>
    aged ctx none none db f && decide (f.status ∈ actionableStatuses) && dayLate f ctx.now) := by
  have hrun : overdueTotal ctx db = .ok (((ctx.findMany db.findings fun _ f =>
      aged ctx none none db f && decide (f.status ∈ actionableStatuses)).map Prod.snd).countP fun f =>
        ageingBucket f.dueDate ctx.now ≠ "NOT_DUE") := by
    rw [← overdueTotal_summary]
    rfl
  rw [hrun, List.countP_map, List.countP_eq_length_filter, Ctx.findMany, Table.rows, List.filter_filter]
  congr 3
  funext e
  have hlate : (decide (ageingBucket e.2.dueDate ctx.now ≠ "NOT_DUE")) = dayLate e.2 ctx.now := by
    rw [← Bool.coe_iff_coe, decide_eq_true_eq]
    exact ageingBucket_ne_iff e.2 ctx.now
  simp only [Function.comp_apply, hlate]
  rw [Bool.and_comm, Bool.and_assoc]

/-- The finding is counted if it is one of those. -/
theorem counted_iff {ctx : Ctx} {db : Db} {id : Uuid} {f : Finding}
    (hfind : ctx.findById db.findings id (fun _ => true) = some f) (hscope : ObjectAccess.findingScope ctx db f = true) :
    Counted ctx db id ↔
      f.deletedAt.isNone = true ∧ f.status ∈ actionableStatuses ∧ dayLate f ctx.now = true := by
  obtain ⟨hrow, hsees, -⟩ := Ctx.findById_eq_some.mp hfind
  have hcount := Table.count_remove_key hrow fun _ f => ctx.sees f &&
    (aged ctx none none db f && decide (f.status ∈ actionableStatuses) && dayLate f ctx.now)
  have hcond : (ctx.sees f && (aged ctx none none db f && decide (f.status ∈ actionableStatuses) &&
      dayLate f ctx.now)) = true ↔
      f.deletedAt.isNone = true ∧ f.status ∈ actionableStatuses ∧ dayLate f ctx.now = true := by
    simp only [aged, hsees, hscope, Option.all_none, Bool.and_true, Bool.true_and, Bool.and_eq_true, decide_eq_true_eq]
    tauto
  have hwithout : overdueTotal ctx { db with findings := db.findings.remove fun j _ => j = id } =
      .ok ((db.findings.remove fun j _ => j = id).count fun _ f => ctx.sees f &&
        (aged ctx none none db f && decide (f.status ∈ actionableStatuses) && dayLate f ctx.now)) := overdueTotal_eq _ _
  have hwith : overdueTotal ctx db = .ok (db.findings.count fun _ f => ctx.sees f &&
        (aged ctx none none db f && decide (f.status ∈ actionableStatuses) && dayLate f ctx.now)) := overdueTotal_eq _ _
  rw [hcount] at hwith
  rw [Counted, hwithout, hwith, ← hcond]
  constructor
  · rintro ⟨n, hn, hn'⟩
    by_contra hnot
    rw [if_neg hnot] at hn'
    have h := Except.ok.inj hn
    have h' := Except.ok.inj hn'
    omega
  · intro h
    rw [if_pos h]
    exact ⟨_, rfl, rfl⟩

/-! ### The register -/

section Register

variable [Collation] {ctx : Ctx} {db : Db} {arrangement : Arrangement FindingColumn.value}
  {query : FindingRegisterReportQueryDto} {all : Bool} {report : FindingsReport}

/-- The rows of a register are findings that match, each with the bucket of its due date. -/
theorem findings_items (h : (findings arrangement ctx query all).run db = (.ok report, db)) :
    ∀ item ∈ report.rows.items, ∃ f, db.findings.find item.1.id = some f ∧ f.deletedAt.isNone = true ∧
      item.2 = ageingBucket f.dueDate ctx.now := by
  obtain ⟨_, s₁, h₁, h⟩ := Prog.run_bind_ok.mp h
  cases h₁
  obtain ⟨_, s₂, h₂, h⟩ := Prog.run_bind_ok.mp h
  cases h₂
  obtain ⟨rows, s₃, h₃, h⟩ := Prog.run_bind_ok.mp h
  cases h
  have hrows : ∃ skip take, rows.items = (arrangement.find
      (parseSort FindingColumn.name query.sort reportColumns (.dueDate, .asc))
      (ctx.findMany db.findings fun _ f => reported ctx query db f) skip take).map (findingRow db) := by
    unfold reportRows at h₃
    cases all with
    | false =>
      cases h₃
      exact ⟨_, _, rfl⟩
    | true =>
      obtain ⟨total, s₄, h₄, h₅⟩ := Prog.run_bind_ok.mp h₃
      cases h₄
      obtain ⟨-, h₅⟩ := Prog.run_guard_ok.mp h₅
      cases h₅
      exact ⟨_, _, rfl⟩
  obtain ⟨skip, take, hrows⟩ := hrows
  intro item hitem
  obtain ⟨row, hrow, rfl⟩ := List.mem_map.mp hitem
  rw [hrows] at hrow
  obtain ⟨⟨id, f⟩, hmem, rfl⟩ := List.mem_map.mp hrow
  have hmatch := (arrangement.arranges _ _).perm.mem_iff.mp (List.mem_of_mem_drop (List.mem_of_mem_take hmem))
  obtain ⟨hfind, hcond⟩ := (Table.mem_rows_iff _ _ _ _).mp hmatch
  simp only [reported, Bool.and_eq_true] at hcond
  exact ⟨f, hfind, hcond.2.1.1.1.1, rfl⟩

/-- A finding of the user that is not deleted is on some page of the register. -/
theorem listed_somewhere {id : Uuid} {f : Finding} (hfind : ctx.findById db.findings id (fun _ => true) = some f)
    (hscope : ObjectAccess.findingScope ctx db f = true) (hdeleted : f.deletedAt.isNone = true) :
    ∃ query report, (findings arrangement ctx query false).run db = (.ok report, db) ∧
      ∃ item ∈ report.rows.items, item.1.id = id := by
  obtain ⟨hrow, hsees, -⟩ := Ctx.findById_eq_some.mp hfind
  have hmatch : (id, f) ∈ ctx.findMany db.findings fun _ f => reported ctx {} db f :=
    (Table.mem_rows_iff _ _ _ _).mpr ⟨hrow, by simp [hsees, reported, hdeleted, hscope]⟩
  have hmem := (arrangement.arranges (.dueDate, .asc) _).perm.mem_iff.mpr hmatch
  obtain ⟨j, hj, hget⟩ := List.mem_iff_getElem.mp hmem
  -- the page with the place of the finding
  refine ⟨{ page := some (j / 25 + 1) }, _, rfl, (findingRow db (id, f), ageingBucket f.dueDate ctx.now), ?_, rfl⟩
  refine List.mem_map_of_mem (List.mem_map_of_mem ?_)
  have hpage := mem_pageAt _ hj (Nat.div_mul_le_self j 25) (Nat.lt_mul_of_div_lt (Nat.lt_succ_self _) (by decide))
  rw [hget] at hpage
  have hskip : (pageArgs { page := some (j / 25 + 1) }).skip = j / 25 * 25 := by
    simp [pageArgs]
  rw [hskip]
  exact hpage

/-- The register gives a finding the bucket of its due date. -/
theorem reported_iff {id : Uuid} {f : Finding} (hfind : ctx.findById db.findings id (fun _ => true) = some f)
    (hscope : ObjectAccess.findingScope ctx db f = true) (bucket : String) :
    (∀ (arrangement : Arrangement FindingColumn.value) query all report,
        (findings arrangement ctx query all).run db = (.ok report, db) → ∀ item ∈ report.rows.items, item.1.id = id →
          item.2 = bucket) ↔
      (f.deletedAt.isNone = true → ageingBucket f.dueDate ctx.now = bucket) := by
  have hrow := (Ctx.findById_eq_some.mp hfind).1
  constructor
  · intro h hdeleted
    obtain ⟨query, report, hrun, item, hitem, rfl⟩ :=
      @listed_somewhere _ ctx db (stable FindingColumn.value) id f hfind hscope hdeleted
    obtain ⟨f', hf', -, hbucket⟩ := findings_items hrun item hitem
    rw [hrow, Option.some.injEq] at hf'
    subst hf'
    rw [← hbucket]
    exact h _ query false report hrun item hitem rfl
  · rintro h arrangement query all report hrun item hitem rfl
    obtain ⟨f', hf', hdeleted, hbucket⟩ := findings_items hrun item hitem
    rw [hrow, Option.some.injEq] at hf'
    subst hf'
    rw [hbucket]
    exact h hdeleted

/-- **One meaning of overdue**: all parts agree on a finding of the user exactly if it is not contested. -/
theorem oneMeaning_iff {id : Uuid} {f : Finding} (hfind : ctx.findById db.findings id (fun _ => true) = some f)
    (hscope : ObjectAccess.findingScope ctx db f = true) :
    OneMeaning ctx db id f ↔ contested f ctx.now = false := by
  have hpast := @past_of_dayLate f ctx.now
  have hbucket := ageingBucket_ne_iff f ctx.now
  have hreported := reported_iff hfind hscope (withAgeing f ctx.now).ageingBucket
  by_cases hactive : f.status ∈ actionableStatuses
  · have hdays : 0 < (withAgeing f ctx.now).daysOverdue ↔ (withAgeing f ctx.now).isOverdue = true := by
      rw [withAgeing_isOverdue, ← daysOverdue_pos_iff]
      simp [withAgeing, hactive]
    have hsame : (withAgeing f ctx.now).ageingBucket = ageingBucket f.dueDate ctx.now := by simp [withAgeing, hactive]
    have hothers : OneMeaning ctx db id f ↔
        (findingsWhere { overdue := some true } ctx f = true ↔ (withAgeing f ctx.now).isOverdue = true) ∧
          (Counted ctx db id ↔ (withAgeing f ctx.now).isOverdue = true) := by
      refine ⟨fun h => ⟨h.listed, h.counted⟩, fun h => ⟨hdays, ?_, h.1, h.2, hreported.mpr fun _ => hsame.symm⟩⟩
      rw [hsame, hbucket, withAgeing_isOverdue]
      exact (and_iff_right hactive).symm
    rw [hothers, findingsWhere_overdue, counted_iff hfind hscope, withAgeing_isOverdue, contested, if_pos hactive]
    cases hdeleted : f.deletedAt.isNone
    · simp [hactive]
    · cases hlate : dayLate f ctx.now
      · simp [hactive]
      · simp [hactive, hpast hlate]
  · have hover : (withAgeing f ctx.now).isOverdue = false := by simp [withAgeing, hactive]
    have hothers : OneMeaning ctx db id f ↔ (f.deletedAt.isNone = true → dayLate f ctx.now = false) := by
      have hnot : ageingBucket f.dueDate ctx.now = (withAgeing f ctx.now).ageingBucket ↔ dayLate f ctx.now = false := by
        rw [← Bool.not_eq_true, ← hbucket, not_not]
        simp [withAgeing, hactive]
      rw [← hnot, ← hreported]
      refine ⟨fun h => h.reported, fun h => ⟨?_, ?_, ?_, ?_, h⟩⟩
      · simp [withAgeing, hactive]
      · simp [withAgeing, hactive]
      · rw [findingsWhere_overdue, hover]
        simp [hactive]
      · rw [counted_iff hfind hscope, hover]
        simp [hactive]
    rw [hothers, contested, if_neg hactive]
    cases f.deletedAt.isNone <;> simp

end Register

open Workpapers (office treasury actor)

/-- A finding of the office, due at time 500. -/
def due (status : FindingStatus) : Finding := { newFinding (actor 1 400) {
    engagementId := 10, title := "Float", severity := .high, condition := "Unreconciled", criteria := "Policy"
    dueDate := some (some 500) } treasury "F-01" with status }

/-- The office with the finding. -/
def followUp (status : FindingStatus) : Db := { office with findings := ⟨[(30, due status)], by simp⟩ }

/-- A day after the due date all parts agree that the finding is overdue. -/
theorem oneMeaning_iff_followUp :
    @OneMeaning characterwise (actor 1 86400500) (followUp .agreed) 30 (due .agreed) ↔
      contested (due .agreed) 86400500 = false :=
  @oneMeaning_iff characterwise (actor 1 86400500) (followUp .agreed) 30 (due .agreed) (by decide) (by decide)

/-- An agreed finding is late by a moment: the filter finds it, but it is not shown as overdue. A draft
is late by two days: it is not overdue, but the register says so. -/
theorem overdue_disagreements :
    (findingsWhere { overdue := some true } (actor 1 600) (due .agreed) = true ∧
      (withAgeing (due .agreed) 600).isOverdue = false) ∧
    ((withAgeing (due .draft) 172800500).ageingBucket = "NOT_DUE" ∧
      ageingBucket (due .draft).dueDate 172800500 = "1-30") ∧
    ¬@OneMeaning characterwise (actor 1 600) (followUp .agreed) 30 (due .agreed) := by
  have hlisted : findingsWhere { overdue := some true } (actor 1 600) (due .agreed) = true := by decide
  have hnot : (withAgeing (due .agreed) 600).isOverdue = false := by decide
  refine ⟨⟨hlisted, hnot⟩, by decide, fun h => ?_⟩
  exact absurd ((@OneMeaning.listed characterwise _ _ _ _ h).mp hlisted) (ne_true_of_eq_false hnot)

end AuditSphere.Reports
