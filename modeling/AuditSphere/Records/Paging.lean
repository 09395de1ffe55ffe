import AuditSphere.Engagements.Listing
import AuditSphere.Findings.Listing
import AuditSphere.Risks.Listing
import AuditSphere.Workpapers.History

/-!
# Reading a list page by page

Findings, engagements and risks are listed in pages, each by a query of its own that is ordered by one
column only. Rows with the same value of the column may change places between the queries. The pages
are together the rows that match, in every order the database may choose, exactly if all rows
with the same value fall on one page (`pages_complete_iff`).
-/

namespace AuditSphere.Paging

open Prisma Theory Shared

/-- The pages from 1 to the last, one after the other. -/
def allPages {σ α : Type} (fetch : ℕ → Prog σ HttpError (Page α)) (s : σ) : Except HttpError (List α) := do
  let first ← ((fetch 1).run s).1
  let pages ← (List.range ((first.total + first.pageSize - 1) / first.pageSize)).mapM fun k => ((fetch (k + 1)).run s).1
  pure (pages.flatMap Page.items)

/-- However the database arranges the rows for each page, all pages together are the rows. -/
def Complete [Collation] {σ α C ρ : Type} {value : C → ρ → Option SortValue}
    (fetch : Arrangement value → PaginationDto → Prog σ HttpError (Page α)) (paging : PaginationDto) (s : σ)
    (rows : List α) : Prop :=
  ∀ arrangement : ℕ → Arrangement value, ∃ items,
    allPages (fun k => fetch (arrangement k) { paging with page := some k }) s = .ok items ∧ items.Perm rows

section Complete

variable [Collation] {σ α C ρ : Type} {value : C → ρ → Option SortValue}

/-- A page that is given to the database. -/
theorem find_page (a : Arrangement value) (orderBy : OrderBy C) (rows : List (WithId ρ)) (paging : PaginationDto) (k : ℕ) :
    a.find orderBy rows (pageArgs { paging with page := some (k + 1) }).skip
      (pageArgs { paging with page := some (k + 1) }).take =
      pageAt (pageArgs paging).pageSize k (a.arrange orderBy rows) := by
  have hskip : (pageArgs { paging with page := some (k + 1) }).skip = k * (pageArgs paging).pageSize := by
    simp [pageArgs]
  rw [Arrangement.find, hskip]
  rfl

/-- The arrangement of one query may be any order of its rows. -/
theorem exists_arrangement (orderBy : OrderBy C) {rows l : List (WithId ρ)} (h : Arranges (rowLe value orderBy) rows l) :
    ∃ a : Arrangement value, a.arrange orderBy rows = l := by
  classical
  refine ⟨{ arrange := fun o rs => if o = orderBy ∧ rs = rows then l else (stable value).arrange o rs, arranges := ?_ }, ?_⟩
  · intro o rs
    split
    · rename_i heq
      rw [heq.1, heq.2]
      exact h
    · exact (stable value).arranges o rs
  · exact if_pos ⟨rfl, rfl⟩

variable {fetch : Arrangement value → PaginationDto → Prog σ HttpError (Page α)} {paging : PaginationDto} {s : σ}
  {orderBy : OrderBy C} {rows : List (WithId ρ)} {shown : WithId ρ → α}
  (hfetch : ∀ a k, ((fetch a { paging with page := some (k + 1) }).run s).1 =
    .ok ⟨(pageAt (pageArgs paging).pageSize k (a.arrange orderBy rows)).map shown, rows.length,
      (pageArgs { paging with page := some (k + 1) }).page, (pageArgs paging).pageSize⟩)

include hfetch

/-- All pages of the arrangements. -/
theorem allPages_eq (arrangement : ℕ → Arrangement value) :
    allPages (fun k => fetch (arrangement k) { paging with page := some k }) s =
      .ok (((List.range ((rows.length + (pageArgs paging).pageSize - 1) / (pageArgs paging).pageSize)).flatMap fun k =>
        pageAt (pageArgs paging).pageSize k ((arrangement (k + 1)).arrange orderBy rows)).map shown) := by
  have hpages (l : List ℕ) :
      (l.mapM fun k => ((fetch (arrangement (k + 1)) { paging with page := some (k + 1) }).run s).1) =
        .ok (l.map fun k => ⟨(pageAt (pageArgs paging).pageSize k ((arrangement (k + 1)).arrange orderBy rows)).map shown,
          rows.length, (pageArgs { paging with page := some (k + 1) }).page, (pageArgs paging).pageSize⟩) := by
    induction l with
    | nil => rfl
    | cons k l ih =>
      rw [List.mapM_cons, hfetch, ih]
      rfl
  have hfirst := hfetch (arrangement 1) 0
  rw [allPages, hfirst]
  have hall := hpages (List.range ((rows.length + (pageArgs paging).pageSize - 1) / (pageArgs paging).pageSize))
  change (List.mapM _ _ >>= fun (pages : List (Page α)) => Except.ok (pages.flatMap Page.items)) = _
  rw [hall]
  change Except.ok (List.flatMap _ (List.map _ _)) = _
  rw [List.flatMap_map, List.map_flatMap]

/-- Reading page by page is complete exactly if the rows with the same value fall on one page. -/
theorem complete_iff (hnodup : rows.Nodup) (hshown : shown.Injective) :
    Complete fetch paging s (rows.map shown) ↔ Untied (rowLe value orderBy) (pageArgs paging).pageSize rows := by
  rw [← pages_perm_iff (rowLe_trans orderBy) (rowLe_total orderBy) hnodup (pageSize_pos paging)]
  constructor
  · intro h arranged harranged
    choose arrangement harrangement using fun k => exists_arrangement orderBy (harranged k)
    obtain ⟨items, hitems, hperm⟩ := h fun k => arrangement (k - 1)
    rw [allPages_eq hfetch] at hitems
    cases hitems
    simp only [Nat.add_sub_cancel, harrangement] at hperm
    exact (List.map_perm_map_iff hshown).mp hperm
  · intro h arrangement
    refine ⟨_, allPages_eq hfetch arrangement, ?_⟩
    exact (h (fun k => (arrangement (k + 1)).arrange orderBy rows) fun k => (arrangement (k + 1)).arranges orderBy rows).map shown

end Complete

/-! ### The three lists -/

section Lists

variable [Collation] (ctx : Ctx) (paging : PaginationDto)

/-- The findings that match a query. -/
def findingRows (query : Findings.FindingListQueryDto) (db : Db) : List (WithId Finding) :=
  ctx.findMany db.findings fun _ f => Findings.listed ctx query db f

/-- How they are sorted. -/
def findingOrder : OrderBy Findings.FindingColumn :=
  parseSort Findings.FindingColumn.name paging.sort Findings.listColumns (.createdAt, .desc)

/-- The engagements that match a query. -/
def engagementRows (query : Engagements.EngagementListQueryDto) (db : Db) : List (WithId Engagement) :=
  ctx.findMany db.engagements (Engagements.listed ctx query db)

/-- How they are sorted. -/
def engagementOrder : OrderBy Engagements.EngagementColumn :=
  parseSort Engagements.EngagementColumn.name paging.sort Engagements.listColumns (.createdAt, .desc)

/-- The risks that match a query. -/
def riskRows (query : Risks.RiskListQueryDto) (b : Risks.Portfolio) : List (WithId Risks.Risk) :=
  ctx.findMany b.risks fun _ r => Risks.listed query r

/-- How they are sorted. -/
def riskOrder : OrderBy Risks.RiskColumn :=
  parseSort Risks.RiskColumn.name paging.sort Risks.listColumns (.residualScore, .desc)

omit [Collation] in
/-- A query returns no row twice. -/
theorem nodup_findMany {ρ : Type} [TenantRow ρ] (t : Table Uuid ρ) (p : Uuid → ρ → Bool) : (ctx.findMany t p).Nodup :=
  (List.Nodup.of_map _ t.nodup).filter _

theorem finding_pages (query : Findings.FindingListQueryDto) (db : Db) :
    Complete (fun a => Findings.listPage a ctx query) paging db
        ((findingRows ctx query db).map fun row => (Findings.view db row, Findings.withAgeing row.2 ctx.now)) ↔
      Untied (rowLe Findings.FindingColumn.value (findingOrder paging)) (pageArgs paging).pageSize
        (findingRows ctx query db) := by
  refine complete_iff (fun a k => ?_) (nodup_findMany ctx _ _) fun x y h => congrArg (fun v => v.1.row) h
  rw [← find_page, show (fun row => (Findings.view db row, Findings.withAgeing row.2 ctx.now)) =
    (fun v => (v, Findings.withAgeing v.row.2 ctx.now)) ∘ Findings.view db from rfl, ← List.map_map]
  rfl

theorem engagement_pages (query : Engagements.EngagementListQueryDto) (db : Db) :
    Complete (fun a => Engagements.listPage a ctx query) paging db
        ((engagementRows ctx query db).map fun row => (Engagements.view db row, Engagements.progressFor ctx db row.1)) ↔
      Untied (rowLe Engagements.EngagementColumn.value (engagementOrder paging)) (pageArgs paging).pageSize
        (engagementRows ctx query db) := by
  refine complete_iff (fun a k => ?_) (nodup_findMany ctx _ _) fun x y h => congrArg (fun v => v.1.row) h
  rw [← find_page, show (fun row => (Engagements.view db row, Engagements.progressFor ctx db row.1)) =
    (fun v => (v, Engagements.progressFor ctx db v.row.1)) ∘ Engagements.view db from rfl, ← List.map_map]
  rfl

theorem risk_pages (query : Risks.RiskListQueryDto) (b : Risks.Portfolio) :
    Complete (fun a => Risks.listPage a ctx query) paging b ((riskRows ctx query b).map (Risks.view b)) ↔
      Untied (rowLe Risks.RiskColumn.value (riskOrder paging)) (pageArgs paging).pageSize (riskRows ctx query b) := by
  refine complete_iff (fun a k => ?_) (nodup_findMany ctx _ _) fun x y h => congrArg Risks.RiskView.row h
  rw [← find_page]
  rfl

/-- **Paging loses and repeats nothing** in the lists of findings, engagements and risks, exactly if the rows
that have the same value in the sorted column fall on one page. -/
theorem pages_complete_iff :
    (∀ query db, Complete (fun a => Findings.listPage a ctx query) paging db
        ((findingRows ctx query db).map fun row => (Findings.view db row, Findings.withAgeing row.2 ctx.now)) ↔
      Untied (rowLe Findings.FindingColumn.value (findingOrder paging)) (pageArgs paging).pageSize
        (findingRows ctx query db)) ∧
    (∀ query db, Complete (fun a => Engagements.listPage a ctx query) paging db
        ((engagementRows ctx query db).map fun row => (Engagements.view db row, Engagements.progressFor ctx db row.1)) ↔
      Untied (rowLe Engagements.EngagementColumn.value (engagementOrder paging)) (pageArgs paging).pageSize
        (engagementRows ctx query db)) ∧
    ∀ query b, Complete (fun a => Risks.listPage a ctx query) paging b ((riskRows ctx query b).map (Risks.view b)) ↔
      Untied (rowLe Risks.RiskColumn.value (riskOrder paging)) (pageArgs paging).pageSize (riskRows ctx query b) :=
  ⟨finding_pages ctx paging, engagement_pages ctx paging, risk_pages ctx paging⟩

end Lists

open Workpapers (office treasury actor)

/-- A draft of the office. -/
def draft (reference : String) : Finding := Findings.newFinding (actor 1 400) {
  engagementId := 10, title := "Float", severity := .high, condition := "Unreconciled", criteria := "Policy" } treasury
    reference

/-- The office with two drafts. -/
def drafts : Db := { office with findings := ⟨[(30, draft "F-01"), (31, draft "F-02")], by decide⟩ }

/-- Two drafts are listed by their status, one on each page: the first may be on both pages. -/
theorem drafts_repeated :
    ¬@Complete characterwise _ _ _ _ _ (fun a => @Findings.listPage characterwise a (actor 1 600) {})
      { pageSize := some 1, sort := some "status:asc" } drafts
      ((findingRows (actor 1 600) {} drafts).map fun row => (Findings.view drafts row, Findings.withAgeing row.2 600)) := by
  intro h
  have huntied := (@finding_pages characterwise (actor 1 600) _ {} drafts).mp h
  revert huntied
  decide +kernel

end AuditSphere.Paging
