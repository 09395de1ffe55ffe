import AuditSphere.Tenancy.Reads
import AuditSphere.Workpapers.History

/-!
# Isolation of the tenants

The tenant-scoped client confines the rows that a query selects, not the relations
that it includes. Those show rows of the tenant alone as long as the database is
closed, and it stays so as long as the ids that the services store unchecked name no
row of another tenant (`isolated`). The services do not see to that themselves: a
workpaper can be given the risk of another tenant, whose title is then shown with it
(`risk_of_another_tenant`).
-/

namespace AuditSphere.Tenancy

open Prisma Theory Shared
open Workpapers (office actor)

/-- **Isolation**: after every history of requests by users of any tenants, none of which
has an unchecked id of another tenant's row, every reference that is stored leads to a
row that its tenant sees, and every listing and single record is answered as if the rows
of other tenants were not there. -/
theorem isolated {db₀ : Db} (h₀ : db₀.Closed) (past : List Request)
    (h : Always serve (fun s r => Authentic s r.ctx ∧ OwnIds s r) db₀ past) :
    (history serve db₀ past).Closed ∧ ∀ q : Query,
      ((answer q).run (history serve db₀ past)).1 = ((answer q).run (confined q.ctx (history serve db₀ past))).1 := by
  have hclosed := closed_of_history h₀ past h
  exact ⟨hclosed, answer_confined hclosed⟩

/-- The office of Ann and that of Dora, each with a risk. -/
def offices : Db := { office with
  users := ⟨[(1, ⟨1, "Ann", .active, none⟩), (4, ⟨2, "Dora", .active, none⟩)], by decide⟩
  risks := ⟨[(21, ⟨1, "R-1", "Liquidity", none⟩), (22, ⟨2, "R-1", "Fraud in payroll", none⟩)], by decide⟩ }

theorem offices_closed : offices.Closed := by
  refine RefGraph.Closed.of_no_refs ?_
  rintro ⟨m, i⟩ n hn
  cases m <;> first
    | cases hn
    | (obtain ⟨r, hr, rfl⟩ := Option.map_eq_some_iff.mp hn
       have hmem := (Table.find_eq_some_iff _ _ _).mp hr
       first
         | rfl
         | (simp only [offices, office, List.mem_singleton, Prod.mk.injEq] at hmem
            rw [hmem.2]
            rfl))

/-- Ann creates workpaper 100 on a risk. -/
def createOn (riskId : Uuid) : Request :=
  .workpapers (.create (actor 1 100) 10 { reference := "B.1", title := "Cash", riskId := some (some riskId) })

/-- With the risk of her own tenant nothing is shown that is not Ann's. -/
theorem isolated_ann : (history serve offices [createOn 21]).Closed ∧ ∀ q : Query,
    ((answer q).run (history serve offices [createOn 21])).1 =
      ((answer q).run (confined q.ctx (history serve offices [createOn 21]))).1 := by
  refine isolated offices_closed [createOn 21] ⟨⟨show Authentic offices (actor 1 100) by decide, ?_⟩, trivial⟩
  intro k hk n hn
  rw [show (createOn 21).unchecked = [(.risk, 21)] from rfl, List.mem_singleton] at hk
  subst hk
  cases hn
  exact .inl rfl

/-- The risk that is shown with a workpaper. -/
def shownRisk (a : Except HttpError Answer) : Option String :=
  match a with
  | .ok (.workpaper (d, _)) => d.risk.map fun r => r.2.title
  | _ => none

/-- With the risk of Dora's tenant a reference crosses the tenants, and Ann is shown the
title of that risk. -/
theorem risk_of_another_tenant :
    shownRisk ((answer (.workpaper (actor 1 100) 100)).run (history serve offices [createOn 22])).1 =
        some "Fraud in payroll" ∧
      ¬∀ (db₀ : Db) (past : List Request), db₀.Closed → Always serve (fun s r => Authentic s r.ctx) db₀ past →
        (history serve db₀ past).Closed := by
  have hshown : shownRisk ((answer (.workpaper (actor 1 100) 100)).run (history serve offices [createOn 22])).1 =
      some "Fraud in payroll" := by decide +kernel
  refine ⟨hshown, fun h => ?_⟩
  have hclosed := h offices [createOn 22] offices_closed
    ⟨show Authentic offices (actor 1 100) by decide, trivial⟩
  have hconfined : shownRisk ((answer (.workpaper (actor 1 100) 100)).run
      (confined (actor 1 100) (history serve offices [createOn 22]))).1 = none := by decide +kernel
  rw [answer_confined hclosed (.workpaper (actor 1 100) 100)] at hshown
  rw [show (Query.workpaper (actor 1 100) 100).ctx = actor 1 100 from rfl, hconfined] at hshown
  cases hshown

end AuditSphere.Tenancy
