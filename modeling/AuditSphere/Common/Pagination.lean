import AuditSphere.Db.Client
import AuditSphere.Theory.Ties
import Mathlib.Data.String.Basic

/-!
# Pages and their order

`pagination.ts`: the page that is asked for, and the one column by which it is sorted. Rows with
equal values of the column may stand in any order, and in another one for each query; which it is
(`Arrangement`) and how texts compare (`Collation`) is left to the database.
-/

namespace AuditSphere

open Prisma Theory

/-! ### Pages -/

/-- `PaginationDto`, but for the search. -/
structure PaginationDto where
  page : Option ℕ := some 1
  pageSize : Option ℕ := some 25
  sort : Option String := none

/-- A page of a listing. -/
structure Page (α : Type) where
  items : List α
  total : ℕ
  page : ℕ
  pageSize : ℕ

/-- `PageArgs`. -/
structure PageArgs where
  skip : ℕ
  take : ℕ
  page : ℕ
  pageSize : ℕ

/-- `pageArgs`: pages are counted from one, and have at most 200 rows. -/
def pageArgs (dto : PaginationDto) : PageArgs :=
  let page := max 1 (dto.page.getD 1)
  let pageSize := min 200 (max 1 (dto.pageSize.getD 25))
  ⟨(page - 1) * pageSize, pageSize, page, pageSize⟩

/-- `paginate`. -/
def paginate {σ α : Type} (dto : PaginationDto) (count : Prog σ HttpError ℕ)
    (find : ℕ → ℕ → Prog σ HttpError (List α)) : Prog σ HttpError (Page α) := do
  let args := pageArgs dto
  let total ← count
  let items ← find args.skip args.take
  pure ⟨items, total, args.page, args.pageSize⟩

theorem pageSize_pos (dto : PaginationDto) : 0 < (pageArgs dto).pageSize := by
  dsimp only [pageArgs]
  omega

/-! ### Sorting -/

/-- Ascending or descending. -/
inductive SortOrder where
  | asc | desc
  deriving DecidableEq

/-- A column to sort by, and the direction. -/
abbrev OrderBy (C : Type) := C × SortOrder

/-- `parseSort`: `field:asc|desc`, if the field is allowed. -/
def parseSort {C : Type} (name : C → String) (sort : Option String) (allowed : List C) (fallback : OrderBy C) :
    OrderBy C :=
  match sort.map fun text => (text.toList.splitOn ':').map String.ofList with
  | none | some [] => fallback
  | some (field :: rest) =>
    let dir := if rest.head?.map String.toLower = some "desc" then SortOrder.desc else .asc
    ((allowed.find? fun c => name c = field).map fun c => (c, dir)).getD fallback

/-- A value of a column; values of an enumeration count in the order of its declaration. -/
inductive SortValue where
  | number (q : ℚ)
  | text (s : String)

/-- How the database compares texts. -/
class Collation where
  /-- The first text is not after the second. -/
  le : String → String → Bool
  le_trans : ∀ s t u, le s t = true → le t u = true → le s u = true
  le_total : ∀ s t, (le s t || le t s) = true

/-- Texts compare by their characters. -/
abbrev characterwise : Collation where
  le s t := s.toList ≤ t.toList
  le_trans _ _ _ h h' := decide_eq_true ((of_decide_eq_true h).trans (of_decide_eq_true h'))
  le_total s t := by simpa using le_total s.toList t.toList

section Sorting

variable [Collation]

/-- The first value is not after the second. -/
def SortValue.le : SortValue → SortValue → Bool
  | .number p, .number q => p ≤ q
  | .number _, .text _ => true
  | .text _, .number _ => false
  | .text s, .text t => Collation.le s t

theorem SortValue.le_trans {u v w : SortValue} (h : u.le v = true) (h' : v.le w = true) : u.le w = true := by
  cases u <;> cases v <;> cases w <;> simp only [SortValue.le, decide_eq_true_eq, Bool.false_eq_true] at h h' ⊢
  · exact h.trans h'
  · exact Collation.le_trans _ _ _ h h'

theorem SortValue.le_total (v w : SortValue) : (v.le w || w.le v) = true := by
  cases v <;> cases w <;> simp only [SortValue.le, Bool.true_or, Bool.or_true, Bool.or_eq_true, decide_eq_true_eq]
  · exact Rat.le_total
  · exact Bool.or_eq_true_iff.mp (Collation.le_total _ _)

/-- Ascending, with null last. -/
def ascending : Option SortValue → Option SortValue → Bool
  | _, none => true
  | none, some _ => false
  | some v, some w => v.le w

theorem ascending_trans {u v w : Option SortValue} (h : ascending u v = true) (h' : ascending v w = true) :
    ascending u w = true := by
  cases u <;> cases v <;> cases w <;> simp only [ascending, Bool.false_eq_true] at h h' ⊢
  exact SortValue.le_trans h h'

theorem ascending_total (v w : Option SortValue) : (ascending v w || ascending w v) = true := by
  cases v <;> cases w <;> simp only [ascending, Bool.true_or, Bool.or_true, Bool.or_self]
  exact SortValue.le_total _ _

variable {C ρ : Type} (value : C → ρ → Option SortValue)

/-- The first row is not after the second. -/
def rowLe (orderBy : OrderBy C) (x y : WithId ρ) : Bool :=
  match orderBy.2 with
  | .asc => ascending (value orderBy.1 x.2) (value orderBy.1 y.2)
  | .desc => ascending (value orderBy.1 y.2) (value orderBy.1 x.2)

variable {value}

theorem rowLe_trans (orderBy : OrderBy C) (x y z : WithId ρ) (h : rowLe value orderBy x y = true)
    (h' : rowLe value orderBy y z = true) : rowLe value orderBy x z = true := by
  obtain ⟨c, dir⟩ := orderBy
  cases dir with
  | asc => exact ascending_trans h h'
  | desc => exact ascending_trans h' h

theorem rowLe_total (orderBy : OrderBy C) (x y : WithId ρ) :
    (rowLe value orderBy x y || rowLe value orderBy y x) = true := by
  obtain ⟨c, dir⟩ := orderBy
  cases dir with
  | asc => exact ascending_total _ _
  | desc => exact ascending_total _ _

variable (value)

/-- In which order the database returns the rows of a query. -/
structure Arrangement where
  /-- The rows that match, in order. -/
  arrange : OrderBy C → List (WithId ρ) → List (WithId ρ)
  /-- They are sorted by the column; nothing is said of rows that tie. -/
  arranges : ∀ orderBy rows, Arranges (rowLe value orderBy) rows (arrange orderBy rows)

/-- Rows that tie stay in the order of the table. -/
def stable : Arrangement value where
  arrange orderBy rows := rows.mergeSort (rowLe value orderBy)
  arranges orderBy rows := arranges_mergeSort (rowLe_trans orderBy) (rowLe_total orderBy) rows

variable {value}

/-- `findMany` with `orderBy`, `skip` and `take`. -/
def Arrangement.find (a : Arrangement value) (orderBy : OrderBy C) (rows : List (WithId ρ)) (skip take : ℕ) :
    List (WithId ρ) :=
  ((a.arrange orderBy rows).drop skip).take take

end Sorting

end AuditSphere
