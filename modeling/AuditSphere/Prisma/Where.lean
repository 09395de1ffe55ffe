import AuditSphere.Theory.Truth

/-!
# Where arguments

A `where` of a Prisma query is an object: filters on columns and relations,
and the keys `AND`, `OR` and `NOT` with further such objects. Its meaning for a
row is the conjunction of its keys (`Where.eval`), in the database's
three-valued logic; a query returns the rows of which it is true (`matched`).

The filters other than those on `tenantId` are a parameter `φ` with a meaning
`sat`: they may be filters on a scalar column or on a relation, and may look at
the whole database.
-/

namespace AuditSphere.Prisma

open Theory

/-- A `@db.Uuid` value. Identifiers are only ever compared. -/
abbrev Uuid := ℕ

/-- What Prisma takes where one object or an array of them is allowed. -/
inductive OneOrMany (α : Type) where
  /-- A single object. -/
  | one (a : α)
  /-- An array. -/
  | many (as : List α)
  deriving DecidableEq

/-- A filter on the column `tenantId`. -/
inductive TenantFilter (φ : Type) where
  /-- `tenantId: t`. -/
  | eq (t : Uuid)
  /-- `tenantId: null`. -/
  | null
  /-- A filter object, such as `{ in: [..] }` or `{ not: t }`. -/
  | filter (f : φ)
  deriving DecidableEq

/-- A `where` object; an absent key and the value `undefined` mean the same. -/
structure Where (φ : Type) where
  /-- The keys that filter a column or a relation, with their filters. -/
  fields : List (String × φ) := []
  /-- The key `tenantId`. -/
  tenantId : Option (TenantFilter φ) := none
  /-- The key `AND`. -/
  and : Option (OneOrMany (Where φ)) := none
  /-- The key `OR`. -/
  or : Option (List (Where φ)) := none
  /-- The key `NOT`. -/
  not : Option (OneOrMany (Where φ)) := none

variable {φ ρ : Type} (tenantOf : ρ → Option Uuid) (sat : φ → ρ → Truth)

/-- A filter on `tenantId`, for a row: comparing with a null is unknown. -/
def TenantFilter.eval (r : ρ) : TenantFilter φ → Truth
  | .eq t => match tenantOf r with
    | some t' => .ofBool (t' == t)
    | none => .unknown
  | .null => .ofBool (tenantOf r).isNone
  | .filter f => sat f r

mutual

/-- The meaning of a `where` for a row: all of its keys hold. -/
def Where.eval (r : ρ) : Where φ → Truth
  | ⟨fields, tenantId, and, or, not⟩ =>
    (Truth.all (fields.map fun f => sat f.2 r)).and
      ((tenantId.elim .yes fun f => f.eval tenantOf sat r).and
        ((evalAnd r and).and ((evalOr r or).and (evalNot r not))))

/-- `AND` asks for all of its objects. -/
def evalAnd (r : ρ) : Option (OneOrMany (Where φ)) → Truth
  | none => .yes
  | some (.one w) => w.eval r
  | some (.many ws) => Truth.all (evals r ws)

/-- `OR` asks for one of its objects. -/
def evalOr (r : ρ) : Option (List (Where φ)) → Truth
  | none => .yes
  | some ws => Truth.any (evals r ws)

/-- `NOT` asks that each of its objects is false. -/
def evalNot (r : ρ) : Option (OneOrMany (Where φ)) → Truth
  | none => .yes
  | some (.one w) => (w.eval r).not
  | some (.many ws) => Truth.all ((evals r ws).map Truth.not)

/-- The meanings of a list of `where` objects. -/
def evals (r : ρ) : List (Where φ) → List Truth
  | [] => []
  | w :: ws => w.eval r :: evals r ws

end

/-- The rows that a query with this `where` returns. -/
def matched (w : Where φ) : Set ρ := {r | w.eval tenantOf sat r = .yes}

variable {tenantOf sat}

/-- The meaning of a `where`, key by key. -/
theorem Where.eval_eq (r : ρ) (w : Where φ) : w.eval tenantOf sat r =
    (Truth.all (w.fields.map fun f => sat f.2 r)).and
      ((w.tenantId.elim .yes fun f => f.eval tenantOf sat r).and
        ((evalAnd tenantOf sat r w.and).and ((evalOr tenantOf sat r w.or).and (evalNot tenantOf sat r w.not)))) := by
  cases w
  rfl

@[simp] theorem evalAnd_none (r : ρ) : evalAnd tenantOf sat r none = .yes := rfl

@[simp] theorem evalOr_none (r : ρ) : evalOr tenantOf sat r none = .yes := rfl

@[simp] theorem evalNot_none (r : ρ) : evalNot tenantOf sat r none = .yes := rfl

theorem evals_eq_map (r : ρ) (ws : List (Where φ)) :
    evals tenantOf sat r ws = ws.map fun w => w.eval tenantOf sat r := by
  induction ws with
  | nil => rfl
  | cons w ws ih => rw [List.map_cons, ← ih]; rfl

/-- The empty `where` is true of every row. -/
@[simp] theorem eval_empty (r : ρ) : Where.eval tenantOf sat r ({} : Where φ) = .yes := by
  simp [Where.eval_eq]

@[simp] theorem eval_tenant_eq (r : ρ) (t : Uuid) :
    Where.eval tenantOf sat r { tenantId := some (.eq t) } = .yes ↔ tenantOf r = some t := by
  simp only [Where.eval_eq, evalAnd_none, evalOr_none, evalNot_none, Option.elim_some, TenantFilter.eval]
  cases tenantOf r <;> simp

@[simp] theorem eval_tenant_null (r : ρ) :
    Where.eval tenantOf sat r { tenantId := some .null } = .yes ↔ tenantOf r = none := by
  simp [Where.eval_eq, TenantFilter.eval]

/-- An `OR` alone is true when one of its objects is. -/
theorem eval_or (r : ρ) (ws : List (Where φ)) :
    Where.eval tenantOf sat r { or := some ws } = .yes ↔ ∃ w ∈ ws, w.eval tenantOf sat r = .yes := by
  have hor : evalOr tenantOf sat r (some ws) = Truth.any (evals tenantOf sat r ws) := rfl
  simp [Where.eval_eq, hor, evals_eq_map]

/-- The objects that the key `AND` conjoins. -/
def Where.conjuncts (w : Where φ) : List (Where φ) :=
  match w.and with
  | some (.many ws) => ws
  | some (.one w) => [w]
  | none => []

theorem evalAnd_eq_yes (r : ρ) (w : Where φ) :
    evalAnd tenantOf sat r w.and = .yes ↔ ∀ v ∈ w.conjuncts, v.eval tenantOf sat r = .yes := by
  unfold Where.conjuncts
  rcases w.and with _ | v | ws
  · simp
  · have hone : evalAnd tenantOf sat r (some (.one v)) = v.eval tenantOf sat r := rfl
    simp [hone]
  · have hmany : evalAnd tenantOf sat r (some (.many ws)) = Truth.all (evals tenantOf sat r ws) := rfl
    simp [hmany, evals_eq_map]

/-- The key `AND` may be split off: a `where` is true of a row when the rest of its
keys and all the objects under `AND` are. -/
theorem eval_conjuncts (r : ρ) (w : Where φ) :
    w.eval tenantOf sat r = .yes ↔
      Where.eval tenantOf sat r { w with and := none } = .yes ∧
        ∀ v ∈ w.conjuncts, v.eval tenantOf sat r = .yes := by
  rw [← evalAnd_eq_yes]
  simp only [Where.eval_eq, Truth.and_eq_yes, evalAnd_none]
  tauto

/-- The key `tenantId` may be split off. -/
theorem eval_tenant (r : ρ) (w : Where φ) (f : TenantFilter φ) :
    Where.eval tenantOf sat r { w with tenantId := some f } = .yes ↔
      Where.eval tenantOf sat r { w with tenantId := none } = .yes ∧
        Where.eval tenantOf sat r { tenantId := some f } = .yes := by
  simp only [Where.eval_eq, Truth.and_eq_yes, evalAnd_none, evalOr_none, evalNot_none, Option.elim, List.map_nil, Truth.all]
  tauto

end AuditSphere.Prisma
