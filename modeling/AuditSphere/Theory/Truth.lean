import Mathlib.Data.List.Basic

/-!
# Three-valued truth

A database condition is true, false or unknown of a row: a comparison with a
null is unknown, and a query returns the rows of which its condition is true.
The connectives are Kleene's strong ones, as SQL has them.

Only one direction of them is ever needed about a query result: a conjunction
is true exactly when all of its parts are, a disjunction exactly when some part
is (`and_eq_yes`, `or_eq_yes`, `all_eq_yes`, `any_eq_yes`). Negation has no such
law, since what is not true may be unknown.
-/

namespace AuditSphere.Theory

/-- A truth value: true, not known, or false. -/
inductive Truth where
  /-- True. -/
  | yes
  /-- Neither: a null was compared. -/
  | unknown
  /-- False. -/
  | no
  deriving DecidableEq

namespace Truth

/-- A condition that is never unknown. -/
def ofBool (b : Bool) : Truth := if b then .yes else .no

/-- `a AND b`. -/
def and : Truth → Truth → Truth
  | .yes, b => b
  | .no, _ => .no
  | .unknown, .no => .no
  | .unknown, _ => .unknown

/-- `a OR b`. -/
def or : Truth → Truth → Truth
  | .no, b => b
  | .yes, _ => .yes
  | .unknown, .yes => .yes
  | .unknown, _ => .unknown

/-- `NOT a`. -/
def not : Truth → Truth
  | .yes => .no
  | .unknown => .unknown
  | .no => .yes

/-- The conjunction of a list; the empty one is true. -/
def all : List Truth → Truth
  | [] => .yes
  | t :: ts => t.and (all ts)

/-- The disjunction of a list; the empty one is false. -/
def any : List Truth → Truth
  | [] => .no
  | t :: ts => t.or (any ts)

@[simp] theorem ofBool_eq_yes (b : Bool) : ofBool b = .yes ↔ b = true := by
  cases b <;> simp [ofBool]

@[simp] theorem and_eq_yes (a b : Truth) : a.and b = .yes ↔ a = .yes ∧ b = .yes := by
  cases a <;> cases b <;> simp [Truth.and]

@[simp] theorem or_eq_yes (a b : Truth) : a.or b = .yes ↔ a = .yes ∨ b = .yes := by
  cases a <;> cases b <;> simp [Truth.or]

@[simp] theorem all_eq_yes (ts : List Truth) : all ts = .yes ↔ ∀ t ∈ ts, t = .yes := by
  induction ts with
  | nil => simp [all]
  | cons t ts ih => simp [all, ih]

@[simp] theorem any_eq_yes (ts : List Truth) : any ts = .yes ↔ ∃ t ∈ ts, t = .yes := by
  induction ts with
  | nil => simp [any]
  | cons t ts ih => rw [any, or_eq_yes, ih, List.exists_mem_cons_iff]

end Truth

end AuditSphere.Theory
