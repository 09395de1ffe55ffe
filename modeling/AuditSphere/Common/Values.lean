import AuditSphere.Prisma.Where
import Mathlib.Data.Rat.Defs
import Mathlib.Tactic.Ring

/-!
# Values

The values that requests carry and rows keep: JSON documents, instants, and the
properties of a DTO, which may be absent, null or a value. `common/utils.ts` has
the small functions on them.
-/

namespace AuditSphere

/-- An instant: milliseconds since the epoch. -/
abbrev Date := ℕ

/-- A JSON document. -/
inductive Json where
  | null
  | bool (b : Bool)
  | num (q : ℚ)
  | str (s : String)
  | arr (items : List Json)
  | obj (fields : List (String × Json))

namespace Json

/-- The property of an object; undefined for anything else. -/
def property (key : String) : Json → Option Json
  | .obj fields => (fields.find? fun f => f.1 == key).map Prod.snd
  | _ => none

/-- The string that a property is, if it is one. -/
def string? (key : String) (j : Json) : Option String :=
  match j.property key with
  | some (.str s) => some s
  | _ => none

/-- `Boolean(value)`. -/
def truthy : Option Json → Bool
  | none | some .null => false
  | some (.bool b) => b
  | some (.num q) => q ≠ 0
  | some (.str s) => s ≠ ""
  | some (.arr _) | some (.obj _) => true

end Json

/-- A property of a DTO: absent (`undefined`), null, or a value. -/
abbrev Field (α : Type) := Option (Option α)

namespace Field

variable {α : Type}

/-- `value ?? null`. -/
def orNull (f : Field α) : Option α := f.join

/-- What an update makes of a nullable column: an absent property leaves it. -/
def onNullable (f : Field α) (old : Option α) : Option α := f.getD old

/-- What an update makes of a required column; Prisma rejects a null. -/
def onRequired (f : Field α) (old : α) : Option α :=
  match f with
  | none => some old
  | some v => v

@[simp] theorem onNullable_none (old : Option α) : onNullable none old = old := rfl

@[simp] theorem onNullable_some (v old : Option α) : onNullable (some v) old = v := rfl

end Field

/-- `json` of a property that is given: null becomes an empty object. -/
def jsonOf {α : Type} (f : α → Json) (value : Option α) : Json := (value.map f).getD (.obj [])

/-- White space and line terminators, which `trim` removes. -/
def isTrimmed (c : Char) : Bool :=
  c.toNat ∈ [0x9, 0xA, 0xB, 0xC, 0xD, 0x20, 0xA0, 0x1680, 0x2028, 0x2029, 0x202F, 0x205F, 0x3000, 0xFEFF] ||
    (0x2000 ≤ c.toNat && c.toNat ≤ 0x200A)

/-- `length`, in UTF-16 code units. -/
def unitLength (s : List Char) : ℕ := (s.map fun c => if c.toNat ≤ 0xFFFF then 1 else 2).sum

theorem unitLength_cons (c : Char) (s : List Char) :
    unitLength (c :: s) = (if c.toNat ≤ 0xFFFF then 1 else 2) + unitLength s := by
  rw [unitLength, List.map_cons, List.sum_cons]
  rfl

/-- Characters of the basic plane have one unit. -/
theorem unitLength_eq_length {s : List Char} (h : ∀ c ∈ s, c.toNat ≤ 0xFFFF) : unitLength s = s.length := by
  induction s with
  | nil => rfl
  | cons c s ih =>
    obtain ⟨hc, hs⟩ := List.forall_mem_cons.mp h
    rw [unitLength_cons, if_pos hc, ih hs, List.length_cons, Nat.add_comm]

/-- `slice(0, n)`, in UTF-16 code units; half a character is stored as a replacement character. -/
def sliceUnits : ℕ → List Char → List Char
  | 0, _ | _, [] => []
  | n + 1, c :: s =>
    if c.toNat ≤ 0xFFFF then c :: sliceUnits n s
    else match n with
      | 0 => [Char.ofNat 0xFFFD]
      | n + 1 => c :: sliceUnits n s

/-- A text that is cut after so many code units, with three dots, if it is too long. -/
def excerpt (limit : ℕ) (s : String) : String :=
  if limit < unitLength s.toList then String.ofList (sliceUnits (limit - 3) s.toList) ++ "..." else s

/-- Nothing is documented: no text, or one that `trim` makes empty. -/
def isBlank : Option String → Bool
  | none => true
  | some s => s.toList.all isTrimmed

end AuditSphere
