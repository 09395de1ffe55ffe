import AuditSphere.Universe.Calls
import AuditSphere.Workpapers.History

/-!
# The hierarchy of entities

Following parents from an entity is to end at one without a parent (`IsForest`). A move is checked
by a walk up from the new parent, which reads 64 rows at most, one after the other, before the move
is written. It misses the moved entity if that lies farther up, or if others have changed the parent
of a row after the walk has read it (`Overlooked`): two moves at once may put each entity under the
other.

The hierarchy is a forest throughout exactly the runs in which no move is written that has
overlooked anything.
-/

namespace AuditSphere.Universe

open Prisma Theory Shared

/-- Following parents from any entity ends at one without a parent, and never comes back to it. -/
structure IsForest (s : Hierarchy) : Prop where
  ends : ∀ id e, s.entities.find id = some e → ∃ k root r, climb (parentOf s) k id = some root ∧
    s.entities.find root = some r ∧ r.parentId = none
  acyclic : ∀ id e, s.entities.find id = some e → ∀ k, climb (parentOf s) (k + 1) id ≠ some id

/-- The parent of each entity is there. -/
def Referred (s : Hierarchy) : Prop := ∀ id p, parentOf s id = some p → ∃ e, s.entities.find p = some e

theorem parentOf_eq_some {s : Hierarchy} {id p : Uuid} :
    parentOf s id = some p ↔ ∃ e, s.entities.find id = some e ∧ e.parentId = some p :=
  Option.bind_eq_some_iff

theorem parentOf_of {s : Hierarchy} {id : Uuid} {e : AuditEntity} (h : s.entities.find id = some e) :
    parentOf s id = e.parentId := by
  rw [parentOf, h, Option.bind_some]

theorem parentOf_of_none {s : Hierarchy} {id : Uuid} (h : s.entities.find id = none) : parentOf s id = none := by
  rw [parentOf, h, Option.bind_none]

/-- What is above an entity is there. -/
theorem Referred.climb {s : Hierarchy} (h : Referred s) {k : ℕ} {id a : Uuid} {e : AuditEntity}
    (he : s.entities.find id = some e) (ha : climb (parentOf s) k id = some a) : ∃ e', s.entities.find a = some e' := by
  induction k generalizing id e with
  | zero =>
    cases ha
    exact ⟨e, he⟩
  | succ k ih =>
    obtain ⟨p, hp, ha⟩ := Option.bind_eq_some_iff.mp ha
    obtain ⟨e', he'⟩ := h id p hp
    exact ih he' ha

theorem isForest_iff {s : Hierarchy} : IsForest s ↔ Forest (parentOf s) ∧ Referred s := by
  constructor
  · intro h
    have hrooted : ∀ id e, s.entities.find id = some e → Rooted (parentOf s) id := by
      intro id e he
      obtain ⟨k, root, r, hk, hr, hnone⟩ := h.ends id e he
      exact rooted_of_climb hk ((parentOf_of hr).trans hnone)
    constructor
    · intro id
      cases he : s.entities.find id with
      | none => exact .root (parentOf_of_none he)
      | some e => exact hrooted id e he
    · intro id p hp
      obtain ⟨e, he, -⟩ := parentOf_eq_some.mp hp
      obtain ⟨k, root, r, hk, hr, hnone⟩ := h.ends id e he
      -- The way goes on from the parent.
      cases k with
      | zero =>
        cases hk
        cases hr.symm.trans he
        rw [parentOf_of he, hnone] at hp
        cases hp
      | succ k =>
        rw [climb_succ_of hp] at hk
        by_contra hmissing
        have hgone : parentOf s p = none := 
          parentOf_of_none (Option.eq_none_iff_forall_ne_some.mpr fun e he => hmissing ⟨e, he⟩)
        cases k with
        | zero =>
          cases hk
          exact hmissing ⟨r, hr⟩
        | succ k =>
          rw [climb_succ_of_none hgone] at hk
          cases hk
  · rintro ⟨hforest, hreferred⟩
    constructor
    · intro id e he
      obtain ⟨k, root, hk, hroot⟩ := (hforest id).exists_root
      obtain ⟨r, hr⟩ := hreferred.climb he hk
      exact ⟨k, root, r, hk, hr, (parentOf_of hr).symm.trans hroot⟩
    · exact fun id _ _ k => (hforest id).climb_ne_self k

/-! ### Moves -/

section Moves

variable (ctx : Ctx) (w : List Hierarchy) (s : Hierarchy) (p : Uuid)

/-- The walk up from an entity has read the row that is `j` steps above it now, and found the parent that the
row has now. -/
def readAsIs (j : ℕ) : Bool :=
  match climb (parentOf s) j p, w[j]? with
  | some c, some u => (ctx.findById u.entities c fun _ => true).bind AuditEntity.parentId = parentOf s c
  | _, _ => false

/-- The entity is above the new parent: too far, or above a row that the walk has not read as it is now. -/
def Overlooked (id : Uuid) : Prop :=
  ∃ k ≤ s.entities.entries.length, climb (parentOf s) k p = some id ∧
    (maxDepth < k ∨ ∃ j < k, readAsIs ctx w s p j = false)

variable {ctx w s p}

/-- The walk has met the ancestor, if that is near enough and the rows are as they were read. -/
theorem Unmet.far {left k : ℕ} {id : Uuid} (h : Unmet ctx id left (some p) w)
    (hk : climb (parentOf s) (k + 1) p = some id) (hread : ∀ j ≤ k, readAsIs ctx w s p j = true) : left ≤ k := by
  induction left generalizing p w k with
  | zero => exact Nat.zero_le k
  | succ left ih =>
    obtain ⟨q, hq, hk⟩ := Option.bind_eq_some_iff.mp hk
    cases w with
    | nil =>
      have hfirst := hread 0 (Nat.zero_le k)
      simp [readAsIs] at hfirst
    | cons u w =>
      have hfirst : (ctx.findById u.entities p fun _ => true).bind AuditEntity.parentId = parentOf s p := by
        simpa [readAsIs] using hread 0 (Nat.zero_le k)
      obtain ⟨row, hrow, hparent⟩ := Option.bind_eq_some_iff.mp (hfirst.trans hq)
      obtain ⟨hother, hrest⟩ := h row hrow
      rw [hparent] at hother hrest
      cases k with
      | zero => exact absurd hk hother
      | succ k =>
        have hlater : ∀ j ≤ k, readAsIs ctx w s q j = true := by
          intro j hj
          have := hread (j + 1) (Nat.succ_le_succ hj)
          rwa [readAsIs, climb_succ_of hq, List.getElem?_cons_succ] at this
        exact Nat.succ_le_succ (ih hrest hk hlater)

/-- A move that has been checked leaves a forest unless it has overlooked something. -/
theorem move_forest_iff (hs : Forest (parentOf s)) {id : Uuid} (hne : p ≠ id)
    (hunmet : Unmet ctx id maxDepth (some p) w) :
    Forest (Function.update (parentOf s) id (some p)) ↔ ¬Overlooked ctx w s p id := by
  rw [forest_update_iff hs]
  constructor
  · rintro hnot ⟨k, -, hk, -⟩
    exact hnot k hk
  · intro hseen k hk
    have hrows : ∀ b, (parentOf s b).isSome = true → b ∈ s.entities.entries.map Prod.fst := by
      intro b hb
      obtain ⟨q, hq⟩ := Option.isSome_iff_exists.mp hb
      obtain ⟨e, he, -⟩ := parentOf_eq_some.mp hq
      exact List.mem_map.mpr ⟨(b, e), (Table.find_eq_some_iff _ _ _).mp he, rfl⟩
    have hle := (hs p).climb_le hrows hk
    rw [List.length_map] at hle
    refine hseen ⟨k, hle, hk, ?_⟩
    cases k with
    | zero => exact absurd (Option.some.inj hk) hne
    | succ k =>
      by_contra hnot
      push Not at hnot
      have hfar := hunmet.far hk fun j hj => by
        simpa using hnot.2 j (Nat.lt_succ_of_le hj)
      omega

end Moves

/-! ### Calls -/

/-- The row that is put gives the entity its parent, and nothing else changes. -/
theorem Put.parents {id : Uuid} {e : AuditEntity} {s s' : Hierarchy} (h : Put id e s s') :
    parentOf s' = Function.update (parentOf s) id e.parentId := by
  funext j
  by_cases hj : j = id
  · subst hj
    rw [Function.update_self, parentOf, h.rows, if_pos rfl, Option.bind_some]
  · rw [Function.update_of_ne hj, parentOf, h.rows, if_neg hj, parentOf]

theorem Put.referred {id : Uuid} {e : AuditEntity} {s s' : Hierarchy} (h : Put id e s s') (hs : Referred s) :
    Referred s' := by
  have hstays : ∀ p, (∃ e', s.entities.find p = some e') → ∃ e', s'.entities.find p = some e' := by
    rintro p ⟨e', he'⟩
    rw [h.rows]
    split
    · exact ⟨e, rfl⟩
    · exact ⟨e', he'⟩
  intro j p hp
  rw [h.parents] at hp
  by_cases hj : j = id
  · subst hj
    rw [Function.update_self] at hp
    exact hstays p (h.parent p hp)
  · rw [Function.update_of_ne hj] at hp
    exact hstays p (hs j p hp)

/-- To put back the parent that an entity has changes nothing. -/
theorem Put.parents_same {id : Uuid} {e : AuditEntity} {s s' : Hierarchy} (h : Put id e s s')
    (hsame : e.parentId = parentOf s id) : parentOf s' = parentOf s := by
  rw [h.parents, hsame, Function.update_eq_self]

/-- The entity that a request moves, and where. -/
def Request.move : Request → Option (Uuid × Uuid)
  | .updateEntity _ id dto => dto.parentId.orNull.map fun p => (id, p)
  | .createEntity .. | .deleteEntity .. => none

/-- If the call moves an entity, nothing has been overlooked. -/
def Checked (r : Request) (l : List Hierarchy) (s s' : Hierarchy) : Prop :=
  ∀ m ∈ r.move, parentOf s' m.1 ≠ parentOf s m.1 → ¬Overlooked r.ctx (walk l) s m.2 m.1

theorem checked_of_same {r : Request} {l : List Hierarchy} {s s' : Hierarchy} (h : parentOf s' = parentOf s) :
    Checked r l s s' := fun m _ hmoved => absurd (congrFun h m.1) hmoved

/-- A new entity is under nothing that is under it. -/
theorem created_forest {id : Uuid} {e : AuditEntity} {s s' : Hierarchy} (h : Put id e s s')
    (fresh : s.entities.find id = none) (hs : Forest (parentOf s)) (hreferred : Referred s) : Forest (parentOf s') := by
  rw [h.parents]
  cases hp : e.parentId with
  | none => exact forest_update_none hs id
  | some p =>
    refine (forest_update_iff hs id p).mpr fun k hk => ?_
    obtain ⟨e', he'⟩ := h.parent p hp
    obtain ⟨e'', he''⟩ := hreferred.climb he' hk
    rw [fresh] at he''
    cases he''

/-- What an update leaves is a forest exactly if nothing has been overlooked. -/
theorem updated_forest_iff {ctx : Ctx} {id : Uuid} {dto : UpdateEntityDto} {e e' : AuditEntity} {l : List Hierarchy}
    {s s' : Hierarchy} (row : s.entities.find id = some e) (happly : dto.apply e = .ok e')
    (unmet : ∀ p, dto.parentId.orNull = some p → p ≠ id ∧ Unmet ctx id maxDepth (some p) (walk l))
    (h : Put id e' s s') (hs : Forest (parentOf s)) :
    Forest (parentOf s') ↔ Checked (.updateEntity ctx id dto) l s s' := by
  have hparent := apply_ok happly
  by_cases hsame : e'.parentId = parentOf s id
  · have hparents := h.parents_same hsame
    exact iff_of_true (hparents ▸ hs) (checked_of_same hparents)
  · have hmoved : parentOf s' id ≠ parentOf s id := by rwa [h.parents, Function.update_self]
    rcases hdto : dto.parentId with _ | _ | p
    · rw [hdto, Field.onNullable_none] at hparent
      exact absurd (hparent.trans (parentOf_of row).symm) hsame
    · rw [hdto, Field.onNullable_some] at hparent
      refine iff_of_true ?_ fun m hm => ?_
      · rw [h.parents, hparent]
        exact forest_update_none hs id
      · simp [Request.move, hdto, Field.orNull] at hm
    · have horNull : dto.parentId.orNull = some p := by rw [hdto]; rfl
      rw [hdto, Field.onNullable_some] at hparent
      obtain ⟨hne, hunmet⟩ := unmet p horNull
      rw [h.parents, hparent, move_forest_iff hs hne hunmet]
      refine ⟨fun hseen m hm _ => ?_, fun hchecked => hchecked (id, p) ?_ hmoved⟩
      · simp only [Request.move, horNull, Option.map_some, Option.mem_some_iff] at hm
        rw [← hm]
        exact hseen
      · simp only [Request.move, horNull, Option.map_some, Option.mem_some_iff]

/-- **A call** leaves a forest exactly if nothing has been overlooked. -/
theorem Call.isForest_iff {r : Request} {l : List Hierarchy} {s s' : Hierarchy} (h : Call r l s s') (hs : IsForest s) :
    IsForest s' ↔ Checked r l s s' := by
  obtain ⟨hforest, hreferred⟩ := Universe.isForest_iff.mp hs
  have hput : ∀ {id e}, Put id e s s' → (IsForest s' ↔ Forest (parentOf s')) := fun h =>
    Universe.isForest_iff.trans (and_iff_left (h.referred hreferred))
  cases h with
  | quiet h =>
    have hparents : parentOf s' = parentOf s := by
      funext id
      rw [parentOf, h, parentOf]
    refine iff_of_true (Universe.isForest_iff.mpr ⟨hparents ▸ hforest, ?_⟩) (checked_of_same hparents)
    unfold Referred
    rw [hparents, h]
    exact hreferred
  | created fresh h =>
    exact (hput h).trans (iff_of_true (created_forest h fresh hforest hreferred) fun m hm => by cases hm)
  | updated row happly unmet h => exact (hput h).trans (updated_forest_iff row happly unmet h hforest)
  | deleted row h =>
    have hparents := h.parents_same (parentOf_of row).symm
    exact (hput h).trans (iff_of_true (hparents ▸ hforest) (checked_of_same hparents))

/-! ### Runs -/

section Runs

variable (s₀ : Hierarchy)

/-- The database after a run. -/
abbrev at_ (evs : List (Event Request)) : Hierarchy := (interleave serve s₀ evs).st

/-- What a request has seen. -/
abbrev saw (j : ℕ) (evs : List (Event Request)) : List Hierarchy := seen serve s₀ j evs

/-- No turn writes a move that has overlooked the entity above its new parent. -/
def Attentive (past : List (Event Request)) : Event Request → Prop
  | .start _ => True
  | .turn i => ∀ r ∈ requested serve s₀ i past, Checked r (saw s₀ i past) (at_ s₀ past) (at_ s₀ (.turn i :: past))

theorem isForest_turn_iff {past : List (Event Request)} (hs : IsForest (at_ s₀ past)) (i : ℕ) :
    IsForest (at_ s₀ (.turn i :: past)) ↔ Attentive s₀ past (.turn i) := by
  rcases turn_cases s₀ serve_along past i with ⟨hsame, -⟩ | ⟨r, hr, -, -, -, hcall⟩
  · have hst : at_ s₀ (.turn i :: past) = at_ s₀ past := congrArg Config.st hsame
    refine iff_of_true (hst ▸ hs) fun r _ => ?_
    exact checked_of_same (by rw [hst])
  · refine (hcall.isForest_iff hs).trans ?_
    rw [Attentive, hr]
    exact ⟨fun h r' hr' => Option.some.inj hr' ▸ h, fun h => h r rfl⟩

end Runs

instance (ctx : Ctx) (w : List Hierarchy) (s : Hierarchy) (p id : Uuid) : Decidable (Overlooked ctx w s p id) :=
  decidable_of_iff (∃ k, k < s.entities.entries.length + 1 ∧ climb (parentOf s) k p = some id ∧
    (maxDepth < k ∨ ∃ j, j < k ∧ readAsIs ctx w s p j = false)) (by simp [Overlooked, Nat.lt_succ_iff])

instance (r : Request) (l : List Hierarchy) (s s' : Hierarchy) : Decidable (Checked r l s s') :=
  inferInstanceAs (Decidable (∀ m ∈ r.move, _ ≠ _ → ¬_))

instance (s₀ : Hierarchy) (past : List (Event Request)) (e : Event Request) : Decidable (Attentive s₀ past e) :=
  match e with
  | .start _ => .isTrue trivial
  | .turn i => inferInstanceAs (Decidable (∀ r ∈ requested serve s₀ i past, _))

/-! ### Two moves at once, and a deep hierarchy -/

/-- A user who manages the universe. -/
def manager (k : Uuid) : Ctx := { Workpapers.actor 1 k with permissions := [.universeManage] }

/-- A department of tenant 1. -/
def department (id : Uuid) (parentId : Option Uuid) : Uuid × AuditEntity :=
  (id, ⟨1, parentId, .department, toString id, "Department", none, none, none, [], .arr [], .medium, none, none, none,
    .obj [], true, none⟩)

/-- Departments 1, 2 and 3, of which the third is under the second. -/
def departments : Hierarchy where
  db := Workpapers.office
  entities := ⟨[department 1 none, department 2 none, department 3 (some 2)], by decide⟩

/-- Each of 66 departments is under the one before it. -/
def chain : Hierarchy where
  db := Workpapers.office
  entities := ⟨(List.range 66).map fun i => department i (if i = 0 then none else some (i - 1)), by decide +kernel⟩

/-- Every parent is there, with a smaller id. -/
def Descending (s : Hierarchy) : Prop :=
  ∀ row ∈ s.entities.entries, ∀ p ∈ row.2.parentId, p < row.1 ∧ (s.entities.find p).isSome = true

instance (s : Hierarchy) : Decidable (Descending s) :=
  inferInstanceAs (Decidable (∀ row ∈ s.entities.entries, ∀ p ∈ row.2.parentId, _ ∧ _))

theorem isForest_of_descending {s : Hierarchy} (h : Descending s) : IsForest s := by
  have hparent : ∀ id p, parentOf s id = some p → p < id ∧ (s.entities.find p).isSome = true := by
    intro id p hp
    obtain ⟨e, he, hp⟩ := parentOf_eq_some.mp hp
    exact h (id, e) ((Table.find_eq_some_iff _ _ _).mp he) p hp
  exact isForest_iff.mpr ⟨forest_of_rank (fun id => id) fun id p hp => (hparent id p hp).1,
    fun id p hp => Option.isSome_iff_exists.mp (hparent id p hp).2⟩

/-- An entity is put under another one. -/
def moving (k id p : Uuid) : Request := .updateEntity (manager k) id { parentId := some (some p) }

/-- So many turns of a request. -/
def turns (i n : ℕ) : List (Event Request) := List.replicate n (.turn i)

/-- Department 1 is moved under department 3, and then 2 to the root. -/
def oneByOne : List (Event Request) :=
  turns 1 3 ++ turns 0 6 ++
    [.start (.updateEntity (manager 110) 3 { parentId := some none }), .start (moving 100 1 3)]

/-- Department 1 is moved under 2, and 2 under 1, both checked before either is written. -/
def atOnce : List (Event Request) :=
  turns 1 2 ++ turns 0 2 ++ turns 1 3 ++ turns 0 3 ++ [.start (moving 110 2 1), .start (moving 100 1 2)]

/-- The first of the chain is moved under the last. -/
def deepMove : List (Event Request) := turns 0 68 ++ [.start (moving 100 0 65)]

end AuditSphere.Universe
