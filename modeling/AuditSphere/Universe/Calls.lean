import AuditSphere.Theory.Forest
import AuditSphere.Universe.Service

/-!
# What a request for an entity does

A request changes the row of one entity at most. If it gives the entity a parent, it has walked up
from there before, and has not met the entity in the rows that it read (`Unmet`).
-/

namespace AuditSphere.Universe

open Prisma Theory Shared

/-! ### Calls -/

/-- The parent of an entity. -/
def parentOf (s : Hierarchy) (id : Uuid) : Option Uuid := (s.entities.find id).bind AuditEntity.parentId

/-- The walk up from an entity, with so many rows left to read, has not met the ancestor in the states in
which it has read them. -/
def Unmet (ctx : Ctx) (ancestorId : Uuid) : ℕ → Option Uuid → List Hierarchy → Prop
  | left + 1, some current, u :: w => ∀ row, (ctx.findById u.entities current fun _ => true) = some row →
      row.parentId ≠ some ancestorId ∧ Unmet ctx ancestorId left row.parentId w
  | _, _, _ => True

/-- The states in which the walk of a move has read its rows, the first one first: two checks were made before. -/
def walk (l : List Hierarchy) : List Hierarchy := l.reverse.drop 2

/-- One row is put into the table, under a parent that is there. -/
structure Put (id : Uuid) (e : AuditEntity) (s s' : Hierarchy) : Prop where
  rows : ∀ j, s'.entities.find j = if j = id then some e else s.entities.find j
  parent : ∀ p, e.parentId = some p → ∃ e', s.entities.find p = some e'

/-- A call of a request, after those that found `l`. -/
inductive Call : Request → List Hierarchy → Hierarchy → Hierarchy → Prop where
  | quiet {r l s s'} (h : s'.entities = s.entities) : Call r l s s'
  | created {ctx dto e l s s'} (fresh : s.entities.find (ctx.uuid 0) = none) (h : Put (ctx.uuid 0) e s s') :
    Call (.createEntity ctx dto) l s s'
  | updated {ctx id dto e e' l s s'} (row : s.entities.find id = some e) (happly : dto.apply e = .ok e')
    (unmet : ∀ p, dto.parentId.orNull = some p → p ≠ id ∧ Unmet ctx id maxDepth (some p) (walk l))
    (h : Put id e' s s') : Call (.updateEntity ctx id dto) l s s'
  | deleted {ctx id e l s s'} (row : s.entities.find id = some e) (h : Put id (deleted ctx e) s s') :
    Call (.deleteEntity ctx id) l s s'

theorem apply_ok {dto : UpdateEntityDto} {e e' : AuditEntity} (h : dto.apply e = .ok e') :
    e'.parentId = dto.parentId.onNullable e.parentId := by
  have hrequired : ∀ e₁, dto.required e = some e₁ → e₁.parentId = e.parentId := by
    intro e₁ he₁
    simp only [UpdateEntityDto.required, Option.bind_eq_bind, Option.bind_eq_some_iff] at he₁
    obtain ⟨_, -, _, -, _, -, _, -, _, -, _, -, heq⟩ := he₁
    cases heq
    rfl
  unfold UpdateEntityDto.apply at h
  split at h
  · cases h
  · rename_i e₁ he₁
    cases h
    exact congrArg (Field.onNullable dto.parentId) (hrequired e₁ he₁)

theorem constrained_ok {u : Hierarchy} {id : Uuid} {e : AuditEntity} (h : constrained u id e = .ok ()) :
    ∀ p, e.parentId = some p → ∃ e', u.entities.find p = some e' := by
  unfold constrained at h
  split at h
  · cases h
  · split at h
    · cases h
    · rename_i hrefers
      simp only [Bool.not_eq_true', Bool.not_eq_false, Bool.and_eq_true] at hrefers
      exact refersTo_iff.mp hrefers.1

theorem insertEntity_ok {id : Uuid} {e : AuditEntity} {s s' : Hierarchy} {r : WithId AuditEntity}
    (h : insertEntity id e s = .ok (r, s')) : s.entities.find id = none ∧ Put id e s s' := by
  obtain ⟨⟨⟩, hconstrained, h⟩ := Prog.bind_eq_ok.mp h
  obtain ⟨entities, hinsert, h⟩ := Prog.bind_eq_ok.mp h
  cases h
  obtain ⟨hfresh, hrows⟩ := insertRow_ok hinsert
  exact ⟨hfresh, hrows, constrained_ok hconstrained⟩

theorem updateEntityRow_ok {ctx : Ctx} {id : Uuid} {f : AuditEntity → Except HttpError AuditEntity}
    {s s' : Hierarchy} {r : WithId AuditEntity} (h : updateEntityRow ctx id f s = .ok (r, s')) :
    ∃ e e', s.entities.find id = some e ∧ f e = .ok e' ∧ Put id e' s s' := by
  obtain ⟨⟨e', entities⟩, hupdate, h⟩ := Prog.bind_eq_ok.mp h
  obtain ⟨⟨⟩, hconstrained, h⟩ := Prog.bind_eq_ok.mp h
  cases h
  obtain ⟨e, hfind, -, hf, hrows⟩ := updateRow_ok hupdate
  exact ⟨e, e', hfind, hf, hrows, constrained_ok hconstrained⟩

/-! ### Methods -/

section Methods

variable {P : List Hierarchy → Hierarchy → Hierarchy → Prop} {l : List Hierarchy}

theorem onDb_along {α : Type} (hquiet : ∀ l s s', s'.entities = s.entities → P l s s') (p : Service α)
    (l : List Hierarchy) : (onDb p).Along P (fun _ _ => True) l :=
  Prog.along_embed (fun l s db => hquiet l s { s with db } rfl) p l

/-- The check reads once. -/
theorem assertEntity_along (hsame : ∀ l s, P l s s) (ctx : Ctx) (id : Uuid) (l : List Hierarchy) :
    (assertEntity ctx id).Along P (fun _ l' => ∃ s, l' = s :: l) l := by
  unfold assertEntity
  rw [Prog.along_read_bind]
  refine fun s => ⟨hsame l s, ?_⟩
  split <;> exact ⟨s, rfl⟩

/-- The walk adds the states in which it has read a row. -/
theorem isDescendant_along (hsame : ∀ l s, P l s s) (ctx : Ctx) (ancestorId : Uuid) (left : ℕ)
    (current : Option Uuid) (l : List Hierarchy) :
    (isDescendant ctx ancestorId left current).Along P (fun r l' => ∃ w, l' = w.reverse ++ l ∧
      (r = .ok false → Unmet ctx ancestorId left current w)) l := by
  induction left generalizing current l with
  | zero => exact ⟨[], rfl, fun _ => trivial⟩
  | succ left ih =>
    cases current with
    | none => exact ⟨[], rfl, fun _ => trivial⟩
    | some current =>
      unfold isDescendant
      rw [Prog.along_read_bind]
      refine fun u => ⟨hsame l u, ?_⟩
      split
      · rename_i hnone
        refine ⟨[u], rfl, fun _ row hrow => ?_⟩
        rw [hnone] at hrow
        cases hrow
      · rename_i row hrow
        rw [Prog.along_ite]
        split
        · exact ⟨[u], rfl, nofun⟩
        · rename_i hother
          refine (ih row.parentId (u :: l)).mono (fun _ _ _ _ h => h) ?_
          rintro r l' - ⟨w, rfl, hunmet⟩
          refine ⟨u :: w, by simp, fun hr row' hrow' => ?_⟩
          cases hrow.symm.trans hrow'
          exact ⟨hother, hunmet hr⟩

/-- What is known of a move that has been checked, after the row of the entity itself was read. -/
theorem assertMove_along (hsame : ∀ l s, P l s s) (ctx : Ctx) (id : Uuid) (parentId : Option Uuid) (s : Hierarchy) :
    (assertMove ctx id parentId).Along P (fun r l' => (∃ u, r = .ok u) →
      ∀ p, parentId = some p → p ≠ id ∧ Unmet ctx id maxDepth (some p) (walk l')) [s] := by
  cases parentId with
  | none => exact fun _ p hp => by cases hp
  | some p =>
    unfold assertMove
    dsimp only
    rw [Prog.along_ite]
    split
    · exact fun h => by
        obtain ⟨u, hu⟩ := h
        cases hu
    · rename_i hne
      rw [Prog.along_bind]
      refine (assertEntity_along hsame ctx p [s]).mono (fun _ _ _ _ h => h) ?_
      rintro (err | e) l' - ⟨s', rfl⟩
      · exact fun ⟨_, hu⟩ => by cases hu
      · dsimp only
        rw [Prog.along_bind]
        refine (isDescendant_along hsame ctx id maxDepth (some p) [s', s]).mono (fun _ _ _ _ h => h) ?_
        rintro (err | met) l' - ⟨w, rfl, hunmet⟩
        · exact fun ⟨_, hu⟩ => by cases hu
        · cases met with
          | true => exact fun ⟨_, hu⟩ => by cases hu
          | false =>
            rintro - q ⟨⟩
            refine ⟨hne, ?_⟩
            have hwalk : walk (w.reverse ++ [s', s]) = w := by simp [walk]
            rw [hwalk]
            exact hunmet rfl

/-- A call on the table, and what follows it. -/
theorem call_along {α β : Type} {f : Hierarchy → Except HttpError (α × Hierarchy)} {k : α → Method β}
    (hsame : ∀ l s, P l s s) (hf : ∀ s a s', f s = .ok (a, s') → P l s s')
    (hk : ∀ a l', (k a).Along P (fun _ _ => True) l') : (Prog.call f >>= k).Along P (fun _ _ => True) l :=
  Prog.along_call_bind (fun s _ _ => ⟨hsame l s, trivial⟩) fun s a s' h => ⟨hf s a s' h, hk a _⟩

end Methods

/-! ### The requests -/

theorem createEntity_along (ctx : Ctx) (dto : CreateEntityDto) :
    (createEntity ctx dto).Along (Call (.createEntity ctx dto)) (fun _ _ => True) [] := by
  have hsame : ∀ l s, Call (.createEntity ctx dto) l s s := fun _ _ => .quiet rfl
  unfold createEntity
  refine Prog.Along.seq ?_ fun _ l' => ?_
  · unfold assertParent
    split
    · trivial
    · exact Prog.Along.seq ((assertEntity_along hsame ctx _ _).mono (fun _ _ _ _ h => h) fun _ _ _ _ => trivial)
        fun _ _ => trivial
  · refine call_along hsame (fun s a s' h => ?_) fun created l'' => ?_
    · obtain ⟨due, -, h⟩ := Prog.bind_eq_ok.mp h
      obtain ⟨hfresh, hput⟩ := insertEntity_ok h
      exact .created hfresh hput
    · exact (onDb_along (fun _ _ _ => .quiet) _ _).seq fun _ _ => trivial

theorem updateEntity_along (ctx : Ctx) (id : Uuid) (dto : UpdateEntityDto) :
    (updateEntity ctx id dto).Along (Call (.updateEntity ctx id dto)) (fun _ _ => True) [] := by
  have hsame : ∀ l s, Call (.updateEntity ctx id dto) l s s := fun _ _ => .quiet rfl
  unfold updateEntity
  rw [Prog.along_bind]
  refine (assertEntity_along hsame ctx id []).mono (fun _ _ _ _ h => h) ?_
  rintro (err | e) l' - ⟨s, rfl⟩
  · trivial
  · dsimp only
    rw [Prog.along_bind]
    refine (assertMove_along hsame ctx id dto.parentId.orNull s).mono (fun _ _ _ _ h => h) ?_
    rintro (err | u) l' - hmove
    · trivial
    · refine call_along hsame (fun s a s' h => ?_) fun after l'' => ?_
      · obtain ⟨e, e', hrow, happly, hput⟩ := updateEntityRow_ok h
        exact .updated hrow happly (hmove ⟨u, rfl⟩) hput
      · exact (onDb_along (fun _ _ _ => .quiet) _ _).seq fun _ _ => trivial

theorem deleteEntity_along (ctx : Ctx) (id : Uuid) :
    (deleteEntity ctx id).Along (Call (.deleteEntity ctx id)) (fun _ _ => True) [] := by
  have hsame : ∀ l s, Call (.deleteEntity ctx id) l s s := fun _ _ => .quiet rfl
  unfold deleteEntity
  refine Prog.Along.seq ((assertEntity_along hsame ctx id []).mono (fun _ _ _ _ h => h) fun _ _ _ _ => trivial)
    fun _ l' => ?_
  rw [Prog.along_read_bind]
  refine fun s => ⟨hsame l' s, ?_⟩
  rw [Prog.along_ite]
  split
  · trivial
  · refine call_along hsame (fun s a s' h => ?_) fun _ l'' => ?_
    · obtain ⟨e, e', hrow, hdeleted, hput⟩ := updateEntityRow_ok h
      cases hdeleted
      exact .deleted hrow hput
    · exact onDb_along (fun _ _ _ => .quiet) _ _

/-- **Every call of a request** is one of these. -/
theorem serve_along (r : Request) : (serve r).Along (Call r) (fun _ _ => True) [] := by
  unfold serve
  rw [Prog.along_ite]
  split
  · trivial
  · cases r with
    | createEntity ctx dto => exact (createEntity_along ctx dto).map _
    | updateEntity ctx id dto => exact (updateEntity_along ctx id dto).map _
    | deleteEntity ctx id => exact (deleteEntity_along ctx id).seq fun _ _ => trivial

end AuditSphere.Universe
