import Mathlib.Data.List.Perm.Subperm
import Mathlib.Data.List.Nodup
import Mathlib.Logic.Function.Basic

/-!
# Forests

What has at most one parent each is a forest if the way up from everything ends. One thing is
given another parent: what results is a forest exactly if the thing is not on the way up from its
new parent (`forest_update_iff`).

The way up is as long as there are things with a parent at most (`Rooted.climb_le`), so whether it
leads somewhere can be decided.
-/

namespace AuditSphere.Theory

section Forest

variable {α : Type} (parent : α → Option α)

/-- What is so many steps above. -/
def climb : ℕ → α → Option α
  | 0, a => some a
  | k + 1, a => (parent a).bind (climb k)

/-- The way up ends. -/
inductive Rooted : α → Prop where
  | root {a : α} (h : parent a = none) : Rooted a
  | child {a b : α} (h : parent a = some b) (hb : Rooted b) : Rooted a

/-- The way up from everything ends. -/
def Forest : Prop := ∀ a, Rooted parent a

variable {parent} {a b c : α}

@[simp] theorem climb_zero : climb parent 0 a = some a := rfl

theorem climb_succ_of (h : parent a = some b) (k : ℕ) : climb parent (k + 1) a = climb parent k b := by
  rw [climb, h, Option.bind_some]

theorem climb_succ_of_none (h : parent a = none) (k : ℕ) : climb parent (k + 1) a = none := by
  rw [climb, h, Option.bind_none]

theorem climb_one : climb parent 1 a = parent a := by
  cases h : parent a with
  | none => exact climb_succ_of_none h 0
  | some b => exact climb_succ_of h 0

/-- So many steps, and so many more. -/
theorem climb_add (j k : ℕ) : climb parent (j + k) a = (climb parent j a).bind (climb parent k) := by
  induction j generalizing a with
  | zero => rw [Nat.zero_add, climb_zero, Option.bind_some]
  | succ j ih =>
    rw [Nat.add_right_comm]
    cases h : parent a with
    | none => rw [climb_succ_of_none h, climb_succ_of_none h, Option.bind_none]
    | some b => rw [climb_succ_of h, climb_succ_of h, ih]

/-- The last step. -/
theorem climb_succ (k : ℕ) : climb parent (k + 1) a = (climb parent k a).bind parent := by
  rw [climb_add]
  refine congrArg _ (funext fun b => ?_)
  exact climb_one

/-- What is reached is passed on any longer way. -/
theorem climb_of_le {j k : ℕ} (hjk : j ≤ k) (h : climb parent k a = some c) : ∃ b, climb parent j a = some b := by
  obtain ⟨d, rfl⟩ := Nat.exists_eq_add_of_le hjk
  rw [climb_add] at h
  obtain ⟨b, hb, -⟩ := Option.bind_eq_some_iff.mp h
  exact ⟨b, hb⟩

/-! ### Roots -/

theorem Rooted.climb (h : Rooted parent a) (k : ℕ) (hb : climb parent k a = some b) : Rooted parent b := by
  induction k generalizing a with
  | zero =>
    cases hb
    exact h
  | succ k ih =>
    cases h with
    | root hroot =>
      rw [climb_succ_of_none hroot] at hb
      cases hb
    | child hchild hrest =>
      rw [climb_succ_of hchild] at hb
      exact ih hrest hb

/-- Nothing that is rooted is above itself. -/
theorem Rooted.climb_ne_self (h : Rooted parent a) (k : ℕ) : Theory.climb parent (k + 1) a ≠ some a := by
  induction h with
  | root h =>
    rw [climb_succ_of_none h]
    exact nofun
  | child h _ ih =>
    -- Then its parent would be above itself too.
    intro hself
    rw [climb_succ_of h] at hself
    refine ih ?_
    rw [climb_succ, hself, Option.bind_some, h]

theorem Rooted.exists_root (h : Rooted parent a) : ∃ k b, Theory.climb parent k a = some b ∧ parent b = none := by
  induction h with
  | @root a h => exact ⟨0, a, rfl, h⟩
  | child h _ ih =>
    obtain ⟨k, b, hk, hb⟩ := ih
    exact ⟨k + 1, b, (climb_succ_of h k).trans hk, hb⟩

theorem rooted_of_climb {k : ℕ} (hk : climb parent k a = some b) (hb : parent b = none) : Rooted parent a := by
  induction k generalizing a with
  | zero =>
    cases hk
    exact .root hb
  | succ k ih =>
    cases h : parent a with
    | none => exact .root h
    | some c => exact .child h (ih ((climb_succ_of h k).symm.trans hk))

/-- Things that are ranked, each below its parent, are a forest. -/
theorem forest_of_rank (rank : α → ℕ) (h : ∀ a b, parent a = some b → rank b < rank a) : Forest parent := by
  intro a
  induction a using (measure rank).wf.induction with
  | _ a ih =>
    cases hparent : parent a with
    | none => exact .root hparent
    | some b => exact .child hparent (ih b (h a b hparent))

/-- A way up that comes back to nothing is no longer than there are things with a parent. -/
theorem climb_le (h : ∀ i c, climb parent i a = some c → ∀ d, climb parent (d + 1) c ≠ some c) {l : List α}
    (hl : ∀ b, (parent b).isSome = true → b ∈ l) {k : ℕ} (hk : climb parent k a = some b) : k ≤ l.length := by
  -- What is passed before the end has a parent, and nothing is passed twice.
  have hmem : ∀ j < k, ∃ c ∈ l, climb parent j a = some c := by
    intro j hj
    obtain ⟨c, hc⟩ := climb_of_le hj hk
    rw [climb_succ] at hc
    obtain ⟨d, hd, hparent⟩ := Option.bind_eq_some_iff.mp hc
    exact ⟨d, hl d (by rw [hparent]; rfl), hd⟩
  have hne : ∀ i j, i < j → j < k → climb parent i a ≠ climb parent j a := by
    intro i j hij hj heq
    obtain ⟨c, -, hc⟩ := hmem i (Nat.lt_trans hij hj)
    obtain ⟨d, rfl⟩ := Nat.exists_eq_add_of_lt hij
    rw [Nat.add_assoc, climb_add, hc, Option.bind_some] at heq
    exact h i c hc d heq.symm
  have hnodup : ((List.range k).map fun j => climb parent j a).Nodup := by
    refine List.Nodup.map_on (fun i hi j hj heq => ?_) List.nodup_range
    rw [List.mem_range] at hi hj
    rcases Nat.lt_trichotomy i j with hij | hij | hij
    · exact absurd heq (hne i j hij hj)
    · exact hij
    · exact absurd heq.symm (hne j i hij hi)
  have hsub : ((List.range k).map fun j => climb parent j a) ⊆ l.map some := by
    intro o ho
    obtain ⟨j, hj, rfl⟩ := List.mem_map.mp ho
    obtain ⟨c, hc, heq⟩ := hmem j (List.mem_range.mp hj)
    exact List.mem_map.mpr ⟨c, hc, heq.symm⟩
  simpa using (hnodup.subperm hsub).length_le

theorem Rooted.climb_le (h : Rooted parent a) {l : List α} (hl : ∀ b, (parent b).isSome = true → b ∈ l) {k : ℕ}
    (hk : Theory.climb parent k a = some b) : k ≤ l.length :=
  Theory.climb_le (fun i _ hc => (h.climb i hc).climb_ne_self) hl hk

/-- Nothing is above itself. -/
def Acyclic (parent : α → Option α) : Prop := ∀ a k, climb parent (k + 1) a ≠ some a

/-- **Where finitely many things have a parent, and nothing is above itself, the way up from everything ends.** -/
theorem Acyclic.forest (h : Acyclic parent) {l : List α} (hl : ∀ b, (parent b).isSome = true → b ∈ l) :
    Forest parent := by
  intro a
  -- the first step of the way that leads nowhere
  have hend : climb parent (l.length + 1) a = none := by
    cases hclimb : climb parent (l.length + 1) a with
    | none => rfl
    | some b => exact absurd (climb_le (fun _ c _ => h c) hl hclimb) (Nat.not_succ_le_self _)
  obtain ⟨k, hk⟩ : ∃ k, climb parent k a = none := ⟨_, hend⟩
  induction k with
  | zero => cases hk
  | succ k ih =>
    cases hclimb : climb parent k a with
    | none => exact ih hclimb
    | some b =>
      rw [climb_succ, hclimb, Option.bind_some] at hk
      exact rooted_of_climb hclimb hk

/-- Two things with one parent, or none, are above nothing in common. -/
theorem Rooted.eq_of_climb {i j : ℕ} {d : α} (h : Rooted parent d) (ha : Theory.climb parent i d = some a)
    (hb : Theory.climb parent j d = some b) (hparent : parent a = parent b) : a = b := by
  -- the lower one cannot be below the other
  have hlower : ∀ {i j : ℕ} {a b : α}, Theory.climb parent i d = some a → Theory.climb parent j d = some b →
      parent a = parent b → i ≤ j → a = b := by
    intro i j a b ha hb hparent hij
    obtain ⟨k, rfl⟩ := Nat.exists_eq_add_of_le hij
    rw [climb_add, ha, Option.bind_some] at hb
    cases k with
    | zero => exact Option.some.inj hb
    | succ k =>
      exfalso
      obtain ⟨c, hc, hb⟩ := Option.bind_eq_some_iff.mp hb
      have hrooted : Rooted parent c := (h.climb i ha).climb 1 (climb_one.trans hc)
      refine hrooted.climb_ne_self k ?_
      rw [climb_succ, hb, Option.bind_some, ← hparent, hc]
  rcases Nat.le_total i j with hij | hij
  · exact hlower ha hb hparent hij
  · exact (hlower hb ha hparent.symm hij).symm

/-! ### Another parent -/

variable [DecidableEq α]

theorem rooted_update {p : Option α} (hp : ∀ b, p = some b → ∀ k, climb parent k b ≠ some a)
    (h : Forest parent) (c : α) : Rooted (Function.update parent a p) c := by
  -- What is not below it has the way up that it had.
  have hother : ∀ c, Rooted parent c → (∀ k, climb parent k c ≠ some a) → Rooted (Function.update parent a p) c := by
    intro c hc
    induction hc with
    | @root c hroot =>
      intro hnot
      have hne : c ≠ a := fun heq => hnot 0 (by rw [heq]; rfl)
      exact .root ((Function.update_of_ne hne _ _).trans hroot)
    | @child c d hchild _ ih =>
      intro hnot
      have hne : c ≠ a := fun heq => hnot 0 (by rw [heq]; rfl)
      refine .child ((Function.update_of_ne hne _ _).trans hchild) (ih fun k hk => hnot (k + 1) ?_)
      exact (climb_succ_of hchild k).trans hk
  have hself : Rooted (Function.update parent a p) a := by
    cases hparent : p with
    | none => exact .root (Function.update_self _ _ _)
    | some b => exact .child (Function.update_self _ _ _) (hparent ▸ hother b (h b) (hp b hparent))
  induction h c with
  | @root c hroot =>
    by_cases hne : c = a
    · exact hne ▸ hself
    · exact .root ((Function.update_of_ne hne _ _).trans hroot)
  | @child c d hchild _ ih =>
    by_cases hne : c = a
    · exact hne ▸ hself
    · exact .child ((Function.update_of_ne hne _ _).trans hchild) ih

/-- The way to the thing itself does not depend on its parent. -/
theorem climb_update {k : ℕ} (h : climb parent k c = some a) (p : Option α) :
    ∃ j, climb (Function.update parent a p) j c = some a := by
  induction k generalizing c with
  | zero =>
    cases h
    exact ⟨0, rfl⟩
  | succ k ih =>
    by_cases hne : c = a
    · exact ⟨0, congrArg some hne⟩
    · obtain ⟨d, hd, h⟩ := Option.bind_eq_some_iff.mp h
      obtain ⟨j, hj⟩ := ih h
      exact ⟨j + 1, (climb_succ_of ((Function.update_of_ne hne _ _).trans hd) j).trans hj⟩

/-- **Another parent** leaves a forest exactly if the thing is not on the way up from it. -/
theorem forest_update_iff (h : Forest parent) (a b : α) :
    Forest (Function.update parent a (some b)) ↔ ∀ k, climb parent k b ≠ some a := by
  constructor
  · intro hforest k hk
    obtain ⟨j, hj⟩ := climb_update hk (some b)
    refine (hforest a).climb_ne_self j ?_
    rw [climb_succ_of (Function.update_self _ _ _), hj]
  · refine fun hnot => rooted_update ?_ h
    rintro _ ⟨⟩
    exact hnot

/-- What is put at the root is never on a way up of its own. -/
theorem forest_update_none (h : Forest parent) (a : α) : Forest (Function.update parent a none) :=
  rooted_update nofun h

end Forest

end AuditSphere.Theory
