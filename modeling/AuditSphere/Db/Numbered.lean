import AuditSphere.Common.References
import AuditSphere.Db.Requests

/-!
# Numbered records

Records are given references by a loop that reads the latest reference and inserts the record
with the next one, up to five times while a unique constraint is violated (`Numbered`). Served
alone, every attempt finds the same latest reference, so the loop does what a single
attempt does, and a method that checks first and then numbers a record either fails and changes
nothing or inserts it (`Allocates`).

The references of some rows of a table are `references`. An insertion issues one, and what
keeps the rows and their references keeps them all.
-/

namespace AuditSphere

open Prisma Theory

/-! ### The loop -/

/-- A loop that inserts a record numbered after the latest one, with so many attempts left. -/
structure Numbered {α : Type} (latest : Db → Option String) (insert : ℕ → Option String → Service α)
    (loop : ℕ → Service α) : Prop where
  exhausted : ∃ e, loop 0 = throw e
  attempt : ∀ left, loop (left + 1) = (do
    let l ← .read latest
    (insert (4 - left) l).catching fun err =>
      if err = .prisma .p2002 ∧ 4 - left < 4 then loop left else throw err)
  atomic : ∀ attempt l, (insert attempt l).Atomic

namespace Numbered

variable {α : Type} {latest : Db → Option String} {insert : ℕ → Option String → Service α} {loop : ℕ → Service α}
  (h : Numbered latest insert loop)

include h

/-- An attempt: the insertion, and after a violated constraint the next attempt. -/
theorem run_attempt (left : ℕ) (s : Db) : (loop (left + 1)).run s = match (insert (4 - left) (latest s)).run s with
    | (.ok a, s') => (.ok a, s')
    | (.error e, s') => if e = .prisma .p2002 ∧ 4 - left < 4 then (loop left).run s' else (.error e, s') := by
  rw [h.attempt, Prog.run_bind, Prog.run_read]
  dsimp only
  rw [Prog.run_catching]
  rcases (insert (4 - left) (latest s)).run s with ⟨e | a, s'⟩
  · dsimp only
    rw [Prog.run_ite, Prog.run_throw]
  · rfl

/-- If the loop succeeds, one of the insertions does, with the latest reference that there is. -/
theorem run_ok {left : ℕ} {s s' : Db} {a : α} (hrun : (loop left).run s = (.ok a, s')) :
    ∃ attempt, (insert attempt (latest s)).run s = (.ok a, s') := by
  induction left with
  | zero =>
    obtain ⟨e, he⟩ := h.exhausted
    rw [he] at hrun
    cases hrun
  | succ left ih =>
    rw [h.run_attempt] at hrun
    rcases hinsert : (insert (4 - left) (latest s)).run s with ⟨e | a', s₁⟩
    · -- a failed attempt changes nothing
      have := h.atomic _ _ _ _ _ hinsert
      subst this
      rw [hinsert] at hrun
      dsimp only at hrun
      split at hrun
      · exact ih hrun
      · cases hrun
    · rw [hinsert] at hrun
      cases hrun
      exact ⟨_, hinsert⟩

/-- A loop that fails changes nothing. -/
theorem atomic_loop (left : ℕ) : (loop left).Atomic := by
  induction left with
  | zero =>
    obtain ⟨e, he⟩ := h.exhausted
    rw [he]
    exact (Prog.readOnly_throw e).atomic
  | succ left ih =>
    intro s e s' hrun
    rw [h.run_attempt] at hrun
    rcases hinsert : (insert (4 - left) (latest s)).run s with ⟨e' | a, s₁⟩
    · have := h.atomic _ _ _ _ _ hinsert
      subst this
      rw [hinsert] at hrun
      dsimp only at hrun
      split at hrun
      · exact ih _ _ _ hrun
      · cases hrun
        rfl
    · rw [hinsert] at hrun
      cases hrun

/-- If the first insertion succeeds, the loop does. -/
theorem run_first {s s' : Db} {a : α} (hinsert : (insert 0 (latest s)).run s = (.ok a, s')) :
    (loop 5).run s = (.ok a, s') := by
  rw [h.run_attempt, Nat.sub_self, hinsert]

end Numbered

/-! ### Methods that number a record -/

section Allocates

variable {α β γ : Type} {latest : Db → Option String} {insert : ℕ → Option String → Service α} {F : Db → Db → Prop}

/-- Served alone, the method fails and changes nothing, or inserts a record numbered after the
latest one and then changes the database only as `F` says. -/
def Allocates (latest : Db → Option String) (insert : ℕ → Option String → Service α) (F : Db → Db → Prop)
    (p : Service β) : Prop :=
  ∀ s, (¬p.Succeeds s ∧ (p.run s).2 = s) ∨
    (p.Succeeds s ∧ ∃ attempt a s₂, (insert attempt (latest s)).run s = (.ok a, s₂) ∧ F s₂ (p.run s).2)

theorem allocates_throw (e : HttpError) : Allocates latest insert F (throw e : Service β) :=
  fun _ => .inl ⟨by rintro ⟨_, _, ⟨⟩⟩, rfl⟩

theorem Allocates.ite {c : Prop} [Decidable c] {p q : Service β} (hp : Allocates latest insert F p)
    (hq : Allocates latest insert F q) : Allocates latest insert F (if c then p else q) := by
  split
  · exact hp
  · exact hq

/-- A method that checks first. -/
theorem allocates_bind {q : Service γ} {k : γ → Service β} (hq : q.ReadOnly) (hk : ∀ c, Allocates latest insert F (k c)) :
    Allocates latest insert F (q >>= k) := by
  intro s
  have hs := hq s
  unfold Prog.Succeeds
  rw [Prog.run_bind]
  rcases hrun : q.run s with ⟨e | c, s₁⟩
  · rw [hrun] at hs
    exact .inl ⟨by rintro ⟨_, _, ⟨⟩⟩, hs⟩
  · rw [hrun] at hs
    subst hs
    exact hk c s₁

/-- What is done with the result makes no difference. -/
theorem Allocates.map {p : Service β} (h : Allocates latest insert F p) (f : β → γ) :
    Allocates latest insert F (p >>= fun b => (pure (f b) : Service γ)) := by
  intro s
  have hs := h s
  unfold Prog.Succeeds at hs ⊢
  rw [run_return]
  rcases hrun : p.run s with ⟨e | b, s'⟩ <;> rw [hrun] at hs
  · rcases hs with ⟨-, hs⟩ | ⟨⟨_, _, ⟨⟩⟩, -⟩
    exact .inl ⟨by rintro ⟨_, _, ⟨⟩⟩, hs⟩
  · rcases hs with ⟨hfail, -⟩ | ⟨-, heffect⟩
    · exact absurd ⟨b, s', rfl⟩ hfail
    · exact .inr ⟨⟨f b, s', rfl⟩, heffect⟩

/-- The loop, with what follows it. -/
theorem Numbered.allocates {loop : ℕ → Service α} (h : Numbered latest insert loop) {k : α → Service β}
    (hk : ∀ s attempt l a s₂, (insert attempt l).run s = (.ok a, s₂) → (k a).Succeeds s₂ ∧ F s₂ ((k a).run s₂).2) :
    Allocates latest insert F (loop 5 >>= k) := by
  intro s
  unfold Prog.Succeeds
  rw [Prog.run_bind]
  rcases hrun : (loop 5).run s with ⟨e | a, s₂⟩
  · exact .inl ⟨by rintro ⟨_, _, ⟨⟩⟩, h.atomic_loop 5 s e s₂ hrun⟩
  · obtain ⟨attempt, hinsert⟩ := h.run_ok hrun
    obtain ⟨hsucceeds, hF⟩ := hk s attempt _ a s₂ hinsert
    exact .inr ⟨hsucceeds, attempt, a, s₂, hinsert, hF⟩

end Allocates

/-! ### References of rows -/

section References

variable {ρ : Type} {t t' : Table Uuid ρ} {p : ρ → Bool} {ref : ρ → String} {id : Uuid} {r : ρ}

/-- The references of the rows of which `p` holds. -/
def references (t : Table Uuid ρ) (p : ρ → Bool) (ref : ρ → String) (j : Uuid) : Option String :=
  ((t.find j).filter p).map ref

theorem references_eq_some {j : Uuid} {x : String} :
    references t p ref j = some x ↔ ∃ r, t.find j = some r ∧ p r = true ∧ ref r = x := by
  unfold references
  rw [Option.map_eq_some_iff]
  constructor
  · rintro ⟨r, hr, rfl⟩
    obtain ⟨hfind, hp⟩ := Option.filter_eq_some_iff.mp hr
    exact ⟨r, hfind, hp, rfl⟩
  · rintro ⟨r, hfind, hp, rfl⟩
    exact ⟨r, Option.filter_eq_some_iff.mpr ⟨hfind, hp⟩, rfl⟩

theorem mem_present_references {x : String} :
    x ∈ present (references t p ref) ↔ ∃ j r, t.find j = some r ∧ p r = true ∧ ref r = x :=
  exists_congr fun _ => references_eq_some

section Insert

variable (hfresh : t.find id = none) (hrows : ∀ j, t'.find j = if j = id then some r else t.find j)

include hfresh hrows

/-- A new row issues its reference. -/
theorem references_insert (hp : p r = true) : Issued (references t p ref) id (ref r) (references t' p ref) := by
  refine ⟨by rw [references, hfresh]; rfl, funext fun j => ?_⟩
  unfold references
  rw [hrows]
  split
  · rw [Option.filter_some, if_pos hp, Option.map_some]
  · rfl

/-- A new row that is not one of them does not matter. -/
theorem references_insert_other (hp : p r = false) : references t' p ref = references t p ref := by
  funext j
  unfold references
  rw [hrows]
  split
  · rename_i hj
    rw [hj, hfresh, Option.filter_some, if_neg (by simp [hp])]
    rfl
  · rfl

end Insert

/-- Rows that stay what they are, with their references. -/
theorem references_congr (h : ∀ j, Option.Rel (fun r r' => p r' = p r ∧ ref r' = ref r) (t.find j) (t'.find j)) :
    references t' p ref = references t p ref := by
  funext j
  unfold references
  have hj := h j
  generalize t.find j = row at hj
  generalize t'.find j = row' at hj
  cases hj with
  | none => rfl
  | @some r r' hr =>
    rw [Option.filter_some, Option.filter_some, hr.1]
    split
    · rw [Option.map_some, Option.map_some, hr.2]
    · rfl

/-- A change of one row that keeps its reference. -/
theorem references_update {r' : ρ} (hrow : t.find id = some r)
    (hrows : ∀ j, t'.find j = if j = id then some r' else t.find j) (hp : p r' = p r) (href : ref r' = ref r) :
    references t' p ref = references t p ref := by
  refine references_congr fun j => ?_
  rw [hrows]
  split
  · rename_i hj
    rw [hj, hrow]
    exact .some ⟨hp, href⟩
  · cases t.find j with
    | none => exact .none
    | some r => exact .some ⟨rfl, rfl⟩

/-- A reference is free where no other row has it. -/
theorem unique_iff {x : String} {q : ρ → Bool} (hfresh : t.find id = none) (hq : ∀ r, ref r = x → q r = p r) :
    (t.first fun j r => j ≠ id && q r && ref r = x).isSome = false ↔ x ∉ present (references t p ref) := by
  rw [Option.isSome_eq_false_iff, Option.isNone_iff_eq_none, Table.first_eq_none_iff, mem_present_references]
  constructor
  · rintro h ⟨j, r, hfind, hp, hx⟩
    have hj : j ≠ id := by
      rintro rfl
      rw [hfresh] at hfind
      cases hfind
    have := h j r hfind
    simp [hj, hq r hx, hp, hx] at this
  · intro h j r hfind
    by_contra hne
    simp only [Bool.not_eq_false, Bool.and_eq_true, decide_eq_true_eq] at hne
    obtain ⟨⟨-, hqr⟩, hx⟩ := hne
    exact h ⟨j, r, hfind, by rw [← hq r hx, hqr], hx⟩

/-- The search for the greatest reference finds the highest one. -/
theorem highest_greatest {q : Uuid → ρ → Bool} (hq : ∀ j r, t.find j = some r → q j r = p r) :
    Highest (present (references t p ref)) (greatest ((t.rows q).map fun r => ref r.2)) := by
  have hset : present (references t p ref) = {x | x ∈ (t.rows q).map fun r => ref r.2} := by
    ext x
    rw [mem_present_references, Set.mem_ofPred_eq, List.mem_map]
    constructor
    · rintro ⟨j, r, hfind, hp, rfl⟩
      exact ⟨(j, r), (t.mem_rows_iff q j r).mpr ⟨hfind, by rw [hq j r hfind, hp]⟩, rfl⟩
    · rintro ⟨⟨j, r⟩, hrow, rfl⟩
      obtain ⟨hfind, hcond⟩ := (t.mem_rows_iff q j r).mp hrow
      exact ⟨j, r, hfind, by rw [← hq j r hfind, hcond], rfl⟩
  rw [hset]
  exact greatest_highest _

/-- The rows of the first references are those whose references start like them. -/
theorem startsWith_of_filled {limit : ℕ} {N : Numbering String limit} {stem : String}
    (hstem : ∀ k, (N.ref k).startsWith stem = true) {n : ℕ} (hfilled : present (references t p ref) = N.filled n)
    {j : Uuid} (hfind : t.find j = some r) (hp : p r = true) : (ref r).startsWith stem = true := by
  have hmem : ref r ∈ N.filled n := by
    rw [← hfilled]
    exact mem_present_references.mpr ⟨j, r, hfind, hp, rfl⟩
  obtain ⟨k, -, -, hk⟩ := hmem
  rw [hk]
  exact hstem k

/-- A query for the references of a tenant that start alike finds them all. -/
theorem findMany_stem [TenantRow ρ] {ctx : Ctx} {stem : String}
    (h : ∀ j r, t.find j = some r → p r = true → ctx.sees r = true ∧ (ref r).startsWith stem = true) :
    ctx.findMany t (fun _ r => p r && (ref r).startsWith stem) = t.rows fun _ r => p r := by
  refine Table.rows_congr fun j r hfind => ?_
  by_cases hp : p r = true
  · obtain ⟨hsees, hstart⟩ := h j r hfind hp
    simp [hp, hsees, hstart]
  · simp [hp]

/-- The rows of which `p` holds are of the tenant of an engagement. -/
def OfEngagement [TenantRow ρ] (s : Db) (t : Table Uuid ρ) (p : ρ → Bool) (engagementId : Uuid) : Prop :=
  ∀ j r, t.find j = some r → p r = true →
    ∃ e, s.engagements.find engagementId = some e ∧ TenantRow.tenantOf r = some e.tenantId

/-- Who finds the engagement sees them. -/
theorem OfEngagement.sees [TenantRow ρ] {s : Db} {ctx : Ctx} {engagementId : Uuid} (h : OfEngagement s t p engagementId)
    (hread : ∃ e, ctx.findById s.engagements engagementId (·.deletedAt.isNone) = some e) {j : Uuid}
    (hfind : t.find j = some r) (hp : p r = true) : ctx.sees r = true := by
  obtain ⟨e, he⟩ := hread
  obtain ⟨hengagement, hsees, -⟩ := Ctx.findById_eq_some.mp he
  obtain ⟨e', he', htenant⟩ := h j r hfind hp
  rw [hengagement, Option.some.injEq] at he'
  subst he'
  exact (Ctx.sees_iff_tenant htenant).mpr ((Ctx.sees_iff_tenant rfl).mp hsees)

end References

end AuditSphere
