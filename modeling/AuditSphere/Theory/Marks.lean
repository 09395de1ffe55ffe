import AuditSphere.Theory.Program
import Mathlib.Order.Lattice

/-!
# Services that leave a mark

A visitor comes to an item over and over. A visit may serve the item, and then it leaves its
time there; it does not serve an item that bears a time of the same period, of the same day
say (`Marking`). The mark tells when the item was served last and how often
(`Marking.mark_history`), and if the visitor's clock is never set back, an item is served
once a period at most (`Marking.periods_increase`).
-/

namespace AuditSphere.Theory

/-- What an item bears: the time of the last service, and the number of services. -/
structure Mark (τ : Type) where
  last : Option τ
  count : ℕ

section Marking

variable {σ ρ ε α τ δ : Type} (prog : ρ → Prog σ ε α) (mark : σ → Mark τ) (time : ρ → Option τ) (services : σ → ρ → ℕ)

/-- The times of the services of a history, the last one first. -/
def served (s₀ : σ) : List ρ → List τ
  | [] => []
  | e :: past => (time e).elim [] (List.replicate (services (history prog s₀ past) e)) ++ served s₀ past

/-- An event serves the item once, as a visit in a new period, and marks it; or it leaves the mark alone. -/
def Marking (period : τ → δ) : Prop := ∀ s e,
  (services s e = 0 ∧ mark (after prog s e) = mark s) ∨
    ∃ t, time e = some t ∧ services s e = 1 ∧ (∀ last ∈ (mark s).last, period last ≠ period t) ∧
      mark (after prog s e) = ⟨some t, (mark s).count + 1⟩

variable {prog mark time services} {period : τ → δ}

theorem served_of_none {s₀ : σ} {past : List ρ} {e : ρ} (h : services (history prog s₀ past) e = 0) :
    served prog time services s₀ (e :: past) = served prog time services s₀ past := by
  rw [served, h]
  cases time e <;> rfl

theorem served_of_one {s₀ : σ} {past : List ρ} {e : ρ} {t : τ} (ht : time e = some t)
    (h : services (history prog s₀ past) e = 1) :
    served prog time services s₀ (e :: past) = t :: served prog time services s₀ past := by
  rw [served, h, ht]
  rfl

/-- An item is served when the visitor comes. -/
theorem served_subset (s₀ : σ) (evs : List ρ) : served prog time services s₀ evs ⊆ evs.filterMap time := by
  induction evs with
  | nil => exact List.Subset.refl _
  | cons e past ih =>
    intro t ht
    rcases List.mem_append.mp ht with ht | ht
    · cases htime : time e with
      | none => simp [htime] at ht
      | some t' =>
        rw [htime, Option.elim_some] at ht
        rw [List.filterMap_cons_some htime, List.eq_of_mem_replicate ht]
        exact List.mem_cons_self
    · rw [List.filterMap_cons]
      cases time e with
      | none => exact ih ht
      | some t' => exact List.mem_cons_of_mem _ (ih ht)

/-- **What the mark tells**: the last service, and the number of services. -/
theorem Marking.mark_history (h : Marking prog mark time services period) (s₀ : σ) (evs : List ρ) :
    mark (history prog s₀ evs) = ⟨(served prog time services s₀ evs).head?.or (mark s₀).last,
      (mark s₀).count + (served prog time services s₀ evs).length⟩ := by
  induction evs with
  | nil => rfl
  | cons e past ih =>
    rw [history]
    rcases h (history prog s₀ past) e with ⟨hnone, hmark⟩ | ⟨t, ht, hone, -, hmark⟩
    · rw [hmark, ih, served_of_none hnone]
    · rw [hmark, ih, served_of_one ht hone]
      rfl

/-- **Once a period**: the periods of the services increase. -/
theorem Marking.periods_increase [Preorder τ] [PartialOrder δ] (h : Marking prog mark time services period)
    (hperiod : Monotone period) (s₀ : σ) {evs : List ρ} (hclock : (evs.filterMap time).Pairwise (· ≥ ·)) :
    ((served prog time services s₀ evs).map period).Pairwise (· > ·) := by
  induction evs with
  | nil => exact .nil
  | cons e past ih =>
    rcases h (history prog s₀ past) e with ⟨hnone, -⟩ | ⟨t, ht, hone, hnew, -⟩
    · rw [served_of_none hnone]
      refine ih ?_
      rw [List.filterMap_cons] at hclock
      cases htime : time e with
      | none => rwa [htime] at hclock
      | some t =>
        rw [htime] at hclock
        exact (List.pairwise_cons.mp hclock).2
    · rw [List.filterMap_cons_some ht] at hclock
      obtain ⟨hlater, hclock⟩ := List.pairwise_cons.mp hclock
      have ih := ih hclock
      have hsubset : served prog time services s₀ past ⊆ past.filterMap time := served_subset s₀ past
      rw [h.mark_history] at hnew
      rw [served_of_one ht hone, List.map_cons, List.pairwise_cons]
      refine ⟨?_, ih⟩
      -- the last service was in an earlier period, and the others were before it
      cases hserved : served prog time services s₀ past with
      | nil => simp
      | cons last rest =>
        rw [hserved] at hsubset hnew ih
        have hlast : period last < period t :=
          lt_of_le_of_ne (hperiod (hlater last (hsubset List.mem_cons_self))) (hnew last rfl)
        rw [List.map_cons] at ih ⊢
        refine List.forall_mem_cons.mpr ⟨hlast, fun d hd => ?_⟩
        exact ((List.pairwise_cons.mp ih).1 d hd).trans hlast

end Marking

end AuditSphere.Theory
