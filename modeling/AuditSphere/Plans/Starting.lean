import AuditSphere.Plans.Approval
import AuditSphere.Theory.Seen

/-!
# Requests that start an item at the same time

A request that starts an item reads it, refuses if it has an engagement, and makes one some
calls later; the link of the item is then set, whatever it was. There is one engagement, and
the item refers to it from then on, exactly if no request makes an engagement at a moment at
which the item already refers to one (`one_engagement_iff`).
-/

namespace AuditSphere.Plans

open Prisma Theory Shared

/-- The engagement to which an item refers. -/
def link (itemId : Uuid) (s : Db) : Option Uuid := (s.planItems.find itemId).bind AuditPlanItem.engagementId

/-- A request that starts an item of a plan, with its user. -/
def start (itemId : Uuid) (r : Ctx × Uuid) : Service Response := serve (.createEngagement r.1 r.2 itemId)

/-- Every engagement that there was not at first is the one to which the item refers, and what
it referred to at first it still refers to. -/
structure One (itemId : Uuid) (s₀ s : Db) : Prop where
  created : ∀ id, s₀.engagements.find id = none → s.engagements.find id ≠ none → link itemId s = some id
  kept : ∀ id, link itemId s₀ = some id → link itemId s = some id

section Run

variable (itemId : Uuid) (s₀ : Db)

/-- The turn of a request in which it makes an engagement. -/
def Creates (past : List (Event (Ctx × Uuid))) : Event (Ctx × Uuid) → Prop
  | .start _ => False
  | .turn i => (interleave (start itemId) s₀ (.turn i :: past)).st.engagements.entries ≠
      (interleave (start itemId) s₀ past).st.engagements.entries

/-- A request makes an engagement only if the item then refers to none. -/
def Unlinked (past : List (Event (Ctx × Uuid))) (e : Event (Ctx × Uuid)) : Prop :=
  Creates itemId s₀ past e → link itemId (interleave (start itemId) s₀ past).st = none

instance (past : List (Event (Ctx × Uuid))) (e : Event (Ctx × Uuid)) : Decidable (Unlinked itemId s₀ past e) :=
  match e with
  | .start _ => .isTrue fun h => h.elim
  | .turn _ => inferInstanceAs (Decidable (_ ≠ _ → _ = none))

end Run

/-! ### What a turn does -/

/-- Nothing that matters, or an engagement, to which the item refers from then on. -/
inductive Turned (itemId : Uuid) (s s' : Db) : Prop where
  | same (engagements : s'.engagements = s.engagements) (link : link itemId s' = link itemId s)
  | engaged {id e} (fresh : s.engagements.find id = none)
    (engagements : ∀ j, s'.engagements.find j = if j = id then some e else s.engagements.find j)
    (link : link itemId s' = some id)

theorem Turned.of_starting {ctx : Ctx} {itemId : Uuid} {s s' : Db} (h : Starting ctx itemId s s') : Turned itemId s s' := by
  cases h with
  | quiet hq =>
    obtain ⟨auditTrail, notifications, rfl⟩ := hq.eq
    exact .same rfl rfl
  | engaged hengaged =>
    obtain ⟨i, hi⟩ := hengaged.row
    refine .engaged hengaged.fresh hengaged.engagements ?_
    simp [link, hengaged.rows, hi]
  | started hstarted =>
    refine .same (by rw [hstarted.rest]) ?_
    simp [link, hstarted.rows, hstarted.row]

section Run

variable {itemId : Uuid} {s₀ : Db}

theorem start_meets (r : Ctx × Uuid) (s : Db) :
    (start itemId r).Meets (fun _ _ => True) (Turned itemId) (fun _ _ => True) s := by
  refine (serve_meets (.of_anything Quiet) (.createEngagement r.1 r.2 itemId) s).mono_step fun a b h => ?_
  cases h with
  | quiet hq => exact .of_starting (.quiet hq : Starting r.1 itemId a b)
  | start _ _ _ h => exact .of_starting h

/-- Each event leaves the state as it is, or does what a turn does. -/
theorem interleave_cons (e : Event (Ctx × Uuid)) (past : List (Event (Ctx × Uuid))) :
    Turned itemId (interleave (start itemId) s₀ past).st (interleave (start itemId) s₀ (e :: past)).st := by
  cases e with
  | start r => exact .same rfl rfl
  | turn i =>
    rcases along_turn s₀ (fun r => (start_meets r s₀).along []) past i with heq | ⟨th, -, h⟩
    · rw [interleave, heq]
      exact .same rfl rfl
    · exact h

/-! ### One engagement -/

/-- What holds whether requests overlap or not: no engagement goes, the item refers to one that
is there, and to the one of the beginning or to a new one. -/
structure Sound (itemId : Uuid) (s₀ s : Db) : Prop where
  grown : ∀ id, s₀.engagements.find id ≠ none → s.engagements.find id ≠ none
  there : ∀ id, link itemId s = some id → s.engagements.find id ≠ none
  origin : ∀ id, link itemId s = some id → link itemId s₀ = some id ∨ s₀.engagements.find id = none

theorem Sound.turned {s s' : Db} (h : Sound itemId s₀ s) (hturn : Turned itemId s s') : Sound itemId s₀ s' := by
  cases hturn with
  | same hengagements hlink =>
    refine ⟨fun id hid => ?_, fun id hid => ?_, fun id hid => h.origin id (hlink ▸ hid)⟩
    · rw [hengagements]
      exact h.grown id hid
    · rw [hengagements]
      exact h.there id (hlink ▸ hid)
  | engaged hfresh hengagements hlink =>
    rename_i new e
    refine ⟨fun id hid => ?_, fun id hid => ?_, fun id hid => .inr ?_⟩
    · rw [hengagements]
      split
      · simp
      · exact h.grown id hid
    · rw [hlink, Option.some.injEq] at hid
      simp [hengagements, hid]
    · rw [hlink, Option.some.injEq] at hid
      subst hid
      by_contra hold
      exact h.grown new hold hfresh

/-- A turn leaves one engagement exactly if it makes none where there is one. -/
theorem One.turned_iff {s s' : Db} (hsound : Sound itemId s₀ s) (h : One itemId s₀ s) (hturn : Turned itemId s s') :
    One itemId s₀ s' ↔ (s'.engagements.entries ≠ s.engagements.entries → link itemId s = none) := by
  cases hturn with
  | same hengagements hlink =>
    refine iff_of_true ⟨fun id hnone hid => ?_, fun id hid => ?_⟩ fun hne => absurd (by rw [hengagements]) hne
    · rw [hengagements] at hid
      rw [hlink]
      exact h.created id hnone hid
    · rw [hlink]
      exact h.kept id hid
  | engaged hfresh hengagements hlink =>
    rename_i new e
    have hne : s'.engagements.entries ≠ s.engagements.entries := by
      intro heq
      have hnew := hengagements new
      rw [Table.ext heq, hfresh, if_pos rfl] at hnew
      cases hnew
    constructor
    · intro hone _
      by_contra hlinked
      obtain ⟨old, hold⟩ := Option.ne_none_iff_exists'.mp hlinked
      have hthere := hsound.there old hold
      have hsame : link itemId s' = some old := by
        rcases hsound.origin old hold with hfirst | hnone
        · exact hone.kept old hfirst
        · refine hone.created old hnone ?_
          rw [hengagements]
          split
          · simp
          · exact hthere
      rw [hlink, Option.some.injEq] at hsame
      exact hthere (hsame ▸ hfresh)
    · intro hunlinked
      have hnone := hunlinked hne
      refine ⟨fun id hid hthere => ?_, fun id hid => ?_⟩
      · by_cases hnew : id = new
        · rw [hlink, hnew]
        · rw [hengagements, if_neg hnew] at hthere
          have hlinked := h.created id hid hthere
          rw [hnone] at hlinked
          cases hlinked
      · have hlinked := h.kept id hid
        rw [hnone] at hlinked
        cases hlinked

variable (h₀ : ∀ id, link itemId s₀ = some id → s₀.engagements.find id ≠ none)

include h₀

theorem sound_of_interleave (evs : List (Event (Ctx × Uuid))) : Sound itemId s₀ (interleave (start itemId) s₀ evs).st := by
  induction evs with
  | nil => exact ⟨fun _ => id, h₀, fun _ => .inl⟩
  | cons e past ih => exact ih.turned (interleave_cons e past)

/-- **One engagement per plan item**: whatever requests for the item interleave and however, at
every moment the engagements they have made are at most one, to which the item refers, exactly
if no request makes one at a moment at which the item already refers to one. -/
theorem one_engagement_iff (evs : List (Event (Ctx × Uuid))) :
    (∀ later past, evs = later ++ past → One itemId s₀ (interleave (start itemId) s₀ past).st) ↔
      Every (Unlinked itemId s₀) evs := by
  induction evs with
  | nil =>
    refine iff_of_true ?_ trivial
    intro later past h
    obtain ⟨-, rfl⟩ := List.append_eq_nil_iff.mp h.symm
    refine ⟨fun id hnone hid => absurd hnone hid, fun _ => id⟩
  | cons e past ih =>
    have hsplit : (∀ later past', e :: past = later ++ past' → One itemId s₀ (interleave (start itemId) s₀ past').st) ↔
        One itemId s₀ (interleave (start itemId) s₀ (e :: past)).st ∧
          ∀ later past', past = later ++ past' → One itemId s₀ (interleave (start itemId) s₀ past').st := by
      constructor
      · exact fun h => ⟨h [] _ rfl, fun later past' heq => h (e :: later) past' (by rw [heq]; rfl)⟩
      · rintro ⟨hnow, hpast⟩ later past' heq
        cases later with
        | nil =>
          rw [List.nil_append] at heq
          rwa [← heq]
        | cons e' later => exact hpast later past' (List.cons.inj heq).2
    rw [hsplit, ih]
    refine and_congr_left fun hevery => ?_
    have hone := ih.mpr hevery [] past rfl
    rw [One.turned_iff (sound_of_interleave h₀ past) hone (interleave_cons e past)]
    cases e with
    | start r => exact iff_of_true (fun h => absurd rfl h) fun h => h.elim
    | turn i => exact Iff.rfl

end Run

/-- A planner who starts an item of plan 500, and the plan. -/
def caller (k : Uuid) : Ctx × Uuid := (planner 1 k, 500)

/-- Plan 500 has been submitted and approved. -/
def accepted : Db := history serve Workpapers.office (approved ++ submitted)

/-- A request starts item 510, and ends. -/
def startedOnce : List (Event (Ctx × Uuid)) := List.replicate 7 (.turn 0) ++ [.start (caller 600)]

/-- The engagement that it makes is the only one. -/
theorem one_engagement_iff_once : One 510 accepted (interleave (start 510) accepted startedOnce).st := by
  refine (one_engagement_iff ?_ startedOnce).mpr ?_ [] startedOnce rfl
  · intro id h
    have hnone : link 510 accepted = none := by decide +kernel
    rw [hnone] at h
    cases h
  · decide +kernel

/-- Two requests start item 510: both have read it before either makes its engagement. -/
def startedTwice : List (Event (Ctx × Uuid)) :=
  [.turn 1, .turn 1, .turn 0, .turn 0, .turn 1, .turn 0, .start (caller 700), .start (caller 600)]

/-- Both make one, and the item refers to the second. -/
theorem two_engagements : accepted.engagements.find 600 = none ∧
    (interleave (start 510) accepted startedTwice).st.engagements.find 600 ≠ none ∧
    accepted.engagements.find 700 = none ∧
    (interleave (start 510) accepted startedTwice).st.engagements.find 700 ≠ none ∧
    link 510 (interleave (start 510) accepted startedTwice).st = some 700 := by
  decide +kernel

end AuditSphere.Plans
