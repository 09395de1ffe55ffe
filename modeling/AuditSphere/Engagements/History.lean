import AuditSphere.Engagements.Requests
import AuditSphere.Workpapers.History

/-!
# Engagements over a history of requests

Requests served one after another. `serve_effect` says what one of them makes of the
database: nothing but what is aside if it fails, its commit if it succeeds. `serve_row` is
the same for the row of a single engagement, in the form in which invariants are proved:
up to its members, the row is kept, created, edited or moved by a transition (`RowStep`).
-/

namespace AuditSphere.Engagements

open Prisma Theory Shared

/-- **One request after another.** One that fails changes only what is aside; one that
succeeds commits on a database that differs only in this. -/
theorem serve_effect (s : Db) (r : Request) :
    (¬Accepted serve s r ∧ Aside s (after serve s r)) ∨ (Accepted serve s r ∧
      ∃ s₁ s₂, Aside s s₁ ∧ Commit Aside s r s₁ s₂ ∧ Aside s₂ (after serve s r)) := by
  have hdone := ((serve_meets Interference.of_aside r s).run Aside.refl).alone
  unfold Accepted after
  rcases hrun : (serve r).run s with ⟨e | a, s'⟩ <;> rw [hrun] at hdone
  · rcases hdone with ⟨-, haside⟩ | ⟨⟨a, ⟨⟩⟩, -⟩
    exact .inl ⟨by rintro ⟨a, s₁, ⟨⟩⟩, haside⟩
  · rcases hdone with ⟨⟨_, ⟨⟩⟩, -⟩ | ⟨-, h⟩
    exact .inr ⟨⟨a, s', rfl⟩, h⟩

/-- The engagement is there, for this user, before a request. -/
def found (ctx : Ctx) (db : Db) (id : Uuid) : Option Engagement :=
  ctx.findById db.engagements id (·.deletedAt.isNone)

theorem found_eq_some {ctx : Ctx} {db : Db} {id : Uuid} {e : Engagement} :
    found ctx db id = some e ↔ db.engagements.find id = some e ∧ e.tenantId = ctx.tenantId ∧ e.deletedAt = none := by
  rw [found, Ctx.findById_eq_some, Ctx.sees_iff_tenant rfl, Option.isNone_iff_eq_none]

/-- The engagement whose row a request writes if it succeeds; a new one is not known before. -/
def Request.engagement : Request → Option Uuid
  | .create .. => none
  | .update _ id _ | .transition _ id _ => some id

/-- What a request makes of the row of engagement `i`, up to its members. -/
inductive RowStep (s : Db) (i : Uuid) : Request → Option Engagement → Prop where
  /-- The request fails, or it is not about this row. -/
  | kept {r row} (h : ¬Accepted serve s r ∨ r.engagement ≠ some i)
      (joined : Option.Rel Joined (s.engagements.find i) row) : RowStep s i r row
  /-- The row is new. -/
  | created {ctx dto e'} (auditNumber : String) (accepted : Accepted serve s (.create ctx dto))
      (fresh : s.engagements.find i = none) (joined : Joined (newEngagement ctx dto auditNumber) e') :
      RowStep s i (.create ctx dto) (some e')
  /-- The row is edited. -/
  | edited {ctx dto e'} (e e₁ : Engagement) (accepted : Accepted serve s (.update ctx i dto))
      (hfound : found ctx s i = some e)
      (status : ∀ status, dto.status = some (some status) → status = .active ∨ status = .onHold)
      (change : dto.apply e = .ok e₁) (joined : Joined e₁ e') :
      RowStep s i (.update ctx i dto) (some e')
  /-- The row is moved by a transition. -/
  | moved {ctx dto e'} (t : Transition EngagementStage) (e : Engagement)
      (accepted : Accepted serve s (.transition ctx i dto)) (hfound : found ctx s i = some e)
      (declared : findTransition engagementWorkflow e.stage dto.action = some t)
      (guards : ∀ guard ∈ t.guards, guardHolds (· = ·) ctx i e guard s)
      (joined : Joined (transitioned ctx t e e) e') :
      RowStep s i (.transition ctx i dto) (some e')

/-! ### What members do not matter to -/

/-- An edit of a row with more members. -/
theorem apply_joined {dto : UpdateEngagementDto} {e e' e₁ : Engagement} (hjoined : Joined e e')
    (h : dto.apply e' = .ok e₁) : ∃ e₂, dto.apply e = .ok e₂ ∧ Joined e₂ e₁ := by
  obtain ⟨hrest, hmembers⟩ := hjoined
  rw [hrest] at h
  unfold UpdateEngagementDto.apply at h ⊢
  dsimp only at h
  split at h
  · cases h
    exact ⟨_, rfl, rfl, hmembers⟩
  · cases h

/-- A transition of a row with more members. -/
theorem transitioned_joined (ctx : Ctx) (t : Transition EngagementStage) {e engagement row : Engagement}
    (hread : Joined e engagement) (hrow : Joined e row) :
    Joined (transitioned ctx t e e) (transitioned ctx t engagement row) := by
  obtain ⟨hread, -⟩ := hread
  obtain ⟨hrow, hmembers⟩ := hrow
  rw [hread, hrow]
  unfold transitioned
  dsimp only
  split
  · split <;> exact ⟨rfl, hmembers⟩
  all_goals exact ⟨rfl, hmembers⟩

/-- A guard that holds while only what is aside changes holds before. -/
theorem guardHolds_alone {ctx : Ctx} {id : Uuid} {e engagement : Engagement} {guard : String} {s sg : Db}
    (hread : Joined e engagement) (h₁ : Aside s sg) (h : guardHolds Aside ctx id engagement guard sg) :
    guardHolds (· = ·) ctx id e guard s := by
  have hworkpapers : ∀ {a b : Db} (p : Workpaper → Bool), Aside a b → workpaperCount ctx b id p = workpaperCount ctx a id p := by
    intro a b p hab
    unfold workpaperCount
    rw [hab.rest]
  have hfindings : findingsOf ctx sg id = findingsOf ctx s id := by
    unfold findingsOf
    rw [h₁.rest]
  have hnotes : uncleared ctx sg id = uncleared ctx s id := by
    unfold uncleared
    rw [h₁.rest]
  have hprograms : sg.programs = s.programs := by rw [h₁.rest]
  unfold guardHolds at h ⊢
  rw [hread.rest, hfindings, hnotes, hprograms] at h
  split at h
  · exact h
  · exact h
  · exact h
  · obtain ⟨⟨s₀, h₀, hsome⟩, hnone⟩ := h
    exact ⟨⟨s, rfl, by rwa [← hworkpapers _ h₁, hworkpapers _ h₀]⟩, by rwa [← hworkpapers _ h₁]⟩
  · obtain ⟨⟨s₀, h₀, hsome⟩, hnone⟩ := h
    exact ⟨⟨s, rfl, by rwa [← hworkpapers _ h₁, hworkpapers _ h₀]⟩, by rwa [← hworkpapers _ h₁]⟩
  · exact h
  · exact h
  · exact h
  · trivial

/-- What was read since differs from the row only in its members. -/
theorem joined_of_read {s s₁ : Db} {ctx : Ctx} {id : Uuid} {read row : Engagement}
    (hread : ∃ s₀, Aside s s₀ ∧ Aside s₀ s₁ ∧ ctx.findById s₀.engagements id (·.deletedAt.isNone) = some read)
    (h₁ : Aside s s₁) (hrow : s₁.engagements.find id = some row) :
    ∃ e, found ctx s id = some e ∧ Joined e read ∧ Joined e row := by
  obtain ⟨s₀, h₀, -, hfound⟩ := hread
  obtain ⟨hfind, hsees, hdeleted⟩ := Ctx.findById_eq_some.mp hfound
  obtain ⟨e, he, hjoined⟩ := h₀.row hfind
  obtain ⟨e', he', hjoined'⟩ := h₁.row hrow
  rw [he, Option.some.injEq] at he'
  subst he'
  refine ⟨e, Ctx.findById_eq_some.mpr ⟨he, ?_, ?_⟩, hjoined, hjoined'⟩
  · rw [hjoined.rest] at hsees
    exact hsees
  · rw [hjoined.rest] at hdeleted
    exact hdeleted

/-- **One request and one engagement.** -/
theorem serve_row (s : Db) (r : Request) (i : Uuid) : RowStep s i r ((after serve s r).engagements.find i) := by
  rcases serve_effect s r with ⟨hfail, haside⟩ | ⟨hacc, s₁, s₂, h₁, hcommit, h₂⟩
  · exact .kept (.inl hfail) (haside.engagements i)
  have hkept : r.engagement ≠ some i → s₂.engagements.find i = s₁.engagements.find i →
      RowStep s i r ((after serve s r).engagements.find i) := by
    intro hne hsame
    have hrel := h₂.engagements i
    rw [hsame] at hrel
    exact .kept (.inr hne) (joined_trans (h₁.engagements i) hrel)
  cases hcommit with
  | @create ctx dto id historyId auditNumber _ _ h =>
    by_cases hi : i = id
    · subst hi
      obtain ⟨e', he', hjoined⟩ := h₂.row_after (e := newEngagement ctx dto auditNumber) (by rw [h.rows, if_pos rfl])
      rw [he']
      refine .created auditNumber hacc ?_ hjoined
      cases hrow : s.engagements.find i with
      | none => rfl
      | some e =>
        obtain ⟨e₁, he₁, -⟩ := h₁.row_after hrow
        rw [h.fresh] at he₁
        cases he₁
    · exact hkept (fun h => by cases h) (by rw [h.rows, if_neg hi])
  | @update ctx id dto before row e' _ _ h =>
    by_cases hi : i = id
    · subst hi
      obtain ⟨e, hfound, -, hjoined⟩ := joined_of_read h.read h₁ h.row
      obtain ⟨e₁, hchange, hjoined₁⟩ := apply_joined hjoined h.change
      obtain ⟨e₂, he₂, hjoined₂⟩ := h₂.row_after (e := e') (by rw [h.rows, if_pos rfl])
      rw [he₂]
      exact .edited e e₁ hacc hfound h.status hchange (hjoined₁.trans hjoined₂)
    · exact hkept (fun h => hi (Option.some.inj h).symm) (by rw [h.rows, if_neg hi])
  | @transition ctx id dto t engagement row _ _ h =>
    by_cases hi : i = id
    · subst hi
      obtain ⟨e, hfound, hread, hjoined⟩ := joined_of_read h.read h₁ h.row
      obtain ⟨e₂, he₂, hjoined₂⟩ := h₂.row_after (e := transitioned ctx t engagement row) (by rw [h.rows, if_pos rfl])
      rw [he₂]
      refine .moved t e hacc hfound ?_ (fun guard hguard => ?_) ((transitioned_joined ctx t hread hjoined).trans hjoined₂)
      · have := h.declared
        rw [hread.rest] at this
        exact this
      · obtain ⟨sg, hsg, -, hholds⟩ := h.guards guard hguard
        exact guardHolds_alone hread hsg hholds
    · exact hkept (fun h => hi (Option.some.inj h).symm) (by rw [h.rows, if_neg hi])

end AuditSphere.Engagements
