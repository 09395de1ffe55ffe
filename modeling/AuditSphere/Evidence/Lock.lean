import AuditSphere.Evidence.Requests
import AuditSphere.Workpapers.Versions

/-!
# The lock of a signed-off workpaper

Requests for workpapers and for evidence interleave. A content update and the
creation of evidence look at the lock of the workpaper in a call of their own,
before the call that writes; the update of an evidence record does not look at it.

So the content and the evidence of a signed-off workpaper stay what they are
(`signedOff_untouched`) as long as two things do not happen (`Orderly`): that a
workpaper is signed off while another request is between its check and its write,
and that a record of a signed-off workpaper is updated.
-/

namespace AuditSphere.Lock

open Prisma Theory Shared Workpapers

/-! ### Requests of both services -/

/-- A request for a workpaper or for evidence. -/
inductive Request where
  | workpaper (r : Workpapers.Request)
  | evidence (r : Evidence.Request)

/-- What either controller does. -/
def serve : Request → Service (Response ⊕ Evidence.EvidenceView)
  | .workpaper r => do return .inl (← Workpapers.serve r)
  | .evidence r => do return .inr (← Evidence.serve r)

/-- Workpaper `i` is signed off. -/
def SignedOff (i : Uuid) (s : Db) : Prop := ∃ w, s.workpapers.find i = some w ∧ w.status = .signedOff

instance (i : Uuid) (s : Db) : Decidable (SignedOff i s) :=
  decidable_of_iff ((s.workpapers.find i).any fun w => w.status = .signedOff) (by
    simp only [Option.any_eq_true_iff_get, SignedOff, decide_eq_true_eq]
    exact ⟨fun ⟨h, hs⟩ => ⟨_, (Option.some_get h).symm, hs⟩, fun ⟨w, hw, hs⟩ => ⟨by simp [hw], by simp [hw, hs]⟩⟩)

/-- A workpaper that is signed off is locked. -/
def LockedIfSignedOff (i : Uuid) (s : Db) : Prop :=
  ∀ w, s.workpapers.find i = some w → w.status = .signedOff → w.isLocked = true

/-- The evidence records of workpaper `i` are the same. -/
def SameEvidence (i : Uuid) (s s' : Db) : Prop :=
  ∀ j e, e.workpaperId = some i → (s'.evidence.find j = some e ↔ s.evidence.find j = some e)

/-- Content, current version and evidence records of workpaper `i` are the same. -/
structure Untouched (i : Uuid) (s s' : Db) : Prop where
  content : current i s' = current i s
  evidence : SameEvidence i s s'

/-- The row of workpaper `i` and its evidence records are the same. -/
structure Kept (i : Uuid) (s s' : Db) : Prop where
  row : s'.workpapers.find i = s.workpapers.find i
  evidence : SameEvidence i s s'

theorem Kept.untouched {i : Uuid} {s s' : Db} (h : Kept i s s') : Untouched i s s' :=
  ⟨by rw [current, h.row, current], h.evidence⟩

/-! ### Orderly interleavings -/

/-- The call in which a request checks the lock of workpaper `i`, if it does. -/
def Request.checks (i : Uuid) : Request → Option ℕ
  | .workpaper (.update _ id _) => if id = i then some 1 else none
  | .evidence (.create _ dto) => if dto.workpaperId.orNull = some i then some 2 else none
  | _ => none

/-- The request updates an evidence record of workpaper `i`, or makes it one. -/
def Request.UpdatesEvidence (i : Uuid) (s : Db) : Request → Prop
  | .evidence (.update _ id dto) =>
    (∃ e, s.evidence.find id = some e ∧ e.workpaperId = some i) ∨ dto.workpaperId.orNull = some i
  | _ => False

/-- The next call can write content or evidence of workpaper `i`. -/
def AboutToWrite {α : Type} (i : Uuid) (p : Service α) : Prop := ∃ u k s, p = .act u k ∧ ¬Untouched i s (u s)

/-- Whatever others do, no call writes the row or evidence of workpaper `i`. -/
def DoneWriting {α : Type} (i : Uuid) (p : Service α) : Prop :=
  ∀ s, p.Meets (fun _ _ => True) (Kept i) (fun _ _ => True) s

/-- A request has made its check of the lock of workpaper `i` and may still write. -/
def BetweenCheckAndWrite {α : Type} (i : Uuid) (prog : Request → Service α) (th : Thread Request Db HttpError α) :
    Prop :=
  ∃ n, th.req.checks i = some n ∧ (∀ m < n, ¬Prog.Left m (prog th.req) th.rest) ∧ ¬DoneWriting i th.rest

/-- No evidence record of workpaper `i` is updated while it is signed off, and it is not
signed off while another request is between its check and its write. -/
def Orderly (i : Uuid) (c : Config Request Db HttpError (Response ⊕ Evidence.EvidenceView)) (e : Event Request) :
    Prop :=
  ∀ j, e = .turn j →
    (SignedOff i c.st → ∀ th, c.threads[j]? = some th → th.req.UpdatesEvidence i c.st → ¬AboutToWrite i th.rest) ∧
    (¬SignedOff i c.st → SignedOff i (c.next serve e).st →
      ∀ k th, k ≠ j → c.threads[k]? = some th → ¬BetweenCheckAndWrite i serve th)

/-! ### What the requests guarantee -/

/-- What a request guarantees: the lock stays on what is signed off, and content and evidence
of a signed-off workpaper stay, the update of evidence apart. -/
def Guarantee (i : Uuid) (r : Request) (s s' : Db) : Prop :=
  (LockedIfSignedOff i s → LockedIfSignedOff i s') ∧
    (SignedOff i s → ¬r.UpdatesEvidence i s → Untouched i s s')

/-- What a request relies on between its check and its write. -/
def NotSignedOffIn (i : Uuid) (s s' : Db) : Prop := SignedOff i s' → SignedOff i s

/-- What a request relies on: if it makes a check, that what it has checked is not undone. -/
def Rely (i : Uuid) (r : Request) (s s' : Db) : Prop := (r.checks i).isSome → NotSignedOffIn i s s'

theorem Kept.guarantee {i : Uuid} {r : Request} {s s' : Db} (h : Kept i s s') : Guarantee i r s s' :=
  ⟨fun hl w hw => hl w (by rw [← h.row, hw]), fun _ _ => h.untouched⟩

theorem kept_of_eq {i : Uuid} {s s' : Db} (hw : s'.workpapers = s.workpapers) (he : s'.evidence = s.evidence) :
    Kept i s s' :=
  ⟨by rw [hw], fun j e _ => by rw [he]⟩

/-- A workpaper that is not signed off is written as its status and its lock stay. -/
theorem guarantee_of_row {i : Uuid} {r : Request} {s s' : Db} (hs : ¬SignedOff i s)
    (hl : LockedIfSignedOff i s → LockedIfSignedOff i s') : Guarantee i r s s' :=
  ⟨hl, fun h => absurd h hs⟩

/-- An edit leaves the status and the lock. -/
theorem edited_status {ctx : Ctx} {dto : UpdateWorkpaperDto} {before w w' : Workpaper}
    (h : edited ctx dto before w = .ok w') : w'.status = w.status ∧ w'.isLocked = w.isLocked := by
  unfold edited at h
  split at h <;> cases h
  exact ⟨rfl, rfl⟩

/-- A transition that signs off locks. -/
theorem transitioned_locked {ctx : Ctx} {status : WorkpaperStatus} {action : String} {t : Transition WorkpaperStatus}
    {wp w : Workpaper} (h : findTransition workpaperWorkflow status action = some t)
    (hs : (transitioned ctx t wp w).status = .signedOff) : (transitioned ctx t wp w).isLocked = true := by
  obtain ⟨-, -, -, -, hto⟩ := transitioned_fields ctx t wp w
  rw [hto] at hs
  obtain ⟨hcases, -, -⟩ := declared_cases h
  rcases hcases with rfl | rfl | rfl | rfl | rfl | rfl | rfl | rfl
  case inr.inr.inr.inr.inr.inr.inl => rfl
  all_goals cases hs

theorem updated_guarantee {i : Uuid} {r : Request} {R : Db → Db → Prop} {ctx : Ctx} {id : Uuid} {dto : UpdateWorkpaperDto}
    {before w w' : Workpaper} {s s₁ s₂ : Db} (h : Workpapers.Updated R s ctx id dto before w w' s₁ s₂)
    (hi : id = i → ¬SignedOff i s₁) : Guarantee i r s₁ s₂ := by
  by_cases hid : id = i
  · refine guarantee_of_row (hi hid) fun hl w₁ hw₁ hs => ?_
    subst hid
    rw [h.rows, if_pos rfl, Option.some.injEq] at hw₁
    subst hw₁
    obtain ⟨hstatus, hlocked⟩ := edited_status h.edit
    rw [hlocked]
    exact hl w h.row (by rw [← hstatus, hs])
  · refine Kept.guarantee ⟨?_, fun j e _ => by rw [h.rest]⟩
    rw [h.rows, if_neg (Ne.symm hid)]

/-- Every call of a request for a workpaper, but for its content update, keeps the guarantee. -/
theorem workpaper_guarantee {i : Uuid} {R : Db → Db → Prop} {r : Workpapers.Request} {s s₁ s₂ : Db}
    (h : Workpapers.Call R s r s₁ s₂) (hr : (Request.workpaper r).checks i = none) :
    Guarantee i (.workpaper r) s₁ s₂ := by
  rcases h with haside | hcommit
  · exact (kept_of_eq haside.workpapers (by rw [haside.rest])).guarantee
  cases hcommit with
  | @create ctx engagementId dto _ _ hc =>
    obtain ⟨content, hrow⟩ := hc.row
    by_cases hi : i = ctx.uuid 0
    · subst hi
      refine guarantee_of_row ?_ fun _ w hw hs => ?_
      · rintro ⟨w, hw, -⟩
        rw [hc.fresh] at hw
        cases hw
      · rw [hrow, if_pos rfl, Option.some.injEq] at hw
        subst hw
        cases hs
    · refine Kept.guarantee ⟨by rw [hrow, if_neg hi], fun j e _ => by rw [hc.rest]⟩
  | @update ctx id dto _ _ _ _ _ hu =>
    refine updated_guarantee hu fun hid => ?_
    simp [Request.checks, hid] at hr
  | @transition ctx id dto t wp w _ _ ht =>
    have hevidence : SameEvidence i s₁ s₂ := fun j e _ => by rw [ht.rest]
    by_cases hi : i = id
    · subst hi
      refine ⟨fun _ w' hw' hs => ?_, fun _ _ => ⟨?_, hevidence⟩⟩
      · rw [ht.rows, if_pos rfl, Option.some.injEq] at hw'
        subst hw'
        exact transitioned_locked ht.transition hs
      · obtain ⟨hcontent, hversion, -⟩ := transitioned_fields ctx t wp w
        rw [current, ht.rows, if_pos rfl, current, ht.row, Option.map_some, Option.map_some, hcontent, hversion]
    · exact Kept.guarantee ⟨by rw [ht.rows, if_neg hi], hevidence⟩
  | createReviewNote hn => exact (kept_of_eq (by rw [hn.rest]) (by rw [hn.rest])).guarantee
  | updateReviewNote hn => exact (kept_of_eq (by rw [hn.rest]) (by rw [hn.rest])).guarantee

/-- A record that is inserted for another workpaper, or while the workpaper is not signed off. -/
theorem inserted_guarantee {i : Uuid} {R : Db → Db → Prop} {ctx : Ctx} {dto : Evidence.CreateEvidenceDto}
    {s s₁ s₂ : Db} (h : Evidence.Inserted R s ctx dto s₁ s₂)
    (hi : dto.workpaperId.orNull = some i → ¬SignedOff i s₁) : Guarantee i (.evidence (.create ctx dto)) s₁ s₂ := by
  obtain ⟨attempt, reference, hfresh, -, hrows⟩ := h.row
  have hrow : s₂.workpapers.find i = s₁.workpapers.find i := by rw [h.rest]
  by_cases hwp : dto.workpaperId.orNull = some i
  · exact guarantee_of_row (hi hwp) fun hl w hw => hl w (by rw [← hrow, hw])
  · refine Kept.guarantee ⟨hrow, fun j e he => ?_⟩
    rw [hrows]
    split
    · rename_i hj
      subst hj
      rw [hfresh]
      constructor
      · intro heq
        cases heq
        exact absurd he hwp
      · intro heq
        cases heq
    · rfl

/-- A record that is updated is one of the workpaper before or after, or else untouched. -/
theorem evidence_updated_guarantee {i : Uuid} {R : Db → Db → Prop} {ctx : Ctx} {id : Uuid}
    {dto : Evidence.UpdateEvidenceDto} {before e e' : Evidence} {s s₁ s₂ : Db}
    (h : Evidence.Updated R s ctx id dto before e e' s₁ s₂) : Guarantee i (.evidence (.update ctx id dto)) s₁ s₂ := by
  have hrow : s₂.workpapers.find i = s₁.workpapers.find i := by rw [h.rest]
  refine ⟨fun hl w hw => hl w (by rw [← hrow, hw]), fun _ hno => Kept.untouched ⟨hrow, fun j r hr => ?_⟩⟩
  have hbefore : e.workpaperId ≠ some i := fun he => hno (.inl ⟨e, h.row, he⟩)
  have hafter : e'.workpaperId ≠ some i := by
    have hchange := h.change
    unfold Evidence.UpdateEvidenceDto.apply at hchange
    split at hchange <;> cases hchange
    cases hdto : dto.workpaperId with
    | none => exact hbefore
    | some v => exact fun hv => hno (.inr (by rw [hdto]; exact hv))
  rw [h.rows]
  split
  · rename_i hj
    subst hj
    rw [h.row]
    constructor
    · intro heq
      cases heq
      exact absurd hr hafter
    · intro heq
      cases heq
      exact absurd hr hbefore
  · rfl

/-! ### From the check to the write -/

theorem workpapers_rely (i : Uuid) (r : Request) : Workpapers.Interference (Rely i r) where
  refl _ _ h := h
  trans h h' hr hc := h hr (h' hr hc)
  aside h _ := by
    rintro ⟨w, hw, hs⟩
    exact ⟨w, by rw [← h.workpapers, hw], hs⟩

theorem evidence_rely (i : Uuid) (r : Request) : Evidence.Interference (Rely i r) where
  refl _ _ h := h
  trans h h' hr hc := h hr (h' hr hc)
  aside h _ := by
    rintro ⟨w, hw, hs⟩
    have hwp := congrArg Db.workpapers h.rest
    exact ⟨w, by rw [← hwp, hw], hs⟩

/-- Nothing is relied on. -/
theorem workpapers_anything : Workpapers.Interference fun _ _ => True := ⟨fun _ => trivial, fun _ _ => trivial, fun _ => trivial⟩

theorem evidence_anything : Evidence.Interference fun _ _ => True := ⟨fun _ => trivial, fun _ _ => trivial, fun _ => trivial⟩

/-- A workpaper that is not locked is not signed off, and stays so for who relies on it. -/
theorem not_signedOff_of_unlocked {i : Uuid} {r : Request} {s s₁ : Db} {w : Workpaper} (hl : LockedIfSignedOff i s)
    (hw : s.workpapers.find i = some w) (hunlocked : w.isLocked = false) (hr : (r.checks i).isSome)
    (h : Rely i r s s₁) : ¬SignedOff i s₁ := by
  intro hs
  obtain ⟨w', hw', hsigned⟩ := h hr hs
  rw [hw, Option.some.injEq] at hw'
  subst hw'
  rw [hl w hw hsigned] at hunlocked
  cases hunlocked

/-- A content update checks the lock in its first call. -/
theorem update_guarded (i : Uuid) (ctx : Ctx) (dto : UpdateWorkpaperDto) :
    (Workpapers.serve (.update ctx i dto)).Guarded (LockedIfSignedOff i) (Rely i (.workpaper (.update ctx i dto)))
      (Guarantee i (.workpaper (.update ctx i dto))) := by
  unfold Workpapers.serve
  dsimp only
  split
  · trivial
  refine Prog.Guarded.map ?_ _
  rw [update_eq, assertWorkpaper, bind_assoc, Prog.guarded_read_bind]
  refine fun s hl => ⟨(kept_of_eq rfl rfl).guarantee, ?_⟩
  split
  · exact .inl trivial
  rename_i before hfound
  rw [pure_bind]
  cases hlock : before.isLocked with
  | true =>
    refine .inl ?_
    unfold updateRead
    rw [if_pos hlock]
    trivial
  | false =>
    refine .inr (((updateRead_meets (workpapers_rely i _) ctx i dto hfound).mono_step ?_).mono fun _ _ _ => trivial)
    rintro a b (haside | ⟨w, w', hupd⟩)
    · exact (kept_of_eq haside.workpapers (by rw [haside.rest])).guarantee
    · obtain ⟨s₀, h₀, h₁, -⟩ := hupd.read
      refine updated_guarantee hupd fun _ => ?_
      exact not_signedOff_of_unlocked hl (found_eq_some.mp hfound).1 hlock (by simp [Request.checks])
        ((workpapers_rely i _).trans h₀ h₁)

/-- The creation of evidence checks the lock after it has found the engagement. -/
theorem createChecked_guarded {i : Uuid} {ctx : Ctx} {dto : Evidence.CreateEvidenceDto}
    (hi : dto.workpaperId.orNull = some i) :
    (Evidence.assertUnlocked ctx dto.engagementId dto.workpaperId >>= fun _ => Evidence.createUnlocked ctx dto).Guarded
      (LockedIfSignedOff i) (Rely i (.evidence (.create ctx dto))) (Guarantee i (.evidence (.create ctx dto))) := by
  rw [Evidence.assertUnlocked, hi]
  dsimp only
  rw [bind_assoc, Prog.guarded_read_bind]
  refine fun s hl => ⟨(kept_of_eq rfl rfl).guarantee, ?_⟩
  split
  · exact .inl trivial
  rename_i w hw
  cases hlock : w.isLocked with
  | true =>
    rw [if_pos rfl]
    exact .inl trivial
  | false =>
    rw [if_neg Bool.false_ne_true, pure_bind]
    refine .inr ((Evidence.createUnlocked_meets (evidence_rely i _) ctx dto s).mono_step ?_)
    rintro a b (haside | hins)
    · exact (kept_of_eq (by rw [haside.rest]) (by rw [haside.rest])).guarantee
    · refine inserted_guarantee hins fun _ => ?_
      exact not_signedOff_of_unlocked hl (Ctx.findById_eq_some.mp hw).1 hlock (by simp [Request.checks, hi]) hins.since

/-- Before its second call the creation of evidence relies on nothing. -/
theorem create_guarded {i : Uuid} {ctx : Ctx} {dto : Evidence.CreateEvidenceDto} (hi : dto.workpaperId.orNull = some i)
    {m : ℕ} (hm : m < 2) {p : Service Evidence.EvidenceView}
    (h : Prog.Left m (Evidence.serve (.create ctx dto)) p) :
    p.Guarded (LockedIfSignedOff i) (Rely i (.evidence (.create ctx dto))) (Guarantee i (.evidence (.create ctx dto))) := by
  have hfound : ∀ e : Option Engagement, (if e.isNone then throw (.notFound "Engagement not found") else do
      Evidence.assertUnlocked ctx dto.engagementId dto.workpaperId
      Evidence.createUnlocked ctx dto : Service Evidence.EvidenceView).Guarded (LockedIfSignedOff i)
        (Rely i (.evidence (.create ctx dto))) (Guarantee i (.evidence (.create ctx dto))) := by
    intro e
    split
    · trivial
    · exact createChecked_guarded hi
  unfold Evidence.serve at h
  dsimp only at h
  rcases m with _ | _ | m
  · cases h
    split
    · trivial
    · exact fun s _ => ⟨(kept_of_eq rfl rfl).guarantee, .inl (hfound _)⟩
  · obtain ⟨u, k, s, hact, hleft⟩ := h
    split at hact
    · cases hact
    · cases hact
      cases hleft
      exact hfound _
  · omega

/-- A request that has not come to its check relies on nothing. -/
theorem guarded_before_check {i : Uuid} {r : Request} {n m : ℕ} (hr : r.checks i = some n) (hm : m < n)
    {p : Service (Response ⊕ Evidence.EvidenceView)} (h : Prog.Left m (serve r) p) :
    p.Guarded (LockedIfSignedOff i) (Rely i r) (Guarantee i r) := by
  unfold Request.checks at hr
  split at hr
  · -- a content update
    split at hr <;> cases hr
    rename_i hid
    subst hid
    obtain rfl : m = 0 := by omega
    cases h
    exact (update_guarded _ _ _).map _
  · -- a creation of evidence
    split at hr <;> cases hr
    rename_i hwp
    obtain ⟨q, hq, rfl⟩ := Prog.Left.map h
    exact (create_guarded hwp hm hq).map _
  · cases hr

theorem checks_pos {i : Uuid} {r : Request} {n : ℕ} (hr : r.checks i = some n) : 0 < n := by
  unfold Request.checks at hr
  split at hr
  · split at hr <;> cases hr
    decide
  · split at hr <;> cases hr
    decide
  · cases hr

/-- Every request is guarded when it starts. -/
theorem serve_guarded (i : Uuid) (r : Request) :
    (serve r).Guarded (LockedIfSignedOff i) (Rely i r) (Guarantee i r) := by
  cases hr : r.checks i with
  | some n => exact guarded_before_check hr (checks_pos hr) rfl
  | none =>
    cases r with
    | workpaper r =>
      refine Prog.Guarded.map (Prog.guarded_of_meets fun s => ?_) _
      exact ((serve_meets workpapers_anything r s).mono_step
        fun _ _ hcall => workpaper_guarantee hcall hr).mono fun _ _ _ => trivial
    | evidence r =>
      refine Prog.Guarded.map (Prog.guarded_of_meets fun s => ?_) _
      refine (Evidence.serve_meets evidence_anything r s).mono_step fun a b hcall => ?_
      cases hcall with
      | aside haside => exact (kept_of_eq (by rw [haside.rest]) (by rw [haside.rest])).guarantee
      | create hc =>
        refine inserted_guarantee hc.toInserted fun hwp => ?_
        simp [Request.checks, hwp] at hr
      | update hu => exact evidence_updated_guarantee hu

/-- A request that has nothing left to write keeps its guarantee, whatever others do. -/
theorem DoneWriting.guarded {i : Uuid} {r : Request} {p : Service (Response ⊕ Evidence.EvidenceView)}
    (h : DoneWriting i p) : p.Guarded (LockedIfSignedOff i) (Rely i r) (Guarantee i r) :=
  Prog.guarded_of_meets fun s => (h s).mono_step fun _ _ => Kept.guarantee

/-- In an orderly interleaving nobody who has checked a lock sees the workpaper signed off
before the write. -/
theorem lock_relyGuarantee (i : Uuid) :
    RelyGuarantee serve (Orderly i) (LockedIfSignedOff i) (Rely i) (Guarantee i) where
  refl _ _ _ h := h
  trans _ _ _ _ h h' hr hc := h hr (h' hr hc)
  keep _ _ _ hl hG := hG.1 hl
  start _ r _ _ := .inl (serve_guarded i r)
  compat c j k _ th' s' _ hC hjk _ hk hnot hs' _ := by
    intro hchecks hsigned
    subst hs'
    by_contra hno
    obtain ⟨n, hn⟩ := Option.isSome_iff_exists.mp hchecks
    refine (hC j rfl).2 hno hsigned k th' (Ne.symm hjk) hk ⟨n, hn, fun m hm hleft => ?_, fun hdone => ?_⟩
    · exact hnot (guarded_before_check hn hm hleft)
    · exact hnot hdone.guarded

/-! ### The lock -/

/-- The event leaves content and evidence of workpaper `i` as they are if it is signed off. -/
def Secure (i : Uuid) (c : Config Request Db HttpError (Response ⊕ Evidence.EvidenceView)) (e : Event Request) : Prop :=
  SignedOff i c.st → Untouched i c.st (c.next serve e).st

theorem Untouched.refl (i : Uuid) (s : Db) : Untouched i s s := ⟨rfl, fun _ _ _ => Iff.rfl⟩

/-- **A lock is a lock** in orderly interleavings: while a workpaper is signed off, neither its
content nor its evidence is written. -/
theorem signedOff_untouched (s₀ : Db) (i : Uuid) (h₀ : LockedIfSignedOff i s₀) (evs : List (Event Request))
    (horderly : Scheduled serve (Orderly i) s₀ evs) : Scheduled serve (Secure i) s₀ evs := by
  induction evs with
  | nil => trivial
  | cons e past ih =>
    refine ⟨fun hsigned => ?_, ih horderly.2⟩
    cases e with
    | start r => exact Untouched.refl i _
    | turn j =>
      rcases (lock_relyGuarantee i).turn h₀ horderly.2 j with heq | ⟨th, hth, hG⟩
      · rw [heq]
        exact Untouched.refl i _
      · by_cases hupdates : th.req.UpdatesEvidence i (interleave serve s₀ past).st
        · -- the update of a record: its next call is not the write
          by_contra hno
          refine (horderly.1 j rfl).1 hsigned th hth hupdates ?_
          rcases (interleave serve s₀ past).next_turn serve j with heq | ⟨r, u, k, hj, heq⟩
          · rw [heq] at hno
            exact absurd (Untouched.refl i _) hno
          · rw [hth, Option.some.injEq] at hj
            subst hj
            rw [heq] at hno
            exact ⟨u, k, _, rfl, hno⟩
        · exact hG.2 hsigned hupdates

/-! ### Runs of the office -/

/-- The most recent first, each request with turns enough to end before the next one starts. -/
def oneByOne : List Request → List (Event Request)
  | [] => []
  | r :: past => List.replicate 20 (.turn past.length) ++ .start r :: oneByOne past

/-- Workpaper 100 has an evidence record and is reviewed; it remains to sign it off. -/
def reviewedRun : List Request :=
  .workpaper (take 2 106 "approve_review") :: .workpaper (take 2 105 "start_review") ::
    .workpaper (take 1 104 "mark_prepared") ::
    .evidence (.create (actor 1 200) { engagementId := 10, workpaperId := some (some 100), description := "Statement" }) ::
    drafted.map .workpaper

/-- The workpaper is signed off, and its evidence record is updated. -/
def alteredEvidence : List (Event Request) :=
  [.turn 7, .turn 7, .start (.evidence (.update (actor 1 300) 200 { description := some (some "Other") }))] ++
    oneByOne (.workpaper (take 3 107 "sign_off") :: reviewedRun)

/-- Evidence of a signed-off workpaper can be updated: `update` does not look at the lock. -/
theorem signedOff_evidence_altered : ¬Scheduled serve (Secure 100) office alteredEvidence := by
  rintro ⟨hsecure, -⟩
  have hrecord := (hsecure (by decide +kernel)).evidence 200 (Evidence.newEvidence (actor 1 200)
    { engagementId := 10, workpaperId := some (some 100), description := "Statement" } "E-001") rfl
  exact absurd (hrecord.mpr (by decide +kernel)) (by decide +kernel)

/-- Ann has read the workpaper to edit it when Cleo signs it off; then Ann writes. -/
def racedUpdate : List (Event Request) :=
  [.turn 6] ++ List.replicate 8 (.turn 7) ++ [.start (.workpaper (take 3 107 "sign_off")), .turn 6,
    .start (.workpaper (.update (actor 1 300) 100 { conclusion := some (some "Weak") }))] ++ oneByOne reviewedRun

/-- A check of the lock that comes before the sign-off lets a later write through. -/
theorem signedOff_content_altered : ¬Scheduled serve (Secure 100) office racedUpdate := by
  rintro ⟨hsecure, -⟩
  have hversion := congrArg (Option.map Prod.snd) (hsecure (by decide +kernel)).content
  exact absurd hversion (by decide +kernel)

/-- Cleo signs the workpaper off. -/
def signing : List (Event Request) := List.replicate 8 (.turn 0) ++ [.start (.workpaper (take 3 107 "sign_off"))]

/-- Then Ann is refused. -/
def signedThenRefused : List (Event Request) :=
  .turn 1 :: .start (.workpaper (.update (actor 1 300) 100 { conclusion := some (some "Weak") })) :: signing

theorem orderly_start (i : Uuid) (c : Config Request Db HttpError (Response ⊕ Evidence.EvidenceView)) (r : Request) :
    Orderly i c (.start r) := by
  rintro j ⟨⟩

/-- A request for a workpaper that is alone is orderly. -/
theorem orderly_alone (i : Uuid) (s₀ : Db) (r : Workpapers.Request) (n : ℕ) :
    Scheduled serve (Orderly i) s₀ (List.replicate n (.turn 0) ++ [.start (.workpaper r)]) := by
  induction n with
  | zero => exact ⟨orderly_start i _ _, trivial⟩
  | succ n ih =>
    obtain ⟨p, hp⟩ := threads_alone serve s₀ (.workpaper r) n
    rw [List.replicate_succ, List.cons_append]
    refine ⟨fun j hj => ?_, ih⟩
    cases hj
    rw [hp]
    refine ⟨fun _ th hth hupdates => ?_, fun _ _ k th hk hth => ?_⟩
    · cases hth
      exact hupdates.elim
    · rw [List.getElem?_eq_none (Nat.one_le_iff_ne_zero.mpr hk)] at hth
      cases hth

/-- A refused edit after a sign-off is orderly. -/
theorem orderly_refused (s₀ : Db) (hsigned : SignedOff 100 (interleave serve s₀ signing).st) :
    Scheduled serve (Orderly 100) s₀ signedThenRefused := by
  obtain ⟨p, hp⟩ := threads_alone serve s₀ (.workpaper (take 3 107 "sign_off")) 8
  refine ⟨?_, orderly_start 100 _ _, orderly_alone 100 s₀ _ 8⟩
  rintro j ⟨⟩
  rw [interleave_start_st, interleave_start_threads, signing, hp]
  refine ⟨fun _ th hth hupdates => ?_, fun hno => absurd hsigned hno⟩
  cases hth
  exact hupdates.elim

/-- The theorem where a sign-off is orderly and an edit comes after it. -/
theorem signedOff_untouched_refused :
    Scheduled serve (Secure 100) (interleave serve office (oneByOne reviewedRun)).st signedThenRefused := by
  have hunsigned : ¬SignedOff 100 (interleave serve office (oneByOne reviewedRun)).st := by decide +kernel
  have hsigned : SignedOff 100 (interleave serve (interleave serve office (oneByOne reviewedRun)).st signing).st := by
    decide +kernel
  exact signedOff_untouched _ 100 (fun w hw hs => absurd ⟨w, hw, hs⟩ hunsigned) signedThenRefused
    (orderly_refused _ hsigned)

end AuditSphere.Lock
