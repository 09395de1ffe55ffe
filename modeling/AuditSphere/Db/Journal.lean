import AuditSphere.Auth.ObjectAccess
import AuditSphere.Db.Numbered
import AuditSphere.Theory.Journal
import AuditSphere.Workflow.Service

/-!
# Changes and their record

A service looks at the database, makes its change in one call or one transaction, records it
in the audit trail and tells users of it. The record is a call of its own, so a process that
stops between the two leaves a change without its record. `Journaled` says of a program that it has
this shape; what is left when it is stopped is then known (`Prog.Journaled.one_gap`).
-/

namespace AuditSphere

open Prisma Theory Shared

/-- What the tenants keep: all but the audit trail and the notifications. -/
def business (db : Db) : Db := { db with auditTrail := [], notifications := [] }

/-- The program looks, and changes nothing. -/
abbrev Looks {α : Type} (p : Service α) : Prop := p.Calls Eq

/-- The program tells users of something. -/
abbrev Tells {α : Type} (p : Service α) : Prop := p.Telling business Db.auditTrail

/-- The program makes a change at most, and records it. -/
abbrev Journaled {α : Type} (p : Service α) : Prop := p.Journaled business Db.auditTrail

section Looks

variable {α β : Type} {p : Service α} {f : α → Service β}

theorem looks_read (g : Db → α) : Looks (Prog.read g : Service α) := Prog.calls_read g fun _ => rfl

theorem Looks.tells (h : Looks p) : Tells p := Prog.telling_of_looks h

/-- What is looked at first. -/
theorem Looks.then (h : Looks p) (hf : ∀ a, Journaled (f a)) : Journaled (p >>= f) := h.tells.journaled_bind hf

theorem looks_assertRelated {ρ : Type} [TenantRow ρ] (ctx : Ctx) (table : Db → Table Uuid ρ) (id : Field Uuid)
    (q : Db → ρ → Bool) (e : HttpError) : Looks (assertRelated ctx table id q e) := by
  unfold assertRelated
  cases id.orNull with
  | none => exact Prog.calls_pure ()
  | some i => exact (looks_read _).bind fun row => Prog.Calls.ite (Prog.calls_throw e) (Prog.calls_pure ())

/-- Something is counted, and there must be some. -/
theorem looks_assertSome (g : Db → ℕ) (e : HttpError) :
    Looks (do
      let found ← .read g
      if found = 0 then throw e else pure () : Service Unit) :=
  (looks_read g).bind fun _ => Prog.Calls.ite (Prog.calls_throw e) (Prog.calls_pure ())

theorem looks_documentScope (ctx : Ctx) : Looks (ObjectAccess.documentScope ctx) := by
  unfold ObjectAccess.documentScope
  refine Prog.Calls.ite (Prog.calls_pure _) ((looks_read _).bind fun ids => (looks_read _).bind fun requests => ?_)
  refine Prog.Calls.ite ?_ ?_
  · exact (Prog.calls_pure _).bind fun _ => Prog.calls_pure _
  · exact (looks_read _).bind fun _ => Prog.calls_pure _

/-! ### Guards -/

variable {E S : Type} {registry : GuardRegistry E S}

/-- No guard changes anything. -/
def GuardsLook (registry : GuardRegistry E S) : Prop := ∀ e ∈ registry, ∀ g, Looks (e.2 g)

theorem GuardsLook.register (h : GuardsLook registry) {fn : GuardFn E S} (hfn : ∀ g, Looks (fn g))
    (machine guard : String) : GuardsLook (registry.register machine guard fn) :=
  List.forall_mem_cons.mpr ⟨hfn, h⟩

theorem looks_evaluate (h : GuardsLook registry) (machine : String) (g : GuardContext E S) (guards : List String) :
    Looks (evaluate registry machine g guards) := by
  induction guards with
  | nil => exact Prog.calls_pure _
  | cons guard guards ih =>
    unfold evaluate
    cases hget : registry.get machine guard with
    | none => exact Prog.calls_throw _
    | some fn =>
      obtain ⟨e, hfind, rfl⟩ := Option.map_eq_some_iff.mp hget
      exact (h e (List.mem_of_find?_eq_some hfind) g).bind fun _ => ih.bind fun _ => Prog.calls_pure _

variable [DecidableEq S]

theorem looks_workflowTransition (h : GuardsLook registry) (text : S → String) (machine : StateMachine S) (current : S)
    (input : TransitionInput E) (extra : List String) :
    Looks (workflowTransition registry text machine current input extra) := by
  unfold workflowTransition
  cases findTransition machine current input.action with
  | none => exact Prog.calls_throw _
  | some t =>
    refine Prog.Calls.ite (Prog.calls_throw _) ((looks_evaluate h _ _ _).bind fun failed => ?_)
    exact Prog.Calls.ite (Prog.calls_throw _) (Prog.calls_pure _)

theorem looks_availableActions (h : GuardsLook registry) (machine : StateMachine S) (current : S) (actor : Ctx)
    (entity : E) (extra : Transition S → List String) :
    Looks (workflowAvailableActions registry machine current actor entity extra) := by
  unfold workflowAvailableActions
  induction machine.transitions.filter fun t => decide (t.fromState = current) with
  | nil => exact Prog.calls_pure _
  | cons t ts ih =>
    rw [List.mapM_cons]
    exact ((looks_evaluate h _ _ _).bind fun _ => Prog.calls_pure _).bind fun _ => ih.bind fun _ => Prog.calls_pure _

end Looks

/-! ### Records and notifications -/

section Records

variable {α β : Type} (ctx : Ctx)

theorem tells_notify (userId : Option Uuid) (input : NotifyInput) : Tells (notify ctx userId input) := by
  unfold notify
  cases userId with
  | none => exact Prog.calls_pure ()
  | some u =>
    refine (looks_read _).tells.bind fun b => Prog.Calls.ite ?_ (Prog.calls_pure ())
    exact fun s => ⟨⟨rfl, rfl⟩, trivial⟩

theorem tells_notifyMany (userIds : List (Option Uuid)) (input : NotifyInput) : Tells (notifyMany ctx userIds input) := by
  unfold notifyMany
  induction userIds.eraseDups with
  | nil => exact Prog.calls_pure ()
  | cons u us ih => exact (tells_notify ctx u input).bind fun _ => ih

/-- The record, and what is told of it. -/
theorem recording_auditRecord {f : Unit → Service β} (action targetType : String) (targetId : Uuid) (hf : Tells (f ())) :
    (auditRecord ctx action targetType targetId >>= f).Recording business Db.auditTrail :=
  Prog.recording_write_bind (fun _ => rfl) (fun s => Nat.lt_succ_self s.auditTrail.length) hf

/-- The program is one call, and leaves the audit trail. -/
def Change (p : Service α) : Prop :=
  ∃ g, p = Prog.call g ∧ ∀ s a s', p.run s = (.ok a, s') → s'.auditTrail = s.auditTrail

variable {ctx} {p : Service α} {f : α → Service β}

theorem change_call {g : Db → Except HttpError (α × Db)}
    (h : ∀ s a s', (Prog.call g).run s = (.ok a, s') → s'.auditTrail = s.auditTrail) : Change (Prog.call g : Service α) :=
  ⟨g, rfl, h⟩

/-- A change and its record. -/
theorem Change.journaled (h : Change p) (hf : ∀ a, (f a).Recording business Db.auditTrail) : Journaled (p >>= f) := by
  obtain ⟨g, rfl, hlog⟩ := h
  exact Prog.journaled_call_bind (fun s a s' hcall => hlog s a s' (Prog.run_call_ok.mpr hcall)) hf

/-- A new record that is numbered, and its record in the audit trail. -/
theorem Numbered.journaled {latest : Db → Option String} {insert : ℕ → Option String → Service α} {loop : ℕ → Service α}
    (h : Numbered latest insert loop) (hinsert : ∀ attempt l, Change (insert attempt l))
    (hf : ∀ a, (f a).Recording business Db.auditTrail) (left : ℕ) : Journaled (loop left >>= f) := by
  induction left with
  | zero =>
    obtain ⟨e, he⟩ := h.exhausted
    rw [he]
    trivial
  | succ left ih =>
    rw [h.attempt, bind_assoc]
    refine (looks_read _).then fun l => ?_
    obtain ⟨g, hg, hlog⟩ := hinsert (4 - left) l
    rw [hg]
    refine Prog.journaled_catching_bind (fun s a s' hcall => hlog s a s' (by rw [hg]; exact Prog.run_call_ok.mpr hcall)) hf
      fun e => ?_
    split
    · exact ih
    · trivial

/-- A service that is journaled answers. -/
theorem Journaled.answer (h : Journaled p) {g : α → β} : Journaled (p >>= fun a => (pure (g a) : Service β)) :=
  Prog.Journaled.bind h fun _ => Prog.calls_pure _

end Records

end AuditSphere
