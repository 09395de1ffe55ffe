import AuditSphere.Db.Client

/-!
# Requests and their commit

Most requests make one call that matters, their commit; all their other calls change
only what is aside, `A` below: the audit trail and the notifications (`Quiet`), or more.
What a request may rely on between its calls is an `Interference`, how it ends is `Done`:
with an error and no commit, or after its commit.

Served alone, a request that fails changes only what is aside, and one that succeeds
commits on a database that differs only in this (`Done.alone`).
-/

namespace AuditSphere

open Theory

/-! ### What is done with a result -/

/-- What is done with a result makes no difference to the state. -/
theorem run_return {α β : Type} (p : Service α) (f : α → β) (s : Db) :
    (p >>= fun a => (pure (f a) : Service β)).run s = ((p.run s).1.map f, (p.run s).2) := by
  rw [Prog.run_bind]
  rcases p.run s with ⟨e | a, s'⟩ <;> rfl

/-- Nor to whether the request succeeds. -/
theorem accepted_return {ρ ρ' α β : Type} {prog : ρ → Service α} {prog' : ρ' → Service β} {r : ρ} {r' : ρ'} {f : α → β}
    (h : prog' r' = prog r >>= fun a => (pure (f a) : Service β)) (s : Db) :
    Accepted prog' s r' ↔ Accepted prog s r := by
  unfold Accepted
  rw [h, run_return]
  rcases (prog r).run s with ⟨e | a, s'⟩
  · constructor <;> rintro ⟨_, _, ⟨⟩⟩
  · exact ⟨fun _ => ⟨a, s', rfl⟩, fun _ => ⟨f a, s', rfl⟩⟩

/-! ### Interference -/

section Quiet

variable {a b : Db} (h : Quiet a b)

include h

/-- A database that differs quietly has the same tables. -/
theorem Quiet.eq : ∃ auditTrail notifications, b = { a with auditTrail, notifications } := ⟨_, _, h⟩

theorem Quiet.symm : Quiet b a := by
  obtain ⟨auditTrail, notifications, rfl⟩ := h.eq
  rfl

end Quiet

/-- Interference that may come between the calls of a request. -/
structure Interference (A R : Db → Db → Prop) : Prop where
  refl : ∀ s, R s s
  trans : ∀ a b c, R a b → R b c → R a c
  aside : ∀ a b, A a b → R a b

theorem Interference.of_quiet : Interference Quiet Quiet := ⟨Quiet.refl, fun _ _ _ => Quiet.trans, fun _ _ => id⟩

theorem Interference.of_anything (A : Db → Db → Prop) : Interference A fun _ _ => True :=
  ⟨fun _ => trivial, fun _ _ _ _ _ => trivial, fun _ _ _ => trivial⟩

/-- After its commit the request ends with a value, at least if others change only what is aside. -/
def Answered (A R : Db → Db → Prop) (s : Db) {α : Type} (result : Except HttpError α) (s' : Db) : Prop :=
  R s s' ∧ ((∀ a b, R a b → A a b) → ∃ a, result = .ok a)

/-- How a request ends that commits as `C` says: with an error and no commit, or after its commit. -/
def Done (A R C : Db → Db → Prop) (s : Db) {α : Type} (result : Except HttpError α) (s' : Db) : Prop :=
  ((∃ e, result = .error e) ∧ R s s') ∨ ∃ s₁ s₂, R s s₁ ∧ C s₁ s₂ ∧ Answered A R s₂ result s'

section Done

variable {A R G C : Db → Db → Prop} {α β : Type} {s : Db}

/-- A request that has not committed ends with an error. -/
theorem Done.failed {s' : Db} (e : HttpError) (h : R s s') : Done A R C s (.error e : Except HttpError α) s' :=
  .inl ⟨⟨e, rfl⟩, h⟩

/-- What is done with the result makes no difference. -/
theorem meets_map {p : Service α} (h : p.Meets R G (Done A R C s) s) (f : α → β) :
    (p >>= fun a => (pure (f a) : Service β)).Meets R G (Done A R C s) s := by
  rw [Prog.meets_bind]
  refine h.mono ?_
  rintro (e | a) s' (⟨⟨e', he⟩, hs'⟩ | ⟨s₁, s₂, h₁, hC, hs', hend⟩)
  · exact .failed e hs'
  · refine .inr ⟨s₁, s₂, h₁, hC, hs', fun haside => ?_⟩
    obtain ⟨a, ha⟩ := hend haside
    cases ha
  · cases he
  · exact .inr ⟨s₁, s₂, h₁, hC, hs', fun _ => ⟨f a, rfl⟩⟩

section Alone

variable {result : Except HttpError α} {s' : Db} (h : Done A A C s result s')

include h

/-- **Served alone**: a request that fails changes only what is aside, and one that succeeds
commits on a database that differs only in this. -/
theorem Done.alone : ((∃ e, result = .error e) ∧ A s s') ∨
    ((∃ a, result = .ok a) ∧ ∃ s₁ s₂, A s s₁ ∧ C s₁ s₂ ∧ A s₂ s') := by
  rcases h with h | ⟨s₁, s₂, h₁, hC, hs', hok⟩
  · exact .inl h
  · exact .inr ⟨hok fun _ _ => id, s₁, s₂, h₁, hC, hs'⟩

end Alone

section Commit

variable (hR : Interference A R)

include hR

/-- A program that only looks, and records and tells what was done, comes to an end. -/
theorem meets_answered {p : Service α} (hp : p.Within A) (hG : ∀ a b, A a b → G a b) (s : Db) :
    p.Meets R G (Answered A R s) s :=
  (hp.meets hG hR.aside hR.refl hR.trans s).mono fun _ _ h => ⟨h.2, fun _ => h.1⟩

/-- **The commit**: a call that commits as `C` says if it succeeds, and what follows it. -/
theorem meets_commit {f : Db → Except HttpError (α × Db)} {k : α → Service β} {s₀ : Db} (h₀ : R s s₀)
    (hrefl : ∀ a, G a a) (hG : ∀ a b, C a b → G a b)
    (hcall : ∀ s₁ s₂ a, R s₀ s₁ → (Prog.call f).run s₁ = (.ok a, s₂) → C s₁ s₂)
    (hrest : ∀ s₁ s₂ a, R s₀ s₁ → C s₁ s₂ → (Prog.call f).run s₁ = (.ok a, s₂) →
      (k a).Meets R G (Answered A R s₂) s₂) :
    (Prog.call f >>= k).Meets R G (Done A R C s) s₀ := by
  rw [Prog.meets_bind]
  refine Prog.meets_of_call fun s₁ h₁ r s₂ hrun => ?_
  have h01 := hR.trans _ _ _ h₀ h₁
  rcases r with e | a
  · have : s₂ = s₁ := Prog.atomic_call _ _ _ _ hrun
    subst this
    exact ⟨hrefl s₂, .failed e h01⟩
  · have hC := hcall s₁ s₂ a h₁ hrun
    exact ⟨hG _ _ hC, (hrest s₁ s₂ a h₁ hC hrun).mono fun _ s' hend => .inr ⟨s₁, s₂, h01, hC, hend⟩⟩

end Commit

end Done

end AuditSphere
