import Mathlib.Order.Basic

/-!
# Programs of atomic calls

A program works on a shared state by atomic calls: each call changes the state
and decides, from the state it found, how the program goes on. Between two
calls other programs may run. The program ends with a value or with an error,
and an error does not undo the calls made before it; `transaction` makes one
call of a whole program, with nothing changed if it fails.

Two readings of a program are used:

* `run` — the program alone, from a state to a result and a state. `ReadOnly`
  and `Atomic` say what a program leaves of the state: everything, or everything
  if it fails. Both are established piece by piece along the program, and so is
  `Agrees`: the program cannot tell one state from another.
* `history` — requests served one after another, the most recent first, each by
  its program; `always_of_step` is the induction over such a history, and
  `Since` speaks of what has happened in it since some other thing did.

How programs behave when they interleave is the subject of `Interleaving`.
-/

namespace AuditSphere.Theory

/-- A program on the state `σ` that ends with a value `α` or an error `ε`. -/
inductive Prog (σ ε α : Type) where
  /-- End with a value. -/
  | ret (a : α)
  /-- End with an error. -/
  | fail (e : ε)
  /-- One atomic call: what it makes of the state, and how the program goes on. -/
  | act (upd : σ → σ) (next : σ → Prog σ ε α)

namespace Prog

variable {σ ε α β : Type}

/-- Run `p`, then `f` on its value. -/
def bind : Prog σ ε α → (α → Prog σ ε β) → Prog σ ε β
  | .ret a, f => f a
  | .fail e, _ => .fail e
  | .act u k, f => .act u fun s => (k s).bind f

/-- Run `p`; if it fails, go on with `h` on its error. -/
def catching : Prog σ ε α → (ε → Prog σ ε α) → Prog σ ε α
  | .ret a, _ => .ret a
  | .fail e, h => h e
  | .act u k, h => .act u fun s => (k s).catching h

instance : Monad (Prog σ ε) where
  pure := .ret
  bind := bind

instance : LawfulMonad (Prog σ ε) :=
  LawfulMonad.mk' _
    (fun p => by
      induction p with
      | ret a => rfl
      | fail e => rfl
      | act u k ih => exact congrArg (act u) (funext ih))
    (fun _ _ => rfl)
    (fun p f g => by
      induction p with
      | ret a => rfl
      | fail e => rfl
      | act u k ih => exact congrArg (act u) (funext ih))

instance : MonadExcept ε (Prog σ ε) where
  throw := .fail
  tryCatch := catching

/-- The result of the program alone, and the state it leaves. -/
def run : Prog σ ε α → σ → Except ε α × σ
  | .ret a, s => (.ok a, s)
  | .fail e, s => (.error e, s)
  | .act u k, s => (k s).run (u s)

/-- A call that fails without a change, or returns a value and the next state. -/
def call (f : σ → Except ε (α × σ)) : Prog σ ε α :=
  .act (fun s => match f s with | .ok (_, s') => s' | .error _ => s)
    (fun s => match f s with | .ok (a, _) => .ret a | .error e => .fail e)

/-- A call that looks at the state. -/
def read (f : σ → α) : Prog σ ε α := call fun s => .ok (f s, s)

/-- A call that changes the state. -/
def write (f : σ → σ) : Prog σ ε Unit := call fun s => .ok ((), f s)

/-- A whole program as one call: it is undone if it fails. -/
def transaction (p : Prog σ ε α) : Prog σ ε α :=
  call fun s => match p.run s with
    | (.ok a, s') => .ok (a, s')
    | (.error e, _) => .error e

/-! ### Running alone -/

@[simp] theorem run_pure (a : α) (s : σ) : (pure a : Prog σ ε α).run s = (.ok a, s) := rfl

@[simp] theorem run_throw (e : ε) (s : σ) : (throw e : Prog σ ε α).run s = (.error e, s) := rfl

@[simp] theorem run_ite (c : Prop) [Decidable c] (p q : Prog σ ε α) (s : σ) :
    (if c then p else q).run s = if c then p.run s else q.run s := by
  split <;> rfl

@[simp] theorem run_call (f : σ → Except ε (α × σ)) (s : σ) :
    (call f).run s = match f s with
      | .ok (a, s') => (.ok a, s')
      | .error e => (.error e, s) := by
  simp only [call, run]
  cases f s <;> rfl

theorem run_call_ok {f : σ → Except ε (α × σ)} {s s' : σ} {a : α} :
    (call f).run s = (.ok a, s') ↔ f s = .ok (a, s') := by
  rw [run_call]
  rcases f s with e | ⟨b, s₁⟩ <;> simp

@[simp] theorem run_read (f : σ → α) (s : σ) : (read f : Prog σ ε α).run s = (.ok (f s), s) := rfl

@[simp] theorem run_write (f : σ → σ) (s : σ) : (write f : Prog σ ε Unit).run s = (.ok (), f s) := rfl

theorem run_bind (p : Prog σ ε α) (f : α → Prog σ ε β) (s : σ) :
    (p >>= f).run s = match p.run s with
      | (.ok a, s') => (f a).run s'
      | (.error e, s') => (.error e, s') := by
  induction p generalizing s with
  | ret a => rfl
  | fail e => rfl
  | act u k ih => exact ih s (u s)

/-- After a program that ends with a value, the sequence goes on from there. -/
theorem run_bind_of_ok {p : Prog σ ε α} {s s' : σ} {a : α} (h : p.run s = (.ok a, s')) (f : α → Prog σ ε β) :
    (p >>= f).run s = (f a).run s' := by
  rw [run_bind, h]

/-- After a program that fails, the sequence has failed. -/
theorem run_bind_of_error {p : Prog σ ε α} {s s' : σ} {e : ε} (h : p.run s = (.error e, s')) (f : α → Prog σ ε β) :
    (p >>= f).run s = (.error e, s') := by
  rw [run_bind, h]

/-- What holds of the state however the first part ends, and of the state after the second part if it ends
with a value. -/
theorem run_bind_state {P : σ → Prop} {p : Prog σ ε α} {f : α → Prog σ ε β} {s : σ}
    (herror : ∀ e s', p.run s = (.error e, s') → P s') (hok : ∀ a s', p.run s = (.ok a, s') → P ((f a).run s').2) :
    P ((p >>= f).run s).2 := by
  rw [run_bind]
  rcases hp : p.run s with ⟨e | a, s'⟩
  · exact herror e s' hp
  · exact hok a s' hp

theorem run_call_of_error {f : σ → Except ε (α × σ)} {s : σ} {e : ε} (h : f s = .error e) :
    (call f).run s = (.error e, s) := by
  rw [run_call, h]

theorem run_catching (p : Prog σ ε α) (h : ε → Prog σ ε α) (s : σ) :
    (p.catching h).run s = match p.run s with
      | (.ok a, s') => (.ok a, s')
      | (.error e, s') => (h e).run s' := by
  induction p generalizing s with
  | ret a => rfl
  | fail e => rfl
  | act u k ih => exact ih s (u s)

/-- A sequence succeeds exactly when both parts do, one after the other. -/
theorem run_bind_ok {p : Prog σ ε α} {f : α → Prog σ ε β} {s s' : σ} {b : β} :
    (p >>= f).run s = (.ok b, s') ↔ ∃ a s₁, p.run s = (.ok a, s₁) ∧ (f a).run s₁ = (.ok b, s') := by
  rw [run_bind]
  rcases p.run s with ⟨e | a, s₁⟩
  · simp
  · constructor
    · exact fun h => ⟨a, s₁, rfl, h⟩
    · rintro ⟨_, _, ⟨⟩, h⟩
      exact h

theorem run_transaction_ok {p : Prog σ ε α} {s s' : σ} {a : α} :
    (transaction p).run s = (.ok a, s') ↔ p.run s = (.ok a, s') := by
  rw [transaction, run_call]
  rcases p.run s with ⟨e | b, s₁⟩ <;> simp

/-- The same for a computation in `Except`. -/
theorem bind_eq_ok {x : Except ε α} {f : α → Except ε β} {b : β} :
    (x >>= f) = .ok b ↔ ∃ a, x = .ok a ∧ f a = .ok b := by
  cases x with
  | error e =>
    constructor
    · intro h
      cases h
    · rintro ⟨_, ⟨⟩, _⟩
  | ok a =>
    constructor
    · exact fun h => ⟨a, rfl, h⟩
    · rintro ⟨_, ⟨⟩, h⟩
      exact h

/-- A test that throws is passed exactly when its condition is false. -/
theorem run_guard_ok {c : Prop} [Decidable c] {e : ε} {p : Prog σ ε α} {s s' : σ} {a : α} :
    (if c then throw e else p : Prog σ ε α).run s = (.ok a, s') ↔ ¬c ∧ p.run s = (.ok a, s') := by
  split <;> simp_all

/-- The program alone ends with a value. -/
def Succeeds (p : Prog σ ε α) (s : σ) : Prop := ∃ a s', p.run s = (.ok a, s')

theorem succeeds_pure (a : α) (s : σ) : (pure a : Prog σ ε α).Succeeds s := ⟨a, s, rfl⟩

/-- What succeeds first, and what succeeds after it. -/
theorem succeeds_bind {p : Prog σ ε α} {f : α → Prog σ ε β} {s s₁ : σ} {a : α} (h : p.run s = (.ok a, s₁))
    (hf : (f a).Succeeds s₁) : (p >>= f).Succeeds s := by
  obtain ⟨b, s', hb⟩ := hf
  exact ⟨b, s', run_bind_ok.mpr ⟨a, s₁, h, hb⟩⟩

/-- What is done with the result makes no difference. -/
theorem Succeeds.map {p : Prog σ ε α} {s : σ} (h : p.Succeeds s) (f : α → β) :
    (p >>= fun a => (pure (f a) : Prog σ ε β)).Succeeds s := by
  obtain ⟨a, s', ha⟩ := h
  exact succeeds_bind ha (succeeds_pure _ _)

/-- A test that throws is passed. -/
theorem succeeds_guard {c : Prop} [Decidable c] {e : ε} {p : Prog σ ε α} {s : σ} (hc : ¬c) (h : p.Succeeds s) :
    (if c then throw e else p : Prog σ ε α).Succeeds s := by
  rw [if_neg hc]
  exact h

/-! ### What a program leaves of the state -/

/-- The program changes nothing. -/
def ReadOnly (p : Prog σ ε α) : Prop := ∀ s, (p.run s).2 = s

/-- The program changes nothing if it fails. -/
def Atomic (p : Prog σ ε α) : Prop := ∀ s e s', p.run s = (.error e, s') → s' = s

theorem readOnly_pure (a : α) : ReadOnly (pure a : Prog σ ε α) := fun _ => rfl

theorem readOnly_throw (e : ε) : ReadOnly (throw e : Prog σ ε α) := fun _ => rfl

theorem readOnly_read (f : σ → α) : ReadOnly (read f : Prog σ ε α) := fun _ => rfl

theorem ReadOnly.bind {p : Prog σ ε α} {f : α → Prog σ ε β} (hp : ReadOnly p) (hf : ∀ a, ReadOnly (f a)) :
    ReadOnly (p >>= f) := by
  intro s
  have h := hp s
  rw [run_bind]
  rcases hr : p.run s with ⟨e | a, s₁⟩ <;> rw [hr] at h
  · exact h
  · exact (hf a s₁).trans h

theorem ReadOnly.ite {c : Prop} [Decidable c] {p q : Prog σ ε α} (hp : ReadOnly p) (hq : ReadOnly q) :
    ReadOnly (if c then p else q) := by
  split
  · exact hp
  · exact hq

theorem ReadOnly.atomic {p : Prog σ ε α} (h : ReadOnly p) : Atomic p := by
  intro s e s' hr
  have := h s
  rw [hr] at this
  exact this

theorem atomic_call (f : σ → Except ε (α × σ)) : Atomic (call f) := by
  intro s e s' h
  rw [run_call] at h
  cases hf : f s with
  | error e' =>
    rw [hf, Prod.mk.injEq] at h
    exact h.2.symm
  | ok a =>
    rw [hf] at h
    cases h

/-- Looking first and acting atomically afterwards is atomic. -/
theorem ReadOnly.bind_atomic {p : Prog σ ε α} {f : α → Prog σ ε β} (hp : ReadOnly p)
    (hf : ∀ a, Atomic (f a)) : Atomic (p >>= f) := by
  intro s e s' h
  have hs := hp s
  rw [run_bind] at h
  rcases hr : p.run s with ⟨e' | a, s₁⟩
  · rw [hr] at h hs
    rw [← hs]
    exact (Prod.mk.inj h).2.symm
  · rw [hr] at h hs
    simp only at h hs
    rw [← hs]
    exact hf a s₁ e s' h

/-- What follows an atomic program keeps it atomic if it cannot fail. -/
theorem Atomic.bind_total {p : Prog σ ε α} {f : α → Prog σ ε β} (hp : Atomic p)
    (hf : ∀ a s, ∃ b s', (f a).run s = (.ok b, s')) : Atomic (p >>= f) := by
  intro s e s' h
  rw [run_bind] at h
  rcases hr : p.run s with ⟨e' | a, s₁⟩
  · rw [hr] at h
    exact (Prod.mk.inj h).2 ▸ hp s e' s₁ hr
  · rw [hr] at h
    obtain ⟨b, s₂, hb⟩ := hf a s₁
    simp only [hb] at h
    cases h

theorem Atomic.ite {c : Prop} [Decidable c] {p q : Prog σ ε α} (hp : Atomic p) (hq : Atomic q) :
    Atomic (if c then p else q) := by
  split
  · exact hp
  · exact hq

/-! ### Programs that see the same in two states -/

/-- From both states the program makes the same calls, which change nothing, and what
they return is the same. -/
def Agrees (s s' : σ) : Prog σ ε α → Prop
  | .ret _ => True
  | .fail _ => True
  | .act u k => u s = s ∧ u s' = s' ∧ k s = k s' ∧ (k s).Agrees s s'

section Agrees

variable {s s' : σ}

theorem agrees_pure (a : α) : (pure a : Prog σ ε α).Agrees s s' := trivial

theorem agrees_throw (e : ε) : (throw e : Prog σ ε α).Agrees s s' := trivial

theorem agrees_read {f : σ → α} (h : f s = f s') : (read f : Prog σ ε α).Agrees s s' :=
  ⟨rfl, rfl, congrArg Prog.ret h, trivial⟩

theorem Agrees.bind {p : Prog σ ε α} {f : α → Prog σ ε β} (hp : p.Agrees s s') (hf : ∀ a, (f a).Agrees s s') :
    (p >>= f).Agrees s s' := by
  induction p with
  | ret a => exact hf a
  | fail e => trivial
  | act u k ih => exact ⟨hp.1, hp.2.1, congrArg (Prog.bind · f) hp.2.2.1, ih s hp.2.2.2⟩

/-- A query whose answer is the same in both states, and what is done with that answer. -/
theorem agrees_read_bind {f : σ → α} {k : α → Prog σ ε β} (h : f s = f s') (hk : (k (f s)).Agrees s s') :
    (read f >>= k).Agrees s s' :=
  ⟨rfl, rfl, congrArg k h, hk⟩

theorem Agrees.ite {c : Prop} [Decidable c] {p q : Prog σ ε α} (hp : p.Agrees s s') (hq : q.Agrees s s') :
    (if c then p else q).Agrees s s' := by
  split
  · exact hp
  · exact hq

/-- The result is the same from both states. -/
theorem Agrees.run {p : Prog σ ε α} (h : p.Agrees s s') : (p.run s).1 = (p.run s').1 := by
  induction p with
  | ret a => rfl
  | fail e => rfl
  | act u k ih =>
    obtain ⟨hs, hs', hk, hrest⟩ := h
    have := ih s hrest
    rw [Prog.run, Prog.run, hs, hs', this, hk]

end Agrees

end Prog

/-! ### Requests one after another -/

section History

variable {σ ρ ε α : Type} (prog : ρ → Prog σ ε α)

/-- The state after a request. -/
def after (s : σ) (r : ρ) : σ := ((prog r).run s).2

/-- The request succeeds. -/
def Accepted (s : σ) (r : ρ) : Prop := ∃ a s', (prog r).run s = (.ok a, s')

/-- The state after a history of requests, the most recent first. -/
def history (s₀ : σ) : List ρ → σ
  | [] => s₀
  | r :: past => after prog (history s₀ past) r

theorem history_append (s₀ : σ) (later earlier : List ρ) :
    history prog s₀ (later ++ earlier) = history prog (history prog s₀ earlier) later := by
  induction later with
  | nil => rfl
  | cons r later ih => exact congrArg (after prog · r) ih

/-- Every request of the history met `C` in the state it found. -/
def Always (C : σ → ρ → Prop) (s₀ : σ) : List ρ → Prop
  | [] => True
  | r :: past => C (history prog s₀ past) r ∧ Always C s₀ past

instance (C : σ → ρ → Prop) [∀ s r, Decidable (C s r)] (s₀ : σ) : ∀ past, Decidable (Always prog C s₀ past)
  | [] => .isTrue trivial
  | r :: past =>
    have := instDecidableAlways C s₀ past
    inferInstanceAs (Decidable (C (history prog s₀ past) r ∧ Always prog C s₀ past))

/-- Every state of the history satisfies `P`. -/
def Throughout (P : σ → Prop) (s₀ : σ) : List ρ → Prop
  | [] => P s₀
  | r :: past => P (history prog s₀ (r :: past)) ∧ Throughout P s₀ past

/-- In the history, a `hit` has happened and no `stop` after it. -/
def Since (stop hit : σ → ρ → Prop) (s₀ : σ) : List ρ → Prop
  | [] => False
  | r :: past => hit (history prog s₀ past) r ∨
      (¬stop (history prog s₀ past) r ∧ Since stop hit s₀ past)

variable {prog}

theorem Since.mono {stop hit hit' : σ → ρ → Prop} {s₀ : σ} {past : List ρ} (h : Since prog stop hit s₀ past)
    (hmono : ∀ s r, hit s r → hit' s r) : Since prog stop hit' s₀ past := by
  induction past with
  | nil => exact h
  | cons r past ih => exact h.imp (hmono _ r) fun h => ⟨h.1, ih h.2⟩

/-- **Histories**: what holds at first and is kept by every request that meets the
condition holds after every history whose requests all met it. -/
theorem always_of_step {I : List ρ → σ → Prop} {C : σ → ρ → Prop} {s₀ : σ} (h₀ : I [] s₀)
    (hstep : ∀ past s r, I past s → C s r → s = history prog s₀ past → I (r :: past) (after prog s r)) :
    ∀ past, Always prog C s₀ past → I past (history prog s₀ past) := by
  intro past
  induction past with
  | nil => exact fun _ => h₀
  | cons r past ih => exact fun h => hstep past _ r (ih h.2) h.1 rfl

theorem always_congr {C C' : σ → ρ → Prop} (h : ∀ s r, C s r ↔ C' s r) (s₀ : σ) (past : List ρ) :
    Always prog C s₀ past ↔ Always prog C' s₀ past := by
  induction past with
  | nil => exact Iff.rfl
  | cons r past ih => exact and_congr (h _ r) ih

theorem Throughout.last {P : σ → Prop} {s₀ : σ} {past : List ρ} (h : Throughout prog P s₀ past) :
    P (history prog s₀ past) := by
  cases past with
  | nil => exact h
  | cons r past => exact h.1

/-- **What some requests break**: where a request breaks `P` exactly if it does not meet `C`,
the states of a history all satisfy `P` exactly if its requests all met `C`. -/
theorem throughout_iff_always {I P : σ → Prop} {C : σ → ρ → Prop} {s₀ : σ} (hI : ∀ past, I (history prog s₀ past))
    (h₀ : P s₀) (hstep : ∀ s r, I s → P s → (P (after prog s r) ↔ C s r)) :
    ∀ past, Throughout prog P s₀ past ↔ Always prog C s₀ past := by
  intro past
  induction past with
  | nil => exact ⟨fun _ => trivial, fun _ => h₀⟩
  | cons r past ih =>
    constructor
    · rintro ⟨hP, hpast⟩
      exact ⟨(hstep _ r (hI past) hpast.last).mp hP, ih.mp hpast⟩
    · rintro ⟨hC, hpast⟩
      have := ih.mpr hpast
      exact ⟨(hstep _ r (hI past) this.last).mpr hC, this⟩

/-- An invariant of the state alone. -/
theorem invariant_of_step {I : σ → Prop} {s₀ : σ} (h₀ : I s₀) (hstep : ∀ s r, I s → I (after prog s r)) :
    ∀ past, I (history prog s₀ past) := by
  intro past
  induction past with
  | nil => exact h₀
  | cons r past ih => exact hstep _ r ih

end History

end AuditSphere.Theory
