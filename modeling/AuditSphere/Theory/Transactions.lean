import AuditSphere.Theory.Seen

/-!
# Transactions under READ COMMITTED

A transaction is a program of statements. Each statement sees what is committed at that moment,
with what the transaction itself has written; others see nothing of it until the commit. The
writes are private until then: a statement is a call that changes nothing, and the commit makes
the writes once more on what is committed by then (`committed`).

Row locks make a statement wait whose row another transaction has written. Waiting only delays
a turn, so the orders of turns that a database admits are among those considered here. In the
others a commit may find that a write is no longer possible; the transaction is then undone, as
it is when a statement fails.
-/

namespace AuditSphere.Theory

/-- A transaction on the committed state `δ`, that ends with a value or an error. -/
inductive Txn (δ ε α : Type) where
  /-- End with a value. -/
  | ret (a : α)
  /-- End with an error. -/
  | fail (e : ε)
  /-- One statement: what it writes, and how the transaction goes on from what it sees. -/
  | stmt (f : δ → Except ε δ) (next : δ → Txn δ ε α)

namespace Txn

variable {δ ε α β : Type}

/-- Run `t`, then `f` on its value. -/
def bind : Txn δ ε α → (α → Txn δ ε β) → Txn δ ε β
  | .ret a, f => f a
  | .fail e, _ => .fail e
  | .stmt g next, f => .stmt g fun v => (next v).bind f

instance : Monad (Txn δ ε) where
  pure := .ret
  bind := bind

/-- A statement that looks. -/
def query (f : δ → α) : Txn δ ε α := .stmt .ok fun v => .ret (f v)

/-- A statement that writes. -/
def exec (f : δ → Except ε (α × δ)) : Txn δ ε α :=
  .stmt (fun v => (f v).map Prod.snd) fun v => match f v with
    | .ok (a, _) => .ret a
    | .error e => .fail e

theorem exec_bind_ret (f : δ → Except ε (α × δ)) : exec f >>= ret = exec f := by
  refine congrArg (stmt fun v => (f v).map Prod.snd) (funext fun v => ?_)
  dsimp only
  rcases f v with e | ⟨a, v'⟩ <;> rfl

/-- The statements one by one, after those that have written `w`, and then the commit. -/
def after (w : δ → Except ε δ) : Txn δ ε α → Prog δ ε α
  | .ret a => .call fun s => (w s).map fun s' => (a, s')
  | .fail e => .fail e
  | .stmt f next => .call (fun s => (w s).bind fun v => (f v).map fun _ => (v, s)) >>= fun v =>
      (next v).after fun s => (w s).bind f

/-- The transaction: its statements, and its commit. -/
def committed (t : Txn δ ε α) : Prog δ ε α := t.after .ok

/-- A statement that fails at once leaves nothing of the transaction. -/
theorem run_committed_of_error {f : δ → Except ε (α × δ)} {next : α → Txn δ ε β} {s : δ} {e : ε} (h : f s = .error e) :
    (exec f >>= next).committed.run s = (.error e, s) := by
  refine Prog.run_bind_of_error (Prog.run_call_of_error ?_) _
  simp [Except.bind, Except.map, h]

/-! ### The calls of a transaction -/

section Along

variable {P : List δ → δ → δ → Prop} {w : δ → Except ε δ} {l : List δ}

/-- What is written after `w`. -/
def followed (w : δ → Except ε δ) (f : δ → Except ε (α × δ)) (s : δ) : Except ε δ :=
  (w s).bind fun v => (f v).map Prod.snd

theorem followed_ok {f : δ → Except ε (α × δ)} {s s' : δ} (h : followed w f s = .ok s') :
    ∃ v a, w s = .ok v ∧ f v = .ok (a, s') := by
  unfold followed at h
  cases hw : w s with
  | error e =>
    rw [hw] at h
    cases h
  | ok v =>
    rw [hw] at h
    cases hf : f v with
    | error e => simp [Except.bind, Except.map, hf] at h
    | ok r =>
      obtain ⟨a, v'⟩ := r
      simp only [Except.bind, Except.map, hf, Except.ok.injEq] at h
      exact ⟨v, a, rfl, h ▸ hf⟩

/-- A statement that writes changes nothing yet, and others may come before the next one. -/
theorem along_exec {Q : Except ε β → List δ → Prop} {f : δ → Except ε (α × δ)} {next : α → Txn δ ε β}
    (hsame : ∀ s, P l s s) (hfail : ∀ s e, Q (.error e) (s :: l))
    (hnext : ∀ s v a v', w s = .ok v → f v = .ok (a, v') → ((next a).after (followed w f)).Along P Q (s :: l)) :
    ((exec f >>= next).after w).Along P Q l := by
  refine Prog.along_call_bind (fun s e _ => ⟨hsame s, hfail s e⟩) ?_
  intro s v s' hcall
  cases hw : w s with
  | error e =>
    rw [hw] at hcall
    cases hcall
  | ok v₁ =>
    rw [hw] at hcall
    cases hf : f v₁ with
    | error e =>
      simp [Except.bind, Except.map, hf] at hcall
    | ok r =>
      obtain ⟨a, v'⟩ := r
      simp only [Except.bind, Except.map, hf, Except.ok.injEq, Prod.mk.injEq] at hcall
      obtain ⟨rfl, rfl⟩ := hcall
      refine ⟨hsame s, ?_⟩
      simp only [hf]
      exact hnext s v₁ a v' hw hf

/-- A statement that looks sees what is committed and what the transaction has written. -/
theorem along_query {Q : Except ε β → List δ → Prop} {f : δ → α} {next : α → Txn δ ε β}
    (hsame : ∀ s, P l s s) (hfail : ∀ s e, Q (.error e) (s :: l))
    (hnext : ∀ s v, w s = .ok v → ((next (f v)).after w).Along P Q (s :: l)) :
    ((query f >>= next).after w).Along P Q l := by
  have hw : (fun s => (w s).bind .ok) = w := funext fun s => by cases w s <;> rfl
  refine Prog.along_call_bind (fun s e _ => ⟨hsame s, hfail s e⟩) ?_
  intro s v s' hcall
  cases hv : w s with
  | error e =>
    rw [hv] at hcall
    cases hcall
  | ok v₁ =>
    rw [hv] at hcall
    cases hcall
    refine ⟨hsame s, ?_⟩
    rw [hw]
    exact hnext s v hv

/-- The commit makes the writes, or nothing. -/
theorem along_commit {Q : Except ε β → List δ → Prop} {a : β} (hsame : ∀ s, P l s s)
    (hfail : ∀ s e, Q (.error e) (s :: l)) (hcommit : ∀ s s', w s = .ok s' → P l s s' ∧ Q (.ok a) (s :: l)) :
    ((ret a : Txn δ ε β).after w).Along P Q l := by
  refine (Prog.along_call _ _).mpr fun s => ?_
  cases hw : w s with
  | error e => exact ⟨hsame s, hfail s e⟩
  | ok s' => exact hcommit s s' hw

end Along

/-! ### What a transaction writes -/

/-- Every statement writes within `F`. -/
def Writes (F : δ → δ → Prop) : Txn δ ε α → Prop
  | .ret _ | .fail _ => True
  | .stmt f next => (∀ v v', f v = .ok v' → F v v') ∧ ∀ v, (next v).Writes F

theorem writes_exec {F : δ → δ → Prop} {f : δ → Except ε (α × δ)} (h : ∀ v a v', f v = .ok (a, v') → F v v') :
    (exec f).Writes F := by
  constructor
  · intro v v' hv
    dsimp only at hv
    cases hf : f v with
    | error e =>
      rw [hf] at hv
      cases hv
    | ok r =>
      rw [hf] at hv
      cases hv
      exact h v r.1 r.2 hf
  · intro v
    dsimp only
    split <;> trivial

theorem writes_query {F : δ → δ → Prop} (hrefl : ∀ v, F v v) (f : δ → α) : (query f : Txn δ ε α).Writes F :=
  ⟨fun v v' h => by cases h; exact hrefl v, fun _ => trivial⟩

theorem Writes.bind {F : δ → δ → Prop} {t : Txn δ ε α} {f : α → Txn δ ε β} (ht : t.Writes F)
    (hf : ∀ a, (f a).Writes F) : (t >>= f).Writes F := by
  induction t with
  | ret a => exact hf a
  | fail e => trivial
  | stmt g next ih => exact ⟨ht.1, fun v => ih v (ht.2 v)⟩

theorem Writes.ite {F : δ → δ → Prop} {c : Prop} [Decidable c] {t t' : Txn δ ε α} (ht : t.Writes F)
    (ht' : t'.Writes F) : (if c then t else t').Writes F := by
  split
  · exact ht
  · exact ht'

theorem Writes.after {F : δ → δ → Prop} (hrefl : ∀ v, F v v) (htrans : ∀ a b c, F a b → F b c → F a c)
    {t : Txn δ ε α} (ht : t.Writes F) {w : δ → Except ε δ} (hw : ∀ s s', w s = .ok s' → F s s') (l : List δ) :
    (t.after w).Along (fun _ => F) (fun _ _ => True) l := by
  induction t generalizing w l with
  | ret a => exact along_commit hrefl (fun _ _ => trivial) fun s s' hs => ⟨hw s s' hs, trivial⟩
  | fail e => trivial
  | stmt f next ih =>
    refine Prog.along_call_bind (fun s _ _ => ⟨hrefl s, trivial⟩) fun s v s' hs => ⟨?_, ?_⟩
    · -- a statement shows the transaction what it has written, and changes nothing yet
      obtain ⟨v', -, hs⟩ := Prog.bind_eq_ok.mp hs
      cases hf : f v' with
      | error e =>
        rw [hf] at hs
        cases hs
      | ok v'' =>
        rw [hf] at hs
        cases hs
        exact hrefl s
    · refine ih v (ht.2 v) (fun s s' hs => ?_) (s :: l)
      obtain ⟨v', hv', hs⟩ := Prog.bind_eq_ok.mp hs
      exact htrans _ _ _ (hw s v' hv') (ht.1 v' s' hs)

/-- A transaction whose statements write within `F` does so. -/
theorem Writes.committed {F : δ → δ → Prop} (hrefl : ∀ v, F v v) (htrans : ∀ a b c, F a b → F b c → F a c)
    {t : Txn δ ε α} (ht : t.Writes F) (l : List δ) : t.committed.Along (fun _ => F) (fun _ _ => True) l :=
  ht.after hrefl htrans (fun s s' hs => by cases hs; exact hrefl s) l

end Txn

end AuditSphere.Theory
