import AuditSphere.Theory.Interleaving

/-!
# Programs that are stopped

A program run alone may be stopped after any number of its calls; what it leaves behind is the
state at that moment (`stopped`). A call that fails of itself, as when the connection is lost, is
such a stop, unless the program catches the error.

What a program does to the data `dom` it may also write down, in a `log` that grows. All is well
after a stop if it has done nothing and logged nothing, or done everything and logged it
(`Agreed`). Programs that look, make one change, log it with the next call and then tell of it
are `Journaled`: all is well after every stop but one, the stop between the change and its
record (`Journaled.one_gap`).
-/

namespace AuditSphere.Theory

namespace Prog

variable {σ ε α β : Type}

/-! ### Stops -/

/-- The state that a program leaves behind when it is stopped after so many calls. -/
def stopped : ℕ → Prog σ ε α → σ → σ
  | n + 1, .act u k, s => stopped n (k s) (u s)
  | _, _, s => s

@[simp] theorem stopped_zero (p : Prog σ ε α) (s : σ) : p.stopped 0 s = s := by
  cases p <;> rfl

theorem stopped_ret (n : ℕ) (a : α) (s : σ) : (ret a : Prog σ ε α).stopped n s = s := by
  cases n <;> rfl

theorem stopped_fail (n : ℕ) (e : ε) (s : σ) : (fail e : Prog σ ε α).stopped n s = s := by
  cases n <;> rfl

/-! ### Journaled programs -/

/-- Every call of the program, from whatever state, does what `F` says. -/
def Calls (F : σ → σ → Prop) : Prog σ ε α → Prop
  | .ret _ => True
  | .fail _ => True
  | .act u k => ∀ s, F s (u s) ∧ (k s).Calls F

section Calls

variable {F : σ → σ → Prop}

theorem calls_pure (a : α) : (pure a : Prog σ ε α).Calls F := trivial

theorem calls_throw (e : ε) : (throw e : Prog σ ε α).Calls F := trivial

theorem calls_read (f : σ → α) (hF : ∀ s, F s s) : (read f : Prog σ ε α).Calls F := fun s => ⟨hF s, trivial⟩

theorem calls_call {f : σ → Except ε (α × σ)} (hF : ∀ s, F s s) (h : ∀ s a s', f s = .ok (a, s') → F s s') :
    (call f).Calls F := by
  intro s
  dsimp only
  rcases hf : f s with e | ⟨a, s'⟩
  · exact ⟨hF s, trivial⟩
  · exact ⟨h s a s' hf, trivial⟩

theorem Calls.bind {p : Prog σ ε α} {f : α → Prog σ ε β} (hp : p.Calls F) (hf : ∀ a, (f a).Calls F) :
    (p >>= f).Calls F := by
  induction p with
  | ret a => exact hf a
  | fail e => trivial
  | act u k ih => exact fun s => ⟨(hp s).1, ih s (hp s).2⟩

theorem Calls.ite {c : Prop} [Decidable c] {p q : Prog σ ε α} (hp : p.Calls F) (hq : q.Calls F) :
    (if c then p else q).Calls F := by
  split
  · exact hp
  · exact hq

theorem Calls.mono {F' : σ → σ → Prop} {p : Prog σ ε α} (hp : p.Calls F) (hF : ∀ a b, F a b → F' a b) : p.Calls F' := by
  induction p with
  | ret a => trivial
  | fail e => trivial
  | act u k ih => exact fun s => ⟨hF _ _ (hp s).1, ih s (hp s).2⟩

/-- Run alone, the program changes the state as its calls do. -/
theorem Calls.run {p : Prog σ ε α} (hp : p.Calls F) (hrefl : ∀ s, F s s) (htrans : ∀ a b c, F a b → F b c → F a c)
    (s : σ) : F s (p.run s).2 := by
  induction p generalizing s with
  | ret a => exact hrefl s
  | fail e => exact hrefl s
  | act u k ih => exact htrans _ _ _ (hp s).1 (ih s (hp s).2 (u s))

/-- What a program meets whatever others do holds of its calls. -/
theorem calls_of_meets {Q : σ → Except ε α → σ → Prop} {p : Prog σ ε α}
    (h : ∀ s, p.Meets (fun _ _ => True) F (Q s) s) : p.Calls F := by
  have hrest : ∀ {Q : Except ε α → σ → Prop} {p : Prog σ ε α} {s : σ}, p.Meets (fun _ _ => True) F Q s → p.Calls F := by
    intro Q p
    induction p with
    | ret a => exact fun _ => trivial
    | fail e => exact fun _ => trivial
    | act u k ih => exact fun h s => ⟨(h s trivial).1, ih s (h s trivial).2⟩
  cases p with
  | ret a => trivial
  | fail e => trivial
  | act u k => exact fun s => ⟨(h s s trivial).1, hrest (h s s trivial).2⟩

end Calls

section Journaled

variable {δ ρ : Type} (dom : σ → δ) (log : σ → List ρ)

/-- The program neither changes nor logs anything. -/
def Telling (p : Prog σ ε α) : Prop := p.Calls fun a b => dom b = dom a ∧ log b = log a

/-- The program logs something, and is done. -/
def Recording : Prog σ ε α → Prop
  | .ret _ => False
  | .fail _ => False
  | .act u k => ∀ s, (dom (u s) = dom s ∧ (log s).length < (log (u s)).length) ∧ (k s).Telling dom log

/-- The program looks; if it makes a change, it logs it with the next call, and is done. -/
def Journaled : Prog σ ε α → Prop
  | .ret _ => True
  | .fail _ => True
  | .act u k => ∀ s, log (u s) = log s ∧ (dom (u s) = dom s ∧ (k s).Journaled ∨ (k s).Recording dom log)

variable {dom log} {p : Prog σ ε α} {f : α → Prog σ ε β}

theorem Telling.journaled (h : p.Telling dom log) : p.Journaled dom log := by
  induction p with
  | ret a => trivial
  | fail e => trivial
  | act u k ih => exact fun s => ⟨(h s).1.2, .inl ⟨(h s).1.1, ih s (h s).2⟩⟩

theorem telling_of_looks (h : p.Calls Eq) : p.Telling dom log := by
  refine h.mono fun a b heq => ?_
  rw [heq]
  exact ⟨rfl, rfl⟩

theorem Telling.journaled_bind (hp : p.Telling dom log) (hf : ∀ a, (f a).Journaled dom log) :
    (p >>= f).Journaled dom log := by
  induction p with
  | ret a => exact hf a
  | fail e => trivial
  | act u k ih => exact fun s => ⟨(hp s).1.2, .inl ⟨(hp s).1.1, ih s (hp s).2⟩⟩

theorem Journaled.ite {c : Prop} [Decidable c] {p q : Prog σ ε α} (hp : p.Journaled dom log) (hq : q.Journaled dom log) :
    (if c then p else q).Journaled dom log := by
  split
  · exact hp
  · exact hq

/-- The change, and its record; a change that fails may be tried again. -/
theorem journaled_catching_bind {g : σ → Except ε (α × σ)} {h : ε → Prog σ ε α}
    (hg : ∀ s a s', g s = .ok (a, s') → log s' = log s) (hf : ∀ a, (f a).Recording dom log)
    (hh : ∀ e, (h e >>= f).Journaled dom log) : ((call g).catching h >>= f).Journaled dom log := by
  intro s
  dsimp only
  rcases hcall : g s with e | ⟨a, s'⟩
  · exact ⟨rfl, .inl ⟨rfl, hh e⟩⟩
  · exact ⟨hg s a s' hcall, .inr (hf a)⟩

theorem journaled_call_bind {g : σ → Except ε (α × σ)} (hg : ∀ s a s', g s = .ok (a, s') → log s' = log s)
    (hf : ∀ a, (f a).Recording dom log) : (call g >>= f).Journaled dom log := by
  intro s
  dsimp only
  rcases hcall : g s with e | ⟨a, s'⟩
  · exact ⟨rfl, .inl ⟨rfl, trivial⟩⟩
  · exact ⟨hg s a s' hcall, .inr (hf a)⟩

theorem recording_write_bind {u : σ → σ} {f : Unit → Prog σ ε β} (hdom : ∀ s, dom (u s) = dom s)
    (hlog : ∀ s, (log s).length < (log (u s)).length) (hf : (f ()).Telling dom log) :
    (write u >>= f).Recording dom log :=
  fun s => ⟨⟨hdom s, hlog s⟩, hf⟩

theorem Recording.bind (hp : p.Recording dom log) (hf : ∀ a, (f a).Telling dom log) : (p >>= f).Recording dom log := by
  cases p with
  | ret a => exact hp.elim
  | fail e => exact hp.elim
  | act u k => exact fun s => ⟨(hp s).1, (hp s).2.bind hf⟩

/-- What follows only tells of it. -/
theorem Journaled.bind (hp : p.Journaled dom log) (hf : ∀ a, (f a).Telling dom log) : (p >>= f).Journaled dom log := by
  induction p with
  | ret a => exact (hf a).journaled
  | fail e => trivial
  | act u k ih => exact fun s => ⟨(hp s).1, (hp s).2.imp (fun h => ⟨h.1, ih s h.2⟩) fun h => h.bind hf⟩

/-- What tells of something only leaves the data and the log, wherever it is stopped. -/
theorem Telling.stopped_eq {s : σ} (h : p.Telling dom log) (n : ℕ) :
    dom (p.stopped n s) = dom s ∧ log (p.stopped n s) = log s := by
  induction p generalizing n s with
  | ret a => rw [stopped_ret]; exact ⟨rfl, rfl⟩
  | fail e => rw [stopped_fail]; exact ⟨rfl, rfl⟩
  | act u k ih =>
    cases n with
    | zero => exact ⟨rfl, rfl⟩
    | succ n =>
      obtain ⟨⟨hdom, hlog⟩, hrest⟩ := h s
      obtain ⟨hdom', hlog'⟩ := ih s hrest n (s := u s)
      exact ⟨hdom'.trans hdom, hlog'.trans hlog⟩

theorem Telling.run_eq {s : σ} (h : p.Telling dom log) : dom (p.run s).2 = dom s ∧ log (p.run s).2 = log s := by
  induction p generalizing s with
  | ret a => exact ⟨rfl, rfl⟩
  | fail e => exact ⟨rfl, rfl⟩
  | act u k ih =>
    obtain ⟨⟨hdom, hlog⟩, hrest⟩ := h s
    obtain ⟨hdom', hlog'⟩ := ih s hrest (s := u s)
    exact ⟨hdom'.trans hdom, hlog'.trans hlog⟩

variable (dom log) in
/-- After the stop nothing is done and nothing logged, or everything is done and it is logged. -/
def Agreed (n : ℕ) (p : Prog σ ε α) (s : σ) : Prop :=
  (dom (p.stopped n s) = dom s ∧ log (p.stopped n s) = log s) ∨
    (dom (p.stopped n s) = dom (p.run s).2 ∧ log (p.stopped n s) ≠ log s)

/-- **The gap**: a journaled program changes nothing, and all is well wherever it is stopped; or it logs its change, and
all is well after every stop but one. -/
theorem Journaled.one_gap (h : p.Journaled dom log) (s : σ) :
    (dom (p.run s).2 = dom s ∧ ∀ n, Agreed dom log n p s) ∨
      (dom (p.run s).2 ≠ dom s ∧ log (p.run s).2 ≠ log s ∧ ∃ gap, ∀ n, Agreed dom log n p s ↔ n ≠ gap) := by
  induction p generalizing s with
  | ret a => exact .inl ⟨rfl, fun n => .inl (by rw [stopped_ret]; exact ⟨rfl, rfl⟩)⟩
  | fail e => exact .inl ⟨rfl, fun n => .inl (by rw [stopped_fail]; exact ⟨rfl, rfl⟩)⟩
  | act u k ih =>
    have hstart : Agreed dom log 0 (act u k) s := .inl ⟨rfl, rfl⟩
    obtain ⟨hlog, ⟨hdom, hrest⟩ | hrecord⟩ := h s
    · -- a look
      have hlater (n : ℕ) : Agreed dom log (n + 1) (act u k) s ↔ Agreed dom log n (k s) (u s) := by
        unfold Agreed
        rw [hdom, hlog]
        rfl
      have hrun : dom ((act u k).run s).2 = dom ((k s).run (u s)).2 := rfl
      have hrunLog : log ((act u k).run s).2 = log ((k s).run (u s)).2 := rfl
      rw [hrun, hrunLog, ← hdom, ← hlog]
      refine (ih s hrest (u s)).imp (And.imp_right fun hall n => ?_) fun ⟨hchanged, hlogged, gap, hgap⟩ =>
        ⟨hchanged, hlogged, gap + 1, fun n => ?_⟩
      · cases n with
        | zero => exact hstart
        | succ n => exact (hlater n).mpr (hall n)
      · cases n with
        | zero => exact iff_of_true hstart (by omega)
        | succ n => rw [hlater, hgap, Ne, Ne, Nat.add_right_cancel_iff]
    · -- the change, and its record
      obtain ⟨u', k', hk⟩ : ∃ u' k', k s = act u' k' := by
        cases hk : k s with
        | ret a => rw [hk] at hrecord; exact hrecord.elim
        | fail e => rw [hk] at hrecord; exact hrecord.elim
        | act u' k' => exact ⟨u', k', rfl⟩
      rw [hk] at hrecord
      obtain ⟨⟨hkept, hlonger⟩, htelling⟩ := hrecord (u s)
      have hrun : ((act u k).run s).2 = ((k' (u s)).run (u' (u s))).2 := by
        show ((k s).run (u s)).2 = _
        rw [hk]
        rfl
      obtain ⟨hrunDom, hrunLog⟩ := htelling.run_eq (s := u' (u s))
      have hlogged : log (u' (u s)) ≠ log s := fun heq => by
        rw [heq, hlog] at hlonger
        exact Nat.lt_irrefl _ hlonger
      have hend : dom ((act u k).run s).2 = dom (u s) := by rw [hrun, hrunDom, hkept]
      have hafter (n : ℕ) : Agreed dom log (n + 2) (act u k) s := by
        have hstop : (act u k).stopped (n + 2) s = (k' (u s)).stopped n (u' (u s)) := by
          show (k s).stopped (n + 1) (u s) = _
          rw [hk]
          rfl
        obtain ⟨hstopDom, hstopLog⟩ := htelling.stopped_eq n (s := u' (u s))
        refine .inr ⟨?_, ?_⟩
        · rw [hstop, hstopDom, hkept, hend]
        · rw [hstop, hstopLog]
          exact hlogged
      have hbetween : Agreed dom log 1 (act u k) s ↔ dom (u s) = dom s := by
        have hstop : (act u k).stopped 1 s = u s := stopped_zero (k s) (u s)
        unfold Agreed
        rw [hstop, hlog]
        simp
      by_cases hsame : dom (u s) = dom s
      · refine .inl ⟨hend.trans hsame, fun n => ?_⟩
        rcases n with _ | _ | n
        · exact hstart
        · exact hbetween.mpr hsame
        · exact hafter n
      · refine .inr ⟨fun h => hsame (hend.symm.trans h), ?_, 1, fun n => ?_⟩
        · rw [hrun, hrunLog]
          exact hlogged
        · rcases n with _ | _ | n
          · exact iff_of_true hstart (by omega)
          · exact iff_of_false (fun h => hsame (hbetween.mp h)) (by omega)
          · exact iff_of_true (hafter n) (by omega)

end Journaled

end Prog

end AuditSphere.Theory
