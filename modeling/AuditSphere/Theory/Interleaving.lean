import AuditSphere.Theory.Program
import Mathlib.Data.List.Basic

/-!
# Programs that interleave

Requests start at any time and their programs take turns, one atomic call a
turn, in any order (`interleave`). What a request may rely on and what it
guarantees are relations between the state before and after a call: a program
`Meets` its guarantee from a state if every call it makes is allowed by the
guarantee, as long as the calls made by others in between are among those it
relies on.

`RelyGuarantee` collects what is to be shown of each request by itself, and of
each guarantee against each rely; `RelyGuarantee.sound` and `RelyGuarantee.turn`
say what follows for every interleaving of any number of requests.
-/

namespace AuditSphere.Theory

namespace Prog

variable {σ ε α β : Type}

/-- From `s` on, every call of the program is one that `G` allows, and it ends as
`Q` says, while others change the state between its calls only as `R` says. -/
def Meets (R G : σ → σ → Prop) (Q : Except ε α → σ → Prop) : Prog σ ε α → σ → Prop
  | .ret a, s => Q (.ok a) s
  | .fail e, s => Q (.error e) s
  | .act u k, s => ∀ s', R s s' → G s' (u s') ∧ (k s').Meets R G Q (u s')

variable {R G : σ → σ → Prop} {Q Q' : Except ε α → σ → Prop}

@[simp] theorem meets_pure (a : α) (s : σ) : (pure a : Prog σ ε α).Meets R G Q s ↔ Q (.ok a) s := Iff.rfl

@[simp] theorem meets_throw (e : ε) (s : σ) : (throw e : Prog σ ε α).Meets R G Q s ↔ Q (.error e) s :=
  Iff.rfl

@[simp] theorem meets_ite (c : Prop) [Decidable c] (p q : Prog σ ε α) (s : σ) :
    (if c then p else q).Meets R G Q s ↔ if c then p.Meets R G Q s else q.Meets R G Q s := by
  split <;> rfl

@[simp] theorem meets_call (f : σ → Except ε (α × σ)) (s : σ) :
    (call f).Meets R G Q s ↔ ∀ s', R s s' → match f s' with
      | .ok (a, s'') => G s' s'' ∧ Q (.ok a) s''
      | .error e => G s' s' ∧ Q (.error e) s' := by
  simp only [call, Meets]
  refine forall_congr' fun s' => imp_congr_right fun _ => ?_
  rcases f s' with e | ⟨a, s''⟩ <;> rfl

@[simp] theorem meets_read (f : σ → α) (s : σ) :
    (read f : Prog σ ε α).Meets R G Q s ↔ ∀ s', R s s' → G s' s' ∧ Q (.ok (f s')) s' :=
  meets_call _ _

/-- A sequence: the second part starts in whatever state the first one ends in. -/
@[simp] theorem meets_bind {Q : Except ε β → σ → Prop} (p : Prog σ ε α) (f : α → Prog σ ε β) (s : σ) :
    (p >>= f).Meets R G Q s ↔ p.Meets R G (fun r s' => match r with
      | .ok a => (f a).Meets R G Q s'
      | .error e => Q (.error e) s') s := by
  induction p generalizing s with
  | ret a => rfl
  | fail e => rfl
  | act u k ih => exact forall_congr' fun s' => imp_congr_right fun _ => and_congr_right fun _ => ih s' _

/-- A program whose errors are caught. -/
theorem meets_catching (p : Prog σ ε α) (h : ε → Prog σ ε α) (s : σ) :
    (p.catching h).Meets R G Q s ↔ p.Meets R G (fun r s' => match r with
      | .ok a => Q (.ok a) s'
      | .error e => (h e).Meets R G Q s') s := by
  induction p generalizing s with
  | ret a => rfl
  | fail e => rfl
  | act u k ih => exact forall_congr' fun s' => imp_congr_right fun _ => and_congr_right fun _ => ih s' _

/-- A call meets its guarantee if it does from every state it may find. -/
theorem meets_of_call {f : σ → Except ε (α × σ)} {s : σ}
    (h : ∀ s', R s s' → ∀ r s'', (call f).run s' = (r, s'') → G s' s'' ∧ Q r s'') : (call f).Meets R G Q s := by
  rw [meets_call]
  intro s' hs'
  rcases hf : f s' with e | ⟨a, s''⟩
  · exact h s' hs' (.error e) s' (by rw [run_call, hf])
  · exact h s' hs' (.ok a) s'' (by rw [run_call, hf])

/-- The same for a transaction. -/
theorem meets_of_transaction {p : Prog σ ε α} {s : σ}
    (h : ∀ s', R s s' → ∀ r s'', (transaction p).run s' = (r, s'') → G s' s'' ∧ Q r s'') :
    (transaction p).Meets R G Q s :=
  meets_of_call h

/-- A program that begins with a query goes on from the state it has looked at. -/
theorem meets_read_bind {Q : Except ε β → σ → Prop} (f : σ → α) (k : α → Prog σ ε β) (s : σ) :
    (read f >>= k).Meets R G Q s ↔ ∀ s', R s s' → G s' s' ∧ (k (f s')).Meets R G Q s' := by
  rw [meets_bind, meets_read]

theorem Meets.mono {p : Prog σ ε α} {s : σ} (h : p.Meets R G Q s) (hQ : ∀ r s', Q r s' → Q' r s') :
    p.Meets R G Q' s := by
  induction p generalizing s with
  | ret a => exact hQ _ _ h
  | fail e => exact hQ _ _ h
  | act u k ih => exact fun s' hs => ⟨(h s' hs).1, ih s' (h s' hs).2⟩

/-- A program that has not moved yet still meets its guarantee after a call of others. -/
theorem Meets.rely {p : Prog σ ε α} {s s₁ : σ} (htrans : ∀ a b c, R a b → R b c → R a c)
    (h : p.Meets R G (fun _ _ => True) s) (hs : R s s₁) : p.Meets R G (fun _ _ => True) s₁ := by
  cases p with
  | ret a => trivial
  | fail e => trivial
  | act u k => exact fun s' hs' => h s' (htrans _ _ _ hs hs')

/-- Run without interference, a program that meets its guarantee ends as promised. -/
theorem Meets.run (hR : ∀ s, R s s) {p : Prog σ ε α} {s : σ} (h : p.Meets R G Q s) :
    Q (p.run s).1 (p.run s).2 := by
  induction p generalizing s with
  | ret a => exact h
  | fail e => exact h
  | act u k ih => exact ih s (h s (hR s)).2

/-- Run without interference, it keeps what each call that it may make keeps. -/
theorem Meets.run_keeps {I : σ → Prop} {p : Prog σ ε α} {s : σ} (h : p.Meets R G Q s) (hR : ∀ s, R s s)
    (hG : ∀ a b, I a → G a b → I b) (hs : I s) : I (p.run s).2 := by
  induction p generalizing s with
  | ret a => exact hs
  | fail e => exact hs
  | act u k ih =>
    obtain ⟨hstep, hrest⟩ := h s (hR s)
    exact ih s hrest (hG _ _ hs hstep)

theorem Meets.mono_step {G' : σ → σ → Prop} {p : Prog σ ε α} {s : σ} (h : p.Meets R G Q s)
    (hG : ∀ a b, G a b → G' a b) : p.Meets R G' Q s := by
  induction p generalizing s with
  | ret a => exact h
  | fail e => exact h
  | act u k ih => exact fun s' hs => ⟨hG _ _ (h s' hs).1, ih s' (h s' hs).2⟩

theorem Meets.mono_rely {R' : σ → σ → Prop} {p : Prog σ ε α} {s : σ} (h : p.Meets R G Q s)
    (hR : ∀ a b, R' a b → R a b) : p.Meets R' G Q s := by
  induction p generalizing s with
  | ret a => exact h
  | fail e => exact h
  | act u k ih => exact fun s' hs => ⟨(h s' (hR _ _ hs)).1, ih s' (h s' (hR _ _ hs)).2⟩

/-- The program does not fail, and every call of it, from whatever state, changes the
state only as `F` says. -/
def Within (F : σ → σ → Prop) : Prog σ ε α → Prop
  | .ret _ => True
  | .fail _ => False
  | .act u k => ∀ s, F s (u s) ∧ (k s).Within F

variable {F : σ → σ → Prop}

theorem within_pure (a : α) : (pure a : Prog σ ε α).Within F := trivial

theorem within_read (f : σ → α) (hF : ∀ s, F s s) : (read f : Prog σ ε α).Within F :=
  fun s => ⟨hF s, trivial⟩

theorem within_write {f : σ → σ} (h : ∀ s, F s (f s)) : (write f : Prog σ ε Unit).Within F :=
  fun s => ⟨h s, trivial⟩

theorem Within.bind {p : Prog σ ε α} {f : α → Prog σ ε β} (hp : p.Within F) (hf : ∀ a, (f a).Within F) :
    (p >>= f).Within F := by
  induction p with
  | ret a => exact hf a
  | fail e => exact hp
  | act u k ih => exact fun s => ⟨(hp s).1, ih s (hp s).2⟩

theorem Within.ite {c : Prop} [Decidable c] {p q : Prog σ ε α} (hp : p.Within F) (hq : q.Within F) :
    (if c then p else q).Within F := by
  split
  · exact hp
  · exact hq

theorem Within.mono {F' : σ → σ → Prop} {p : Prog σ ε α} (hp : p.Within F) (hF : ∀ a b, F a b → F' a b) :
    p.Within F' := by
  induction p with
  | ret a => trivial
  | fail e => exact hp
  | act u k ih => exact fun s => ⟨hF _ _ (hp s).1, ih s (hp s).2⟩

/-- A program within `F` meets any guarantee that contains `F`, and ends with a value
in a state that it and the others have led to. -/
theorem Within.meets {p : Prog σ ε α} (h : p.Within F) (hG : ∀ a b, F a b → G a b) (hR : ∀ a b, F a b → R a b)
    (hrefl : ∀ a, R a a) (htrans : ∀ a b c, R a b → R b c → R a c) (s : σ) :
    p.Meets R G (fun r s' => (∃ a, r = .ok a) ∧ R s s') s := by
  suffices ∀ s₁, R s s₁ → p.Meets R G (fun r s' => (∃ a, r = .ok a) ∧ R s s') s₁ from this s (hrefl s)
  intro s₁ hs₁
  induction p generalizing s₁ with
  | ret a => exact ⟨⟨a, rfl⟩, hs₁⟩
  | fail e => exact h.elim
  | act u k ih =>
    intro s₂ hs₂
    have hF := (h s₂).1
    exact ⟨hG _ _ hF, ih s₂ (h s₂).2 _ (htrans _ _ _ hs₁ (htrans _ _ _ hs₂ (hR _ _ hF)))⟩

/-- Run alone it succeeds, and changes the state only as `F` says. -/
theorem Within.run {p : Prog σ ε α} (h : p.Within F) (hrefl : ∀ a, F a a) (htrans : ∀ a b c, F a b → F b c → F a c)
    (s : σ) : ∃ a s', p.run s = (.ok a, s') ∧ F s s' := by
  obtain ⟨⟨a, ha⟩, hF⟩ := (h.meets (fun _ _ => id) (fun _ _ => id) hrefl htrans s).run hrefl
  exact ⟨a, (p.run s).2, Prod.ext ha rfl, hF⟩

/-! ### Programs that check first -/

/-- Until it has made a certain check, the program relies on nothing but the invariant
`I`, and meets `G`; from the check on, or never, it relies on `R`. -/
def Guarded (I : σ → Prop) (R G : σ → σ → Prop) : Prog σ ε α → Prop
  | .ret _ => True
  | .fail _ => True
  | .act u k => ∀ s, I s → G s (u s) ∧ ((k s).Guarded I R G ∨ (k s).Meets R G (fun _ _ => True) (u s))

variable {I : σ → Prop}

/-- A program that meets its guarantee whatever others do has no check to make. -/
theorem Meets.guarded {p : Prog σ ε α} {s : σ} (h : p.Meets (fun _ _ => True) G Q s) : p.Guarded I R G := by
  induction p generalizing s with
  | ret a => trivial
  | fail e => trivial
  | act u k ih => exact fun s' _ => ⟨(h s' trivial).1, .inl (ih s' (h s' trivial).2)⟩

theorem guarded_of_meets {p : Prog σ ε α} (h : ∀ s, p.Meets (fun _ _ => True) G (fun _ _ => True) s) : p.Guarded I R G := by
  cases p with
  | ret a => trivial
  | fail e => trivial
  | act u k => exact fun s _ => ⟨(h s s trivial).1, .inl (h s s trivial).2.guarded⟩

theorem guarded_read_bind (f : σ → α) (k : α → Prog σ ε β) :
    (read f >>= k).Guarded I R G ↔
      ∀ s, I s → G s s ∧ ((k (f s)).Guarded I R G ∨ (k (f s)).Meets R G (fun _ _ => True) s) := Iff.rfl

/-- What is done with the result makes no difference. -/
theorem Guarded.map {p : Prog σ ε α} (h : p.Guarded I R G) (f : α → β) :
    (p >>= fun a => (pure (f a) : Prog σ ε β)).Guarded I R G := by
  induction p with
  | ret a => trivial
  | fail e => trivial
  | act u k ih =>
    intro s hs
    obtain ⟨hG, hk | hk⟩ := h s hs
    · exact ⟨hG, .inl (ih s hk)⟩
    · refine ⟨hG, .inr ((meets_bind _ _ _).mpr (hk.mono ?_))⟩
      rintro (e | a) s' - <;> trivial

/-- What is left of `p` after `n` calls, whatever states they found, may be `q`. -/
def Left : ℕ → Prog σ ε α → Prog σ ε α → Prop
  | 0, p, q => q = p
  | n + 1, p, q => ∃ u k s, p = .act u k ∧ Left n (k s) q

/-- What is done with the result makes no difference here either. -/
theorem Left.map {n : ℕ} {p : Prog σ ε α} {f : α → β} {q : Prog σ ε β}
    (h : Left n (p >>= fun a => (pure (f a) : Prog σ ε β)) q) :
    ∃ q', Left n p q' ∧ q = q' >>= fun a => (pure (f a) : Prog σ ε β) := by
  induction n generalizing p with
  | zero => exact ⟨p, rfl, h⟩
  | succ n ih =>
    obtain ⟨u, k, s, hact, hleft⟩ := h
    cases p with
    | ret a => cases hact
    | fail e => cases hact
    | act u' k' =>
      cases hact
      obtain ⟨q', hq', heq⟩ := ih hleft
      exact ⟨q', ⟨_, k', s, rfl, hq'⟩, heq⟩

end Prog

/-! ### Interleavings -/

/-- A request that has started, and what is left of its program. -/
structure Thread (ρ σ ε α : Type) where
  /-- The request. -/
  req : ρ
  /-- What is left to do. -/
  rest : Prog σ ε α

/-- The shared state and the requests that have started, in order of their start. -/
structure Config (ρ σ ε α : Type) where
  /-- The shared state. -/
  st : σ
  /-- The requests. -/
  threads : List (Thread ρ σ ε α)

/-- What can happen next. -/
inductive Event (ρ : Type) where
  /-- A request starts. -/
  | start (r : ρ)
  /-- The `i`-th request that started makes its next call. -/
  | turn (i : ℕ)

section Interleave

variable {ρ σ ε α : Type} (prog : ρ → Prog σ ε α)

/-- The configuration after an event; a request that has ended has no more turns. -/
def Config.next (c : Config ρ σ ε α) : Event ρ → Config ρ σ ε α
  | .start r => { c with threads := c.threads ++ [⟨r, prog r⟩] }
  | .turn i => match c.threads[i]? with
    | some ⟨r, .act u k⟩ => ⟨u c.st, c.threads.set i ⟨r, k c.st⟩⟩
    | _ => c

/-- The configuration after a list of events, the most recent first. -/
def interleave (s₀ : σ) : List (Event ρ) → Config ρ σ ε α
  | [] => ⟨s₀, []⟩
  | e :: past => (interleave s₀ past).next prog e

@[simp] theorem interleave_start_st (s₀ : σ) (r : ρ) (past : List (Event ρ)) :
    (interleave prog s₀ (.start r :: past)).st = (interleave prog s₀ past).st := rfl

@[simp] theorem interleave_start_threads (s₀ : σ) (r : ρ) (past : List (Event ρ)) :
    (interleave prog s₀ (.start r :: past)).threads = (interleave prog s₀ past).threads ++ [⟨r, prog r⟩] := rfl

/-- Every event met `C` in the configuration it found. -/
def Scheduled (C : Config ρ σ ε α → Event ρ → Prop) (s₀ : σ) : List (Event ρ) → Prop
  | [] => True
  | e :: past => C (interleave prog s₀ past) e ∧ Scheduled C s₀ past

/-- What makes an invariant `Inv` hold in every interleaving that meets `C`: each
request meets its guarantee under its rely, its guarantee keeps the invariant, and
what one request guarantees is what the others rely on that have made their check. -/
structure RelyGuarantee (C : Config ρ σ ε α → Event ρ → Prop) (Inv : σ → Prop)
    (R G : ρ → σ → σ → Prop) : Prop where
  /-- No change is among the relied-on changes. -/
  refl : ∀ r s, R r s s
  /-- So are several relied-on changes. -/
  trans : ∀ r a b c, R r a b → R r b c → R r a c
  /-- Guaranteed changes keep the invariant. -/
  keep : ∀ r s s', Inv s → G r s s' → Inv s'
  /-- A request that starts meets its guarantee, from now on or from its check on. -/
  start : ∀ c r, Inv c.st → C c (.start r) →
    (prog r).Guarded Inv (R r) (G r) ∨ (prog r).Meets (R r) (G r) (fun _ _ => True) c.st
  /-- A turn of one request is a change the others rely on. -/
  compat : ∀ c i j th th' s', Inv c.st → C c (.turn i) → i ≠ j → c.threads[i]? = some th →
    c.threads[j]? = some th' → ¬th'.rest.Guarded Inv (R th'.req) (G th'.req) →
    s' = (c.next prog (.turn i)).st → G th.req c.st s' → R th'.req c.st s'

/-- What a turn does: nothing, or the next call of a running request. -/
theorem Config.next_turn (c : Config ρ σ ε α) (i : ℕ) :
    c.next prog (.turn i) = c ∨ ∃ r u k, c.threads[i]? = some ⟨r, .act u k⟩ ∧
      c.next prog (.turn i) = ⟨u c.st, c.threads.set i ⟨r, k c.st⟩⟩ := by
  unfold Config.next
  dsimp only
  split
  · rename_i r u k h
    exact .inr ⟨r, u, k, h, rfl⟩
  · exact .inl rfl

/-- A request that is alone remains so while it takes its turns. -/
theorem threads_alone (s₀ : σ) (r : ρ) (n : ℕ) :
    ∃ p, (interleave prog s₀ (List.replicate n (.turn 0) ++ [.start r])).threads = [⟨r, p⟩] := by
  induction n with
  | zero => exact ⟨prog r, rfl⟩
  | succ n ih =>
    obtain ⟨p, hp⟩ := ih
    rw [List.replicate_succ, List.cons_append, interleave]
    rcases Config.next_turn prog (interleave prog s₀ (List.replicate n (.turn 0) ++ [.start r])) 0 with
      heq | ⟨r', u, k, hi, heq⟩
    · rw [heq]
      exact ⟨p, hp⟩
    · rw [hp, List.getElem?_cons_zero, Option.some.injEq] at hi
      cases hi
      rw [heq, hp]
      exact ⟨_, rfl⟩

variable {prog}

/-- Nothing is asked of the events. -/
theorem scheduled_of_forall {C : Config ρ σ ε α → Event ρ → Prop} {s₀ : σ} (h : ∀ c e, C c e) :
    ∀ evs, Scheduled prog C s₀ evs
  | [] => trivial
  | e :: past => ⟨h _ e, scheduled_of_forall h past⟩

namespace RelyGuarantee

variable {C : Config ρ σ ε α → Event ρ → Prop} {Inv : σ → Prop} {R G : ρ → σ → σ → Prop}

/-- What holds of the rest of a request that has started. -/
def Kept (Inv : σ → Prop) (R G : ρ → σ → σ → Prop) (s : σ) (th : Thread ρ σ ε α) : Prop :=
  th.rest.Guarded Inv (R th.req) (G th.req) ∨ th.rest.Meets (R th.req) (G th.req) (fun _ _ => True) s

/-- The next call of a request that is kept is one that it guarantees, and it stays kept. -/
theorem Kept.call (h : RelyGuarantee prog C Inv R G) {s : σ} (hI : Inv s) {r : ρ} {u : σ → σ} {k : σ → Prog σ ε α}
    (hK : Kept Inv R G s ⟨r, .act u k⟩) : G r s (u s) ∧ Kept Inv R G (u s) ⟨r, k s⟩ := by
  rcases hK with hguarded | hmeets
  · exact hguarded s hI
  · exact ⟨(hmeets s (h.refl r s)).1, .inr (hmeets s (h.refl r s)).2⟩

/-- One event keeps the invariant, and every request is still kept. -/
theorem step (h : RelyGuarantee prog C Inv R G) {c : Config ρ σ ε α} {e : Event ρ} (hI : Inv c.st)
    (hK : ∀ th ∈ c.threads, Kept Inv R G c.st th) (hC : C c e) :
    Inv (c.next prog e).st ∧ ∀ th ∈ (c.next prog e).threads, Kept Inv R G (c.next prog e).st th := by
  cases e with
  | start r =>
    refine ⟨hI, fun th hth => ?_⟩
    rcases List.mem_append.mp hth with hth | hth
    · exact hK th hth
    · rw [List.mem_singleton] at hth
      subst hth
      exact h.start c r hI hC
  | turn i =>
    rcases c.next_turn prog i with heq | ⟨r, u, k, hi, heq⟩
    · rw [heq]
      exact ⟨hI, hK⟩
    · obtain ⟨hG, hnext⟩ := Kept.call h hI (hK _ (List.mem_of_getElem? hi))
      refine ⟨by rw [heq]; exact h.keep r _ _ hI hG, fun th hth => ?_⟩
      rw [heq] at hth ⊢
      obtain ⟨j, hj⟩ := List.mem_iff_getElem?.mp hth
      by_cases hij : i = j
      · subst hij
        have hlt : i < c.threads.length := (List.getElem?_eq_some_iff.mp hi).1
        rw [List.getElem?_set_self hlt, Option.some.injEq] at hj
        subst hj
        exact hnext
      · rw [List.getElem?_set_ne hij] at hj
        by_cases hguarded : th.rest.Guarded Inv (R th.req) (G th.req)
        · exact .inl hguarded
        · have hmeets := (hK th (List.mem_of_getElem? hj)).resolve_left hguarded
          exact .inr (hmeets.rely (h.trans th.req)
            (h.compat c i j _ th _ hI hC hij hi hj hguarded (by rw [heq]) hG))

/-- **Interleavings**: the invariant holds after every list of events, whatever
requests started and in whatever order they took their turns. -/
theorem sound (h : RelyGuarantee prog C Inv R G) {s₀ : σ} (h₀ : Inv s₀) :
    ∀ evs, Scheduled prog C s₀ evs → Inv (interleave prog s₀ evs).st ∧
      ∀ th ∈ (interleave prog s₀ evs).threads, Kept Inv R G (interleave prog s₀ evs).st th := by
  intro evs
  induction evs with
  | nil => exact fun _ => ⟨h₀, fun _ hth => absurd hth List.not_mem_nil⟩
  | cons e past ih => exact fun hs => h.step (ih hs.2).1 (ih hs.2).2 hs.1

/-- Every turn that changes the state is a call that the request guarantees. -/
theorem turn (h : RelyGuarantee prog C Inv R G) {s₀ : σ} (h₀ : Inv s₀) {evs : List (Event ρ)}
    (hs : Scheduled prog C s₀ evs) (i : ℕ) :
    (interleave prog s₀ evs).next prog (.turn i) = interleave prog s₀ evs ∨
      ∃ th, (interleave prog s₀ evs).threads[i]? = some th ∧
        G th.req (interleave prog s₀ evs).st ((interleave prog s₀ evs).next prog (.turn i)).st := by
  rcases (interleave prog s₀ evs).next_turn prog i with heq | ⟨r, u, k, hi, heq⟩
  · exact .inl heq
  · obtain ⟨hI, hK⟩ := h.sound h₀ evs hs
    rw [heq]
    exact .inr ⟨_, hi, (Kept.call h hI (hK _ (List.mem_of_getElem? hi))).1⟩

/-- What request `r` relies on, all others guarantee, whether it has made its check or not. -/
def Relied (prog : ρ → Prog σ ε α) (C : Config ρ σ ε α → Event ρ → Prop) (Inv : σ → Prop) (R G : ρ → σ → σ → Prop)
    (r : ρ) : Prop :=
  ∀ c i th, Inv c.st → C c (.turn i) → c.threads[i]? = some th →
    G th.req c.st (c.next prog (.turn i)).st → R r c.st (c.next prog (.turn i)).st

/-- What a request meets at some moment, with whatever guarantee, it meets ever after. -/
theorem later (h : RelyGuarantee prog C Inv R G) {s₀ : σ} (h₀ : Inv s₀) {past : List (Event ρ)} {j : ℕ}
    {th : Thread ρ σ ε α} (hrelied : Relied prog C Inv R G th.req)
    (hj : (interleave prog s₀ past).threads[j]? = some th) {G' : σ → σ → Prop}
    (hM : th.rest.Meets (R th.req) G' (fun _ _ => True) (interleave prog s₀ past).st) :
    ∀ mid, Scheduled prog C s₀ (mid ++ past) → ∃ p, (interleave prog s₀ (mid ++ past)).threads[j]? = some ⟨th.req, p⟩ ∧
      p.Meets (R th.req) G' (fun _ _ => True) (interleave prog s₀ (mid ++ past)).st := by
  intro mid
  induction mid with
  | nil => exact fun _ => ⟨th.rest, hj, hM⟩
  | cons e mid ih =>
    intro hs
    obtain ⟨p, hp, hMp⟩ := ih hs.2
    have hturn := h.turn h₀ hs.2
    have hI := (h.sound h₀ (mid ++ past) hs.2).1
    have hC := hs.1
    rw [List.cons_append, interleave]
    generalize interleave prog s₀ (mid ++ past) = c at *
    cases e with
    | start r =>
      have hlt : j < c.threads.length := (List.getElem?_eq_some_iff.mp hp).1
      exact ⟨p, by rw [Config.next, List.getElem?_append_left hlt, hp], hMp⟩
    | turn i =>
      rcases c.next_turn prog i with heq | ⟨r, u, k, hi, heq⟩
      · rw [heq]
        exact ⟨p, hp, hMp⟩
      · by_cases hij : i = j
        · subst hij
          rw [hp, Option.some.injEq] at hi
          cases hi
          have hlt : i < c.threads.length := (List.getElem?_eq_some_iff.mp hp).1
          rw [heq]
          exact ⟨k c.st, List.getElem?_set_self hlt, (hMp c.st (h.refl _ _)).2⟩
        · refine ⟨p, by rw [heq, List.getElem?_set_ne hij, hp], hMp.rely (h.trans th.req) ?_⟩
          rcases hturn i with hsame | ⟨th', hth', hG⟩
          · rw [hsame]
            exact h.refl _ _
          · exact hrelied c i th' hI hC hth' hG

/-- What a request meets once it has had a turn, every later turn of it meets. -/
theorem turn_later (h : RelyGuarantee prog C Inv R G) {s₀ : σ} (h₀ : Inv s₀) {past : List (Event ρ)} {j : ℕ} {r : ρ}
    {p : Prog σ ε α} (hrelied : Relied prog C Inv R G r)
    (hj : (interleave prog s₀ past).threads[j]? = some ⟨r, p⟩) {G' : σ → σ → Prop}
    (hM : ∀ u k, p = .act u k →
      (k (interleave prog s₀ past).st).Meets (R r) G' (fun _ _ => True) (u (interleave prog s₀ past).st))
    (mid : List (Event ρ)) (hs : Scheduled prog C s₀ (mid ++ .turn j :: past)) :
    (interleave prog s₀ (mid ++ .turn j :: past)).next prog (.turn j) = interleave prog s₀ (mid ++ .turn j :: past) ∨
      G' (interleave prog s₀ (mid ++ .turn j :: past)).st
        ((interleave prog s₀ (mid ++ .turn j :: past)).next prog (.turn j)).st := by
  have hafter : ∃ p', (interleave prog s₀ (.turn j :: past)).threads[j]? = some ⟨r, p'⟩ ∧
      p'.Meets (R r) G' (fun _ _ => True) (interleave prog s₀ (.turn j :: past)).st := by
    have hlt : j < (interleave prog s₀ past).threads.length := (List.getElem?_eq_some_iff.mp hj).1
    rw [interleave, Config.next]
    cases p with
    | ret a =>
      simp only [hj]
      exact ⟨_, rfl, trivial⟩
    | fail e =>
      simp only [hj]
      exact ⟨_, rfl, trivial⟩
    | act u k =>
      simp only [hj]
      exact ⟨_, List.getElem?_set_self hlt, hM u k rfl⟩
  obtain ⟨p', hj', hM'⟩ := hafter
  obtain ⟨q, hq, hMq⟩ := h.later h₀ hrelied hj' hM' mid hs
  rcases (interleave prog s₀ (mid ++ .turn j :: past)).next_turn prog j with heq | ⟨r', u, k, hi, heq⟩
  · exact .inl heq
  · rw [hq, Option.some.injEq] at hi
    cases hi
    rw [heq]
    exact .inr (hMq _ (h.refl r _)).1

end RelyGuarantee

end Interleave

end AuditSphere.Theory
