import AuditSphere.Theory.Seen

/-!
# Programs that follow what they have seen

`Along` lets others do anything between the calls of a program. Where they only change
the state as a relation `R` says, what a program has found out stays true of the state in
which it acts: `Follows` says of each call what it may do, given what the program has seen
before and that others have kept to `R` since. If `R` allows every call of every request,
each keeps to what its program follows in any interleaving: `follow_turn` for its turns,
`follow_ended` for what it ends with.

`embed` makes a program on the whole state of one on a part of it.
-/

namespace AuditSphere.Theory

namespace Prog

variable {σ τ ε ε' α β : Type}

/-- After the program has seen `l`, and left the state `s` or found it at the start, each call
of it is one that `P` allows, as long as others change the state only as `R` says; it ends
as `Q` says. -/
def Follows (R : σ → σ → Prop) (P : List σ → σ → σ → Prop) (Q : Except ε α → List σ → σ → Prop) :
    Prog σ ε α → List σ → σ → Prop
  | .ret a, l, s => Q (.ok a) l s
  | .fail e, l, s => Q (.error e) l s
  | .act u k, l, s => ∀ s', R s s' → P l s' (u s') ∧ (k s').Follows R P Q (s' :: l) (u s')

variable {R : σ → σ → Prop} {P P' : List σ → σ → σ → Prop} {Q Q' : Except ε α → List σ → σ → Prop}

@[simp] theorem follows_pure (a : α) (l : List σ) (s : σ) :
    (pure a : Prog σ ε α).Follows R P Q l s ↔ Q (.ok a) l s := Iff.rfl

@[simp] theorem follows_throw (e : ε) (l : List σ) (s : σ) :
    (throw e : Prog σ ε α).Follows R P Q l s ↔ Q (.error e) l s := Iff.rfl

theorem follows_ite (c : Prop) [Decidable c] (p q : Prog σ ε α) (l : List σ) (s : σ) :
    (if c then p else q).Follows R P Q l s ↔ if c then p.Follows R P Q l s else q.Follows R P Q l s := by
  split <;> rfl

theorem follows_call (f : σ → Except ε (α × σ)) (l : List σ) (s : σ) :
    (call f).Follows R P Q l s ↔ ∀ s', R s s' → match f s' with
      | .ok (a, s'') => P l s' s'' ∧ Q (.ok a) (s' :: l) s''
      | .error e => P l s' s' ∧ Q (.error e) (s' :: l) s' := by
  simp only [call, Follows]
  refine forall_congr' fun s' => imp_congr_right fun _ => ?_
  rcases f s' with e | ⟨a, s''⟩ <;> rfl

theorem follows_read (f : σ → α) (l : List σ) (s : σ) :
    (read f : Prog σ ε α).Follows R P Q l s ↔ ∀ s', R s s' → P l s' s' ∧ Q (.ok (f s')) (s' :: l) s' :=
  follows_call _ _ _

/-- A sequence: the second part has seen what the first one has. -/
theorem follows_bind {Q : Except ε β → List σ → σ → Prop} (p : Prog σ ε α) (f : α → Prog σ ε β) (l : List σ) (s : σ) :
    (p >>= f).Follows R P Q l s ↔ p.Follows R P (fun r l' s' => match r with
      | .ok a => (f a).Follows R P Q l' s'
      | .error e => Q (.error e) l' s') l s := by
  induction p generalizing l s with
  | ret a => rfl
  | fail e => rfl
  | act u k ih => exact forall_congr' fun s' => imp_congr_right fun _ => and_congr_right fun _ => ih s' _ _

theorem follows_read_bind {Q : Except ε β → List σ → σ → Prop} (f : σ → α) (k : α → Prog σ ε β) (l : List σ) (s : σ) :
    (read f >>= k).Follows R P Q l s ↔ ∀ s', R s s' → P l s' s' ∧ (k (f s')).Follows R P Q (s' :: l) s' := Iff.rfl

/-- A call does what it does, from whatever state it may find. -/
theorem follows_of_call {f : σ → Except ε (α × σ)} {l : List σ} {s : σ}
    (h : ∀ s', R s s' → ∀ r s'', (call f).run s' = (r, s'') → P l s' s'' ∧ Q r (s' :: l) s'') :
    (call f).Follows R P Q l s := by
  rw [follows_call]
  intro s' hs'
  rcases hf : f s' with e | ⟨a, s''⟩
  · exact h s' hs' (.error e) s' (by rw [run_call, hf])
  · exact h s' hs' (.ok a) s'' (by rw [run_call, hf])

theorem Follows.mono {p : Prog σ ε α} {l : List σ} {s : σ} (h : p.Follows R P Q l s)
    (hP : ∀ l' s s', P l' s s' → P' l' s s') (hQ : ∀ r l' s', l <:+ l' → Q r l' s' → Q' r l' s') :
    p.Follows R P' Q' l s := by
  induction p generalizing l s with
  | ret a => exact hQ _ _ _ List.suffix_rfl h
  | fail e => exact hQ _ _ _ List.suffix_rfl h
  | act u k ih =>
    refine fun s' hs' => ⟨hP _ _ _ (h s' hs').1, ih s' (h s' hs').2 ?_⟩
    exact fun r l' s'' hl => hQ r l' s'' ((List.suffix_cons s' l).trans hl)

/-- What is done with the result is done with what it ends with. -/
theorem follows_map {Q : Except ε β → List σ → σ → Prop} (f : α → β) (p : Prog σ ε α) (l : List σ) (s : σ) :
    (f <$> p).Follows R P Q l s ↔ p.Follows R P (fun r l' s' => Q (r.map f) l' s') l s := by
  rw [← bind_pure_comp, follows_bind]
  constructor
  · refine fun h => h.mono (fun _ _ _ => id) ?_
    rintro (e | a) l' s' - hQ <;> exact hQ
  · refine fun h => h.mono (fun _ _ _ => id) ?_
    rintro (e | a) l' s' - hQ <;> exact hQ

/-- A program that has not moved yet follows the same after a change made by others. -/
theorem Follows.rely (htrans : ∀ a b c, R a b → R b c → R a c) {p : Prog σ ε α} {l : List σ} {s s₁ : σ}
    (hQ : ∀ r l s s', R s s' → Q r l s → Q r l s') (h : p.Follows R P Q l s) (hs : R s s₁) : p.Follows R P Q l s₁ := by
  cases p with
  | ret a => exact hQ _ _ _ _ hs h
  | fail e => exact hQ _ _ _ _ hs h
  | act u k => exact fun s' hs' => h s' (htrans _ _ _ hs hs')

/-- A program that changes nothing. -/
theorem Along.follows {Q : Except ε α → List σ → Prop} {p : Prog σ ε α} {l : List σ}
    (h : p.Along (fun _ s s' => s' = s) Q l) (hP : ∀ l s, P l s s) (hrefl : ∀ s, R s s)
    (htrans : ∀ a b c, R a b → R b c → R a c) (s : σ) : p.Follows R P (fun r l' s' => Q r l' ∧ R s s') l s := by
  suffices ∀ s₁, R s s₁ → p.Follows R P (fun r l' s' => Q r l' ∧ R s s') l s₁ from this s (hrefl s)
  intro s₁ hs
  induction p generalizing l s₁ with
  | ret a => exact ⟨h, hs⟩
  | fail e => exact ⟨h, hs⟩
  | act u k ih =>
    intro s₂ hs₂
    obtain ⟨hsame, hrest⟩ := h s₂
    rw [hsame]
    exact ⟨hP _ _, ih s₂ hrest _ (htrans _ _ _ hs hs₂)⟩

/-! ### Programs on a part of the state -/

/-- A program on a part of the state, as one on the whole of it. -/
def embed (get : σ → τ) (put : σ → τ → σ) (err : ε → ε') : Prog τ ε α → Prog σ ε' α
  | .ret a => .ret a
  | .fail e => .fail (err e)
  | .act u k => .act (fun s => put s (u (get s))) fun s => (k (get s)).embed get put err

/-- A program on a part changes that part. -/
theorem along_embed {get : σ → τ} {put : σ → τ → σ} {err : ε → ε'} {P : List σ → σ → σ → Prop}
    (hP : ∀ l s t, P l s (put s t)) (p : Prog τ ε α) (l : List σ) :
    (p.embed get put err).Along P (fun _ _ => True) l := by
  induction p generalizing l with
  | ret a => trivial
  | fail e => trivial
  | act u k ih => exact fun s => ⟨hP l s _, ih (get s) (s :: l)⟩

/-- Run alone, it changes nothing but the part. -/
theorem run_embed {get : σ → τ} {put : σ → τ → σ} {err : ε → ε'} (hget : ∀ s t, get (put s t) = t)
    (hself : ∀ s, put s (get s) = s) (hput : ∀ s t t', put (put s t) t' = put s t') (p : Prog τ ε α) (s : σ) :
    (p.embed get put err).run s = ((p.run (get s)).1.mapError err, put s (p.run (get s)).2) := by
  induction p generalizing s with
  | ret a => exact Prod.ext rfl (hself s).symm
  | fail e => exact Prod.ext rfl (hself s).symm
  | act u k ih =>
    refine (ih (get s) (put s (u (get s)))).trans ?_
    rw [hget, hput]
    rfl

/-- What it follows on the part it follows on the whole. -/
theorem follows_embed {get : σ → τ} {put : σ → τ → σ} {err : ε → ε'} (hget : ∀ s t, get (put s t) = t)
    {Rτ : τ → τ → Prop} {Pτ : List τ → τ → τ → Prop} {Qτ : Except ε α → List τ → τ → Prop}
    {Q : Except ε' α → List σ → σ → Prop} (hR : ∀ s s', R s s' → Rτ (get s) (get s'))
    (hP : ∀ l s t, Pτ (l.map get) (get s) t → P l s (put s t))
    (hQ : ∀ r l s, Qτ r (l.map get) (get s) → Q (r.mapError err) l s) {p : Prog τ ε α} {l : List σ} {s : σ}
    (h : p.Follows Rτ Pτ Qτ (l.map get) (get s)) : (p.embed get put err).Follows R P Q l s := by
  induction p generalizing l s with
  | ret a => exact hQ _ _ _ h
  | fail e => exact hQ _ _ _ h
  | act u k ih =>
    intro s' hs'
    obtain ⟨hcall, hrest⟩ := h (get s') (hR _ _ hs')
    refine ⟨hP _ _ _ hcall, ih (get s') ?_⟩
    rw [hget]
    exact hrest

end Prog

/-! ### In interleavings -/

section Follow

variable {ρ σ ε α : Type} {prog : ρ → Prog σ ε α} (s₀ : σ) {R : σ → σ → Prop} {P : ρ → List σ → σ → σ → Prop}
  {Q : ρ → Except ε α → List σ → σ → Prop}

/-- What makes requests keep to what their programs follow: `R` allows every call, and
keeps what they end with. -/
structure Following (prog : ρ → Prog σ ε α) (R : σ → σ → Prop) (P : ρ → List σ → σ → σ → Prop)
    (Q : ρ → Except ε α → List σ → σ → Prop) : Prop where
  /-- No change is one that `R` allows. -/
  refl : ∀ s, R s s
  /-- So are several such changes. -/
  trans : ∀ a b c, R a b → R b c → R a c
  /-- `R` allows every call. -/
  call : ∀ r l s s', P r l s s' → R s s'
  /-- What a request ends with stays so. -/
  ends : ∀ r res l s s', R s s' → Q r res l s → Q r res l s'
  /-- Each program follows this from its start. -/
  start : ∀ r s, (prog r).Follows R (P r) (Q r) [] s

variable (h : Following prog R P Q)

include h

/-- The rest of each request follows what it has seen. -/
theorem follow_rest (evs : List (Event ρ)) :
    ∀ (j : ℕ) (th : Thread ρ σ ε α), (interleave prog s₀ evs).threads[j]? = some th →
      th.rest.Follows R (P th.req) (Q th.req) (seen prog s₀ j evs) (interleave prog s₀ evs).st := by
  induction evs with
  | nil =>
    intro j th hth
    cases hth
  | cons e past ih =>
    intro j th hth
    cases e with
    | start r =>
      rw [interleave_start_threads] at hth
      by_cases hj : j < (interleave prog s₀ past).threads.length
      · rw [List.getElem?_append_left hj] at hth
        exact ih j th hth
      · rw [List.getElem?_append_right (by omega)] at hth
        have hnew := List.mem_singleton.mp (List.mem_of_getElem? hth)
        rw [seen, seen_of_not_started prog s₀ (by omega), hnew]
        exact h.start r _
    | turn i =>
      rcases next_turn_cases prog (interleave prog s₀ past) i with ⟨hended, heq⟩ | ⟨r, u, k, hi, heq⟩
      · rw [interleave, heq] at hth ⊢
        rw [seen, if_neg]
        · exact ih j th hth
        · rintro ⟨rfl, hrunning⟩
          rw [hended] at hrunning
          cases hrunning
      · obtain ⟨hcall, hrest⟩ := ih i _ hi _ (h.refl _)
        rw [interleave, heq] at hth ⊢
        by_cases hij : i = j
        · subst hij
          have hlt : i < (interleave prog s₀ past).threads.length := (List.getElem?_eq_some_iff.mp hi).1
          rw [List.getElem?_set_self hlt, Option.some.injEq] at hth
          subst hth
          rw [seen, if_pos ⟨rfl, by rw [hi]; rfl⟩]
          exact hrest
        · rw [List.getElem?_set_ne hij] at hth
          rw [seen, if_neg fun h => hij h.1]
          exact (ih j th hth).rely h.trans (h.ends _) (h.call _ _ _ _ hcall)

/-- What a turn does, and what it lets be seen: nothing, or one call that the request follows. -/
theorem follow_turn (past : List (Event ρ)) (i : ℕ) :
    (interleave prog s₀ (.turn i :: past) = interleave prog s₀ past ∧
      ∀ j, seen prog s₀ j (.turn i :: past) = seen prog s₀ j past) ∨
    ∃ r, requested prog s₀ i past = some r ∧
      seen prog s₀ i (.turn i :: past) = (interleave prog s₀ past).st :: seen prog s₀ i past ∧
      P r (seen prog s₀ i past) (interleave prog s₀ past).st (interleave prog s₀ (.turn i :: past)).st := by
  rcases next_turn_cases prog (interleave prog s₀ past) i with ⟨hended, heq⟩ | ⟨r, u, k, hi, heq⟩
  · refine .inl ⟨heq, fun j => ?_⟩
    rw [seen, if_neg]
    rintro ⟨rfl, hrunning⟩
    rw [hended] at hrunning
    cases hrunning
  · have hrunning : (interleave prog s₀ past).threads[i]?.any Thread.running = true := by rw [hi]; rfl
    refine .inr ⟨r, by rw [requested, hi]; rfl, ?_, ?_⟩
    · rw [seen, if_pos ⟨rfl, hrunning⟩]
    · rw [interleave, heq]
      exact (follow_rest s₀ h past i _ hi _ (h.refl _)).1

/-- Between any two moments the state changes only as `R` says. -/
theorem follow_between (mid past : List (Event ρ)) :
    R (interleave prog s₀ past).st (interleave prog s₀ (mid ++ past)).st := by
  refine interleave_rel h.refl h.trans (fun past i => ?_) mid past
  rcases follow_turn s₀ h past i with ⟨heq, -⟩ | ⟨r, -, -, hcall⟩
  · show R _ (interleave prog s₀ (.turn i :: past)).st
    rw [heq]
    exact h.refl _
  · exact h.call _ _ _ _ hcall

/-- A request that has ended has ended as its program follows. -/
theorem follow_ended {evs : List (Event ρ)} {j : ℕ} {th : Thread ρ σ ε α} {res : Except ε α}
    (hj : (interleave prog s₀ evs).threads[j]? = some th) (hres : th.rest.result = some res) :
    Q th.req res (seen prog s₀ j evs) (interleave prog s₀ evs).st := by
  have hrest := follow_rest s₀ h evs j th hj
  obtain ⟨r, p⟩ := th
  cases p with
  | ret a =>
    cases hres
    exact hrest
  | fail e =>
    cases hres
    exact hrest
  | act u k => cases hres

end Follow

end AuditSphere.Theory
