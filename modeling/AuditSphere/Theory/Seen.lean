import AuditSphere.Theory.Interleaving

/-!
# What programs have seen

A program that looks at the state and acts later acts on what it has seen. `Along`
says of each call of a program what it may do, given the states in which the program
has made its earlier calls; others may change the state between the calls as they
please. `seen` lists these states for a request of an interleaving, and `along_turn`
is what follows for its turns.
-/

namespace AuditSphere.Theory

namespace Prog

variable {σ ε α β : Type}

/-- After the program has seen `l`, the most recent state first, each call of it is one
that `P` allows, and it ends as `Q` says. -/
def Along (P : List σ → σ → σ → Prop) (Q : Except ε α → List σ → Prop) : Prog σ ε α → List σ → Prop
  | .ret a, l => Q (.ok a) l
  | .fail e, l => Q (.error e) l
  | .act u k, l => ∀ s, P l s (u s) ∧ (k s).Along P Q (s :: l)

variable {P P' : List σ → σ → σ → Prop} {Q Q' : Except ε α → List σ → Prop}

@[simp] theorem along_pure (a : α) (l : List σ) : (pure a : Prog σ ε α).Along P Q l ↔ Q (.ok a) l := Iff.rfl

@[simp] theorem along_throw (e : ε) (l : List σ) : (throw e : Prog σ ε α).Along P Q l ↔ Q (.error e) l := Iff.rfl

theorem along_ite (c : Prop) [Decidable c] (p q : Prog σ ε α) (l : List σ) :
    (if c then p else q).Along P Q l ↔ if c then p.Along P Q l else q.Along P Q l := by
  split <;> rfl

theorem along_call (f : σ → Except ε (α × σ)) (l : List σ) :
    (call f).Along P Q l ↔ ∀ s, match f s with
      | .ok (a, s') => P l s s' ∧ Q (.ok a) (s :: l)
      | .error e => P l s s ∧ Q (.error e) (s :: l) := by
  simp only [call, Along]
  refine forall_congr' fun s => ?_
  rcases f s with e | ⟨a, s'⟩ <;> rfl

/-- A sequence: the second part has seen what the first one has. -/
theorem along_bind {Q : Except ε β → List σ → Prop} (p : Prog σ ε α) (f : α → Prog σ ε β) (l : List σ) :
    (p >>= f).Along P Q l ↔ p.Along P (fun r l' => match r with
      | .ok a => (f a).Along P Q l'
      | .error e => Q (.error e) l') l := by
  induction p generalizing l with
  | ret a => rfl
  | fail e => rfl
  | act u k ih => exact forall_congr' fun s => and_congr_right fun _ => ih s _

theorem along_read_bind {Q : Except ε β → List σ → Prop} (f : σ → α) (k : α → Prog σ ε β) (l : List σ) :
    (read f >>= k).Along P Q l ↔ ∀ s, P l s s ∧ (k (f s)).Along P Q (s :: l) := Iff.rfl

/-- A call does what it does, from whatever state. -/
theorem along_of_call {f : σ → Except ε (α × σ)} {l : List σ}
    (h : ∀ s r s', (call f).run s = (r, s') → P l s s' ∧ Q r (s :: l)) : (call f).Along P Q l := by
  rw [along_call]
  intro s
  rcases hf : f s with e | ⟨a, s'⟩
  · exact h s (.error e) s (by rw [run_call, hf])
  · exact h s (.ok a) s' (by rw [run_call, hf])

/-- A call, and what follows it. -/
theorem along_call_bind {Q : Except ε β → List σ → Prop} {f : σ → Except ε (α × σ)} {k : α → Prog σ ε β} {l : List σ}
    (herror : ∀ s e, f s = .error e → P l s s ∧ Q (.error e) (s :: l))
    (hok : ∀ s a s', f s = .ok (a, s') → P l s s' ∧ (k a).Along P Q (s :: l)) : (call f >>= k).Along P Q l := by
  rw [along_bind, along_call]
  intro s
  cases hf : f s with
  | error e => exact herror s e hf
  | ok r => exact hok s r.1 r.2 hf

theorem Along.mono {p : Prog σ ε α} {l : List σ} (h : p.Along P Q l) (hP : ∀ l' s s', l <:+ l' → P l' s s' → P' l' s s')
    (hQ : ∀ r l', l <:+ l' → Q r l' → Q' r l') : p.Along P' Q' l := by
  induction p generalizing l with
  | ret a => exact hQ _ _ List.suffix_rfl h
  | fail e => exact hQ _ _ List.suffix_rfl h
  | act u k ih =>
    refine fun s => ⟨hP _ _ _ List.suffix_rfl (h s).1, ih s (h s).2 ?_ ?_⟩
    · exact fun l' a b hl => hP l' a b ((List.suffix_cons s l).trans hl)
    · exact fun r l' hl => hQ r l' ((List.suffix_cons s l).trans hl)

/-- What every call does, and every end. -/
theorem along_of_forall (hP : ∀ l s s', P l s s') (hQ : ∀ r l, Q r l) (p : Prog σ ε α) (l : List σ) : p.Along P Q l := by
  induction p generalizing l with
  | ret a => exact hQ _ _
  | fail e => exact hQ _ _
  | act u k ih => exact fun s => ⟨hP _ _ _, ih s _⟩

/-- What is done with the result makes no difference. -/
theorem Along.map {p : Prog σ ε α} {l : List σ} (h : p.Along P (fun _ _ => True) l) (f : α → β) :
    (p >>= fun a => (pure (f a) : Prog σ ε β)).Along P (fun _ _ => True) l := by
  rw [along_bind]
  refine h.mono (fun _ _ _ _ => id) ?_
  rintro (e | a) l' - - <;> trivial

/-- What is done with the result is done with what it ends with. -/
theorem along_map {Q : Except ε β → List σ → Prop} (f : α → β) (p : Prog σ ε α) (l : List σ) :
    (f <$> p).Along P Q l ↔ p.Along P (fun r l' => Q (r.map f) l') l := by
  rw [← bind_pure_comp, along_bind]
  constructor
  · refine fun h => h.mono (fun _ _ _ _ => id) ?_
    rintro (e | a) l' - hQ <;> exact hQ
  · refine fun h => h.mono (fun _ _ _ _ => id) ?_
    rintro (e | a) l' - hQ <;> exact hQ

/-- Something, and what follows it, whatever it was. -/
theorem Along.seq {p : Prog σ ε α} {k : α → Prog σ ε β} {l : List σ} (hp : p.Along P (fun _ _ => True) l)
    (hk : ∀ a l', (k a).Along P (fun _ _ => True) l') : (p >>= k).Along P (fun _ _ => True) l := by
  rw [along_bind]
  refine hp.mono (fun _ _ _ _ => id) ?_
  rintro (e | a) l' - -
  · trivial
  · exact hk a l'

/-- What a program does along what it has seen it does whatever others do. -/
theorem Along.meets {R G : σ → σ → Prop} {p : Prog σ ε α} {l : List σ} (h : p.Along P Q l)
    (hP : ∀ l s s', P l s s' → G s s') (s : σ) : p.Meets R G (fun _ _ => True) s := by
  induction p generalizing l s with
  | ret a => trivial
  | fail e => trivial
  | act u k ih => exact fun s' _ => ⟨hP _ _ _ (h s').1, ih s' (h s').2 _⟩

/-- What a program meets whatever others do, it meets along what it has seen. -/
theorem Meets.along {G : σ → σ → Prop} {Q : Except ε α → σ → Prop} {p : Prog σ ε α} {s : σ}
    (h : p.Meets (fun _ _ => True) G Q s) (l : List σ) : p.Along (fun _ => G) (fun _ _ => True) l := by
  induction p generalizing s l with
  | ret a => trivial
  | fail e => trivial
  | act u k ih => exact fun s' => ⟨(h s' trivial).1, ih s' (h s' trivial).2 _⟩

end Prog

/-! ### In interleavings -/

section Seen

variable {ρ σ ε α : Type} (prog : ρ → Prog σ ε α) (s₀ : σ)

/-- What the program has ended with, if it has. -/
def Prog.result : Prog σ ε α → Option (Except ε α)
  | .ret a => some (.ok a)
  | .fail e => some (.error e)
  | .act _ _ => none

/-- The request has a call left to make. -/
def Thread.running (th : Thread ρ σ ε α) : Bool :=
  match th.rest with
  | .act _ _ => true
  | _ => false

/-- The states in which the `j`-th request has made its calls, the most recent first. -/
def seen (j : ℕ) : List (Event ρ) → List σ
  | [] => []
  | .start _ :: past => seen j past
  | .turn i :: past =>
    let c := interleave prog s₀ past
    if i = j ∧ c.threads[j]?.any Thread.running then c.st :: seen j past else seen j past

/-- The `j`-th request. -/
def requested (j : ℕ) (evs : List (Event ρ)) : Option ρ := (interleave prog s₀ evs).threads[j]?.map Thread.req

variable {prog s₀}

/-- Each state that a request has seen is that of a moment at which it made a call. -/
theorem seen_split {j : ℕ} {evs : List (Event ρ)} {l₁ l₂ : List σ} {s : σ} (h : seen prog s₀ j evs = l₁ ++ s :: l₂) :
    ∃ mid past, evs = mid ++ .turn j :: past ∧ seen prog s₀ j past = l₂ ∧ (interleave prog s₀ past).st = s ∧
      (interleave prog s₀ past).threads[j]?.any Thread.running = true := by
  induction evs generalizing l₁ with
  | nil => simp [seen] at h
  | cons e evs ih =>
    have hlater : ∀ l₁', seen prog s₀ j evs = l₁' ++ s :: l₂ → ∃ mid past, e :: evs = mid ++ .turn j :: past ∧
        seen prog s₀ j past = l₂ ∧ (interleave prog s₀ past).st = s ∧
        (interleave prog s₀ past).threads[j]?.any Thread.running = true := by
      intro l₁' h'
      obtain ⟨mid, past, rfl, hrest⟩ := ih h'
      exact ⟨e :: mid, past, rfl, hrest⟩
    cases e with
    | start r => exact hlater l₁ h
    | turn i =>
      by_cases hmoved : i = j ∧ (interleave prog s₀ evs).threads[j]?.any Thread.running
      · rw [seen, if_pos hmoved] at h
        obtain ⟨rfl, hrunning⟩ := hmoved
        cases l₁ with
        | nil =>
          rw [List.nil_append, List.cons.injEq] at h
          exact ⟨[], evs, rfl, h.2, h.1, hrunning⟩
        | cons s' l₁ =>
          rw [List.cons_append, List.cons.injEq] at h
          exact hlater l₁ h.2
      · rw [seen, if_neg hmoved] at h
        exact hlater l₁ h

/-- A request stays the same while others, or itself, make their calls. -/
theorem thread_later {past : List (Event ρ)} {j : ℕ} {th : Thread ρ σ ε α}
    (hj : (interleave prog s₀ past).threads[j]? = some th) (mid : List (Event ρ)) :
    ∃ p, (interleave prog s₀ (mid ++ past)).threads[j]? = some ⟨th.req, p⟩ ∧
      (th.rest.result.isSome = true → p = th.rest) := by
  induction mid with
  | nil => exact ⟨th.rest, hj, fun _ => rfl⟩
  | cons e mid ih =>
    obtain ⟨p, hp, hended⟩ := ih
    have hlt : j < (interleave prog s₀ (mid ++ past)).threads.length := (List.getElem?_eq_some_iff.mp hp).1
    cases e with
    | start r => exact ⟨p, by rw [List.cons_append, interleave_start_threads, List.getElem?_append_left hlt, hp], hended⟩
    | turn i =>
      rw [List.cons_append, interleave]
      rcases (interleave prog s₀ (mid ++ past)).next_turn prog i with heq | ⟨r, u, k, hi, heq⟩
      · exact ⟨p, by rw [heq, hp], hended⟩
      · by_cases hij : i = j
        · subst hij
          rw [hp, Option.some.injEq] at hi
          cases hi
          refine ⟨k (interleave prog s₀ (mid ++ past)).st, by rw [heq, List.getElem?_set_self hlt], fun h => ?_⟩
          rw [← hended h] at h
          cases h
        · exact ⟨p, by rw [heq, List.getElem?_set_ne hij, hp], hended⟩

theorem requested_later {past : List (Event ρ)} {j : ℕ} {r : ρ} (h : requested prog s₀ j past = some r)
    (mid : List (Event ρ)) : requested prog s₀ j (mid ++ past) = some r := by
  obtain ⟨th, hth, rfl⟩ := Option.map_eq_some_iff.mp h
  obtain ⟨p, hp, -⟩ := thread_later hth mid
  rw [requested, hp]
  rfl

theorem requested_turn (j i : ℕ) (past : List (Event ρ)) :
    requested prog s₀ j (.turn i :: past) = requested prog s₀ j past := by
  rw [requested, requested, interleave]
  rcases (interleave prog s₀ past).next_turn prog i with heq | ⟨r, u, k, hi, heq⟩
  · rw [heq]
  · rw [heq]
    by_cases hij : i = j
    · subst hij
      rw [List.getElem?_set_self (List.getElem?_eq_some_iff.mp hi).1, hi]
      rfl
    · rw [List.getElem?_set_ne hij]

/-- The requests after one more start: those before it, and the new one. -/
theorem requested_start (j : ℕ) (r : ρ) (past : List (Event ρ)) : requested prog s₀ j (.start r :: past) =
    if j = (interleave prog s₀ past).threads.length then some r else requested prog s₀ j past := by
  rw [requested, requested, interleave_start_threads]
  rcases Nat.lt_trichotomy j (interleave prog s₀ past).threads.length with hlt | rfl | hgt
  · rw [List.getElem?_append_left hlt, if_neg (by omega)]
  · simp
  · rw [List.getElem?_eq_none (by simp; omega), List.getElem?_eq_none (by omega), if_neg (by omega)]

theorem requested_lt {j : ℕ} {r : ρ} {past : List (Event ρ)} (h : requested prog s₀ j past = some r) :
    j < (interleave prog s₀ past).threads.length := by
  obtain ⟨th, hth, -⟩ := Option.map_eq_some_iff.mp h
  exact (List.getElem?_eq_some_iff.mp hth).1

/-- What a request has seen it has seen ever after. -/
theorem seen_suffix (j : ℕ) (mid past : List (Event ρ)) : seen prog s₀ j past <:+ seen prog s₀ j (mid ++ past) := by
  induction mid with
  | nil => exact List.suffix_rfl
  | cons e mid ih =>
    cases e with
    | start r => exact ih
    | turn i =>
      rw [List.cons_append, seen]
      split
      · exact ih.trans (List.suffix_cons _ _)
      · exact ih

/-- A request that has ended sees nothing more. -/
theorem seen_of_ended {past : List (Event ρ)} {j : ℕ} {th : Thread ρ σ ε α}
    (hj : (interleave prog s₀ past).threads[j]? = some th) (hended : th.rest.result.isSome = true)
    (mid : List (Event ρ)) : seen prog s₀ j (mid ++ past) = seen prog s₀ j past := by
  induction mid with
  | nil => rfl
  | cons e mid ih =>
    cases e with
    | start r => exact ih
    | turn i =>
      obtain ⟨p, hp, hsame⟩ := thread_later hj mid
      rw [hsame hended] at hp
      rw [List.cons_append, seen, if_neg, ih]
      rintro ⟨-, hrunning⟩
      rw [hp] at hrunning
      obtain ⟨r, p⟩ := th
      cases p with
      | ret a => cases hrunning
      | fail e => cases hrunning
      | act u k => cases hended

/-- What every turn does to the state, and does again, happens between any two moments. -/
theorem interleave_rel {M : σ → σ → Prop} (hrefl : ∀ s, M s s) (htrans : ∀ a b c, M a b → M b c → M a c)
    (hturn : ∀ past i, M (interleave prog s₀ past).st ((interleave prog s₀ past).next prog (.turn i)).st)
    (mid past : List (Event ρ)) : M (interleave prog s₀ past).st (interleave prog s₀ (mid ++ past)).st := by
  induction mid with
  | nil => exact hrefl _
  | cons e mid ih =>
    cases e with
    | start r => exact ih
    | turn i => exact htrans _ _ _ ih (hturn _ i)

variable (prog s₀)

/-- Every event met `C` after those before it. -/
def Every (C : List (Event ρ) → Event ρ → Prop) : List (Event ρ) → Prop
  | [] => True
  | e :: past => C past e ∧ Every C past

instance (C : List (Event ρ) → Event ρ → Prop) [∀ past e, Decidable (C past e)] :
    ∀ evs, Decidable (Every C evs)
  | [] => .isTrue trivial
  | e :: past =>
    have := instDecidableEvery C past
    inferInstanceAs (Decidable (C past e ∧ Every C past))

theorem Every.past {C : List (Event ρ) → Event ρ → Prop} {mid past : List (Event ρ)} (h : Every C (mid ++ past)) :
    Every C past := by
  induction mid with
  | nil => exact h
  | cons e mid ih => exact ih h.2

/-- **What some events break**: where an event breaks `P` exactly if it does not meet `C`, every prefix of a run
satisfies `P` exactly if every event met `C`. -/
theorem forall_suffix_iff_every {P : List (Event ρ) → Prop} {C : List (Event ρ) → Event ρ → Prop} (h₀ : P [])
    (hstep : ∀ past e, P past → (P (e :: past) ↔ C past e)) (evs : List (Event ρ)) :
    (∀ past, past <:+ evs → P past) ↔ Every C evs := by
  induction evs with
  | nil => exact iff_of_true (fun past hpast => List.suffix_nil.mp hpast ▸ h₀) trivial
  | cons e past ih =>
    have hsplit : (∀ past', past' <:+ e :: past → P past') ↔ P (e :: past) ∧ ∀ past', past' <:+ past → P past' := by
      simp [List.suffix_cons_iff]
    rw [hsplit, ih, Every, and_congr_left_iff]
    exact fun hevery => hstep past e (ih.mpr hevery past List.suffix_rfl)

theorem every_of_forall {C : List (Event ρ) → Event ρ → Prop} (h : ∀ past e, C past e) (evs : List (Event ρ)) :
    Every C evs := by
  induction evs with
  | nil => trivial
  | cons e past ih => exact ⟨h past e, ih⟩

theorem seen_of_not_started {j : ℕ} {evs : List (Event ρ)} (h : (interleave prog s₀ evs).threads.length ≤ j) :
    seen prog s₀ j evs = [] := by
  induction evs with
  | nil => rfl
  | cons e past ih =>
    cases e with
    | start r =>
      rw [interleave_start_threads, List.length_append] at h
      exact ih (by omega)
    | turn i =>
      have hlen : (interleave prog s₀ past).threads.length ≤ j := by
        rw [interleave] at h
        rcases (interleave prog s₀ past).next_turn prog i with heq | ⟨r, u, k, -, heq⟩
        · rwa [heq] at h
        · rw [heq] at h
          simpa using h
      rw [seen, List.getElem?_eq_none hlen, if_neg (fun h => by simp at h)]
      exact ih hlen

/-- What a turn does: nothing if the request has ended, or its next call. -/
theorem next_turn_cases (c : Config ρ σ ε α) (i : ℕ) :
    c.threads[i]?.any Thread.running = false ∧ c.next prog (.turn i) = c ∨
      ∃ r u k, c.threads[i]? = some ⟨r, .act u k⟩ ∧ c.next prog (.turn i) = ⟨u c.st, c.threads.set i ⟨r, k c.st⟩⟩ := by
  unfold Config.next
  dsimp only
  split
  · rename_i r u k h
    exact .inr ⟨r, u, k, h, rfl⟩
  · rename_i hne
    refine .inl ⟨?_, rfl⟩
    rcases hth : c.threads[i]? with _ | ⟨r, _ | _ | ⟨u, k⟩⟩
    · rfl
    · rfl
    · rfl
    · exact absurd hth (hne r u k)

variable {prog} {P : ρ → List σ → σ → σ → Prop} {Q : ρ → Except ε α → List σ → Prop}

/-- **Along an interleaving**: the rest of each request does along what the request has
seen what its program does from the start. -/
theorem along_rest (hprog : ∀ r, (prog r).Along (P r) (Q r) []) (evs : List (Event ρ)) :
    ∀ (j : ℕ) (th : Thread ρ σ ε α), (interleave prog s₀ evs).threads[j]? = some th →
      th.rest.Along (P th.req) (Q th.req) (seen prog s₀ j evs) := by
  induction evs with
  | nil =>
    intro j th hth
    cases hth
  | cons e past ih =>
    intro j th hth
    cases e with
    | start r =>
      rw [interleave_start_threads] at hth
      by_cases hj : j < (interleave prog s₀ past).threads.length
      · rw [List.getElem?_append_left hj] at hth
        exact ih j th hth
      · rw [List.getElem?_append_right (by omega)] at hth
        have hnew := List.mem_singleton.mp (List.mem_of_getElem? hth)
        rw [seen, seen_of_not_started prog s₀ (by omega), hnew]
        exact hprog r
    | turn i =>
      rw [interleave] at hth
      rcases next_turn_cases prog (interleave prog s₀ past) i with ⟨hended, heq⟩ | ⟨r, u, k, hi, heq⟩
      · rw [heq] at hth
        rw [seen, if_neg]
        · exact ih j th hth
        · rintro ⟨rfl, hrunning⟩
          rw [hended] at hrunning
          cases hrunning
      · rw [heq] at hth
        by_cases hij : i = j
        · subst hij
          have hlt : i < (interleave prog s₀ past).threads.length := (List.getElem?_eq_some_iff.mp hi).1
          rw [List.getElem?_set_self hlt, Option.some.injEq] at hth
          subst hth
          rw [seen, if_pos ⟨rfl, by rw [hi]; rfl⟩]
          exact (ih i _ hi _).2
        · rw [List.getElem?_set_ne hij] at hth
          rw [seen, if_neg fun h => hij h.1]
          exact ih j th hth

/-- A turn does nothing, or it is a call that the request may make after what it has seen. -/
theorem along_turn (hprog : ∀ r, (prog r).Along (P r) (Q r) []) (evs : List (Event ρ)) (j : ℕ) :
    (interleave prog s₀ evs).next prog (.turn j) = interleave prog s₀ evs ∨
      ∃ th, (interleave prog s₀ evs).threads[j]? = some th ∧
        P th.req (seen prog s₀ j evs) (interleave prog s₀ evs).st ((interleave prog s₀ evs).next prog (.turn j)).st := by
  rcases (interleave prog s₀ evs).next_turn prog j with heq | ⟨r, u, k, hj, heq⟩
  · exact .inl heq
  · rw [heq]
    exact .inr ⟨_, hj, (along_rest s₀ hprog evs j _ hj _).1⟩

/-- What a turn does, and what it lets be seen: nothing, or one call that the request may
make after what it has seen. -/
theorem turn_cases (hprog : ∀ r, (prog r).Along (P r) (Q r) []) (past : List (Event ρ)) (i : ℕ) :
    (interleave prog s₀ (.turn i :: past) = interleave prog s₀ past ∧
      ∀ j, seen prog s₀ j (.turn i :: past) = seen prog s₀ j past) ∨
    ∃ r, requested prog s₀ i past = some r ∧ (interleave prog s₀ past).threads[i]?.any Thread.running = true ∧
      seen prog s₀ i (.turn i :: past) = (interleave prog s₀ past).st :: seen prog s₀ i past ∧
      (∀ j, j ≠ i → seen prog s₀ j (.turn i :: past) = seen prog s₀ j past) ∧
      P r (seen prog s₀ i past) (interleave prog s₀ past).st (interleave prog s₀ (.turn i :: past)).st := by
  rcases next_turn_cases prog (interleave prog s₀ past) i with ⟨hended, heq⟩ | ⟨r, u, k, hi, heq⟩
  · refine .inl ⟨heq, fun j => ?_⟩
    rw [seen, if_neg]
    rintro ⟨rfl, hrunning⟩
    rw [hended] at hrunning
    cases hrunning
  · have hrunning : (interleave prog s₀ past).threads[i]?.any Thread.running = true := by rw [hi]; rfl
    refine .inr ⟨r, by rw [requested, hi]; rfl, hrunning, ?_, fun j hj => ?_, ?_⟩
    · rw [seen, if_pos ⟨rfl, hrunning⟩]
    · rw [seen, if_neg fun h => hj h.1.symm]
    · rw [interleave, heq]
      exact (along_rest s₀ hprog past i _ hi _).1

/-- A request that has ended has ended as its program may after what it has seen. -/
theorem along_ended (hprog : ∀ r, (prog r).Along (P r) (Q r) []) {evs : List (Event ρ)} {j : ℕ} {th : Thread ρ σ ε α}
    {res : Except ε α} (hj : (interleave prog s₀ evs).threads[j]? = some th) (hres : th.rest.result = some res) :
    Q th.req res (seen prog s₀ j evs) := by
  have hrest := along_rest s₀ hprog evs j th hj
  obtain ⟨r, p⟩ := th
  cases p with
  | ret a =>
    cases hres
    exact hrest
  | fail e =>
    cases hres
    exact hrest
  | act u k => cases hres

end Seen

end AuditSphere.Theory
