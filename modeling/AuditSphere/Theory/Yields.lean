import AuditSphere.Theory.Follow
import AuditSphere.Theory.Journal

/-!
# What programs yield

`Yields` is `Along` for a program of which only the values matter that it ends with. Its rules follow the
shape of a program: the second part may rely on what the first one yields.
-/

namespace AuditSphere.Theory.Prog

variable {σ ε α β : Type} {P : List σ → σ → σ → Prop} {Q : α → List σ → Prop} {Q' : β → List σ → Prop}
  {p q : Prog σ ε α} {l : List σ}

/-- Each call is one that `P` allows, and the program ends as `Q` says if it does not fail. -/
abbrev Yields (P : List σ → σ → σ → Prop) (p : Prog σ ε α) (Q : α → List σ → Prop) (l : List σ) : Prop :=
  p.Along P (fun r l' => ∀ a, r = .ok a → Q a l') l

theorem yields_pure {a : α} (h : Q a l) : (pure a : Prog σ ε α).Yields P Q l := by
  rintro _ ⟨⟩
  exact h

theorem yields_throw (e : ε) : (throw e : Prog σ ε α).Yields P Q l := nofun

theorem Yields.ite {c : Prop} [Decidable c] (hp : c → p.Yields P Q l) (hq : ¬c → q.Yields P Q l) :
    (if c then p else q).Yields P Q l := by
  split
  · rename_i h
    exact hp h
  · rename_i h
    exact hq h

theorem Yields.bind {f : α → Prog σ ε β} (hp : p.Yields P Q l)
    (hf : ∀ a l', l <:+ l' → Q a l' → (f a).Yields P Q' l') : (p >>= f).Yields P Q' l := by
  rw [Yields, along_bind]
  refine hp.mono (fun _ _ _ _ => id) ?_
  rintro (e | a) l' hl hQ
  · exact nofun
  · exact hf a l' hl (hQ a rfl)

theorem Yields.map {f : α → β} (hp : p.Yields P Q l) (hf : ∀ a l', Q a l' → Q' (f a) l') :
    (f <$> p).Yields P Q' l := by
  rw [Yields, along_map]
  refine hp.mono (fun _ _ _ _ => id) ?_
  rintro (e | a) l' - hQ
  · exact nofun
  · rintro _ ⟨⟩
    exact hf a l' (hQ a rfl)

theorem Yields.weaken {R : α → List σ → Prop} (hp : p.Yields P Q l) (h : ∀ a l', Q a l' → R a l') : p.Yields P R l :=
  hp.mono (fun _ _ _ _ => id) fun _ l' _ hQ a ha => h a l' (hQ a ha)

/-- What follows an error is another program. -/
theorem Yields.catching {h : ε → Prog σ ε α} (hp : p.Yields P Q l) (hh : ∀ e l', l <:+ l' → (h e).Yields P Q l') :
    (p.catching h).Yields P Q l := by
  induction p generalizing l with
  | ret a => exact hp
  | fail e => exact hh e l List.suffix_rfl
  | act u k ih => exact fun s => ⟨(hp s).1, ih s (hp s).2 fun e l' hl => hh e l' ((List.suffix_cons s l).trans hl)⟩

theorem yields_call {f : σ → Except ε (α × σ)} (hrefl : ∀ s, P l s s)
    (h : ∀ s a s', f s = .ok (a, s') → P l s s' ∧ Q a (s :: l)) : (call f).Yields P Q l := by
  rw [Yields, along_call]
  intro s
  rcases hf : f s with e | ⟨a, s'⟩
  · exact ⟨hrefl s, nofun⟩
  · obtain ⟨hP, hQ⟩ := h s a s' hf
    refine ⟨hP, ?_⟩
    rintro _ ⟨⟩
    exact hQ

/-- A call, by what it does when it is run. -/
theorem yields_of_call {f : σ → Except ε (α × σ)} (hrefl : ∀ s, P l s s)
    (h : ∀ s a s', (call f).run s = (.ok a, s') → P l s s' ∧ Q a (s :: l)) : (call f).Yields P Q l :=
  yields_call hrefl fun s a s' hf => h s a s' (run_call_ok.mpr hf)

theorem yields_read {f : σ → α} (hrefl : ∀ s, P l s s) (h : ∀ s, Q (f s) (s :: l)) :
    (read f : Prog σ ε α).Yields P Q l :=
  yields_call hrefl fun s _ _ heq => by
    cases heq
    exact ⟨hrefl s, h s⟩

/-- A program each call of which is allowed whatever has been seen. -/
theorem Calls.yields {F : σ → σ → Prop} (hp : p.Calls F) (hF : ∀ l s s', F s s' → P l s s') :
    p.Yields P (fun _ _ => True) l := by
  induction p generalizing l with
  | ret a => exact fun _ _ => trivial
  | fail e => exact nofun
  | act u k ih => exact fun s => ⟨hF _ _ _ (hp s).1, ih s (hp s).2⟩

/-- A program on a part of the state. -/
theorem Yields.embed {τ ε' : Type} {get : σ → τ} {put : σ → τ → σ} {err : ε → ε'} {P : List τ → τ → τ → Prop}
    {p : Prog τ ε α} {Q : α → List τ → Prop} (hget : ∀ s t, get (put s t) = t) (hp : p.Yields P Q (l.map get)) :
    (p.embed get put err).Yields (fun l s s' => P (l.map get) (get s) (get s')) (fun a l' => Q a (l'.map get)) l := by
  induction p generalizing l with
  | ret a =>
    rintro _ ⟨⟩
    exact hp a rfl
  | fail e => exact nofun
  | act u k ih =>
    refine fun s => ⟨?_, ih (get s) (hp (get s)).2⟩
    show P (l.map get) (get s) (get (put s (u (get s))))
    rw [hget]
    exact (hp (get s)).1

end AuditSphere.Theory.Prog

namespace AuditSphere.Theory

/-- What a request has seen are states at earlier moments. -/
theorem moment_of_mem_seen {ρ σ ε α : Type} {prog : ρ → Prog σ ε α} {s₀ : σ} {j : ℕ} {evs : List (Event ρ)} {x : σ}
    (h : x ∈ seen prog s₀ j evs) : ∃ mid past, evs = mid ++ past ∧ (interleave prog s₀ past).st = x := by
  obtain ⟨l₁, l₂, hsplit⟩ := List.append_of_mem h
  obtain ⟨mid, past, rfl, -, hx, -⟩ := seen_split hsplit
  exact ⟨mid ++ [.turn j], past, by rw [List.append_assoc]; rfl, hx⟩

end AuditSphere.Theory
