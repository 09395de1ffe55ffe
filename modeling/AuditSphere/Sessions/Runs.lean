import AuditSphere.Sessions.Tokens

/-!
# Runs of requests about sessions

What holds of the refresh tokens in every interleaving of requests whose random draws are
fresh (`Fresh`): no token is lost, each request inserts one token at most, under the id
that it has drawn, and a refresh that has inserted a successor goes on to revoke the token
that it has presented (`Sound`).
-/

namespace AuditSphere.Sessions

open Prisma Theory Shared Auth Users

/-- Only requests of a kind have been started. -/
def Only (kind : Request → Bool) (evs : List (Event Request)) : Prop := ∀ r, .start r ∈ evs → kind r = true

theorem Only.past {kind : Request → Bool} {mid past : List (Event Request)} (h : Only kind (mid ++ past)) :
    Only kind past :=
  fun r hr => h r (List.mem_append_right _ hr)

theorem Only.tail {kind : Request → Bool} {e : Event Request} {past : List (Event Request)}
    (h : Only kind (e :: past)) : Only kind past :=
  fun r hr => h r (List.mem_cons_of_mem _ hr)

/-- The event starts a request of the kind, or it is a turn. -/
def startsOnly (kind : Request → Bool) : Event Request → Bool
  | .start r => kind r
  | .turn _ => true

theorem only_of_all {kind : Request → Bool} {evs : List (Event Request)} (h : evs.all (startsOnly kind) = true) :
    Only kind evs :=
  fun r hr => List.all_eq_true.mp h (.start r) hr

section Runs

variable (env : Platform) (s₀ : Store)

/-- The state after a list of events. -/
def at_ (evs : List (Event Request)) : Store := (interleave (serve env) s₀ evs).st

/-- What the `j`-th request has seen. -/
def saw (j : ℕ) (evs : List (Event Request)) : List Store := seen (serve env) s₀ j evs

/-- The `j`-th request. -/
def asked (j : ℕ) (evs : List (Event Request)) : Option Request := requested (serve env) s₀ j evs

/-- The `j`-th request has a call left to make. -/
def busy (j : ℕ) (evs : List (Event Request)) : Bool :=
  (interleave (serve env) s₀ evs).threads[j]?.any Thread.running

/-- What a request draws when it starts is new: no token has the id or the family, and no
other request has drawn them. -/
def Fresh (past : List (Event Request)) : Event Request → Prop
  | .start r => ∀ d, r.drawn = some d →
    (∀ id t, (at_ env s₀ past).refreshTokens.find id = some t → id ≠ d.uuid 0 ∧ t.family ≠ d.uuid 1) ∧
    ∀ j r' d', asked env s₀ j past = some r' → r'.drawn = some d' → d'.uuid 0 ≠ d.uuid 0 ∧ d'.uuid 1 ≠ d.uuid 1
  | .turn _ => True

/-- A turn, call by call. -/
theorem turn_call (past : List (Event Request)) (i : ℕ) :
    (at_ env s₀ (.turn i :: past) = at_ env s₀ past ∧ ∀ j, saw env s₀ j (.turn i :: past) = saw env s₀ j past) ∨
    ∃ r, asked env s₀ i past = some r ∧ busy env s₀ i past = true ∧
      saw env s₀ i (.turn i :: past) = at_ env s₀ past :: saw env s₀ i past ∧
      (∀ j, j ≠ i → saw env s₀ j (.turn i :: past) = saw env s₀ j past) ∧
      Call env r (saw env s₀ i past) (at_ env s₀ past) (at_ env s₀ (.turn i :: past)) := by
  rcases turn_cases s₀ (serve_along env) past i with ⟨heq, hseen⟩ | h
  · exact .inl ⟨congrArg Config.st heq, hseen⟩
  · exact .inr h

/-- A request that has a call left makes it with its turn. -/
theorem saw_of_busy {past : List (Event Request)} {i : ℕ} (h : busy env s₀ i past = true) :
    saw env s₀ i (.turn i :: past) = at_ env s₀ past :: saw env s₀ i past :=
  if_pos ⟨rfl, h⟩

/-- What is kept by each turn is kept between any two moments. -/
theorem kept_between (mid past : List (Event Request)) : Kept (at_ env s₀ past) (at_ env s₀ (mid ++ past)) := by
  refine interleave_rel Kept.refl (fun _ _ _ => Kept.trans) (fun past i => ?_) mid past
  rcases turn_call env s₀ past i with ⟨heq, -⟩ | ⟨r, -, -, -, -, hcall⟩
  · show Kept (at_ env s₀ past) (at_ env s₀ (.turn i :: past))
    rw [heq]
    exact Kept.refl _
  · exact hcall.kept

variable {env s₀}

/-- What a request has seen has been kept. -/
theorem saw_kept {j : ℕ} {evs : List (Event Request)} {s : Store} (hs : s ∈ saw env s₀ j evs) :
    Kept s (at_ env s₀ evs) := by
  obtain ⟨l₁, l₂, hl⟩ := List.append_of_mem hs
  obtain ⟨mid, past, rfl, -, rfl, -⟩ := seen_split hl
  have := kept_between env s₀ (mid ++ [.turn j]) past
  rwa [List.append_assoc, List.singleton_append] at this

/-- What a request has found is still there. -/
theorem presented_now {r : Request} {j : ℕ} {evs : List (Event Request)} {x : WithId RefreshToken}
    (hx : presented env r (saw env s₀ j evs) = some x) :
    ∃ y, (at_ env s₀ evs).refreshTokens.find x.1 = some y ∧ y.tokenHash = x.2.tokenHash ∧ y.family = x.2.family ∧
      y.userId = x.2.userId ∧ (x.2.revokedAt.isSome = true → y.revokedAt.isSome = true) := by
  obtain ⟨s, hs, hfind⟩ := presented_mem hx
  exact saw_kept hs x.1 x.2 hfind

/-- A token that a request has found unrevoked was so at the beginning, if it was there. -/
theorem presented_first {r : Request} {j : ℕ} {evs : List (Event Request)} {x : WithId RefreshToken} {t : RefreshToken}
    (hx : presented env r (saw env s₀ j evs) = some x) (hlive : x.2.revokedAt = none)
    (ht : s₀.refreshTokens.find x.1 = some t) : t.revokedAt = none := by
  obtain ⟨s, hs, hfind⟩ := presented_mem hx
  obtain ⟨l₁, l₂, hl⟩ := List.append_of_mem hs
  obtain ⟨mid, past, rfl, -, rfl, -⟩ := seen_split hl
  have hkept := kept_between env s₀ past []
  rw [List.append_nil] at hkept
  obtain ⟨t', ht', -, -, -, hrevoked⟩ := hkept x.1 t ht
  have heq : some x.2 = some t' := hfind.symm.trans ht'
  rw [Option.some.injEq] at heq
  rw [← Option.not_isSome_iff_eq_none]
  intro h
  have := hrevoked h
  rw [← heq, hlive] at this
  cases this

/-- What a request has seen it has seen after its start. -/
theorem saw_after {j : ℕ} {r : Request} {past mid : List (Event Request)} {s : Store}
    (hj : (interleave (serve env) s₀ past).threads.length = j) (hs : s ∈ saw env s₀ j (mid ++ .start r :: past)) :
    ∃ q, .start r :: past <:+ q ∧ q <:+ mid ++ .start r :: past ∧ at_ env s₀ q = s := by
  obtain ⟨l₁, l₂, hl⟩ := List.append_of_mem hs
  obtain ⟨mid', q, hsplit, -, hq, hbusy⟩ := seen_split hl
  have hqe : q <:+ mid ++ .start r :: past := by
    rw [hsplit]
    exact ⟨mid' ++ [.turn j], by simp⟩
  have hlt : j < (interleave (serve env) s₀ q).threads.length := by
    rw [Option.any_eq_true] at hbusy
    obtain ⟨th, hth, -⟩ := hbusy
    exact (List.getElem?_eq_some_iff.mp hth).1
  rcases List.suffix_or_suffix_of_suffix hqe (List.suffix_append mid (.start r :: past)) with h | h
  · rcases List.suffix_cons_iff.mp h with rfl | ⟨a, rfl⟩
    · exact ⟨_, List.suffix_rfl, hqe, hq⟩
    · -- it had not started yet
      obtain ⟨th, hth⟩ : ∃ th, (interleave (serve env) s₀ q).threads[j]? = some th :=
        ⟨_, List.getElem?_eq_getElem hlt⟩
      obtain ⟨p, hp, -⟩ := thread_later hth a
      have := (List.getElem?_eq_some_iff.mp hp).1
      omega
  · exact ⟨q, h, hqe, hq⟩

/-! ### What each request has inserted -/

variable (env s₀)

/-- What is found under the ids and families that requests have drawn. -/
structure Sound (evs : List (Event Request)) : Prop where
  /-- No two requests have drawn the same. -/
  drawn : ∀ ⦃i j r r' d d'⦄, asked env s₀ i evs = some r → asked env s₀ j evs = some r' → r.drawn = some d →
    r'.drawn = some d' → i ≠ j → d.uuid 0 ≠ d'.uuid 0 ∧ d.uuid 1 ≠ d'.uuid 1
  /-- A family that was drawn begins with the token whose id was drawn. -/
  family : ∀ ⦃j r d id t⦄, asked env s₀ j evs = some r → r.drawn = some d →
    (at_ env s₀ evs).refreshTokens.find id = some t → t.family = d.uuid 1 →
    (at_ env s₀ evs).refreshTokens.find (d.uuid 0) ≠ none
  /-- A refresh has inserted what succeeds the token that it has found, and it goes on to
  revoke that token. -/
  inserted : ∀ ⦃j d rawToken info t⦄, asked env s₀ j evs = some (.refresh d rawToken info) →
    (at_ env s₀ evs).refreshTokens.find (d.uuid 0) = some t → ∃ x,
      presented env (.refresh d rawToken info) (saw env s₀ j evs) = some x ∧ x.2.revokedAt = none ∧
      t.family = x.2.family ∧ 6 ≤ (saw env s₀ j evs).length ∧
      ((saw env s₀ j evs).length = 6 → ∃ s, (saw env s₀ j evs).head? = some s ∧
        Insertable s (d.uuid 0) (env.sha256 d.token) x.2.userId) ∧
      (7 ≤ (saw env s₀ j evs).length → ∃ y, (at_ env s₀ evs).refreshTokens.find x.1 = some y ∧
        y.revokedAt.isSome = true)

variable {env s₀}

theorem asked_lt {j : ℕ} {r : Request} {evs : List (Event Request)} (h : asked env s₀ j evs = some r) :
    j < (interleave (serve env) s₀ evs).threads.length :=
  requested_lt h

instance (past : List (Event Request)) (e : Event Request) : Decidable (Fresh env s₀ past e) :=
  match e with
  | .turn _ => .isTrue trivial
  | .start r => decidable_of_iff (∀ d ∈ r.drawn,
      (∀ e ∈ (at_ env s₀ past).refreshTokens.entries, e.1 ≠ d.uuid 0 ∧ e.2.family ≠ d.uuid 1) ∧
      ∀ j < (interleave (serve env) s₀ past).threads.length, ∀ r' ∈ asked env s₀ j past, ∀ d' ∈ r'.drawn,
        d'.uuid 0 ≠ d.uuid 0 ∧ d'.uuid 1 ≠ d.uuid 1) (by
    refine forall_congr' fun d => imp_congr_right fun _ => and_congr ?_ ?_
    · exact (Table.forall_find_iff _ fun id (t : RefreshToken) => id ≠ d.uuid 0 ∧ t.family ≠ d.uuid 1).symm
    constructor
    · exact fun h j r' d' hj hd' => h j (asked_lt hj) r' hj d' hd'
    · exact fun h j _ r' hr' d' hd' => h j r' d' hr' hd')

theorem asked_later {past : List (Event Request)} {j : ℕ} {r : Request} (h : asked env s₀ j past = some r)
    (mid : List (Event Request)) : asked env s₀ j (mid ++ past) = some r :=
  requested_later h mid

theorem saw_later (j : ℕ) (mid past : List (Event Request)) :
    ∃ l, saw env s₀ j (mid ++ past) = l ++ saw env s₀ j past := by
  have hsuffix : saw env s₀ j past <:+ saw env s₀ j (mid ++ past) := seen_suffix j mid past
  obtain ⟨l, hl⟩ := hsuffix
  exact ⟨l, hl.symm⟩

/-- A request that has ended has ended as its program says. -/
theorem ended {evs : List (Event Request)} {j : ℕ} {r : Request} (hj : asked env s₀ j evs = some r)
    (hbusy : busy env s₀ j evs = false) : ∃ p res, (interleave (serve env) s₀ evs).threads[j]? = some ⟨r, p⟩ ∧
      p.result = some res ∧ Ends env r res (saw env s₀ j evs) := by
  obtain ⟨⟨r', p⟩, hth, rfl⟩ := Option.map_eq_some_iff.mp hj
  rw [busy, hth] at hbusy
  have hend := fun res => (along_ended s₀ (serve_along env) hth : _ = some res → Ends env r' res (saw env s₀ j evs))
  cases p with
  | ret a => exact ⟨_, _, hth, rfl, hend _ rfl⟩
  | fail e => exact ⟨_, _, hth, rfl, hend _ rfl⟩
  | act u k => cases hbusy

theorem asked_turn (j i : ℕ) (past : List (Event Request)) : asked env s₀ j (.turn i :: past) = asked env s₀ j past :=
  requested_turn ..

/-- The requests after one more start. -/
theorem asked_start {j : ℕ} {r r' : Request} {past : List (Event Request)}
    (h : asked env s₀ j (.start r :: past) = some r') :
    asked env s₀ j past = some r' ∨ (j = (interleave (serve env) s₀ past).threads.length ∧ r' = r) := by
  have hstart : asked env s₀ j (.start r :: past) = _ := requested_start j r past
  rw [hstart] at h
  by_cases hj : j = (interleave (serve env) s₀ past).threads.length
  · rw [if_pos hj, Option.some.injEq] at h
    exact .inr ⟨hj, h.symm⟩
  · rw [if_neg hj] at h
    exact .inl h

/-- A request has been started. -/
theorem asked_started {i : ℕ} {r : Request} {evs : List (Event Request)} (h : asked env s₀ i evs = some r) :
    .start r ∈ evs := by
  induction evs with
  | nil => cases h
  | cons e past ih =>
    cases e with
    | turn j => exact List.mem_cons_of_mem _ (ih ((asked_turn ..).symm.trans h))
    | start r' =>
      rcases asked_start h with hold | ⟨-, rfl⟩
      · exact List.mem_cons_of_mem _ (ih hold)
      · exact List.mem_cons_self

theorem drawn_of_issuer {r : Request} {d : Draws} (h : r.issuer = some d) : r.drawn = some d := by
  cases r <;> first | exact h | cases h

theorem asked_new {j : ℕ} {r : Request} {past : List (Event Request)}
    (hj : (interleave (serve env) s₀ past).threads.length = j) : asked env s₀ j (.start r :: past) = some r := by
  have hstart : asked env s₀ j (.start r :: past) = _ := requested_start j r past
  rw [hstart, if_pos hj.symm]

theorem Sound.start {past : List (Event Request)} {r : Request} (h : Sound env s₀ past)
    (hfresh : Fresh env s₀ past (.start r)) : Sound env s₀ (.start r :: past) where
  drawn := by
    intro i j r₁ r₂ d₁ d₂ hi hj hd₁ hd₂ hij
    rcases asked_start hi with hold | ⟨hilast, rfl⟩
    · rcases asked_start hj with hold' | ⟨-, rfl⟩
      · exact h.drawn hold hold' hd₁ hd₂ hij
      · exact (hfresh d₂ hd₂).2 i r₁ d₁ hold hd₁
    · rcases asked_start hj with hold' | ⟨hjlast, -⟩
      · obtain ⟨h0, h1⟩ := (hfresh d₁ hd₁).2 j r₂ d₂ hold' hd₂
        exact ⟨h0.symm, h1.symm⟩
      · exact absurd (hilast.trans hjlast.symm) hij
  family := by
    intro j r' d id t hj hd ht hfamily
    rcases asked_start hj with hj | ⟨-, rfl⟩
    · exact h.family hj hd ht hfamily
    · exact absurd hfamily ((hfresh d hd).1 id t ht).2
  inserted := by
    intro j d rawToken info t hj ht
    rcases asked_start hj with hj | ⟨-, rfl⟩
    · exact h.inserted hj ht
    · exact absurd rfl ((hfresh d rfl).1 _ t ht).1

theorem Sound.turn {past : List (Event Request)} (h : Sound env s₀ past) (i : ℕ) :
    Sound env s₀ (.turn i :: past) := by
  rcases turn_call env s₀ past i with ⟨hsame, hsaw⟩ | ⟨r, hr, hbusy, hmoved, hothers, hcall⟩
  · exact ⟨by simpa only [asked_turn] using h.drawn, by simpa only [asked_turn, hsame] using h.family,
      by simpa only [asked_turn, hsame, hsaw] using h.inserted⟩
  have hkept := hcall.kept
  have hinserted : ∀ {j d r'}, asked env s₀ j past = some r' → r'.drawn = some d → ∀ t,
      (at_ env s₀ (.turn i :: past)).refreshTokens.find (d.uuid 0) = some t →
      (at_ env s₀ past).refreshTokens.find (d.uuid 0) = none → j = i := by
    intro j d r' hj hd t ht hnone
    by_contra hij
    rcases hcall.created ht hnone with ⟨d', hd', heq, -⟩ | ⟨d', rawToken, info, x, rfl, heq, -⟩
    · exact (h.drawn hj hr hd (drawn_of_issuer hd') hij).1 heq
    · exact (h.drawn hj hr hd rfl hij).1 heq
  constructor
  · simpa only [asked_turn] using h.drawn
  · intro j r' d id t hj hd ht hfamily
    rw [asked_turn] at hj
    have hlater : (at_ env s₀ past).refreshTokens.find (d.uuid 0) ≠ none →
        (at_ env s₀ (.turn i :: past)).refreshTokens.find (d.uuid 0) ≠ none := by
      intro hfound
      obtain ⟨y, hy⟩ := Option.ne_none_iff_exists'.mp hfound
      obtain ⟨y', hy', -⟩ := hkept _ y hy
      rw [hy']
      exact Option.some_ne_none _
    cases hold : (at_ env s₀ past).refreshTokens.find id with
    | some t₀ =>
      obtain ⟨t', ht', -, hfamily', -⟩ := hkept id t₀ hold
      rw [ht, Option.some.injEq] at ht'
      subst ht'
      exact hlater (h.family hj hd hold (hfamily'.symm.trans hfamily))
    | none =>
      rcases hcall.created ht hold with ⟨d', hd', rfl, hfamily'⟩ | ⟨d', rawToken, info, x, rfl, rfl, hx, -, -, -, hfamily', -⟩
      · by_cases hij : j = i
        · subst hij
          rw [hr, Option.some.injEq] at hj
          subst hj
          rw [drawn_of_issuer hd', Option.some.injEq] at hd
          subst hd
          rw [ht]
          exact Option.some_ne_none _
        · exact absurd (hfamily.symm.trans hfamily') (h.drawn hj hr hd (drawn_of_issuer hd') hij).2
      · obtain ⟨y, hy, -, hyfamily, -⟩ := presented_now hx
        exact hlater (h.family hj hd hy (hyfamily.trans (hfamily'.symm.trans hfamily)))
  · intro j d rawToken info t hj ht
    rw [asked_turn] at hj
    cases hold : (at_ env s₀ past).refreshTokens.find (d.uuid 0) with
    | some t₀ =>
      obtain ⟨t', ht', -, hfamily', -⟩ := hkept _ t₀ hold
      rw [ht, Option.some.injEq] at ht'
      subst ht'
      obtain ⟨x, hx, hlive, hxfamily, hlen, hsix, hseven⟩ := h.inserted hj hold
      have hrevoked : 7 ≤ (saw env s₀ j past).length → ∃ y,
          (at_ env s₀ (.turn i :: past)).refreshTokens.find x.1 = some y ∧ y.revokedAt.isSome = true := by
        intro h7
        obtain ⟨y, hy, hyrevoked⟩ := hseven h7
        obtain ⟨y', hy', -, -, -, hkeep⟩ := hkept _ y hy
        exact ⟨y', hy', hkeep hyrevoked⟩
      by_cases hij : j = i
      · subst hij
        rw [hr, Option.some.injEq] at hj
        subst hj
        rw [hmoved]
        refine ⟨x, presented_append [_] hx, hlive, hfamily'.trans hxfamily, ?_, ?_, fun _ => ?_⟩
        · rw [List.length_cons]
          omega
        · intro h6
          rw [List.length_cons] at h6
          omega
        · by_cases h7 : 7 ≤ (saw env s₀ j past).length
          · exact hrevoked h7
          · obtain ⟨y, hy, -⟩ := presented_now hx
            refine hcall.due (fun k _ => decide (k = x.1)) ?_ x.1 y hy (decide_eq_true rfl)
            rw [due, hx, Option.bind_some, if_neg (by simp [hlive]), if_pos (by omega)]
      · rw [hothers j hij]
        exact ⟨x, hx, hlive, hfamily'.trans hxfamily, hlen, hsix, hrevoked⟩
    | none =>
      have hij := hinserted hj rfl t ht hold
      subst hij
      rw [hr, Option.some.injEq] at hj
      subst hj
      rcases hcall.created ht hold with ⟨d', hd', -⟩ | ⟨d', rawToken', info', x, heq, -, hx, hlive, hlen, hins, hfamily, -⟩
      · cases hd'
      · cases heq
        rw [hmoved, List.length_cons, hlen]
        exact ⟨x, presented_append [_] hx, hlive, hfamily, le_rfl, fun _ => ⟨_, rfl, hins⟩, by omega⟩

/-- **Runs**: if what is drawn is fresh, each request inserts what it has drawn. -/
theorem sound_of_fresh (evs : List (Event Request)) (hfresh : Every (Fresh env s₀) evs) : Sound env s₀ evs := by
  induction evs with
  | nil =>
    constructor
    · intro i j r r' d d' hi
      cases hi
    · intro j r d id t hj
      cases hj
    · intro j d rawToken info t hj
      cases hj
  | cons e past ih =>
    cases e with
    | start r => exact (ih hfresh.2).start hfresh.1
    | turn i => exact (ih hfresh.2).turn i

end Runs

end AuditSphere.Sessions
