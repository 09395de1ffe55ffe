import AuditSphere.Sessions.Runs

/-!
# Families of refresh tokens

A family is meant to be a chain: the refresh that presents its last token puts the next
one in its place, and one that presents an earlier token is a replay that ends the family.
`refresh` looks its token up, and later inserts the successor without looking again. The
chain is kept as long as no refresh inserts a successor of a token that has one by then, or
into a family in which a replay has been detected since (`Chained`).
-/

namespace AuditSphere.Sessions

open Prisma Theory Shared Auth Users

/-- The token is not revoked and has not expired. -/
def live (s : Store) (t : RefreshToken) : Bool := t.revokedAt.isNone && s.clock < t.expiresAt

/-- No family has two tokens that are not revoked. -/
def OnePerFamily (s : Store) : Prop :=
  ∀ i j t u, s.refreshTokens.find i = some t → s.refreshTokens.find j = some u → t.family = u.family →
    t.revokedAt = none → u.revokedAt = none → i = j

instance (s : Store) : Decidable (OnePerFamily s) :=
  decidable_of_iff (∀ e ∈ s.refreshTokens.entries, ∀ e' ∈ s.refreshTokens.entries, e.2.family = e'.2.family →
      e.2.revokedAt = none → e'.2.revokedAt = none → e.1 = e'.1) (by
    constructor
    · intro h i j t u hi hj
      exact h (i, t) ((Table.find_eq_some_iff _ i t).mp hi) (j, u) ((Table.find_eq_some_iff _ j u).mp hj)
    · intro h e he e' he'
      exact h e.1 e'.1 e.2 e'.2 ((Table.find_eq_some_iff _ _ _).mpr he) ((Table.find_eq_some_iff _ _ _).mpr he'))

section Families

variable (env : Platform) (s₀ : Store)

/-- The next call of the `j`-th request, a refresh, is to insert the successor of `x`. -/
def Inserting (past : List (Event Request)) (j : ℕ) (x : WithId RefreshToken) : Prop :=
  busy env s₀ j past = true ∧ (saw env s₀ j past).length = 5 ∧ x.2.revokedAt = none ∧
    ∃ d rawToken info, asked env s₀ j past = some (.refresh d rawToken info) ∧
      presented env (.refresh d rawToken info) (saw env s₀ j past) = some x

/-- A refresh that has presented the token has inserted a successor. -/
def Succeeded (evs : List (Event Request)) (id : Uuid) : Prop :=
  ∃ j d rawToken info x, asked env s₀ j evs = some (.refresh d rawToken info) ∧
    presented env (.refresh d rawToken info) (saw env s₀ j evs) = some (id, x) ∧
    (at_ env s₀ evs).refreshTokens.find (d.uuid 0) ≠ none

/-- A refresh has found a token of the family that was revoked, and has revoked the family. -/
def Reused (evs : List (Event Request)) (family : Uuid) : Prop :=
  ∃ j d rawToken info x, asked env s₀ j evs = some (.refresh d rawToken info) ∧
    presented env (.refresh d rawToken info) (saw env s₀ j evs) = some x ∧ x.2.revokedAt.isSome = true ∧
    x.2.family = family ∧ 3 ≤ (saw env s₀ j evs).length

/-- A successor is inserted only of a token without one, in a family without a replay. -/
def Chained (past : List (Event Request)) : Event Request → Prop
  | .start _ => True
  | .turn j => ∀ x, Inserting env s₀ past j x → ¬Succeeded env s₀ past x.1 ∧ ¬Reused env s₀ past x.2.family

variable {env s₀}

/-! ### Runs can be checked -/

instance (evs : List (Event Request)) (id : Uuid) : Decidable (Succeeded env s₀ evs id) :=
  decidable_of_iff (∃ j < (interleave (serve env) s₀ evs).threads.length, ∃ r ∈ asked env s₀ j evs, ∃ d ∈ r.refreshing,
      (presented env r (saw env s₀ j evs)).map Prod.fst = some id ∧
        (at_ env s₀ evs).refreshTokens.find (d.uuid 0) ≠ none) (by
    constructor
    · rintro ⟨j, -, r, hj, d, hd, hx, hfound⟩
      obtain ⟨rawToken, info, rfl⟩ := refreshing_iff.mp hd
      obtain ⟨⟨id', x⟩, hx', rfl⟩ := Option.map_eq_some_iff.mp hx
      exact ⟨j, d, rawToken, info, x, hj, hx', hfound⟩
    · rintro ⟨j, d, rawToken, info, x, hj, hx, hfound⟩
      exact ⟨j, asked_lt hj, _, hj, d, rfl, by rw [hx]; rfl, hfound⟩)

instance (evs : List (Event Request)) (family : Uuid) : Decidable (Reused env s₀ evs family) :=
  decidable_of_iff (∃ j < (interleave (serve env) s₀ evs).threads.length, ∃ r ∈ asked env s₀ j evs,
      r.refreshing.isSome = true ∧ ∃ x ∈ presented env r (saw env s₀ j evs), x.2.revokedAt.isSome = true ∧
        x.2.family = family ∧ 3 ≤ (saw env s₀ j evs).length) (by
    constructor
    · rintro ⟨j, -, r, hj, hd, x, hx, hrest⟩
      obtain ⟨d, hd⟩ := Option.isSome_iff_exists.mp hd
      obtain ⟨rawToken, info, rfl⟩ := refreshing_iff.mp hd
      exact ⟨j, d, rawToken, info, x, hj, hx, hrest⟩
    · rintro ⟨j, d, rawToken, info, x, hj, hx, hrest⟩
      exact ⟨j, asked_lt hj, _, hj, rfl, x, hx, hrest⟩)

theorem inserting_iff {past : List (Event Request)} {j : ℕ} {x : WithId RefreshToken} :
    Inserting env s₀ past j x ↔ ∃ r ∈ asked env s₀ j past, r.refreshing.isSome = true ∧
      busy env s₀ j past = true ∧ (saw env s₀ j past).length = 5 ∧
      presented env r (saw env s₀ j past) = some x ∧ x.2.revokedAt = none := by
  constructor
  · rintro ⟨hbusy, hlen, hlive, d, rawToken, info, hj, hx⟩
    exact ⟨_, hj, rfl, hbusy, hlen, hx, hlive⟩
  · rintro ⟨r, hj, hd, hbusy, hlen, hx, hlive⟩
    obtain ⟨d, hd⟩ := Option.isSome_iff_exists.mp hd
    obtain ⟨rawToken, info, rfl⟩ := refreshing_iff.mp hd
    exact ⟨hbusy, hlen, hlive, d, rawToken, info, hj, hx⟩

instance (past : List (Event Request)) (e : Event Request) : Decidable (Chained env s₀ past e) :=
  match e with
  | .start _ => .isTrue trivial
  | .turn j => decidable_of_iff (∀ r ∈ asked env s₀ j past, r.refreshing.isSome = true → busy env s₀ j past = true →
      (saw env s₀ j past).length = 5 → ∀ x ∈ presented env r (saw env s₀ j past), x.2.revokedAt = none →
        ¬Succeeded env s₀ past x.1 ∧ ¬Reused env s₀ past x.2.family) (by
    constructor
    · intro h x hx
      obtain ⟨r, hj, hd, hbusy, hlen, hx, hlive⟩ := inserting_iff.mp hx
      exact h r hj hd hbusy hlen x hx hlive
    · intro h r hj hd hbusy hlen x hx hlive
      exact h x (inserting_iff.mpr ⟨r, hj, hd, hbusy, hlen, hx, hlive⟩))

/-! ### The chain -/

theorem Succeeded.later {past : List (Event Request)} {id : Uuid} (h : Succeeded env s₀ past id) (e : Event Request) :
    Succeeded env s₀ (e :: past) id := by
  obtain ⟨j, d, rawToken, info, x, hj, hx, hfound⟩ := h
  obtain ⟨l, hl⟩ : ∃ l, saw env s₀ j (e :: past) = l ++ saw env s₀ j past := saw_later j [e] past
  refine ⟨j, d, rawToken, info, x, asked_later hj [e], ?_, ?_⟩
  · have := presented_append l hx
    rwa [← hl] at this
  · obtain ⟨t, ht⟩ := Option.ne_none_iff_exists'.mp hfound
    obtain ⟨t', ht', -⟩ := kept_between env s₀ [e] past _ t ht
    rw [List.singleton_append] at ht'
    rw [ht']
    exact Option.some_ne_none _

/-- A token is new in a family: it is alone, or all others are revoked or have a successor. -/
theorem new_alone {past : List (Event Request)} {k : ℕ} {r : Request} (hsound : Sound env s₀ past)
    (hk : asked env s₀ k past = some r) (hbusy : busy env s₀ k past = true)
    (hmoved : saw env s₀ k (.turn k :: past) = at_ env s₀ past :: saw env s₀ k past)
    (hcall : Call env r (saw env s₀ k past) (at_ env s₀ past) (at_ env s₀ (.turn k :: past)))
    (hchained : Chained env s₀ past (.turn k))
    (hpast : ∀ i j t u, (at_ env s₀ past).refreshTokens.find i = some t →
      (at_ env s₀ past).refreshTokens.find j = some u → t.family = u.family → ¬Succeeded env s₀ past i →
      ¬Succeeded env s₀ past j → (∀ t₀, s₀.refreshTokens.find i = some t₀ → t₀.revokedAt = none) →
      (∀ t₀, s₀.refreshTokens.find j = some t₀ → t₀.revokedAt = none) → i = j)
    {i j : Uuid} {t u : RefreshToken} (hi : (at_ env s₀ (.turn k :: past)).refreshTokens.find i = some t)
    (hj : (at_ env s₀ (.turn k :: past)).refreshTokens.find j = some u) (hfamily : t.family = u.family)
    (hnew : (at_ env s₀ past).refreshTokens.find i = none) (hlast : ¬Succeeded env s₀ (.turn k :: past) j)
    (hfirst : ∀ t₀, s₀.refreshTokens.find j = some t₀ → t₀.revokedAt = none) : i = j := by
  cases hold : (at_ env s₀ past).refreshTokens.find j with
  | none =>
    rcases hcall.created hi hnew with ⟨d, hd, rfl, -⟩ | ⟨d, rawToken, info, x, rfl, rfl, -⟩
    · rcases hcall.created hj hold with ⟨d', hd', rfl, -⟩ | ⟨d', rawToken, info, x, rfl, -⟩
      · rw [hd, Option.some.injEq] at hd'
        rw [hd']
      · cases hd
    · rcases hcall.created hj hold with ⟨d', hd', -⟩ | ⟨d', rawToken', info', x', heq, rfl, -⟩
      · cases hd'
      · cases heq
        rfl
  | some u₀ =>
    obtain ⟨u', hu', -, hufamily, -⟩ := hcall.kept j u₀ hold
    rw [hj, Option.some.injEq] at hu'
    subst hu'
    rcases hcall.created hi hnew with ⟨d, hd, rfl, htfamily⟩ | ⟨d, rawToken, info, x, rfl, rfl, hx, hlive, hlen, -, htfamily, -⟩
    · exact absurd hnew (hsound.family hk (drawn_of_issuer hd) hold (hufamily.symm.trans (hfamily.symm.trans htfamily)))
    · -- the token presented is the last of its family, and now it has a successor
      obtain ⟨y, hy, -, hyfamily, -⟩ := presented_now hx
      have hlast' := (hchained x ⟨hbusy, hlen, hlive, d, rawToken, info, hk, hx⟩).1
      have heq := hpast x.1 j y u₀ hy hold
        (hyfamily.trans (htfamily.symm.trans (hfamily.trans hufamily))) hlast' (fun h => hlast (h.later _))
        (fun t₀ => presented_first hx hlive) hfirst
      refine absurd ⟨k, d, rawToken, info, x.2, by rw [asked_turn, hk], ?_, ?_⟩ hlast
      · rw [hmoved, ← heq]
        exact presented_append [_] hx
      · rw [hi]
        exact Option.some_ne_none _

/-- **The chain**: of each family, one token at most has no successor, leaving aside those that
were revoked from the beginning. -/
theorem chained_last (h₀ : OnePerFamily s₀) (evs : List (Event Request)) (hfresh : Every (Fresh env s₀) evs)
    (hchained : Every (Chained env s₀) evs) :
    ∀ i j t u, (at_ env s₀ evs).refreshTokens.find i = some t → (at_ env s₀ evs).refreshTokens.find j = some u →
      t.family = u.family → ¬Succeeded env s₀ evs i → ¬Succeeded env s₀ evs j →
      (∀ t₀, s₀.refreshTokens.find i = some t₀ → t₀.revokedAt = none) →
      (∀ t₀, s₀.refreshTokens.find j = some t₀ → t₀.revokedAt = none) → i = j := by
  induction evs with
  | nil => exact fun i j t u hi hj hfamily _ _ hi₀ hj₀ => h₀ i j t u hi hj hfamily (hi₀ t hi) (hj₀ u hj)
  | cons e past ih =>
    have hpast := ih hfresh.2 hchained.2
    intro i j t u hi hj hfamily hlasti hlastj hi₀ hj₀
    have hsame : ∀ t' u', (at_ env s₀ past).refreshTokens.find i = some t' →
        (at_ env s₀ past).refreshTokens.find j = some u' → t'.family = u'.family → i = j :=
      fun t' u' ht' hu' hfamily' => hpast i j t' u' ht' hu' hfamily' (fun h => hlasti (h.later e))
        (fun h => hlastj (h.later e)) hi₀ hj₀
    cases e with
    | start r => exact hsame t u hi hj hfamily
    | turn k =>
      have hsound := sound_of_fresh past hfresh.2
      rcases turn_call env s₀ past k with ⟨heq, -⟩ | ⟨r, hk, hbusy, hmoved, -, hcall⟩
      · rw [heq] at hi hj
        exact hsame t u hi hj hfamily
      · cases holdi : (at_ env s₀ past).refreshTokens.find i with
        | none => exact new_alone hsound hk hbusy hmoved hcall hchained.1 hpast hi hj hfamily holdi hlastj hj₀
        | some t₀ =>
          cases holdj : (at_ env s₀ past).refreshTokens.find j with
          | none =>
            exact (new_alone hsound hk hbusy hmoved hcall hchained.1 hpast hj hi hfamily.symm holdj hlasti hi₀).symm
          | some u₀ =>
            obtain ⟨t', ht', -, htfamily, -⟩ := hcall.kept i t₀ holdi
            obtain ⟨u', hu', -, hufamily, -⟩ := hcall.kept j u₀ holdj
            rw [hi, Option.some.injEq] at ht'
            rw [hj, Option.some.injEq] at hu'
            subst ht' hu'
            exact hsame t₀ u₀ holdi holdj (htfamily.symm.trans (hfamily.trans hufamily))

/-- A token with a successor is revoked once the refresh that has inserted it has ended. -/
theorem Succeeded.revoked {evs : List (Event Request)} (hsound : Sound env s₀ evs) {id : Uuid} {t : RefreshToken}
    (h : Succeeded env s₀ evs id) (ht : (at_ env s₀ evs).refreshTokens.find id = some t)
    (hended : ∀ j, busy env s₀ j evs = false) : t.revokedAt.isSome = true := by
  obtain ⟨j, d, rawToken, info, x, hj, hx, hfound⟩ := h
  obtain ⟨y, hy⟩ := Option.ne_none_iff_exists'.mp hfound
  obtain ⟨x', hx', hlive, -, hsix, hhead, hseven⟩ := hsound.inserted hj hy
  rw [hx, Option.some.injEq] at hx'
  subst hx'
  by_cases h7 : 7 ≤ (saw env s₀ j evs).length
  · obtain ⟨t', ht', hrevoked⟩ := hseven h7
    rw [ht, Option.some.injEq] at ht'
    rw [ht']
    exact hrevoked
  · -- it cannot have ended right after the insertion
    have h6 : (saw env s₀ j evs).length = 6 := by omega
    obtain ⟨s, hs, hinsertable⟩ := hhead h6
    obtain ⟨p, res, -, -, hends⟩ := ended hj (hended j)
    exact absurd hinsertable ((hends _ hx).2 hlive h6 s hs)

/-- **Replays**: a family in which one has been detected has no token left that is not revoked. -/
theorem reused_revoked (evs : List (Event Request)) (hfresh : Every (Fresh env s₀) evs)
    (hchained : Every (Chained env s₀) evs) {family : Uuid} (hreused : Reused env s₀ evs family) :
    ∀ id t, (at_ env s₀ evs).refreshTokens.find id = some t → t.family = family → t.revokedAt.isSome = true := by
  induction evs with
  | nil =>
    obtain ⟨j, d, rawToken, info, x, hj, -⟩ := hreused
    cases hj
  | cons e past ih =>
    have hpast := ih hfresh.2 hchained.2
    obtain ⟨j, d, rawToken, info, x, hj, hx, hrevoked, hfamily, hlen⟩ := hreused
    cases e with
    | start r =>
      rcases asked_start hj with hold | ⟨hlast, -⟩
      · exact hpast ⟨j, d, rawToken, info, x, hold, hx, hrevoked, hfamily, hlen⟩
      · have hnothing : saw env s₀ j past = [] := seen_of_not_started _ _ (by omega)
        have hsaw : saw env s₀ j (.start r :: past) = [] := hnothing
        rw [hsaw] at hlen
        simp at hlen
    | turn i =>
      rw [asked_turn] at hj
      have hsound := sound_of_fresh past hfresh.2
      rcases turn_call env s₀ past i with ⟨heq, hsaw⟩ | ⟨r, hi, hbusy, hmoved, hothers, hcall⟩
      · rw [hsaw] at hx hlen
        rw [heq]
        exact hpast ⟨j, d, rawToken, info, x, hj, hx, hrevoked, hfamily, hlen⟩
      · intro id t ht htfamily
        by_cases hbefore : Reused env s₀ past family
        · cases hold : (at_ env s₀ past).refreshTokens.find id with
          | some t₀ =>
            obtain ⟨t', ht', -, hsame, -, hkeep⟩ := hcall.kept id t₀ hold
            rw [ht, Option.some.injEq] at ht'
            subst ht'
            exact hkeep (hpast hbefore id t₀ hold (hsame.symm.trans htfamily))
          | none =>
            rcases hcall.created ht hold with ⟨d', hd', rfl, hnew⟩ | ⟨d', raw', info', x', rfl, rfl, hx', hlive', hlen', -, hnew, -⟩
            · obtain ⟨k, d₁, raw₁, info₁, x₁, hk, hx₁, -, hfamily₁, -⟩ := hbefore
              obtain ⟨y, hy, -, hyfamily, -⟩ := presented_now hx₁
              exact absurd hold (hsound.family hi (drawn_of_issuer hd') hy
                (hyfamily.trans (hfamily₁.trans (htfamily.symm.trans hnew))))
            · have := (hchained.1 x' ⟨hbusy, hlen', hlive', d', raw', info', hi, hx'⟩).2
              rw [← hnew, htfamily] at this
              exact absurd hbefore this
        · -- it is this call that ends the family
          have hji : j = i := by
            by_contra hij
            rw [hothers j hij] at hx hlen
            exact hbefore ⟨j, d, rawToken, info, x, hj, hx, hrevoked, hfamily, hlen⟩
          subst hji
          rw [hi, Option.some.injEq] at hj
          subst hj
          rw [hmoved] at hx hlen
          have hne : saw env s₀ j past ≠ [] := by
            intro hnil
            rw [hnil] at hlen
            simp at hlen
          rw [← List.singleton_append, presented_append_eq _ hne] at hx
          have htwo : (saw env s₀ j past).length = 2 := by
            rw [List.length_cons] at hlen
            by_contra hne2
            exact hbefore ⟨j, d, rawToken, info, x, hi, hx, hrevoked, hfamily, by omega⟩
          cases hold : (at_ env s₀ past).refreshTokens.find id with
          | some t₀ =>
            obtain ⟨t', ht', -, hsame, -⟩ := hcall.kept id t₀ hold
            rw [ht, Option.some.injEq] at ht'
            subst ht'
            obtain ⟨t', ht', hdone⟩ := hcall.due (fun _ t => t.family = x.2.family)
              (by rw [due, hx, Option.bind_some, if_pos hrevoked, if_pos htwo]) id t₀ hold
              (decide_eq_true (hsame.symm.trans (htfamily.trans hfamily.symm)))
            rw [ht, Option.some.injEq] at ht'
            rw [ht']
            exact hdone
          | none =>
            rcases hcall.created ht hold with ⟨d', hd', -⟩ | ⟨d', raw', info', x', -, -, -, -, hlen', -⟩
            · cases hd'
            · omega

/-- **Families of refresh tokens.** If each successor is inserted of a token without one, into a
family without a replay, then whenever no request is in progress each family has at most one
live token; and once a refresh has ended that found its token revoked, its family has none. -/
theorem families_chained (h₀ : OnePerFamily s₀) (evs : List (Event Request)) (hfresh : Every (Fresh env s₀) evs)
    (hchained : Every (Chained env s₀) evs) :
    ((∀ j, busy env s₀ j evs = false) → ∀ i j t u, (at_ env s₀ evs).refreshTokens.find i = some t →
      (at_ env s₀ evs).refreshTokens.find j = some u → t.family = u.family → live (at_ env s₀ evs) t = true →
      live (at_ env s₀ evs) u = true → i = j) ∧
    ∀ j d rawToken info x, asked env s₀ j evs = some (.refresh d rawToken info) →
      presented env (.refresh d rawToken info) (saw env s₀ j evs) = some x → x.2.revokedAt.isSome = true →
      busy env s₀ j evs = false → ∀ id t, (at_ env s₀ evs).refreshTokens.find id = some t →
      t.family = x.2.family → live (at_ env s₀ evs) t = false := by
  have hsound := sound_of_fresh evs hfresh
  constructor
  · intro hended i j t u hi hj hfamily hlivet hliveu
    have hunrevoked : ∀ {t : RefreshToken}, live (at_ env s₀ evs) t = true → t.revokedAt.isSome = false := by
      intro t h
      simp only [live, Bool.and_eq_true, Option.isNone_iff_eq_none] at h
      rw [h.1]
      rfl
    have hlast : ∀ {id t}, (at_ env s₀ evs).refreshTokens.find id = some t → live (at_ env s₀ evs) t = true →
        ¬Succeeded env s₀ evs id := by
      intro id t hid hlive hsucceeded
      have := hsucceeded.revoked hsound hid hended
      rw [hunrevoked hlive] at this
      cases this
    have hfirst : ∀ {id t}, (at_ env s₀ evs).refreshTokens.find id = some t → live (at_ env s₀ evs) t = true →
        ∀ t₀, s₀.refreshTokens.find id = some t₀ → t₀.revokedAt = none := by
      intro id t hid hlive t₀ ht₀
      have hkept := kept_between env s₀ evs []
      rw [List.append_nil] at hkept
      obtain ⟨t', ht', -, -, -, hkeep⟩ := hkept id t₀ ht₀
      rw [hid, Option.some.injEq] at ht'
      subst ht'
      rw [← Option.not_isSome_iff_eq_none]
      intro h
      rw [hunrevoked hlive] at hkeep
      exact absurd (hkeep h) Bool.false_ne_true
    exact chained_last h₀ evs hfresh hchained i j t u hi hj hfamily (hlast hi hlivet) (hlast hj hliveu)
      (hfirst hi hlivet) (hfirst hj hliveu)
  · intro j d rawToken info x hj hx hrevoked hbusy id t hid hfamily
    obtain ⟨p, res, -, -, hends⟩ := ended hj hbusy
    have := reused_revoked evs hfresh hchained ⟨j, d, rawToken, info, x, hj, hx, hrevoked, rfl, (hends x hx).1 hrevoked⟩
      id t hid hfamily
    rw [live, ← Option.not_isSome, this]
    rfl

/-- A refresh of the token of the team, and its turns. -/
def refreshFirst (n : ℕ) (next : String) : Event Request := .start (.refresh (draw n next) (some "first") {})

/-- A refresh that runs alone, and a replay of the token that it has replaced. -/
def replay : List (Event Request) :=
  List.replicate 4 (.turn 1) ++ refreshFirst 2 "third" :: (List.replicate 8 (.turn 0) ++ [refreshFirst 1 "second"])

theorem families_chained_replay :
    Reused platform team replay 7 ∧ ∀ id t, (at_ platform team replay).refreshTokens.find id = some t → t.family = 7 →
      live (at_ platform team replay) t = false := by
  have hx : presented platform (.refresh (draw 2 "third") (some "first") {}) (saw platform team 1 replay) =
      some (10, { ticket "first" 7 with revokedAt := some 0, replacedBy := some 100 }) := by decide +kernel
  have hj : asked platform team 1 replay = some (.refresh (draw 2 "third") (some "first") {}) :=
    asked_later (asked_new (by decide +kernel)) (List.replicate 4 (.turn 1))
  exact ⟨by decide +kernel, (families_chained (by decide +kernel) replay (by decide +kernel) (by decide +kernel)).2 1
    _ _ _ _ hj hx rfl (by decide +kernel)⟩

/-- Two refreshes that look the same token up before either has replaced it. -/
def parallel : List (Event Request) :=
  List.replicate 3 (.turn 0) ++ List.replicate 8 (.turn 1) ++ refreshFirst 2 "third" ::
    (List.replicate 5 (.turn 0) ++ [refreshFirst 1 "second"])

/-- Both have ended, and their successors are both live. -/
theorem families_parallel_branch : OnePerFamily team ∧ Every (Fresh platform team) parallel ∧
    (∀ j, busy platform team j parallel = false) ∧
    ¬∀ i j t u, (at_ platform team parallel).refreshTokens.find i = some t →
      (at_ platform team parallel).refreshTokens.find j = some u → t.family = u.family →
      live (at_ platform team parallel) t = true → live (at_ platform team parallel) u = true → i = j := by
  refine ⟨by decide +kernel, by decide +kernel, fun j => ?_, fun h => ?_⟩
  · by_cases hj : j < 2
    · revert j
      decide +kernel
    · have hlen : (interleave (serve platform) team parallel).threads.length = 2 := by decide +kernel
      rw [busy, List.getElem?_eq_none (by omega)]
      rfl
  · have := h 100 200 (successor platform (draw 1 "second") {} (ticket "first" 7) 0)
      (successor platform (draw 2 "third") {} (ticket "first" 7) 0) (by decide +kernel) (by decide +kernel) rfl
      (by decide +kernel) (by decide +kernel)
    cases this

end Families

end AuditSphere.Sessions
