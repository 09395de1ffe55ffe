import AuditSphere.Sessions.Families

/-!
# Revocation

A logout, a replay, and what ends all sessions of a user revoke the tokens that are there.
The revocation is final if nothing inserts a token into what was revoked. A refresh that
has made its check before may do just that; and a logout revokes nothing if its own token
has been replaced already (`Mindful`).
-/

namespace AuditSphere.Sessions

open Prisma Theory Shared Auth Users

section Revocation

variable (env : Platform) (s₀ : Store)

/-- A successor is inserted only where the user still has a token of the family that is not
revoked; and a logout that finds its token revoked finds the whole family revoked. -/
def Mindful (past : List (Event Request)) : Event Request → Prop
  | .start _ => True
  | .turn j =>
    (∀ x, Inserting env s₀ past j x → ∃ id t, (at_ env s₀ past).refreshTokens.find id = some t ∧
      t.family = x.2.family ∧ t.userId = x.2.userId ∧ t.revokedAt = none) ∧
    ∀ rawToken actor x, asked env s₀ j past = some (.logout rawToken actor) → saw env s₀ j past = [] →
      busy env s₀ j past = true → presented env (.logout rawToken actor) [at_ env s₀ past] = some x →
      x.2.revokedAt.isSome = true → ∀ id t, (at_ env s₀ past).refreshTokens.find id = some t →
      t.family = x.2.family → t.revokedAt.isSome = true

/-- The family of the token was there when the request made its first call. -/
def Older (l : List Store) (t : RefreshToken) : Prop :=
  ∃ s id y, moment l 0 = some s ∧ s.refreshTokens.find id = some y ∧ y.family = t.family

/-- The tokens that a request has to end which has ended like this: those of the family of its
own token, or those of the user that were issued before, and their successors. -/
def Closes (r : Request) (res : Except AuthError Answer) (l : List Store) (t : RefreshToken) : Prop :=
  match r with
  | .refresh .. => ∃ x, presented env r l = some x ∧ x.2.revokedAt.isSome = true ∧ t.family = x.2.family
  | .logout .. => ∃ x, presented env r l = some x ∧ t.family = x.2.family
  | .revokeAllSessions userId e => keptFamily env e l 0 = none ∧ t.userId = userId ∧ Older l t
  | .changePassword _ userId _ _ e =>
    (∃ a, res = .ok a) ∧ keptFamily env e l 3 = none ∧ t.userId = userId ∧ Older l t
  | .updateUser _ id dto => (∃ a, res = .ok a) ∧ suspends dto = true ∧ t.userId = id ∧ Older l t
  | .resetPassword _ _ id | .resetMfa _ id => (∃ a, res = .ok a) ∧ t.userId = id ∧ Older l t
  | _ => False

/-- All tokens of a family that belong to users of `q` are revoked, and there is some token of it. -/
structure Gone (family : Uuid) (q : Uuid → Prop) (s : Store) : Prop where
  known : ∃ id t, s.refreshTokens.find id = some t ∧ t.family = family
  revoked : ∀ id t, s.refreshTokens.find id = some t → t.family = family → q t.userId → t.revokedAt.isSome = true

variable {env s₀}

theorem mindful_turn_iff {past : List (Event Request)} {j : ℕ} : Mindful env s₀ past (.turn j) ↔
    (∀ r ∈ asked env s₀ j past, r.refreshing.isSome = true → busy env s₀ j past = true →
      (saw env s₀ j past).length = 5 → ∀ x ∈ presented env r (saw env s₀ j past), x.2.revokedAt = none →
      ∃ e ∈ (at_ env s₀ past).refreshTokens.entries, e.2.family = x.2.family ∧ e.2.userId = x.2.userId ∧
        e.2.revokedAt = none) ∧
    ∀ r ∈ asked env s₀ j past, r.refreshing.isSome = false → (saw env s₀ j past).length = 0 → busy env s₀ j past = true →
      ∀ x ∈ presented env r [at_ env s₀ past], x.2.revokedAt.isSome = true →
      ∀ e ∈ (at_ env s₀ past).refreshTokens.entries, e.2.family = x.2.family → e.2.revokedAt.isSome = true := by
  refine and_congr ?_ ?_
  · constructor
    · intro h r hj hd hbusy hlen x hx hlive
      obtain ⟨id, t, ht, hrest⟩ := h x (inserting_iff.mpr ⟨r, hj, hd, hbusy, hlen, hx, hlive⟩)
      exact ⟨(id, t), (Table.find_eq_some_iff _ id t).mp ht, hrest⟩
    · intro h x hx
      obtain ⟨r, hj, hd, hbusy, hlen, hx, hlive⟩ := inserting_iff.mp hx
      obtain ⟨e, he, hrest⟩ := h r hj hd hbusy hlen x hx hlive
      exact ⟨e.1, e.2, (Table.find_eq_some_iff _ e.1 e.2).mpr he, hrest⟩
  · constructor
    · intro h r hj hd hlen hbusy x hx hrevoked e he
      cases r with
      | logout rawToken actor =>
        exact h rawToken actor x hj (List.length_eq_zero_iff.mp hlen) hbusy hx hrevoked e.1 e.2
          ((Table.find_eq_some_iff _ e.1 e.2).mpr he)
      | refresh d rawToken info => cases hd
      | _ => cases hx
    · intro h rawToken actor x hj hsaw hbusy hx hrevoked id t ht
      exact h _ hj rfl (List.length_eq_zero_iff.mpr hsaw) hbusy x hx hrevoked (id, t)
        ((Table.find_eq_some_iff _ id t).mp ht)

set_option synthInstance.maxSize 512 in
instance (past : List (Event Request)) (e : Event Request) : Decidable (Mindful env s₀ past e) :=
  match e with
  | .start _ => .isTrue trivial
  | .turn _ => decidable_of_iff _ mindful_turn_iff.symm

/-- **What is gone stays gone.** -/
theorem Gone.later {family : Uuid} {q : Uuid → Prop} {past : List (Event Request)} (h : Gone family q (at_ env s₀ past))
    (mid : List (Event Request)) (hfresh : Every (Fresh env s₀) (mid ++ past))
    (hmindful : Every (Mindful env s₀) (mid ++ past)) : Gone family q (at_ env s₀ (mid ++ past)) := by
  induction mid with
  | nil => exact h
  | cons e mid ih =>
    have hpast := ih hfresh.2 hmindful.2
    cases e with
    | start r => exact hpast
    | turn i =>
      rw [List.cons_append]
      rcases turn_call env s₀ (mid ++ past) i with ⟨heq, -⟩ | ⟨r, hi, hbusy, -, -, hcall⟩
      · rw [heq]
        exact hpast
      obtain ⟨id₀, t₀, ht₀, hfamily₀⟩ := hpast.known
      constructor
      · obtain ⟨t', ht', -, hfamily', -⟩ := hcall.kept id₀ t₀ ht₀
        exact ⟨id₀, t', ht', hfamily'.trans hfamily₀⟩
      · intro id t ht hfamily hq
        cases hold : (at_ env s₀ (mid ++ past)).refreshTokens.find id with
        | some t₁ =>
          obtain ⟨t', ht', -, hsame, huser, hkeep⟩ := hcall.kept id t₁ hold
          rw [ht, Option.some.injEq] at ht'
          subst ht'
          exact hkeep (hpast.revoked id t₁ hold (hsame.symm.trans hfamily) (huser ▸ hq))
        | none =>
          rcases hcall.created ht hold with ⟨d, hd, rfl, hnew⟩ | ⟨d, rawToken, info, x, rfl, rfl, hx, hlive, hlen, -, hnew, huser⟩
          · exact absurd hold ((sound_of_fresh _ hfresh.2).family hi (drawn_of_issuer hd) ht₀
              (hfamily₀.trans (hfamily.symm.trans hnew)))
          · obtain ⟨id', t', ht', hfamily', huser', hlive'⟩ :=
              hmindful.1.1 x ⟨hbusy, hlen, hlive, d, rawToken, info, hi, hx⟩
            have := hpast.revoked id' t' ht' (hfamily'.trans (hnew.symm.trans hfamily))
              (by rw [huser', ← huser]; exact hq)
            rw [hlive'] at this
            cases this

/-- What was due has been done, and nothing else at that moment. -/
theorem due_done {evs : List (Event Request)} {j : ℕ} {r : Request} {l₁ l₂ : List Store} {s : Store}
    {p : Uuid → RefreshToken → Bool} (hj : asked env s₀ j evs = some r) (hsaw : saw env s₀ j evs = l₁ ++ s :: l₂)
    (hdue : due env r l₂ = some p) : ∃ mid past, evs = mid ++ .turn j :: past ∧ saw env s₀ j past = l₂ ∧
      ∀ id t, (at_ env s₀ (.turn j :: past)).refreshTokens.find id = some t →
        ∃ t₀, (at_ env s₀ past).refreshTokens.find id = some t₀ ∧ t₀.family = t.family ∧ t₀.userId = t.userId ∧
          (p id t₀ = true → t.revokedAt.isSome = true) := by
  obtain ⟨mid, past, rfl, hl₂, -, hbusy⟩ := seen_split hsaw
  refine ⟨mid, past, rfl, hl₂, ?_⟩
  rcases turn_call env s₀ past j with ⟨-, hsame⟩ | ⟨r', hr', -, -, -, hcall⟩
  · have hmoved : saw env s₀ j (.turn j :: past) = (interleave (serve env) s₀ past).st :: saw env s₀ j past :=
      if_pos ⟨rfl, hbusy⟩
    rw [hsame] at hmoved
    have := congrArg List.length hmoved
    simp at this
  have hsame : asked env s₀ j (mid ++ .turn j :: past) = some r' := by
    refine asked_later ?_ mid
    rw [asked_turn, hr']
  rw [hj, Option.some.injEq] at hsame
  subst hsame
  have hl₂ : saw env s₀ j past = l₂ := hl₂
  rw [hl₂] at hcall
  intro id t ht
  cases hold : (at_ env s₀ past).refreshTokens.find id with
  | some t₀ =>
    obtain ⟨t', ht', -, hfamily, huser, -⟩ := hcall.kept id t₀ hold
    rw [ht, Option.some.injEq] at ht'
    subst ht'
    refine ⟨t₀, rfl, hfamily.symm, huser.symm, fun hp => ?_⟩
    obtain ⟨t', ht', hdone⟩ := hcall.due p hdue id t₀ hold hp
    rw [ht, Option.some.injEq] at ht'
    rw [ht']
    exact hdone
  | none =>
    exfalso
    rcases hcall.created ht hold with ⟨d, hd, -⟩ | ⟨d, rawToken, info, x, rfl, -, hx, hlive, hlen, -⟩
    · rw [due_of_issuer hd] at hdue
      cases hdue
    · rw [due, hx, Option.bind_some, if_neg (by simp [hlive]), if_neg (by omega)] at hdue
      cases hdue

/-- The call with which a request revokes, among those that it has made. -/
theorem saw_at {n : ℕ} {l : List Store} (h : n < l.length) : ∃ l₁ s l₂, l = l₁ ++ s :: l₂ ∧ l₂.length = n := by
  have hlt : l.length - n - 1 < l.length := by omega
  refine ⟨l.take (l.length - n - 1), l[l.length - n - 1], l.drop (l.length - n), ?_, ?_⟩
  · have hdrop := List.drop_eq_getElem_cons hlt
    rw [show l.length - n - 1 + 1 = l.length - n by omega] at hdrop
    rw [← hdrop, List.take_append_drop]
  · rw [List.length_drop]
    omega

section Ended

variable {evs : List (Event Request)} {j : ℕ} {r : Request} (hj : asked env s₀ j evs = some r)
  (hfresh : Every (Fresh env s₀) evs) (hmindful : Every (Mindful env s₀) evs)
include hj hfresh hmindful

/-- A request that has found a token and then revoked its family has ended the family. -/
theorem family_gone {x : WithId RefreshToken} (hx : presented env r (saw env s₀ j evs) = some x)
    (hlen : 3 ≤ (saw env s₀ j evs).length)
    (hdue : ∀ l, l.length = 2 → presented env r l = some x →
      due env r l = some fun _ (t : RefreshToken) => decide (t.family = x.2.family)) :
    Gone x.2.family (fun _ => True) (at_ env s₀ evs) := by
  obtain ⟨l₁, s, l₂, hl, hl₂⟩ := saw_at (show 2 < (saw env s₀ j evs).length by omega)
  have hne : l₂ ≠ [] := by
    rintro rfl
    cases hl₂
  have hx₂ : presented env r l₂ = some x := by
    rw [hl, ← List.singleton_append, ← List.append_assoc, presented_append_eq _ hne] at hx
    exact hx
  obtain ⟨mid, past, rfl, hsaw, hdone⟩ := due_done hj hl (hdue l₂ hl₂ hx₂)
  refine Gone.later ⟨?_, ?_⟩ mid hfresh hmindful
  · rw [← hsaw] at hx₂
    obtain ⟨y, hy, -, hfamily, -⟩ := presented_now hx₂
    obtain ⟨y', hy', -, hfamily', -⟩ := kept_between env s₀ [.turn j] past _ y hy
    exact ⟨x.1, y', hy', hfamily'.trans hfamily⟩
  · intro id t ht hfamily _
    obtain ⟨t₀, -, hsame, -, hrevoked⟩ := hdone id t ht
    exact hrevoked (decide_eq_true (hsame.trans hfamily))

/-- A request that has revoked the tokens of a user has ended the families that were there. -/
theorem user_gone {userId : Uuid} {n : ℕ} {t : RefreshToken} (hn : 0 < n) (hlen : n < (saw env s₀ j evs).length)
    (hdue : ∀ l₁ l₂, saw env s₀ j evs = l₁ ++ l₂ → l₂.length = n → due env r l₂ = some fun _ => ofUser userId none)
    (holder : Older (saw env s₀ j evs) t) : Gone t.family (· = userId) (at_ env s₀ evs) := by
  obtain ⟨l₁, s, l₂, hl, hl₂⟩ := saw_at hlen
  have hdue₂ := hdue (l₁ ++ [s]) l₂ (by rw [hl, List.append_assoc, List.singleton_append]) hl₂
  obtain ⟨mid, past, rfl, hsaw, hdone⟩ := due_done hj hl hdue₂
  refine Gone.later ⟨?_, ?_⟩ mid hfresh hmindful
  · obtain ⟨s₁, id, y, hmoment, hy, hfamily⟩ := holder
    rw [hl, ← List.singleton_append, ← List.append_assoc, moment_append _ (by omega), moment] at hmoment
    have hmem : s₁ ∈ saw env s₀ j past := by
      rw [hsaw]
      exact List.mem_reverse.mp (List.mem_of_getElem? hmoment)
    obtain ⟨y₁, hy₁, -, hfamily₁, -⟩ := saw_kept hmem id y hy
    obtain ⟨y₂, hy₂, -, hfamily₂, -⟩ := kept_between env s₀ [.turn j] past id y₁ hy₁
    exact ⟨id, y₂, hy₂, hfamily₂.trans (hfamily₁.trans hfamily)⟩
  · intro id t' ht' _ huser
    obtain ⟨t₀, -, -, hsame, hrevoked⟩ := hdone id t' ht'
    exact hrevoked (by simp [ofUser, hsame.trans huser])

/-- A logout has ended the family of its token. -/
theorem logout_gone {rawToken : Option String} {actor : Option Uuid} {x : WithId RefreshToken}
    (hr : r = .logout rawToken actor) (hx : presented env r (saw env s₀ j evs) = some x)
    (hends : x.2.revokedAt = none → 3 ≤ (saw env s₀ j evs).length) :
    Gone x.2.family (fun _ => True) (at_ env s₀ evs) := by
  subst hr
  cases hrevoked : x.2.revokedAt with
  | none =>
    refine family_gone hj hfresh hmindful hx (hends hrevoked) fun l hl hx' => ?_
    rw [due, hx', Option.bind_some, if_pos ⟨by rw [hrevoked]; rfl, hl⟩]
  | some time =>
    -- the first call has found the whole family revoked
    have hlen : 0 < (saw env s₀ j evs).length := by
      rw [List.length_pos_iff]
      intro hnil
      rw [hnil, presented_nil] at hx
      cases hx
    obtain ⟨l₁, s, l₂, hl, hl₂⟩ := saw_at hlen
    rw [List.length_eq_zero_iff] at hl₂
    subst hl₂
    rw [hl, presented_append_eq _ (by simp)] at hx
    obtain ⟨mid, past, rfl, hsaw, rfl, hbusy⟩ := seen_split hl
    have hasked : asked env s₀ j past = some (.logout rawToken actor) := by
      rcases turn_call env s₀ past j with ⟨-, hsame⟩ | ⟨r', hr', -⟩
      · have hmoved : saw env s₀ j (.turn j :: past) = (interleave (serve env) s₀ past).st :: saw env s₀ j past :=
          if_pos ⟨rfl, hbusy⟩
        rw [hsame] at hmoved
        have := congrArg List.length hmoved
        simp at this
      · have hsame : asked env s₀ j (mid ++ .turn j :: past) = some r' := by
          refine asked_later ?_ mid
          rw [asked_turn, hr']
        rw [hr', ← hsame, hj]
    have hturn : Mindful env s₀ past (.turn j) := (hmindful.past).1
    have hall := hturn.2 rawToken actor x hasked hsaw hbusy hx (by rw [hrevoked]; rfl)
    have hgone : Gone x.2.family (fun _ => True) (at_ env s₀ past) := by
      refine ⟨?_, fun id t ht hfamily _ => hall id t ht hfamily⟩
      obtain ⟨s, hs, hfind⟩ := presented_mem hx
      rw [List.mem_singleton] at hs
      subst hs
      exact ⟨x.1, x.2, hfind, rfl⟩
    have := hgone.later (mid ++ [.turn j]) (by simpa using hfresh) (by simpa using hmindful)
    simpa using this

end Ended

/-- **Revocation is final.** If successors are inserted only where something is left, and no logout
finds its token revoked in a family that is not: once a request has ended that has to end certain
tokens, neither they nor their successors are live at any later time. -/
theorem revocation_final {past mid : List (Event Request)} (hfresh : Every (Fresh env s₀) (mid ++ past))
    (hmindful : Every (Mindful env s₀) (mid ++ past)) {j : ℕ} {r : Request} {p : Method Answer}
    {res : Except AuthError Answer} (hj : (interleave (serve env) s₀ past).threads[j]? = some ⟨r, p⟩)
    (hres : p.result = some res) {id : Uuid} {t : RefreshToken}
    (ht : (at_ env s₀ (mid ++ past)).refreshTokens.find id = some t)
    (hcloses : Closes env r res (saw env s₀ j past) t) : live (at_ env s₀ (mid ++ past)) t = false := by
  have hasked : asked env s₀ j past = some r := by
    show ((interleave (serve env) s₀ past).threads[j]?).map Thread.req = some r
    rw [hj]
    rfl
  have hends : Ends env r res (saw env s₀ j past) := along_ended s₀ (serve_along env) hj hres
  have hdead : ∀ {q : Uuid → Prop}, Gone t.family q (at_ env s₀ past) → q t.userId →
      live (at_ env s₀ (mid ++ past)) t = false := by
    intro q hgone hq
    rw [live, ← Option.not_isSome, (hgone.later mid hfresh hmindful).revoked id t ht rfl hq]
    rfl
  have hfresh' := hfresh.past
  have hmindful' := hmindful.past
  cases r with
  | refresh d rawToken info =>
    obtain ⟨x, hx, hrevoked, hfamily⟩ := hcloses
    have hgone := family_gone hasked hfresh' hmindful' hx ((hends x hx).1 hrevoked) fun l hl hx' => by
      rw [due, hx', Option.bind_some, if_pos hrevoked, if_pos hl]
    rw [← hfamily] at hgone
    exact hdead hgone trivial
  | logout rawToken actor =>
    obtain ⟨x, hx, hfamily⟩ := hcloses
    have hgone := logout_gone hasked hfresh' hmindful' rfl hx (hends x hx)
    rw [← hfamily] at hgone
    exact hdead hgone trivial
  | revokeAllSessions userId e =>
    obtain ⟨hkept, huser, holder⟩ := hcloses
    refine hdead (user_gone hasked hfresh' hmindful' (n := lookUps e + 1) (by omega) hends (fun l₁ l₂ hl hlen => ?_) holder) huser
    rw [hl, keptFamily_append _ (by omega)] at hkept
    rw [due, if_pos hlen, hkept]
  | changePassword d userId old new e =>
    obtain ⟨hok, hkept, huser, holder⟩ := hcloses
    refine hdead (user_gone hasked hfresh' hmindful' (n := lookUps e + 4) (by omega) (hends hok)
      (fun l₁ l₂ hl hlen => ?_) holder) huser
    rw [hl, keptFamily_append _ (by omega)] at hkept
    rw [due, if_pos hlen, hkept]
  | updateUser actor id' dto =>
    obtain ⟨hok, hsuspends, huser, holder⟩ := hcloses
    exact hdead (user_gone hasked hfresh' hmindful' (n := 3) (by omega) (hends hok hsuspends)
      (fun l₁ l₂ hl hlen => if_pos ⟨hsuspends, hlen⟩) holder) huser
  | resetPassword d actor id' =>
    obtain ⟨hok, huser, holder⟩ := hcloses
    exact hdead (user_gone hasked hfresh' hmindful' (n := 3) (by omega) (hends hok)
      (fun l₁ l₂ hl hlen => if_pos hlen) holder) huser
  | resetMfa actor id' =>
    obtain ⟨hok, huser, holder⟩ := hcloses
    exact hdead (user_gone hasked hfresh' hmindful' (n := 3) (by omega) (hends hok)
      (fun l₁ l₂ hl hlen => if_pos hlen) holder) huser
  | _ => exact hcloses.elim

/-- A logout that runs alone. -/
def signOut : List (Event Request) := List.replicate 4 (.turn 0) ++ [.start (.logout (some "first") none)]

theorem revocation_final_signOut : live team (ticket "first" 7) = true ∧
    live (at_ platform team signOut) { ticket "first" 7 with revokedAt := some 0 } = false := by
  have hx : presented platform (.logout (some "first") none) (saw platform team 0 signOut) =
      some (10, ticket "first" 7) := by decide +kernel
  have hasked : asked platform team 0 signOut = some (.logout (some "first") none) :=
    asked_later (asked_new rfl) (List.replicate 4 (.turn 0))
  obtain ⟨p, res, hth, hres, -⟩ := ended hasked (by decide +kernel)
  have ht : (at_ platform team ([] ++ signOut)).refreshTokens.find 10 =
      some { ticket "first" 7 with revokedAt := some 0 } := by decide +kernel
  exact ⟨by decide +kernel, revocation_final (by decide +kernel) (by decide +kernel) hth hres ht ⟨_, hx, rfl⟩⟩

/-- A logout with a token that has been replaced before. -/
def lateSignOut : List (Event Request) :=
  List.replicate 2 (.turn 1) ++ .start (.logout (some "first") none) ::
    (List.replicate 8 (.turn 0) ++ [refreshFirst 1 "second"])

/-- A refresh that has checked its token, then a logout with the same token, then the rest of the refresh. -/
def overtaken : List (Event Request) :=
  List.replicate 3 (.turn 0) ++ List.replicate 4 (.turn 1) ++ .start (.logout (some "first") none) ::
    (List.replicate 5 (.turn 0) ++ [refreshFirst 1 "second"])

/-- Both logouts have ended, and a token of the family is live. -/
theorem revocation_skipped : Every (Fresh platform team) lateSignOut ∧ Every (Fresh platform team) overtaken ∧
    ∀ evs ∈ [lateSignOut, overtaken], busy platform team 1 evs = false ∧
      (presented platform (.logout (some "first") none) (saw platform team 1 evs)).map (fun x => x.2.family) = some 7 ∧
      (at_ platform team evs).refreshTokens.entries.any (fun e => e.2.family = 7 && live (at_ platform team evs) e.2) =
        true := by
  decide +kernel

end Revocation

end AuditSphere.Sessions
