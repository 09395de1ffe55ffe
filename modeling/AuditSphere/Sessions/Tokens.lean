import AuditSphere.Sessions.Requests

/-!
# What requests do to tokens and to the cache

Every call of a request, given the states in which it has made its earlier calls
(`Call`): it leaves the refresh tokens, or issues one into a fresh family, or inserts the
successor of a token that it has found, or revokes some; and it leaves the cache, or drops
entries, or stores what it has just read. When a request has to revoke tokens is known from
what it has seen (`due`), and how it ends as well (`Ends`).
-/

namespace AuditSphere.Sessions

open Prisma Theory Shared Auth Users

/-- What a request draws that begins a session. -/
def Request.issuer : Request → Option Draws
  | .login d _ _ | .verifyMfa d _ _ _ | .callback d _ _ _ | .issueSession d _ _ => some d
  | _ => none

/-- What a refresh draws. -/
def Request.refreshing : Request → Option Draws
  | .refresh d _ _ => some d
  | _ => none

/-- What a request draws that may insert a token. -/
def Request.drawn : Request → Option Draws
  | .refresh d _ _ => some d
  | r => r.issuer

/-- The state in which a request made a call, given the states of its calls so far. -/
def moment (l : List Store) (k : ℕ) : Option Store := l.reverse[k]?

/-- The status is one with which the sessions end. -/
def suspends (dto : UpdateUserDto) : Bool :=
  dto.status.orNull.any fun status => status ≠ .active ∧ status ≠ .invited

section Calls

variable (env : Platform)

/-- The token that a refresh or a logout has found, if it has. -/
def presented : Request → List Store → Option (WithId RefreshToken)
  | .refresh _ rawToken _, l | .logout rawToken _, l =>
    (rawToken.filter (· ≠ "")).bind fun raw => (moment l 0).bind fun s => s.tokenByHash (env.sha256 raw)
  | _, _ => none

/-- One more call if a token is excepted. -/
def lookUps (exceptRawToken : Option String) : ℕ := if (exceptRawToken.filter (· ≠ "")).isSome then 1 else 0

/-- The family that is excepted, found by the `k`-th call. -/
def keptFamily (exceptRawToken : Option String) (l : List Store) (k : ℕ) : Option Uuid :=
  (exceptRawToken.filter (· ≠ "")).bind fun raw =>
    (moment l k).bind fun s => (s.tokenByHash (env.sha256 raw)).map fun t => t.2.family

/-- The tokens of a user, but for the family that is excepted. -/
def ofUser (userId : Uuid) (kept : Option Uuid) (t : RefreshToken) : Bool := t.userId = userId && kept.all (t.family ≠ ·)

/-- The tokens that the next call of a request has to revoke. -/
def due (r : Request) (l : List Store) : Option (Uuid → RefreshToken → Bool) :=
  match r with
  | .refresh .. => (presented env r l).bind fun x =>
    if x.2.revokedAt.isSome then if l.length = 2 then some fun _ t => t.family = x.2.family else none
    else if l.length = 6 then some fun j _ => j = x.1 else none
  | .logout .. => (presented env r l).bind fun x =>
    if x.2.revokedAt.isNone ∧ l.length = 2 then some fun _ t => t.family = x.2.family else none
  | .revokeAllSessions userId e =>
    if l.length = lookUps e + 1 then some fun _ => ofUser userId (keptFamily env e l 0) else none
  | .changePassword _ userId _ _ e =>
    if l.length = lookUps e + 4 then some fun _ => ofUser userId (keptFamily env e l 3) else none
  | .updateUser _ id dto => if suspends dto ∧ l.length = 3 then some fun _ => ofUser id none else none
  | .resetPassword _ _ id | .resetMfa _ id => if l.length = 3 then some fun _ => ofUser id none else none
  | _ => none

/-- A token can be inserted: nothing is stored under its id or its hash, and its user is there. -/
def Insertable (s : Store) (id : Uuid) (hash : String) (userId : Uuid) : Prop :=
  s.refreshTokens.find id = none ∧ (∀ j y, s.refreshTokens.find j = some y → y.tokenHash ≠ hash) ∧
    refersTo s.users (some userId) = true

/-- What a call of a request makes of the refresh tokens. -/
inductive TokenCall : Request → List Store → Store → Store → Prop where
  | kept {r l s s'} (h : s'.refreshTokens = s.refreshTokens) : TokenCall r l s s'
  | issues {r l s s'} (d : Draws) (t : RefreshToken) (hd : r.issuer = some d)
    (hinsert : s.refreshTokens.insert (d.uuid 0) t = some s'.refreshTokens)
    (hinsertable : Insertable s (d.uuid 0) t.tokenHash t.userId) (hfamily : t.family = d.uuid 1) :
    TokenCall r l s s'
  | rotates {d rawToken info l s s'} (id : Uuid) (x t : RefreshToken)
    (hx : presented env (.refresh d rawToken info) l = some (id, x)) (hlive : x.revokedAt = none)
    (hl : l.length = 5) (hinsertable : Insertable s (d.uuid 0) (env.sha256 d.token) x.userId)
    (hinsert : s.refreshTokens.insert (d.uuid 0) t = some s'.refreshTokens)
    (hhash : t.tokenHash = env.sha256 d.token) (hfamily : t.family = x.family) (huser : t.userId = x.userId) :
    TokenCall (.refresh d rawToken info) l s s'
  | revokes {r l s s'} (p : Uuid → RefreshToken → Bool) (f : RefreshToken → RefreshToken)
    (hs' : s'.refreshTokens = s.refreshTokens.modify p f)
    (hf : ∀ t, (f t).tokenHash = t.tokenHash ∧ (f t).family = t.family ∧ (f t).userId = t.userId ∧
      (f t).revokedAt.isSome = true) : TokenCall r l s s'

/-- What a call makes of the cache: an entry is kept, dropped, or what was read just before. -/
def CacheCall (l : List Store) (s s' : Store) : Prop :=
  ∀ id, s'.cache id = s.cache id ∨ s'.cache id = none ∨ ∃ e, s'.cache id = some e ∧
    ∃ s₁, l.head? = some s₁ ∧ s₁.authUser env.mfaEnforcement id = some e.value

/-- What a call of a request does. -/
structure Call (r : Request) (l : List Store) (s s' : Store) : Prop where
  tokens : TokenCall env r l s s'
  /-- What is due is done. -/
  due : ∀ p, due env r l = some p → ∀ j t, s.refreshTokens.find j = some t → p j t = true →
    ∃ t', s'.refreshTokens.find j = some t' ∧ t'.revokedAt.isSome = true
  cache : CacheCall env l s s'

/-- How a request ends. -/
def Ends (r : Request) (res : Except AuthError Answer) (l : List Store) : Prop :=
  match r with
  | .refresh d _ _ => ∀ x, presented env r l = some x →
    (x.2.revokedAt.isSome = true → 3 ≤ l.length) ∧
    (x.2.revokedAt = none → l.length = 6 → ∀ s, l.head? = some s →
      ¬Insertable s (d.uuid 0) (env.sha256 d.token) x.2.userId)
  | .logout .. => ∀ x, presented env r l = some x → x.2.revokedAt = none → 3 ≤ l.length
  | .revokeAllSessions _ e => lookUps e + 2 ≤ l.length
  | .changePassword _ _ _ _ e => (∃ a, res = .ok a) → lookUps e + 5 ≤ l.length
  | .updateUser _ _ dto => (∃ a, res = .ok a) → suspends dto = true → 4 ≤ l.length
  | .resetPassword .. | .resetMfa .. => (∃ a, res = .ok a) → 4 ≤ l.length
  | .load id _ => ∀ v, res = .ok (.loaded (some v)) →
    (∃ s e, l = [s] ∧ s.cache id = some e ∧ e.value = v) ∨ ∃ s ∈ l, s.authUser env.mfaEnforcement id = some v
  | _ => True

/-! ### Single calls -/

variable {env} {r : Request} {l : List Store} {s s' : Store}

/-- A call that leaves tokens and cache. -/
theorem quiet (hdue : due env r l = none) (htokens : s'.refreshTokens = s.refreshTokens)
    (hcache : s'.cache = s.cache) : Call env r l s s' where
  tokens := .kept htokens
  due := by
    intro p hp
    rw [hdue] at hp
    cases hp
  cache := fun id => .inl (congrFun hcache id)

/-- A token is inserted exactly if it can be. -/
theorem insertToken_run (s : Store) (id : Uuid) (t : RefreshToken) :
    (¬Insertable s id t.tokenHash t.userId ∧ ∃ e, (insertToken id t).run s = (.error e, s)) ∨
    (Insertable s id t.tokenHash t.userId ∧ ∃ tokens, s.refreshTokens.insert id t = some tokens ∧
      (insertToken id t).run s = (.ok (), { s with refreshTokens := tokens })) := by
  rw [insertToken, Prog.run_call]
  by_cases hhash : (s.refreshTokens.first fun _ y => y.tokenHash = t.tokenHash).isSome
  · rw [if_pos hhash]
    refine .inl ⟨fun h => ?_, _, rfl⟩
    obtain ⟨⟨j, y⟩, hy⟩ := Option.isSome_iff_exists.mp hhash
    obtain ⟨hj, hyhash⟩ := Table.find_of_first hy
    exact h.2.1 j y hj (by simpa using hyhash)
  rw [if_neg hhash]
  by_cases huser : refersTo s.users (some t.userId) = true
  · rw [if_neg (by simp [huser])]
    cases hinsert : s.refreshTokens.insert id t with
    | none => exact .inl ⟨fun h => (Table.insert_eq_none_iff _ _ _).mp hinsert h.1, _, rfl⟩
    | some tokens =>
      refine .inr ⟨⟨(Table.find_of_insert hinsert).1, ?_, huser⟩, tokens, rfl, rfl⟩
      rw [Bool.not_eq_true, Option.isSome_eq_false_iff, Option.isNone_iff_eq_none, Table.first_eq_none_iff] at hhash
      simpa using hhash
  · rw [if_pos (by simp [huser])]
    exact .inl ⟨fun h => huser h.2.2, _, rfl⟩

/-- A user is updated exactly if it is there. -/
theorem updateUser_run (s : Store) (id : Uuid) (f : Account → Account) :
    (s.users.find id = none ∧ ∃ e, (Auth.updateUser id f).run s = (.error e, s)) ∨
    (s.users.find id ≠ none ∧ (Auth.updateUser id f).run s =
      (.ok (), { s with users := s.users.modify (fun j _ => j = id) f })) := by
  rw [Auth.updateUser, Prog.run_call]
  cases hfind : s.users.find id with
  | none => exact .inl ⟨rfl, _, rfl⟩
  | some u => exact .inr ⟨Option.some_ne_none u, rfl⟩

section Primitives

variable {Q : Except AuthError Unit → List Store → Prop}

theorem along_auditRecord {a b c e} (hdue : due env r l = none) (hQ : ∀ s, Q (.ok ()) (s :: l)) :
    (Auth.auditRecord a b c e).Along (Call env r) Q l := by
  intro s
  exact ⟨quiet hdue rfl rfl, hQ s⟩

theorem along_updateUser {id f} (hdue : due env r l = none) (hQ : ∀ s res, Q res (s :: l)) :
    (Auth.updateUser id f).Along (Call env r) Q l := by
  rw [Auth.updateUser, Prog.along_call]
  intro s
  by_cases hnone : (s.users.find id).isNone
  · rw [if_pos hnone]
    exact ⟨quiet hdue rfl rfl, hQ s _⟩
  · rw [if_neg hnone]
    exact ⟨quiet hdue rfl rfl, hQ s _⟩

theorem along_insertToken {P : List Store → Store → Store → Prop} {id t}
    (hno : ∀ s e, ¬Insertable s id t.tokenHash t.userId → P l s s ∧ Q (.error e) (s :: l))
    (hyes : ∀ s tokens, Insertable s id t.tokenHash t.userId → s.refreshTokens.insert id t = some tokens →
      P l s { s with refreshTokens := tokens } ∧ Q (.ok ()) (s :: l)) : (insertToken id t).Along P Q l := by
  refine Prog.along_of_call fun s res s' hrun => ?_
  rcases insertToken_run s id t with ⟨hnot, e, h⟩ | ⟨hinsertable, tokens, hinsert, h⟩ <;> cases h.symm.trans hrun
  · exact hno s e hnot
  · exact hyes s tokens hinsertable hinsert

theorem along_insertUser {id u} (hdue : due env r l = none) (hQ : ∀ s res, Q res (s :: l)) :
    (insertUser id u).Along (Call env r) Q l := by
  rw [insertUser, Prog.along_call]
  intro s
  by_cases hmail : (s.users.first fun _ x => x.tenantId = u.tenantId && x.email = u.email).isSome
  · rw [if_pos hmail]
    exact ⟨quiet hdue rfl rfl, hQ s _⟩
  · rw [if_neg hmail]
    cases s.users.insert id u with
    | none => exact ⟨quiet hdue rfl rfl, hQ s _⟩
    | some users => exact ⟨quiet hdue rfl rfl, hQ s _⟩

theorem along_updateScoped {actor id f} {Q : Except AuthError Account → List Store → Prop}
    (hdue : due env r l = none) (hQ : ∀ s res, Q res (s :: l)) :
    (updateScoped actor id f).Along (Call env r) Q l := by
  rw [updateScoped, Prog.along_call]
  intro s
  cases (s.users.find id).filter fun u => u.tenantId = actor.tenantId with
  | none => exact ⟨quiet hdue rfl rfl, hQ s _⟩
  | some u =>
    cases hf : f u with
    | error e => 
      simp only [hf]
      exact ⟨quiet hdue rfl rfl, hQ s _⟩
    | ok u' => 
      simp only [hf]
      exact ⟨quiet hdue rfl rfl, hQ s _⟩

theorem along_invalidate {id} (hdue : due env r l = none) (hQ : ∀ s, Q (.ok ()) (s :: l)) :
    (invalidate id).Along (Call env r) Q l := by
  intro s
  refine ⟨⟨.kept rfl, ?_, ?_⟩, hQ s⟩
  · intro p hp
    rw [hdue] at hp
    cases hp
  · intro j
    by_cases hj : j = id
    · subst hj
      exact .inr (.inl (Function.update_self ..))
    · exact .inl (Function.update_of_ne hj ..)

/-- The tokens that are due are revoked. -/
theorem along_revokeTokens {q : RefreshToken → Bool} {time : Date}
    (hdue : ∀ p, due env r l = some p → ∀ j t, p j t = true → q t = true) (hQ : ∀ s, Q (.ok ()) (s :: l)) :
    (revokeTokens q time).Along (Call env r) Q l := by
  intro s
  refine ⟨⟨.revokes (fun _ t => q t && t.revokedAt.isNone) (fun t => { t with revokedAt := some time }) rfl
    fun t => ⟨rfl, rfl, rfl, rfl⟩, ?_, fun id => .inl rfl⟩, hQ s⟩
  intro p hp j t hj hpj
  refine ⟨_, by rw [Table.find_modify, hj]; rfl, ?_⟩
  have hq := hdue p hp j t hpj
  cases hrevoked : t.revokedAt <;> simp [hq, hrevoked]

end Primitives

/-- A look at the state. -/
theorem along_look {α β : Type} {Q : Except AuthError β → List Store → Prop} {f : Store → α} {k : α → Method β}
    (hdue : due env r l = none) (hk : ∀ s, (k (f s)).Along (Call env r) Q (s :: l)) :
    (Prog.read f >>= k).Along (Call env r) Q l := by
  rw [Prog.along_read_bind]
  exact fun s => ⟨quiet hdue rfl rfl, hk s⟩

/-- A fresh load answers what it has read of the user, and stores just that. -/
theorem along_load_fresh {id : Uuid} {Q : Except AuthError (Option AuthUser) → List Store → Prop}
    (hdue : ∀ l', l <:+ l' → l'.length ≤ l.length + 2 → due env r l' = none)
    (hQ : ∀ s₁ s₂ s₃, Q (.ok (s₂.authUser env.mfaEnforcement id)) (s₃ :: s₂ :: s₁ :: l)) :
    (load env.mfaEnforcement id true).Along (Call env r) Q l := by
  refine along_look (hdue l List.suffix_rfl (by omega)) fun s₁ => ?_
  have h₁ := hdue (s₁ :: l) (List.suffix_cons _ _) (by simp)
  refine along_look h₁ fun s₂ => ?_
  have h₂ := hdue (s₂ :: s₁ :: l) ⟨[s₂, s₁], rfl⟩ (by simp)
  cases hread : s₂.authUser env.mfaEnforcement id with
  | none =>
    rw [Prog.along_bind]
    refine along_invalidate h₂ fun s₃ => ?_
    rw [Prog.along_pure, ← hread]
    exact hQ s₁ s₂ s₃
  | some value =>
    rw [Prog.along_bind]
    intro s₃
    refine ⟨⟨.kept rfl, ?_, fun j => ?_⟩, ?_⟩
    · intro p hp
      rw [h₂] at hp
      cases hp
    · by_cases hj : j = id
      · subst hj
        exact .inr (.inr ⟨_, Function.update_self .., s₂, rfl, hread⟩)
      · exact .inl (Function.update_of_ne hj ..)
    · have := hQ s₁ s₂ s₃
      rwa [hread] at this

/-- A session is issued into a fresh family. -/
theorem along_issueSession {d : Draws} {userId : Uuid} {info : RequestMeta} (hd : r.issuer = some d)
    (hdue : ∀ l', due env r l' = none) :
    (Auth.issueSession env d userId info none).Along (Call env r) (fun _ _ => True) l := by
  rw [Auth.issueSession, Prog.along_bind]
  refine along_load_fresh (fun l' _ _ => hdue l') fun s₁ s₂ s₃ => ?_
  cases s₂.authUser env.mfaEnforcement userId with
  | none => trivial
  | some user =>
    refine along_look (hdue _) fun s₄ => ?_
    rw [Prog.along_bind]
    refine along_insertToken (fun s e _ => ⟨quiet (hdue _) rfl rfl, trivial⟩) fun s tokens hinsertable hinsert => ?_
    refine ⟨⟨.issues d _ hd hinsert hinsertable rfl, ?_, fun id => .inl rfl⟩, ?_⟩
    · intro p hp
      rw [hdue] at hp
      cases hp
    · dsimp only
      rw [Prog.along_bind]
      exact along_auditRecord (hdue _) fun _ => trivial

/-! ### Requests that revoke nothing -/

section Undue

variable (hdue : ∀ l', due env r l' = none)
include hdue

theorem along_checkMfaCode {id : Uuid} {user : Account} {code : String} {Q : Except AuthError Bool → List Store → Prop}
    (hQ : ∀ res l', Q res l') : (checkMfaCode env id user code).Along (Call env r) Q l := by
  rw [checkMfaCode]
  refine along_look (hdue _) fun s => ?_
  rw [Prog.along_ite]
  split
  · exact hQ _ _
  · rw [useRecoveryCode]
    split
    · exact hQ _ _
    · rw [Prog.along_bind]
      refine along_updateUser (hdue _) fun s' res => ?_
      cases res with
      | error e => exact hQ _ _
      | ok u =>
        dsimp only
        rw [Prog.along_bind]
        exact along_auditRecord (hdue _) fun _ => hQ _ _

theorem along_login {d : Draws} {dto : LoginDto} {info : RequestMeta} (hd : r.issuer = some d) :
    (Auth.login env d dto info).Along (Call env r) (fun _ _ => True) l := by
  rw [Auth.login]
  refine along_look (hdue _) fun s₁ => along_look (hdue _) fun s₂ => ?_
  rcases s₁.loginUser env dto.email dto.tenantSlug with _ | ⟨⟨id, user⟩, tenant⟩
  · trivial
  dsimp only
  rw [Prog.along_ite]
  split
  · trivial
  rw [loginFound, Prog.along_ite]
  split
  · rw [Prog.along_bind]
    exact along_auditRecord (hdue _) fun _ => trivial
  rw [Prog.along_ite]
  split
  · rw [Prog.along_bind]
    exact along_auditRecord (hdue _) fun _ => trivial
  rw [Prog.along_ite]
  split
  · rw [Prog.along_bind, registerFailedLogin, Prog.along_bind]
    refine along_updateUser (hdue _) fun s₃ res => ?_
    cases res with
    | error e => trivial
    | ok u => exact along_auditRecord (hdue _) fun _ => trivial
  · rw [loginVerified, Prog.along_bind]
    refine along_updateUser (hdue _) fun s₃ res => ?_
    cases res with
    | error e => trivial
    | ok u =>
      dsimp only
      rw [Prog.along_bind]
      refine along_invalidate (hdue _) fun s₄ => ?_
      dsimp only
      rw [Prog.along_ite]
      split
      · refine along_look (hdue _) fun s₅ => ?_
        rw [Prog.along_bind]
        exact along_auditRecord (hdue _) fun _ => trivial
      · rw [Prog.along_bind]
        refine (along_issueSession hd hdue).mono (fun _ _ _ _ h => h) ?_
        rintro (e | x) l' - - <;> trivial

theorem along_verifyMfa {d : Draws} {mfaToken code : String} {info : RequestMeta} (hd : r.issuer = some d) :
    (Auth.verifyMfa env d mfaToken code info).Along (Call env r) (fun _ _ => True) l := by
  rw [Auth.verifyMfa]
  refine along_look (hdue _) fun s₁ => ?_
  rcases env.verifyMfa mfaToken s₁.clock with _ | ⟨id, tenantId⟩
  · trivial
  refine along_look (hdue _) fun s₂ => ?_
  cases (s₂.findUser id).filter fun u => u.mfaEnabled && u.mfaSecretEnc.any (· ≠ "") with
  | none => trivial
  | some user =>
    dsimp only
    rw [Prog.along_bind]
    refine along_checkMfaCode hdue fun res l' => ?_
    rcases res with e | ok
    · trivial
    dsimp only
    rw [Prog.along_ite]
    split
    · exact along_issueSession hd hdue
    · rw [Prog.along_bind]
      exact along_auditRecord (hdue _) fun _ => trivial

theorem along_callback {d : Draws} {stateCookie : Option String} {granted : Option EntraClaims} {info : RequestMeta}
    (hd : r.issuer = some d) :
    (callback env d stateCookie granted info).Along (Call env r) (fun _ _ => True) l := by
  rw [callback, Prog.along_ite]
  split
  · trivial
  cases stateCookie.filter (· ≠ "") with
  | none => trivial
  | some cookie =>
    refine along_look (hdue _) fun s₁ => ?_
    cases env.verifyEntraState cookie s₁.clock with
    | none => trivial
    | some returnTo =>
      cases granted with
      | none => trivial
      | some claims =>
        dsimp only
        rw [Prog.along_ite]
        split
        · trivial
        rw [Prog.along_bind]
        suffices h : ∀ l', (provisionUser env d claims (claims.address env)).Along (Call env r) (fun _ _ => True) l' by
          refine (h _).mono (fun _ _ _ _ h => h) ?_
          rintro (e | id) l' - -
          · trivial
          · dsimp only
            rw [Prog.along_bind]
            refine (along_issueSession hd hdue).mono (fun _ _ _ _ h => h) ?_
            rintro (e | session) l' - - <;> trivial
        intro l'
        rw [provisionUser]
        refine along_look (hdue _) fun s₂ => ?_
        cases s₂.resolveTenant env with
        | none => trivial
        | some tenant =>
          refine along_look (hdue _) fun s₃ => along_look (hdue _) fun s₄ => ?_
          split
          · rw [Prog.along_ite]
            split
            · trivial
            · rw [Prog.along_bind]
              refine along_updateUser (hdue _) fun s res => ?_
              cases res <;> trivial
          · rw [Prog.along_bind]
            refine along_insertUser (hdue _) fun s res => ?_
            cases res with
            | error e => trivial
            | ok u =>
              dsimp only
              rw [Prog.along_bind]
              exact along_auditRecord (hdue _) fun _ => trivial

theorem along_mfaSetup {d : Draws} {userId : Uuid} :
    (mfaSetup env d userId).Along (Call env r) (fun _ _ => True) l := by
  rw [mfaSetup]
  refine along_look (hdue _) fun s => ?_
  cases s.findUser userId with
  | none => trivial
  | some user =>
    dsimp only
    rw [Prog.along_ite]
    split
    · trivial
    · rw [Prog.along_bind]
      refine along_updateUser (hdue _) fun s' res => ?_
      cases res with
      | error e => trivial
      | ok u =>
        dsimp only
        rw [Prog.along_bind]
        exact along_auditRecord (hdue _) fun _ => trivial

/-- The last calls of those who change a user: the cache is told, and the audit trail. -/
theorem along_announced {α : Type} {id : Uuid} {a b c e} {v : α} :
    ((do invalidate id; Auth.auditRecord a b c e; pure v) : Method α).Along (Call env r) (fun _ _ => True) l := by
  rw [Prog.along_bind]
  refine along_invalidate (hdue _) fun s => ?_
  dsimp only
  rw [Prog.along_bind]
  exact along_auditRecord (hdue _) fun _ => trivial

theorem along_mfaEnable {d : Draws} {userId : Uuid} {code : String} :
    (mfaEnable env d userId code).Along (Call env r) (fun _ _ => True) l := by
  rw [mfaEnable]
  refine along_look (hdue _) fun s => ?_
  cases s.findUser userId with
  | none => trivial
  | some user =>
    dsimp only
    rw [Prog.along_ite]
    split
    · trivial
    cases user.mfaSecretEnc.filter (· ≠ "") with
    | none => trivial
    | some secret =>
      refine along_look (hdue _) fun s₁ => ?_
      rw [Prog.along_ite]
      split
      · trivial
      · rw [Prog.along_bind]
        refine along_updateUser (hdue _) fun s' res => ?_
        cases res with
        | error e => trivial
        | ok u => exact along_announced hdue

theorem along_mfaDisable {userId : Uuid} {code : String} :
    (mfaDisable env userId code).Along (Call env r) (fun _ _ => True) l := by
  rw [mfaDisable]
  refine along_look (hdue _) fun s => ?_
  cases s.findUser userId with
  | none => trivial
  | some user =>
    dsimp only
    rw [Prog.along_ite]
    split
    · trivial
    rw [Prog.along_bind]
    refine along_checkMfaCode hdue fun res l' => ?_
    rcases res with e | ok
    · trivial
    dsimp only
    rw [Prog.along_ite]
    split
    · rw [Prog.along_bind]
      refine along_updateUser (hdue _) fun s' res => ?_
      cases res with
      | error e => trivial
      | ok u => exact along_announced hdue
    · trivial

theorem along_create {d : Draws} {actor : AuthUser} {dto : CreateUserDto} :
    (Users.create env d actor dto).Along (Call env r) (fun _ _ => True) l := by
  rw [Users.create]
  refine along_look (hdue _) fun s => ?_
  rw [Prog.along_ite]
  split
  · trivial
  · rw [Prog.along_bind]
    refine along_insertUser (hdue _) fun s' res => ?_
    cases res with
    | error e => trivial
    | ok u =>
      dsimp only
      rw [Prog.along_bind]
      exact along_auditRecord (hdue _) fun _ => trivial

theorem along_setRoles {actor : AuthUser} {id : Uuid} {dto : SetRolesDto} :
    (Users.setRoles actor id dto).Along (Call env r) (fun _ _ => True) l := by
  rw [Users.setRoles]
  refine along_look (hdue _) fun s => ?_
  cases findScoped actor s id with
  | none => trivial
  | some user =>
    dsimp only
    rw [Prog.along_ite]
    split
    · trivial
    rw [Prog.along_bind]
    refine along_updateUser (hdue _) fun s' res => ?_
    cases res with
    | error e => trivial
    | ok u =>
      dsimp only
      rw [Prog.along_bind]
      refine along_invalidate (hdue _) fun s₁ => ?_
      dsimp only
      rw [Prog.along_bind, Users.get]
      refine along_look (hdue _) fun s₂ => ?_
      cases findScoped actor s₂ id with
      | none => trivial
      | some after =>
        dsimp only
        rw [Prog.along_pure]
        dsimp only
        rw [Prog.along_bind]
        exact along_auditRecord (hdue _) fun _ => trivial

end Undue

/-! ### Requests that revoke -/

theorem presented_refresh {d : Draws} {raw : String} {rawToken : Option String} {info : RequestMeta} {s : Store}
    {l' : List Store} (hraw : rawToken.filter (· ≠ "") = some raw) :
    presented env (.refresh d rawToken info) (l' ++ [s]) = s.tokenByHash (env.sha256 raw) := by
  rw [presented, hraw]
  simp [moment]

theorem presented_logout {actor : Option Uuid} {raw : String} {rawToken : Option String} {s : Store}
    {l' : List Store} (hraw : rawToken.filter (· ≠ "") = some raw) :
    presented env (.logout rawToken actor) (l' ++ [s]) = s.tokenByHash (env.sha256 raw) := by
  rw [presented, hraw]
  simp [moment]

/-- The rotation of a token that was found and may be used: insert the successor, then revoke. -/
theorem along_rotation {d : Draws} {rawToken : Option String} {info : RequestMeta} {id : Uuid} {x : RefreshToken}
    {time : Date} {actorId : Option Uuid} {α : Type} {v : α}
    (hx : ∀ l', presented env (.refresh d rawToken info) (l' ++ l) = some (id, x))
    (hlive : x.revokedAt = none) (hl : l.length = 5) :
    ((do
      insertToken (d.uuid 0) (successor env d info x time)
      replaceToken id (d.uuid 0) time
      Auth.auditRecord actorId "auth.refresh" "RefreshToken" (d.uuid 0)
      pure v) : Method α).Along (Call env (.refresh d rawToken info))
        (fun _ l' => ∀ res, Ends env (.refresh d rawToken info) res l') l := by
  have hends : ∀ l', (l'.length = 1 → ∀ s, l'.head? = some s →
      ¬Insertable s (d.uuid 0) (env.sha256 d.token) x.userId) → ∀ res,
      Ends env (.refresh d rawToken info) res (l' ++ l) := by
    intro l' hblocked res y hy
    rw [hx, Option.some.injEq] at hy
    subst hy
    refine ⟨fun h => absurd h (by simp [hlive]), fun _ hlen s hs => ?_⟩
    rw [List.length_append, hl] at hlen
    cases l' with
    | nil => simp at hlen
    | cons s' l' => exact hblocked (by simpa using hlen) s hs
  have hdue : ∀ l', l'.length ≠ 1 → due env (.refresh d rawToken info) (l' ++ l) = none := by
    intro l' hl'
    rw [due, hx, Option.bind_some, if_neg (by simp [hlive]), if_neg]
    rw [List.length_append, hl]
    omega
  rw [Prog.along_bind]
  refine along_insertToken (fun s e hnot => ⟨quiet (hdue [] (by simp)) rfl rfl, hends [s] fun _ _ hs => ?_⟩)
    fun s tokens hinsertable hinsert => ?_
  · cases hs
    exact hnot
  refine ⟨⟨.rotates id x _ (hx []) hlive hl hinsertable hinsert rfl rfl rfl, ?_, fun id => .inl rfl⟩, ?_⟩
  · intro p hp
    rw [← List.nil_append l, hdue [] (by simp)] at hp
    cases hp
  dsimp only
  rw [Prog.along_bind, replaceToken, Prog.along_call]
  intro s'
  have hdue₁ : due env (.refresh d rawToken info) (s :: l) = some fun j _ => decide (j = id) := by
    rw [due, ← List.singleton_append, hx, Option.bind_some, if_neg (by simp [hlive]), if_pos (by simp [hl])]
  by_cases hfind : (s'.refreshTokens.find id).isNone
  · rw [if_pos hfind]
    refine ⟨⟨.kept rfl, ?_, fun id => .inl rfl⟩, hends [s', s] (by simp)⟩
    intro p hp j t hj hpj
    rw [hdue₁, Option.some.injEq] at hp
    subst hp
    rw [of_decide_eq_true hpj] at hj
    rw [hj] at hfind
    cases hfind
  · rw [if_neg hfind]
    refine ⟨⟨.revokes (fun j _ => j = id) (fun t => { t with revokedAt := some time, replacedBy := some (d.uuid 0) })
      rfl fun t => ⟨rfl, rfl, rfl, rfl⟩, ?_, fun id => .inl rfl⟩, ?_⟩
    · intro p hp j t hj hpj
      rw [hdue₁, Option.some.injEq] at hp
      subst hp
      refine ⟨_, by rw [Table.find_modify, hj]; rfl, ?_⟩
      simp [of_decide_eq_true hpj]
    · dsimp only
      rw [Prog.along_bind]
      refine along_auditRecord (hdue [s', s] (by simp)) fun s'' => ?_
      exact hends [s'', s', s] (by simp)

theorem along_refresh {d : Draws} {rawToken : Option String} {info : RequestMeta} :
    (Auth.refresh env d rawToken info).Along (Call env (.refresh d rawToken info))
      (fun _ l' => ∀ res, Ends env (.refresh d rawToken info) res l') [] := by
  have hnone : ∀ {l'}, presented env (.refresh d rawToken info) l' = none →
      ∀ res, Ends env (.refresh d rawToken info) res l' := by
    intro l' hl' res y hy
    rw [hl'] at hy
    cases hy
  rw [Auth.refresh]
  cases hraw : rawToken.filter (· ≠ "") with
  | none =>
    refine hnone ?_
    rw [presented, hraw]
    rfl
  | some raw =>
    have hfound : ∀ s l', presented env (.refresh d rawToken info) (l' ++ [s]) = s.tokenByHash (env.sha256 raw) :=
      fun s l' => presented_refresh hraw
    refine along_look (by simp [due, presented, moment]) fun s₁ => ?_
    cases hx : s₁.tokenByHash (env.sha256 raw) with
    | none => exact hnone (by rw [← List.nil_append [s₁], hfound, hx])
    | some x =>
      obtain ⟨id, x⟩ := x
      have hx' : ∀ l', presented env (.refresh d rawToken info) (l' ++ [s₁]) = some (id, x) :=
        fun l' => (hfound s₁ l').trans hx
      have hdue : ∀ l', l'.length ≠ 1 → l'.length ≠ 5 → due env (.refresh d rawToken info) (l' ++ [s₁]) = none := by
        intro l' h1 h5
        rw [due, hx', Option.bind_some]
        split
        · rw [if_neg (by rw [List.length_append, List.length_singleton]; omega)]
        · rw [if_neg (by rw [List.length_append, List.length_singleton]; omega)]
      have hends : ∀ l', (x.revokedAt.isSome = true → 2 ≤ l'.length) → (x.revokedAt = none → l'.length ≠ 5) →
          ∀ res, Ends env (.refresh d rawToken info) res (l' ++ [s₁]) := by
        intro l' hrevoked hlive res y hy
        rw [hx', Option.some.injEq] at hy
        subst hy
        refine ⟨fun h => ?_, fun h hlen => ?_⟩
        · have := hrevoked h
          rw [List.length_append, List.length_singleton]
          omega
        · rw [List.length_append, List.length_singleton] at hlen
          exact absurd (by omega) (hlive h)
      refine along_look (hdue [] (by simp) (by simp)) fun s₂ => ?_
      rw [refreshFound, Prog.along_ite]
      split
      · rename_i hrevoked
        rw [Prog.along_bind]
        refine along_revokeTokens ?_ fun s₃ => ?_
        · intro p hp j t hpj
          rw [due, ← List.singleton_append, hx', Option.bind_some, if_pos hrevoked,
            if_pos (by simp), Option.some.injEq] at hp
          subst hp
          exact hpj
        · dsimp only
          rw [Prog.along_bind]
          refine along_auditRecord (hdue [s₃, s₂] (by simp) (by simp)) fun s₄ => ?_
          exact hends [s₄, s₃, s₂] (by simp) (by simp)
      rename_i hlive
      rw [Bool.not_eq_true, Option.isSome_eq_false_iff, Option.isNone_iff_eq_none] at hlive
      rw [Prog.along_ite]
      split
      · exact hends [s₂] (by simp [hlive]) (by simp)
      rw [Prog.along_bind]
      refine along_load_fresh ?_ fun s₃ s₄ s₅ => ?_
      · rintro l' ⟨mid, rfl⟩ hlen
        rw [← List.singleton_append, ← List.append_assoc]
        rw [List.length_append] at hlen
        simp only [List.length_cons, List.length_nil] at hlen
        rw [due, hx', Option.bind_some, if_neg (by simp [hlive]), if_neg]
        simp only [List.length_append, List.length_cons, List.length_nil]
        omega
      · dsimp only
        cases (s₄.authUser env.mfaEnforcement x.userId).filter AuthUser.valid with
        | none => exact hends [s₅, s₄, s₃, s₂] (by simp [hlive]) (by simp)
        | some user =>
          refine along_rotation (fun l' => ?_) hlive rfl
          have := hx' (l' ++ [s₅, s₄, s₃, s₂])
          rwa [List.append_assoc] at this

theorem along_logout {rawToken : Option String} {actor : Option Uuid} :
    (Auth.logout env rawToken actor).Along (Call env (.logout rawToken actor))
      (fun _ l' => ∀ res, Ends env (.logout rawToken actor) res l') [] := by
  have hnone : ∀ {l'}, presented env (.logout rawToken actor) l' = none →
      due env (.logout rawToken actor) l' = none ∧ ∀ res, Ends env (.logout rawToken actor) res l' := by
    intro l' hl'
    refine ⟨by rw [due, hl']; rfl, fun res y hy => ?_⟩
    rw [hl'] at hy
    cases hy
  have hactor : ∀ l', (∀ l'', presented env (.logout rawToken actor) (l'' ++ l') = none) →
      (logoutWithout actor).Along (Call env (.logout rawToken actor))
        (fun _ l' => ∀ res, Ends env (.logout rawToken actor) res l') l' := by
    intro l' hl'
    cases actor with
    | none => exact (hnone (hl' [])).2
    | some id => exact along_auditRecord (hnone (hl' [])).1 fun s => (hnone (hl' [s])).2
  rw [Auth.logout]
  cases hraw : rawToken.filter (· ≠ "") with
  | none =>
    refine hactor [] fun l'' => ?_
    rw [presented, hraw]
    rfl
  | some raw =>
    have hfound : ∀ s l', presented env (.logout rawToken actor) (l' ++ [s]) = s.tokenByHash (env.sha256 raw) :=
      fun s l' => presented_logout hraw
    refine along_look (by simp [due, presented, moment]) fun s₁ => ?_
    cases hx : s₁.tokenByHash (env.sha256 raw) with
    | none => exact hactor [s₁] fun l'' => by rw [hfound, hx]
    | some x =>
      obtain ⟨id, x⟩ := x
      have hx' : ∀ l', presented env (.logout rawToken actor) (l' ++ [s₁]) = some (id, x) :=
        fun l' => (hfound s₁ l').trans hx
      have hdue : ∀ l', l'.length ≠ 1 → due env (.logout rawToken actor) (l' ++ [s₁]) = none := by
        intro l' h1
        rw [due, hx', Option.bind_some, if_neg]
        rw [List.length_append, List.length_singleton]
        omega
      have hends : ∀ l', (x.revokedAt = none → 2 ≤ l'.length) → ∀ res,
          Ends env (.logout rawToken actor) res (l' ++ [s₁]) := by
        intro l' hlen res y hy hlive
        rw [hx', Option.some.injEq] at hy
        subst hy
        have := hlen hlive
        rw [List.length_append, List.length_singleton]
        omega
      dsimp only
      rw [logoutFound, Prog.along_ite]
      split
      · refine along_look (hdue [] (by simp)) fun s₂ => ?_
        rename_i hlive
        rw [Prog.along_bind]
        refine along_revokeTokens ?_ fun s₃ => ?_
        · intro p hp j t hpj
          rw [due, ← List.singleton_append, hx', Option.bind_some, if_pos ⟨hlive, rfl⟩, Option.some.injEq] at hp
          subst hp
          exact hpj
        · exact along_auditRecord (hdue [s₃, s₂] (by simp)) fun s₄ => hends [s₄, s₃, s₂] (by simp)
      · rename_i hrevoked
        exact along_auditRecord (hdue [] (by simp)) fun s₂ => hends [s₂] fun h => absurd (by simp [h]) hrevoked

/-- The sessions of a user end, but for a family. -/
theorem along_revokeOthers {userId : Uuid} {keep : Option Uuid} {Q : Except AuthError Unit → List Store → Prop}
    (hnow : due env r l = none) (hdue : ∀ s p, due env r (s :: l) = some p → p = fun _ => ofUser userId keep)
    (hQ : ∀ s s', Q (.ok ()) (s' :: s :: l)) : (revokeOthers userId keep).Along (Call env r) Q l := by
  refine along_look hnow fun s => along_revokeTokens ?_ (hQ s)
  intro p hp j t hpj
  rw [hdue s p hp] at hpj
  exact hpj

/-- The sessions of a user end, but for the family of a token that is looked up with the `k`-th call. -/
theorem along_revokeAllSessions {userId : Uuid} {e : Option String} {k : ℕ} {Q : Except AuthError Unit → List Store → Prop}
    (hl : l.length = k) (hquiet : ∀ l', l'.length ≤ lookUps e → due env r (l' ++ l) = none)
    (hdue : ∀ l', l'.length = lookUps e + 1 → due env r (l' ++ l) =
      some fun _ => ofUser userId (keptFamily env e (l' ++ l) k))
    (hQ : ∀ l', l'.length = lookUps e + 2 → Q (.ok ()) (l' ++ l)) :
    (Auth.revokeAllSessions env userId e).Along (Call env r) Q l := by
  rw [Auth.revokeAllSessions]
  cases he : e.filter (· ≠ "") with
  | none =>
    have hlook : lookUps e = 0 := by rw [lookUps, he]; rfl
    rw [hlook] at hquiet hdue hQ
    refine along_revokeOthers (hquiet [] (by simp)) (fun s p hp => ?_) fun s s' => hQ [s', s] rfl
    rw [← List.singleton_append, hdue [s] rfl, Option.some.injEq] at hp
    rw [← hp, keptFamily, he]
    rfl
  | some raw =>
    have hlook : lookUps e = 1 := by rw [lookUps, he]; rfl
    rw [hlook] at hquiet hdue hQ
    refine along_look (hquiet [] (by simp)) fun s => ?_
    refine along_revokeOthers (hquiet [s] (by simp)) (fun s' p hp => ?_) fun s₁ s₂ => hQ [s₂, s₁, s] rfl
    have hp' := (hdue [s', s] rfl).symm.trans hp
    rw [Option.some.injEq] at hp'
    have hmoment : moment (s' :: s :: l) k = some s := by simp [moment, ← hl]
    rw [← hp', keptFamily, he, Option.bind_some]
    show (fun _ => ofUser userId ((moment (s' :: s :: l) k).bind _)) = _
    rw [hmoment]
    rfl

theorem along_changePassword {d : Draws} {userId : Uuid} {old new : String} {e : Option String} :
    (Auth.changePassword env d userId old new e).Along (Call env (.changePassword d userId old new e))
      (fun res l' => (∃ a, res = .ok a) → lookUps e + 5 ≤ l'.length) [] := by
  have hdue : ∀ l', l'.length ≠ lookUps e + 4 → due env (.changePassword d userId old new e) l' = none :=
    fun l' hl' => if_neg hl'
  rw [Auth.changePassword]
  refine along_look (hdue [] (by simp)) fun s₁ => ?_
  cases s₁.findUser userId with
  | none => simp
  | some user =>
    dsimp only
    rw [Prog.along_ite]
    split
    · simp
    rw [Prog.along_ite]
    split
    · simp
    rw [Prog.along_ite]
    split
    · simp
    rw [Prog.along_bind]
    refine along_updateUser (hdue [s₁] (by simp)) fun s₂ res => ?_
    cases res with
    | error e => simp
    | ok u =>
      dsimp only
      rw [Prog.along_bind]
      refine along_invalidate (hdue [s₂, s₁] (by simp)) fun s₃ => ?_
      dsimp only
      rw [Prog.along_bind]
      refine along_revokeAllSessions (show [s₃, s₂, s₁].length = 3 from rfl) ?_ ?_ ?_
      · intro l' hl'
        refine hdue _ ?_
        simp only [List.length_append, List.length_cons, List.length_nil]
        omega
      · intro l' hl'
        refine if_pos ?_
        simp only [List.length_append, List.length_cons, List.length_nil]
        omega
      · intro l' hl'
        refine along_auditRecord (hdue _ ?_) fun s => ?_
        · simp only [List.length_append, List.length_cons, List.length_nil]
          omega
        · intro _
          simp only [List.length_append, List.length_cons, List.length_nil]
          omega

/-- An administrator ends the sessions of a user, after a look and an update. -/
theorem along_revokeUser {id : Uuid} {Q : Except AuthError Unit → List Store → Prop} (hnow : due env r l = none)
    (hdue : ∀ s p, due env r (s :: l) = some p → p = fun _ => ofUser id none)
    (hQ : ∀ s s', Q (.ok ()) (s' :: s :: l)) : (revokeUser id).Along (Call env r) Q l := by
  refine along_look hnow fun s => along_revokeTokens ?_ (hQ s)
  intro p hp j t hpj
  rw [hdue s p hp] at hpj
  simpa [ofUser] using hpj

theorem along_update {actor : AuthUser} {id : Uuid} {dto : UpdateUserDto} :
    (Users.update actor id dto).Along (Call env (.updateUser actor id dto))
      (fun res l' => (∃ a, res = .ok a) → suspends dto = true → 4 ≤ l'.length) [] := by
  have hdue : ∀ l', suspends dto = false ∨ l'.length ≠ 3 → due env (.updateUser actor id dto) l' = none := by
    intro l' hl'
    rw [due, if_neg]
    rintro ⟨hsuspends, hlen⟩
    rcases hl' with h | h
    · rw [hsuspends] at h
      cases h
    · exact h hlen
  rw [Users.update]
  refine along_look (hdue [] (by simp)) fun s₁ => ?_
  cases findScoped actor s₁ id with
  | none => simp
  | some user =>
    dsimp only
    rw [Prog.along_ite]
    split
    · simp
    rw [Prog.along_bind]
    refine along_updateScoped (hdue [s₁] (by simp)) fun s₂ res => ?_
    cases res with
    | error e => simp
    | ok u =>
      dsimp only
      rw [Prog.along_ite]
      split
      · rw [Prog.along_bind]
        refine along_revokeUser (hdue [s₂, s₁] (by simp)) (fun s p hp => ?_) fun s₃ s₄ => ?_
        · rw [due] at hp
          split at hp
          · exact (Option.some.inj hp).symm
          · cases hp
        · dsimp only
          rw [Prog.along_bind]
          refine along_invalidate (hdue [s₄, s₃, s₂, s₁] (by simp)) fun s₅ => ?_
          dsimp only
          rw [Prog.along_bind]
          refine along_auditRecord (hdue [s₅, s₄, s₃, s₂, s₁] (by simp)) fun s₆ => ?_
          simp
      · rename_i hsuspends
        have hsuspends : suspends dto = false := by simpa [suspends] using hsuspends
        rw [Prog.along_bind]
        refine along_invalidate (hdue _ (.inl hsuspends)) fun s₃ => ?_
        dsimp only
        rw [Prog.along_bind]
        refine along_auditRecord (hdue _ (.inl hsuspends)) fun s₄ => ?_
        simp [hsuspends]

/-- The last calls of a reset: the sessions end, and it is announced. -/
theorem along_reset {α : Type} {id : Uuid} {a b c e} {v : α} (hl : l.length = 2)
    (hdue : ∀ l', l'.length ≠ 3 → due env r l' = none)
    (hdue' : ∀ l', l'.length = 3 → due env r l' = some fun _ => ofUser id none) :
    ((do revokeUser id; invalidate id; Auth.auditRecord a b c e; pure v) : Method α).Along (Call env r)
      (fun res l' => (∃ a, res = .ok a) → 4 ≤ l'.length) l := by
  rw [Prog.along_bind]
  refine along_revokeUser (hdue l (by omega)) (fun s p hp => ?_) fun s s' => ?_
  · rw [hdue' (s :: l) (by simp [hl]), Option.some.injEq] at hp
    exact hp.symm
  · dsimp only
    rw [Prog.along_bind]
    refine along_invalidate (hdue _ (by simp [hl])) fun s₁ => ?_
    dsimp only
    rw [Prog.along_bind]
    refine along_auditRecord (hdue _ (by simp [hl])) fun s₂ => ?_
    simp

theorem along_resetPassword {d : Draws} {actor : AuthUser} {id : Uuid} :
    (Users.resetPassword env d actor id).Along (Call env (.resetPassword d actor id))
      (fun res l' => (∃ a, res = .ok a) → 4 ≤ l'.length) [] := by
  have hdue : ∀ l', l'.length ≠ 3 → due env (.resetPassword d actor id) l' = none := fun l' hl' => if_neg hl'
  rw [Users.resetPassword, Prog.along_ite]
  split
  · simp
  refine along_look (hdue [] (by simp)) fun s₁ => ?_
  cases findScoped actor s₁ id with
  | none => simp
  | some user =>
    dsimp only
    rw [Prog.along_ite]
    split
    · simp
    rw [Prog.along_bind]
    refine along_updateScoped (hdue [s₁] (by simp)) fun s₂ res => ?_
    cases res with
    | error e => simp
    | ok u => exact along_reset rfl hdue fun l' hl' => if_pos hl'

theorem along_resetMfa {actor : AuthUser} {id : Uuid} :
    (Users.resetMfa actor id).Along (Call env (.resetMfa actor id))
      (fun res l' => (∃ a, res = .ok a) → 4 ≤ l'.length) [] := by
  have hdue : ∀ l', l'.length ≠ 3 → due env (.resetMfa actor id) l' = none := fun l' hl' => if_neg hl'
  rw [Users.resetMfa, Prog.along_ite]
  split
  · simp
  refine along_look (hdue [] (by simp)) fun s₁ => ?_
  cases findScoped actor s₁ id with
  | none => simp
  | some user =>
    dsimp only
    rw [Prog.along_ite]
    split
    · simp
    rw [Prog.along_bind]
    refine along_updateScoped (hdue [s₁] (by simp)) fun s₂ res => ?_
    cases res with
    | error e => simp
    | ok u => exact along_reset rfl hdue fun l' hl' => if_pos hl'

/-- A load answers what was in the cache, or what it has read. -/
theorem along_load {id : Uuid} {fresh : Bool} :
    (load env.mfaEnforcement id fresh).Along (Call env (.load id fresh))
      (fun res l' => ∀ v, res = .ok (some v) → (∃ s e, l' = [s] ∧ s.cache id = some e ∧ e.value = v) ∨
        ∃ s ∈ l', s.authUser env.mfaEnforcement id = some v) [] := by
  cases fresh with
  | true =>
    refine along_load_fresh (fun _ _ _ => rfl) fun s₁ s₂ s₃ v hv => ?_
    rw [Except.ok.injEq] at hv
    exact .inr ⟨s₂, by simp, hv⟩
  | false =>
    refine along_look rfl fun s₁ => ?_
    simp only [Bool.false_eq_true, if_false]
    cases hhit : (s₁.cache id).filter fun e => s₁.clock < e.expires with
    | some e =>
      rintro v ⟨⟩
      exact .inl ⟨s₁, e, rfl, (Option.filter_eq_some_iff.mp hhit).1, rfl⟩
    | none =>
      refine along_look rfl fun s₂ => ?_
      cases hread : s₂.authUser env.mfaEnforcement id with
      | none =>
        rw [Prog.along_bind]
        refine along_invalidate rfl fun s₃ => ?_
        rintro v ⟨⟩
      | some value =>
        rw [Prog.along_bind]
        intro s₃
        refine ⟨⟨.kept rfl, fun p hp => absurd hp (by simp [due]), fun j => ?_⟩, ?_⟩
        · by_cases hj : j = id
          · subst hj
            exact .inr (.inr ⟨_, Function.update_self .., s₂, rfl, hread⟩)
          · exact .inl (Function.update_of_ne hj ..)
        · rintro v ⟨⟩
          exact .inr ⟨s₂, by simp, hread⟩

/-- **Every request**, call by call. -/
theorem serve_along (env : Platform) (r : Request) : (serve env r).Along (Call env r) (Ends env r) [] := by
  cases r with
  | login d dto info => exact (Prog.along_map ..).mpr (along_login (fun _ => rfl) rfl)
  | verifyMfa d mfaToken code info => exact (Prog.along_map ..).mpr (along_verifyMfa (fun _ => rfl) rfl)
  | callback d stateCookie granted info => exact (Prog.along_map ..).mpr (along_callback (fun _ => rfl) rfl)
  | issueSession d userId info => exact (Prog.along_map ..).mpr (along_issueSession rfl fun _ => rfl)
  | refresh d rawToken info => exact (Prog.along_map ..).mpr (along_refresh.mono (fun _ _ _ _ h => h) fun _ _ _ h => h _)
  | logout rawToken actor => exact (Prog.along_map ..).mpr (along_logout.mono (fun _ _ _ _ h => h) fun _ _ _ h => h _)
  | revokeAllSessions userId e =>
    refine (Prog.along_map ..).mpr (along_revokeAllSessions rfl (fun l' hl' => ?_) (fun l' hl' => ?_) fun l' hl' => ?_)
    · exact if_neg (by rw [List.append_nil]; omega)
    · exact if_pos (by rw [List.append_nil]; omega)
    · show lookUps e + 2 ≤ (l' ++ []).length
      rw [List.append_nil, hl']
  | changePassword d userId old new e =>
    refine (Prog.along_map ..).mpr (along_changePassword.mono (fun _ _ _ _ h => h) ?_)
    rintro (e' | a) l' - h hok
    · obtain ⟨_, ⟨⟩⟩ := hok
    · exact h ⟨a, rfl⟩
  | mfaSetup d userId => exact (Prog.along_map ..).mpr (along_mfaSetup fun _ => rfl)
  | mfaEnable d userId code => exact (Prog.along_map ..).mpr (along_mfaEnable fun _ => rfl)
  | mfaDisable userId code => exact (Prog.along_map ..).mpr (along_mfaDisable fun _ => rfl)
  | createUser d actor dto => exact (Prog.along_map ..).mpr (along_create fun _ => rfl)
  | updateUser actor id dto =>
    refine (Prog.along_map ..).mpr (along_update.mono (fun _ _ _ _ h => h) ?_)
    rintro (e' | a) l' - h hok
    · obtain ⟨_, ⟨⟩⟩ := hok
    · exact h ⟨a, rfl⟩
  | setRoles actor id dto => exact (Prog.along_map ..).mpr (along_setRoles fun _ => rfl)
  | resetPassword d actor id =>
    refine (Prog.along_map ..).mpr (along_resetPassword.mono (fun _ _ _ _ h => h) ?_)
    rintro (e' | a) l' - h hok
    · obtain ⟨_, ⟨⟩⟩ := hok
    · exact h ⟨a, rfl⟩
  | resetMfa actor id =>
    refine (Prog.along_map ..).mpr (along_resetMfa.mono (fun _ _ _ _ h => h) ?_)
    rintro (e' | a) l' - h hok
    · obtain ⟨_, ⟨⟩⟩ := hok
    · exact h ⟨a, rfl⟩
  | load id fresh =>
    refine (Prog.along_map ..).mpr (along_load.mono (fun _ _ _ _ h => h) ?_)
    rintro (e' | a) l' - h v hv
    · cases hv
    · cases hv
      exact h v rfl
  | tick elapsed => exact (Prog.along_map ..).mpr fun s => ⟨quiet rfl rfl rfl, trivial⟩
  | switchTenant id isActive => exact (Prog.along_map ..).mpr fun s => ⟨quiet rfl rfl rfl, trivial⟩
  | removeUser id => exact (Prog.along_map ..).mpr fun s => ⟨quiet rfl rfl rfl, trivial⟩

/-! ### What leaves users and clock -/

/-- A call leaves users, tenants and clock. -/
def LeavesAccounts (_ : List Store) (s s' : Store) : Prop :=
  s'.users = s.users ∧ s'.tenants = s.tenants ∧ s'.clock = s.clock

theorem along_leavesAccounts_load {m : MfaEnforcement} {id : Uuid} {fresh : Bool}
    {Q : Except AuthError (Option AuthUser) → List Store → Prop} (hQ : ∀ res l', Q res l') :
    (load m id fresh).Along LeavesAccounts Q l := by
  refine (Prog.along_read_bind _ _ _).mpr fun s₁ => ⟨⟨rfl, rfl, rfl⟩, ?_⟩
  dsimp only
  split
  · exact hQ _ _
  · refine (Prog.along_read_bind _ _ _).mpr fun s₂ => ⟨⟨rfl, rfl, rfl⟩, ?_⟩
    split
    · rw [Prog.along_bind]
      exact fun s₃ => ⟨⟨rfl, rfl, rfl⟩, hQ _ _⟩
    · rw [Prog.along_bind]
      exact fun s₃ => ⟨⟨rfl, rfl, rfl⟩, hQ _ _⟩

/-- An issued session leaves users, tenants and clock. -/
theorem along_leavesAccounts_issueSession {d : Draws} {userId : Uuid} {info : RequestMeta} :
    (Auth.issueSession env d userId info none).Along LeavesAccounts (fun _ _ => True) l := by
  rw [Auth.issueSession, Prog.along_bind]
  refine along_leavesAccounts_load fun res l' => ?_
  rcases res with e | _ | user
  · trivial
  · trivial
  refine (Prog.along_read_bind _ _ _).mpr fun s => ⟨⟨rfl, rfl, rfl⟩, ?_⟩
  rw [Prog.along_bind]
  refine along_insertToken (fun s e _ => ⟨⟨rfl, rfl, rfl⟩, trivial⟩) fun s tokens _ _ => ⟨⟨rfl, rfl, rfl⟩, ?_⟩
  exact fun s => ⟨⟨rfl, rfl, rfl⟩, trivial⟩

/-- A call leaves users and clock. -/
def Leaves (_ : List Store) (s s' : Store) : Prop := s'.users = s.users ∧ s'.clock = s.clock

/-- An issued session leaves users and clock. -/
theorem along_leaves_issueSession {d : Draws} {userId : Uuid} {info : RequestMeta} :
    (Auth.issueSession env d userId info none).Along Leaves (fun _ _ => True) l :=
  along_leavesAccounts_issueSession.mono (fun _ _ _ _ h => ⟨h.1, h.2.2⟩) fun _ _ _ h => h

/-! ### What a call makes of single tokens -/

/-- No token is lost or changes hands, and what is revoked remains so. -/
def Kept (s s' : Store) : Prop :=
  ∀ id t, s.refreshTokens.find id = some t → ∃ t', s'.refreshTokens.find id = some t' ∧ t'.tokenHash = t.tokenHash ∧
    t'.family = t.family ∧ t'.userId = t.userId ∧ (t.revokedAt.isSome = true → t'.revokedAt.isSome = true)

theorem Kept.refl (s : Store) : Kept s s := fun _ t h => ⟨t, h, rfl, rfl, rfl, fun h => h⟩

theorem Kept.trans {a b c : Store} (hab : Kept a b) (hbc : Kept b c) : Kept a c := by
  intro id t ht
  obtain ⟨t', ht', hhash, hfamily, huser, hrevoked⟩ := hab id t ht
  obtain ⟨t'', ht'', hhash', hfamily', huser', hrevoked'⟩ := hbc id t' ht'
  exact ⟨t'', ht'', hhash'.trans hhash, hfamily'.trans hfamily, huser'.trans huser, fun h => hrevoked' (hrevoked h)⟩

theorem kept_of_insert {id : Uuid} {t : RefreshToken} (h : s.refreshTokens.insert id t = some s'.refreshTokens) :
    Kept s s' := by
  intro j y hj
  obtain ⟨hnone, hfind⟩ := Table.find_of_insert h
  refine ⟨y, ?_, rfl, rfl, rfl, fun h => h⟩
  rw [hfind, if_neg, hj]
  rintro rfl
  rw [hnone] at hj
  cases hj

theorem Call.kept (h : Call env r l s s') : Kept s s' := by
  cases h.tokens with
  | kept hsame => exact fun id t ht => ⟨t, by rw [hsame, ht], rfl, rfl, rfl, fun h => h⟩
  | issues d t hd hinsert => exact kept_of_insert hinsert
  | rotates id x t hx hlive hl hinsertable hinsert => exact kept_of_insert hinsert
  | revokes p f hs' hf =>
    intro id t ht
    refine ⟨if p id t then f t else t, by rw [hs', Table.find_modify, ht, Option.map_some], ?_⟩
    by_cases hp : p id t = true
    · rw [if_pos hp]
      exact ⟨(hf t).1, (hf t).2.1, (hf t).2.2.1, fun _ => (hf t).2.2.2⟩
    · rw [if_neg hp]
      exact ⟨rfl, rfl, rfl, fun h => h⟩

/-- How a token comes into being: it begins a family, or it succeeds a token that was found
and not revoked. -/
theorem Call.created (h : Call env r l s s') {id : Uuid} {t : RefreshToken} (hid : s'.refreshTokens.find id = some t)
    (hnew : s.refreshTokens.find id = none) :
    (∃ d, r.issuer = some d ∧ id = d.uuid 0 ∧ t.family = d.uuid 1) ∨
      ∃ d rawToken info x, r = .refresh d rawToken info ∧ id = d.uuid 0 ∧ presented env r l = some x ∧
        x.2.revokedAt = none ∧ l.length = 5 ∧ Insertable s (d.uuid 0) (env.sha256 d.token) x.2.userId ∧
        t.family = x.2.family ∧ t.userId = x.2.userId := by
  have hinserted : ∀ {j y}, s.refreshTokens.insert j y = some s'.refreshTokens → id = j ∧ t = y := by
    intro j y hinsert
    rw [(Table.find_of_insert hinsert).2] at hid
    by_cases hj : id = j
    · rw [if_pos hj] at hid
      exact ⟨hj, (Option.some.inj hid).symm⟩
    · rw [if_neg hj, hnew] at hid
      cases hid
  cases h.tokens with
  | kept hsame =>
    rw [hsame, hnew] at hid
    cases hid
  | issues d y hd hinsert hinsertable hfamily =>
    obtain ⟨rfl, rfl⟩ := hinserted hinsert
    exact .inl ⟨d, hd, rfl, hfamily⟩
  | rotates j x y hx hlive hl hinsertable hinsert hhash hfamily huser =>
    obtain ⟨rfl, rfl⟩ := hinserted hinsert
    exact .inr ⟨_, _, _, (j, x), rfl, rfl, hx, hlive, hl, hinsertable, hfamily, huser⟩
  | revokes p f hs' hf =>
    rw [hs', Table.find_modify, hnew] at hid
    cases hid

theorem refreshing_iff {d : Draws} : r.refreshing = some d ↔ ∃ rawToken info, r = .refresh d rawToken info := by
  constructor
  · intro h
    cases r with
    | refresh d' rawToken info =>
      cases h
      exact ⟨rawToken, info, rfl⟩
    | _ => cases h
  · rintro ⟨rawToken, info, rfl⟩
    rfl

/-- Later calls do not change what was seen in a moment. -/
theorem moment_append {k : ℕ} (l' : List Store) (hk : k < l.length) : moment (l' ++ l) k = moment l k := by
  rw [moment, moment, List.reverse_append, List.getElem?_append_left]
  rwa [List.length_reverse]

/-- Nothing is ever due for those that begin a session. -/
theorem due_of_issuer {d : Draws} (h : r.issuer = some d) : due env r l = none := by
  cases r <;> first | rfl | cases h

/-- The first look decides what is found. -/
theorem presented_append_eq (l' : List Store) (hl : l ≠ []) : presented env r (l' ++ l) = presented env r l := by
  have hmoment := moment_append l' (List.length_pos_of_ne_nil hl)
  cases r <;> simp only [presented, hmoment]

theorem keptFamily_append {e : Option String} {k : ℕ} (l' : List Store) (hk : k < l.length) :
    keptFamily env e (l' ++ l) k = keptFamily env e l k := by
  simp only [keptFamily, moment_append l' hk]

theorem presented_nil : presented env r [] = none := by
  cases r with
  | refresh d rawToken info | logout rawToken actor =>
    rw [presented]
    cases rawToken.filter (· ≠ "") <;> rfl
  | _ => rfl

/-- What a request has found it has found ever after. -/
theorem presented_append {x : WithId RefreshToken} (l' : List Store) (h : presented env r l = some x) :
    presented env r (l' ++ l) = some x := by
  rw [presented_append_eq, h]
  rintro rfl
  rw [presented_nil] at h
  cases h

/-- The token was found in a state that the request has seen. -/
theorem presented_mem {x : WithId RefreshToken} (h : presented env r l = some x) :
    ∃ s ∈ l, s.refreshTokens.find x.1 = some x.2 := by
  have hfound : ∀ {raw : String}, ((moment l 0).bind fun s => s.tokenByHash (env.sha256 raw)) = some x →
      ∃ s ∈ l, s.refreshTokens.find x.1 = some x.2 := by
    intro raw h
    obtain ⟨s, hs, hx⟩ := Option.bind_eq_some_iff.mp h
    exact ⟨s, List.mem_reverse.mp (List.mem_of_getElem? hs), (Table.find_of_first hx).1⟩
  cases r with
  | refresh d rawToken info | logout rawToken actor =>
    rw [presented] at h
    obtain ⟨raw, -, hx⟩ := Option.bind_eq_some_iff.mp h
    exact hfound hx
  | _ => cases h

end Calls

end AuditSphere.Sessions
