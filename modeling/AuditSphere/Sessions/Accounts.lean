import AuditSphere.Sessions.Tokens

/-!
# Sessions of active accounts

A session should only begin, or go on, for an active user of an active tenant. Login,
refresh and the sign-in with Entra ID look at the status when they issue the token; the
second factor does not, and the account may have been suspended since the password was
verified.
-/

namespace AuditSphere.Sessions

open Prisma Theory Shared Auth Users

/-- The user is active and not deleted, and the tenant is active. -/
def ActiveAccount (s : Store) (id : Uuid) : Prop :=
  ∃ u, s.findUser id = some u ∧ u.status = .active ∧ ∃ t, s.tenants.find u.tenantId = some t ∧ t.isActive = true

/-- The tokens that a call creates are those of active users. -/
def CreatesForActive (s s' : Store) : Prop :=
  ∀ id t, s'.refreshTokens.find id = some t → s.refreshTokens.find id = none → ActiveAccount s' t.userId

/-- With nothing in between, the program creates tokens for active users only. -/
def Careful {α : Type} (p : Method α) (s : Store) : Prop :=
  p.Meets (fun a b => a = b) CreatesForActive (fun _ _ => True) s

section Accounts

variable {env : Platform} {s s' : Store}

/-! ### Calls that create no token -/

theorem creates_of_same (h : s'.refreshTokens = s.refreshTokens) : CreatesForActive s s' := by
  intro id t hid hnone
  rw [h, hnone] at hid
  cases hid

/-- A request that issues nothing and is no refresh creates no token. -/
theorem careful_of_quiet {r : Request} (hissuer : r.issuer = none) (hrefresh : r.refreshing = none) (s : Store) :
    Careful (serve env r) s := by
  refine (serve_along env r).meets (fun l s s' h id t hid hnone => ?_) s
  rcases h.created hid hnone with ⟨d, hd, -⟩ | ⟨d, rawToken, info, x, rfl, -⟩
  · rw [hissuer] at hd
    cases hd
  · cases hrefresh

section Careful

variable {α β : Type}

/-- What is done with the result makes no difference. -/
theorem careful_map (f : α → β) (p : Method α) (s : Store) : Careful (f <$> p) s ↔ Careful p s := by
  rw [← bind_pure_comp, Careful, Prog.meets_bind]
  constructor
  · exact fun h => h.mono fun _ _ _ => trivial
  · refine fun h => h.mono ?_
    rintro (e | a) s' - <;> trivial

/-- A call, and what follows it. -/
theorem careful_call (f : Store → Except AuthError (α × Store)) (k : α → Method β) (s : Store) :
    Careful (Prog.call f >>= k) s ↔ CreatesForActive s ((Prog.call f).run s).2 ∧
      ∀ a, ((Prog.call f).run s).1 = .ok a → Careful (k a) ((Prog.call f).run s).2 := by
  rw [Careful, Prog.meets_bind, Prog.meets_call, Prog.run_call]
  constructor
  · intro h
    have := h s rfl
    rcases hf : f s with e | ⟨a, s'⟩ <;> rw [hf] at this
    · exact ⟨this.1, fun a ha => by cases ha⟩
    · exact ⟨this.1, fun a ha => by cases ha; exact this.2⟩
  · rintro h _ rfl
    rcases hf : f s with e | ⟨a, s'⟩ <;> rw [hf] at h
    · exact ⟨h.1, trivial⟩
    · exact ⟨h.1, h.2 a rfl⟩

/-- A look at the state. -/
theorem careful_read (f : Store → α) (k : α → Method β) (s : Store) :
    Careful (Prog.read f >>= k) s ↔ Careful (k (f s)) s := by
  rw [Prog.read, careful_call]
  constructor
  · exact fun h => h.2 _ rfl
  · exact fun h => ⟨creates_of_same rfl, fun a ha => by cases ha; exact h⟩

theorem careful_now (k : Date → Method β) (s : Store) : Careful (now >>= k) s ↔ Careful (k s.clock) s :=
  careful_read _ k s

/-- A call that creates no token. -/
theorem careful_write {f : Store → Store} {s : Store} (hf : CreatesForActive s (f s)) (k : Unit → Method β) :
    Careful ((Prog.write f : Method Unit) >>= k) s ↔ Careful (k ()) (f s) := by
  rw [Prog.write, careful_call]
  constructor
  · exact fun h => h.2 _ rfl
  · exact fun h => ⟨hf, fun a _ => h⟩

theorem careful_invalidate (id : Uuid) (k : Unit → Method β) (s : Store) :
    Careful (invalidate id >>= k) s ↔ Careful (k ()) { s with cache := Function.update s.cache id none } :=
  careful_write (creates_of_same rfl) k

theorem careful_store (id : Uuid) (entry : CacheEntry) (k : Unit → Method β) (s : Store) :
    Careful (store id entry >>= k) s ↔ Careful (k ()) { s with cache := Function.update s.cache id (some entry) } :=
  careful_write (creates_of_same rfl) k

theorem careful_auditRecord (a b c e) (k : Unit → Method β) (s : Store) :
    Careful (Auth.auditRecord a b c e >>= k) s ↔ Careful (k ()) { s with auditTrail := ⟨a, b, c, e⟩ :: s.auditTrail } :=
  careful_write (creates_of_same rfl) k

/-- The state after an update of a user. -/
def updated (s : Store) (id : Uuid) (f : Account → Account) : Store :=
  { s with users := s.users.modify (fun j _ => j = id) f }

theorem careful_updateUser {id : Uuid} {u : Account} (hu : s.users.find id = some u) (f : Account → Account)
    (k : Unit → Method β) : Careful (Auth.updateUser id f >>= k) s ↔ Careful (k ()) (updated s id f) := by
  have hrun : (Auth.updateUser id f).run s = (.ok (), updated s id f) := by
    rw [Auth.updateUser, Prog.run_call, hu]
    rfl
  rw [Auth.updateUser, careful_call, ← Auth.updateUser, hrun]
  constructor
  · exact fun h => h.2 _ rfl
  · exact fun h => ⟨creates_of_same rfl, fun a _ => h⟩

/-- A fresh load answers what is in the database; it leaves all but the cache. -/
theorem careful_load {m : MfaEnforcement} {id : Uuid} {k : Option AuthUser → Method β} {P : Prop}
    (h : ∀ cache, Careful (k (s.authUser m id)) { s with cache := cache } ↔ P) : Careful (load m id true >>= k) s ↔ P := by
  rw [load, bind_assoc, cached, careful_read]
  simp only [if_true]
  rw [bind_assoc, careful_read]
  cases hread : s.authUser m id with
  | none =>
    rw [bind_assoc, careful_invalidate, pure_bind, ← hread]
    exact h _
  | some value =>
    rw [bind_assoc, careful_store, pure_bind, ← hread]
    exact h _

/-- Who changes tokens that are there creates none. -/
theorem creates_of_modify (p : Uuid → RefreshToken → Bool) (f : RefreshToken → RefreshToken) (s : Store) :
    CreatesForActive s { s with refreshTokens := s.refreshTokens.modify p f } := by
  intro id t hid hnone
  rw [Table.find_modify, hnone] at hid
  cases hid

theorem careful_revokeTokens (p : RefreshToken → Bool) (time : Date) (k : Unit → Method β) (s : Store) :
    Careful (revokeTokens p time >>= k) s ↔ Careful (k ()) { s with
      refreshTokens := s.refreshTokens.modify (fun _ t => p t && t.revokedAt.isNone) fun t => { t with revokedAt := some time } } :=
  careful_write (creates_of_modify _ _ _) k

/-- A token that can be inserted has to be that of an active user. -/
theorem careful_insertToken (id : Uuid) (t : RefreshToken) {k : Unit → Method β} (hk : ∀ s', Careful (k ()) s')
    (s : Store) : Careful (insertToken id t >>= k) s ↔
      (Insertable s id t.tokenHash t.userId → ActiveAccount s t.userId) := by
  rw [insertToken, careful_call, ← insertToken]
  rcases insertToken_run s id t with ⟨hnot, e, hrun⟩ | ⟨hinsertable, tokens, hinsert, hrun⟩
  · rw [hrun]
    exact ⟨fun _ h => absurd h hnot, fun _ => ⟨creates_of_same rfl, fun a ha => by cases ha⟩⟩
  rw [hrun]
  obtain ⟨hnone, hfind⟩ := Table.find_of_insert hinsert
  constructor
  · intro h _
    exact h.1 id t (by rw [hfind, if_pos rfl]) hnone
  · intro h
    refine ⟨fun j y hj hjnone => ?_, fun a _ => hk _⟩
    rw [hfind] at hj
    split at hj
    · cases hj
      exact h hinsertable
    · rw [hjnone] at hj
      cases hj

end Careful

/-- The last call of those who issue a token: the audit trail is told. -/
theorem careful_recorded {α : Type} {a b c e} {v : α} (s : Store) :
    Careful ((do Auth.auditRecord a b c e; pure v) : Method α) s := by
  rw [careful_auditRecord]
  trivial

/-- A user of whom `authUser` answers something is there. -/
theorem authUser_isSome (m : MfaEnforcement) (s : Store) (id : Uuid) : (s.authUser m id).isSome = (s.findUser id).isSome := by
  rw [Store.authUser, Option.isSome_map]

theorem refersTo_of_findUser {id : Uuid} {u : Account} (h : s.findUser id = some u) :
    refersTo s.users (some id) = true := by
  obtain ⟨hfind, -⟩ := Option.filter_eq_some_iff.mp h
  simp [refersTo, hfind]

/-- Nothing is stored under what a request has drawn. -/
def Unused (env : Platform) (s : Store) (d : Draws) : Prop :=
  s.refreshTokens.find (d.uuid 0) = none ∧ ∀ j y, s.refreshTokens.find j = some y → y.tokenHash ≠ env.sha256 d.token

/-- Whoever has a session issued has to be active by then. -/
theorem careful_issueSession (d : Draws) (id : Uuid) (info : RequestMeta) (s : Store) :
    Careful (Auth.issueSession env d id info none) s ↔
      ((s.findUser id).isSome → Unused env s d → ActiveAccount s id) := by
  rw [Auth.issueSession]
  refine careful_load fun cache => ?_
  cases hread : s.authUser env.mfaEnforcement id with
  | none =>
    have hnone : ¬(s.findUser id).isSome = true := by rw [← authUser_isSome env.mfaEnforcement, hread]; simp
    exact ⟨fun _ h => absurd h hnone, fun _ => trivial⟩
  | some user =>
    obtain ⟨u, hu, rfl⟩ := Option.map_eq_some_iff.mp hread
    dsimp only
    rw [careful_now, careful_insertToken]
    · exact ⟨fun h _ hunused => h ⟨hunused.1, hunused.2, refersTo_of_findUser hu⟩,
        fun h hinsertable => h (by rw [hu]; rfl) ⟨hinsertable.1, hinsertable.2.1⟩⟩
    · exact fun s' => careful_recorded s'

/-- A call that creates no token, and after which none is created. -/
theorem careful_denied {α : Type} {a b c e} {error : AuthError} (s : Store) :
    Careful ((do Auth.auditRecord a b c e; throw error) : Method α) s := by
  rw [careful_auditRecord]
  trivial

/-! ### Login, refresh and Entra ID -/

/-- Whom a login finds is there and not deleted. -/
theorem loginUser_found {email : String} {slug : Option String} {id : Uuid} {user : Account} {tenant : Option Tenant}
    (h : s.loginUser env email slug = some ((id, user), tenant)) :
    s.users.find id = some user ∧ user.deletedAt.isNone = true ∧ tenant = s.tenants.find user.tenantId := by
  rw [Store.loginUser, Option.map_eq_some_iff] at h
  obtain ⟨u, hu, heq⟩ := h
  cases heq
  have hmem := List.mem_reverse.mp (List.mem_of_find?_eq_some hu)
  have hmatch := List.find?_some hu
  rw [Bool.and_eq_true, Bool.and_eq_true] at hmatch
  exact ⟨(Table.find_eq_some_iff _ _ _).mpr hmem, hmatch.1.1, rfl⟩

/-- After an update, the user is active if it is so by its row. -/
theorem activeAccount_updated {id : Uuid} {u : Account} {f : Account → Account} {t : Tenant}
    (hu : s.users.find id = some u) (hdeleted : (f u).deletedAt.isNone = true) (hstatus : (f u).status = .active)
    (htenant : s.tenants.find (f u).tenantId = some t) (hactive : t.isActive = true) :
    ActiveAccount (updated s id f) id := by
  refine ⟨f u, ?_, hstatus, t, htenant, hactive⟩
  rw [Store.findUser, updated, Table.find_modify, hu]
  simp [hdeleted]

theorem careful_login (d : Draws) (dto : LoginDto) (info : RequestMeta) (s : Store) :
    Careful (Auth.login env d dto info) s := by
  rw [Auth.login, careful_read, careful_now]
  cases hfound : s.loginUser env dto.email dto.tenantSlug with
  | none => trivial
  | some found =>
    obtain ⟨⟨id, user⟩, tenant⟩ := found
    obtain ⟨hfind, hdeleted, rfl⟩ := loginUser_found hfound
    dsimp only
    split
    · trivial
    rw [loginFound]
    split
    · exact careful_denied s
    rename_i hstatus
    split
    · exact careful_denied s
    split
    · rw [registerFailedLogin, bind_assoc, careful_updateUser hfind]
      exact careful_denied _
    rw [loginVerified, careful_updateUser hfind, careful_invalidate]
    split
    · rw [careful_now]
      exact careful_recorded _
    · rw [bind_pure_comp, careful_map, careful_issueSession]
      intro _ _
      rw [not_or, not_or, not_not, Option.any_eq_true] at hstatus
      obtain ⟨hsuspended, hdeactivated, t, ht, hactive⟩ := hstatus
      refine activeAccount_updated hfind hdeleted ?_ ht hactive
      show (if user.status = .invited then UserStatus.active else user.status) = .active
      cases h : user.status <;> simp_all

/-- Whom a load finds valid is active. -/
theorem activeAccount_of_valid {m : MfaEnforcement} {id : Uuid} {u : Account} (hu : s.findUser id = some u)
    (hvalid : (buildAuthUser m s id u).valid = true) : ActiveAccount s id := by
  rw [AuthUser.valid, Bool.and_eq_true, decide_eq_true_eq, Option.any_eq_true] at hvalid
  obtain ⟨hstatus, ⟨j, t⟩, ht, hactive⟩ := hvalid
  have hrelated : related s.tenants (some u.tenantId) = some (j, t) := ht
  rw [related, Option.bind_some, Option.map_eq_some_iff] at hrelated
  obtain ⟨t', ht', heq⟩ := hrelated
  cases heq
  exact ⟨u, hu, hstatus, t, ht', hactive⟩

/-- The token that was presented is revoked. -/
theorem careful_replaceToken {β : Type} {id next : Uuid} {time : Date} {k : Unit → Method β}
    (hk : ∀ s', Careful (k ()) s') (s : Store) : Careful (replaceToken id next time >>= k) s := by
  rw [replaceToken, careful_call, Prog.run_call]
  split
  · rename_i h
    split at h
    · cases h
    · cases h
      exact ⟨creates_of_modify _ _ _, fun _ _ => hk _⟩
  · exact ⟨creates_of_same rfl, fun a ha => by cases ha⟩

theorem careful_refresh (d : Draws) (rawToken : Option String) (info : RequestMeta) (s : Store) :
    Careful (Auth.refresh env d rawToken info) s := by
  rw [Auth.refresh]
  cases rawToken.filter (· ≠ "") with
  | none => trivial
  | some raw =>
    dsimp only
    rw [careful_read]
    cases s.tokenByHash (env.sha256 raw) with
    | none => trivial
    | some found =>
      obtain ⟨id, existing⟩ := found
      dsimp only
      rw [careful_now, refreshFound]
      split
      · rw [careful_revokeTokens]
        exact careful_denied _
      split
      · trivial
      refine (careful_load fun cache => ?_ : _ ↔ True).mpr trivial
      rw [iff_true]
      cases huser : (s.authUser env.mfaEnforcement existing.userId).filter AuthUser.valid with
      | none => trivial
      | some user =>
        obtain ⟨hread, hvalid⟩ := Option.filter_eq_some_iff.mp huser
        obtain ⟨u, hu, rfl⟩ := Option.map_eq_some_iff.mp hread
        dsimp only
        rw [careful_insertToken]
        · exact fun _ => activeAccount_of_valid hu hvalid
        · exact fun s' => careful_replaceToken careful_recorded s'

theorem resolveTenant_active {tenant : WithId Tenant} (h : s.resolveTenant env = some tenant) :
    s.tenants.find tenant.1 = some tenant.2 ∧ tenant.2.isActive = true := by
  rw [Store.resolveTenant] at h
  split at h
  · rename_i t hfirst
    cases h
    obtain ⟨hfind, hmatch⟩ := Table.find_of_first hfirst
    rw [Bool.and_eq_true, Bool.and_eq_true] at hmatch
    exact ⟨hfind, hmatch.1.1⟩
  · split at h
    · rename_i t hrows
      cases h
      exact (Table.mem_rows_iff _ _ _ _).mp (hrows ▸ List.mem_singleton_self tenant)
    · cases h

theorem careful_insertUser {β : Type} {id : Uuid} {u : Account} {k : Unit → Method β}
    (hk : ∀ users, s.users.insert id u = some users → Careful (k ()) { s with users }) :
    Careful (insertUser id u >>= k) s := by
  have hfailed : ∀ e : AuthError, CreatesForActive s s ∧ ∀ a, (Except.error e : Except AuthError Unit) = .ok a →
      Careful (k a) s := fun e => ⟨creates_of_same rfl, fun a ha => by cases ha⟩
  rw [insertUser, careful_call, Prog.run_call]
  by_cases hmail : (s.users.first fun _ r => r.tenantId = u.tenantId && r.email = u.email).isSome
  · rw [if_pos hmail]
    exact hfailed _
  · rw [if_neg hmail]
    cases hinsert : s.users.insert id u with
    | none => exact hfailed _
    | some users => exact ⟨creates_of_same rfl, fun _ _ => hk users hinsert⟩

theorem careful_callback (d : Draws) (stateCookie : Option String) (granted : Option EntraClaims) (info : RequestMeta)
    (s : Store) : Careful (callback env d stateCookie granted info) s := by
  rw [callback]
  split
  · trivial
  cases stateCookie.filter (· ≠ "") with
  | none => trivial
  | some cookie =>
    dsimp only
    rw [careful_now]
    cases env.verifyEntraState cookie s.clock with
    | none => trivial
    | some returnTo =>
      cases granted with
      | none => trivial
      | some claims =>
        dsimp only
        split
        · trivial
        rw [provisionUser, bind_assoc, careful_read]
        cases htenant : s.resolveTenant env with
        | none => trivial
        | some tenant =>
          obtain ⟨hfind, hactive⟩ := resolveTenant_active htenant
          dsimp only
          rw [bind_assoc, careful_read, bind_assoc, careful_now]
          split
          · rename_i id existing hexisting
            obtain ⟨huser, hmatch⟩ := Table.find_of_first hexisting
            rw [Bool.and_eq_true, Bool.and_eq_true, decide_eq_true_eq] at hmatch
            split
            · trivial
            rw [bind_assoc, careful_updateUser huser, pure_bind, bind_pure_comp, careful_map, careful_issueSession]
            intro _ _
            exact activeAccount_updated huser hmatch.2 rfl 
              ((congrArg s.tenants.find hmatch.1.1).trans hfind) hactive
          · rw [bind_assoc]
            refine careful_insertUser fun users hinsert => ?_
            rw [bind_assoc, careful_auditRecord, pure_bind, bind_pure_comp, careful_map, careful_issueSession]
            intro _ _
            refine ⟨claims.newUser tenant (claims.address env) s.clock, ?_, rfl, tenant.2, hfind, hactive⟩
            rw [Store.findUser, (Table.find_of_insert hinsert).2, if_pos rfl]
            rfl

/-! ### The second factor -/

/-- The code is accepted: it is the one of the moment, or a recovery code. -/
def secondFactor (env : Platform) (user : Account) (code : String) (time : Date) : Bool :=
  (isOneTimeCode (normalized env code) && user.mfaSecretEnc.any fun secret =>
    env.check (normalized env code) (env.decrypt secret) time) ||
  user.mfaRecoveryCodes.any fun h => verifyPassword env (some h) (normalized env code)

/-- The user has a second factor. -/
def enrolled (user : Account) : Bool := user.mfaEnabled && user.mfaSecretEnc.any (· ≠ "")

/-- A challenge that is met, so that a token is created, is that of a user who is still active. -/
def Rechecked (env : Platform) (s : Store) : Request → Prop
  | .verifyMfa d mfaToken code _ => ∀ challenged user, env.verifyMfa mfaToken s.clock = some challenged →
    s.findUser challenged.1 = some user → enrolled user = true → secondFactor env user code s.clock = true →
    Unused env s d → ActiveAccount s challenged.1
  | .issueSession d userId _ => (s.findUser userId).isSome → Unused env s d → ActiveAccount s userId
  | _ => True

/-- Recovery codes have nothing to do with whether a user is active. -/
theorem findUser_withCodes (id j : Uuid) (codes : List String) :
    (updated s id fun u => { u with mfaRecoveryCodes := codes }).findUser j =
      (s.findUser j).map fun u => if j = id then { u with mfaRecoveryCodes := codes } else u := by
  rw [Store.findUser, updated, Table.find_modify, Store.findUser]
  cases s.users.find j with
  | none => rfl
  | some u => by_cases hj : j = id <;> cases hu : u.deletedAt <;> simp [hj, hu, Option.filter]

theorem activeAccount_withCodes (id j : Uuid) (codes : List String) :
    ActiveAccount (updated s id fun u => { u with mfaRecoveryCodes := codes }) j ↔ ActiveAccount s j := by
  have hsame : ∀ u : Account, (if j = id then { u with mfaRecoveryCodes := codes } else u).status = u.status ∧
      (if j = id then { u with mfaRecoveryCodes := codes } else u).tenantId = u.tenantId := by
    intro u
    split <;> exact ⟨rfl, rfl⟩
  rw [ActiveAccount, ActiveAccount, findUser_withCodes]
  constructor
  · rintro ⟨u, hu, hstatus, t, ht, hactive⟩
    obtain ⟨u, hfind, rfl⟩ := Option.map_eq_some_iff.mp hu
    rw [(hsame u).1] at hstatus
    rw [(hsame u).2] at ht
    exact ⟨u, hfind, hstatus, t, ht, hactive⟩
  · rintro ⟨u, hu, hstatus, t, ht, hactive⟩
    refine ⟨_, by rw [hu, Option.map_some], ?_, t, ?_, hactive⟩
    · rw [(hsame u).1, hstatus]
    · rw [(hsame u).2]
      exact ht

/-- The check answers whether the code is accepted; a recovery code is used up. -/
theorem careful_checkMfaCode {β : Type} {id : Uuid} {user : Account} {code : String} {k : Bool → Method β} {P : Prop}
    (hu : s.findUser id = some user)
    (h : ∀ s₁ : Store, s₁.refreshTokens = s.refreshTokens → (∀ j, (s₁.findUser j).isSome = (s.findUser j).isSome) →
      (∀ j, ActiveAccount s₁ j ↔ ActiveAccount s j) →
      (Careful (k (secondFactor env user code s.clock)) s₁ ↔ P)) :
    Careful (checkMfaCode env id user code >>= k) s ↔ P := by
  have hfind : s.users.find id = some user := (Option.filter_eq_some_iff.mp hu).1
  rw [checkMfaCode, bind_assoc, careful_now]
  split
  · rename_i honce
    have := h s rfl (fun _ => rfl) fun _ => Iff.rfl
    rw [secondFactor, honce, Bool.true_or] at this
    rwa [pure_bind]
  rename_i honce
  rw [Bool.not_eq_true] at honce
  rw [useRecoveryCode]
  cases hcode : user.mfaRecoveryCodes.find? fun h => verifyPassword env (some h) (normalized env code) with
  | none =>
    have := h s rfl (fun _ => rfl) fun _ => Iff.rfl
    rw [secondFactor, honce, Bool.false_or, List.any_eq_false.mpr (by simpa using hcode)] at this
    rwa [pure_bind]
  | some hashed =>
    have hany : user.mfaRecoveryCodes.any (fun h => verifyPassword env (some h) (normalized env code)) = true :=
      List.any_eq_true.mpr ⟨hashed, List.mem_of_find?_eq_some hcode, (List.find?_eq_some_iff_append.mp hcode).1⟩
    dsimp only
    rw [bind_assoc, careful_updateUser hfind, bind_assoc, careful_auditRecord, pure_bind]
    rw [secondFactor, honce, Bool.false_or, hany] at h
    refine h _ rfl (fun j => ?_) fun j => activeAccount_withCodes ..
    exact (congrArg Option.isSome (findUser_withCodes id j _)).trans Option.isSome_map

theorem careful_verifyMfa (d : Draws) (mfaToken code : String) (info : RequestMeta) (s : Store) :
    Careful (Auth.verifyMfa env d mfaToken code info) s ↔ Rechecked env s (.verifyMfa d mfaToken code info) := by
  rw [Auth.verifyMfa, careful_now, Rechecked]
  cases hchallenge : env.verifyMfa mfaToken s.clock with
  | none => exact ⟨fun _ challenged user h => (by cases h), fun _ => trivial⟩
  | some challenged =>
    obtain ⟨id, tenantId⟩ := challenged
    show Careful (Prog.read (fun s => s.findUser id) >>= _) s ↔ _
    rw [careful_read]
    cases huser : (s.findUser id).filter enrolled with
    | none =>
      refine ⟨fun _ challenged user h hu henrolled => ?_, fun _ => ?_⟩
      · cases h
        rw [hu, Option.filter_some, if_pos henrolled] at huser
        cases huser
      · have : ((s.findUser id).filter fun u => u.mfaEnabled && u.mfaSecretEnc.any (· ≠ "")) = none := huser
        rw [this]
        trivial
    | some user =>
      obtain ⟨hu, henrolled⟩ := Option.filter_eq_some_iff.mp huser
      have : ((s.findUser id).filter fun u => u.mfaEnabled && u.mfaSecretEnc.any (· ≠ "")) = some user := huser
      rw [this]
      refine careful_checkMfaCode hu fun s₁ htokens hfound hactive => ?_
      have hunused : Unused env s₁ d ↔ Unused env s d := by rw [Unused, Unused, htokens]
      cases hok : secondFactor env user code s.clock with
      | false =>
        refine ⟨fun _ challenged user' h hu' _ hok' => ?_, fun _ => careful_denied s₁⟩
        cases h
        rw [hu, Option.some.injEq] at hu'
        rw [← hu', hok] at hok'
        cases hok'
      | true =>
        rw [if_pos rfl, careful_issueSession, hfound, hunused, hactive, hu]
        constructor
        · intro h challenged user' hchallenged _ _ _ hunused
          cases hchallenged
          exact h rfl hunused
        · exact fun h _ hunused => h (id, tenantId) user rfl hu henrolled hok hunused

/-- A request creates tokens for active users only exactly if it has rechecked the account. -/
theorem careful_serve (s : Store) (r : Request) : Careful (serve env r) s ↔ Rechecked env s r := by
  cases r with
  | login d dto info => exact iff_of_true ((careful_map ..).mpr (careful_login d dto info s)) trivial
  | verifyMfa d mfaToken code info => exact (careful_map ..).trans (careful_verifyMfa d mfaToken code info s)
  | callback d stateCookie granted info =>
    exact iff_of_true ((careful_map ..).mpr (careful_callback d stateCookie granted info s)) trivial
  | issueSession d userId info => exact (careful_map ..).trans (careful_issueSession d userId info s)
  | refresh d rawToken info => exact iff_of_true ((careful_map ..).mpr (careful_refresh d rawToken info s)) trivial
  | _ => exact iff_of_true (careful_of_quiet rfl rfl s) trivial

/-- **Sessions only for active accounts**: in a history of requests, every token is created for a
user who is active at that moment, exactly if every second factor that was accepted was that of a
user who was still active. -/
theorem created_for_active_iff (s₀ : Store) (past : List Request) :
    Always (serve env) (fun s r => Careful (serve env r) s) s₀ past ↔ Always (serve env) (Rechecked env) s₀ past :=
  always_congr careful_serve s₀ past

end Accounts

/-! ### A challenge that outlives a suspension -/

/-- The administrator enrols a second factor. -/
def enrolment : Draws := { draw 5 "unused" with secret := "123456" }

/-- The executive, as requests know the user. -/
def chief : AuthUser := buildAuthUser .off team 2 (person "cae" .chiefAuditExecutive)

/-- The administrator enrols, is challenged at a login, and is suspended by the executive. -/
def suspendedWhileChallenged : List Request :=
  [.updateUser chief 1 { status := some (some .suspended) },
   .login (draw 6 "second") { email := "admin", password := "password" } {},
   .mfaEnable enrolment 1 "123456",
   .mfaSetup enrolment 1]

/-- The challenge is met, and a session of a suspended user begins. -/
theorem suspended_user_gets_session :
    ((history (serve platform) team (.verifyMfa (draw 7 "third") "challenge" "123456" {} :: suspendedWhileChallenged)
      ).refreshTokens.find 700).map RefreshToken.userId = some 1 ∧
    ¬Always (serve platform) (fun s r => Careful (serve platform r) s) team
      (.verifyMfa (draw 7 "third") "challenge" "123456" {} :: suspendedWhileChallenged) := by
  refine ⟨by decide +kernel, fun h => ?_⟩
  have hsuspended : ((history (serve platform) team suspendedWhileChallenged).findUser 1).map Account.status =
      some .suspended := by decide +kernel
  obtain ⟨user, hu, -⟩ := Option.map_eq_some_iff.mp hsuspended
  have hmet : ((history (serve platform) team suspendedWhileChallenged).findUser 1).any (fun u => enrolled u &&
      secondFactor platform u "123456" (history (serve platform) team suspendedWhileChallenged).clock) = true := by
    decide +kernel
  rw [hu, Option.any_some, Bool.and_eq_true] at hmet
  have hunused : Unused platform (history (serve platform) team suspendedWhileChallenged) (draw 7 "third") := by
    refine ⟨by decide +kernel, ?_⟩
    refine (Table.forall_find_iff _ fun _ (y : RefreshToken) => y.tokenHash ≠ platform.sha256 (draw 7 "third").token).mpr ?_
    decide +kernel
  obtain ⟨u, hu', hstatus, -⟩ := (careful_serve _ _).mp h.1 (1, 1) user rfl hu hmet.1 hmet.2 hunused
  rw [hu', Option.map_some, hstatus] at hsuspended
  cases hsuspended

end AuditSphere.Sessions
