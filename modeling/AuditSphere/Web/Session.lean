import AuditSphere.Sessions.Requests
import AuditSphere.Web.Client

/-!
# The session of a browser

The server takes a refresh token once: one that has been replaced revokes its whole family. The
client presents the token it has got last, and begins no refresh before the one before is over, so
the session of a browser lives on while its calls are answered in any order (`session_kept`), as
long as two of its tabs do not refresh at once and no new token is lost on its way.
-/

namespace AuditSphere.Web

open Prisma Theory Shared Auth

/-! ### Tokens -/

/-- What `refresh` answers if the token has been revoked. -/
def reused : AuthError := .unauthorized "Refresh token reuse detected; session revoked"

/-- No two tokens have the same hash. -/
def HashesUnique (s : Store) : Prop := ∀ i j t u, s.refreshTokens.find i = some t → s.refreshTokens.find j = some u →
  t.tokenHash = u.tokenHash → i = j

/-- The row of a token of the family that has not been revoked. -/
def Current (family : Uuid) (s : Store) (id : Uuid) (hash : String) : Prop :=
  ∃ t, s.refreshTokens.find id = some t ∧ t.tokenHash = hash ∧ t.family = family ∧ t.revokedAt = none

/-- What others do revokes no token of the family. -/
structure Spares (family : Uuid) (s s' : Store) : Prop where
  unique : HashesUnique s → HashesUnique s'
  kept : ∀ id hash, Current family s id hash → Current family s' id hash

/-- The text is the token of such a row. -/
def Valid (env : Platform) (family : Uuid) (s : Store) (raw : String) : Prop := ∃ id, Current family s id (env.sha256 raw)

/-- The cookie is empty, or a valid token. -/
def CookieValid (env : Platform) (family : Uuid) (s : Store) (cookie : Option String) : Prop :=
  ∀ raw ∈ cookie.filter (· ≠ ""), Valid env family s raw

/-- How a refresh with the cookie ends: with a valid token, or with an error other than `reused` that leaves the
cookie valid. -/
def Outcome (env : Platform) (family : Uuid) (cookie : Option String) (res : Except AuthError Session) (s : Store) : Prop :=
  HashesUnique s ∧ match res with
    | .ok session => Valid env family s session.tokens.refresh
    | .error e => e ≠ reused ∧ CookieValid env family s cookie

/-- The method keeps the hashes apart and ends so, while others spare the family. -/
def Proceeds (env : Platform) (family : Uuid) (cookie : Option String) (p : Method Session) (s : Store) : Prop :=
  p.Meets (Spares family) (fun a b => HashesUnique a → HashesUnique b) (Outcome env family cookie) s

variable {env : Platform} {family : Uuid} {cookie : Option String}

namespace Spares

theorem refl (s : Store) : Spares family s s := ⟨id, fun _ _ => id⟩

theorem trans {a b c : Store} (h : Spares family a b) (h' : Spares family b c) : Spares family a c :=
  ⟨fun hu => h'.unique (h.unique hu), fun id hash hc => h'.kept id hash (h.kept id hash hc)⟩

theorem of_tokens_eq {s s' : Store} (h : s'.refreshTokens = s.refreshTokens) : Spares family s s' where
  unique hu := by
    unfold HashesUnique
    rw [h]
    exact hu
  kept id hash hc := by
    unfold Current
    rw [h]
    exact hc

theorem valid {s s' : Store} (h : Spares family s s') {raw : String} (hv : Valid env family s raw) :
    Valid env family s' raw := by
  obtain ⟨id, hid⟩ := hv
  exact ⟨id, h.kept id _ hid⟩

theorem cookieValid {s s' : Store} (h : Spares family s s') (hc : CookieValid env family s cookie) :
    CookieValid env family s' cookie :=
  fun raw hraw => h.valid (hc raw hraw)

theorem outcome {s s' : Store} (h : Spares family s s') {res : Except AuthError Session}
    (ho : Outcome env family cookie res s) : Outcome env family cookie res s' := by
  refine ⟨h.unique ho.1, ?_⟩
  cases res with
  | ok session => exact h.valid ho.2
  | error e => exact ⟨ho.2.1, h.cookieValid ho.2.2⟩

/-- A method that waits proceeds after what others do. -/
theorem proceeds {s s' : Store} (h : Spares family s s') {p : Method Session} (hp : Proceeds env family cookie p s) :
    Proceeds env family cookie p s' := by
  cases p with
  | ret a =>
    have hp : Outcome env family cookie (.ok a) s := hp
    exact h.outcome hp
  | fail e =>
    have hp : Outcome env family cookie (.error e) s := hp
    exact h.outcome hp
  | act u k => exact fun s'' hs => hp s'' (h.trans hs)

end Spares

/-! ### A refresh -/

/-- The row of a valid token is the one that `refresh` finds. -/
theorem Valid.found {s : Store} {raw : String} (h : Valid env family s raw) (hu : HashesUnique s) :
    ∃ id t, s.tokenByHash (env.sha256 raw) = some (id, t) ∧ s.refreshTokens.find id = some t ∧
      t.tokenHash = env.sha256 raw ∧ t.family = family ∧ t.revokedAt = none := by
  obtain ⟨id, t, hid, hhash, hfamily, hlive⟩ := h
  have hsome : (s.tokenByHash (env.sha256 raw)).isSome := Table.isSome_first_iff.mpr ⟨id, t, hid, by simp [hhash]⟩
  obtain ⟨⟨j, u⟩, hj⟩ := Option.isSome_iff_exists.mp hsome
  obtain ⟨hfind, hsame⟩ := Table.find_of_first hj
  have hsame : u.tokenHash = env.sha256 raw := by simpa using hsame
  have hij : j = id := hu j id u t hfind hid (hsame.trans hhash.symm)
  subst hij
  obtain rfl : t = u := Option.some.inj (hid.symm.trans hfind)
  exact ⟨j, t, hj, hid, hhash, hfamily, hlive⟩

theorem load_within (m : MfaEnforcement) (id : Uuid) :
    (load m id true).Within fun s s' => s'.refreshTokens = s.refreshTokens := by
  unfold load
  refine Prog.Within.bind (Prog.within_read _ fun _ => rfl) fun found => ?_
  obtain ⟨time, hit⟩ := found
  cases hit with
  | some value => exact Prog.within_pure _
  | none =>
    refine Prog.Within.bind (Prog.within_read _ fun _ => rfl) fun user => ?_
    cases user with
    | none => exact Prog.Within.bind (Prog.within_write fun _ => rfl) fun _ => Prog.within_pure _
    | some value => exact Prog.Within.bind (Prog.within_write fun _ => rfl) fun _ => Prog.within_pure _

theorem HashesUnique.insert {s : Store} {id : Uuid} {t : RefreshToken} {tokens : Table Uuid RefreshToken}
    (hu : HashesUnique s) (hfresh : ∀ j u, s.refreshTokens.find j = some u → u.tokenHash ≠ t.tokenHash)
    (h : s.refreshTokens.insert id t = some tokens) : HashesUnique { s with refreshTokens := tokens } := by
  obtain ⟨-, hrows⟩ := Table.find_of_insert h
  intro i j a b hi hj heq
  have hi : (if i = id then some t else s.refreshTokens.find i) = some a := (hrows i).symm.trans hi
  have hj : (if j = id then some t else s.refreshTokens.find j) = some b := (hrows j).symm.trans hj
  split_ifs at hi hj with h₁ h₂ h₂
  · exact h₁.trans h₂.symm
  · cases hi
    exact absurd heq.symm (hfresh j b hj)
  · cases hj
    exact absurd heq (hfresh i a hi)
  · exact hu i j a b hi hj heq

theorem HashesUnique.replace {s : Store} (hu : HashesUnique s) (id next : Uuid) (time : Date) :
    HashesUnique { s with refreshTokens := s.refreshTokens.modify (fun j _ => j = id) fun t =>
      { t with revokedAt := some time, replacedBy := some next } } := by
  intro i j a b hi hj heq
  rw [Table.find_modify_key] at hi hj
  have row {i : Uuid} {a : RefreshToken} (h : (if id = i then (s.refreshTokens.find i).map fun t => { t with
      revokedAt := some time, replacedBy := some next } else s.refreshTokens.find i) = some a) :
      ∃ t, s.refreshTokens.find i = some t ∧ t.tokenHash = a.tokenHash := by
    split_ifs at h with hid
    · obtain ⟨t, ht, rfl⟩ := Option.map_eq_some_iff.mp h
      exact ⟨t, ht, rfl⟩
    · exact ⟨a, h, rfl⟩
  obtain ⟨t, ht, hta⟩ := row hi
  obtain ⟨u, hu', hub⟩ := row hj
  exact hu i j t u ht hu' (hta.trans (heq.trans hub.symm))

/-- A method that fails leaves the cookie valid. -/
theorem outcome_error {s : Store} (hu : HashesUnique s) (hc : CookieValid env family s cookie) {e : AuthError}
    (he : e ≠ reused) : Outcome env family cookie (.error e) s := ⟨hu, he, hc⟩

/-- The rotation: the successor is inserted, and the token that was presented is revoked. -/
theorem rotation_proceeds {d : Draws} {info : RequestMeta} {id : Uuid} {t : RefreshToken} {time : Date} {user : AuthUser}
    {s : Store} (hu : HashesUnique s) (hc : CookieValid env family s cookie) (hid : Current family s id t.tokenHash)
    (hfamily : t.family = family) :
    Proceeds env family cookie (do
      insertToken (d.uuid 0) (successor env d info t time)
      replaceToken id (d.uuid 0) time
      let access := env.signAccess ⟨user.id, user.tenantId, user.email, user.roles⟩
      Auth.auditRecord (some user.id) "auth.refresh" "RefreshToken" (d.uuid 0)
      pure ⟨user, ⟨access, d.token⟩⟩) s := by
  unfold Proceeds
  rw [Prog.meets_bind]
  refine (Prog.meets_call _ _).mpr fun s₁ hs₁ => ?_
  have hu₁ := hs₁.unique hu
  have hc₁ := hs₁.cookieValid hc
  split_ifs with hhash huser
  · exact ⟨fun h => h, outcome_error hu₁ hc₁ (by decide)⟩
  · exact ⟨fun h => h, outcome_error hu₁ hc₁ (by decide)⟩
  cases hinsert : s₁.refreshTokens.insert (d.uuid 0) (successor env d info t time) with
  | none => exact ⟨fun h => h, outcome_error hu₁ hc₁ (by decide)⟩
  | some tokens =>
    have hfresh : ∀ j u, s₁.refreshTokens.find j = some u → u.tokenHash ≠ (successor env d info t time).tokenHash := by
      intro j u hj heq
      refine hhash (Table.isSome_first_iff.mpr ⟨j, u, hj, ?_⟩)
      rw [heq]
      exact decide_eq_true rfl
    obtain ⟨hnone, hrows⟩ := Table.find_of_insert hinsert
    have hu₂ := hu₁.insert hfresh hinsert
    refine ⟨fun _ => hu₂, ?_⟩
    dsimp only
    rw [Prog.meets_bind]
    -- the successor is there, beside the token that was presented
    have hnext : Current family { s₁ with refreshTokens := tokens } (d.uuid 0) (env.sha256 d.token) :=
      ⟨_, (hrows _).trans (if_pos rfl), rfl, hfamily, rfl⟩
    obtain ⟨t₁, hfind₁, hrest₁⟩ := hs₁.kept _ _ hid
    have hother : d.uuid 0 ≠ id := by
      rintro rfl
      rw [hnone] at hfind₁
      cases hfind₁
    have hid₂ : Current family { s₁ with refreshTokens := tokens } id t.tokenHash :=
      ⟨t₁, (hrows _).trans ((if_neg hother.symm).trans hfind₁), hrest₁⟩
    refine (Prog.meets_call _ _).mpr fun s₃ hs₃ => ?_
    have hu₃ := hs₃.unique hu₂
    obtain ⟨t₃, hfind₃, -⟩ := hs₃.kept _ _ hid₂
    rw [if_neg (by simp [hfind₃])]
    refine ⟨fun h => h.replace _ _ _, ?_⟩
    have hvalid : Valid env family { s₃ with refreshTokens := s₃.refreshTokens.modify (fun j _ => j = id) fun t =>
        { t with revokedAt := some time, replacedBy := some (d.uuid 0) } } d.token := by
      obtain ⟨u, hfind, hrest⟩ := hs₃.kept _ _ hnext
      refine ⟨d.uuid 0, u, ?_, hrest⟩
      rw [Table.find_modify_key, if_neg hother.symm]
      exact hfind
    have hu₄ := hu₃.replace id (d.uuid 0) time
    dsimp only
    rw [Prog.meets_bind]
    intro s₅ hs₅
    have haudit : Spares family s₅ { s₅ with
        auditTrail := ⟨some user.id, "auth.refresh", "RefreshToken", d.uuid 0⟩ :: s₅.auditTrail } := Spares.of_tokens_eq rfl
    exact ⟨haudit.unique, (hs₅.trans haudit).unique hu₄, (hs₅.trans haudit).valid hvalid⟩

/-- **A refresh** with a valid token, or with none, ends with a new valid token, or with an error other than `reused`. -/
theorem refresh_proceeds {s : Store} (hu : HashesUnique s) (hc : CookieValid env family s cookie) (d : Draws)
    (info : RequestMeta) : Proceeds env family cookie (refresh env d cookie info) s := by
  unfold refresh
  cases hraw : cookie.filter (· ≠ "") with
  | none =>
    have hnone : Outcome env family cookie (.error (.unauthorized "No refresh token")) s :=
      outcome_error hu hc (by decide)
    exact hnone
  | some raw =>
    have hvalid := hc raw hraw
    refine (Prog.meets_read_bind _ _ _).mpr fun s₁ hs₁ => ⟨fun h => h, ?_⟩
    obtain ⟨id, t, hfound, hid, hhash, hfamily, hlive⟩ := (hs₁.valid hvalid).found (hs₁.unique hu)
    rw [hfound]
    refine (Prog.meets_read_bind _ _ _).mpr fun s₂ hs₂ => ⟨fun h => h, ?_⟩
    have hs₁₂ := hs₁.trans hs₂
    unfold refreshFound
    rw [if_neg (by simp [hlive])]
    refine (Prog.meets_ite _ _ _ _).mpr ?_
    split_ifs with hexpired
    · exact outcome_error (hs₁₂.unique hu) (hs₁₂.cookieValid hc) (by decide)
    rw [Prog.meets_bind]
    have hload := (load_within env.mfaEnforcement t.userId).meets
      (G := fun a b => HashesUnique a → HashesUnique b) (R := Spares family)
      (fun _ _ h => (Spares.of_tokens_eq h : Spares family _ _).unique) (fun _ _ h => Spares.of_tokens_eq h) Spares.refl
      (fun _ _ _ => Spares.trans) s₂
    refine hload.mono fun res s₃ hres => ?_
    obtain ⟨⟨user, rfl⟩, hs₃⟩ := hres
    have hs₁₃ := hs₁₂.trans hs₃
    have hid₃ : Current family s₃ id t.tokenHash := (hs₂.trans hs₃).kept _ _ ⟨t, hid, rfl, hfamily, hlive⟩
    dsimp only
    cases user.filter AuthUser.valid with
    | none => exact outcome_error (hs₁₃.unique hu) (hs₁₃.cookieValid hc) (by decide)
    | some user => exact rotation_proceeds (hs₁₃.unique hu) (hs₁₃.cookieValid hc) hid₃ hfamily

/-! ### The refreshes of the tabs -/

/-- What every refresh under way relies on: it is the only one, it carries the cookie of the browser, and the server
proceeds with it; between refreshes the cookie is valid. -/
structure Intact (env : Platform) (family : Uuid) (s : Store) (cookie : Option String) (promises : ℕ → Option Refresh) :
    Prop where
  unique : HashesUnique s
  lone : ∀ t t', (promises t).any Refresh.underWay = true → (promises t').any Refresh.underWay = true → t = t'
  sent : ∀ t c, promises t = some (.sent c) → c = cookie
  handled : ∀ t rest, promises t = some (.handled rest) → Proceeds env family cookie rest s
  between : (∀ t rest, promises t ≠ some (.handled rest)) → CookieValid env family s cookie

/-- The refresh of the tab. -/
def System.promise (s : System) (t : ℕ) : Option Refresh := (s.tabs t).refreshPromise

theorem underWay_of_promise {s : System} {t : ℕ} {r : Refresh} (h : (s.tabs t).refreshPromise = some r)
    (hr : r.underWay = true) : (s.promise t).any Refresh.underWay = true := by
  unfold System.promise
  rw [h]
  exact hr

@[simp] theorem promise_update (s : System) (tab : ℕ) (t : Tab) :
    (s.update tab t).promise = Function.update s.promise tab t.refreshPromise := by
  funext i
  by_cases hi : i = tab
  · subst hi
    simp [System.promise, System.update]
  · simp [System.promise, System.update, hi]

/-- A tab that keeps its refresh. -/
theorem update_promise_self {s : System} {tab : ℕ} {t : Tab} (h : t.refreshPromise = s.promise tab) :
    (s.update tab t).promise = s.promise := by
  rw [promise_update, h, Function.update_eq_self]

namespace Intact

variable {s : Store} {promises : ℕ → Option Refresh} {tab : ℕ}

/-- No refresh is under way. -/
theorem of_idle (hu : HashesUnique s) (hc : CookieValid env family s cookie)
    (hidle : ∀ t, (promises t).any Refresh.underWay = false) : Intact env family s cookie promises where
  unique := hu
  lone t _ h := by
    rw [hidle t] at h
    cases h
  sent t c h := by
    have := hidle t
    rw [h] at this
    cases this
  handled t rest h := by
    have := hidle t
    rw [h] at this
    cases this
  between _ := hc

/-- One tab's refresh is the only one that is under way. -/
theorem others_idle (h : Intact env family s cookie promises) (htab : (promises tab).any Refresh.underWay = true)
    {t : ℕ} (ht : t ≠ tab) : (promises t).any Refresh.underWay = false := by
  by_contra hother
  exact ht (h.lone t tab ((Bool.not_eq_false _).mp hother) htab)

theorem of_lone {r : Refresh} (hu : HashesUnique s) (hidle : ∀ t ≠ tab, (promises t).any Refresh.underWay = false)
    (hr : match r with
      | .sent c => c = cookie ∧ CookieValid env family s cookie
      | .handled rest => Proceeds env family cookie rest s
      | .settled _ => CookieValid env family s cookie) :
    Intact env family s cookie (Function.update promises tab (some r)) := by
  have halone (t : ℕ) (h : (Function.update promises tab (some r) t).any Refresh.underWay = true) : t = tab := by
    by_contra ht
    rw [Function.update_of_ne ht, hidle t ht] at h
    cases h
  refine ⟨hu, fun t t' h h' => (halone t h).trans (halone t' h').symm, fun t c h => ?_, fun t rest h => ?_, fun h => ?_⟩
  · have ht := halone t (by rw [h]; rfl)
    subst ht
    rw [Function.update_self] at h
    cases h
    exact hr.1
  · have ht := halone t (by rw [h]; rfl)
    subst ht
    rw [Function.update_self] at h
    cases h
    exact hr
  · cases r with
    | sent c => exact hr.2
    | handled rest => exact absurd (Function.update_self ..) (h tab rest)
    | settled ok => exact hr

/-- A refresh that is over: the other tabs have none under way. -/
theorem settle (h : Intact env family s cookie promises) (htab : (promises tab).any Refresh.underWay = true) {ok : Bool}
    {cookie' : Option String} (hc : CookieValid env family s cookie') :
    Intact env family s cookie' (Function.update promises tab (some (.settled ok))) :=
  of_lone h.unique (fun _ ht => h.others_idle htab ht) hc

/-- The cookie is valid while the only refresh is on its way. -/
theorem cookie_of_sent (h : Intact env family s cookie promises) {c : Option String}
    (htab : promises tab = some (.sent c)) : CookieValid env family s cookie := by
  refine h.between fun t rest hrest => ?_
  have ht : t = tab := h.lone t tab (by rw [hrest]; rfl) (by rw [htab]; rfl)
  subst ht
  rw [htab] at hrest
  cases hrest

/-- The timer clears a refresh that has settled. -/
theorem clear (h : Intact env family s cookie promises) {ok : Bool} (htab : promises tab = some (.settled ok)) :
    Intact env family s cookie (Function.update promises tab none) := by
  have hkept (t : ℕ) {r : Refresh} (hr : r.underWay = true) (ht : Function.update promises tab none t = some r) :
      promises t = some r := by
    by_cases heq : t = tab
    · rw [heq, Function.update_self] at ht
      cases ht
    · rwa [Function.update_of_ne heq] at ht
  have hunder (t : ℕ) (ht : (Function.update promises tab none t).any Refresh.underWay = true) :
      (promises t).any Refresh.underWay = true := by
    cases hr : Function.update promises tab none t with
    | none =>
      rw [hr] at ht
      cases ht
    | some r =>
      rw [hr] at ht
      rw [hkept t ht hr]
      exact ht
  refine ⟨h.unique, fun t t' ht ht' => h.lone t t' (hunder t ht) (hunder t' ht'), fun t c ht => h.sent t c (hkept t rfl ht),
    fun t rest ht => h.handled t rest (hkept t rfl ht), fun hnone => h.between fun t rest ht => ?_⟩
  by_cases heq : t = tab
  · rw [heq, htab] at ht
    cases ht
  · exact hnone t rest ((Function.update_of_ne heq ..).trans ht)

/-- What others do spares the family. -/
theorem spared {s' : Store} (h : Intact env family s cookie promises) (hs : Spares family s s') :
    Intact env family s' cookie promises where
  unique := hs.unique h.unique
  lone := h.lone
  sent := h.sent
  handled t rest hrest := hs.proceeds (h.handled t rest hrest)
  between hnone := hs.cookieValid (h.between hnone)

end Intact

/-! ### Runs -/

/-- What happens, as a program. -/
def serve (env : Platform) (e : Event) : Prog System AuthError Unit := .write fun s => s.next env e

@[simp] theorem after_serve (s : System) (e : Event) : after (serve env) s e = s.next env e := rfl

/-- The response makes the tab begin a refresh. -/
def begins (s : System) (tab i status : ℕ) : Bool :=
  !(s.tabs tab).refreshes && ((s.tabs tab).respond s.cookie i status).refreshes

/-- Two tabs do not refresh at once, no new token is lost, and others revoke no token of the family. -/
def Undisturbed (family : Uuid) (s : System) : Event → Prop
  | .respond tab i status => begins s tab i status = true → ∀ t, (s.tabs t).refreshes = false
  | .lose tab => ∀ session, s.promise tab ≠ some (.handled (.ret session))
  | .elsewhere u => Spares family s.store (u s.store)
  | _ => True

/-- A response leaves the refresh of the tab alone, or begins one. -/
theorem respond_promise (cookie : Option String) (t : Tab) (i status : ℕ) :
    (t.respond cookie i status).refreshPromise = t.refreshPromise ∨
      (t.refreshPromise = none ∧ (t.respond cookie i status).refreshPromise = some (.sent cookie)) := by
  unfold Tab.respond
  split
  · exact .inl rfl
  · split
    · split
      · unfold Tab.unauthorized
        split
        · rename_i hnone
          exact .inr ⟨hnone, rfl⟩
        · exact .inl rfl
        · exact .inl rfl
      · exact .inl rfl
    · exact .inl rfl
    · exact .inl rfl

/-- The refreshes of a system are intact. -/
def SystemIntact (env : Platform) (family : Uuid) (s : System) : Prop := Intact env family s.store s.cookie s.promise

/-- **What happens keeps the refreshes intact.** -/
theorem intact_next {s : System} {e : Event} (h : SystemIntact env family s) (hundisturbed : Undisturbed family s e) :
    SystemIntact env family (s.next env e) := by
  unfold SystemIntact at h ⊢
  cases e with
  | call tab path noRefresh =>
    have hsame : (s.update tab { s.tabs tab with calls := (s.tabs tab).calls ++ [.start path noRefresh] }).promise =
        s.promise := update_promise_self rfl
    rw [System.next, hsame]
    exact h
  | respond tab i status =>
    rw [System.next]
    rcases respond_promise s.cookie (s.tabs tab) i status with hsame | ⟨hnone, hsent⟩
    · rw [update_promise_self hsame]
      exact h
    · have hbegins : begins s tab i status = true := by
        unfold begins Tab.refreshes
        rw [hnone, hsent]
        rfl
      have hidle := hundisturbed hbegins
      rw [promise_update, hsent]
      refine Intact.of_lone h.unique (fun t _ => hidle t) ⟨rfl, h.between fun t rest hrest => ?_⟩
      have := hidle t
      unfold Tab.refreshes at this
      unfold System.promise at hrest
      rw [hrest] at this
      cases this
  | abort tab i =>
    have hsame : (s.update tab ((s.tabs tab).abort i)).promise = s.promise := update_promise_self rfl
    rw [System.next, hsame]
    exact h
  | arrive tab d info =>
    rw [System.next]
    split
    · rename_i c hsent
      have hcookie := h.sent tab c hsent
      subst hcookie
      rw [promise_update]
      have hway := underWay_of_promise hsent rfl
      exact Intact.of_lone h.unique (fun t ht => h.others_idle hway ht)
        (refresh_proceeds h.unique (h.cookie_of_sent hsent) d info)
    · exact h
  | turn tab =>
    rw [System.next]
    split
    · rename_i u k hhandled
      obtain ⟨hstep, hrest⟩ := h.handled tab _ hhandled s.store (Spares.refl _)
      have hway := underWay_of_promise hhandled rfl
      have hpromise : { s.update tab { s.tabs tab with refreshPromise := some (.handled (k s.store)) } with
          store := u s.store }.promise = Function.update s.promise tab (some (.handled (k s.store))) :=
        promise_update s tab _
      rw [hpromise]
      exact Intact.of_lone (hstep h.unique) (fun t ht => h.others_idle hway ht) hrest
    · exact h
  | receive tab =>
    rw [System.next, System.receive]
    split
    · rename_i session hret
      have hpromise : { s.update tab ((s.tabs tab).settle true) with cookie := some session.tokens.refresh }.promise =
          Function.update s.promise tab (some (.settled true)) := promise_update s tab _
      have houtcome : Outcome env family s.cookie (.ok session) s.store := h.handled tab _ hret
      have hway := underWay_of_promise hret rfl
      rw [hpromise]
      refine h.settle hway fun raw hraw => ?_
      obtain rfl : session.tokens.refresh = raw := Option.some.inj (Option.mem_filter_iff.mp hraw).1
      exact houtcome.2
    · rename_i e hfail
      have hpromise : { s.update tab ((s.tabs tab).settle false) with cookie := none }.promise =
          Function.update s.promise tab (some (.settled false)) := promise_update s tab _
      have hway := underWay_of_promise hfail rfl
      rw [hpromise]
      exact h.settle hway fun raw hraw => by cases hraw
    · exact h
  | lose tab =>
    rw [System.next, System.lose]
    split
    · rename_i c hsent
      rw [promise_update]
      refine h.settle ?_ (h.cookie_of_sent hsent)
      unfold System.promise
      rw [hsent]
      rfl
    · rename_i session hret
      exact absurd hret (hundisturbed session)
    · rename_i e hfail
      have houtcome : Outcome env family s.cookie (.error e) s.store := h.handled tab _ hfail
      rw [promise_update]
      refine h.settle ?_ houtcome.2.2
      unfold System.promise
      rw [hfail]
      rfl
    · exact h
  | timer tab =>
    rw [System.next]
    split
    · rename_i ok hsettled
      rw [promise_update]
      exact h.clear hsettled
    · exact h
  | elsewhere u =>
    rw [System.next]
    exact h.spared hundisturbed

/-- No refresh is answered with `reused`, and while none is under way the cookie is valid or empty. -/
structure SessionKept (env : Platform) (family : Uuid) (s : System) : Prop where
  unflagged : ∀ tab, s.promise tab ≠ some (.handled (.fail reused))
  cookie : (∀ tab, (s.tabs tab).refreshes = false) → CookieValid env family s.store s.cookie

theorem SessionKept.of_intact {s : System} (h : SystemIntact env family s) : SessionKept env family s where
  unflagged tab hreused := by
    have houtcome : Outcome env family s.cookie (.error reused) s.store := h.handled tab _ hreused
    exact houtcome.2.1 rfl
  cookie hidle := h.between fun t rest hrest => by
    have := hidle t
    unfold Tab.refreshes at this
    unfold System.promise at hrest
    rw [hrest] at this
    cases this

/-- **The session of a browser** whose refreshes are undisturbed is never taken for a stolen one. -/
theorem session_kept (env : Platform) (family : Uuid) (s₀ : System) (hunique : HashesUnique s₀.store)
    (hcookie : CookieValid env family s₀.store s₀.cookie) (hidle : ∀ tab, (s₀.tabs tab).refreshes = false)
    (events : List Event) (h : Always (serve env) (Undisturbed family) s₀ events) :
    Throughout (serve env) (SessionKept env family) s₀ events := by
  have hintact (past : List Event) (hpast : Always (serve env) (Undisturbed family) s₀ past) :
      SystemIntact env family (history (serve env) s₀ past) := by
    induction past with
    | nil => exact Intact.of_idle hunique hcookie hidle
    | cons e past ih => exact intact_next (ih hpast.2) hpast.1
  induction events with
  | nil => exact .of_intact (hintact [] h)
  | cons e past ih => exact ⟨.of_intact (hintact _ h), ih h.2⟩

/-- The browser of the administrator. -/
def browser : System where
  store := Sessions.team
  cookie := some "first"
  tabs _ := ⟨none, []⟩

/-- A page calls the server twice, and both calls are answered 401; while their refresh is handled, time passes. -/
def page : List Event :=
  [.timer 0, .receive 0] ++ List.replicate 4 (.turn 0) ++
    [.elsewhere fun s => { s with clock := s.clock + 5 }] ++ List.replicate 4 (.turn 0) ++
    [.arrive 0 (Sessions.draw 1 "second") {}, .respond 0 1 401, .respond 0 0 401, .call 0 "/risks" false,
      .call 0 "/findings" false]

/-- The theorem for that page, which ends with the new token. -/
theorem session_kept_page : Throughout (serve Sessions.platform) (SessionKept Sessions.platform 7) browser page ∧
    (history (serve Sessions.platform) browser page).cookie = some "second" := by
  refine ⟨session_kept Sessions.platform 7 browser ?_ ?_ (fun _ => rfl) page ?_, by decide +kernel⟩
  · intro i j t u hi hj _
    have hi : (i, t) ∈ [((10 : Uuid), Sessions.ticket "first" 7)] := (Table.find_eq_some_iff _ _ _).mp hi
    have hj : (j, u) ∈ [((10 : Uuid), Sessions.ticket "first" 7)] := (Table.find_eq_some_iff _ _ _).mp hj
    cases List.mem_singleton.mp hi
    cases List.mem_singleton.mp hj
    rfl
  · rintro raw hraw
    obtain rfl : "first" = raw := Option.some.inj (Option.mem_filter_iff.mp hraw).1
    exact ⟨10, _, rfl, rfl, rfl, rfl⟩
  · refine ⟨trivial, trivial, trivial, trivial, trivial, trivial, Spares.of_tokens_eq rfl, trivial, trivial, trivial,
      trivial, trivial, ?_, ?_, trivial, trivial, trivial⟩
    · intro h
      exact absurd h (by decide +kernel)
    · intro _ t
      cases t <;> rfl

/-- Two tabs that refresh at once: the second refresh is taken for a theft, and the family goes. -/
def twoTabs : List Event :=
  List.replicate 8 (.turn 1) ++ List.replicate 8 (.turn 0) ++
    [.arrive 1 (Sessions.draw 2 "third") {}, .arrive 0 (Sessions.draw 1 "second") {}, .respond 1 0 401, .respond 0 0 401,
      .call 1 "/risks" false, .call 0 "/findings" false]

example : ((history (serve Sessions.platform) browser twoTabs).store.refreshTokens.entries.map fun t =>
    t.2.revokedAt.isSome) = [true, true] := by decide +kernel

end AuditSphere.Web
