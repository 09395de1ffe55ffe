import AuditSphere.Sessions.Tokens

/-!
# One account per e-mail address

An administrator who creates a user and a sign-in with Entra ID that provisions one both
look for the e-mail address first, whatever its case, and insert afterwards; the database
only refuses the exact address. The sign-in passes over deleted users. What comes between
the look and the insertion, and a deleted user with another spelling, give a tenant two
users with one address.
-/

namespace AuditSphere.Users

open Prisma Theory Shared Auth Sessions

/-! ### Requests -/

/-- What adds users, and what removes them. -/
inductive Enrolment where
  | create (d : Draws) (actor : AuthUser) (dto : CreateUserDto)
  | signIn (d : Draws) (stateCookie : Option String) (granted : Option EntraClaims) (info : RequestMeta)
  | remove (id : Uuid)

/-- The request that it is. -/
def Enrolment.request : Enrolment → Request
  | .create d actor dto => .createUser d actor dto
  | .signIn d stateCookie granted info => .callback d stateCookie granted info
  | .remove id => .removeUser id

section Emails

variable (env : Platform)

/-- The program of an enrolment. -/
def enrol (e : Enrolment) : Method Answer := serve env e.request

/-! ### What should hold -/

/-- No tenant has two users whose addresses differ in case at most. -/
def OneAccount (s : Store) : Prop :=
  ∀ i j u v, s.users.find i = some u → s.users.find j = some v → u.tenantId = v.tenantId →
    env.sameText u.email v.email = true → i = j

/-- The user is one whom `findLoginUser` looks for. -/
def Store.signsIn (s : Store) (email slug : String) (u : Account) : Bool :=
  u.deletedAt.isNone && env.sameText u.email email && (s.tenants.find u.tenantId).any fun t => t.slug = slug

/-- With the slug of a tenant, at most one account signs in. -/
def LoginDetermined (s : Store) : Prop :=
  ∀ email slug i j u v, s.users.find i = some u → s.users.find j = some v → Store.signsIn env s email slug u = true →
    Store.signsIn env s email slug v = true → i = j

/-- No two tenants have one slug. -/
def SlugsUnique (s : Store) : Prop :=
  ∀ i j t t', s.tenants.find i = some t → s.tenants.find j = some t' → t.slug = t'.slug → i = j

/-- For the database, being the same text but for case is an equivalence. -/
def Collates : Prop := Equivalence fun a b => env.sameText a b = true

variable {env} in
/-- `findLoginUser` answers a user whom it looks for. -/
theorem signsIn_loginUser {s : Store} {email slug : String} (hslug : slug ≠ "") {x : WithId Account} {t : Option Tenant}
    (h : s.loginUser env email (some slug) = some (x, t)) :
    s.users.find x.1 = some x.2 ∧ Store.signsIn env s email slug x.2 = true := by
  obtain ⟨y, hy, heq⟩ := Option.map_eq_some_iff.mp h
  cases heq
  refine ⟨(s.users.find_eq_some_iff _ _).mpr (List.mem_reverse.mp (List.mem_of_find?_eq_some hy)), ?_⟩
  have hfound := List.find?_some hy
  rw [Option.filter_some, if_pos (by simpa using hslug)] at hfound
  exact hfound

variable {env} in
/-- One account for each address leaves no choice at the login. -/
theorem OneAccount.determined (hsame : Collates env) {s : Store} (hslugs : SlugsUnique s) (h : OneAccount env s) :
    LoginDetermined env s := by
  intro email slug i j u v hu hv hul hvl
  simp only [Store.signsIn, Bool.and_eq_true, Option.any_eq_true, decide_eq_true_eq] at hul hvl
  obtain ⟨⟨-, hutext⟩, t, ht, hts⟩ := hul
  obtain ⟨⟨-, hvtext⟩, t', ht', hts'⟩ := hvl
  exact h i j u v hu hv (hslugs _ _ t t' ht ht' (hts.trans hts'.symm)) (hsame.trans hutext (hsame.symm hvtext))

/-! ### What an enrolment inserts -/

/-- A user about to be inserted, and the state in which the address was looked for. -/
structure Arrival where
  id : Uuid
  user : Account
  looked : Store

/-- Whom the next call of an enrolment inserts, given the states of its calls so far, the most recent first. -/
def arriving : Enrolment → List Store → Option Arrival
  | .create d actor dto, [s₁] =>
    if (s₁.users.first fun _ u => u.tenantId = actor.tenantId && env.sameText u.email dto.email).isSome then none
    else some ⟨d.uuid 0, newUser env d actor dto, s₁⟩
  | .signIn d _ (some claims) _, [s₄, s₃, s₂, _] => (s₂.resolveTenant env).bind fun tenant =>
    if (s₃.users.first fun _ u =>
      u.tenantId = tenant.1 && env.sameText u.email (claims.address env) && u.deletedAt.isNone).isSome then none
    else some ⟨d.uuid 2, claims.newUser tenant (claims.address env) s₄.clock, s₃⟩
  | _, _ => none

/-- The database inserts the user. -/
def Admits (s : Store) (a : Arrival) : Prop :=
  s.users.find a.id = none ∧ ∀ j v, s.users.find j = some v → ¬(v.tenantId = a.user.tenantId ∧ v.email = a.user.email)

/-- The users keep tenant and address. -/
def SameUsers (s s' : Store) : Prop :=
  ∀ id, (s'.users.find id).map (fun u => (u.tenantId, u.email)) = (s.users.find id).map fun u => (u.tenantId, u.email)

/-- What a call of an enrolment does to users and tenants. -/
structure EnrolmentCall (e : Enrolment) (l : List Store) (s s' : Store) : Prop where
  tenants : s'.tenants = s.tenants
  same : arriving env e l = none → SameUsers s s'
  refused : ∀ a, arriving env e l = some a → ¬Admits s a → s'.users = s.users
  admitted : ∀ a, arriving env e l = some a → Admits s a → s.users.insert a.id a.user = some s'.users

variable {env} {e : Enrolment} {l : List Store} {s s' : Store}

/-- A call that inserts nobody. -/
theorem enrolmentCall_same (harriving : arriving env e l = none) (htenants : s'.tenants = s.tenants)
    (husers : SameUsers s s') : EnrolmentCall env e l s s' where
  tenants := htenants
  same := fun _ => husers
  refused := fun a ha => by rw [harriving] at ha; cases ha
  admitted := fun a ha => by rw [harriving] at ha; cases ha

theorem sameUsers_of_eq (h : s'.users = s.users) : SameUsers s s' := fun _ => by rw [h]

theorem sameUsers_modify {p : Uuid → Account → Bool} {f : Account → Account}
    (hf : ∀ u, (f u).tenantId = u.tenantId ∧ (f u).email = u.email) :
    SameUsers s { s with users := s.users.modify p f } := by
  intro id
  rw [Table.find_modify, Option.map_map]
  cases s.users.find id with
  | none => rfl
  | some u =>
    simp only [Option.map_some, Function.comp]
    split
    · rw [(hf u).1, (hf u).2]
    · rfl

/-- A look at the state. -/
theorem along_enrolment_look {α β : Type} {Q : Except AuthError β → List Store → Prop} {f : Store → α} {k : α → Method β}
    (harriving : arriving env e l = none) (hk : ∀ s, (k (f s)).Along (EnrolmentCall env e) Q (s :: l)) :
    (Prog.read f >>= k : Method β).Along (EnrolmentCall env e) Q l :=
  (Prog.along_read_bind _ _ _).mpr fun s => ⟨enrolmentCall_same harriving rfl (sameUsers_of_eq rfl), hk s⟩

/-- The entry in the audit trail comes after the insertion. -/
theorem along_enrolment_auditRecord {a b c f} {Q : Except AuthError Unit → List Store → Prop}
    (harriving : arriving env e l = none) (hQ : ∀ s, Q (.ok ()) (s :: l)) :
    (Auth.auditRecord a b c f).Along (EnrolmentCall env e) Q l :=
  fun s => ⟨enrolmentCall_same harriving rfl (sameUsers_of_eq rfl), hQ s⟩

/-- The insertion. -/
theorem along_enrolment_insertUser {id : Uuid} {u : Account} {s₁ : Store} {Q : Except AuthError Unit → List Store → Prop}
    (harriving : arriving env e l = some ⟨id, u, s₁⟩) (hQ : ∀ s res, Q res (s :: l)) :
    (insertUser id u).Along (EnrolmentCall env e) Q l := by
  rw [insertUser, Prog.along_call]
  intro s
  by_cases hmail : (s.users.first fun _ r => r.tenantId = u.tenantId && r.email = u.email).isSome
  · rw [if_pos hmail]
    refine ⟨⟨rfl, fun h => ?_, fun a _ _ => rfl, fun a ha hadmits => ?_⟩, hQ s _⟩
    · rw [harriving] at h
      cases h
    · rw [harriving] at ha
      cases ha
      obtain ⟨j, v, hj, hv⟩ := Table.isSome_first_iff.mp hmail
      exact absurd (by simpa using hv) (hadmits.2 j v hj)
  rw [if_neg hmail]
  have hfree : ∀ j v, s.users.find j = some v → ¬(v.tenantId = u.tenantId ∧ v.email = u.email) := by
    rintro j v hj ⟨htenant, hemail⟩
    exact hmail (Table.isSome_first_iff.mpr ⟨j, v, hj, by simp [htenant, hemail]⟩)
  cases hinsert : s.users.insert id u with
  | none =>
    refine ⟨⟨rfl, fun h => ?_, fun a _ _ => rfl, fun a ha hadmits => ?_⟩, hQ s _⟩
    · rw [harriving] at h
      cases h
    · rw [harriving] at ha
      cases ha
      exact absurd hadmits.1 ((Table.insert_eq_none_iff _ _ _).mp hinsert)
  | some users =>
    refine ⟨⟨rfl, fun h => ?_, fun a ha hnot => ?_, fun a ha _ => ?_⟩, hQ s _⟩
    · rw [harriving] at h
      cases h
    · rw [harriving] at ha
      cases ha
      exact absurd ⟨(Table.find_of_insert hinsert).1, hfree⟩ hnot
    · rw [harriving] at ha
      cases ha
      exact hinsert

/-- Whoever has made five calls inserts nobody. -/
theorem arriving_of_length (h : 5 ≤ l.length) : arriving env e l = none := by
  unfold arriving
  split
  · simp at h
  · simp at h
  · rfl

theorem along_enrolment_create (d : Draws) (actor : AuthUser) (dto : CreateUserDto) :
    (Users.create env d actor dto).Along (EnrolmentCall env (.create d actor dto)) (fun _ _ => True) [] := by
  rw [Users.create]
  refine along_enrolment_look rfl fun s₁ => ?_
  rw [Prog.along_ite]
  split
  · trivial
  · rename_i hnone
    rw [Prog.along_bind]
    have harriving : arriving env (.create d actor dto) [s₁] = some ⟨d.uuid 0, newUser env d actor dto, s₁⟩ := by
      rw [arriving, if_neg hnone]
    refine along_enrolment_insertUser harriving fun s₂ res => ?_
    cases res with
    | error e => trivial
    | ok _ =>
      dsimp only
      rw [Prog.along_bind]
      exact along_enrolment_auditRecord rfl fun _ => trivial

/-- The user who is there keeps tenant and address, and one who is not is inserted. -/
theorem along_enrolment_provision (d : Draws) (stateCookie : Option String) (claims : EntraClaims) (info : RequestMeta)
    (s₁ : Store) : (provisionUser env d claims (claims.address env)).Along
      (EnrolmentCall env (.signIn d stateCookie (some claims) info)) (fun r l => ∀ id, r = .ok id → 5 ≤ l.length) [s₁] := by
  rw [provisionUser]
  refine along_enrolment_look rfl fun s₂ => ?_
  cases htenant : s₂.resolveTenant env with
  | none => exact fun id h => by cases h
  | some tenant =>
    refine along_enrolment_look rfl fun s₃ => along_enrolment_look rfl fun s₄ => ?_
    cases hexisting : s₃.users.first fun _ u =>
        u.tenantId = tenant.1 && env.sameText u.email (claims.address env) && u.deletedAt.isNone with
    | some x =>
      obtain ⟨id, existing⟩ := x
      have harriving : arriving env (.signIn d stateCookie (some claims) info) [s₄, s₃, s₂, s₁] = none := by
        rw [arriving, htenant, Option.bind_some, hexisting]
        rfl
      dsimp only
      rw [Prog.along_ite]
      split
      · exact fun id h => by cases h
      · rw [Prog.along_bind, Auth.updateUser, Prog.along_call]
        intro s₅
        by_cases hnone : (s₅.users.find id).isNone
        · rw [if_pos hnone]
          exact ⟨enrolmentCall_same harriving rfl (sameUsers_of_eq rfl), fun id h => by cases h⟩
        · rw [if_neg hnone]
          refine ⟨enrolmentCall_same harriving rfl (sameUsers_modify fun u => ⟨rfl, rfl⟩), fun id _ => ?_⟩
          exact Nat.le_refl 5
    | none =>
      have harriving : arriving env (.signIn d stateCookie (some claims) info) [s₄, s₃, s₂, s₁] =
          some ⟨d.uuid 2, claims.newUser tenant (claims.address env) s₄.clock, s₃⟩ := by
        rw [arriving, htenant, Option.bind_some, hexisting]
        rfl
      dsimp only
      rw [Prog.along_bind]
      refine along_enrolment_insertUser harriving fun s₅ res => ?_
      cases res with
      | error e => exact fun id h => by cases h
      | ok _ =>
        dsimp only
        rw [Prog.along_bind]
        exact along_enrolment_auditRecord rfl fun s₆ id _ => (by simp : 5 ≤ [s₆, s₅, s₄, s₃, s₂, s₁].length)

theorem along_enrolment_callback (d : Draws) (stateCookie : Option String) (granted : Option EntraClaims)
    (info : RequestMeta) : (callback env d stateCookie granted info).Along
      (EnrolmentCall env (.signIn d stateCookie granted info)) (fun _ _ => True) [] := by
  rw [callback, Prog.along_ite]
  split
  · trivial
  cases stateCookie.filter (· ≠ "") with
  | none => trivial
  | some cookie =>
    refine along_enrolment_look (by cases granted <;> rfl) fun s₁ => ?_
    cases env.verifyEntraState cookie s₁.clock with
    | none => trivial
    | some returnTo =>
      cases granted with
      | none => trivial
      | some claims =>
        dsimp only
        rw [Prog.along_ite]
        split
        · trivial
        rw [Prog.along_bind]
        refine (along_enrolment_provision d stateCookie claims info s₁).mono (fun _ _ _ _ h => h) ?_
        rintro (e | id) l' - hlength
        · trivial
        have hl' : 5 ≤ l'.length := hlength id rfl
        dsimp only
        rw [Prog.along_bind]
        refine along_leavesAccounts_issueSession.mono (fun l'' s s' hl'' h => ?_) ?_
        · have hlater : 5 ≤ l''.length := hl'.trans hl''.length_le
          exact enrolmentCall_same (arriving_of_length hlater) h.2.1 (sameUsers_of_eq h.1)
        · rintro (e | session) l'' - - <;> trivial

/-- Each call of an enrolment, given the states of its calls so far. -/
theorem enrol_along (e : Enrolment) : (enrol env e).Along (EnrolmentCall env e) (fun _ _ => True) [] := by
  cases e with
  | create d actor dto => exact (Prog.along_map ..).mpr (along_enrolment_create d actor dto)
  | signIn d stateCookie granted info =>
    exact (Prog.along_map ..).mpr (along_enrolment_callback d stateCookie granted info)
  | remove id =>
    exact (Prog.along_map ..).mpr fun s =>
      ⟨enrolmentCall_same rfl rfl (sameUsers_modify fun u => ⟨rfl, rfl⟩), trivial⟩

/-! ### Runs -/

/-- The users stay, with tenant and address. -/
def Stay (s s' : Store) : Prop :=
  ∀ id u, s.users.find id = some u → ∃ u', s'.users.find id = some u' ∧ u'.tenantId = u.tenantId ∧ u'.email = u.email

theorem SameUsers.find (h : SameUsers s s') {id : Uuid} {u : Account} (hu : s.users.find id = some u) :
    ∃ u', s'.users.find id = some u' ∧ u'.tenantId = u.tenantId ∧ u'.email = u.email := by
  have hid := h id
  rw [hu, Option.map_some, Option.map_eq_some_iff] at hid
  obtain ⟨u', hu', heq⟩ := hid
  exact ⟨u', hu', congrArg Prod.fst heq, congrArg Prod.snd heq⟩

theorem SameUsers.symm (h : SameUsers s s') : SameUsers s' s := fun id => (h id).symm

theorem EnrolmentCall.stay (h : EnrolmentCall env e l s s') : Stay s s' := by
  intro id u hu
  cases harriving : arriving env e l with
  | none => exact (h.same harriving).find hu
  | some a =>
    by_cases hadmits : Admits s a
    · refine ⟨u, ?_, rfl, rfl⟩
      rw [(Table.find_of_insert (h.admitted a harriving hadmits)).2, if_neg, hu]
      rintro rfl
      rw [hadmits.1] at hu
      cases hu
    · exact ⟨u, by rw [h.refused a harriving hadmits, hu], rfl, rfl⟩

/-- Same users, same accounts. -/
theorem SameUsers.oneAccount (h : SameUsers s s') (hone : OneAccount env s) : OneAccount env s' := by
  intro i j u v hu hv htenant htext
  obtain ⟨u₀, hu₀, hut, hue⟩ := h.symm.find hu
  obtain ⟨v₀, hv₀, hvt, hve⟩ := h.symm.find hv
  exact hone i j u₀ v₀ hu₀ hv₀ (by rw [hut, hvt, htenant]) (by rw [hue, hve, htext])

/-- The look before an insertion has found nobody, deleted users apart. -/
theorem looked_of_arriving {a : Arrival} (h : arriving env e l = some a) :
    a.looked ∈ l ∧ ∀ j w, a.looked.users.find j = some w → w.tenantId = a.user.tenantId →
      env.sameText w.email a.user.email = true → w.deletedAt.isSome = true := by
  unfold arriving at h
  split at h
  · rename_i d actor dto s₁
    split at h
    · cases h
    · rename_i hnone
      cases h
      refine ⟨List.mem_singleton_self _, fun j w hj htenant htext => absurd ?_ hnone⟩
      exact Table.isSome_first_iff.mpr ⟨j, w, hj, by simpa using ⟨htenant, htext⟩⟩
  · rename_i d cookie claims info s₄ s₃ s₂ s₁
    obtain ⟨tenant, -, h⟩ := Option.bind_eq_some_iff.mp h
    split at h
    · cases h
    · rename_i hnone
      cases h
      refine ⟨by simp, fun j w hj htenant htext => ?_⟩
      by_contra hdeleted
      rw [Bool.not_eq_true, Option.isSome_eq_false_iff] at hdeleted
      refine hnone (Table.isSome_first_iff.mpr ⟨j, w, hj, ?_⟩)
      have ht : w.tenantId = tenant.1 := htenant
      have hx : env.sameText w.email (claims.address env) = true := htext
      rw [hx, hdeleted, ht, decide_eq_true rfl]
      rfl
  · cases h

section Run

variable (env) (s₀ : Store)

/-- The other user has the address of the first one, spelled differently. -/
def variant (u v : Account) : Bool :=
  v.tenantId = u.tenantId && env.sameText v.email u.email && v.email ≠ u.email

/-- The state after the events. -/
def enrolled (evs : List (Event Enrolment)) : Store := (interleave (enrol env) s₀ evs).st

/-- Whom the `i`-th enrolment is about to insert, unless his id is taken. -/
def inserting (past : List (Event Enrolment)) (i : ℕ) : Option Arrival :=
  if (interleave (enrol env) s₀ past).threads[i]?.any Thread.running then
    ((requested (enrol env) s₀ i past).bind fun e => arriving env e (seen (enrol env) s₀ i past)).filter fun a =>
      ((enrolled env s₀ past).users.find a.id).isNone
  else none

/-- Nobody in the state spells the address of the arrival differently whom the look could not find: one who has
come since, or whom the look saw deleted. -/
def Unrivalled (s : Store) (a : Arrival) : Prop :=
  (s.users.first fun j v => variant env a.user v && (a.looked.users.find j).all fun w => w.deletedAt.isSome) = none

/-- Whoever is inserted is unrivalled. -/
def Undisturbed (past : List (Event Enrolment)) : Event Enrolment → Prop
  | .start _ => True
  | .turn i => ∀ a ∈ inserting env s₀ past i, Unrivalled env (enrolled env s₀ past) a

instance (past : List (Event Enrolment)) : ∀ ev, Decidable (Undisturbed env s₀ past ev)
  | .start _ => .isTrue trivial
  | .turn i => inferInstanceAs (Decidable (∀ a ∈ inserting env s₀ past i,
      (((enrolled env s₀ past).users.first fun j v =>
        variant env a.user v && (a.looked.users.find j).all fun w => w.deletedAt.isSome) = none)))

variable {env} {s₀}

/-- Users stay from one moment of a run to any later one. -/
theorem stay_later (mid past : List (Event Enrolment)) : Stay (enrolled env s₀ past) (enrolled env s₀ (mid ++ past)) := by
  refine interleave_rel (fun s id u hu => ⟨u, hu, rfl, rfl⟩) ?_ ?_ mid past
  · intro a b c hab hbc id u hu
    obtain ⟨u', hu', htenant, hemail⟩ := hab id u hu
    obtain ⟨u'', hu'', htenant', hemail'⟩ := hbc id u' hu'
    exact ⟨u'', hu'', htenant'.trans htenant, hemail'.trans hemail⟩
  · intro past i
    rcases along_turn s₀ enrol_along past i with heq | ⟨th, -, hcall⟩
    · rw [heq]
      exact fun id u hu => ⟨u, hu, rfl, rfl⟩
    · exact hcall.stay

/-- The tenants stay as they are. -/
theorem enrolled_tenants (evs : List (Event Enrolment)) : (enrolled env s₀ evs).tenants = s₀.tenants := by
  have hturn : ∀ past i, ((interleave (enrol env) s₀ past).next (enrol env) (.turn i)).st.tenants =
      (interleave (enrol env) s₀ past).st.tenants := by
    intro past i
    rcases along_turn s₀ enrol_along past i with heq | ⟨th, -, hcall⟩
    · rw [heq]
    · exact hcall.tenants
  have hkept := interleave_rel (M := fun (s s' : Store) => s'.tenants = s.tenants) (fun _ => rfl)
    (fun _ _ _ hab hbc => Eq.trans hbc hab) hturn evs []
  rwa [List.append_nil] at hkept

/-- An insertion, from a state with one account for each address: the state after it is one as well exactly if nobody
spells the address differently. -/
theorem oneAccount_insertion (hsame : Collates env) {a : Arrival} (hone : OneAccount env s)
    (hid : s.users.find a.id = none) (hrefused : ¬Admits s a → s'.users = s.users)
    (hadmitted : Admits s a → s.users.insert a.id a.user = some s'.users) :
    OneAccount env s' ↔ ∀ j v, s.users.find j = some v → variant env a.user v = false := by
  constructor
  · intro hone' j v hj
    by_contra hvariant
    rw [Bool.not_eq_false] at hvariant
    simp only [variant, Bool.and_eq_true, decide_eq_true_eq] at hvariant
    obtain ⟨⟨htenant, htext⟩, hdiffers⟩ := hvariant
    have hadmits : Admits s a := by
      refine ⟨hid, fun k w hk ⟨hwtenant, hwemail⟩ => ?_⟩
      have hkj : k = j := hone k j w v hk hj (hwtenant.trans htenant.symm) (by rw [hwemail]; exact hsame.symm htext)
      rw [hkj, hj] at hk
      cases hk
      exact hdiffers hwemail
    have hfind := (Table.find_of_insert (hadmitted hadmits)).2
    have hja : j ≠ a.id := by
      rintro rfl
      rw [hid] at hj
      cases hj
    refine hja (hone' j a.id v a.user ?_ ?_ htenant htext)
    · rw [hfind, if_neg hja, hj]
    · rw [hfind, if_pos rfl]
  · intro hclear
    by_cases hadmits : Admits s a
    · have hfind := (Table.find_of_insert (hadmitted hadmits)).2
      -- the arrival shares its address with nobody: not spelled alike, for it is admitted, and not differently
      have halone : ∀ j v, s.users.find j = some v → v.tenantId = a.user.tenantId →
          env.sameText v.email a.user.email = false := by
        intro j v hj htenant
        by_contra htext
        rw [Bool.not_eq_false] at htext
        have hdiffers : v.email ≠ a.user.email := fun hemail => hadmits.2 j v hj ⟨htenant, hemail⟩
        have hnot := hclear j v hj
        rw [variant, htext, decide_eq_true htenant, decide_eq_true hdiffers] at hnot
        cases hnot
      intro i j u v hu hv htenant htext
      rw [hfind] at hu hv
      by_cases hi : i = a.id
      · by_cases hj : j = a.id
        · rw [hi, hj]
        · rw [if_pos hi, Option.some.injEq] at hu
          rw [if_neg hj] at hv
          subst hu
          have hnot := halone j v hv htenant.symm
          rw [hsame.symm htext] at hnot
          cases hnot
      · rw [if_neg hi] at hu
        by_cases hj : j = a.id
        · rw [if_pos hj, Option.some.injEq] at hv
          subst hv
          have hnot := halone i u hu htenant
          rw [htext] at hnot
          cases hnot
        · rw [if_neg hj] at hv
          exact hone i j u v hu hv htenant htext
    · intro i j u v hu hv
      rw [hrefused hadmits] at hu hv
      exact hone i j u v hu hv

/-- At its insertion an arrival is unrivalled exactly if nobody spells its address differently. -/
theorem unrivalled_iff {past : List (Event Enrolment)} {i : ℕ} {a : Arrival}
    (ha : arriving env e (seen (enrol env) s₀ i past) = some a) : Unrivalled env (enrolled env s₀ past) a ↔
      ∀ j v, (enrolled env s₀ past).users.find j = some v → variant env a.user v = false := by
  obtain ⟨hmem, hlooked⟩ := looked_of_arriving ha
  obtain ⟨l₁, l₂, hsplit⟩ := List.mem_iff_append.mp hmem
  obtain ⟨mid, before, rfl, -, hst, -⟩ := seen_split hsplit
  have hstay : Stay a.looked (enrolled env s₀ (mid ++ .turn i :: before)) := by
    have hlater : Stay (enrolled env s₀ before) (enrolled env s₀ (mid ++ [.turn i] ++ before)) := stay_later _ _
    rwa [List.append_assoc, List.singleton_append, enrolled, hst] at hlater
  rw [Unrivalled, Table.first_eq_none_iff]
  constructor
  · intro hnone j v hj
    by_contra hvariant
    rw [Bool.not_eq_false] at hvariant
    have hseen := hnone j v hj
    rw [hvariant, Bool.true_and] at hseen
    -- who spells it differently now was there at the look, not deleted, and spelled it so
    cases hw : a.looked.users.find j with
    | none =>
      rw [hw] at hseen
      cases hseen
    | some w =>
      obtain ⟨v', hv', htenant, hemail⟩ := hstay j w hw
      rw [hj, Option.some.injEq] at hv'
      subst hv'
      simp only [variant, Bool.and_eq_true, decide_eq_true_eq] at hvariant
      have hdeleted := hlooked j w hw (htenant ▸ hvariant.1.1) (hemail ▸ hvariant.1.2)
      rw [hw, Option.all_some, hdeleted] at hseen
      cases hseen
  · intro hclear j v hj
    rw [hclear j v hj, Bool.false_and]

/-- A turn keeps one account for each address exactly if it is undisturbed. -/
theorem oneAccount_turn (hsame : Collates env) (past : List (Event Enrolment)) (i : ℕ)
    (hone : OneAccount env (enrolled env s₀ past)) :
    OneAccount env (enrolled env s₀ (.turn i :: past)) ↔ Undisturbed env s₀ past (.turn i) := by
  rcases next_turn_cases (enrol env) (interleave (enrol env) s₀ past) i with ⟨hended, heq⟩ | ⟨e, u, k, hi, heq⟩
  · refine iff_of_true ?_ fun a ha => ?_
    · rw [enrolled, interleave, heq]
      exact hone
    · rw [inserting, if_neg (by rw [hended]; decide)] at ha
      cases ha
  have hcall : EnrolmentCall env e (seen (enrol env) s₀ i past) (enrolled env s₀ past)
      (enrolled env s₀ (.turn i :: past)) := by
    have hrest := along_rest s₀ enrol_along past i _ hi (enrolled env s₀ past)
    rw [enrolled, enrolled, interleave, heq]
    exact hrest.1
  have hinserting : inserting env s₀ past i = (arriving env e (seen (enrol env) s₀ i past)).filter fun a =>
      ((enrolled env s₀ past).users.find a.id).isNone := by
    rw [inserting, if_pos (by rw [hi]; rfl), requested, hi]
    rfl
  rw [Undisturbed, hinserting]
  cases ha : arriving env e (seen (enrol env) s₀ i past) with
  | none => exact iff_of_true ((hcall.same ha).oneAccount hone) fun a h => by cases h
  | some a =>
    cases hid : (enrolled env s₀ past).users.find a.id with
    | some u =>
      have hrefused : ¬Admits (enrolled env s₀ past) a := fun h => by
        rw [h.1] at hid
        cases hid
      refine iff_of_true ?_ fun a' h => ?_
      · exact (sameUsers_of_eq (hcall.refused a ha hrefused)).oneAccount hone
      · rw [Option.filter_some, hid] at h
        cases h
    | none =>
      have honly : (∀ a' ∈ (some a).filter (fun a => ((enrolled env s₀ past).users.find a.id).isNone),
          Unrivalled env (enrolled env s₀ past) a') ↔ Unrivalled env (enrolled env s₀ past) a := by
        rw [Option.filter_some, hid]
        simp
      rw [honly, unrivalled_iff ha]
      exact oneAccount_insertion hsame hone hid (hcall.refused a ha) (hcall.admitted a ha)

end Run

end Emails

/-! ### Two spellings -/

/-- A platform that compares texts without their case, with sign-in by Entra ID. -/
def spelling : Platform := { platform with
  sameText := fun a b => a.toList.map Char.toLower = b.toList.map Char.toLower
  lower := fun s => String.ofList (s.toList.map Char.toLower)
  verifyEntraState := fun _ _ => some "/"
  entraTenantId := some "directory" }

/-- The administrator of the small tenant creates a user. -/
def invitation (n : ℕ) (email : String) : Enrolment :=
  .create (draw n "token") (buildAuthUser .off team 1 (person "admin" .globalAdmin)) ⟨email, "Ann", [.seniorAuditor],
    none, none, none, none, none, none, none, none, none, none⟩

/-- The owner of an address signs in. -/
def arrival (n : ℕ) (email : String) : Enrolment := .signIn (draw n "token") (some "state") (some { email }) {}

theorem spelling_collates : Collates spelling :=
  ⟨fun _ => decide_eq_true rfl, fun h => decide_eq_true (of_decide_eq_true h).symm,
    fun h h' => decide_eq_true ((of_decide_eq_true h).trans (of_decide_eq_true h'))⟩

theorem team_slugs : SlugsUnique team := by
  intro i j t t' hi hj _
  rw [Table.find_eq_some_iff] at hi hj
  simp only [team, List.mem_singleton, Prod.mk.injEq] at hi hj
  rw [hi.1, hj.1]

theorem team_oneAccount : OneAccount spelling team := by
  intro i j u v hu hv _ htext
  rw [Table.find_eq_some_iff] at hu hv
  simp only [team, List.mem_cons, List.not_mem_nil, or_false, Prod.mk.injEq] at hu hv
  rcases hu with ⟨rfl, rfl⟩ | ⟨rfl, rfl⟩ <;> rcases hv with ⟨rfl, rfl⟩ | ⟨rfl, rfl⟩
  · rfl
  · revert htext
    decide +kernel
  · revert htext
    decide +kernel
  · rfl

/-- Ann is created, and signs in with her address in another spelling. -/
def inTurn : List (Event Enrolment) :=
  List.replicate 9 (.turn 1) ++ .start (arrival 2 "ann@bdo") :: (List.replicate 3 (.turn 0) ++
    [.start (invitation 1 "Ann@bdo")])

/-- Ann signs in while she is being created: each request looks for her before the other inserts her. -/
def overlapping : List (Event Enrolment) :=
  [.turn 1, .turn 0] ++ List.replicate 4 (.turn 1) ++ [.turn 0, .start (arrival 2 "ann@bdo"), .start (invitation 1 "Ann@bdo")]

/-- Ann is created, and removed, and signs in. -/
def returning : List (Event Enrolment) :=
  List.replicate 5 (.turn 2) ++ [.start (arrival 2 "ann@bdo"), .turn 1, .start (.remove 100)] ++
    List.replicate 3 (.turn 0) ++ [.start (invitation 1 "Ann@bdo")]

/-- Two users under other ids share an address. -/
theorem not_oneAccount {env : Platform} {s : Store} {i j : Uuid} (hne : i ≠ j)
    (h : (s.users.find i).any (fun u => (s.users.find j).any fun v =>
      u.tenantId = v.tenantId && env.sameText u.email v.email) = true) : ¬OneAccount env s := by
  intro hone
  simp only [Option.any_eq_true, Bool.and_eq_true, decide_eq_true_eq] at h
  obtain ⟨u, hu, v, hv, htenant, htext⟩ := h
  exact hne (hone i j u v hu hv htenant htext)

/-- Two users under other ids sign in with one address. -/
theorem not_loginDetermined {env : Platform} {s : Store} {email slug : String} {i j : Uuid} (hne : i ≠ j)
    (hi : (s.users.find i).any (Store.signsIn env s email slug) = true)
    (hj : (s.users.find j).any (Store.signsIn env s email slug) = true) : ¬LoginDetermined env s := by
  intro hdetermined
  rw [Option.any_eq_true] at hi hj
  obtain ⟨u, hu, hul⟩ := hi
  obtain ⟨v, hv, hvl⟩ := hj
  exact hne (hdetermined email slug i j u v hu hv hul hvl)

end AuditSphere.Users
