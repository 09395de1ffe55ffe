import AuditSphere.Sessions.Runs
import AuditSphere.Theory.Lockout

/-!
# Attempts to log in

An attempt reads the row of the user and the clock, verifies the password, and writes the
counters of the row, computed from what it has read. What it is going to write is known from
what it has seen (`verdict`). Attempts that overlap count from the same number, and the last
to write may remove a lock.
-/

namespace AuditSphere.Sessions

open Prisma Theory Shared Auth Users Lockout

/-- The counter of a user. -/
def counterOf (u : Account) : Counter := ⟨u.failedLoginCount, u.lockedUntil⟩

/-- The counter under an id. -/
def counter (s : Store) (id : Uuid) : Option Counter := (s.users.find id).map counterOf

/-- A password that was verified: for whom, with which counter, when, and how. -/
structure Verdict where
  id : Uuid
  read : Counter
  time : Date
  right : Bool

/-- What is written of it. -/
def Verdict.written (v : Verdict) : Counter :=
  if v.right then ⟨0, none⟩ else v.read.fail maxFailedLogins lockoutMs v.time

/-- A log-in, or time that passes. -/
def Request.attempts : Request → Bool
  | .login .. | .tick _ => true
  | _ => false

section Attempts

variable (env : Platform)

/-- The user who was found, if the password is verified at all. -/
def verified (dto : LoginDto) (time : Date) (id : Uuid) (user : Account) (tenant : Option Tenant) : Option Verdict :=
  if (user.authProvider ≠ .localAccount ∨ user.passwordHash.all (· = "")) ∨
    (user.status = .suspended ∨ user.status = .deactivated ∨ ¬tenant.any Tenant.isActive) ∨
    (counterOf user).locked time then none
  else some ⟨id, counterOf user, time, verifyPassword env user.passwordHash dto.password⟩

/-- The password that a request verifies after its first two calls, if it does. -/
def verdict : Request → List Store → Option Verdict
  | .login _ dto _, l => (moment l 0).bind fun s₁ => (moment l 1).bind fun s₂ =>
    (s₁.loginUser env dto.email dto.tenantSlug).bind fun found => verified env dto s₂.clock found.1.1 found.1.2 found.2
  | _, _ => none

/-- What the next call of a request writes. -/
def unwritten (r : Request) (l : List Store) : Option Verdict := if l.length = 2 then verdict env r l else none

/-- What a call of an attempt does: only the third one writes counters. -/
structure AttemptCall (r : Request) (l : List Store) (s s' : Store) : Prop where
  clock : s.clock ≤ s'.clock
  counters : ∀ id, counter s' id =
    if (unwritten env r l).any (·.id = id) then (counter s id).bind fun _ => (unwritten env r l).map Verdict.written
    else counter s id

/-- An attempt that does not fail has verified the right password. -/
def AttemptEnds (r : Request) (res : Except AuthError Answer) (l : List Store) : Prop :=
  r.attempts = true → ∀ d dto info, r = .login d dto info → (∃ a, res = .ok a) →
    ∃ v, verdict env r l = some v ∧ v.right = true

variable {env} {r : Request} {l : List Store} {s s' : Store}

/-- A call that leaves the users. -/
theorem quiet_attempt (hunwritten : unwritten env r l = none) (hclock : s.clock ≤ s'.clock) (husers : s'.users = s.users) :
    AttemptCall env r l s s' where
  clock := hclock
  counters id := by
    rw [hunwritten, counter, husers]
    rfl

/-- What is verified: the password of a user who was found, with a counter that is not locked. -/
theorem verdict_eq_some {v : Verdict} (h : verdict env r l = some v) : ∃ d dto info s₁ s₂ user tenant,
    r = .login d dto info ∧ moment l 0 = some s₁ ∧ moment l 1 = some s₂ ∧
      s₁.loginUser env dto.email dto.tenantSlug = some ((v.id, user), tenant) ∧ v.read = counterOf user ∧
      v.time = s₂.clock ∧ v.read.locked v.time = false := by
  cases r with
  | login d dto info =>
    obtain ⟨s₁, h₁, h⟩ := Option.bind_eq_some_iff.mp h
    obtain ⟨s₂, h₂, h⟩ := Option.bind_eq_some_iff.mp h
    obtain ⟨⟨⟨id, user⟩, tenant⟩, hfound, h⟩ := Option.bind_eq_some_iff.mp h
    rw [verified] at h
    split at h
    · cases h
    · rename_i hchecks
      cases h
      have hlocked : (counterOf user).locked s₂.clock = false := by
        rw [← Bool.not_eq_true]
        exact fun hlocked => hchecks (.inr (.inr hlocked))
      exact ⟨d, dto, info, s₁, s₂, user, tenant, rfl, h₁, h₂, hfound, rfl, rfl, hlocked⟩
  | _ => cases h

theorem moment_lt {k : ℕ} (h : moment l k = some s) : k < l.length := by
  rw [← List.length_reverse]
  exact (List.getElem?_eq_some_iff.mp h).1

/-- What an attempt verifies it knows after two calls. -/
theorem verdict_append {v : Verdict} (l' : List Store) (h : verdict env r l = some v) : verdict env r (l' ++ l) = some v := by
  obtain ⟨d, dto, info, s₁, s₂, user, tenant, rfl, h₁, h₂, -⟩ := verdict_eq_some h
  rw [verdict, moment_append l' (moment_lt h₁), moment_append l' (moment_lt h₂)]
  exact h

theorem unwritten_of_length (h : l.length ≠ 2) : unwritten env r l = none := if_neg h

/-- The third call of an attempt writes what follows from the first two. -/
theorem along_updateUser_attempt {v : Verdict} {f : Account → Account} {Q : Except AuthError Unit → List Store → Prop}
    (hv : unwritten env r l = some v) (hf : ∀ u, counterOf (f u) = v.written) (hQ : ∀ s res, Q res (s :: l)) :
    (Auth.updateUser v.id f).Along (AttemptCall env r) Q l := by
  refine Prog.along_of_call fun s res s' hrun => ?_
  rcases updateUser_run s v.id f with ⟨hnone, e, h⟩ | ⟨-, h⟩ <;> cases h.symm.trans hrun
  · refine ⟨⟨le_rfl, fun id => ?_⟩, hQ s _⟩
    rw [hv, counter, Option.any_some]
    by_cases hid : v.id = id
    · rw [if_pos (decide_eq_true hid), ← hid, hnone]
      rfl
    · rw [if_neg (by simpa using hid)]
  · refine ⟨⟨le_rfl, fun id => ?_⟩, hQ s _⟩
    rw [hv, counter, Table.find_modify_key, counter, Option.any_some]
    by_cases hid : v.id = id
    · rw [if_pos hid, if_pos (decide_eq_true hid)]
      cases s.users.find id with
      | none => rfl
      | some u => exact congrArg some (hf u)
    · rw [if_neg hid, if_neg (by simpa using hid)]

/-- A call after the third one leaves the counters. -/
theorem attempt_of_leaves (hl : 2 < l.length) (h : Leaves l s s') : AttemptCall env r l s s' :=
  quiet_attempt (unwritten_of_length (by omega)) h.2.ge h.1

theorem attempts_error {d : Draws} {dto : LoginDto} {info : RequestMeta} {e : AuthError} :
    AttemptEnds env (.login d dto info) (.error e) l := by
  rintro - _ _ _ - ⟨a, ha⟩
  cases ha

/-- The last calls of an attempt that has failed. -/
theorem along_denied {d : Draws} {dto : LoginDto} {info : RequestMeta} {a b c i} {e : AuthError} {α : Type}
    {Q : Except AuthError α → List Store → Prop} (hunwritten : unwritten env (.login d dto info) l = none)
    (hQ : ∀ s, Q (.error e) (s :: l)) :
    ((do Auth.auditRecord a b c i; throw e) : Method α).Along (AttemptCall env (.login d dto info)) Q l := by
  rw [Prog.along_bind]
  exact fun s => ⟨quiet_attempt hunwritten le_rfl rfl, hQ s⟩

theorem along_invalidate_attempt {id : Uuid} {Q : Except AuthError Unit → List Store → Prop}
    (hunwritten : unwritten env r l = none) (hQ : ∀ s, Q (.ok ()) (s :: l)) :
    (invalidate id).Along (AttemptCall env r) Q l :=
  fun s => ⟨quiet_attempt hunwritten le_rfl rfl, hQ s⟩

theorem along_attempt {d : Draws} {dto : LoginDto} {info : RequestMeta} :
    (Auth.login env d dto info).Along (AttemptCall env (.login d dto info))
      (fun res l' => (∃ a, res = .ok a) → ∃ v, verdict env (.login d dto info) l' = some v ∧ v.right = true) [] := by
  have hshort : ∀ l' : List Store, l'.length ≠ 2 → unwritten env (.login d dto info) l' = none :=
    fun l' => unwritten_of_length
  rw [Auth.login]
  refine (Prog.along_read_bind _ _ _).mpr fun s₁ => ⟨quiet_attempt (hshort _ (by simp)) le_rfl rfl, ?_⟩
  refine (Prog.along_read_bind _ _ _).mpr fun s₂ => ⟨quiet_attempt (hshort _ (by simp)) le_rfl rfl, ?_⟩
  have hverdict : ∀ found, s₁.loginUser env dto.email dto.tenantSlug = some found →
      verdict env (.login d dto info) [s₂, s₁] = verified env dto s₂.clock found.1.1 found.1.2 found.2 := by
    intro found hfound
    rw [verdict, show moment [s₂, s₁] 0 = some s₁ from rfl, show moment [s₂, s₁] 1 = some s₂ from rfl, Option.bind_some,
      Option.bind_some, hfound, Option.bind_some]
  cases hfound : s₁.loginUser env dto.email dto.tenantSlug with
  | none => simp
  | some found =>
    have hverdict := hverdict found hfound
    obtain ⟨⟨id, user⟩, tenant⟩ := found
    dsimp only at hverdict ⊢
    rw [Prog.along_ite]
    split
    · simp
    rename_i hlocal
    rw [loginFound, Prog.along_ite]
    split
    · rename_i hstatus
      rw [verified, if_pos (.inr (.inl hstatus))] at hverdict
      exact along_denied ((if_pos rfl).trans hverdict) (by simp)
    rename_i hstatus
    rw [Prog.along_ite]
    split
    · rename_i hlocked
      rw [verified, if_pos (.inr (.inr hlocked))] at hverdict
      exact along_denied ((if_pos rfl).trans hverdict) (by simp)
    rename_i hlocked
    rw [verified, if_neg (by rintro (h | h | h) <;> contradiction)] at hverdict
    rw [Prog.along_ite]
    split
    · rename_i hwrong
      rw [Bool.not_eq_true'] at hwrong
      rw [hwrong] at hverdict
      rw [Prog.along_bind, registerFailedLogin, Prog.along_bind]
      refine along_updateUser_attempt (v := ⟨id, counterOf user, s₂.clock, false⟩) ((if_pos rfl).trans hverdict)
        (fun u => ?_) fun s₃ res => ?_
      · show counterOf _ = (counterOf user).fail maxFailedLogins lockoutMs s₂.clock
        rw [Counter.fail]
        by_cases hmax : maxFailedLogins ≤ user.failedLoginCount + 1 <;> simp [counterOf, hmax]
      cases res with
      | error e => simp
      | ok u =>
        refine fun s₄ => ⟨quiet_attempt (hshort _ (by simp)) le_rfl rfl, ?_⟩
        rintro ⟨a, ⟨⟩⟩
    · rename_i hright
      rw [Bool.not_eq_true', Bool.not_eq_false] at hright
      rw [hright] at hverdict
      have hsucceeds : ∀ l', 2 ≤ l'.length → [s₂, s₁] <:+ l' →
          ∃ v, verdict env (.login d dto info) l' = some v ∧ v.right = true := by
        rintro l' - ⟨l'', rfl⟩
        exact ⟨_, verdict_append l'' hverdict, rfl⟩
      rw [loginVerified, Prog.along_bind]
      refine along_updateUser_attempt (v := ⟨id, counterOf user, s₂.clock, true⟩) ((if_pos rfl).trans hverdict)
        (fun u => rfl) fun s₃ res => ?_
      cases res with
      | error e => simp
      | ok u =>
        dsimp only
        rw [Prog.along_bind]
        refine along_invalidate_attempt (hshort _ (by simp)) fun s₄ => ?_
        dsimp only
        rw [Prog.along_ite]
        split
        · refine (Prog.along_read_bind _ _ _).mpr fun s₅ => ⟨quiet_attempt (hshort _ (by simp)) le_rfl rfl, ?_⟩
          rw [Prog.along_bind]
          exact fun s₆ => ⟨quiet_attempt (hshort _ (by simp)) le_rfl rfl,
            fun _ => hsucceeds _ (by simp) ⟨[s₆, s₅, s₄, s₃], rfl⟩⟩
        · rw [Prog.along_bind]
          refine along_leaves_issueSession.mono (fun l' s s' hl' h => ?_) ?_
          · exact attempt_of_leaves (Nat.lt_of_lt_of_le (by simp) hl'.length_le) h
          · rintro (e | session) l' hl' -
            · rintro ⟨a, ⟨⟩⟩
            · exact fun _ => hsucceeds l' (Nat.le_trans (by simp) hl'.length_le) (List.IsSuffix.trans ⟨[s₄, s₃], rfl⟩ hl')

/-- **Every attempt**, call by call. -/
theorem serve_attempt (env : Platform) (r : Request) : (serve env r).Along
    (fun l s s' => r.attempts = true → AttemptCall env r l s s') (AttemptEnds env r) [] := by
  cases r with
  | login d dto info =>
    refine (Prog.along_map ..).mpr (along_attempt.mono (fun _ _ _ _ h _ => h) ?_)
    rintro res l' - h - d dto info ⟨⟩ ⟨a, ha⟩
    cases res with
    | error e => cases ha
    | ok a => exact h ⟨a, rfl⟩
  | tick elapsed =>
    refine (Prog.along_map ..).mpr fun s => ⟨fun _ => quiet_attempt ?_ (Nat.le_add_right ..) rfl, ?_⟩
    · rfl
    · rintro - d dto info ⟨⟩
  | _ =>
    refine Prog.along_of_forall (fun _ _ _ h => ?_) (fun _ _ h => ?_) _ _
    · cases h
    · cases h

end Attempts

/-! ### Runs of attempts -/

section Runs

variable (env : Platform) (s₀ : Store) (id : Uuid)

/-- What the `i`-th request has verified and not yet written. -/
def pending (past : List (Event Request)) (i : ℕ) : Option Verdict :=
  (asked env s₀ i past).bind fun r => unwritten env r (saw env s₀ i past)

/-- The password that the `i`-th request verifies with its next call. -/
def verification (past : List (Event Request)) (i : ℕ) : Option Verdict :=
  (asked env s₀ i past).bind fun r =>
    if busy env s₀ i past ∧ (saw env s₀ i past).length = 1 then verdict env r (at_ env s₀ past :: saw env s₀ i past)
    else none

/-- The passwords verified for a user since `past`, the most recent first. -/
def verdicts : List (Event Request) → List (Event Request) → List Verdict
  | [], _ => []
  | .start _ :: mid, past => verdicts mid past
  | .turn i :: mid, past => (verification env s₀ (mid ++ past) i).toList.filter (·.id = id) ++ verdicts mid past

/-- Whoever verifies a password for the user does so with the counter as it is, and nobody else
is about to write it. -/
def Exclusive (past : List (Event Request)) : Event Request → Prop
  | .start _ => True
  | .turn i => ∀ v, verification env s₀ past i = some v → v.id = id →
    counter (at_ env s₀ past) id = some v.read ∧ ∀ j w, pending env s₀ past j = some w → w.id ≠ id

variable {env s₀ id}

/-- What is verified is verified at that moment, with a counter that is not locked. -/
theorem verification_facts {past : List (Event Request)} {i : ℕ} {v : Verdict} (h : verification env s₀ past i = some v) :
    v.time = (at_ env s₀ past).clock ∧ v.read.locked v.time = false ∧ (saw env s₀ i past).length = 1 ∧
      busy env s₀ i past = true := by
  obtain ⟨r, -, h⟩ := Option.bind_eq_some_iff.mp h
  split at h
  · rename_i hmoves
    obtain ⟨s₁, hs₁⟩ := List.length_eq_one_iff.mp hmoves.2
    rw [hs₁] at h
    obtain ⟨d, dto, info, s₁, s₂, user, tenant, -, -, h₂, -, -, htime, hlocked⟩ := verdict_eq_some h
    cases h₂
    exact ⟨htime, hlocked, hmoves.2, hmoves.1⟩
  · cases h

theorem pending_start (r : Request) (past : List (Event Request)) (j : ℕ) :
    pending env s₀ (.start r :: past) j = pending env s₀ past j := by
  have hsaw : saw env s₀ j (.start r :: past) = saw env s₀ j past := rfl
  have hstart : asked env s₀ j (.start r :: past) = _ := requested_start j r past
  rw [pending, pending, hsaw, hstart]
  by_cases hj : j = (interleave (serve env) s₀ past).threads.length
  · have hnothing : saw env s₀ j past = [] := seen_of_not_started _ _ hj.ge
    rw [if_pos hj, hnothing]
    cases asked env s₀ j past <;> rfl
  · rw [if_neg hj]
    rfl

/-- What a turn does in a run of attempts: nothing, or it writes what was pending, and what it
has verified is pending from then on. -/
theorem attempt_turn {past : List (Event Request)} (honly : Only Request.attempts past) (i : ℕ) :
    (at_ env s₀ (.turn i :: past) = at_ env s₀ past ∧ verification env s₀ past i = none ∧
      ∀ j, pending env s₀ (.turn i :: past) j = pending env s₀ past j) ∨
    ((∀ j, j ≠ i → pending env s₀ (.turn i :: past) j = pending env s₀ past j) ∧
      pending env s₀ (.turn i :: past) i = verification env s₀ past i ∧
      (at_ env s₀ past).clock ≤ (at_ env s₀ (.turn i :: past)).clock ∧
      ∀ id, counter (at_ env s₀ (.turn i :: past)) id = if (pending env s₀ past i).any (·.id = id)
        then (counter (at_ env s₀ past) id).bind fun _ => (pending env s₀ past i).map Verdict.written
        else counter (at_ env s₀ past) id) := by
  rcases turn_cases s₀ (serve_attempt env) past i with ⟨hsame, hseen⟩ | ⟨r, hr, hbusy, hmoved, hothers, hcall⟩
  · have hseen : ∀ j, saw env s₀ j (.turn i :: past) = saw env s₀ j past := hseen
    refine .inl ⟨congrArg Config.st hsame, ?_, fun j => by rw [pending, pending, asked_turn, hseen]⟩
    rw [Option.eq_none_iff_forall_ne_some]
    intro v hv
    obtain ⟨-, -, -, hbusy⟩ := verification_facts hv
    have hmoved := saw_of_busy env s₀ hbusy
    rw [hseen] at hmoved
    exact List.cons_ne_self _ _ hmoved.symm
  · have hr : asked env s₀ i past = some r := hr
    have hcall : AttemptCall env r (saw env s₀ i past) (at_ env s₀ past) (at_ env s₀ (.turn i :: past)) :=
      hcall (honly r (asked_started hr))
    have hpending : pending env s₀ past i = unwritten env r (saw env s₀ i past) := by rw [pending, hr, Option.bind_some]
    refine .inr ⟨fun j hj => ?_, ?_, hcall.clock, fun id => by rw [hcall.counters, hpending]⟩
    · have hsame : saw env s₀ j (.turn i :: past) = saw env s₀ j past := hothers j hj
      rw [pending, pending, asked_turn, hsame]
    · have hmoved : saw env s₀ i (.turn i :: past) = at_ env s₀ past :: saw env s₀ i past := hmoved
      have hbusy : busy env s₀ i past = true := hbusy
      rw [pending, verification, asked_turn, hr, Option.bind_some, Option.bind_some, hmoved, unwritten, hbusy]
      simp

/-- What is verified is not pending yet. -/
theorem pending_of_verification {past : List (Event Request)} {i : ℕ} {v : Verdict}
    (h : verification env s₀ past i = some v) : pending env s₀ past i = none := by
  have hlen := (verification_facts h).2.2.1
  rw [pending, Option.bind_eq_none_iff]
  exact fun r _ => unwritten_of_length (by omega)

variable (env s₀ id)

/-- The user is there; and what is pending for the user, by one request at most, was verified
with the counter as it is. -/
structure Tallied (evs : List (Event Request)) : Prop where
  present : counter (at_ env s₀ evs) id ≠ none
  current : ∀ ⦃i v⦄, pending env s₀ evs i = some v → v.id = id → counter (at_ env s₀ evs) id = some v.read ∧
    v.time ≤ (at_ env s₀ evs).clock ∧ v.read.locked v.time = false ∧
    ∀ j w, pending env s₀ evs j = some w → w.id = id → j = i

variable {env s₀ id}

theorem Tallied.start {past : List (Event Request)} (h : Tallied env s₀ id past) (r : Request) :
    Tallied env s₀ id (.start r :: past) where
  present := h.present
  current := by
    simp only [pending_start]
    exact h.current

theorem Tallied.turn {past : List (Event Request)} (h : Tallied env s₀ id past) (honly : Only Request.attempts past) {i : ℕ}
    (hexclusive : Exclusive env s₀ id past (.turn i)) : Tallied env s₀ id (.turn i :: past) := by
  rcases attempt_turn honly i with ⟨hsame, -, hpending⟩ | ⟨hothers, hnext, hclock, hcounters⟩
  · exact ⟨by rw [hsame]; exact h.present, by simpa only [hsame, hpending] using h.current⟩
  -- nobody else writes the counter
  have hwrite : ∀ {j w}, j ≠ i → pending env s₀ past j = some w → w.id = id →
      counter (at_ env s₀ (.turn i :: past)) id = counter (at_ env s₀ past) id := by
    intro j w hj hw hid
    rw [hcounters, if_neg]
    rw [Option.any_eq_true]
    rintro ⟨v, hv, hvid⟩
    exact hj ((h.current hv (of_decide_eq_true hvid)).2.2.2 j w hw hid)
  constructor
  · rw [hcounters]
    split
    · rename_i hany
      obtain ⟨v, hv, -⟩ := (Option.any_eq_true ..).mp hany
      obtain ⟨c, hc⟩ := Option.ne_none_iff_exists'.mp h.present
      rw [hv, hc]
      exact Option.some_ne_none _
    · exact h.present
  · intro j v hv hid
    by_cases hj : j = i
    · subst hj
      rw [hnext] at hv
      obtain ⟨hread, halone⟩ := hexclusive v hv hid
      obtain ⟨htime, hlocked, -⟩ := verification_facts hv
      refine ⟨?_, htime ▸ hclock, hlocked, fun k w hw hwid => ?_⟩
      · rw [hcounters, pending_of_verification hv]
        exact hread
      · by_contra hk
        rw [hothers k hk] at hw
        exact halone k w hw hwid
    · rw [hothers j hj] at hv
      obtain ⟨hread, htime, hlocked, halone⟩ := h.current hv hid
      refine ⟨(hwrite hj hv hid).trans hread, Nat.le_trans htime hclock, hlocked, fun k w hw hwid => ?_⟩
      by_cases hk : k = i
      · subst hk
        rw [hnext] at hw
        exact absurd hid ((hexclusive w hw hwid).2 j v hv)
      · rw [hothers k hk] at hw
        exact halone k w hw hwid

/-- **Runs of attempts** of which each is exclusive. -/
theorem tallied_of_exclusive {account : Account} (haccount : s₀.users.find id = some account) :
    ∀ evs : List (Event Request), Only Request.attempts evs → Every (Exclusive env s₀ id) evs → Tallied env s₀ id evs := by
  intro evs
  induction evs with
  | nil =>
    refine fun _ _ => ⟨?_, fun i v hv => by cases hv⟩
    show (s₀.users.find id).map counterOf ≠ none
    rw [haccount]
    exact Option.some_ne_none _
  | cons e past ih =>
    intro honly hexclusive
    have ih := ih honly.tail hexclusive.2
    cases e with
    | start r => exact ih.start r
    | turn i => exact ih.turn honly.tail hexclusive.1

variable (env s₀ id) in
/-- The counter once everything that was verified is written. -/
def Effective (evs : List (Event Request)) (c : Counter) : Prop :=
  (∃ i v, pending env s₀ evs i = some v ∧ v.id = id ∧ c = v.written) ∨
    ((∀ i v, pending env s₀ evs i = some v → v.id ≠ id) ∧ counter (at_ env s₀ evs) id = some c)

theorem Tallied.effective {evs : List (Event Request)} (h : Tallied env s₀ id evs) : ∃ c, Effective env s₀ id evs c := by
  by_cases hpending : ∃ i v, pending env s₀ evs i = some v ∧ v.id = id
  · obtain ⟨i, v, hv, hid⟩ := hpending
    exact ⟨v.written, .inl ⟨i, v, hv, hid, rfl⟩⟩
  · obtain ⟨c, hc⟩ := Option.ne_none_iff_exists'.mp h.present
    exact ⟨c, .inr ⟨fun i v hv hid => hpending ⟨i, v, hv, hid⟩, hc⟩⟩

theorem Effective.start {past : List (Event Request)} {c : Counter} (h : Effective env s₀ id past c) (r : Request) :
    Effective env s₀ id (.start r :: past) c := by
  simp only [Effective, pending_start]
  exact h

/-- Writing what was pending does not change the effective counter. -/
theorem Effective.turn {past : List (Event Request)} {c : Counter} (h : Effective env s₀ id past c)
    (htallied : Tallied env s₀ id past) (honly : Only Request.attempts past) {i : ℕ}
    (hnone : ∀ v, verification env s₀ past i = some v → v.id ≠ id) : Effective env s₀ id (.turn i :: past) c := by
  rcases attempt_turn honly i with ⟨hsame, -, hpending⟩ | ⟨hothers, hnext, -, hcounters⟩
  · rw [Effective, hsame]
    simp only [hpending]
    exact h
  rcases h with ⟨j, v, hv, hid, rfl⟩ | ⟨hquiet, hcounter⟩
  · by_cases hj : j = i
    · subst hj
      refine .inr ⟨fun k w hw hwid => ?_, ?_⟩
      · by_cases hk : k = j
        · subst hk
          rw [hnext] at hw
          exact hnone w hw hwid
        · rw [hothers k hk] at hw
          exact hk ((htallied.current hv hid).2.2.2 k w hw hwid)
      · rw [hcounters, hv, (htallied.current hv hid).1]
        simp [hid]
    · exact .inl ⟨j, v, by rw [hothers j hj, hv], hid, rfl⟩
  · refine .inr ⟨fun k w hw hwid => ?_, ?_⟩
    · by_cases hk : k = i
      · subst hk
        rw [hnext] at hw
        exact hnone w hw hwid
      · rw [hothers k hk] at hw
        exact hquiet k w hw hwid
    · rw [hcounters, if_neg]
      · exact hcounter
      · rw [Option.any_eq_true]
        rintro ⟨v, hv, hid⟩
        exact hquiet i v hv (of_decide_eq_true hid)

/-- A password is verified with the effective counter. -/
theorem Effective.verified {past : List (Event Request)} {c : Counter} (h : Effective env s₀ id past c)
    (honly : Only Request.attempts past) {i : ℕ} (hexclusive : Exclusive env s₀ id past (.turn i)) {v : Verdict}
    (hv : verification env s₀ past i = some v) (hid : v.id = id) :
    c = v.read ∧ Effective env s₀ id (.turn i :: past) v.written := by
  obtain ⟨hread, halone⟩ := hexclusive v hv hid
  constructor
  · rcases h with ⟨j, w, hw, hwid, -⟩ | ⟨-, hcounter⟩
    · exact absurd hwid (halone j w hw)
    · rw [hread, Option.some.injEq] at hcounter
      exact hcounter.symm
  · rcases attempt_turn honly i with ⟨-, hnone, -⟩ | ⟨-, hnext, -⟩
    · rw [hv] at hnone
      cases hnone
    · exact .inl ⟨i, v, by rw [hnext, hv], hid, rfl⟩

/-- The clock does not go back. -/
theorem clock_step {e : Event Request} {past : List (Event Request)} (honly : Only Request.attempts (e :: past)) :
    (at_ env s₀ past).clock ≤ (at_ env s₀ (e :: past)).clock := by
  cases e with
  | start r => exact le_rfl
  | turn i =>
    rcases attempt_turn honly.tail i with ⟨hsame, -⟩ | ⟨-, -, hclock, -⟩
    · exact (congrArg Store.clock hsame).ge
    · exact hclock

/-- The failures since some moment count on from the effective counter of that moment. -/
theorem failures_counted {past : List (Event Request)} {c : Counter} (h : Effective env s₀ id past c)
    {account : Account} (haccount : s₀.users.find id = some account) (mid : List (Event Request))
    (honly : Only Request.attempts (mid ++ past)) (hexclusive : Every (Exclusive env s₀ id) (mid ++ past))
    (hwrong : ∀ v ∈ verdicts env s₀ id mid past, v.right = false) :
    Effective env s₀ id (mid ++ past) (c.after maxFailedLogins lockoutMs ((verdicts env s₀ id mid past).map Verdict.time)) ∧
      Unlocked maxFailedLogins lockoutMs c ((verdicts env s₀ id mid past).map Verdict.time) ∧
      ((verdicts env s₀ id mid past).map Verdict.time).Pairwise (· ≥ ·) ∧
      ∀ v ∈ verdicts env s₀ id mid past, v.time ≤ (at_ env s₀ (mid ++ past)).clock := by
  induction mid with
  | nil => exact ⟨h, trivial, .nil, fun v hv => by cases hv⟩
  | cons e mid ih =>
    have hpast : Only Request.attempts (mid ++ past) := honly.tail
    have htallied := tallied_of_exclusive haccount _ hpast hexclusive.2
    have hclock : (at_ env s₀ (mid ++ past)).clock ≤ (at_ env s₀ (e :: mid ++ past)).clock := clock_step honly
    cases e with
    | start r =>
      obtain ⟨heffective, hunlocked, hsorted, htimes⟩ := ih hpast hexclusive.2 hwrong
      exact ⟨heffective.start r, hunlocked, hsorted, htimes⟩
    | turn i =>
      have hlater : ∀ v ∈ verdicts env s₀ id mid past, v.right = false :=
        fun v hv => hwrong v (List.mem_append_right _ hv)
      obtain ⟨heffective, hunlocked, hsorted, htimes⟩ := ih hpast hexclusive.2 hlater
      have hstill : ∀ v ∈ verdicts env s₀ id mid past, v.time ≤ (at_ env s₀ (.turn i :: mid ++ past)).clock :=
        fun v hv => Nat.le_trans (htimes v hv) hclock
      by_cases hverified : ∃ v, verification env s₀ (mid ++ past) i = some v ∧ v.id = id
      · obtain ⟨v, hv, hid⟩ := hverified
        have hcons : verdicts env s₀ id (.turn i :: mid) past = v :: verdicts env s₀ id mid past := by
          rw [verdicts, hv]
          simp [hid]
        rw [hcons] at hwrong ⊢
        obtain ⟨htime, hlocked, -⟩ := verification_facts hv
        obtain ⟨hread, hnext⟩ := heffective.verified hpast hexclusive.1 hv hid
        have hfail : v.written = v.read.fail maxFailedLogins lockoutMs v.time := by
          rw [Verdict.written, hwrong v List.mem_cons_self]
          rfl
        refine ⟨?_, ⟨?_, hunlocked⟩, List.pairwise_cons.mpr ⟨?_, hsorted⟩, ?_⟩
        · rw [List.map_cons, Counter.after, hread, ← hfail]
          exact hnext
        · rw [hread]
          exact hlocked
        · intro t ht
          obtain ⟨w, hw, rfl⟩ := List.mem_map.mp ht
          exact htime ▸ htimes w hw
        · intro w hw
          rcases List.mem_cons.mp hw with rfl | hw
          · exact htime ▸ hclock
          · exact hstill w hw
      · have hnone : ∀ v, verification env s₀ (mid ++ past) i = some v → v.id ≠ id :=
          fun v hv hid => hverified ⟨v, hv, hid⟩
        have hsame : verdicts env s₀ id (.turn i :: mid) past = verdicts env s₀ id mid past := by
          rw [verdicts]
          cases hv : verification env s₀ (mid ++ past) i with
          | none => rfl
          | some v => simp [hnone v hv]
        rw [hsame]
        exact ⟨heffective.turn htallied hpast hnone, hunlocked, hsorted, hstill⟩

/-- Until a lock expires, the counter stays as it is. -/
theorem locked_stays {q : List (Event Request)} {c : Counter} {until_ : Date} {account : Account}
    (haccount : s₀.users.find id = some account) (hq : counter (at_ env s₀ q) id = some c)
    (hlock : c.lockedUntil = some until_) (mid : List (Event Request)) (honly : Only Request.attempts (mid ++ q))
    (hexclusive : Every (Exclusive env s₀ id) (mid ++ q)) (hearly : (at_ env s₀ (mid ++ q)).clock < until_) :
    counter (at_ env s₀ (mid ++ q)) id = some c := by
  induction mid with
  | nil => exact hq
  | cons e mid ih =>
    have hpast : Only Request.attempts (mid ++ q) := honly.tail
    have hclock : (at_ env s₀ (mid ++ q)).clock ≤ (at_ env s₀ (e :: mid ++ q)).clock := clock_step honly
    have ih := ih hpast hexclusive.2 (Nat.lt_of_le_of_lt hclock hearly)
    cases e with
    | start r => exact ih
    | turn i =>
      rcases attempt_turn hpast i with ⟨hsame, -⟩ | ⟨-, -, -, hcounters⟩
      · rw [List.cons_append, hsame]
        exact ih
      rw [List.cons_append, hcounters, if_neg]
      · exact ih
      rw [Option.any_eq_true]
      rintro ⟨v, hv, hid⟩
      -- what is pending was verified after the lock had expired
      have htallied := tallied_of_exclusive haccount _ hpast hexclusive.2
      obtain ⟨hread, htime, hlocked, -⟩ := htallied.current hv (of_decide_eq_true hid)
      rw [ih, Option.some.injEq] at hread
      rw [← hread, Counter.locked, hlock, Option.any_some, decide_eq_false_iff_not] at hlocked
      exact hlocked (Nat.lt_of_le_of_lt (Nat.le_trans htime hclock) hearly)

/-- What a request has seen it has seen in order. -/
theorem saw_clock (evs : List (Event Request)) (honly : Only Request.attempts evs) (j : ℕ) :
    (saw env s₀ j evs).Pairwise (fun s s' => s'.clock ≤ s.clock) ∧
      ∀ s ∈ saw env s₀ j evs, s.clock ≤ (at_ env s₀ evs).clock := by
  induction evs with
  | nil => exact ⟨.nil, fun s hs => by cases hs⟩
  | cons e past ih =>
    obtain ⟨hsorted, hseen⟩ := ih honly.tail
    have hclock : (at_ env s₀ past).clock ≤ (at_ env s₀ (e :: past)).clock := clock_step honly
    have hseen' : ∀ s ∈ saw env s₀ j past, s.clock ≤ (at_ env s₀ (e :: past)).clock :=
      fun s hs => Nat.le_trans (hseen s hs) hclock
    cases e with
    | start r => exact ⟨hsorted, hseen'⟩
    | turn i =>
      rw [saw, seen]
      split
      · refine ⟨List.pairwise_cons.mpr ⟨hseen, hsorted⟩, fun s hs => ?_⟩
        rcases List.mem_cons.mp hs with rfl | hs
        · exact hclock
        · exact hseen' s hs
      · exact ⟨hsorted, hseen'⟩

/-- The lock of a user who was found is the one under the id. -/
theorem counter_of_found {s : Store} {email : String} {slug : Option String} {user : Account} {tenant : Option Tenant}
    (h : s.loginUser env email slug = some ((id, user), tenant)) : counter s id = some (counterOf user) := by
  rw [Store.loginUser, Option.map_eq_some_iff] at h
  obtain ⟨u, hu, heq⟩ := h
  cases heq
  rw [counter, (Table.find_eq_some_iff _ _ _).mpr (List.mem_reverse.mp (List.mem_of_find?_eq_some hu))]
  rfl

variable (env s₀ id) in
/-- The `j`-th request is an attempt on the user that has started when a lock had been written, and
has looked at the clock before the lock expires. -/
def TriedWhileLocked (evs : List (Event Request)) (j : ℕ) : Prop :=
  ∃ mid past q d dto info c until_ s₁ s₂ user tenant, evs = mid ++ .start (.login d dto info) :: past ∧
    (interleave (serve env) s₀ past).threads.length = j ∧
    q <:+ past ∧ counter (at_ env s₀ q) id = some c ∧ c.lockedUntil = some until_ ∧
    moment (saw env s₀ j evs) 0 = some s₁ ∧ moment (saw env s₀ j evs) 1 = some s₂ ∧
    s₁.loginUser env dto.email dto.tenantSlug = some ((id, user), tenant) ∧ s₂.clock < until_

theorem moments_in_order {l : List Store} {s₁ s₂ : Store} (hsorted : l.Pairwise fun s s' => s'.clock ≤ s.clock)
    (h₁ : moment l 0 = some s₁) (h₂ : moment l 1 = some s₂) : s₁.clock ≤ s₂.clock := by
  rw [moment] at h₁ h₂
  rw [← List.reverse_reverse l, List.pairwise_reverse] at hsorted
  rcases hl : l.reverse with _ | ⟨a, _ | ⟨b, rest⟩⟩ <;> rw [hl] at h₁ h₂ hsorted
  · cases h₁
  · cases h₂
  · cases h₁
    cases h₂
    exact (List.pairwise_cons.mp hsorted).1 _ List.mem_cons_self

/-- Such an attempt does not verify a password of the user. -/
theorem not_verified_while_locked {evs : List (Event Request)} {account : Account}
    (haccount : s₀.users.find id = some account) (honly : Only Request.attempts evs)
    (hexclusive : Every (Exclusive env s₀ id) evs) {j : ℕ} (htried : TriedWhileLocked env s₀ id evs j) {r : Request}
    (hr : asked env s₀ j evs = some r) : verdict env r (saw env s₀ j evs) = none := by
  obtain ⟨mid, past, q, d, dto, info, c, until_, s₁, s₂, user, tenant, rfl, hj, hq, hcounter, hlock, h₁, h₂, hfound,
    hearly⟩ := htried
  have hasked : asked env s₀ j (mid ++ .start (.login d dto info) :: past) = some (.login d dto info) :=
    asked_later (asked_new hj) mid
  rw [hasked, Option.some.injEq] at hr
  subst hr
  rw [Option.eq_none_iff_forall_ne_some]
  intro v hv
  obtain ⟨_, _, _, s₁', s₂', user', tenant', ⟨⟩, h₁', h₂', hfound', hread, htime, hlocked⟩ := verdict_eq_some hv
  rw [h₁, Option.some.injEq] at h₁'
  rw [h₂, Option.some.injEq] at h₂'
  subst h₁' h₂'
  rw [hfound, Option.some.injEq, Prod.mk.injEq, Prod.mk.injEq] at hfound'
  obtain ⟨⟨-, rfl⟩, -⟩ := hfound'
  -- it has read the row after the lock was written, and before it expires
  obtain ⟨q₁, hstart, hq₁, hs₁⟩ := saw_after hj (List.mem_reverse.mp (List.mem_of_getElem? h₁))
  have hfirst : s₁.clock ≤ s₂.clock := moments_in_order (saw_clock _ honly j).1 h₁ h₂
  obtain ⟨a, rfl⟩ := (hq.trans (List.suffix_cons _ _)).trans hstart
  obtain ⟨b, hb⟩ := hq₁
  rw [← hb] at honly hexclusive
  have hstays := locked_stays haccount hcounter hlock a honly.past hexclusive.past
    (by rw [hs₁]; exact Nat.lt_of_le_of_lt hfirst hearly)
  rw [hs₁, counter_of_found hfound, Option.some.injEq] at hstays
  rw [hread, htime, hstays, Counter.locked, hlock, Option.any_some, decide_eq_false_iff_not] at hlocked
  exact hlocked hearly

/-- **Account lockout.** If passwords for the user are verified one at a time, each with the counter
as it is, then between two right ones at most `maxFailedLogins` wrong ones are verified within any
window as long as a lock; and an attempt that starts when a lock has been written, and looks at the
clock before the lock expires, fails. -/
theorem lockout_holds {evs : List (Event Request)} {account : Account} (haccount : s₀.users.find id = some account)
    (honly : Only Request.attempts evs) (hexclusive : Every (Exclusive env s₀ id) evs) :
    (∀ mid past, evs = mid ++ past → (∀ v ∈ verdicts env s₀ id mid past, v.right = false) →
      ∀ start, inWindow lockoutMs start ((verdicts env s₀ id mid past).map Verdict.time) ≤ maxFailedLogins) ∧
    ∀ j th res, TriedWhileLocked env s₀ id evs j → (interleave (serve env) s₀ evs).threads[j]? = some th →
      th.rest.result = some res → ∃ e, res = .error e := by
  constructor
  · rintro mid past rfl hwrong start
    have htallied := tallied_of_exclusive haccount past honly.past hexclusive.past
    obtain ⟨c, hc⟩ := htallied.effective
    obtain ⟨-, hunlocked, hsorted, -⟩ := failures_counted hc haccount mid honly hexclusive hwrong
    exact fails_in_window (by decide) start hsorted hunlocked
  · intro j th res htried hthread hres
    have hnone := not_verified_while_locked haccount honly hexclusive htried (by rw [asked, requested, hthread]; rfl)
    cases res with
    | error e => exact ⟨e, rfl⟩
    | ok answer =>
      exfalso
      obtain ⟨mid, past, q, d, dto, info, -, -, -, -, -, -, rfl, hj, -⟩ := htried
      have hasked : asked env s₀ j (mid ++ .start (.login d dto info) :: past) = some (.login d dto info) :=
        asked_later (asked_new hj) mid
      have hreq : th.req = .login d dto info := by
        rw [asked, requested, hthread, Option.map_some, Option.some.injEq] at hasked
        exact hasked
      have hends := along_ended s₀ (serve_attempt env) hthread hres
      obtain ⟨v, hv, -⟩ := hends (by rw [hreq]; rfl) d dto info hreq ⟨answer, rfl⟩
      exact absurd (hnone.symm.trans hv) (by simp)

/-! ### Attempts in a row, and attempts that overlap -/

theorem pending_lt {past : List (Event Request)} {i : ℕ} {v : Verdict} (h : pending env s₀ past i = some v) :
    i < (interleave (serve env) s₀ past).threads.length := by
  obtain ⟨r, hr, -⟩ := Option.bind_eq_some_iff.mp h
  exact asked_lt hr

instance (past : List (Event Request)) (e : Event Request) : Decidable (Exclusive env s₀ id past e) :=
  match e with
  | .start _ => .isTrue trivial
  | .turn i => decidable_of_iff (∀ v ∈ verification env s₀ past i, v.id = id → counter (at_ env s₀ past) id = some v.read ∧
      ∀ j < (interleave (serve env) s₀ past).threads.length, ∀ w ∈ pending env s₀ past j, w.id ≠ id) (by
    refine forall_congr' fun v => imp_congr_right fun _ => imp_congr_right fun _ => and_congr_right fun _ => ?_
    exact ⟨fun h j w hw => h j (pending_lt hw) w hw, fun h j _ w hw => h j w hw⟩)

end Runs

/-- An attempt of the administrator. -/
def attempt (n : ℕ) (password : String) : Event Request := .start (.login (draw n "token") { email := "admin", password } {})

/-- Attempts with a wrong password, one after the other. -/
def failing : ℕ → List (Event Request)
  | 0 => []
  | n + 1 => List.replicate 4 (.turn n) ++ attempt n "wrong" :: failing n

/-- After five of them, the right password does not help. -/
theorem lockout_holds_failing :
    inWindow lockoutMs 0 ((verdicts platform team 1 (List.replicate 3 (.turn 5) ++ attempt 5 "password" :: failing 5) []).map
      Verdict.time) ≤ maxFailedLogins ∧
    ∀ th res, (interleave (serve platform) team (List.replicate 3 (.turn 5) ++ attempt 5 "password" :: failing 5)
      ).threads[5]? = some th → th.rest.result = some res → ∃ e, res = .error e := by
  have honly : Only Request.attempts (List.replicate 3 (.turn 5) ++ attempt 5 "password" :: failing 5) :=
    only_of_all (by decide +kernel)
  have hexclusive : Every (Exclusive platform team 1) (List.replicate 3 (.turn 5) ++ attempt 5 "password" :: failing 5) := by
    decide +kernel
  have htried : TriedWhileLocked platform team 1 (List.replicate 3 (.turn 5) ++ attempt 5 "password" :: failing 5) 5 :=
    ⟨_, failing 5, failing 5, _, _, _, ⟨0, some 900000⟩, 900000, at_ platform team (failing 5), at_ platform team (failing 5),
      _, _, rfl, by decide +kernel, List.suffix_rfl, by decide +kernel, rfl, rfl, rfl, rfl, by decide +kernel⟩
  have haccount : team.users.find 1 = some (person "admin" .globalAdmin) := rfl
  have hholds := lockout_holds haccount honly hexclusive
  refine ⟨hholds.1 _ [] (List.append_nil _).symm (by decide +kernel) 0, fun th res => hholds.2 5 th res htried⟩

/-- Six attempts with a wrong password that have all read the counter before anyone writes it. -/
def sharingCount : List (Event Request) :=
  (List.range 6).flatMap (fun j => List.replicate 2 (.turn j)) ++ (List.range 6).map fun n => attempt n "wrong"

/-- An attempt that has read the counter before five others, which lock the account. -/
def beforeOverwrite : List (Event Request) :=
  ((List.range 5).reverse.flatMap fun k => List.replicate 4 (.turn (k + 1)) ++ [attempt (k + 1) "wrong"]) ++
    List.replicate 2 (.turn 0) ++ [attempt 0 "wrong"]

/-- It writes the counter that it has read, and the lock is gone. -/
def lockOverwritten : List (Event Request) :=
  List.replicate 10 (.turn 6) ++ attempt 6 "password" :: .turn 0 :: beforeOverwrite

/-- Attempts that overlap: six wrong passwords are verified at once, and the right password gets a
session before the lock expires. -/
theorem lockout_raced : Only Request.attempts sharingCount ∧ Only Request.attempts lockOverwritten ∧
    (∀ v ∈ verdicts platform team 1 sharingCount [], v.right = false) ∧
    maxFailedLogins < inWindow lockoutMs 0 ((verdicts platform team 1 sharingCount []).map Verdict.time) ∧
    TriedWhileLocked platform team 1 lockOverwritten 6 ∧
    ∃ th s, (interleave (serve platform) team lockOverwritten).threads[6]? = some th ∧
      th.rest.result = some (.ok (.session s)) := by
  refine ⟨only_of_all (by decide +kernel), only_of_all (by decide +kernel), by decide +kernel,
    by decide +kernel, ?_, ⟨_, _, rfl, rfl⟩⟩
  exact ⟨_, .turn 0 :: beforeOverwrite, beforeOverwrite, _, _, _, ⟨0, some 900000⟩, 900000, _, _, _, _, rfl, by decide +kernel,
    List.suffix_cons _ _, by decide +kernel, rfl, rfl, rfl, rfl, by decide +kernel⟩

end AuditSphere.Sessions
