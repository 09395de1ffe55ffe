import AuditSphere.Sessions.Accounts
import AuditSphere.Sessions.Runs
import Mathlib.Data.List.Perm.Subperm

/-!
# Recovery codes

Who presents a recovery code has the hashes read, the code verified against each, and the
hashes without the one that matched written back. What a request uses up is known from what it
has seen (`consuming`). If each request that uses up a code still finds the hashes that it has
read, no code is accepted twice; requests that overlap may accept the same one, or put back
one that was used.
-/

namespace AuditSphere.Sessions

open Prisma Theory Shared Auth Users

/-- The recovery codes under an id, as hashes. -/
def storedCodes (s : Store) (id : Uuid) : Option (List String) := (s.users.find id).map Account.mfaRecoveryCodes

/-- A recovery code that is used up: for whom, what was presented, which hashes were read, and
which of them matched. -/
structure Use where
  id : Uuid
  code : String
  read : List String
  hashed : String
  deriving DecidableEq

/-- What is written back. -/
def Use.left (use : Use) : List String := use.read.filter (· ≠ use.hashed)

/-- A request that checks a code, or time that passes. -/
def Request.checks : Request → Bool
  | .verifyMfa .. | .mfaDisable .. | .tick _ => true
  | _ => false

/-- The code that a request presents. -/
def Request.presents : Request → Option String
  | .verifyMfa _ _ code _ | .mfaDisable _ code => some code
  | _ => none

section Codes

variable (env : Platform)

/-- The recovery code that a check uses up, unless the code is the one-time code of the moment. -/
def checked (id : Uuid) (user : Account) (code : String) (time : Date) : Option Use :=
  if isOneTimeCode (normalized env code) && user.mfaSecretEnc.any fun secret =>
    env.check (normalized env code) (env.decrypt secret) time then none
  else (user.mfaRecoveryCodes.find? fun h => verifyPassword env (some h) (normalized env code)).map fun h =>
    ⟨id, normalized env code, user.mfaRecoveryCodes, h⟩

/-- The recovery code that the next call of a request uses up. -/
def consuming : Request → List Store → Option Use
  | .verifyMfa _ mfaToken code _, l => if l.length = 3 then (moment l 0).bind fun s₀ =>
      (env.verifyMfa mfaToken s₀.clock).bind fun challenged => (moment l 1).bind fun s₁ =>
        ((s₁.findUser challenged.1).filter enrolled).bind fun user => (moment l 2).bind fun s₂ =>
          checked env challenged.1 user code s₂.clock
    else none
  | .mfaDisable userId code, l => if l.length = 2 then (moment l 0).bind fun s₀ =>
      ((s₀.findUser userId).filter Account.mfaEnabled).bind fun user => (moment l 1).bind fun s₁ =>
        checked env userId user code s₁.clock
    else none
  | _, _ => none

/-- What a call of such a request does to recovery codes: it writes back what is left, or it
leaves them, or empties them. -/
structure CodeCall (r : Request) (l : List Store) (s s' : Store) : Prop where
  consumes : ∀ use, consuming env r l = some use → ∀ id, storedCodes s' id =
    if use.id = id then (storedCodes s id).map fun _ => use.left else storedCodes s id
  leaves : consuming env r l = none → ∀ id, storedCodes s' id = storedCodes s id ∨
    storedCodes s' id = (storedCodes s id).map fun _ => []

/-- A recovery code has been used up. -/
def Spent (r : Request) (l : List Store) : Prop :=
  ∃ l₁ s l₂ use, l = l₁ ++ s :: l₂ ∧ consuming env r l₂ = some use ∧ storedCodes s use.id ≠ none

/-- A request that does not fail has presented a one-time code, or used up a recovery code. -/
def CodeEnds (r : Request) (res : Except AuthError Answer) (l : List Store) : Prop :=
  ∀ code, r.presents = some code → isOneTimeCode (normalized env code) = false → (∃ a, res = .ok a) → Spent env r l

variable {env} {r : Request} {l : List Store} {s s' : Store}

theorem Spent.later (l' : List Store) (h : Spent env r l) : Spent env r (l' ++ l) := by
  obtain ⟨l₁, s, l₂, use, rfl, huse⟩ := h
  exact ⟨l' ++ l₁, s, l₂, use, by rw [List.append_assoc], huse⟩

/-- A call that leaves the users. -/
theorem quiet_code (hconsuming : consuming env r l = none) (husers : s'.users = s.users) : CodeCall env r l s s' where
  consumes := by
    intro use huse
    rw [hconsuming] at huse
    cases huse
  leaves _ id := .inl (by rw [storedCodes, husers, storedCodes])

/-- The call that writes back what is left. -/
theorem along_consume {use : Use} {Q : Except AuthError Unit → List Store → Prop}
    (huse : consuming env r l = some use) (hok : ∀ s, storedCodes s use.id ≠ none → Q (.ok ()) (s :: l))
    (herror : ∀ s e, Q (.error e) (s :: l)) :
    (Auth.updateUser use.id fun u => { u with mfaRecoveryCodes := use.left }).Along (CodeCall env r) Q l := by
  refine Prog.along_of_call fun s res s' hrun => ?_
  have hcall : ∀ users : Table Uuid Account, (∀ id, (users.find id).map Account.mfaRecoveryCodes =
      if use.id = id then (storedCodes s id).map fun _ => use.left else storedCodes s id) →
      CodeCall env r l s { s with users } := by
    intro users husers
    refine ⟨fun use' huse' id => ?_, fun hnone => ?_⟩
    · rw [huse, Option.some.injEq] at huse'
      subst huse'
      exact husers id
    · rw [huse] at hnone
      cases hnone
  rcases updateUser_run s use.id fun u => { u with mfaRecoveryCodes := use.left } with
    ⟨hnone, e, h⟩ | ⟨hfind, h⟩ <;> cases h.symm.trans hrun
  · refine ⟨hcall s.users fun id => ?_, herror s e⟩
    by_cases hid : use.id = id
    · rw [if_pos hid, ← hid, storedCodes, hnone]
      rfl
    · rw [if_neg hid]
      rfl
  · refine ⟨hcall _ fun id => ?_, hok s (by rwa [storedCodes, ne_eq, Option.map_eq_none_iff])⟩
    rw [Table.find_modify_key, storedCodes]
    by_cases hid : use.id = id
    · rw [if_pos hid, if_pos hid]
      cases s.users.find id <;> rfl
    · rw [if_neg hid, if_neg hid]

/-- The call that empties the codes of a user. -/
theorem along_clear {id : Uuid} {f : Account → Account} {Q : Except AuthError Unit → List Store → Prop}
    (hconsuming : consuming env r l = none) (hf : ∀ u, (f u).mfaRecoveryCodes = []) (hQ : ∀ s res, Q res (s :: l)) :
    (Auth.updateUser id f).Along (CodeCall env r) Q l := by
  refine Prog.along_of_call fun s res s' hrun => ?_
  rcases updateUser_run s id f with ⟨-, e, h⟩ | ⟨-, h⟩ <;> cases h.symm.trans hrun
  · exact ⟨quiet_code hconsuming rfl, hQ s _⟩
  · refine ⟨⟨fun use huse => ?_, fun _ j => ?_⟩, hQ s _⟩
    · rw [hconsuming] at huse
      cases huse
    · rw [storedCodes, Table.find_modify_key, storedCodes]
      by_cases hj : id = j
      · rw [if_pos hj]
        cases s.users.find j with
        | none => exact .inl rfl
        | some u => exact .inr (congrArg some (hf u))
      · rw [if_neg hj]
        exact .inl rfl

/-- A look at the state. -/
theorem along_code_read {α β : Type} {Q : Except AuthError β → List Store → Prop} {f : Store → α} {k : α → Method β}
    (hconsuming : consuming env r l = none) (hk : ∀ s, (k (f s)).Along (CodeCall env r) Q (s :: l)) :
    (Prog.read f >>= k).Along (CodeCall env r) Q l := by
  rw [Prog.along_read_bind]
  exact fun s => ⟨quiet_code hconsuming rfl, hk s⟩

theorem along_code_auditRecord {a b c e} {Q : Except AuthError Unit → List Store → Prop}
    (hconsuming : consuming env r l = none) (hQ : ∀ s, Q (.ok ()) (s :: l)) :
    (Auth.auditRecord a b c e).Along (CodeCall env r) Q l :=
  fun s => ⟨quiet_code hconsuming rfl, hQ s⟩

/-- A check that succeeds has found the one-time code, or used up a recovery code. -/
theorem along_check {id : Uuid} {user : Account} {code : String} {Q : Except AuthError Bool → List Store → Prop}
    (hnow : consuming env r l = none) (hcheck : ∀ s, consuming env r (s :: l) = checked env id user code s.clock)
    (hlater : ∀ l', l.length + 1 < l'.length → consuming env r l' = none)
    (hQ : ∀ res l', l <:+ l' → l.length < l'.length → consuming env r l' = none →
      (res = .ok true → isOneTimeCode (normalized env code) = false → Spent env r l') → Q res l') :
    (checkMfaCode env id user code).Along (CodeCall env r) Q l := by
  rw [checkMfaCode]
  refine along_code_read hnow fun s => ?_
  have hcheck := hcheck s
  have hsuffix : l <:+ s :: l := List.suffix_cons s l
  rw [Prog.along_ite]
  split
  · rename_i honce
    rw [checked, if_pos honce] at hcheck
    refine hQ _ _ hsuffix (by simp) hcheck fun _ hnot => ?_
    rw [hnot, Bool.false_and] at honce
    cases honce
  rename_i honce
  rw [checked, if_neg honce] at hcheck
  rw [useRecoveryCode]
  cases hfound : user.mfaRecoveryCodes.find? fun h => verifyPassword env (some h) (normalized env code) with
  | none =>
    rw [hfound] at hcheck
    refine hQ _ _ hsuffix (by simp) hcheck fun h => ?_
    cases h
  | some hashed =>
    rw [hfound, Option.map_some] at hcheck
    dsimp only
    rw [Prog.along_bind]
    refine along_consume hcheck (fun s₁ hs₁ => ?_) fun s₁ e => ?_
    · dsimp only
      rw [Prog.along_bind]
      refine along_code_auditRecord (hlater _ (by simp)) fun s₂ => ?_
      exact hQ _ _ (hsuffix.trans ⟨[s₂, s₁], rfl⟩) (by simp only [List.length_cons]; omega) (hlater _ (by simp))
        fun _ _ => ⟨[s₂], s₁, s :: l, _, rfl, hcheck, hs₁⟩
    · refine hQ _ _ (hsuffix.trans ⟨[s₁], rfl⟩) (by simp only [List.length_cons]; omega) (hlater _ (by simp))
        fun h => ?_
      cases h

theorem along_code_verifyMfa {d : Draws} {mfaToken code : String} {info : RequestMeta} :
    (Auth.verifyMfa env d mfaToken code info).Along (CodeCall env (.verifyMfa d mfaToken code info))
      (fun res l' => isOneTimeCode (normalized env code) = false → (∃ a, res = .ok a) →
        Spent env (.verifyMfa d mfaToken code info) l') [] := by
  have hlength : ∀ l' : List Store, l'.length ≠ 3 → consuming env (.verifyMfa d mfaToken code info) l' = none :=
    fun l' hl' => if_neg hl'
  rw [Auth.verifyMfa]
  refine along_code_read (hlength _ (by simp)) fun s₁ => ?_
  cases hchallenge : env.verifyMfa mfaToken s₁.clock with
  | none => simp
  | some challenged =>
    obtain ⟨id, tenantId⟩ := challenged
    refine along_code_read (hlength _ (by simp)) fun s₂ => ?_
    cases huser : (s₂.findUser id).filter enrolled with
    | none =>
      have : ((s₂.findUser id).filter fun u => u.mfaEnabled && u.mfaSecretEnc.any (· ≠ "")) = none := huser
      rw [this]
      simp
    | some user =>
      have : ((s₂.findUser id).filter fun u => u.mfaEnabled && u.mfaSecretEnc.any (· ≠ "")) = some user := huser
      rw [this]
      dsimp only
      rw [Prog.along_bind]
      refine along_check (hlength _ (by simp)) (fun s₃ => ?_) (fun l' hl' => hlength _ (by simp at hl'; omega))
        fun res l' hl' hlonger hquiet hspent => ?_
      · rw [consuming, if_pos (show [s₃, s₂, s₁].length = 3 from rfl), show moment [s₃, s₂, s₁] 0 = some s₁ from rfl,
          show moment [s₃, s₂, s₁] 1 = some s₂ from rfl, show moment [s₃, s₂, s₁] 2 = some s₃ from rfl, Option.bind_some,
          hchallenge, Option.bind_some, Option.bind_some, huser, Option.bind_some, Option.bind_some]
      rcases res with e | ok
      · simp
      dsimp only
      -- nothing is used up any more
      have hquiet : ∀ l'', l' <:+ l'' → consuming env (.verifyMfa d mfaToken code info) l'' = none := by
        intro l'' hl''
        by_cases hsame : l'.length = l''.length
        · rwa [← hl''.eq_of_length hsame]
        · have := hl''.length_le
          simp at hlonger
          exact hlength _ (by omega)
      rw [Prog.along_ite]
      split
      · rename_i hok
        refine along_leaves_issueSession.mono (fun l'' s s' hl'' h => quiet_code (hquiet l'' hl'') h.1) ?_
        rintro res l'' ⟨mid, rfl⟩ - honce -
        exact (hspent (by rw [hok]) honce).later mid
      · rw [Prog.along_bind]
        refine along_code_auditRecord (hquiet _ List.suffix_rfl) fun s => ?_
        simp

theorem along_code_mfaDisable {userId : Uuid} {code : String} :
    (Auth.mfaDisable env userId code).Along (CodeCall env (.mfaDisable userId code))
      (fun res l' => isOneTimeCode (normalized env code) = false → (∃ a, res = .ok a) →
        Spent env (.mfaDisable userId code) l') [] := by
  have hlength : ∀ l' : List Store, l'.length ≠ 2 → consuming env (.mfaDisable userId code) l' = none :=
    fun l' hl' => if_neg hl'
  rw [Auth.mfaDisable]
  refine along_code_read (hlength _ (by simp)) fun s₁ => ?_
  cases huser : s₁.findUser userId with
  | none => simp
  | some user =>
    dsimp only
    rw [Prog.along_ite]
    split
    · simp
    rename_i henabled
    have hfiltered : (s₁.findUser userId).filter Account.mfaEnabled = some user := by
      rw [huser, Option.filter_some, if_pos (by simpa using henabled)]
    rw [Prog.along_bind]
    refine along_check (hlength _ (by simp)) (fun s₂ => ?_) (fun l' hl' => hlength _ (by simp at hl'; omega))
      fun res l' hl' hlonger hquiet hspent => ?_
    · rw [consuming, if_pos (show [s₂, s₁].length = 2 from rfl), show moment [s₂, s₁] 0 = some s₁ from rfl,
        show moment [s₂, s₁] 1 = some s₂ from rfl, Option.bind_some, hfiltered, Option.bind_some, Option.bind_some]
    rcases res with e | ok
    · simp
    dsimp only
    have hlater : ∀ s l'', consuming env (.mfaDisable userId code) (s :: (l'' ++ l')) = none := by
      intro s l''
      simp at hlonger
      exact hlength _ (by simp; omega)
    rw [Prog.along_ite]
    split
    · rename_i hok
      have hdone : ∀ l'', isOneTimeCode (normalized env code) = false → (∃ a, (Except.ok () : Except AuthError Unit) = .ok a) →
          Spent env (.mfaDisable userId code) (l'' ++ l') :=
        fun l'' honce _ => (hspent (by rw [hok]) honce).later l''
      rw [Prog.along_bind]
      refine along_clear hquiet (fun u => rfl) fun s₃ res => ?_
      cases res with
      | error e => simp
      | ok u =>
        dsimp only
        rw [Prog.along_bind]
        refine fun s₄ => ⟨quiet_code (hlater s₃ []) rfl, ?_⟩
        exact along_code_auditRecord (hlater s₄ [s₃]) fun s₅ => hdone [s₅, s₄, s₃]
    · simp

/-- **Every request** that checks a code, call by call. -/
theorem serve_codes (env : Platform) (r : Request) : (serve env r).Along
    (fun l s s' => r.checks = true → CodeCall env r l s s') (CodeEnds env r) [] := by
  cases r with
  | verifyMfa d mfaToken code info =>
    refine (Prog.along_map ..).mpr (along_code_verifyMfa.mono (fun _ _ _ _ h _ => h) ?_)
    rintro res l' - h _ ⟨⟩ honce ⟨a, ha⟩
    cases res with
    | error e => cases ha
    | ok a => exact h honce ⟨a, rfl⟩
  | mfaDisable userId code =>
    refine (Prog.along_map ..).mpr (along_code_mfaDisable.mono (fun _ _ _ _ h _ => h) ?_)
    rintro res l' - h _ ⟨⟩ honce ⟨a, ha⟩
    cases res with
    | error e => cases ha
    | ok a => exact h honce ⟨a, rfl⟩
  | tick elapsed =>
    refine (Prog.along_map ..).mpr fun s => ⟨fun _ => quiet_code rfl rfl, ?_⟩
    rintro _ ⟨⟩
  | _ =>
    refine Prog.along_of_forall (fun _ _ _ h => ?_) (fun _ _ _ h => ?_) _ _
    · cases h
    · cases h

end Codes

/-! ### Runs of requests that check codes -/

section Runs

variable (env : Platform) (s₀ : Store) (id : Uuid)

/-- The recovery code that the next turn of the `i`-th request uses up. -/
def using_ (past : List (Event Request)) (i : ℕ) : Option Use :=
  (asked env s₀ i past).bind fun r => if busy env s₀ i past then consuming env r (saw env s₀ i past) else none

/-- Whoever uses up a recovery code of the user finds the codes that it has read. -/
def Consistent (past : List (Event Request)) : Event Request → Prop
  | .start _ => True
  | .turn i => ∀ use, using_ env s₀ past i = some use → use.id = id →
    storedCodes (at_ env s₀ past) id = some use.read

/-- The `j`-th request has used up a hash, having presented the code. -/
def UsedUp (evs : List (Event Request)) (j : ℕ) (code hashed : String) : Prop :=
  ∃ mid past use, evs = mid ++ .turn j :: past ∧ using_ env s₀ past j = some use ∧ use.id = id ∧ use.code = code ∧
    use.hashed = hashed ∧ storedCodes (at_ env s₀ past) id ≠ none

/-- The `j`-th request has had the code accepted as a recovery code of the user. -/
def AcceptedCode (evs : List (Event Request)) (j : ℕ) (code : String) : Prop := ∃ hashed, UsedUp env s₀ id evs j code hashed

variable {env s₀ id}

/-- The hash that is used up is one of those read, and fits the code. -/
theorem checked_eq_some {user : Account} {code : String} {time : Date} {use : Use}
    (h : checked env id user code time = some use) :
    use.hashed ∈ use.read ∧ verifyPassword env (some use.hashed) use.code = true ∧ use.code = normalized env code := by
  rw [checked] at h
  split at h
  · cases h
  · obtain ⟨hashed, hfound, rfl⟩ := Option.map_eq_some_iff.mp h
    exact ⟨List.mem_of_find?_eq_some hfound, (List.find?_eq_some_iff_append.mp hfound).1, rfl⟩

theorem consuming_eq_some {r : Request} {l : List Store} {use : Use} (h : consuming env r l = some use) :
    ∃ code, r.presents = some code ∧
      use.hashed ∈ use.read ∧ verifyPassword env (some use.hashed) use.code = true ∧ use.code = normalized env code := by
  cases r with
  | verifyMfa d mfaToken code info =>
    rw [consuming] at h
    split at h
    · obtain ⟨s₁, -, h⟩ := Option.bind_eq_some_iff.mp h
      obtain ⟨challenged, -, h⟩ := Option.bind_eq_some_iff.mp h
      obtain ⟨s₂, -, h⟩ := Option.bind_eq_some_iff.mp h
      obtain ⟨user, -, h⟩ := Option.bind_eq_some_iff.mp h
      obtain ⟨s₃, -, h⟩ := Option.bind_eq_some_iff.mp h
      exact ⟨code, rfl, checked_eq_some h⟩
    · cases h
  | mfaDisable userId code =>
    rw [consuming] at h
    split at h
    · obtain ⟨s₁, -, h⟩ := Option.bind_eq_some_iff.mp h
      obtain ⟨user, -, h⟩ := Option.bind_eq_some_iff.mp h
      obtain ⟨s₂, -, h⟩ := Option.bind_eq_some_iff.mp h
      exact ⟨code, rfl, checked_eq_some h⟩
    · cases h
  | _ => cases h

variable (env s₀ id) in
/-- The hash is not among the codes of the user. -/
def Absent (evs : List (Event Request)) (hashed : String) : Prop :=
  ∀ l, storedCodes (at_ env s₀ evs) id = some l → hashed ∉ l

/-- What a turn does to the codes of the user, if it finds what it has read: it takes out the
hash that is used up, and no hash comes back. -/
theorem codes_turn {past : List (Event Request)} (honly : Only Request.checks past) {i : ℕ}
    (hconsistent : Consistent env s₀ id past (.turn i)) :
    (∀ use, using_ env s₀ past i = some use → use.id = id → Absent env s₀ id (.turn i :: past) use.hashed) ∧
      ∀ hashed, Absent env s₀ id past hashed → Absent env s₀ id (.turn i :: past) hashed := by
  rcases turn_cases s₀ (serve_codes env) past i with ⟨hsame, hseen⟩ | ⟨r, hr, hbusy, -, -, hcall⟩
  · have hsame : at_ env s₀ (.turn i :: past) = at_ env s₀ past := congrArg Config.st hsame
    refine ⟨fun use huse => ?_, fun hashed habsent => by rwa [Absent, hsame]⟩
    obtain ⟨r, -, huse⟩ := Option.bind_eq_some_iff.mp huse
    split at huse
    · rename_i hbusy
      have hmoved := (hseen i).symm.trans (saw_of_busy env s₀ hbusy)
      exact absurd hmoved.symm (List.cons_ne_self _ _)
    · cases huse
  have hr : asked env s₀ i past = some r := hr
  have hbusy : busy env s₀ i past = true := hbusy
  have hcall : CodeCall env r (saw env s₀ i past) (at_ env s₀ past) (at_ env s₀ (.turn i :: past)) :=
    hcall (honly r (asked_started hr))
  have husing : using_ env s₀ past i = consuming env r (saw env s₀ i past) := by
    rw [using_, hr, Option.bind_some, if_pos hbusy]
  cases hconsuming : consuming env r (saw env s₀ i past) with
  | none =>
    refine ⟨fun use huse => ?_, fun hashed habsent l hl => ?_⟩
    · rw [husing, hconsuming] at huse
      cases huse
    · rcases hcall.leaves hconsuming id with hsame | hempty
      · exact habsent l (hsame.symm.trans hl)
      · obtain ⟨l', -, rfl⟩ := Option.map_eq_some_iff.mp (hempty.symm.trans hl)
        exact List.not_mem_nil
  | some use =>
    rw [hconsuming] at husing
    have hafter := hcall.consumes use hconsuming id
    by_cases hid : use.id = id
    · rw [if_pos hid, hconsistent use husing hid, Option.map_some] at hafter
      have hleft : ∀ hashed, hashed = use.hashed ∨ hashed ∉ use.read → Absent env s₀ id (.turn i :: past) hashed := by
        intro hashed hor l hl
        rw [hafter, Option.some.injEq] at hl
        rw [← hl, Use.left, List.mem_filter]
        rcases hor with rfl | hnot
        · simp
        · exact fun h => hnot h.1
      refine ⟨fun use' huse' _ => ?_, fun hashed habsent => hleft _ (.inr (habsent _ (hconsistent use husing hid)))⟩
      rw [husing, Option.some.injEq] at huse'
      exact hleft _ (.inl (by rw [huse']))
    · rw [if_neg hid] at hafter
      refine ⟨fun use' huse' hid' => ?_, fun hashed habsent => by rwa [Absent, hafter]⟩
      rw [husing, Option.some.injEq] at huse'
      exact absurd (huse' ▸ hid') hid

/-- A hash that is gone does not come back. -/
theorem absent_later {past : List (Event Request)} {hashed : String} (habsent : Absent env s₀ id past hashed)
    (mid : List (Event Request)) (honly : Only Request.checks (mid ++ past))
    (hconsistent : Every (Consistent env s₀ id) (mid ++ past)) : Absent env s₀ id (mid ++ past) hashed := by
  induction mid with
  | nil => exact habsent
  | cons e mid ih =>
    have ih := ih honly.tail hconsistent.2
    cases e with
    | start r => exact ih
    | turn i => exact (codes_turn honly.tail hconsistent.1).2 hashed ih

/-- What is used up was among the codes. -/
theorem not_absent_of_using {past : List (Event Request)} {i : ℕ} {use : Use}
    (hconsistent : Consistent env s₀ id past (.turn i)) (huse : using_ env s₀ past i = some use) (hid : use.id = id) :
    ¬Absent env s₀ id past use.hashed := by
  intro habsent
  obtain ⟨r, -, h⟩ := Option.bind_eq_some_iff.mp huse
  split at h
  · obtain ⟨code, -, hmem, -⟩ := consuming_eq_some h
    exact habsent _ (hconsistent use huse hid) hmem
  · cases h

/-- **Each hash is used up once.** -/
theorem usedUp_once {evs : List (Event Request)} (honly : Only Request.checks evs)
    (hconsistent : Every (Consistent env s₀ id) evs) {j k : ℕ} {code code' hashed : String}
    (hj : UsedUp env s₀ id evs j code hashed) (hk : UsedUp env s₀ id evs k code' hashed) : j = k := by
  -- the later of two has to find what the earlier one has taken out
  have hlater : ∀ {j k past past' mid use use'}, evs = mid ++ .turn j :: past → .turn k :: past' <:+ past →
      using_ env s₀ past j = some use → using_ env s₀ past' k = some use' → use.id = id → use'.id = id →
      use.hashed = use'.hashed → False := by
    rintro j k past past' mid use use' rfl ⟨a, rfl⟩ hj hk hid hid' hsame
    have honly := honly.past
    have hconsistent := hconsistent.past
    have habsent := (codes_turn (honly.tail.past).tail (hconsistent.2.past).1).1 use' hk hid'
    refine not_absent_of_using hconsistent.1 hj hid ?_
    rw [hsame]
    exact absent_later habsent a honly.tail hconsistent.2
  obtain ⟨mid, past, use, hevs, huse, hid, -, hhashed, -⟩ := hj
  obtain ⟨mid', past', use', hevs', huse', hid', -, hhashed', -⟩ := hk
  have hsame : use.hashed = use'.hashed := hhashed.trans hhashed'.symm
  have hj : .turn j :: past <:+ evs := ⟨mid, hevs.symm⟩
  have hk : .turn k :: past' <:+ evs := ⟨mid', hevs'.symm⟩
  rcases List.suffix_or_suffix_of_suffix hj hk with h | h <;> rcases List.suffix_cons_iff.mp h with heq | hsuffix
  · cases heq
    rfl
  · exact (hlater hevs' hsuffix huse' huse hid' hid hsame.symm).elim
  · cases heq
    rfl
  · exact (hlater hevs hsuffix huse huse' hid hid' hsame).elim

/-! ### The codes that were handed out -/

/-- The hashes under which recovery codes are kept. -/
def hashesOf (env : Platform) (d : Draws) : List String := d.recoveryCodes.zipIdx.map fun c => env.hash (d.salt c.2) c.1

/-- Who has enabled the second factor has handed out the codes of which the hashes are kept. -/
theorem mfaEnable_codes {d : Draws} {code : String} {s : Store} {codes : List String}
    (h : (mfaEnable env d id code).run s = (.ok codes, s₀)) :
    codes = d.recoveryCodes ∧ storedCodes s₀ id = some (hashesOf env d) := by
  rw [mfaEnable, Prog.run_bind, Prog.run_read] at h
  cases hu : s.findUser id with
  | none =>
    simp only [hu] at h
    cases h
  | some user =>
    simp only [hu] at h
    split at h
    · cases h
    cases hsecret : user.mfaSecretEnc.filter (· ≠ "") with
    | none =>
      rw [hsecret] at h
      cases h
    | some secret =>
      rw [hsecret] at h
      dsimp only at h
      rw [now, Prog.run_bind, Prog.run_read] at h
      dsimp only at h
      split at h
      · cases h
      obtain ⟨_, s₃, hupdate, h⟩ := Prog.run_bind_ok.mp h
      cases h
      rcases updateUser_run s id fun u => { u with mfaEnabled := true, mfaRecoveryCodes := hashesOf env d } with
        ⟨-, e, hrun⟩ | ⟨-, hrun⟩ <;> cases hrun.symm.trans hupdate
      refine ⟨rfl, ?_⟩
      show ((s.users.modify _ _).find id).map Account.mfaRecoveryCodes = _
      rw [Table.find_modify_self, (Option.filter_eq_some_iff.mp hu).1]
      rfl

/-- The hash that was used up for a code is that of the code. -/
theorem UsedUp.hash_mem {d : Draws} {evs : List (Event Request)} {j : ℕ} {code hashed : String}
    (h : UsedUp env s₀ id evs j code hashed) (hstored : storedCodes s₀ id = some (hashesOf env d))
    (hverify : ∀ salt a b, env.verify (env.hash salt a) b = true → a = b) (honly : Only Request.checks evs)
    (hconsistent : Every (Consistent env s₀ id) evs) :
    hashed ∈ (d.recoveryCodes.zipIdx.filter (·.1 = code)).map fun c => env.hash (d.salt c.2) c.1 := by
  obtain ⟨mid, past, use, rfl, huse, hid, rfl, rfl, -⟩ := h
  have hkept : use.hashed ∈ hashesOf env d := by
    by_contra hnot
    have habsent : Absent env s₀ id [] use.hashed := by
      intro l hl
      have hl : storedCodes s₀ id = some l := hl
      rw [hstored, Option.some.injEq] at hl
      rwa [← hl]
    have hpast := absent_later habsent past (by rw [List.append_nil]; exact honly.past.tail)
      (by rw [List.append_nil]; exact hconsistent.past.2)
    rw [List.append_nil] at hpast
    exact not_absent_of_using hconsistent.past.1 huse hid hpast
  obtain ⟨c, hc, hhash⟩ := List.mem_map.mp hkept
  obtain ⟨r, -, h⟩ := Option.bind_eq_some_iff.mp huse
  split at h
  · obtain ⟨code, -, -, hfits, -⟩ := consuming_eq_some h
    rw [verifyPassword, ← hhash, Option.any_some, Bool.and_eq_true] at hfits
    exact List.mem_map.mpr ⟨c, List.mem_filter.mpr ⟨hc, decide_eq_true (hverify _ _ _ hfits.2)⟩, hhash⟩
  · cases h

theorem count_codes (d : Draws) (code : String) :
    (d.recoveryCodes.zipIdx.filter (·.1 = code)).length = d.recoveryCodes.count code := by
  have hfst : (d.recoveryCodes.zipIdx.map Prod.fst).countP (· == code) = d.recoveryCodes.count code := by
    rw [List.zipIdx_map_fst, List.count]
  rw [← hfst, List.countP_map, List.countP_eq_length_filter]
  rfl

/-- **A recovery code works once.** If each request that uses up a code of the user finds the codes
that it has read, then of the requests that present a text at most as many have it accepted as there
are such codes; and a request that succeeds with a text that is no one-time code has had it accepted. -/
theorem recovery_code_once (hverify : ∀ salt a b, env.verify (env.hash salt a) b = true → a = b) {d : Draws}
    {first : String} {s : Store} {codes : List String} (henable : (mfaEnable env d id first).run s = (.ok codes, s₀))
    {evs : List (Event Request)} (honly : Only Request.checks evs) (hconsistent : Every (Consistent env s₀ id) evs) :
    (∀ code, ∀ js : List ℕ, js.Nodup → (∀ j ∈ js, AcceptedCode env s₀ id evs j code) → js.length ≤ codes.count code) ∧
    ∀ j th code, (interleave (serve env) s₀ evs).threads[j]? = some th → th.req.presents = some code →
      isOneTimeCode (normalized env code) = false → (∃ a, th.rest.result = some (.ok a)) →
      ∃ user, AcceptedCode env s₀ user evs j (normalized env code) := by
  obtain ⟨rfl, hstored⟩ := mfaEnable_codes henable
  constructor
  · intro code js hnodup haccepted
    choose! hashed hused using haccepted
    have hdistinct : (js.map hashed).Nodup :=
      hnodup.map_on fun j hj k hk hsame => usedUp_once honly hconsistent (hused j hj) (hsame ▸ hused k hk)
    have hfits : js.map hashed ⊆ (d.recoveryCodes.zipIdx.filter (·.1 = code)).map fun c => env.hash (d.salt c.2) c.1 := by
      intro h hh
      obtain ⟨j, hj, rfl⟩ := List.mem_map.mp hh
      exact (hused j hj).hash_mem hstored hverify honly hconsistent
    have := (List.subperm_of_subset hdistinct hfits).length_le
    rwa [List.length_map, List.length_map, count_codes] at this
  · rintro j th code hth hpresents honce ⟨a, hresult⟩
    obtain ⟨l₁, s₁, l₂, use, hl, huse, hfound⟩ := along_ended s₀ (serve_codes env) hth hresult code hpresents honce ⟨a, rfl⟩
    obtain ⟨mid, past, rfl, hseen, hs₁, hbusy⟩ := seen_split hl
    obtain ⟨th', hth', -⟩ := (Option.any_eq_true ..).mp hbusy
    have hasked : asked env s₀ j past = some th'.req := by rw [asked, requested, hth', Option.map_some]
    have hsame := asked_later hasked (mid ++ [.turn j])
    rw [List.append_assoc, List.singleton_append, asked, requested, hth, Option.map_some, Option.some.injEq] at hsame
    have husing : using_ env s₀ past j = some use := by
      have hseen : saw env s₀ j past = l₂ := hseen
      have hbusy : busy env s₀ j past = true := hbusy
      rw [using_, hasked, Option.bind_some, if_pos hbusy, hseen, ← hsame]
      exact huse
    obtain ⟨code', hcode', -, -, hnormalized⟩ := consuming_eq_some huse
    rw [hpresents, Option.some.injEq] at hcode'
    have hs₁ : at_ env s₀ past = s₁ := hs₁
    exact ⟨use.id, use.hashed, mid, past, use, rfl, husing, rfl, by rw [hnormalized, hcode'], rfl, by rwa [hs₁]⟩

instance (past : List (Event Request)) (e : Event Request) : Decidable (Consistent env s₀ id past e) :=
  match e with
  | .start _ => .isTrue trivial
  | .turn i => decidable_of_iff (∀ use ∈ using_ env s₀ past i, use.id = id →
      storedCodes (at_ env s₀ past) id = some use.read) Iff.rfl

end Runs

/-! ### A code that is presented twice -/

/-- The administrator enrols, with these codes. -/
def handout : Draws := { draw 5 "unused" with secret := "123456", recoveryCodes := ["first", "second"] }

/-- The second factor is enabled. -/
def withCodes : Store := ((mfaEnable platform handout 1 "123456").run ((mfaSetup platform handout 1).run team).2).2

/-- A challenge is met with a code. -/
def meet (n : ℕ) (token code : String) : Event Request := .start (.verifyMfa (draw n token) "challenge" code {})

/-- The first code is presented, and then again. -/
def repeated : List (Event Request) :=
  List.replicate 4 (.turn 1) ++ meet 7 "seventh" "first" :: (List.replicate 11 (.turn 0) ++ [meet 6 "sixth" "first"])

theorem recovery_code_once_repeated : (∃ user, AcceptedCode platform withCodes user repeated 0 "first") ∧
    ¬(AcceptedCode platform withCodes 1 repeated 0 "first" ∧ AcceptedCode platform withCodes 1 repeated 1 "first") := by
  have hverify : ∀ salt a b, platform.verify (platform.hash salt a) b = true → a = b := fun _ _ _ h => of_decide_eq_true h
  have henable : (mfaEnable platform handout 1 "123456").run ((mfaSetup platform handout 1).run team).2 =
      (.ok ["first", "second"], withCodes) := rfl
  have honly : Only Request.checks repeated := only_of_all (by decide +kernel)
  have hconsistent : Every (Consistent platform withCodes 1) repeated := by decide +kernel
  have honce := recovery_code_once hverify henable honly hconsistent
  refine ⟨honce.2 0 _ "first" rfl rfl (by decide +kernel) ⟨_, rfl⟩, ?_⟩
  rintro ⟨hfirst, hsecond⟩
  have := honce.1 "first" [0, 1] (by decide) (by simp [hfirst, hsecond])
  exact absurd this (by decide)

/-- Two requests have read the same codes. -/
def readBoth : List (Event Request) :=
  List.replicate 3 (.turn 1) ++ List.replicate 3 (.turn 0) ++ [meet 7 "seventh" "first", meet 6 "sixth" "first"]

/-- Both go on. -/
def presentedTwice : List (Event Request) := List.replicate 8 (.turn 1) ++ List.replicate 8 (.turn 0) ++ readBoth

/-- The code is accepted by both, and both get a session. -/
theorem recovery_code_twice : (mfaEnable platform handout 1 "123456").run ((mfaSetup platform handout 1).run team).2 =
      (.ok ["first", "second"], withCodes) ∧ Only Request.checks presentedTwice ∧
    AcceptedCode platform withCodes 1 presentedTwice 0 "first" ∧ AcceptedCode platform withCodes 1 presentedTwice 1 "first" ∧
    ∀ j ∈ [0, 1], ∃ th s, (interleave (serve platform) withCodes presentedTwice).threads[j]? = some th ∧
      th.rest.result = some (.ok (.session s)) := by
  refine ⟨rfl, only_of_all (by decide +kernel), ?_, ?_, ?_⟩
  · exact ⟨"first", List.replicate 8 (.turn 1) ++ List.replicate 7 (.turn 0), readBoth, ⟨1, "first", ["first", "second"], "first"⟩,
      rfl, by decide +kernel, rfl, rfl, rfl, by decide +kernel⟩
  · exact ⟨"first", List.replicate 7 (.turn 1), List.replicate 8 (.turn 0) ++ readBoth,
      ⟨1, "first", ["first", "second"], "first"⟩, rfl, by decide +kernel, rfl, rfl, rfl, by decide +kernel⟩
  · intro j hj
    rcases List.mem_cons.mp hj with rfl | hj
    · exact ⟨_, _, rfl, rfl⟩
    · rw [List.mem_singleton.mp hj]
      exact ⟨_, _, rfl, rfl⟩

end AuditSphere.Sessions
