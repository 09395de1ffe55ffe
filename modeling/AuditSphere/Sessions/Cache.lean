import AuditSphere.Sessions.Runs
import Mathlib.Data.List.Infix

/-!
# The cache of users

Who changes a user writes the database and then invalidates the entry of the user in the
cache. A load reads the database and stores later what it has read; so it may put back what
an invalidation has just removed. The cache is coherent as long as no load does that
(`Settled`): then what a load answers that starts after an invalidation was read from the
database after the change, by itself or by another.
-/

namespace AuditSphere.Sessions

open Prisma Theory Shared Auth Users

section Cache

variable (env : Platform) (s₀ : Store)

/-- The next call of the `i`-th request changes the row of the user. -/
def Changing (past : List (Event Request)) (i : ℕ) (id : Uuid) : Prop :=
  (at_ env s₀ (.turn i :: past)).users.find id ≠ (at_ env s₀ past).users.find id

/-- The next call of the `i`-th request removes the entry of the user from the cache. -/
def Invalidating (past : List (Event Request)) (i : ℕ) (id : Uuid) : Prop :=
  ∃ r u k, (interleave (serve env) s₀ past).threads[i]? = some ⟨r, .act u k⟩ ∧
    ∀ s : Store, u s = { s with cache := Function.update s.cache id none }

/-- The next call of the `k`-th request puts an entry of the user into the cache. -/
def Storing (past : List (Event Request)) (k : ℕ) (id : Uuid) : Prop :=
  (at_ env s₀ (.turn k :: past)).cache id ≠ (at_ env s₀ past).cache id ∧
    (at_ env s₀ (.turn k :: past)).cache id ≠ none

/-- Since `before`, a request has changed the user and then removed the entry. -/
def ChangedSince (before past : List (Event Request)) (id : Uuid) : Prop :=
  ∃ i w v, before <:+ w ∧ .turn i :: w <:+ v ∧ .turn i :: v <:+ past ∧ Changing env s₀ w i id ∧
    Invalidating env s₀ v i id

/-- Who puts an entry into the cache has read the user after the last change that was made known. -/
def Settled (past : List (Event Request)) : Event Request → Prop
  | .start _ => True
  | .turn k => ∀ id, Storing env s₀ past k id → ∀ mid before, past = mid ++ .turn k :: before → .turn k ∉ mid →
    ¬ChangedSince env s₀ (.turn k :: before) past id

variable {env s₀}

/-- What a request has seen last, it has seen with its last turn. -/
theorem saw_last {k : ℕ} {evs : List (Event Request)} {s : Store} {l : List Store} (hsaw : saw env s₀ k evs = s :: l)
    (hbusy : busy env s₀ k evs = true) :
    ∃ mid before, evs = mid ++ .turn k :: before ∧ .turn k ∉ mid ∧ at_ env s₀ before = s := by
  induction evs with
  | nil => cases hsaw
  | cons e past ih =>
    cases e with
    | start r =>
      have hbusy' : busy env s₀ k past = true := by
        rw [busy] at hbusy ⊢
        rw [interleave_start_threads] at hbusy
        by_cases hk : k < (interleave (serve env) s₀ past).threads.length
        · rwa [List.getElem?_append_left hk] at hbusy
        · have hnothing : saw env s₀ k past = [] := seen_of_not_started _ _ (by omega)
          have hsaw' : saw env s₀ k past = s :: l := hsaw
          rw [hnothing] at hsaw'
          cases hsaw'
      obtain ⟨mid, before, rfl, hmid, hs⟩ := ih hsaw hbusy'
      exact ⟨.start r :: mid, before, rfl, by simp [hmid], hs⟩
    | turn i =>
      by_cases hik : i = k
      · subst hik
        have hbusy' : busy env s₀ i past = true := by
          rcases next_turn_cases (serve env) (interleave (serve env) s₀ past) i with ⟨-, heq⟩ | ⟨r, u, c, hi, -⟩
          · rw [busy, interleave, heq] at hbusy
            exact hbusy
          · rw [busy, hi]
            rfl
        have hmoved : saw env s₀ i (.turn i :: past) = at_ env s₀ past :: saw env s₀ i past := if_pos ⟨rfl, hbusy'⟩
        rw [hmoved, List.cons.injEq] at hsaw
        exact ⟨[], past, rfl, List.not_mem_nil, hsaw.1⟩
      · have hsame : saw env s₀ k (.turn i :: past) = saw env s₀ k past := if_neg fun h => hik h.1
        have hbusy' : busy env s₀ k past = true := by
          rcases next_turn_cases (serve env) (interleave (serve env) s₀ past) i with ⟨-, heq⟩ | ⟨r, u, c, -, heq⟩
          · rw [busy, interleave, heq] at hbusy
            exact hbusy
          · rw [busy, interleave, heq, List.getElem?_set_ne hik] at hbusy
            exact hbusy
        rw [hsame] at hsaw
        obtain ⟨mid, before, rfl, hmid, hs⟩ := ih hsaw hbusy'
        refine ⟨.turn i :: mid, before, rfl, ?_, hs⟩
        rw [List.mem_cons, not_or]
        exact ⟨fun h => hik (by cases h; rfl), hmid⟩

/-- **The cache after an invalidation**: what it says of the user was in the database after the change. -/
theorem cached_since {w v : List (Event Request)} {i : ℕ} {id : Uuid} (hw : Changing env s₀ w i id)
    (hwv : .turn i :: w <:+ v) (hv : Invalidating env s₀ v i id) (mid : List (Event Request))
    (hsettled : Every (Settled env s₀) (mid ++ .turn i :: v)) :
    ∀ e, (at_ env s₀ (mid ++ .turn i :: v)).cache id = some e →
      ∃ q, .turn i :: w <:+ q ∧ q <:+ mid ++ .turn i :: v ∧
        (at_ env s₀ q).authUser env.mfaEnforcement id = some e.value := by
  induction mid with
  | nil =>
    intro e he
    obtain ⟨r, u, k, hth, hu⟩ := hv
    have hnone : (at_ env s₀ (.turn i :: v)).cache id = none := by
      show ((interleave (serve env) s₀ v).next (serve env) (.turn i)).st.cache id = none
      rw [Config.next]
      simp only [hth, hu]
      exact Function.update_self ..
    rw [List.nil_append, hnone] at he
    cases he
  | cons ev mid ih =>
    have hpast := ih hsettled.2
    intro e he
    have hlater : (∃ q, .turn i :: w <:+ q ∧ q <:+ mid ++ .turn i :: v ∧
        (at_ env s₀ q).authUser env.mfaEnforcement id = some e.value) → ∃ q, .turn i :: w <:+ q ∧
        q <:+ ev :: mid ++ .turn i :: v ∧ (at_ env s₀ q).authUser env.mfaEnforcement id = some e.value := by
      rintro ⟨q, hq, hqe, hvalue⟩
      exact ⟨q, hq, hqe.trans (List.suffix_cons _ _), hvalue⟩
    cases ev with
    | start r => exact hlater (hpast e he)
    | turn k =>
      rcases turn_call env s₀ (mid ++ .turn i :: v) k with ⟨heq, -⟩ | ⟨r, hk, hbusy, -, -, hcall⟩
      · rw [List.cons_append, heq] at he
        exact hlater (hpast e he)
      by_cases hsame : (at_ env s₀ (.turn k :: (mid ++ .turn i :: v))).cache id = (at_ env s₀ (mid ++ .turn i :: v)).cache id
      · exact hlater (hpast e (hsame.symm.trans he))
      have he' : (at_ env s₀ (.turn k :: (mid ++ .turn i :: v))).cache id = some e := he
      rcases hcall.cache id with heq | heq | ⟨e', he'', s₁, hs₁, hread⟩
      · exact absurd heq hsame
      · rw [heq] at he'
        cases he'
      rw [he', Option.some.injEq] at he''
      subst he''
      obtain ⟨l, hl⟩ := List.head?_eq_some_iff.mp hs₁
      obtain ⟨mid', before, hsplit, hmid', hbefore⟩ := saw_last hl hbusy
      have hstoring : Storing env s₀ (mid ++ .turn i :: v) k id := ⟨hsame, by rw [he']; exact Option.some_ne_none _⟩
      have hnot := hsettled.1 id hstoring mid' before hsplit hmid'
      have hv' : .turn i :: v <:+ mid ++ .turn i :: v := List.suffix_append ..
      have hw' : .turn i :: w <:+ mid ++ .turn i :: v := (hwv.trans (List.suffix_cons _ _)).trans hv'
      have hb' : .turn k :: before <:+ mid ++ .turn i :: v := by
        rw [hsplit]
        exact List.suffix_append ..
      -- the change is no read, since the request has had another turn after it
      have hne : (.turn k :: before : List (Event Request)) ≠ .turn i :: w := by
        intro heq
        rw [List.cons.injEq, Event.turn.injEq] at heq
        obtain ⟨rfl, rfl⟩ := heq
        obtain ⟨a, rfl⟩ := hwv
        have hcancel : (mid ++ .turn k :: a) ++ .turn k :: before = mid' ++ .turn k :: before := by
          rw [← hsplit]
          simp
        rw [List.append_cancel_right_eq] at hcancel
        rw [← hcancel] at hmid'
        exact hmid' (by simp)
      -- the read came before the change, or after it
      rcases List.suffix_or_suffix_of_suffix hb' hw' with hbw | hwb
      · exact absurd ⟨i, w, v, (List.suffix_cons_iff.mp hbw).resolve_left hne, hwv, hv', hw, hv⟩ hnot
      · have hwb := (List.suffix_cons_iff.mp hwb).resolve_left hne.symm
        exact ⟨before, hwb, (List.suffix_cons _ _).trans (hb'.trans (List.suffix_cons _ _)), by rw [hbefore]; exact hread⟩

/-- Nothing is stored with the first call, and nothing has happened since the last one. -/
theorem settled_alone {past : List (Event Request)} {k : ℕ}
    (h : saw env s₀ k past = [] ∨ ∃ before, past = .turn k :: before) : Settled env s₀ past (.turn k) := by
  intro id hstoring mid before hsplit hmid
  rcases h with hnothing | ⟨before', rfl⟩
  · exfalso
    rcases turn_call env s₀ past k with ⟨heq, -⟩ | ⟨r, -, -, -, -, hcall⟩
    · exact hstoring.1 (by rw [heq])
    · rcases hcall.cache id with heq | heq | ⟨e, -, s, hs, -⟩
      · exact hstoring.1 heq
      · exact hstoring.2 heq
      · rw [hnothing] at hs
        cases hs
  · cases mid with
    | cons e mid =>
      rw [List.cons_append, List.cons.injEq] at hsplit
      rw [← hsplit.1] at hmid
      exact absurd List.mem_cons_self hmid
    | nil =>
      rw [List.nil_append] at hsplit
      rintro ⟨i, w, v, hbw, hwv, hv, -⟩
      have h1 := hbw.length_le
      have h2 := hwv.length_le
      have h3 := hv.length_le
      rw [hsplit] at h3
      simp only [List.length_cons] at h1 h2 h3
      omega

/-- A request that takes all its turns in a row. -/
theorem settled_turns {past : List (Event Request)} {k : ℕ} (hnothing : saw env s₀ k past = [])
    (hpast : Every (Settled env s₀) past) (n : ℕ) : Every (Settled env s₀) (List.replicate n (.turn k) ++ past) := by
  induction n with
  | zero => exact hpast
  | succ n ih =>
    refine ⟨settled_alone ?_, ih⟩
    cases n with
    | zero => exact .inl hnothing
    | succ n => exact .inr ⟨_, rfl⟩

/-- The administrator, as requests know him. -/
def admin : AuthUser := buildAuthUser .off team 1 (person "admin" .globalAdmin)

/-- The executive is made an auditor. -/
def demotion : Event Request := .start (.setRoles admin 2 ⟨[.seniorAuditor]⟩)

/-- The executive, with a role. -/
def executive (role : RoleKey) : AuthUser :=
  buildAuthUser .off team 2 { person "cae" .chiefAuditExecutive with roles := [⟨role, none⟩] }

/-- The first turns of a demotion. -/
def demoted (n : ℕ) : List (Event Request) := List.replicate n (.turn 0) ++ [demotion]

/-- A load that has read the user when the demotion comes, and the turns of the demotion. -/
def overtaking (n : ℕ) : List (Event Request) :=
  List.replicate n (.turn 1) ++ demotion :: (List.replicate 2 (.turn 0) ++ [.start (.load 2 false)])

/-- The demotion has ended; the load stores what it has read; another load starts. -/
def servedStale : List (Event Request) := [.turn 2, .start (.load 2 false), .turn 0] ++ overtaking 5

end Cache

end AuditSphere.Sessions
