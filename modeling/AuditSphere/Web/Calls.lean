import AuditSphere.Web.Session

/-!
# The calls of a tab

No call is left waiting: one that waits has a refresh to wait for, and goes on when that settles. A
call is sent twice at most, the second time only after a refresh of its tab has succeeded
(`calls_served`).
-/

namespace AuditSphere.Web

open Prisma Theory Shared Auth

/-- What can be said of a call, where `refreshes` says whether its tab awaits a refresh, and `R` that a refresh has
succeeded. -/
structure Call.Served (refreshes : Bool) (R : Prop) (c : Call) : Prop where
  waits : c.stage = .waiting → refreshes = true ∧ c.mayRefresh = true
  once : c.stage = .sent ∨ c.stage = .waiting → c.sends = 1
  twice : c.sends = 1 ∨ (c.sends = 2 ∧ c.mayRefresh = true ∧ R)

/-- What can be said of a tab. -/
structure Tab.Served (R : Prop) (t : Tab) : Prop where
  settled : t.refreshPromise = some (.settled true) → R
  calls : ∀ c ∈ t.calls, c.Served t.refreshes R

namespace Call

variable {refreshes refreshes' ok : Bool} {R R' : Prop} {c : Call}

theorem start_served (path : String) (noRefresh : Bool) : (start path noRefresh).Served refreshes R where
  waits h := by cases h
  once _ := rfl
  twice := .inl rfl

/-- A call that comes to another stage. -/
theorem Served.move (h : c.Served refreshes R) {stage : Stage} (hwaits : stage = .waiting → refreshes' = true ∧ c.mayRefresh = true)
    (honce : stage = .sent ∨ stage = .waiting → c.sends = 1) : { c with stage }.Served refreshes' R where
  waits := hwaits
  once := honce
  twice := h.twice

/-- A call that does not wait does not depend on the refresh. -/
theorem Served.keep (h : c.Served refreshes R) (hR : R → R') (hwaits : c.stage = .waiting → refreshes' = true) :
    c.Served refreshes' R' where
  waits hw := ⟨hwaits hw, (h.waits hw).2⟩
  once := h.once
  twice := h.twice.imp id fun h => ⟨h.1, h.2.1, hR h.2.2⟩

/-- A call goes on once: it has been sent once, and may wait for a refresh. -/
theorem resume_served (hsends : c.sends = 1) (hmay : c.mayRefresh = true) (hR : ok = true → R) :
    (c.resume ok).Served refreshes R := by
  unfold resume
  cases ok with
  | true =>
    rw [if_pos rfl]
    refine ⟨by rintro ⟨⟩, fun h => ?_, .inr ⟨congrArg (· + 1) hsends, hmay, hR rfl⟩⟩
    rcases h with h | h <;> cases h
  | false =>
    rw [if_neg Bool.false_ne_true]
    refine ⟨by rintro ⟨⟩, fun h => ?_, .inl hsends⟩
    rcases h with h | h <;> cases h

end Call

/-- A call of a list in which one has been changed. -/
theorem forall_mem_modify {P Q : Call → Prop} {f : Call → Call} {calls : List Call} {i : ℕ} (h : ∀ c ∈ calls, P c)
    (hkeep : ∀ c, P c → Q c) (hf : ∀ c, calls[i]? = some c → P c → Q (f c)) : ∀ c ∈ calls.modify i f, Q c := by
  intro c hc
  obtain ⟨j, hj⟩ := List.mem_iff_getElem?.mp hc
  rw [List.getElem?_modify] at hj
  obtain ⟨c', hc', rfl⟩ := Option.map_eq_some_iff.mp hj
  have hP := h c' (List.mem_of_getElem? hc')
  by_cases hij : i = j
  · rw [if_pos hij]
    exact hf c' (hij ▸ hc') hP
  · rw [if_neg hij]
    exact hkeep c' hP

namespace Tab.Served

variable {t : Tab} {R : Prop} {cookie : Option String}

theorem start (h : t.Served R) (path : String) (noRefresh : Bool) :
    { t with calls := t.calls ++ [Call.start path noRefresh] }.Served R where
  settled := h.settled
  calls c hc := by
    rcases List.mem_append.mp hc with hc | hc
    · exact h.calls c hc
    · rw [List.mem_singleton.mp hc]
      exact Call.start_served path noRefresh

/-- One call changes, and the refresh does not. -/
theorem modify (h : t.Served R) {i : ℕ} {f : Call → Call}
    (hf : ∀ c, t.calls[i]? = some c → c.Served t.refreshes R → (f c).Served t.refreshes R) :
    { t with calls := t.calls.modify i f }.Served R where
  settled := h.settled
  calls := forall_mem_modify h.calls (fun _ hc => hc) hf

theorem unauthorized (h : t.Served R) {i : ℕ} {c : Call} (hc : t.calls[i]? = some c) (hsent : c.stage = .sent)
    (hmay : c.mayRefresh = true) : (t.unauthorized cookie i).Served R := by
  have honce := (h.calls c (List.mem_of_getElem? hc)).once (.inl hsent)
  unfold Tab.unauthorized
  split
  · refine ⟨by rintro ⟨⟩, forall_mem_modify h.calls (fun c hkept => hkept.keep id fun _ => rfl) fun c' hc' hserved => ?_⟩
    obtain rfl : c = c' := Option.some.inj (hc.symm.trans hc')
    exact hserved.move (fun _ => ⟨rfl, hmay⟩) fun _ => honce
  · rename_i ok hsettled
    refine h.modify fun c' hc' _ => ?_
    obtain rfl : c = c' := Option.some.inj (hc.symm.trans hc')
    refine Call.resume_served honce hmay fun hok => h.settled ?_
    rw [hsettled, hok]
  · rename_i r hunsettled hr
    refine h.modify fun c' hc' hserved => ?_
    obtain rfl : c = c' := Option.some.inj (hc.symm.trans hc')
    refine hserved.move (fun _ => ⟨?_, hmay⟩) fun _ => honce
    unfold Tab.refreshes
    rw [hr]
    cases r with
    | sent _ => rfl
    | handled _ => rfl
    | settled ok => exact absurd rfl (hunsettled ok)

theorem respond (h : t.Served R) (i status : ℕ) : (t.respond cookie i status).Served R := by
  unfold Tab.respond
  split
  · exact h
  · rename_i c hc
    split
    · rename_i hsent
      split
      · rename_i hmay
        exact h.unauthorized hc hsent hmay.2
      · exact h.modify fun c' _ hserved => hserved.move (fun h => by cases h) fun h => by rcases h with h | h <;> cases h
    · refine h.modify fun c' _ hserved => hserved.move (fun h => ?_) fun h => ?_
      · split at h <;> cases h
      · rcases h with h | h <;> (split at h <;> cases h)
    · exact h

theorem abort (h : t.Served R) (i : ℕ) : (t.abort i).Served R := by
  unfold Tab.abort
  refine h.modify fun c _ hserved => ?_
  split
  · exact hserved.move (fun h => by cases h) fun h => by rcases h with h | h <;> cases h
  · exact hserved

/-- All calls that wait go on. -/
theorem settle (h : t.Served R) {R' : Prop} (hR : R → R') {ok : Bool} (hok : ok = true → R') : (t.settle ok).Served R' where
  settled hs := by
    cases hs
    exact hok rfl
  calls c hc := by
    obtain ⟨c, hmem, rfl⟩ := List.mem_map.mp hc
    have hserved := h.calls c hmem
    unfold Call.wake
    split
    · rename_i hwaiting
      exact Call.resume_served (hserved.once (.inr hwaiting)) (hserved.waits hwaiting).2 hok
    · rename_i hwaiting
      exact hserved.keep hR fun hw => absurd hw hwaiting

theorem mono (h : t.Served R) {R' : Prop} (hR : R → R') : t.Served R' where
  settled hs := hR (h.settled hs)
  calls c hc := (h.calls c hc).keep hR fun hw => ((h.calls c hc).waits hw).1

/-- The refresh goes on. -/
theorem proceed (h : t.Served R) {r : Refresh} (hr : r.underWay = true) : { t with refreshPromise := some r }.Served R where
  settled hs := by
    cases hs
    cases hr
  calls c hc := (h.calls c hc).keep id fun _ => hr

/-- The timer clears the refresh: no call waits for it. -/
theorem clear (h : t.Served R) {ok : Bool} (hsettled : t.refreshPromise = some (.settled ok)) :
    { t with refreshPromise := none }.Served R where
  settled hs := by cases hs
  calls c hc := (h.calls c hc).keep id fun hw => by
    have := ((h.calls c hc).waits hw).1
    unfold Tab.refreshes at this
    rw [hsettled] at this
    cases this

end Tab.Served

/-- A refresh of the tab succeeds. -/
def Succeeds (tab : ℕ) (s : System) (e : Event) : Prop := e = .receive tab ∧ ∃ session, s.promise tab = some (.handled (.ret session))

/-- A refresh of the tab has succeeded. -/
abbrev Refreshed (env : Platform) (s₀ : System) (past : List Event) (tab : ℕ) : Prop :=
  Since (serve env) (fun _ _ => False) (Succeeds tab) s₀ past

/-- What happens keeps the tabs served. -/
theorem served_next {env : Platform} {s₀ : System} {past : List Event} (e : Event)
    (h : ∀ tab, ((history (serve env) s₀ past).tabs tab).Served (Refreshed env s₀ past tab)) (tab : ℕ) :
    ((history (serve env) s₀ (e :: past)).tabs tab).Served (Refreshed env s₀ (e :: past) tab) := by
  have hlater (t : ℕ) : Refreshed env s₀ past t → Refreshed env s₀ (e :: past) t := fun hr => .inr ⟨id, hr⟩
  rw [history, after_serve]
  generalize hs : history (serve env) s₀ past = s at h
  have hkept := (h tab).mono (hlater tab)
  have hupdate {tab' : ℕ} {t : Tab} (ht : t.Served (Refreshed env s₀ (e :: past) tab')) :
      ((s.update tab' t).tabs tab).Served (Refreshed env s₀ (e :: past) tab) := by
    by_cases heq : tab = tab'
    · subst heq
      simpa [System.update] using ht
    · simpa [System.update, heq] using hkept
  have hof (tab' : ℕ) := (h tab').mono (hlater tab')
  cases e with
  | call tab' path noRefresh => exact hupdate ((hof tab').start path noRefresh)
  | respond tab' i status => exact hupdate ((hof tab').respond i status)
  | abort tab' i => exact hupdate ((hof tab').abort i)
  | arrive tab' d info =>
    rw [System.next]
    split
    · exact hupdate ((hof tab').proceed rfl)
    · exact hkept
  | turn tab' =>
    rw [System.next]
    split
    · exact hupdate ((hof tab').proceed rfl)
    · exact hkept
  | receive tab' =>
    rw [System.next, System.receive]
    split
    · rename_i session hret
      refine hupdate ((h tab').settle (hlater tab') fun _ => .inl ⟨rfl, session, ?_⟩)
      rw [hs]
      exact hret
    · exact hupdate ((h tab').settle (hlater tab') fun hok => by cases hok)
    · exact hkept
  | lose tab' =>
    rw [System.next, System.lose]
    split
    · exact hupdate ((h tab').settle (hlater tab') fun hok => by cases hok)
    · exact hupdate ((h tab').settle (hlater tab') fun hok => by cases hok)
    · exact hupdate ((h tab').settle (hlater tab') fun hok => by cases hok)
    · exact hkept
  | timer tab' =>
    rw [System.next]
    split
    · rename_i ok hsettled
      exact hupdate ((hof tab').clear hsettled)
    · exact hkept
  | elsewhere u => exact hkept

/-- **Calls are served**: whatever happens, a call that waits has a refresh to wait for, and a call is sent a second time
only after a refresh of its tab has succeeded, and never again. -/
theorem calls_served (env : Platform) (s₀ : System) (h₀ : ∀ tab, s₀.tabs tab = ⟨none, []⟩) (past : List Event) (tab : ℕ)
    (c : Call) (hc : c ∈ ((history (serve env) s₀ past).tabs tab).calls) :
    (c.stage = .waiting → ((history (serve env) s₀ past).tabs tab).refreshes = true) ∧
      (c.sends = 1 ∨ (c.sends = 2 ∧ c.mayRefresh = true ∧ Refreshed env s₀ past tab)) := by
  have hserved : ∀ tab, ((history (serve env) s₀ past).tabs tab).Served (Refreshed env s₀ past tab) := by
    clear hc
    induction past with
    | nil =>
      intro tab
      rw [history, h₀ tab]
      exact ⟨by rintro ⟨⟩, by rintro c ⟨⟩⟩
    | cons e past ih => exact served_next e ih
  have hcall := (hserved tab).calls c hc
  exact ⟨fun hw => (hcall.waits hw).1, hcall.twice⟩

/-- The first call of the page is sent twice. -/
theorem calls_served_page : Refreshed Sessions.platform browser page 0 := by
  have hcall : (⟨"/findings", false, .resent, 2⟩ : Call) ∈
      ((history (serve Sessions.platform) browser page).tabs 0).calls := by decide +kernel
  rcases (calls_served Sessions.platform browser (fun _ => rfl) page 0 _ hcall).2 with hone | ⟨-, -, hrefreshed⟩
  · cases hone
  · exact hrefreshed

end AuditSphere.Web
