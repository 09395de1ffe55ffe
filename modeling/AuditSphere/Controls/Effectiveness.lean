import AuditSphere.Controls.Service
import AuditSphere.Theory.Latest
import AuditSphere.Workpapers.History
import Mathlib.Data.Int.ConditionallyCompleteOrder
import Mathlib.Order.ConditionallyCompleteLattice.Indexed

/-!
# The effectiveness of a control

A control is to show what the latest of its concluded tests says of it (`UpToDate`). The service
sees only the test that it writes: a conclusion that is new overwrites what the control shows,
however old the test is, and nothing else does, so that a test which is reopened or dated anew
leaves the control as it was.

The controls are up to date in every state of a run in which each new conclusion is the latest of
its control, and no other change takes from a control the test that it shows, or dates a test later
(`InOrder`).
-/

namespace AuditSphere.Controls

open Prisma Theory Shared

/-! ### What a control is to show -/

/-- The test is concluded: it was passed, with or without exceptions, or failed. -/
def Concluded (t : ControlTest) : Prop := t.result = .pass ∨ t.result = .passWithExceptions ∨ t.result = .fail

instance (t : ControlTest) : Decidable (Concluded t) := inferInstanceAs (Decidable (_ ∨ _ ∨ _))

/-- The concluded tests of a control. -/
def Concludes (s : Assurance) (controlId i : Uuid) (t : ControlTest) : Prop :=
  s.tests.find i = some t ∧ t.controlId = controlId ∧ Concluded t

/-- Of the concluded tests of the control, this one was made last. -/
def LatestTest (s : Assurance) (controlId i : Uuid) (t : ControlTest) : Prop :=
  Concludes s controlId i t ∧
    ∀ j t', Concludes s controlId j t' → ∀ d' ∈ t'.testedAt, ∃ d ∈ t.testedAt, d' ≤ d

/-- Each control shows the latest of its concluded tests, and is unset without any. -/
def UpToDate (s : Assurance) : Prop := ∀ id c, s.controls.find id = some c →
  (∃ i t, LatestTest s id i t ∧ effectivenessFor t.result = some c.effectiveness ∧ c.lastTestedAt = t.testedAt) ∨
    (∀ i t, ¬Concludes s id i t) ∧ c.effectiveness = .notTested ∧ c.lastTestedAt = none

/-- Every test is one of a control of its tenant, and dated if it is concluded. -/
structure Sound (s : Assurance) : Prop where
  control : ∀ i t, s.tests.find i = some t → ∃ c, s.controls.find t.controlId = some c ∧ c.tenantId = t.tenantId
  dated : ∀ i t, s.tests.find i = some t → Concluded t → ∃ d, t.testedAt = some d

/-! ### Entries and registers -/

/-- What a test says, and since when, if it is concluded. -/
def verdict (t : ControlTest) : Option (Instant × ControlEffectiveness) :=
  (effectivenessFor t.result).bind fun e => t.testedAt.map fun d => (d, e)

/-- The verdicts on a control. -/
def verdicts (s : Assurance) (controlId i : Uuid) : Option (Instant × ControlEffectiveness) :=
  (s.tests.find i).bind fun t => if t.controlId = controlId then verdict t else none

/-- What a control shows. -/
def shown (c : Control) : Option (Instant × ControlEffectiveness) := c.lastTestedAt.map fun d => (d, c.effectiveness)

theorem concluded_iff {t : ControlTest} : Concluded t ↔ ∃ e, effectivenessFor t.result = some e := by
  unfold Concluded
  cases t.result <;> simp [effectivenessFor]

theorem effectivenessFor_tested {r : ControlTestResult} {e : ControlEffectiveness} (h : effectivenessFor r = some e) :
    e ≠ .notTested := by
  cases r <;> simp [effectivenessFor] at h <;> simp [← h]

theorem verdict_eq_some {t : ControlTest} {d : Instant} {e : ControlEffectiveness} :
    verdict t = some (d, e) ↔ effectivenessFor t.result = some e ∧ t.testedAt = some d := by
  simp [verdict, Option.bind_eq_some_iff]

theorem verdicts_eq_some {s : Assurance} {controlId i : Uuid} {v : Instant × ControlEffectiveness} :
    verdicts s controlId i = some v ↔ ∃ t, s.tests.find i = some t ∧ t.controlId = controlId ∧ verdict t = some v := by
  unfold verdicts
  rw [Option.bind_eq_some_iff]
  refine exists_congr fun t => and_congr_right fun _ => ?_
  split <;> simp [*]

theorem shown_eq_some {c : Control} {d : Instant} {e : ControlEffectiveness} :
    shown c = some (d, e) ↔ c.lastTestedAt = some d ∧ c.effectiveness = e := by
  simp [shown]

/-- The control shows the latest verdict, and nothing is known of it without a date. -/
structure Right (s : Assurance) (id : Uuid) (c : Control) : Prop where
  latest : Latest (verdicts s id) (shown c)
  unset : c.lastTestedAt = none → c.effectiveness = .notTested

/-- In terms of the tests themselves. -/
theorem upToDate_iff {s : Assurance} (hs : Sound s) :
    UpToDate s ↔ ∀ id c, s.controls.find id = some c → Right s id c := by
  refine forall_congr' fun id => forall_congr' fun c => imp_congr_right fun _ => ?_
  have hverdict : ∀ {i t}, Concludes s id i t → ∃ d e, verdict t = some (d, e) ∧ verdicts s id i = some (d, e) := by
    rintro i t ⟨hfind, hcontrol, hconcluded⟩
    obtain ⟨e, he⟩ := concluded_iff.mp hconcluded
    obtain ⟨d, hd⟩ := hs.dated i t hfind hconcluded
    have hv := verdict_eq_some.mpr ⟨he, hd⟩
    exact ⟨d, e, hv, verdicts_eq_some.mpr ⟨t, hfind, hcontrol, hv⟩⟩
  have hconcludes : ∀ {i d e}, verdicts s id i = some (d, e) → ∃ t, Concludes s id i t ∧ verdict t = some (d, e) := by
    intro i d e hv
    obtain ⟨t, hfind, hcontrol, hv⟩ := verdicts_eq_some.mp hv
    exact ⟨t, ⟨hfind, hcontrol, concluded_iff.mpr ⟨e, (verdict_eq_some.mp hv).1⟩⟩, hv⟩
  constructor
  · rintro (⟨i, t, ⟨ht, hlast⟩, heffectiveness, hdate⟩ | ⟨hnone, heffectiveness, hdate⟩)
    · obtain ⟨d, e, hv, hvi⟩ := hverdict ht
      obtain ⟨he, hd⟩ := verdict_eq_some.mp hv
      have hshown : shown c = some (d, e) :=
        shown_eq_some.mpr ⟨hdate.trans hd, Option.some.inj (heffectiveness.symm.trans he)⟩
      refine ⟨⟨fun v hv => ⟨i, hvi.trans (hshown.symm.trans hv)⟩, fun j v hv => ⟨(d, e), hshown, ?_⟩⟩, fun h => ?_⟩
      · obtain ⟨t', ht', hv'⟩ := hconcludes hv
        obtain ⟨d₁, hd₁, hle⟩ := hlast j t' ht' v.1 (verdict_eq_some.mp hv').2
        rw [hd, Option.mem_some_iff] at hd₁
        exact hd₁ ▸ hle
      · rw [hdate, hd] at h
        cases h
    · have hshown : shown c = none := by rw [shown, hdate, Option.map_none]
      refine ⟨⟨fun v hv => ?_, fun i v hv => ?_⟩, fun _ => heffectiveness⟩
      · rw [hshown] at hv
        cases hv
      · obtain ⟨t, ht, -⟩ := hconcludes hv
        exact absurd ht (hnone i t)
  · rintro ⟨⟨hentry, hlast⟩, hunset⟩
    cases hshown : shown c with
    | none =>
      have hdate : c.lastTestedAt = none := Option.map_eq_none_iff.mp hshown
      refine .inr ⟨fun i t ht => ?_, hunset hdate, hdate⟩
      obtain ⟨d, e, -, hvi⟩ := hverdict ht
      obtain ⟨v, hv, -⟩ := hlast i _ hvi
      rw [hshown] at hv
      cases hv
    | some v =>
      obtain ⟨i, hvi⟩ := hentry v hshown
      obtain ⟨t, ht, hv⟩ := hconcludes hvi
      obtain ⟨he, hd⟩ := verdict_eq_some.mp hv
      obtain ⟨hdate, heffectiveness⟩ := shown_eq_some.mp hshown
      refine .inl ⟨i, t, ⟨ht, fun j t' ht' d' hd' => ⟨v.1, hd, ?_⟩⟩, he.trans (congrArg some heffectiveness.symm),
        hdate.trans hd.symm⟩
      obtain ⟨d₁, e₁, hv₁, hvj⟩ := hverdict ht'
      obtain ⟨v', hv', hle⟩ := hlast j _ hvj
      rw [hshown, Option.some.injEq] at hv'
      rw [(verdict_eq_some.mp hv₁).2, Option.mem_some_iff] at hd'
      exact hv' ▸ hd' ▸ hle

/-! ### What a request writes -/

/-- The test that a request writes, if it is not refused, under its id. -/
def Request.written (s : Assurance) (r : Request) : Option (WithId ControlTest) :=
  if !r.ctx.hasPermission r.permission then none
  else match r with
    | .createTest ctx controlId dto =>
      if (ctx.findById s.controls controlId fun c => c.deletedAt.isNone).isSome then
        ((insertTest ctx controlId dto s).toOption).map fun a => (ctx.uuid 0, a.1)
      else none
    | .updateTest ctx id dto => (ctx.findById s.tests id fun _ => true).bind fun before =>
      ((updateTestRow ctx id dto before s).toOption).map fun a => (id, a.1)

/-- The result of the test is a new one. -/
def Fresh (s : Assurance) (w : WithId ControlTest) : Prop :=
  (s.tests.find w.1).map ControlTest.result ≠ some w.2.result

instance (s : Assurance) (w : WithId ControlTest) : Decidable (Fresh s w) := inferInstanceAs (Decidable (_ ≠ _))

/-- A control after a test of it has been written. -/
def marked (s : Assurance) (w : WithId ControlTest) (c : Control) : Control :=
  match effectivenessFor w.2.result, w.2.testedAt with
  | some e, some d => if Fresh s w then outcome w.2.testType w.2.result e d c else c
  | _, _ => c

/-- A test has been written, and its outcome applied. -/
structure Wrote (w : WithId ControlTest) (s s' : Assurance) : Prop where
  /-- The control is one of the tenant. -/
  control : ∃ c, s.controls.find w.2.controlId = some c ∧ c.tenantId = w.2.tenantId
  /-- The test is new, or was one of the control before. -/
  owner : ∀ t, s.tests.find w.1 = some t → t.controlId = w.2.controlId
  dated : Concluded w.2 → ∃ d, w.2.testedAt = some d
  tests : ∀ j, s'.tests.find j = if j = w.1 then some w.2 else s.tests.find j
  controls : ∀ j, s'.controls.find j = (s.controls.find j).map fun c => if j = w.2.controlId then marked s w c else c

theorem dateColumn_ok {f : Option ParsedDate} {d : Option Instant} (h : dateColumn f = .ok d) (hf : f.isSome = true) :
    ∃ d', d = some d' := by
  rcases f with _ | _ | d'
  · cases hf
  · cases h
  · cases h
    exact ⟨d', rfl⟩

theorem newTest_ok {ctx : Ctx} {controlId : Uuid} {dto : CreateControlTestDto} {t : ControlTest}
    (h : newTest ctx controlId dto = .ok t) :
    t.controlId = controlId ∧ t.tenantId = ctx.tenantId ∧ (Concluded t → ∃ d, t.testedAt = some d) := by
  obtain ⟨_, -, h⟩ := Prog.bind_eq_ok.mp h
  obtain ⟨_, -, h⟩ := Prog.bind_eq_ok.mp h
  obtain ⟨testedAt, hdate, h⟩ := Prog.bind_eq_ok.mp h
  cases h
  refine ⟨rfl, rfl, fun hconcluded => dateColumn_ok hdate ?_⟩
  unfold CreateControlTestDto.made
  unfold Concluded at hconcluded
  rcases dto.testedAt.orNull with _ | d
  · rcases hr : dto.result.orNull with _ | _ | _ | _ | _ | _ <;> simp [hr] at hconcluded ⊢
  · rfl

theorem apply_ok {ctx : Ctx} {dto : UpdateControlTestDto} {t t' : ControlTest} (h : dto.apply ctx t t = .ok t') :
    t'.controlId = t.controlId ∧ t'.tenantId = t.tenantId ∧
      ((Concluded t → ∃ d, t.testedAt = some d) → Concluded t' → ∃ d, t'.testedAt = some d) := by
  obtain ⟨_, -, h⟩ := Prog.bind_eq_ok.mp h
  obtain ⟨_, -, h⟩ := Prog.bind_eq_ok.mp h
  obtain ⟨testedAt, hdate, h⟩ := Prog.bind_eq_ok.mp h
  split at h
  · rename_i testType exceptions result _ _ hresult
    cases h
    refine ⟨rfl, rfl, fun hdated hconcluded => ?_⟩
    unfold UpdateControlTestDto.made at hdate
    cases hsaid : dto.testedAt.orNull with
    | some d =>
      rw [hsaid] at hdate
      exact dateColumn_ok hdate rfl
    | none =>
      rw [hsaid] at hdate
      dsimp only at hdate
      split at hdate
      · exact dateColumn_ok (f := some (some ctx.now)) hdate rfl
      · -- Without a date of its own, the test keeps its result or had a date.
        rename_i hkept
        cases hdate
        rcases htested : t.testedAt with _ | d
        · have hsame : dto.changes t = false := by simpa [htested] using hkept
          have hold : Concluded t := by
            unfold UpdateControlTestDto.changes at hsame
            rcases hdto : dto.result with _ | _ | r
            · rw [hdto] at hresult
              cases hresult
              exact hconcluded
            · rw [hdto] at hresult
              cases hresult
            · rw [hdto] at hresult hsame
              cases hresult
              have hr : result = t.result := by simpa [Field.orNull] using hsame
              subst hr
              exact hconcluded
          rw [← htested]
          exact hdated hold
        · exact ⟨d, rfl⟩
  · cases h

theorem insertTest_ok {ctx : Ctx} {controlId : Uuid} {dto : CreateControlTestDto} {s s' : Assurance} {t : ControlTest}
    (h : insertTest ctx controlId dto s = .ok (t, s')) :
    newTest ctx controlId dto = .ok t ∧ s.tests.find (ctx.uuid 0) = none ∧ s'.controls = s.controls ∧
      ∀ j, s'.tests.find j = if j = ctx.uuid 0 then some t else s.tests.find j := by
  obtain ⟨t', ht, h⟩ := Prog.bind_eq_ok.mp h
  obtain ⟨_, -, h⟩ := Prog.bind_eq_ok.mp h
  obtain ⟨tests, hinsert, h⟩ := Prog.bind_eq_ok.mp h
  cases h
  obtain ⟨hfresh, hrows⟩ := insertRow_ok hinsert
  exact ⟨ht, hfresh, rfl, hrows⟩

theorem updateTestRow_ok {ctx : Ctx} {id : Uuid} {dto : UpdateControlTestDto} {before t : ControlTest}
    {s s' : Assurance} (h : updateTestRow ctx id dto before s = .ok (t, s')) :
    ∃ t₀, s.tests.find id = some t₀ ∧ dto.apply ctx before t₀ = .ok t ∧ s'.controls = s.controls ∧
      ∀ j, s'.tests.find j = if j = id then some t else s.tests.find j := by
  obtain ⟨⟨t', tests⟩, hupdate, h⟩ := Prog.bind_eq_ok.mp h
  obtain ⟨_, -, h⟩ := Prog.bind_eq_ok.mp h
  cases h
  obtain ⟨t₀, hfind, -, happly, hrows⟩ := updateRow_ok hupdate
  exact ⟨t₀, hfind, happly, rfl, hrows⟩

/-- The outcome is applied to a control of the tenant: it changes that, and nothing else of these tables. -/
theorem applyTestOutcome_run {ctx : Ctx} {t : ControlTest} {s : Assurance} {c : Control}
    (hc : s.controls.find t.controlId = some c) (htenant : c.tenantId = ctx.tenantId)
    (hdated : Concluded t → ∃ d, t.testedAt = some d) :
    ∃ s', (applyTestOutcome ctx t.controlId t.testType t.result t.testedAt).run s = (.ok (), s') ∧
      s'.tests = s.tests ∧ ∀ j, s'.controls.find j = (s.controls.find j).map fun c =>
        if j = t.controlId then
          match effectivenessFor t.result, t.testedAt with
          | some e, some d => outcome t.testType t.result e d c
          | _, _ => c
        else c := by
  unfold applyTestOutcome
  cases he : effectivenessFor t.result with
  | none => exact ⟨s, rfl, rfl, fun j => by simp⟩
  | some e =>
    obtain ⟨d, hd⟩ := hdated (concluded_iff.mpr ⟨e, he⟩)
    have hfound : ctx.findById s.controls t.controlId (fun _ => true) = some c :=
      Ctx.findById_eq_some.mpr ⟨hc, (Ctx.sees_iff_tenant rfl).mpr htenant, rfl⟩
    have hcall : ∀ f : Control → Control, updateControl ctx t.controlId f s =
        .ok ((), { s with controls := s.controls.modify (fun j _ => j = t.controlId) fun _ => f c }) := by
      intro f
      unfold updateControl updateRow
      rw [hfound]
      rfl
    refine ⟨_, Prog.run_call_ok.mpr (hcall _), rfl, fun j => ?_⟩
    rw [Table.find_modify]
    by_cases hj : j = t.controlId
    · subst hj
      simp [hc, hd]
    · simp [hj]

/-- The outcome of an updated test. -/
theorem applyUpdated_run {ctx : Ctx} {before t : ControlTest} {s : Assurance} {c : Control}
    (hc : s.controls.find t.controlId = some c) (htenant : c.tenantId = ctx.tenantId)
    (hdated : Concluded t → ∃ d, t.testedAt = some d) :
    ∃ s', (applyUpdated ctx before t).run s = (.ok (), s') ∧
      s'.tests = s.tests ∧ ∀ j, s'.controls.find j = (s.controls.find j).map fun c =>
        if j = t.controlId then
          match effectivenessFor t.result, t.testedAt with
          | some e, some d => if t.result ≠ before.result then outcome t.testType t.result e d c else c
          | _, _ => c
        else c := by
  unfold applyUpdated
  by_cases hresult : t.result = before.result
  · rw [if_neg (not_not_intro hresult)]
    refine ⟨s, rfl, rfl, fun j => ?_⟩
    rcases effectivenessFor t.result with _ | e <;> rcases t.testedAt with _ | d <;> simp [hresult]
  · rw [if_pos hresult]
    simp only [ne_eq, hresult, not_false_eq_true, if_true]
    exact applyTestOutcome_run hc htenant hdated

/-- **A refused request** changes nothing here. -/
theorem after_of_refused {s : Assurance} {r : Request} (h : r.written s = none) : after serve s r = s := by
  unfold after serve
  unfold Request.written at h
  split at h
  · rename_i hdenied
    rw [if_pos hdenied]
    rfl
  · rename_i hpermitted
    rw [if_neg hpermitted]
    cases r with
    | createTest ctx controlId dto =>
      dsimp only at h ⊢
      rw [createTest, Prog.run_bind_of_ok (Prog.run_read _ s)]
      split at h
      · rename_i hfound
        rw [if_neg (by simpa [Option.isSome_iff_ne_none] using hfound)]
        cases hinsert : insertTest ctx controlId dto s with
        | ok a =>
          rw [hinsert] at h
          cases h
        | error e => rw [Prog.run_bind_of_error (Prog.run_call_of_error hinsert)]
      · rename_i hmissing
        rw [if_pos (by simpa using hmissing)]
        rfl
    | updateTest ctx id dto =>
      dsimp only at h ⊢
      rw [updateTest, Prog.run_bind_of_ok (Prog.run_read _ s)]
      cases hfound : ctx.findById s.tests id fun _ => true with
      | none => rfl
      | some before =>
        rw [hfound, Option.bind_some] at h
        dsimp only
        cases hupdate : updateTestRow ctx id dto before s with
        | ok a =>
          rw [hupdate] at h
          cases h
        | error e => rw [Prog.run_bind_of_error (Prog.run_call_of_error hupdate)]

theorem toOption_eq_some {α : Type} {x : Except HttpError α} {a : α} (h : x.toOption = some a) : x = .ok a := by
  cases x with
  | ok b => exact congrArg Except.ok (Option.some.inj h)
  | error e => cases h

theorem createTest_wrote {ctx : Ctx} {controlId : Uuid} {dto : CreateControlTestDto} {s s₁ : Assurance}
    {t : ControlTest} {c : Control} (hfound : (ctx.findById s.controls controlId fun c => c.deletedAt.isNone) = some c)
    (hinsert : insertTest ctx controlId dto s = .ok (t, s₁)) :
    Wrote (ctx.uuid 0, t) s ((createTest ctx controlId dto).run s).2 := by
  obtain ⟨ht, hfresh, hcontrols, htests⟩ := insertTest_ok hinsert
  obtain ⟨rfl, htenant, hdated⟩ := newTest_ok ht
  obtain ⟨hc, hsees, -⟩ := Ctx.findById_eq_some.mp hfound
  have hctenant : c.tenantId = ctx.tenantId := (Ctx.sees_iff_tenant rfl).mp hsees
  obtain ⟨s₂, hrun, htests₂, hcontrols₂⟩ := applyTestOutcome_run (hcontrols ▸ hc) hctenant hdated
  have hnot : ¬(ctx.findById s.controls t.controlId fun c => c.deletedAt.isNone).isNone = true := by
    rw [hfound]
    exact Bool.false_ne_true
  rw [createTest, Prog.run_bind_of_ok (Prog.run_read _ s), if_neg hnot,
    Prog.run_bind_of_ok (Prog.run_call_ok.mpr hinsert), Prog.run_bind_of_ok hrun]
  refine ⟨⟨c, hc, hctenant.trans htenant.symm⟩, fun t' ht' => ?_, hdated, fun j => ?_, fun j => ?_⟩
  · rw [hfresh] at ht'
    cases ht'
  · exact (congrArg (Table.find · j) htests₂).trans (htests j)
  · refine (hcontrols₂ j).trans ?_
    rw [hcontrols]
    simp [marked, Fresh, hfresh]

theorem updateTest_wrote {ctx : Ctx} {id : Uuid} {dto : UpdateControlTestDto} {s s₁ : Assurance} (hs : Sound s)
    {before t : ControlTest} (hfound : (ctx.findById s.tests id fun _ => true) = some before)
    (hupdate : updateTestRow ctx id dto before s = .ok (t, s₁)) :
    Wrote (id, t) s ((updateTest ctx id dto).run s).2 := by
  obtain ⟨hbefore, hsees, -⟩ := Ctx.findById_eq_some.mp hfound
  have htenant : before.tenantId = ctx.tenantId := (Ctx.sees_iff_tenant rfl).mp hsees
  obtain ⟨t₀, ht₀, happly, hcontrols, htests⟩ := updateTestRow_ok hupdate
  rw [hbefore, Option.some.injEq] at ht₀
  subst ht₀
  obtain ⟨hcontrol, htenant', hdated⟩ := apply_ok happly
  have hdated := hdated (hs.dated id before hbefore)
  obtain ⟨c, hc, hctenant⟩ := hs.control id before hbefore
  rw [← hcontrol] at hc
  obtain ⟨s₂, hrun, htests₂, hcontrols₂⟩ := applyUpdated_run (hcontrols ▸ hc) (hctenant.trans htenant) hdated
  rw [updateTest, Prog.run_bind_of_ok (Prog.run_read _ s), hfound]
  dsimp only
  rw [Prog.run_bind_of_ok (Prog.run_call_ok.mpr hupdate), Prog.run_bind_of_ok hrun]
  refine ⟨⟨c, hc, hctenant.trans htenant'.symm⟩, fun t' ht' => ?_, hdated, fun j => ?_, fun j => ?_⟩
  · rw [hbefore, Option.some.injEq] at ht'
    rw [← ht', hcontrol]
  · exact (congrArg (Table.find · j) htests₂).trans (htests j)
  · refine (hcontrols₂ j).trans ?_
    rw [hcontrols]
    simp [marked, Fresh, hbefore, eq_comm]

/-- **What a request writes**, it writes, and applies the outcome. -/
theorem after_of_written {s : Assurance} (hs : Sound s) {r : Request} {w : WithId ControlTest}
    (h : r.written s = some w) : Wrote w s (after serve s r) := by
  unfold after serve
  unfold Request.written at h
  split at h
  · cases h
  · rename_i hpermitted
    rw [if_neg hpermitted]
    cases r with
    | createTest ctx controlId dto =>
      dsimp only at h ⊢
      split at h
      · rename_i hfound
        obtain ⟨c, hc⟩ := Option.isSome_iff_exists.mp hfound
        obtain ⟨⟨t, s₁⟩, hinsert, rfl⟩ := Option.map_eq_some_iff.mp h
        exact createTest_wrote hc (toOption_eq_some hinsert)
      · cases h
    | updateTest ctx id dto =>
      dsimp only at h ⊢
      obtain ⟨before, hfound, h⟩ := Option.bind_eq_some_iff.mp h
      obtain ⟨⟨t, s₁⟩, hupdate, rfl⟩ := Option.map_eq_some_iff.mp h
      exact updateTest_wrote hs hfound (toOption_eq_some hupdate)

/-! ### In order -/

section InOrder

variable (s : Assurance) (w : WithId ControlTest)

/-- The other tests of the control. -/
def others : List ControlTest :=
  (s.tests.rows fun j t => j ≠ w.1 && t.controlId = w.2.controlId).map Prod.snd

/-- No other conclusion on the control is later. -/
def IsLast : Prop := ∀ t ∈ others s w, ∀ v' ∈ verdict t, ∀ v ∈ verdict w.2, v'.1 ≤ v.1

/-- The test is not dated later than the control was tested, and it still says what the control shows, or
another test does, if it did so before. -/
def Unnoticed (c : Control) : Prop :=
  (∀ v ∈ verdict w.2, ∃ d ∈ c.lastTestedAt, v.1 ≤ d) ∧
    ∀ v ∈ shown c, (s.tests.find w.1).bind verdict = some v → verdict w.2 = some v ∨ ∃ t ∈ others s w, verdict t = some v

/-- A new conclusion is the last one, and any other change of a test goes unnoticed. -/
def InOrder (r : Request) : Prop := ∀ w ∈ r.written s,
  if Fresh s w ∧ Concluded w.2 then IsLast s w else ∀ c ∈ s.controls.find w.2.controlId, Unnoticed s w c

variable {s w} {s' : Assurance}

theorem mem_others {t : ControlTest} :
    t ∈ others s w ↔ ∃ j, j ≠ w.1 ∧ s.tests.find j = some t ∧ t.controlId = w.2.controlId := by
  simp [others, Table.mem_rows_iff, and_left_comm]

theorem Wrote.concluded_iff (h : Wrote w s s') : Concluded w.2 ↔ ∃ v, verdict w.2 = some v := by
  constructor
  · intro hconcluded
    obtain ⟨e, he⟩ := Controls.concluded_iff.mp hconcluded
    obtain ⟨d, hd⟩ := h.dated hconcluded
    exact ⟨(d, e), verdict_eq_some.mpr ⟨he, hd⟩⟩
  · rintro ⟨v, hv⟩
    exact Controls.concluded_iff.mpr ⟨v.2, (verdict_eq_some.mp hv).1⟩

/-- The verdicts on the control of the test, after the write. -/
theorem Wrote.verdicts_self (h : Wrote w s s') :
    verdicts s' w.2.controlId = Function.update (verdicts s w.2.controlId) w.1 (verdict w.2) := by
  funext j
  unfold verdicts
  rw [h.tests]
  by_cases hj : j = w.1
  · subst hj
    simp
  · simp [hj]

/-- The verdicts on another control. -/
theorem Wrote.verdicts_other (h : Wrote w s s') {id : Uuid} (hid : id ≠ w.2.controlId) :
    verdicts s' id = verdicts s id := by
  funext j
  unfold verdicts
  rw [h.tests]
  by_cases hj : j = w.1
  · subst hj
    cases hold : s.tests.find w.1 with
    | none => simp [hid.symm]
    | some t => simp [h.owner t hold, hid.symm]
  · simp [hj]

/-- A new conclusion is shown. -/
theorem marked_fresh {v : Instant × ControlEffectiveness} (hv : verdict w.2 = some v) (hfresh : Fresh s w) (c : Control) :
    shown (marked s w c) = some v ∧ (marked s w c).lastTestedAt = some v.1 := by
  obtain ⟨he, hd⟩ := verdict_eq_some.mp hv
  unfold marked outcome shown
  rw [he, hd]
  dsimp only
  rw [if_pos hfresh]
  cases w.2.testType <;> exact ⟨rfl, rfl⟩

/-- Anything else leaves the control. -/
theorem marked_of_not (h : ¬(Fresh s w ∧ ∃ v, verdict w.2 = some v)) (c : Control) : marked s w c = c := by
  unfold marked
  split
  · rename_i e d he hd
    exact if_neg fun hfresh => h ⟨hfresh, (d, e), verdict_eq_some.mpr ⟨he, hd⟩⟩
  · rfl

/-- **One test written**: its control is shown right exactly if that was in order. -/
theorem Wrote.right_iff (h : Wrote w s s') {c : Control} (hright : Right s w.2.controlId c) :
    Right s' w.2.controlId (marked s w c) ↔ if Fresh s w ∧ Concluded w.2 then IsLast s w else Unnoticed s w c := by
  have hother : ∀ j v', (j ≠ w.1 ∧ verdicts s w.2.controlId j = some v') ↔
      ∃ t, (j ≠ w.1 ∧ s.tests.find j = some t ∧ t.controlId = w.2.controlId) ∧ verdict t = some v' := by
    intro j v'
    rw [verdicts_eq_some]
    constructor
    · rintro ⟨hj, t, hfind, hcontrol, hv⟩
      exact ⟨t, ⟨hj, hfind, hcontrol⟩, hv⟩
    · rintro ⟨t, ⟨hj, hfind, hcontrol⟩, hv⟩
      exact ⟨hj, t, hfind, hcontrol, hv⟩
  split
  · rename_i hnew
    obtain ⟨v, hv⟩ := h.concluded_iff.mp hnew.2
    obtain ⟨hshown, hdate⟩ := marked_fresh hv hnew.1 c
    have hput : Right s' w.2.controlId (marked s w c) ↔ Latest (verdicts s' w.2.controlId) (some v) := by
      constructor
      · exact fun hr => hshown ▸ hr.latest
      · refine fun hl => ⟨hshown.symm ▸ hl, fun hnone => ?_⟩
        rw [hdate] at hnone
        cases hnone
    rw [hput, h.verdicts_self, hv, latest_put_iff]
    constructor
    · intro hlast t ht v' hv' v₁ hv₁
      obtain ⟨j, hj⟩ := mem_others.mp ht
      rw [hv, Option.mem_some_iff] at hv₁
      obtain ⟨hne, hj⟩ := (hother j v').mpr ⟨t, hj, hv'⟩
      exact hv₁ ▸ hlast j v' hne hj
    · intro hlast j v' hne hj
      obtain ⟨t, ht, hv'⟩ := (hother j v').mp ⟨hne, hj⟩
      exact hlast t (mem_others.mpr ⟨j, ht⟩) v' hv' v hv
  · rename_i hnot
    rw [h.concluded_iff] at hnot
    rw [marked_of_not hnot]
    have hkeep : Right s' w.2.controlId c ↔ Latest (verdicts s' w.2.controlId) (shown c) :=
      ⟨Right.latest, fun hl => ⟨hl, hright.unset⟩⟩
    rw [hkeep, h.verdicts_self, latest_keep_iff hright.latest, Unnoticed]
    refine and_congr ?_ ?_
    · refine forall_congr' fun v => imp_congr_right fun _ => ?_
      constructor
      · rintro ⟨v', hv', hle⟩
        exact ⟨v'.1, (shown_eq_some.mp hv').1, hle⟩
      · rintro ⟨d, hd, hle⟩
        exact ⟨(d, c.effectiveness), shown_eq_some.mpr ⟨hd, rfl⟩, hle⟩
    · refine forall_congr' fun v => imp_congr_right fun _ => ?_
      have hold : verdicts s w.2.controlId w.1 = (s.tests.find w.1).bind verdict := by
        unfold verdicts
        cases hfind : s.tests.find w.1 with
        | none => rfl
        | some t => simp [h.owner t hfind]
      rw [hold]
      refine imp_congr_right fun _ => or_congr_right ?_
      constructor
      · rintro ⟨j, hj⟩
        obtain ⟨t, ht, hv⟩ := (hother j v).mp hj
        exact ⟨t, mem_others.mpr ⟨j, ht⟩, hv⟩
      · rintro ⟨t, ht, hv⟩
        obtain ⟨j, hj⟩ := mem_others.mp ht
        exact ⟨j, (hother j v).mpr ⟨t, hj, hv⟩⟩

theorem Wrote.sound (h : Wrote w s s') (hs : Sound s) : Sound s' := by
  have hcontrols : ∀ id c, s.controls.find id = some c →
      ∃ c', s'.controls.find id = some c' ∧ c'.tenantId = c.tenantId := by
    intro id c hc
    refine ⟨_, by rw [h.controls, hc, Option.map_some], ?_⟩
    split
    · unfold marked outcome
      split
      · split
        · cases w.2.testType <;> rfl
        · rfl
      · rfl
    · rfl
  refine ⟨fun i t ht => ?_, fun i t ht hconcluded => ?_⟩
  · rw [h.tests] at ht
    split at ht
    · cases ht
      obtain ⟨c, hc, htenant⟩ := h.control
      obtain ⟨c', hc', htenant'⟩ := hcontrols _ c hc
      exact ⟨c', hc', htenant'.trans htenant⟩
    · obtain ⟨c, hc, htenant⟩ := hs.control i t ht
      obtain ⟨c', hc', htenant'⟩ := hcontrols _ c hc
      exact ⟨c', hc', htenant'.trans htenant⟩
  · rw [h.tests] at ht
    split at ht
    · cases ht
      exact h.dated hconcluded
    · exact hs.dated i t ht hconcluded

end InOrder

theorem sound_after {s : Assurance} (hs : Sound s) (r : Request) : Sound (after serve s r) := by
  cases hw : r.written s with
  | none => exact (after_of_refused hw).symm ▸ hs
  | some w => exact (after_of_written hs hw).sound hs

/-- **One request** leaves the controls up to date exactly if what it writes is in order. -/
theorem upToDate_after_iff {s : Assurance} (hs : Sound s) (h : UpToDate s) (r : Request) :
    UpToDate (after serve s r) ↔ InOrder s r := by
  unfold InOrder
  cases hw : r.written s with
  | none =>
    rw [after_of_refused hw]
    exact iff_of_true h fun w hw => by cases hw
  | some w =>
    have hwrote := after_of_written hs hw
    have hright := (upToDate_iff hs).mp h
    obtain ⟨c, hc, -⟩ := hwrote.control
    have hself : (after serve s r).controls.find w.2.controlId = some (marked s w c) := by
      rw [hwrote.controls, hc, Option.map_some, if_pos rfl]
    rw [upToDate_iff (hwrote.sound hs)]
    constructor
    · intro hafter w' hw'
      cases hw'
      have := (hwrote.right_iff (hright _ c hc)).mp (hafter _ _ hself)
      split
      · rename_i hnew
        rwa [if_pos hnew] at this
      · rename_i hnot
        rw [if_neg hnot] at this
        intro c' hc'
        rw [hc, Option.mem_some_iff] at hc'
        exact hc' ▸ this
    · intro horder id c' hc'
      by_cases hid : id = w.2.controlId
      · subst hid
        rw [hself, Option.some.injEq] at hc'
        rw [← hc', hwrote.right_iff (hright _ c hc)]
        have := horder w rfl
        split
        · rename_i hnew
          rwa [if_pos hnew] at this
        · rename_i hnot
          rw [if_neg hnot] at this
          exact this c hc
      · rw [hwrote.controls] at hc'
        obtain ⟨c₀, hc₀, rfl⟩ := Option.map_eq_some_iff.mp hc'
        rw [if_neg hid]
        obtain ⟨hlatest, hunset⟩ := hright id c₀ hc₀
        exact ⟨hwrote.verdicts_other hid ▸ hlatest, hunset⟩

/-- **Controls are up to date** in every state of exactly the runs in which every test is written in order. -/
theorem upToDate_iff_inOrder (s₀ : Assurance) (h₀ : Sound s₀) (h : UpToDate s₀) (past : List Request) :
    Throughout serve UpToDate s₀ past ↔ Always serve InOrder s₀ past :=
  throughout_iff_always (I := Sound) (invariant_of_step h₀ fun _ r hs => sound_after hs r) h
    (fun _ r hs hup => upToDate_after_iff hs hup r) past

instance (s : Assurance) (w : WithId ControlTest) : Decidable (IsLast s w) :=
  inferInstanceAs (Decidable (∀ t ∈ others s w, ∀ v' ∈ verdict t, ∀ v ∈ verdict w.2, v'.1 ≤ v.1))

instance (s : Assurance) (w : WithId ControlTest) (c : Control) : Decidable (Unnoticed s w c) :=
  inferInstanceAs (Decidable ((∀ v ∈ verdict w.2, ∃ d ∈ c.lastTestedAt, v.1 ≤ d) ∧ ∀ v ∈ shown c, _ → _ ∨ ∃ t ∈ others s w, _))

instance (s : Assurance) (r : Request) : Decidable (InOrder s r) :=
  inferInstanceAs (Decidable (∀ w ∈ r.written s,
    if Fresh s w ∧ Concluded w.2 then IsLast s w else ∀ c ∈ s.controls.find w.2.controlId, Unnoticed s w c))

/-! ### A test that is dated back, and one that is reopened -/

/-- A user who tests controls. -/
def tester (k : Uuid) : Ctx := { Workpapers.actor 1 k with permissions := [.controlTest] }

/-- A control that has not been tested. -/
def untested : Assurance where
  db := Workpapers.office
  controls := ⟨[(5, ⟨1, "C-5", "Reconciliation", .notTested, none, none, none, none⟩)], by decide⟩
  tests := .empty

/-- A new test of control 5, with its result and its date. -/
def testing (k : Uuid) (result : ControlTestResult) (testedAt : Instant) : Request :=
  .createTest (tester k) 5
    { testType := .operating, result := some (some result), testedAt := some (some (some testedAt)) }

/-- The result of a test is corrected. -/
def correcting (k id : Uuid) (result : ControlTestResult) : Request :=
  .updateTest (tester k) id { result := some (some result) }

theorem sound_untested : Sound untested := ⟨fun _ _ h => (by cases h), fun _ _ h => (by cases h)⟩

theorem upToDate_untested : UpToDate untested := by
  intro id c hc
  obtain ⟨rfl, rfl⟩ : id = 5 ∧ c = ⟨1, "C-5", "Reconciliation", .notTested, none, none, none, none⟩ := by
    simpa [untested, Table.find_eq_some_iff] using hc
  exact .inr ⟨fun i t ht => (by cases ht.1), rfl, rfl⟩

/-- The control passes, fails later, and that failure is corrected to a pass with exceptions. -/
def inTurn : List Request := [correcting 120 110 .passWithExceptions, testing 110 .fail 80, testing 100 .pass 70]

theorem upToDate_iff_inTurn : Throughout serve UpToDate untested inTurn :=
  (upToDate_iff_inOrder untested sound_untested upToDate_untested inTurn).mpr (by decide +kernel)

/-- A test that failed earlier is entered after one that was passed. -/
def datedBack : List Request := [testing 110 .fail 60, testing 100 .pass 70]

/-- The only test is under way again. -/
def reopened : List Request := [correcting 110 100 .inProgress, testing 100 .pass 70]

/-- After the first the control is ineffective since 60, though it passed at 70; after the second it is effective,
though no test of it is concluded. -/
theorem outdated :
    UpToDate untested ∧
      (((history serve untested datedBack).controls.find 5).map shown = some (some (60, .ineffective)) ∧
        ¬UpToDate (history serve untested datedBack)) ∧
      ((history serve untested reopened).controls.find 5).map shown = some (some (70, .effective)) ∧
        ¬UpToDate (history serve untested reopened) := by
  have hpassed : UpToDate (after serve untested (testing 100 .pass 70)) :=
    (upToDate_after_iff sound_untested upToDate_untested _).mpr (by decide +kernel)
  have hsound : Sound (after serve untested (testing 100 .pass 70)) := sound_after sound_untested _
  refine ⟨upToDate_untested, ⟨by decide +kernel, fun h => ?_⟩, by decide +kernel, fun h => ?_⟩
  · have horder : ¬InOrder (after serve untested (testing 100 .pass 70)) (testing 110 .fail 60) := by decide +kernel
    exact horder ((upToDate_after_iff hsound hpassed _).mp h)
  · have horder : ¬InOrder (after serve untested (testing 100 .pass 70)) (correcting 110 100 .inProgress) := by
      decide +kernel
    exact horder ((upToDate_after_iff hsound hpassed _).mp h)

end AuditSphere.Controls
