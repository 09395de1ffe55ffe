import AuditSphere.Risks.Service
import AuditSphere.Workpapers.History
import Mathlib.Algebra.BigOperators.Group.List.Basic
import Mathlib.Tactic.IntervalCases

/-!
# The heat map of risks

Every risk is to have its place in the heat map: the residual likelihood and impact are integers
from 1 to 5, and the cells count each risk once (`Complete`). The formula gives fractions, though,
for most likelihoods, impacts and controls: for the middle of all three scales, which are the
defaults, it gives 1.8 and 2.4. The columns do not take them, and the request ends with an error
(`refused_of_fraction`).
-/

namespace AuditSphere.Risks

open Prisma Theory Shared

/-! ### Cells -/

/-- Where a risk is in the heat map. -/
def placeOf (r : WithId Risk) : ℤ × ℤ := (r.2.residualLikelihood, r.2.residualImpact)

/-- How many of the risks are at a place. -/
def countAt (risks : List (WithId Risk)) (p : ℤ × ℤ) : ℕ := (risks.filter fun r => placeOf r = p).length

section Lookup

variable {κ ν : Type} [BEq κ] [LawfulBEq κ] {f : κ → ν} {l : List κ} {k : κ}

theorem lookup_of_mem (h : k ∈ l) : (l.map fun k => (k, f k)).lookup k = some (f k) := by
  induction l with
  | nil => cases h
  | cons a l ih =>
    by_cases hk : k = a
    · simp [hk]
    · have hbeq : (k == a) = false := beq_false_of_ne hk
      simp [List.lookup_cons, hbeq, ih ((List.mem_cons.mp h).resolve_left hk)]

theorem lookup_of_not_mem (h : k ∉ l) : (l.map fun k => (k, f k)).lookup k = none := by
  induction l with
  | nil => rfl
  | cons a l ih =>
    obtain ⟨hk, hrest⟩ := not_or.mp fun h' => h (List.mem_cons.mpr h')
    have hbeq : (k == a) = false := beq_false_of_ne hk
    simp [List.lookup_cons, hbeq, ih hrest]

end Lookup

/-- The group of a place counts the risks there, and without a group there are none. -/
theorem lookup_groups (risks : List (WithId Risk)) (p : ℤ × ℤ) :
    ((groups risks).lookup p).getD 0 = countAt risks p := by
  have hgroups : groups risks = ((risks.map placeOf).eraseDups.map fun k => (k, countAt risks k)) := rfl
  rw [hgroups]
  by_cases hp : p ∈ risks.map placeOf
  · rw [lookup_of_mem (List.mem_eraseDups.mpr hp)]
    rfl
  · rw [lookup_of_not_mem fun h => hp (List.mem_eraseDups.mp h)]
    have hnone : risks.filter (fun r => placeOf r = p) = [] := by
      rw [List.filter_eq_nil_iff]
      intro r hr heq
      exact hp (List.mem_map.mpr ⟨r, hr, of_decide_eq_true heq⟩)
    simp [countAt, hnone]

theorem countAt_cons (r : WithId Risk) (risks : List (WithId Risk)) (p : ℤ × ℤ) :
    countAt (r :: risks) p = (if placeOf r = p then 1 else 0) + countAt risks p := by
  unfold countAt
  by_cases h : placeOf r = p
  · simp [h, Nat.add_comm]
  · simp [h]

/-- Among places that are pairwise different, one at most is a given place. -/
theorem sum_indicator {places : List (ℤ × ℤ)} (hnodup : places.Nodup) (q : ℤ × ℤ) :
    (places.map fun p => if q = p then 1 else 0).sum = if q ∈ places then 1 else 0 := by
  induction places with
  | nil => rfl
  | cons p places ih =>
    obtain ⟨hp, hrest⟩ := List.nodup_cons.mp hnodup
    rw [List.map_cons, List.sum_cons, ih hrest]
    by_cases hq : q = p
    · subst hq
      simp [hp]
    · simp [hq]

/-- Places that are pairwise different count each risk once, if it is at one of them. -/
theorem sum_countAt {places : List (ℤ × ℤ)} (hnodup : places.Nodup) {risks : List (WithId Risk)}
    (h : ∀ r ∈ risks, placeOf r ∈ places) : (places.map (countAt risks)).sum = risks.length := by
  induction risks with
  | nil =>
    refine List.sum_eq_zero fun n hn => ?_
    obtain ⟨p, -, rfl⟩ := List.mem_map.mp hn
    rfl
  | cons r risks ih =>
    obtain ⟨hr, hrest⟩ := List.forall_mem_cons.mp h
    have hsplit : (places.map (countAt (r :: risks))).sum =
        (places.map fun p => if placeOf r = p then 1 else 0).sum + (places.map (countAt risks)).sum := by
      rw [← List.sum_map_add]
      exact congrArg List.sum (List.map_congr_left fun p _ => countAt_cons r risks p)
    rw [hsplit, sum_indicator hnodup, if_pos hr, ih hrest, List.length_cons, Nat.add_comm]

/-- The places of the cells. -/
def places : List (ℤ × ℤ) := grid.map fun p => ((p.1 : ℤ), (p.2 : ℤ))

theorem places_nodup : places.Nodup := by decide

theorem mem_places {l i : ℤ} : (l, i) ∈ places ↔ (1 ≤ l ∧ l ≤ 5) ∧ 1 ≤ i ∧ i ≤ 5 := by
  constructor
  · intro h
    have hall : ∀ p ∈ places, (1 ≤ p.1 ∧ p.1 ≤ 5) ∧ 1 ≤ p.2 ∧ p.2 ≤ 5 := by decide
    exact hall (l, i) h
  · rintro ⟨⟨hl, hl'⟩, hi, hi'⟩
    interval_cases l <;> interval_cases i <;> decide

/-! ### What the heat map is to show -/

/-- The residual likelihood and impact are from 1 to 5. -/
def InRange (s : Portfolio) : Prop := ∀ id r, s.risks.find id = some r → placeOf (id, r) ∈ places

/-- Each risk of a status is counted in one cell, and the counts of the cells add up to the number of risks. -/
def Complete (s : Portfolio) : Prop := ∀ (ctx : Ctx) (status : RiskStatus) (t : Thresholds),
  let risks := withStatus ctx s status
  (∀ r ∈ risks, ∃! c, c ∈ cells risks t ∧ ((c.likelihood : ℤ), (c.impact : ℤ)) = placeOf r) ∧
    (∀ c ∈ cells risks t, c.count = countAt risks (c.likelihood, c.impact)) ∧
    ((cells risks t).map Cell.count).sum = risks.length

theorem InRange.complete {s : Portfolio} (h : InRange s) : Complete s := by
  intro ctx status t
  have hplaces : ∀ r ∈ withStatus ctx s status, placeOf r ∈ places := by
    rintro ⟨id, r⟩ hr
    have hrow : (id, r) ∈ ctx.findMany s.risks fun _ r => r.deletedAt.isNone && r.status = status := hr
    exact h id r ((Table.mem_rows_iff s.risks _ id r).mp hrow).1
  have hcount : ∀ c ∈ cells (withStatus ctx s status) t,
      c.count = countAt (withStatus ctx s status) (c.likelihood, c.impact) := by
    intro c hc
    obtain ⟨p, -, rfl⟩ := List.mem_map.mp hc
    exact lookup_groups _ _
  refine ⟨fun r hr => ?_, hcount, ?_⟩
  · obtain ⟨p, hp, heq⟩ := List.mem_map.mp (hplaces r hr)
    refine ⟨_, ⟨List.mem_map.mpr ⟨p, hp, rfl⟩, heq⟩, ?_⟩
    rintro c ⟨hc, hplace⟩
    obtain ⟨q, -, rfl⟩ := List.mem_map.mp hc
    have hpq : q = p := by
      have := hplace.trans heq.symm
      simp only [Prod.mk.injEq, Nat.cast_inj] at this
      exact Prod.ext this.1 this.2
    rw [hpq]
  · rw [← sum_countAt places_nodup hplaces]
    unfold cells places
    rw [List.map_map, List.map_map]
    exact congrArg List.sum (List.map_congr_left fun p _ => lookup_groups _ _)

/-! ### What is written -/

/-- The residual columns are what the formula makes of the inputs. -/
def Scored (i : Inputs) (c : Scores) : Prop :=
  (c.residualLikelihood : ℚ) = residualLikelihood i.inherentLikelihood i.controlEffectiveness ∧
    (c.residualImpact : ℚ) = residualImpact i.inherentImpact i.controlEffectiveness

theorem intColumn_ok {q : ℚ} {z : ℤ} (h : intColumn q = .ok z) : (z : ℚ) = q := by
  unfold intColumn at h
  split at h
  · rename_i hint
    cases h
    exact (Rat.den_eq_one_iff q).mp (by simpa [Rat.isInt] using hint)
  · cases h

theorem columns_ok {r : RiskScoreResult} {c : Scores} (h : r.columns = .ok c) :
    (c.residualLikelihood : ℚ) = r.residualLikelihood ∧ (c.residualImpact : ℚ) = r.residualImpact := by
  obtain ⟨l, hl, h⟩ := Prog.bind_eq_ok.mp h
  obtain ⟨i, hi, h⟩ := Prog.bind_eq_ok.mp h
  obtain ⟨_, -, h⟩ := Prog.bind_eq_ok.mp h
  obtain ⟨_, -, h⟩ := Prog.bind_eq_ok.mp h
  cases h
  exact ⟨intColumn_ok hl, intColumn_ok hi⟩

theorem computeScores_ok {i : Inputs} {threshold : Option ℚ} {params : ModelParams} {c : Scores}
    (h : (computeScores i threshold params).columns = .ok c) : Scored i c := columns_ok h

/-- The clamped values are from 1 to 5. -/
theorem Scored.inRange {i : Inputs} {c : Scores} (h : Scored i c) :
    (c.residualLikelihood, c.residualImpact) ∈ places := by
  have hclamp : ∀ {z : ℤ} {q : ℚ}, (z : ℚ) = clamp q 1 5 → 1 ≤ z ∧ z ≤ 5 := by
    intro z q hz
    obtain ⟨hlow, hhigh⟩ := clamp_mem q
    rw [← hz] at hlow hhigh
    exact ⟨by exact_mod_cast hlow, by exact_mod_cast hhigh⟩
  exact mem_places.mpr ⟨hclamp h.1, hclamp h.2⟩

/-- Every risk is as it was, or has been scored. -/
def Rescored (s s' : Portfolio) : Prop :=
  ∀ id r', s'.risks.find id = some r' → s.risks.find id = some r' ∨ Scored r'.toInputs r'.toScores

theorem Rescored.refl (s : Portfolio) : Rescored s s := fun _ _ h => .inl h

theorem Rescored.trans {a b c : Portfolio} (h : Rescored a b) (h' : Rescored b c) : Rescored a c := by
  intro id r hr
  rcases h' id r hr with hr | hscored
  · exact h id r hr
  · exact .inr hscored

theorem rescored_of_same {s s' : Portfolio} (h : s'.risks = s.risks) : Rescored s s' :=
  fun _ _ hr => .inl (h ▸ hr)

/-- Every risk is as it was, or has been scored, and the models of scoring stay. -/
structure Rated (s s' : Portfolio) : Prop where
  risks : Rescored s s'
  models : s'.models = s.models

theorem Rated.refl (s : Portfolio) : Rated s s := ⟨.refl s, rfl⟩

theorem Rated.trans {a b c : Portfolio} (h : Rated a b) (h' : Rated b c) : Rated a c :=
  ⟨h.risks.trans h'.risks, h'.models.trans h.models⟩

theorem rated_of_same {s s' : Portfolio} (h : s'.risks = s.risks) (hmodels : s'.models = s.models) : Rated s s' :=
  ⟨rescored_of_same h, hmodels⟩

theorem insertRisk_rated {ctx : Ctx} {dto : CreateRiskDto} {params : ModelParams} {threshold : Option ℚ}
    {s s' : Portfolio} {v : RiskView} (h : insertRisk ctx dto (computeScores dto.inputs threshold params) s = .ok (v, s')) :
    Rated s s' := by
  obtain ⟨scores, hscores, h⟩ := Prog.bind_eq_ok.mp h
  obtain ⟨_, -, h⟩ := Prog.bind_eq_ok.mp h
  obtain ⟨_, -, h⟩ := Prog.bind_eq_ok.mp h
  obtain ⟨risks, hinsert, h⟩ := Prog.bind_eq_ok.mp h
  cases h
  refine ⟨fun id r hr => ?_, rfl⟩
  rw [(insertRow_ok hinsert).2] at hr
  split at hr
  · cases hr
    exact .inr (computeScores_ok hscores)
  · exact .inl hr

/-- An update that scores the row leaves the others. -/
theorem updateRiskRow_rated {ctx : Ctx} {id : Uuid} {f : Risk → Except HttpError Risk} {s s' : Portfolio}
    {v : RiskView} (hf : ∀ r r', f r = .ok r' → Scored r'.toInputs r'.toScores)
    (h : updateRiskRow ctx id f s = .ok (v, s')) : Rated s s' := by
  obtain ⟨⟨r', risks⟩, hupdate, h⟩ := Prog.bind_eq_ok.mp h
  obtain ⟨_, -, h⟩ := Prog.bind_eq_ok.mp h
  cases h
  obtain ⟨r, -, -, hr, hrows⟩ := updateRow_ok hupdate
  refine ⟨fun j r₁ hr₁ => ?_, rfl⟩
  rw [hrows] at hr₁
  split at hr₁
  · cases hr₁
    exact .inr (hf r _ hr)
  · exact .inl hr₁

theorem apply_scores {dto : UpdateRiskDto} {i : Inputs} {c : Scores} {threshold : Option ℚ} {within : Option Bool}
    {r r' : Risk} (h : dto.apply i c threshold within r = .ok r') : r'.toInputs = i ∧ r'.toScores = c := by
  unfold UpdateRiskDto.apply at h
  split at h
  · cases h
  · cases h
    exact ⟨rfl, rfl⟩

/-! ### The requests -/

section Requests

/-- Calls within a relation. -/
abbrev Keeps {α : Type} (F : Portfolio → Portfolio → Prop) (p : Method α) (l : List Portfolio) : Prop :=
  p.Along (fun _ => F) (fun _ _ => True) l

variable {F : Portfolio → Portfolio → Prop}

theorem onDb_keeps (hdb : ∀ s db, F s { s with db }) {α : Type} (p : Service α) (l : List Portfolio) :
    Keeps F (onDb p) l :=
  Prog.along_embed (fun _ => hdb) p l

theorem read_keeps (hrefl : ∀ s, F s s) {α β : Type} {f : Portfolio → α} {k : α → Method β} {l : List Portfolio}
    (h : ∀ a l, Keeps F (k a) l) : Keeps F (.read f >>= k) l :=
  (Prog.along_read_bind f k l).mpr fun s => ⟨hrefl s, h _ _⟩

theorem call_keeps (hrefl : ∀ s, F s s) {α β : Type} {f : Portfolio → Except HttpError (α × Portfolio)}
    {k : α → Method β} {l : List Portfolio} (hf : ∀ s a s', f s = .ok (a, s') → F s s') (h : ∀ a l, Keeps F (k a) l) :
    Keeps F (.call f >>= k) l :=
  Prog.along_call_bind (fun s _ _ => ⟨hrefl s, trivial⟩) fun s a s' hs => ⟨hf s a s' hs, h a _⟩

theorem onDb_rated {α : Type} (p : Service α) (l : List Portfolio) : Keeps Rated (onDb p) l :=
  onDb_keeps (fun _ _ => rated_of_same rfl rfl) p l

theorem defaultModel_rated (ctx : Ctx) (id : Option Uuid) (l : List Portfolio) : Keeps Rated (defaultModel ctx id) l := by
  cases id with
  | none =>
    refine read_keeps .refl fun m l => ?_
    split
    · trivial
    · exact read_keeps .refl fun _ _ => trivial
  | some id =>
    refine read_keeps .refl fun m l => ?_
    split <;> trivial

theorem findRisk_rated (ctx : Ctx) (id : Uuid) (l : List Portfolio) : Keeps Rated (findRisk ctx id) l := by
  refine read_keeps .refl fun r l => ?_
  split <;> trivial

theorem create_rated (ctx : Ctx) (dto : CreateRiskDto) (l : List Portfolio) : Keeps Rated (create ctx dto) l :=
  (defaultModel_rated ctx none l).seq fun _ _ => call_keeps .refl (fun _ _ _ => insertRisk_rated) fun _ l =>
    (onDb_rated _ l).seq fun _ _ => trivial

theorem update_rated (ctx : Ctx) (id : Uuid) (dto : UpdateRiskDto) (l : List Portfolio) :
    Keeps Rated (update ctx id dto) l := by
  refine (findRisk_rated ctx id l).seq fun before l => (defaultModel_rated ctx none l).seq fun params l => ?_
  refine call_keeps .refl (fun s v s' h => ?_) fun _ l => (onDb_rated _ l).seq fun _ _ => trivial
  obtain ⟨scores, hscores, h⟩ := Prog.bind_eq_ok.mp h
  obtain ⟨threshold, -, h⟩ := Prog.bind_eq_ok.mp h
  refine updateRiskRow_rated (fun r r' hr => ?_) h
  obtain ⟨hinputs, hcolumns⟩ := apply_scores hr
  rw [hinputs, hcolumns]
  exact computeScores_ok hscores

theorem recordAssessment_writes (ctx : Ctx) (id : Uuid) (dto : AssessRiskDto) (params : ModelParams)
    (threshold : Option ℚ) :
    (recordAssessment ctx id dto params (computeScores dto.toInputs threshold params)).Writes Rated := by
  refine Txn.Writes.bind (Txn.writes_exec fun s a s' h => ?_) fun a =>
    Txn.Writes.bind (Txn.writes_exec fun s v s' h => ?_) fun _ => trivial
  · obtain ⟨scores, -, h⟩ := Prog.bind_eq_ok.mp h
    unfold insertAssessment at h
    split at h
    · obtain ⟨assessments, -, h⟩ := Prog.bind_eq_ok.mp h
      cases h
      exact rated_of_same rfl rfl
    · cases h
  · obtain ⟨scores, hscores, h⟩ := Prog.bind_eq_ok.mp h
    refine updateRiskRow_rated (fun r r' hr => ?_) h
    cases hr
    exact computeScores_ok hscores

theorem assess_rated (ctx : Ctx) (id : Uuid) (dto : AssessRiskDto) (l : List Portfolio) :
    Keeps Rated (assess ctx id dto) l :=
  (findRisk_rated ctx id l).seq fun risk l => (defaultModel_rated ctx _ l).seq fun params l =>
    ((recordAssessment_writes ctx id dto params risk.appetiteThreshold).committed .refl (fun _ _ _ => .trans) l).seq
      fun _ l => (onDb_rated _ l).seq fun _ _ => trivial

/-- The risks stay. -/
structure Unrated (s s' : Portfolio) : Prop where
  risks : s'.risks = s.risks

theorem Unrated.refl (s : Portfolio) : Unrated s s := ⟨rfl⟩

theorem Unrated.trans {a b c : Portfolio} (h : Unrated a b) (h' : Unrated b c) : Unrated a c :=
  ⟨h'.risks.trans h.risks⟩

theorem clearDefaults_writes (ctx : Ctx) (other : Uuid → Bool) : (clearDefaults ctx other).Writes Unrated :=
  (Txn.writes_query .refl _).bind fun _ => Txn.writes_exec fun _ _ _ h => by
    cases h
    exact ⟨rfl⟩

theorem insertModel_writes (id : Uuid) (m : ScoringModel) : (Txn.exec (insertModel id m)).Writes Unrated := by
  refine Txn.writes_exec fun s a s' h => ?_
  unfold insertModel at h
  split at h
  · cases h
  · obtain ⟨models, -, h⟩ := Prog.bind_eq_ok.mp h
    cases h
    exact ⟨rfl⟩

theorem updateModelRow_writes (ctx : Ctx) (id : Uuid) (dto : UpdateScoringModelDto) :
    (Txn.exec (updateModelRow ctx id dto)).Writes Unrated := by
  refine Txn.writes_exec fun s a s' h => ?_
  obtain ⟨⟨m, models⟩, -, h⟩ := Prog.bind_eq_ok.mp h
  dsimp only at h
  split at h
  · cases h
  · cases h
    exact ⟨rfl⟩

/-- A transaction of models, and its record. -/
theorem committed_unrated {α : Type} {t : Txn Portfolio HttpError α} (ht : t.Writes Unrated) (p : Service Unit)
    (l : List Portfolio) : Keeps Unrated (t.committed >>= fun a => onDb p >>= fun _ => (pure a : Method α)) l :=
  (ht.committed .refl (fun _ _ _ => .trans) l).seq fun _ l =>
    (onDb_keeps (fun _ _ => ⟨rfl⟩) _ l).seq fun _ _ => trivial

theorem createScoringModel_unrated (ctx : Ctx) (dto : CreateScoringModelDto) (l : List Portfolio) :
    Keeps Unrated (createScoringModel ctx dto) l := by
  unfold createScoringModel
  split
  · trivial
  · refine read_keeps .refl fun count l => committed_unrated ?_ _ l
    exact .ite ((clearDefaults_writes ctx _).bind fun _ => insertModel_writes _ _) (insertModel_writes _ _)

theorem updateScoringModel_unrated (ctx : Ctx) (id : Uuid) (dto : UpdateScoringModelDto) (l : List Portfolio) :
    Keeps Unrated (updateScoringModel ctx id dto) l := by
  unfold updateScoringModel
  split
  · trivial
  · refine read_keeps .refl fun before l => ?_
    rw [Keeps, Prog.along_ite]
    split
    · trivial
    · refine committed_unrated ?_ _ l
      exact .ite ((clearDefaults_writes ctx _).bind fun _ => updateModelRow_writes ctx id dto)
        (updateModelRow_writes ctx id dto)

/-- **Every call of a request** leaves the risks as they are, or scores them. -/
theorem serve_rescores (r : Request) (l : List Portfolio) : Keeps Rescored (serve r) l := by
  have hrated : ∀ {p : Method Response}, Keeps Rated p l → Keeps Rescored p l := fun h =>
    h.mono (fun _ _ _ _ h => h.risks) fun _ _ _ h => h
  have hunrated : ∀ {p : Method Response}, Keeps Unrated p l → Keeps Rescored p l := fun h =>
    h.mono (fun _ _ _ _ h => rescored_of_same h.risks) fun _ _ _ h => h
  unfold serve
  rw [Keeps, Prog.along_ite]
  split
  · trivial
  · cases r with
    | create ctx dto => exact hrated ((create_rated ctx dto l).map _)
    | update ctx id dto => exact hrated ((update_rated ctx id dto l).map _)
    | assess ctx id dto => exact hrated ((assess_rated ctx id dto l).map _)
    | createScoringModel ctx dto => exact hunrated ((createScoringModel_unrated ctx dto l).map _)
    | updateScoringModel ctx id dto => exact hunrated ((updateScoringModel_unrated ctx id dto l).map _)

end Requests

theorem Rescored.inRange {s s' : Portfolio} (h : Rescored s s') (hs : InRange s) : InRange s' := by
  intro id r hr
  rcases h id r hr with hold | hscored
  · exact hs id r hold
  · exact hscored.inRange

theorem inRange_after {s : Portfolio} (hs : InRange s) (r : Request) : InRange (after serve s r) :=
  ((serve_rescores r []).meets (fun _ _ _ h => h) s).run_keeps (R := fun _ _ => True) (fun _ => trivial)
    (fun _ _ hs h => h.inRange hs) hs

/-! ### Fractions -/

/-- What a request that gets as far as the scores rates its risk by. -/
def Request.rated (s : Portfolio) (r : Request) : Option Inputs :=
  if !r.ctx.hasPermission r.permission then none
  else match r with
    | .create _ dto => some dto.inputs
    | .update ctx id dto => (ctx.findById s.risks id fun r => r.deletedAt.isNone).map dto.inputs
    | .assess ctx id dto =>
      if dto.scoringModelId.orNull.all fun m => (ctx.findById s.models m fun _ => true).isSome then
        (ctx.findById s.risks id fun r => r.deletedAt.isNone).map fun _ => dto.toInputs
      else none
    | .createScoringModel .. | .updateScoringModel .. => none

/-- The residual likelihood and impact are integers. -/
def Whole (i : Inputs) : Prop :=
  (residualLikelihood i.inherentLikelihood i.controlEffectiveness).isInt = true ∧
    (residualImpact i.inherentImpact i.controlEffectiveness).isInt = true

theorem defaultModel_none (ctx : Ctx) (s : Portfolio) : ∃ params, (defaultModel ctx none).run s = (.ok params, s) := by
  unfold defaultModel
  dsimp only
  rw [Prog.run_bind_of_ok (Prog.run_read _ s)]
  split
  · exact ⟨_, rfl⟩
  · exact ⟨_, rfl⟩

theorem defaultModel_found {ctx : Ctx} {s : Portfolio} {id : Option Uuid}
    (h : id.all fun m => (ctx.findById s.models m fun _ => true).isSome) :
    ∃ params, (defaultModel ctx id).run s = (.ok params, s) := by
  cases id with
  | none => exact defaultModel_none ctx s
  | some id =>
    obtain ⟨m, hm⟩ := Option.isSome_iff_exists.mp (by simpa using h)
    unfold defaultModel
    dsimp only
    rw [Prog.run_bind_of_ok (Prog.run_read _ s), hm]
    exact ⟨_, rfl⟩

theorem findRisk_run {ctx : Ctx} {s : Portfolio} {id : Uuid} {risk : Risk}
    (h : (ctx.findById s.risks id fun r => r.deletedAt.isNone) = some risk) :
    (findRisk ctx id).run s = (.ok risk, s) := by
  unfold findRisk
  rw [Prog.run_bind_of_ok (Prog.run_read _ s), h]
  rfl

/-- The columns do not take a fraction. -/
theorem columns_error {i : Inputs} (h : ¬Whole i) (threshold : Option ℚ) (params : ModelParams) :
    (computeScores i threshold params).columns = .error (.prisma .validation) := by
  unfold RiskScoreResult.columns intColumn
  by_cases hl : (residualLikelihood i.inherentLikelihood i.controlEffectiveness).isInt = true
  · have hi : (residualImpact i.inherentImpact i.controlEffectiveness).isInt = false := by
      simpa [Whole, hl] using h
    simp [computeScores, scoreRisk, hl, hi, bind, Except.bind]
  · simp [computeScores, scoreRisk, hl, bind, Except.bind]

/-- **A fraction is refused**: the request ends with an error, and changes nothing. -/
theorem refused_of_fraction {s : Portfolio} {r : Request} {i : Inputs} (hr : r.rated s = some i) (h : ¬Whole i) :
    (serve r).run s = (.error (.prisma .validation), s) := by
  unfold Request.rated at hr
  split at hr
  · cases hr
  · rename_i hpermitted
    unfold serve
    rw [if_neg hpermitted]
    -- up to the scores the request only looks; then the first write fails
    cases r with
    | create ctx dto =>
      cases hr
      obtain ⟨params, hparams⟩ := defaultModel_none ctx s
      have hcall : insertRisk ctx dto (computeScores dto.inputs dto.appetiteThreshold.orNull params) s =
          .error (.prisma .validation) := by
        rw [insertRisk, columns_error h]
        rfl
      refine Prog.run_bind_of_error ?_ _
      rw [create, Prog.run_bind_of_ok hparams]
      exact Prog.run_bind_of_error (Prog.run_call_of_error hcall) _
    | update ctx id dto =>
      obtain ⟨risk, hrisk, rfl⟩ := Option.map_eq_some_iff.mp hr
      obtain ⟨params, hparams⟩ := defaultModel_none ctx s
      have hcall : ∀ threshold, updateScored ctx id dto (dto.inputs risk) threshold
          (computeScores (dto.inputs risk) threshold params) s = .error (.prisma .validation) := by
        intro threshold
        rw [updateScored, columns_error h]
        rfl
      refine Prog.run_bind_of_error ?_ _
      rw [update, Prog.run_bind_of_ok (findRisk_run hrisk), Prog.run_bind_of_ok hparams]
      exact Prog.run_bind_of_error (Prog.run_call_of_error (hcall _)) _
    | assess ctx id dto =>
      dsimp only at hr
      split at hr
      · rename_i hmodel
        obtain ⟨risk, hrisk, rfl⟩ := Option.map_eq_some_iff.mp hr
        obtain ⟨params, hparams⟩ := defaultModel_found hmodel
        refine Prog.run_bind_of_error ?_ _
        rw [assess, Prog.run_bind_of_ok (findRisk_run hrisk), Prog.run_bind_of_ok hparams]
        refine Prog.run_bind_of_error (Txn.run_committed_of_error ?_) _
        rw [columns_error h]
        rfl
      · cases hr
    | createScoringModel ctx dto => cases hr
    | updateScoringModel ctx id dto => cases hr

/-! ### The claim -/

/-- Five divides `L(6 - C)` or that is no more than five; ten divides `I(11 - C)` or that is no more than ten. -/
def Divides (i : Inputs) : Prop :=
  ((i.inherentLikelihood.val * (6 - i.controlEffectiveness.val) : ℤ) ≤ 5 ∨
    (5 : ℤ) ∣ i.inherentLikelihood.val * (6 - i.controlEffectiveness.val)) ∧
  ((i.inherentImpact.val * (11 - i.controlEffectiveness.val) : ℤ) ≤ 10 ∨
    (10 : ℤ) ∣ i.inherentImpact.val * (11 - i.controlEffectiveness.val))

theorem whole_iff_divides (i : Inputs) : Whole i ↔ Divides i :=
  and_congr (residualLikelihood_isInt_iff _ _) (residualImpact_isInt_iff _ _)

/-- The residual likelihood and impact of the risk that a request rates are integers from 1 to 5, so that the
columns take them and the risk has a place in the heat map. -/
def Placed (s : Portfolio) (r : Request) : Prop :=
  ∀ i ∈ r.rated s, ∃ c : Scores, Scored i c ∧ (c.residualLikelihood, c.residualImpact) ∈ places

/-- What a request rates its risk by gives integers. -/
def Fits (s : Portfolio) (r : Request) : Prop := ∀ i ∈ r.rated s, Divides i

theorem exists_scored_iff (i : Inputs) :
    (∃ c : Scores, Scored i c ∧ (c.residualLikelihood, c.residualImpact) ∈ places) ↔ Whole i := by
  constructor
  · rintro ⟨c, ⟨hl, hi⟩, -⟩
    unfold Whole
    rw [← hl, ← hi]
    exact ⟨rfl, rfl⟩
  · rintro ⟨hl, hi⟩
    have hint : ∀ {q : ℚ}, q.isInt = true → (q.num : ℚ) = q := fun h =>
      (Rat.den_eq_one_iff _).mp (by simpa [Rat.isInt] using h)
    refine ⟨⟨0, _, _, 0, .low⟩, ⟨hint hl, hint hi⟩, Scored.inRange (i := i) ⟨hint hl, hint hi⟩⟩

theorem placed_iff_fits (s : Portfolio) (r : Request) : Placed s r ↔ Fits s r :=
  forall_congr' fun i => imp_congr_right fun _ => (exists_scored_iff i).trans (whole_iff_divides i)

/-- A request that is not placed stores nothing. -/
theorem refused_of_not_placed {s : Portfolio} {r : Request} (h : ¬Placed s r) :
    (serve r).run s = (.error (.prisma .validation), s) := by
  unfold Placed at h
  push Not at h
  obtain ⟨i, hi, hnone⟩ := h
  refine refused_of_fraction hi fun hwhole => ?_
  obtain ⟨c, hscored, hplace⟩ := (exists_scored_iff i).mpr hwhole
  exact hnone c hscored hplace

instance (i : Inputs) : Decidable (Divides i) := inferInstanceAs (Decidable ((_ ∨ _) ∧ (_ ∨ _)))

instance (s : Portfolio) (r : Request) : Decidable (Fits s r) :=
  inferInstanceAs (Decidable (∀ i ∈ r.rated s, Divides i))

/-- A user who manages and assesses risks. -/
def riskOwner (k : Uuid) : Ctx :=
  { Workpapers.actor 1 k with permissions := [.riskManage, .riskAssess, .riskConfigureScoring] }

/-- The office without risks. -/
def newPortfolio : Portfolio where
  db := Workpapers.office
  risks := .empty
  assessments := .empty
  models := .empty
  categories := .empty
  riskControls := []

/-- A risk with likelihood and impact 5 and no controls; with some controls, it is assessed and retired. -/
def wellRated : List Request :=
  [.update (riskOwner 120) 100 { status := some (some .retired) },
    .assess (riskOwner 110) 100
      { inherentLikelihood := ⟨5, five_on_scale⟩, inherentImpact := ⟨5, five_on_scale⟩,
        controlEffectiveness := ⟨5, five_on_scale⟩, velocity := .fast, periodLabel := "FY2026" },
    .create (riskOwner 100)
      { code := "R-1", title := "Fraud", inherentLikelihood := some (some ⟨5, five_on_scale⟩),
        inherentImpact := some (some ⟨5, five_on_scale⟩), controlEffectiveness := some (some ⟨1, one_on_scale⟩) }]

/-- A risk with the default ratings. -/
def usual : Request := .create (riskOwner 100) { code := "R-1", title := "Fraud" }

end AuditSphere.Risks
