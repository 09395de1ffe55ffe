import AuditSphere.Risks.HeatMap

/-!
# The default model of scoring

A model that is to be the default takes the place of the others in one transaction: it looks for
the defaults, clears them and writes the model. Under READ COMMITTED it sees what is committed when
it looks, and no index keeps a second default from being committed after that: of two new models,
each of which is to be the default, both may become it (`two_defaults`).

A tenant has one default at most in every state of a run in which, whenever a model becomes the
default, the transaction has seen every other one. The first model of a tenant is always the
default, unless it is declared otherwise.
-/

namespace AuditSphere.Risks

open Prisma Theory Shared

/-! ### The calls of a transaction -/

/-- The models, of which some are not the default any more. -/
def demoted (ids : List Uuid) (s : Portfolio) (j : Uuid) : Option ScoringModel :=
  (s.models.find j).map fun m => if j ∈ ids then { m with isDefault := false } else m

/-- What the transaction has cleared: the defaults when it looked for them, three calls before its commit. -/
def cleared (ctx : Ctx) (other : Uuid → Bool) (l : List Portfolio) : List Uuid :=
  (l[2]?.map (defaults ctx other)).getD []

/-- A call of a request, after those that found `l`. -/
inductive Call : Request → List Portfolio → Portfolio → Portfolio → Prop where
  | quiet {r l s s'} (h : s'.models = s.models) : Call r l s s'
  | created {ctx dto isDefault l s s'}
    (counted : ∃ s₀, l.getLast? = some s₀ ∧ isDefault = dto.isDefault.orNull.getD (ctx.count s₀.models (fun _ _ => true) = 0))
    (looked : isDefault = true → ∃ s₁, l[2]? = some s₁) (fresh : s.models.find (ctx.uuid 0) = none)
    (rows : ∀ j, s'.models.find j = if j = ctx.uuid 0 then some (newModel ctx dto isDefault)
      else demoted (if isDefault then cleared ctx (fun _ => true) l else []) s j) :
    Call (.createScoringModel ctx dto) l s s'
  | updated {ctx id dto m m' l s s'} (row : s.models.find id = some m) (tenant : m.tenantId = ctx.tenantId)
    (happly : dto.apply m = .ok m') (looked : dto.isDefault.orNull = some true → ∃ s₁, l[2]? = some s₁)
    (rows : ∀ j, s'.models.find j = if j = id then some m'
      else demoted (if dto.isDefault.orNull = some true then cleared ctx (fun j => j ≠ id) l else []) s j) :
    Call (.updateScoringModel ctx id dto) l s s'

theorem find_clear (ids : List Uuid) (s : Portfolio) (j : Uuid) : (clear ids s).models.find j = demoted ids s j := by
  unfold clear demoted
  rw [Table.find_modify]
  simp

theorem demoted_nil (s : Portfolio) (j : Uuid) : demoted [] s j = s.models.find j := by
  simp [demoted]

theorem insertModel_ok {id : Uuid} {m : ScoringModel} {s s' : Portfolio} {a : WithId ScoringModel}
    (h : insertModel id m s = .ok (a, s')) :
    s.models.find id = none ∧ ∀ j, s'.models.find j = if j = id then some m else s.models.find j := by
  unfold insertModel at h
  split at h
  · cases h
  · obtain ⟨models, hinsert, h⟩ := Prog.bind_eq_ok.mp h
    cases h
    exact insertRow_ok hinsert

theorem updateModelRow_ok {ctx : Ctx} {id : Uuid} {dto : UpdateScoringModelDto} {s s' : Portfolio}
    {a : WithId ScoringModel} (h : updateModelRow ctx id dto s = .ok (a, s')) :
    ∃ m m', s.models.find id = some m ∧ m.tenantId = ctx.tenantId ∧ dto.apply m = .ok m' ∧
      ∀ j, s'.models.find j = if j = id then some m' else s.models.find j := by
  obtain ⟨⟨m', models⟩, hupdate, h⟩ := Prog.bind_eq_ok.mp h
  dsimp only at h
  split at h
  · cases h
  · cases h
    obtain ⟨m, hfind, hsees, hf, hrows⟩ := updateRow_ok hupdate
    exact ⟨m, m', hfind, (Ctx.sees_iff_tenant rfl).mp hsees, hf, hrows⟩

section Along

variable {P : List Portfolio → Portfolio → Portfolio → Prop} {ctx : Ctx} {l : List Portfolio} {α : Type}
  {f : Portfolio → Except HttpError (α × Portfolio)}

/-- A transaction of one write. -/
theorem exec_along (hsame : ∀ l s, P l s s) (hcommit : ∀ l' s a s', l <:+ l' → f s = .ok (a, s') → P l' s s') :
    (Txn.exec f).committed.Along P (fun _ _ => True) l := by
  unfold Txn.committed
  rw [← Txn.exec_bind_ret]
  refine Txn.along_exec (hsame l) (fun _ _ => trivial) fun s₀ _ _ _ _ _ => ?_
  refine Txn.along_commit (hsame _) (fun _ _ => trivial) fun s s' hs => ⟨?_, trivial⟩
  obtain ⟨v, a, hv, hf⟩ := Txn.followed_ok hs
  cases hv
  exact hcommit _ s a s' ⟨[s₀], rfl⟩ hf

/-- A transaction that clears the defaults, and writes: it looks, clears, writes and commits. -/
theorem clearing_along {other : Uuid → Bool} (hsame : ∀ l s, P l s s)
    (hcommit : ∀ s₀ s₁ s₂ s a s', f (clear (defaults ctx other s₀) s) = .ok (a, s') → P (s₂ :: s₁ :: s₀ :: l) s s') :
    (clearDefaults ctx other >>= fun _ => Txn.exec f).committed.Along P (fun _ _ => True) l := by
  change ((Txn.query (defaults ctx other) >>= fun ids =>
    Txn.exec (fun b => .ok ((), clear ids b)) >>= fun _ => Txn.exec f).after .ok).Along P (fun _ _ => True) l
  refine Txn.along_query (hsame l) (fun _ _ => trivial) fun s₀ v₀ hv₀ => ?_
  cases hv₀
  refine Txn.along_exec (hsame _) (fun _ _ => trivial) fun s₁ _ _ _ _ _ => ?_
  rw [← Txn.exec_bind_ret]
  refine Txn.along_exec (hsame _) (fun _ _ => trivial) fun s₂ _ _ _ _ _ => ?_
  refine Txn.along_commit (hsame _) (fun _ _ => trivial) fun s s' hs => ⟨?_, trivial⟩
  -- The commit clears what was found, and writes.
  obtain ⟨v, a, hv, hf⟩ := Txn.followed_ok hs
  obtain ⟨w, _, hw, hv⟩ := Txn.followed_ok hv
  cases hw
  cases hv
  exact hcommit s₀ s₁ s₂ s a s' hf

end Along

/-! ### The requests -/

theorem createScoringModel_along (ctx : Ctx) (dto : CreateScoringModelDto) :
    (createScoringModel ctx dto).Along (Call (.createScoringModel ctx dto)) (fun _ _ => True) [] := by
  have hsame : ∀ l s, Call (.createScoringModel ctx dto) l s s := fun _ _ => .quiet rfl
  unfold createScoringModel
  split
  · trivial
  · refine (Prog.along_read_bind _ _ _).mpr fun s₀ => ⟨hsame _ _, ?_⟩
    refine Prog.Along.seq ?_ fun _ l => (Prog.along_embed (fun _ _ _ => .quiet rfl) _ l).seq fun _ _ => trivial
    generalize hdefault : dto.isDefault.orNull.getD (ctx.count s₀.models (fun _ _ => true) = 0) = isDefault
    have hcounted : ∀ l, ∃ s, (l ++ [s₀]).getLast? = some s ∧
        isDefault = dto.isDefault.orNull.getD (ctx.count s.models (fun _ _ => true) = 0) :=
      fun l => ⟨s₀, by simp, hdefault.symm⟩
    unfold creating
    split
    · rename_i htrue
      refine clearing_along hsame fun s₁ s₂ s₃ s a s' hinsert => ?_
      obtain ⟨hfresh, hrows⟩ := insertModel_ok hinsert
      rw [find_clear, demoted, Option.map_eq_none_iff] at hfresh
      refine .created (hcounted [s₃, s₂, s₁]) (fun _ => ⟨s₁, rfl⟩) hfresh fun j => ?_
      rw [hrows, find_clear, if_pos htrue]
      rfl
    · rename_i hfalse
      refine exec_along hsame fun l s a s' hl hinsert => ?_
      obtain ⟨hfresh, hrows⟩ := insertModel_ok hinsert
      obtain ⟨front, rfl⟩ := hl
      refine .created (hcounted front) (fun h => absurd h hfalse) hfresh fun j => ?_
      rw [hrows, if_neg hfalse, demoted_nil]

theorem updateScoringModel_along (ctx : Ctx) (id : Uuid) (dto : UpdateScoringModelDto) :
    (updateScoringModel ctx id dto).Along (Call (.updateScoringModel ctx id dto)) (fun _ _ => True) [] := by
  have hsame : ∀ l s, Call (.updateScoringModel ctx id dto) l s s := fun _ _ => .quiet rfl
  unfold updateScoringModel
  split
  · trivial
  · refine (Prog.along_read_bind _ _ _).mpr fun s₀ => ⟨hsame _ _, ?_⟩
    rw [Prog.along_ite]
    split
    · trivial
    · refine Prog.Along.seq ?_ fun _ l => (Prog.along_embed (fun _ _ _ => .quiet rfl) _ l).seq fun _ _ => trivial
      unfold updating
      split
      · rename_i htrue
        refine clearing_along hsame fun s₁ s₂ s₃ s a s' hupdate => ?_
        obtain ⟨m, m', hrow, htenant, happly, hrows⟩ := updateModelRow_ok hupdate
        -- The row itself is not one of those that are cleared.
        have hnot : id ∉ defaults ctx (fun j => j ≠ id) s₁ := by
          intro hmem
          obtain ⟨r, -, -, hr⟩ := Ctx.mem_findMany_iff.mp hmem
          simp at hr
        have hsame' : demoted (defaults ctx (fun j => j ≠ id) s₁) s id = s.models.find id := by
          simp only [demoted, if_neg hnot, Option.map_id']
        rw [find_clear, hsame'] at hrow
        refine .updated hrow htenant happly (fun _ => ⟨s₁, rfl⟩) fun j => ?_
        rw [hrows, find_clear, if_pos htrue]
        rfl
      · rename_i hfalse
        refine exec_along hsame fun l s a s' hl hupdate => ?_
        obtain ⟨m, m', hrow, htenant, happly, hrows⟩ := updateModelRow_ok hupdate
        refine .updated hrow htenant happly (fun h => absurd h hfalse) fun j => ?_
        rw [hrows, if_neg hfalse, demoted_nil]

/-- **Every call of a request** is one of these. -/
theorem serve_along (r : Request) : (serve r).Along (Call r) (fun _ _ => True) [] := by
  have hrated : ∀ {p : Method Response}, Keeps Rated p [] → p.Along (Call r) (fun _ _ => True) [] := fun h =>
    h.mono (fun _ _ _ _ h => .quiet h.models) fun _ _ _ h => h
  unfold serve
  rw [Prog.along_ite]
  split
  · trivial
  · cases r with
    | create ctx dto => exact hrated ((create_rated ctx dto []).map _)
    | update ctx id dto => exact hrated ((update_rated ctx id dto []).map _)
    | assess ctx id dto => exact hrated ((assess_rated ctx id dto []).map _)
    | createScoringModel ctx dto => exact (createScoringModel_along ctx dto).map _
    | updateScoringModel ctx id dto => exact (updateScoringModel_along ctx id dto).map _

/-! ### Defaults -/

/-- The models of a tenant. -/
def modelsOf (tenantId : Uuid) (s : Portfolio) : List Uuid :=
  (s.models.rows fun _ m => m.tenantId = tenantId).map Prod.fst

/-- The default models of a tenant. -/
def defaultsOf (tenantId : Uuid) (s : Portfolio) : List Uuid :=
  (s.models.rows fun _ m => m.tenantId = tenantId && m.isDefault).map Prod.fst

/-- The tenant has one default model at most. -/
def OneDefault (tenantId : Uuid) (s : Portfolio) : Prop := (defaultsOf tenantId s).length ≤ 1

theorem mem_modelsOf {tenantId id : Uuid} {s : Portfolio} :
    id ∈ modelsOf tenantId s ↔ ∃ m, s.models.find id = some m ∧ m.tenantId = tenantId := by
  simp [modelsOf, Table.mem_rows_iff]

theorem mem_defaultsOf {tenantId id : Uuid} {s : Portfolio} :
    id ∈ defaultsOf tenantId s ↔ ∃ m, s.models.find id = some m ∧ m.tenantId = tenantId ∧ m.isDefault = true := by
  simp [defaultsOf, Table.mem_rows_iff]

theorem oneDefault_iff {tenantId : Uuid} {s : Portfolio} :
    OneDefault tenantId s ↔ ∀ i ∈ defaultsOf tenantId s, ∀ j ∈ defaultsOf tenantId s, i = j := by
  have hnodup : (defaultsOf tenantId s).Nodup := (List.filter_sublist.map Prod.fst).nodup s.models.nodup
  unfold OneDefault
  rcases hd : defaultsOf tenantId s with _ | ⟨i, _ | ⟨j, rest⟩⟩
  · simp
  · simp
  · rw [hd] at hnodup
    refine iff_of_false (by simp) fun h => ?_
    have hij : i = j := h i (by simp) j (by simp)
    simp [hij] at hnodup

/-- What the transaction clears are the defaults of its tenant when it looked. -/
theorem mem_cleared {ctx : Ctx} {other : Uuid → Bool} {l : List Portfolio} {j : Uuid} :
    j ∈ cleared ctx other l ↔ ∃ s₁, l[2]? = some s₁ ∧ j ∈ defaultsOf ctx.tenantId s₁ ∧ other j = true := by
  unfold cleared
  cases hl : l[2]? with
  | none => simp
  | some s₁ =>
    rw [Option.map_some, Option.getD_some]
    have hmem : j ∈ defaults ctx other s₁ ↔ j ∈ defaultsOf ctx.tenantId s₁ ∧ other j = true := by
      rw [mem_defaultsOf]
      constructor
      · intro hj
        obtain ⟨m, hm, hsees, hdefault⟩ := Ctx.mem_findMany_iff.mp hj
        rw [Bool.and_eq_true] at hdefault
        exact ⟨⟨m, hm, (Ctx.sees_iff_tenant rfl).mp hsees, hdefault.1⟩, hdefault.2⟩
      · rintro ⟨⟨m, hm, htenant, hdefault⟩, hother⟩
        refine Ctx.mem_findMany_iff.mpr ⟨m, hm, (Ctx.sees_iff_tenant rfl).mpr htenant, ?_⟩
        rw [hdefault, hother]
        rfl
    rw [hmem]
    simp

/-- A model is the default after a call that writes the model `id`. -/
theorem mem_defaultsOf_written {tenantId id j : Uuid} {ids : List Uuid} {m' : ScoringModel} {s s' : Portfolio}
    (rows : ∀ j, s'.models.find j = if j = id then some m' else demoted ids s j) :
    j ∈ defaultsOf tenantId s' ↔ if j = id then m'.tenantId = tenantId ∧ m'.isDefault = true
      else j ∈ defaultsOf tenantId s ∧ j ∉ ids := by
  rw [mem_defaultsOf, rows]
  by_cases hj : j = id
  · simp [hj]
  · simp only [hj, if_false, demoted, Option.map_eq_some_iff]
    rw [mem_defaultsOf]
    constructor
    · rintro ⟨m, ⟨m₀, hm₀, rfl⟩, htenant, hdefault⟩
      by_cases hids : j ∈ ids
      · simp [hids] at hdefault
      · simp only [hids, if_false] at htenant hdefault
        exact ⟨⟨m₀, hm₀, htenant, hdefault⟩, hids⟩
    · rintro ⟨⟨m₀, hm₀, htenant, hdefault⟩, hids⟩
      exact ⟨m₀, ⟨m₀, hm₀, by rw [if_neg hids]⟩, htenant, hdefault⟩

/-! ### One default -/

/-- If a model becomes the default, each that is the default was it already when the transaction looked. -/
def SeenAll (tenantId : Uuid) (l : List Portfolio) (s s' : Portfolio) : Prop :=
  ∀ id ∈ defaultsOf tenantId s', id ∉ defaultsOf tenantId s →
    ∀ j ∈ defaultsOf tenantId s, ∀ s₁ ∈ l[2]?, j ∈ defaultsOf tenantId s₁

theorem seenAll_of_subset {tenantId : Uuid} {l : List Portfolio} {s s' : Portfolio}
    (h : ∀ id ∈ defaultsOf tenantId s', id ∈ defaultsOf tenantId s) : SeenAll tenantId l s s' :=
  fun id hid hnot => absurd (h id hid) hnot

theorem oneDefault_of_subset {tenantId : Uuid} {s s' : Portfolio} (hs : OneDefault tenantId s)
    (h : ∀ id ∈ defaultsOf tenantId s', id ∈ defaultsOf tenantId s) : OneDefault tenantId s' :=
  oneDefault_iff.mpr fun i hi j hj => oneDefault_iff.mp hs i (h i hi) j (h j hj)

/-- A write of a model leaves one default exactly if, when that becomes the default, all others are cleared. -/
theorem written_oneDefault_iff {tenantId id : Uuid} {ids : List Uuid} {m' : ScoringModel} {l : List Portfolio}
    {s s' : Portfolio} (rows : ∀ j, s'.models.find j = if j = id then some m' else demoted ids s j)
    (hids : m'.tenantId = tenantId → m'.isDefault = true → id ∉ defaultsOf tenantId s →
      ∀ j ∈ defaultsOf tenantId s, (j ∈ ids ↔ ∀ s₁ ∈ l[2]?, j ∈ defaultsOf tenantId s₁))
    (hs : OneDefault tenantId s) : OneDefault tenantId s' ↔ SeenAll tenantId l s s' := by
  have hwritten : ∀ j, j ∈ defaultsOf tenantId s' ↔ _ := fun j => mem_defaultsOf_written rows
  by_cases hsubset : ∀ j ∈ defaultsOf tenantId s', j ∈ defaultsOf tenantId s
  · exact iff_of_true (oneDefault_of_subset hs hsubset) (seenAll_of_subset hsubset)
  · push Not at hsubset
    obtain ⟨j, hj, hnew⟩ := hsubset
    -- Only the model that is written can become the default.
    have hjid : j = id := by
      by_contra hne
      have := (hwritten j).mp hj
      rw [if_neg hne] at this
      exact hnew this.1
    subst hjid
    have hpromoted := (hwritten j).mp hj
    rw [if_pos rfl] at hpromoted
    have hcleared := hids hpromoted.1 hpromoted.2 hnew
    rw [oneDefault_iff]
    constructor
    · intro hone i hi hinew k hk
      refine (hcleared k hk).mp ?_
      by_contra hnot
      have hne : k ≠ j := fun heq => hnew (heq ▸ hk)
      have hkept : k ∈ defaultsOf tenantId s' := (hwritten k).mpr (by rw [if_neg hne]; exact ⟨hk, hnot⟩)
      exact hne (hone k hkept j hj)
    · intro hseen
      have honly : ∀ k ∈ defaultsOf tenantId s', k = j := by
        intro k hk
        by_contra hne
        have hstays := (hwritten k).mp hk
        rw [if_neg hne] at hstays
        exact hstays.2 ((hcleared k hstays.1).mpr (hseen j hj hnew k hstays.1))
      exact fun i hi k hk => (honly i hi).trans (honly k hk).symm

theorem apply_ok {dto : UpdateScoringModelDto} {m m' : ScoringModel} (h : dto.apply m = .ok m') :
    m'.tenantId = m.tenantId ∧ dto.isDefault.onRequired m.isDefault = some m'.isDefault := by
  unfold UpdateScoringModelDto.apply at h
  split at h
  · rename_i hdefault
    cases h
    exact ⟨rfl, hdefault⟩
  · cases h

/-- **A call** leaves one default exactly if the transaction has seen every other one. -/
theorem Call.oneDefault_iff {r : Request} {l : List Portfolio} {s s' : Portfolio} (h : Call r l s s')
    {tenantId : Uuid} (hs : OneDefault tenantId s) : OneDefault tenantId s' ↔ SeenAll tenantId l s s' := by
  cases h with
  | quiet h =>
    have hsubset : ∀ id ∈ defaultsOf tenantId s', id ∈ defaultsOf tenantId s := by
      unfold defaultsOf
      rw [h]
      exact fun _ h => h
    exact iff_of_true (oneDefault_of_subset hs hsubset) (seenAll_of_subset hsubset)
  | @created ctx dto isDefault _ _ _ counted looked fresh rows =>
    refine written_oneDefault_iff rows (fun htenant htrue _ j _ => ?_) hs
    have hdefault : isDefault = true := htrue
    have hctx : ctx.tenantId = tenantId := htenant
    obtain ⟨s₁, hs₁⟩ := looked hdefault
    rw [if_pos hdefault, mem_cleared, hs₁, hctx]
    simp
  | @updated ctx id dto m m' _ _ _ row tenant happly looked rows =>
    refine written_oneDefault_iff rows (fun htenant htrue hnew j hj => ?_) hs
    obtain ⟨hsame, hdefault⟩ := apply_ok happly
    have hctx : ctx.tenantId = tenantId := tenant.symm.trans (hsame.symm.trans htenant)
    -- The model was not the default, so the request makes it that.
    have hmade : dto.isDefault.orNull = some true := by
      rcases hdto : dto.isDefault with _ | b
      · rw [hdto, htrue] at hdefault
        exact absurd (mem_defaultsOf.mpr ⟨m, row, hsame.symm.trans htenant, Option.some.inj hdefault⟩) hnew
      · rw [hdto, htrue] at hdefault
        exact hdefault
    have hne : j ≠ id := fun heq => hnew (heq ▸ hj)
    obtain ⟨s₁, hs₁⟩ := looked hmade
    rw [if_pos hmade, mem_cleared, hs₁, hctx]
    simp [hne]

/-! ### The first model -/

/-- The models of a tenant stay. -/
def Stays (s s' : Portfolio) : Prop := ∀ tenantId, ∀ id ∈ modelsOf tenantId s, id ∈ modelsOf tenantId s'

theorem demoted_stays {ids : List Uuid} {s : Portfolio} {tenantId j : Uuid} (h : j ∈ modelsOf tenantId s) :
    ∃ m, demoted ids s j = some m ∧ m.tenantId = tenantId := by
  obtain ⟨m, hm, htenant⟩ := mem_modelsOf.mp h
  refine ⟨_, by rw [demoted, hm]; rfl, ?_⟩
  split <;> exact htenant

theorem Call.stays {r : Request} {l : List Portfolio} {s s' : Portfolio} (h : Call r l s s') : Stays s s' := by
  intro tenantId j hj
  cases h with
  | quiet h =>
    unfold modelsOf
    rw [h]
    exact hj
  | created counted looked fresh rows =>
    obtain ⟨m, hm, htenant⟩ := mem_modelsOf.mp hj
    obtain ⟨m', hm', htenant'⟩ := demoted_stays hj
    rw [mem_modelsOf, rows]
    split
    · rename_i heq
      rw [heq, fresh] at hm
      cases hm
    · exact ⟨m', hm', htenant'⟩
  | updated row tenant happly looked rows =>
    obtain ⟨m', hm', htenant'⟩ := demoted_stays hj
    rw [mem_modelsOf, rows]
    split
    · rename_i heq
      obtain ⟨m, hm, htenant⟩ := mem_modelsOf.mp hj
      rw [heq, row] at hm
      cases hm
      exact ⟨_, rfl, (apply_ok happly).1.trans htenant⟩
    · exact ⟨m', hm', htenant'⟩

/-- What a request declares of its new model. -/
def Request.declared : Request → Option Bool
  | .createScoringModel _ dto => dto.isDefault.orNull
  | _ => none

/-- The first model of a tenant is the default, unless it is declared otherwise. -/
def FirstIsDefault (tenantId : Uuid) (r : Request) (s s' : Portfolio) : Prop :=
  modelsOf tenantId s = [] → r.declared ≠ some false → ∀ id ∈ modelsOf tenantId s', id ∈ defaultsOf tenantId s'

/-- The first model was counted when there was none. -/
theorem Call.firstIsDefault {r : Request} {l : List Portfolio} {s s' : Portfolio} (h : Call r l s s')
    (hl : ∀ s₀ ∈ l, Stays s₀ s) (tenantId : Uuid) : FirstIsDefault tenantId r s s' := by
  intro hnone hdeclared j hj
  have hgone : ∀ {ids m}, demoted ids s j = some m → m.tenantId ≠ tenantId := by
    intro ids m hm htenant
    obtain ⟨m₀, hm₀, rfl⟩ := Option.map_eq_some_iff.mp hm
    have hmem : j ∈ modelsOf tenantId s := mem_modelsOf.mpr ⟨m₀, hm₀, by split at htenant <;> exact htenant⟩
    rw [hnone] at hmem
    cases hmem
  obtain ⟨m, hm, htenant⟩ := mem_modelsOf.mp hj
  cases h with
  | quiet h =>
    unfold modelsOf at hj hnone
    rw [h, hnone] at hj
    cases hj
  | @created ctx dto isDefault _ _ _ counted looked fresh rows =>
    rw [rows] at hm
    split at hm
    · rename_i heq
      cases hm
      have hctx : ctx.tenantId = tenantId := htenant
      obtain ⟨s₀, hs₀, hdefault⟩ := counted
      have hcount : ctx.count s₀.models (fun _ _ => true) = 0 := by
        by_contra hsome
        obtain ⟨i, m₀, hm₀, hsees, -⟩ := Ctx.count_ne_zero_iff.mp hsome
        have hmem := hl s₀ (List.mem_of_getLast? hs₀) tenantId i
          (mem_modelsOf.mpr ⟨m₀, hm₀, ((Ctx.sees_iff_tenant rfl).mp hsees).trans hctx⟩)
        rw [hnone] at hmem
        cases hmem
      have htrue : isDefault = true := by
        rw [hdefault, hcount]
        rcases hdto : dto.isDefault.orNull with _ | _ | _
        · rfl
        · exact absurd hdto hdeclared
        · rfl
      rw [mem_defaultsOf, rows, if_pos heq]
      exact ⟨_, rfl, hctx, htrue⟩
    · exact absurd htenant (hgone hm)
  | @updated ctx id dto m₀ m' _ _ _ row tenant happly looked rows =>
    rw [rows] at hm
    split at hm
    · cases hm
      have hmem : id ∈ modelsOf tenantId s := mem_modelsOf.mpr ⟨m₀, row, (apply_ok happly).1.symm.trans htenant⟩
      rw [hnone] at hmem
      cases hmem
    · exact absurd htenant (hgone hm)

/-! ### Runs -/

section Runs

variable (tenantId : Uuid) (s₀ : Portfolio)

/-- The database after a run: what is committed. -/
abbrev at_ (evs : List (Event Request)) : Portfolio := (interleave serve s₀ evs).st

/-- What a request has seen. -/
abbrev saw (j : ℕ) (evs : List (Event Request)) : List Portfolio := seen serve s₀ j evs

/-- Whenever a model becomes the default of the tenant, its transaction has seen every other default. -/
def AllSeen (past : List (Event Request)) : Event Request → Prop
  | .start _ => True
  | .turn i => SeenAll tenantId (saw s₀ i past) (at_ s₀ past) (at_ s₀ (.turn i :: past))

/-- A turn that adds the first model of the tenant makes it the default, unless it is declared otherwise. -/
def FirstAtTurn (past : List (Event Request)) : Event Request → Prop
  | .start _ => True
  | .turn i => ∀ r ∈ requested serve s₀ i past, FirstIsDefault tenantId r (at_ s₀ past) (at_ s₀ (.turn i :: past))

theorem stays_turn (past : List (Event Request)) (i : ℕ) :
    Stays (at_ s₀ past) ((interleave serve s₀ past).next serve (.turn i)).st := by
  rcases along_turn s₀ serve_along past i with hsame | ⟨th, -, hcall⟩
  · rw [hsame]
    exact fun _ _ h => h
  · exact hcall.stays

/-- What a request has seen has stayed since. -/
theorem stays_of_saw {j : ℕ} {evs : List (Event Request)} {s : Portfolio} (h : s ∈ saw s₀ j evs) :
    Stays s (at_ s₀ evs) := by
  obtain ⟨l₁, l₂, hl⟩ := List.append_of_mem h
  obtain ⟨mid, past, rfl, -, rfl, -⟩ := seen_split hl
  have hlater := interleave_rel (fun _ _ _ h => h) (fun _ _ _ h h' t id hid => h' t id (h t id hid)) (stays_turn s₀)
    (mid ++ [.turn j]) past
  rwa [List.append_assoc] at hlater

variable {tenantId s₀}

theorem oneDefault_turn_iff {past : List (Event Request)} (hs : OneDefault tenantId (at_ s₀ past)) (i : ℕ) :
    OneDefault tenantId (at_ s₀ (.turn i :: past)) ↔ AllSeen tenantId s₀ past (.turn i) := by
  rcases along_turn s₀ serve_along past i with hsame | ⟨th, -, hcall⟩
  · have hst : at_ s₀ (.turn i :: past) = at_ s₀ past := congrArg Config.st hsame
    refine iff_of_true (hst ▸ hs) (seenAll_of_subset ?_)
    rw [hst]
    exact fun _ h => h
  · exact hcall.oneDefault_iff hs

theorem first_at_turn (past : List (Event Request)) (e : Event Request) : FirstAtTurn tenantId s₀ past e := by
  cases e with
  | start r => trivial
  | turn i =>
    intro r hr
    rcases turn_cases s₀ serve_along past i with ⟨hsame, -⟩ | ⟨r', hr', -, -, -, hcall⟩
    · intro hnone _ id hid
      have hst : at_ s₀ (.turn i :: past) = at_ s₀ past := congrArg Config.st hsame
      rw [hst, hnone] at hid
      cases hid
    · cases hr.symm.trans hr'
      exact hcall.firstIsDefault (fun s hs => stays_of_saw s₀ hs) tenantId

end Runs

/-- **One default model**: every state of a run has one default of the tenant at most, exactly if, whenever a model
becomes the default, its transaction has seen every other one; and the first model is always the default, unless it
is declared otherwise. -/
theorem defaults_iff (tenantId : Uuid) (s₀ : Portfolio) (h₀ : OneDefault tenantId s₀) (evs : List (Event Request)) :
    ((∀ past, past <:+ evs → OneDefault tenantId (at_ s₀ past)) ∧ Every (FirstAtTurn tenantId s₀) evs) ↔
      Every (AllSeen tenantId s₀) evs := by
  rw [and_iff_left (every_of_forall first_at_turn evs)]
  refine forall_suffix_iff_every (P := fun past => OneDefault tenantId (at_ s₀ past)) h₀ (fun past e hs => ?_) evs
  cases e with
  | start r => exact iff_of_true hs trivial
  | turn i => exact oneDefault_turn_iff hs i

instance (tenantId : Uuid) (s : Portfolio) : Decidable (OneDefault tenantId s) := inferInstanceAs (Decidable (_ ≤ 1))

instance (tenantId : Uuid) (l : List Portfolio) (s s' : Portfolio) : Decidable (SeenAll tenantId l s s') :=
  inferInstanceAs (Decidable (∀ id ∈ defaultsOf tenantId s', id ∉ defaultsOf tenantId s →
    ∀ j ∈ defaultsOf tenantId s, ∀ s₁ ∈ l[2]?, j ∈ defaultsOf tenantId s₁))

instance (tenantId : Uuid) (s₀ : Portfolio) (past : List (Event Request)) (e : Event Request) :
    Decidable (AllSeen tenantId s₀ past e) :=
  match e with
  | .start _ => .isTrue trivial
  | .turn i => inferInstanceAs (Decidable (SeenAll tenantId (saw s₀ i past) _ _))

/-- A model that is declared as the default, or not declared. -/
def adding (k : Uuid) (name : String) (isDefault : Field Bool) : Request :=
  .createScoringModel (riskOwner k) { name, isDefault, likelihoodScale := [], impactScale := [] }

/-- So many turns of a request. -/
def turns (i n : ℕ) : List (Event Request) := List.replicate n (.turn i)

/-- No transaction is open: every request has ended. -/
def closed (s₀ : Portfolio) (evs : List (Event Request)) : Bool :=
  (interleave serve s₀ evs).threads.all fun th => th.rest.result.isSome

/-- A first model and a second one, which is to be the default. -/
def twoModels : List (Event Request) :=
  [.start (adding 110 "Weighted" (some (some true))), .start (adding 100 "Standard" none)]

/-- The second looks for the defaults after the first is committed. -/
theorem defaults_iff_twoModels :
    (∀ past, past <:+ turns 1 6 ++ turns 0 6 ++ twoModels → OneDefault 1 (at_ newPortfolio past)) ∧
      Every (FirstAtTurn 1 newPortfolio) (turns 1 6 ++ turns 0 6 ++ twoModels) :=
  (defaults_iff 1 newPortfolio (by decide) _).mpr (by decide +kernel)

/-- The second looks for the defaults before the first is committed. -/
def bothLook : List (Event Request) := turns 1 4 ++ turns 0 4 ++ turns 1 2 ++ turns 0 2 ++ twoModels

/-- The tenant has two default models, and no transaction is open. -/
theorem two_defaults : OneDefault 1 newPortfolio ∧ closed newPortfolio bothLook = true ∧
    defaultsOf 1 (at_ newPortfolio bothLook) = [110, 100] ∧ ¬OneDefault 1 (at_ newPortfolio bothLook) :=
  ⟨by decide, by decide +kernel, by decide +kernel, by decide +kernel⟩

end AuditSphere.Risks
