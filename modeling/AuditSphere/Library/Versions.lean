import AuditSphere.Library.Service
import AuditSphere.Workpapers.History

/-!
# Versions of library items

Of the items with one code in a tenant one at most is published, a version is greater than the one
it was made from, and what is published or retired stays as it is but for its status. One request
says all that it can do to the items in `Evolves`; the three follow from that alone.
-/

namespace AuditSphere.Library

open Prisma Theory Shared

/-! ### What items are to satisfy -/

/-- One item at most is published of each code of a tenant. -/
def OnePublished (s : Collection) : Prop := ∀ i it j jt, s.items.find i = some it → s.items.find j = some jt →
  it.status = .published → jt.status = .published → it.tenantId = jt.tenantId → it.code = jt.code → i = j

/-- An item has a greater version than the one it was made from. -/
def VersionsGrow (s : Collection) : Prop := ∀ i it p, s.items.find i = some it → it.parentVersionId = some p →
  ∃ parent, s.items.find p = some parent ∧ parent.version < it.version

/-- The item is published or has been. -/
def LibraryItem.Settled (it : LibraryItem) : Prop := it.status = .published ∨ it.status = .retired

/-- What is published or retired is the same later, with its references, but for its status. -/
def Frozen (s s' : Collection) : Prop := ∀ i it, s.items.find i = some it → it.Settled →
  ∃ it', s'.items.find i = some it' ∧ it'.Settled ∧ it' = { it with status := it'.status } ∧ refsOf s' i = refsOf s i

/-! ### What one request can do -/

/-- What may become of an item. -/
structure Kept (it it' : LibraryItem) : Prop where
  tenantId : it'.tenantId = it.tenantId
  version : it'.version = it.version
  parentVersionId : it'.parentVersionId = it.parentVersionId
  settled : it.Settled → it'.Settled ∧ it' = { it with status := it'.status }

/-- Items are kept, new ones are drafts with a greater version, and one that becomes published is the only one. -/
structure Evolves (s s' : Collection) : Prop where
  kept : ∀ i it, s.items.find i = some it → ∃ it', s'.items.find i = some it' ∧ Kept it it'
  refs : ∀ i it, s.items.find i = some it → it.Settled → refsOf s' i = refsOf s i
  added : ∀ i it', s'.items.find i = some it' → s.items.find i = none → it'.status = .draft ∧
    ∀ p, it'.parentVersionId = some p → ∃ parent, s.items.find p = some parent ∧ parent.version < it'.version
  published : ∀ i it', s'.items.find i = some it' → it'.status = .published →
    (∃ it, s.items.find i = some it ∧ it.status = .published) ∨
      ∀ j jt, s'.items.find j = some jt → jt.status = .published → jt.tenantId = it'.tenantId → jt.code = it'.code →
        j = i

theorem Kept.refl (it : LibraryItem) : Kept it it := ⟨rfl, rfl, rfl, fun h => ⟨h, rfl⟩⟩

theorem Evolves.refl (s : Collection) : Evolves s s where
  kept _ it h := ⟨it, h, .refl it⟩
  refs _ _ _ _ := rfl
  added i it' h hnone := by
    rw [hnone] at h
    cases h
  published _ it' h hpublished := .inl ⟨it', h, hpublished⟩

/-- What does not concern the items may follow. -/
theorem Evolves.and_same {s s' s'' : Collection} (h : Evolves s s') (hitems : s''.items = s'.items)
    (hrefs : s''.frameworkRefs = s'.frameworkRefs) : Evolves s s'' := by
  have hrefsOf : ∀ i, refsOf s'' i = refsOf s' i := fun i => by rw [refsOf, hrefs, refsOf]
  refine ⟨?_, fun i it hi hsettled => (hrefsOf i).trans (h.refs i it hi hsettled), ?_, ?_⟩
  all_goals rw [hitems]
  · exact h.kept
  · exact h.added
  · exact h.published

theorem Evolves.onePublished {s s' : Collection} (h : Evolves s s') (hs : OnePublished s) : OnePublished s' := by
  intro i it' j jt' hi hj hip hjp htenant hcode
  rcases h.published i it' hi hip with ⟨it, hit, hpit⟩ | honly
  · rcases h.published j jt' hj hjp with ⟨jt, hjt, hpjt⟩ | honly
    · obtain ⟨it₁, hi₁, hkept⟩ := h.kept i it hit
      obtain ⟨jt₁, hj₁, hjkept⟩ := h.kept j jt hjt
      rw [hi, Option.some.injEq] at hi₁
      rw [hj, Option.some.injEq] at hj₁
      subst hi₁ hj₁
      have hicode : it'.code = it.code := by rw [(hkept.settled (.inl hpit)).2]
      have hjcode : jt'.code = jt.code := by rw [(hjkept.settled (.inl hpjt)).2]
      exact hs i it j jt hit hjt hpit hpjt (hkept.tenantId.symm.trans (htenant.trans hjkept.tenantId))
        (hicode.symm.trans (hcode.trans hjcode))
    · exact honly i it' hi hip htenant hcode
  · exact (honly j jt' hj hjp htenant.symm hcode.symm).symm

theorem Evolves.versionsGrow {s s' : Collection} (h : Evolves s s') (hs : VersionsGrow s) : VersionsGrow s' := by
  have hlater : ∀ {p parent n}, s.items.find p = some parent → parent.version < n →
      ∃ parent', s'.items.find p = some parent' ∧ parent'.version < n := by
    intro p parent n hp hlt
    obtain ⟨parent', hp', hkept⟩ := h.kept p parent hp
    exact ⟨parent', hp', hkept.version ▸ hlt⟩
  intro i it' p hi hparent
  cases hold : s.items.find i with
  | none =>
    obtain ⟨parent, hp, hlt⟩ := (h.added i it' hi hold).2 p hparent
    exact hlater hp hlt
  | some it =>
    obtain ⟨it₁, hi₁, hkept⟩ := h.kept i it hold
    rw [hi, Option.some.injEq] at hi₁
    subst hi₁
    obtain ⟨parent, hp, hlt⟩ := hs i it p hold (hkept.parentVersionId ▸ hparent)
    exact hlater hp (hkept.version ▸ hlt)

theorem Evolves.frozen {s s' : Collection} (h : Evolves s s') : Frozen s s' := by
  intro i it hi hsettled
  obtain ⟨it', hi', hkept⟩ := h.kept i it hi
  obtain ⟨hsettled', heq⟩ := hkept.settled hsettled
  exact ⟨it', hi', hsettled', heq, h.refs i it hi hsettled⟩

theorem Frozen.refl (s : Collection) : Frozen s s := (Evolves.refl s).frozen

theorem Frozen.trans {a b c : Collection} (h : Frozen a b) (h' : Frozen b c) : Frozen a c := by
  intro i it hi hsettled
  obtain ⟨it₁, hi₁, hsettled₁, heq₁, hrefs₁⟩ := h i it hi hsettled
  obtain ⟨it₂, hi₂, hsettled₂, heq₂, hrefs₂⟩ := h' i it₁ hi₁ hsettled₁
  exact ⟨it₂, hi₂, hsettled₂, by rw [heq₂, heq₁], hrefs₂.trans hrefs₁⟩

/-! ### Writes of items -/

/-- A row is changed. -/
theorem evolves_put {s s' : Collection} {id : Uuid} {it it' : LibraryItem} (hit : s.items.find id = some it)
    (hrows : ∀ j, s'.items.find j = if j = id then some it' else s.items.find j) (hkept : Kept it it')
    (hpublished : it'.status = .published → it.status = .published)
    (hrefs : ∀ j, (j = id → it.Settled) → refsOf s' j = refsOf s j) : Evolves s s' := by
  have hback : ∀ j jt', s'.items.find j = some jt' → ∃ jt, s.items.find j = some jt ∧ (jt'.status = .published →
      jt.status = .published) := by
    intro j jt' hj
    rw [hrows] at hj
    split at hj
    · rename_i hjid
      cases hj
      exact ⟨it, hjid ▸ hit, hpublished⟩
    · exact ⟨jt', hj, fun h => h⟩
  refine ⟨fun j jt hj => ?_, fun j jt hj hsettled => ?_, fun j jt' hj hnone => ?_, fun j jt' hj hp => ?_⟩
  · rw [hrows]
    split
    · rename_i hjid
      rw [hjid, hit, Option.some.injEq] at hj
      exact ⟨it', rfl, hj ▸ hkept⟩
    · exact ⟨jt, hj, .refl jt⟩
  · refine hrefs j fun hjid => ?_
    rw [hjid, hit, Option.some.injEq] at hj
    exact hj ▸ hsettled
  · obtain ⟨jt, hjt, -⟩ := hback j jt' hj
    rw [hnone] at hjt
    cases hjt
  · obtain ⟨jt, hjt, hpjt⟩ := hback j jt' hj
    exact .inl ⟨jt, hjt, hpjt hp⟩

theorem updateItem_ok {ctx : Ctx} {id : Uuid} {f : LibraryItem → Except HttpError LibraryItem} {s s' : Collection}
    {v : ItemView} (h : updateItem ctx id f s = .ok (v, s')) :
    ∃ it it', s.items.find id = some it ∧ f it = .ok it' ∧ s'.frameworkRefs = s.frameworkRefs ∧
      ∀ j, s'.items.find j = if j = id then some it' else s.items.find j := by
  obtain ⟨⟨it', items⟩, hupdate, h⟩ := Prog.bind_eq_ok.mp h
  obtain ⟨_, -, h⟩ := Prog.bind_eq_ok.mp h
  cases h
  obtain ⟨it, hit, -, hf, hrows⟩ := updateRow_ok hupdate
  exact ⟨it, it', hit, hf, rfl, hrows⟩

theorem insertRefs_ok {id : Uuid} {refs : List Uuid} {s s' : Collection} (h : insertRefs id refs s = .ok s') :
    s'.items = s.items ∧ ∀ j, j ≠ id → refsOf s' j = refsOf s j := by
  unfold insertRefs at h
  split at h
  · cases h
  split at h
  · cases h
    refine ⟨rfl, fun j hj => ?_⟩
    have hnone : (refs.map fun r => (id, r)).filter (fun r => decide (r.1 = j)) = [] := by
      simp [List.filter_map, Ne.symm hj]
    rw [refsOf, List.filter_append, hnone, List.append_nil, refsOf]
  · cases h

theorem replaceRefs_ok {id : Uuid} {refs : Option (List Uuid)} {s s' : Collection} (h : replaceRefs id refs s = .ok s') :
    s'.items = s.items ∧ ∀ j, j ≠ id → refsOf s' j = refsOf s j := by
  unfold replaceRefs at h
  split at h
  · cases h
    exact ⟨rfl, fun _ _ => rfl⟩
  · obtain ⟨hitems, hrefs⟩ := insertRefs_ok h
    refine ⟨hitems, fun j hj => (hrefs j hj).trans ?_⟩
    unfold refsOf
    rw [List.filter_filter]
    refine congrArg (List.map Prod.snd) (List.filter_congr fun r _ => ?_)
    by_cases hr : r.1 = j
    · simp [hr, hj]
    · simp [hr]

/-- A status that is not published is written. -/
theorem evolves_status {ctx : Ctx} {id : Uuid} {status : LibraryStatus} {s s' : Collection} {v : ItemView}
    {before : LibraryItem} (hbefore : s.items.find id = some before) (hstatus : status ≠ .published)
    (hsettled : before.Settled → status = .retired)
    (h : updateItem ctx id (fun i => .ok { i with status }) s = .ok (v, s')) : Evolves s s' := by
  obtain ⟨it, it', hit, hf, hrefs, hrows⟩ := updateItem_ok h
  rw [hbefore, Option.some.injEq] at hit
  subst hit
  cases hf
  exact evolves_put hbefore hrows ⟨rfl, rfl, rfl, fun h => ⟨.inr (hsettled h), rfl⟩⟩ (fun h => absurd h hstatus)
    fun j _ => by rw [refsOf, hrefs, refsOf]

/-- An item that is neither published nor retired is changed in place. -/
theorem evolves_edit {ctx : Ctx} {id : Uuid} {dto : UpdateLibraryItemDto} {s s' : Collection} {v : ItemView}
    {before : LibraryItem} (hbefore : s.items.find id = some before) (hopen : ¬before.Settled)
    (h : editItem ctx id dto s = .ok (v, s')) : Evolves s s' := by
  obtain ⟨s₁, hreplace, h⟩ := Prog.bind_eq_ok.mp h
  obtain ⟨hitems, hrefs⟩ := replaceRefs_ok hreplace
  obtain ⟨it, it', hit, hf, hrefs', hrows⟩ := updateItem_ok h
  rw [hitems, hbefore, Option.some.injEq] at hit
  subst hit
  have happly : it'.tenantId = before.tenantId ∧ it'.version = before.version ∧
      it'.parentVersionId = before.parentVersionId ∧ it'.status = before.status := by
    unfold UpdateLibraryItemDto.apply at hf
    split at hf
    · cases hf
      exact ⟨rfl, rfl, rfl, rfl⟩
    · cases hf
  obtain ⟨htenant, hversion, hparent, hstatus⟩ := happly
  refine evolves_put hbefore (fun j => by rw [hrows, hitems])
    ⟨htenant, hversion, hparent, fun h => absurd h hopen⟩ (fun h => hstatus ▸ h) fun j hj => ?_
  have hne : j ≠ id := fun hjid => hopen (hj hjid)
  rw [← hrefs j hne, refsOf, hrefs', refsOf]

/-- A new draft has a greater version than the item it is made from. -/
theorem evolves_insert {id : Uuid} {it : LibraryItem} {refs : List Uuid} {s s' : Collection} {v : ItemView}
    (hdraft : it.status = .draft)
    (hparent : ∀ p, it.parentVersionId = some p → ∃ parent, s.items.find p = some parent ∧ parent.version < it.version)
    (h : insertItem id it refs s = .ok (v, s')) : Evolves s s' := by
  obtain ⟨_, -, h⟩ := Prog.bind_eq_ok.mp h
  obtain ⟨items, hinsert, h⟩ := Prog.bind_eq_ok.mp h
  obtain ⟨s₁, hrefs, h⟩ := Prog.bind_eq_ok.mp h
  cases h
  obtain ⟨hfresh, hrows⟩ := insertRow_ok hinsert
  obtain ⟨hitems, hrefs⟩ := insertRefs_ok hrefs
  have hrows : ∀ j, s'.items.find j = if j = id then some it else s.items.find j := fun j => by rw [hitems, hrows]
  have hne : ∀ {j jt}, s.items.find j = some jt → j ≠ id := by
    rintro j jt hj rfl
    rw [hfresh] at hj
    cases hj
  refine ⟨fun j jt hj => ⟨jt, by rw [hrows, if_neg (hne hj), hj], .refl jt⟩, fun j jt hj _ => hrefs j (hne hj),
    fun j jt hj hnone => ?_, fun j jt hj hp => ?_⟩
  · rw [hrows] at hj
    split at hj
    · cases hj
      exact ⟨hdraft, hparent⟩
    · rw [hnone] at hj
      cases hj
  · rw [hrows] at hj
    split at hj
    · cases hj
      rw [hdraft] at hp
      cases hp
    · exact .inl ⟨jt, hj, hp⟩

/-- An item is published and the others with its code are retired. -/
theorem evolves_approve {ctx : Ctx} {id : Uuid} {s s' : Collection} {v : ItemView} {before : LibraryItem}
    (hbefore : s.items.find id = some before) (hsees : ctx.sees before = true) (hpending : before.status = .pendingApproval)
    (h : updateItem ctx id (fun i => .ok (published ctx i)) (retireOthers ctx id before s) = .ok (v, s')) :
    Evolves s s' := by
  obtain ⟨it, it', hit, hf, hrefs, hrows⟩ := updateItem_ok h
  have hothers : ∀ j, (retireOthers ctx id before s).items.find j = (s.items.find j).map fun i =>
      if ctx.sees i && i.code = before.code && i.status = .published && j ≠ id && i.tenantId = before.tenantId then
        { i with status := .retired } else i := fun j => Table.find_modify _ _ _ j
  have hsame : it = before := by
    rw [hothers, hbefore] at hit
    simpa using hit.symm
  subst hsame
  cases hf
  have hopen : ¬it.Settled := by
    rintro (h | h)
    all_goals
      rw [hpending] at h
      cases h
  have hrefsOf : ∀ j, refsOf s' j = refsOf s j := fun j => by
    rw [refsOf, hrefs]
    rfl
  refine ⟨fun j jt hj => ?_, fun j _ _ _ => hrefsOf j, fun j jt' hj hnone => ?_, fun j jt' hj hp => ?_⟩
  · rw [hrows]
    split
    · rename_i hjid
      rw [hjid, hbefore, Option.some.injEq] at hj
      subst hj
      exact ⟨_, rfl, rfl, rfl, rfl, fun h => absurd h hopen⟩
    · rw [hothers, hj, Option.map_some]
      refine ⟨_, rfl, ?_⟩
      split
      · exact ⟨rfl, rfl, rfl, fun _ => ⟨.inr rfl, rfl⟩⟩
      · exact .refl jt
  · rw [hrows] at hj
    split at hj
    · rename_i hjid
      rw [hjid, hbefore] at hnone
      cases hnone
    · rw [hothers, hnone] at hj
      cases hj
  · rw [hrows] at hj
    split at hj
    · -- No other item with this code in this tenant is published any more.
      rename_i hjid
      cases hj
      refine .inr fun k kt hk hkp htenant hcode => ?_
      by_contra hkj
      rw [hrows, if_neg (hjid ▸ hkj), hothers] at hk
      obtain ⟨kt₀, -, rfl⟩ := Option.map_eq_some_iff.mp hk
      split at hkp
      · cases hkp
      · rename_i hcond
        rw [if_neg hcond] at htenant hcode
        refine hcond ?_
        have hseen : ctx.sees kt₀ = true := by
          rw [Ctx.sees_iff] at hsees ⊢
          exact (congrArg (Visible _ _) htenant).mpr hsees
        have hcode : kt₀.code = it.code := hcode
        have htenant : kt₀.tenantId = it.tenantId := htenant
        simp [hseen, hcode, htenant, hkp, hjid ▸ hkj]
    · rw [hothers] at hj
      obtain ⟨jt, hjt, rfl⟩ := Option.map_eq_some_iff.mp hj
      split at hp
      · cases hp
      · exact .inl ⟨jt, hjt, hp⟩

/-! ### The requests -/

theorem assertItem_run (ctx : Ctx) (id : Uuid) (s : Collection) :
    (∃ it, s.items.find id = some it ∧ ctx.sees it = true ∧ (assertItem ctx id).run s = (.ok it, s)) ∨
      (assertItem ctx id).run s = (.error (.notFound "Library item not found"), s) := by
  unfold assertItem
  rw [Prog.run_bind_of_ok (Prog.run_read _ s)]
  cases hfind : ctx.findById s.items id fun _ => true with
  | none => exact .inr rfl
  | some it =>
    obtain ⟨hit, hsees, -⟩ := Ctx.findById_eq_some.mp hfind
    exact .inl ⟨it, hit, hsees, rfl⟩

theorem assertTenantOwned_readOnly (ctx : Ctx) (it : LibraryItem) : (assertTenantOwned ctx it).ReadOnly :=
  .ite (Prog.readOnly_throw _) (Prog.readOnly_pure _)

theorem assertReferences_readOnly (ids : Option (List Uuid)) : (assertReferences ids).ReadOnly := by
  unfold assertReferences
  split
  · exact Prog.readOnly_pure _
  · exact Prog.readOnly_pure _
  · exact (Prog.readOnly_read _).bind fun _ => .ite (Prog.readOnly_throw _) (Prog.readOnly_pure _)

/-- From here a program can do to the items what one request can. -/
def Ends {α : Type} (p : Method α) (s : Collection) : Prop := Evolves s (p.run s).2

variable {s : Collection} {α β : Type}

theorem ends_of_same {p : Method α} (h : (p.run s).2 = s) : Ends p s := by
  unfold Ends
  rw [h]
  exact .refl s

/-- First it is looked whether the request is allowed. -/
theorem ends_readOnly {p : Method α} (hp : p.ReadOnly) {f : α → Method β} (h : ∀ a, Ends (f a) s) :
    Ends (p >>= f) s := by
  have hsame : ∀ r s', p.run s = (r, s') → s' = s := fun r s' hrun => by
    have := hp s
    rwa [hrun] at this
  refine Prog.run_bind_state (fun e s' hrun => ?_) fun a s' hrun => ?_
  · exact hsame _ s' hrun ▸ .refl s
  · rw [hsame _ s' hrun]
    exact h a

theorem ends_read {f : Collection → α} {k : α → Method β} (h : Ends (k (f s)) s) : Ends (.read f >>= k) s := by
  unfold Ends
  rw [Prog.run_bind_of_ok (Prog.run_read f s)]
  exact h

/-- The items and their references are the same. -/
def SameItems (s s' : Collection) : Prop := s'.items = s.items ∧ s'.frameworkRefs = s.frameworkRefs

/-- What does not concern the items. -/
def Aside (p : Method α) : Prop := ∀ s, SameItems s (p.run s).2

theorem onDb_aside (p : Service α) : Aside (onDb p) := by
  intro s
  have hrun : (onDb p).run s = ((p.run s.db).1.mapError id, { s with db := (p.run s.db).2 }) := by
    unfold onDb
    rw [Prog.run_embed] <;> intros <;> rfl
  rw [hrun]
  exact ⟨rfl, rfl⟩

theorem Aside.bind {p : Method α} {f : α → Method β} (hp : Aside p) (hf : ∀ a, Aside (f a)) : Aside (p >>= f) := by
  intro s
  have hps := hp s
  refine Prog.run_bind_state (fun e s' hrun => ?_) fun a s' hrun => ?_
  · rwa [hrun] at hps
  · rw [hrun] at hps
    exact ⟨(hf a s').1.trans hps.1, (hf a s').2.trans hps.2⟩

theorem aside_read (f : Collection → α) : Aside (.read f) := fun _ => ⟨rfl, rfl⟩

theorem aside_pure (a : α) : Aside (pure a : Method α) := fun _ => ⟨rfl, rfl⟩

/-- One write, and what follows it. -/
theorem ends_call {f : Collection → Except HttpError (α × Collection)} {k : α → Method β}
    (hf : ∀ a s', f s = .ok (a, s') → Evolves s s') (hk : ∀ a, Aside (k a)) : Ends (.call f >>= k) s := by
  refine Prog.run_bind_state (fun e s' hrun => ?_) fun a s' hrun => ?_
  · rw [Prog.atomic_call _ _ _ _ hrun]
    exact .refl s
  · exact (hf a s' (Prog.run_call_ok.mp hrun)).and_same (hk a s').1 (hk a s').2

/-- A request for an item begins by looking for it. -/
theorem ends_assertItem {ctx : Ctx} {id : Uuid} {k : LibraryItem → Method β}
    (h : ∀ before, s.items.find id = some before → ctx.sees before = true → Ends (k before) s) :
    Ends (assertItem ctx id >>= k) s := by
  unfold Ends
  rcases assertItem_run ctx id s with ⟨before, hbefore, hsees, hrun⟩ | hrun
  · rw [Prog.run_bind_of_ok hrun]
    exact h before hbefore hsees
  · rw [Prog.run_bind_of_error hrun]
    exact .refl s

/-- What is recorded at the end. -/
theorem recorded_aside (p : Service Unit) (a : β) : Aside (onDb p >>= fun _ => (pure a : Method β)) :=
  (onDb_aside p).bind fun _ => aside_pure a

theorem create_ends (ctx : Ctx) (dto : CreateLibraryItemDto) : Ends (create ctx dto) s := by
  unfold create
  split
  · exact .refl s
  · refine ends_readOnly (assertReferences_readOnly _) fun _ => ends_read ?_
    split
    · exact .refl s
    · exact ends_call (fun _ _ => evolves_insert rfl fun p hp => by cases hp) fun _ => recorded_aside _ _

theorem createVersion_ends (ctx : Ctx) {id : Uuid} (dto : UpdateLibraryItemDto) {before : LibraryItem}
    (hbefore : s.items.find id = some before) (content : Json) : Ends (createVersion ctx id dto before content) s := by
  refine ends_read ?_
  split
  · exact .refl s
  · refine ends_read (ends_read (ends_call (fun _ _ => evolves_insert rfl fun p hp => ?_) fun _ => recorded_aside _ _))
    cases hp
    exact ⟨before, hbefore, Nat.lt_succ_of_le (Nat.le_max_left _ _)⟩

theorem update_ends (ctx : Ctx) (id : Uuid) (dto : UpdateLibraryItemDto) : Ends (update ctx id dto) s := by
  refine ends_assertItem fun before hbefore _ => ?_
  split
  · exact .refl s
  rename_i hretired
  split
  · exact .refl s
  refine ends_readOnly (assertReferences_readOnly _) fun _ => ?_
  split
  · exact createVersion_ends ctx dto hbefore _
  · rename_i hinPlace
    refine ends_call (fun _ _ => evolves_edit hbefore ?_) fun _ => recorded_aside _ _
    rintro (h | h)
    · exact hinPlace (.inl h)
    · exact hretired h

theorem submit_ends (ctx : Ctx) (id : Uuid) (dto : LibraryDecisionDto) : Ends (submit ctx id dto) s := by
  refine ends_assertItem fun before hbefore _ => ends_readOnly (assertTenantOwned_readOnly ctx before) fun _ => ?_
  split
  · exact .refl s
  · rename_i hdraft
    have hdraft : before.status = .draft := by simpa using hdraft
    refine ends_call (fun _ _ => evolves_status hbefore (by decide) ?_) fun _ => ?_
    · rintro (h | h)
      all_goals
        rw [hdraft] at h
        cases h
    · exact (onDb_aside _).bind fun _ => (aside_read _).bind fun _ => recorded_aside _ _

theorem approve_ends (ctx : Ctx) (id : Uuid) (dto : LibraryDecisionDto) : Ends (approve ctx id dto) s := by
  refine ends_assertItem fun before hbefore hsees => ends_readOnly (assertTenantOwned_readOnly ctx before) fun _ => ?_
  split
  · exact .refl s
  · rename_i hpending
    have hpending : before.status = .pendingApproval := by simpa using hpending
    exact ends_call (fun _ _ => evolves_approve hbefore hsees hpending) fun _ =>
      (onDb_aside _).bind fun _ => recorded_aside _ _

theorem retire_ends (ctx : Ctx) (id : Uuid) : Ends (retire ctx id) s := by
  refine ends_assertItem fun before hbefore _ => ends_readOnly (assertTenantOwned_readOnly ctx before) fun _ => ?_
  split
  · exact .refl s
  · exact ends_call (fun _ _ => evolves_status hbefore (by decide) fun _ => rfl) fun _ => recorded_aside _ _

theorem evolves_after (s : Collection) (r : Request) : Evolves s (after serve s r) := by
  show Ends (serve r) s
  unfold serve
  split
  · exact .refl s
  · cases r with
    | create ctx dto => exact create_ends ctx dto
    | update ctx id dto => exact update_ends ctx id dto
    | submit ctx id dto => exact submit_ends ctx id dto
    | approve ctx id dto => exact approve_ends ctx id dto
    | retire ctx id => exact retire_ends ctx id

/-! ### Runs -/

theorem frozen_history (s₀ : Collection) (later past : List Request) :
    Frozen (history serve s₀ past) (history serve s₀ (later ++ past)) := by
  induction later with
  | nil => exact .refl _
  | cons r later ih => exact ih.trans (evolves_after _ r).frozen

/-- **Versioning**, in every state of every run: one item at most is published of each code of a tenant, versions
are greater than those they were made from, and what is published or retired stays as it is. -/
theorem versioned (s₀ : Collection) (h₀ : OnePublished s₀) (hgrow : VersionsGrow s₀) (later past : List Request) :
    OnePublished (history serve s₀ past) ∧ VersionsGrow (history serve s₀ past) ∧
      Frozen (history serve s₀ past) (history serve s₀ (later ++ past)) :=
  ⟨invariant_of_step h₀ (fun s r => (evolves_after s r).onePublished) past,
    invariant_of_step hgrow (fun s r => (evolves_after s r).versionsGrow) past, frozen_history s₀ later past⟩

/-! ### A draft, its publication, and the next version -/

/-- A user who contributes to the library and approves. -/
def librarian (k : Uuid) : Ctx := { Workpapers.actor 1 k with permissions := [.libraryContribute, .libraryApprove] }

/-- A library without items. -/
def newLibrary : Collection where
  db := Workpapers.office
  items := .empty
  references := []
  frameworkRefs := []
  userRoles := []

/-- An item is drafted, submitted and approved. -/
def firstVersion : List Request :=
  [.approve (librarian 120) 100 {}, .submit (librarian 110) 100 {},
    .create (librarian 100) { type := .risk, code := "R-1", title := "Fraud", content := [] }]

/-- A change of it is a new version, which is approved too. -/
def secondVersion : List Request :=
  [.approve (librarian 150) 130 {}, .submit (librarian 140) 130 {},
    .update (librarian 130) 100 { title := some (some "Fraud in sales") }]

theorem versioned_secondVersion : OnePublished (history serve newLibrary firstVersion) ∧
    VersionsGrow (history serve newLibrary firstVersion) ∧
    Frozen (history serve newLibrary firstVersion) (history serve newLibrary (secondVersion ++ firstVersion)) :=
  versioned newLibrary (fun _ _ _ _ h => by cases h) (fun _ _ _ h => by cases h) secondVersion firstVersion

example : ([100, 130].map fun id => ((history serve newLibrary (secondVersion ++ firstVersion)).items.find id).map
    fun it => (it.version, it.status, it.title)) =
    [some (1, .retired, "Fraud"), some (2, .published, "Fraud in sales")] := by
  decide +kernel

end AuditSphere.Library
