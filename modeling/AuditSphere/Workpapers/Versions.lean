import AuditSphere.Workpapers.History

/-!
# Versions under concurrency

Any number of requests take turns. `update` reads the row, and later, in one
transaction, inserts a version numbered with the `currentVersion` it has read and
increments the `currentVersion` of the row. That a workpaper has each version
number once makes this an optimistic lock: if another edit has come in between,
the number is taken and the transaction fails.

The invariant `Numbered` says that the numbers are those below `currentVersion`;
what a request relies on in addition (`Later`) is that `currentVersion` never
decreases, and that the content is the same as long as `currentVersion` is. From
this follows `versions_faithful`: the versions are the contents that the edits
have replaced, in order.
-/

namespace AuditSphere.Workpapers

open Prisma Theory Shared

/-- The versions of workpaper `i` are numbered from 1 up to its current version. -/
structure Numbered (i : Uuid) (s : Db) : Prop where
  /-- A workpaper that does not exist has no versions. -/
  absent : s.workpapers.find i = none → ∀ j v, s.versions.find j = some v → v.workpaperId ≠ i
  /-- The numbers are those below the current version. -/
  numbers : ∀ w, s.workpapers.find i = some w → 1 ≤ w.currentVersion ∧ ∀ k,
    (∃ j v, s.versions.find j = some v ∧ v.workpaperId = i ∧ v.versionNumber = k) ↔ 1 ≤ k ∧ k < w.currentVersion
  /-- No number occurs twice. -/
  once : ∀ j j' v v', s.versions.find j = some v → s.versions.find j' = some v' → v.workpaperId = i →
    v'.workpaperId = i → v.versionNumber = v'.versionNumber → j = j'

/-- The content and the current version of workpaper `i`. -/
def current (i : Uuid) (s : Db) : Option (WorkpaperContent × ℕ) :=
  (s.workpapers.find i).map fun w => (w.toWorkpaperContent, w.currentVersion)

/-- The versions of workpaper `i` are the same. -/
def SameVersions (i : Uuid) (s s' : Db) : Prop :=
  ∀ j v, v.workpaperId = i → (s'.versions.find j = some v ↔ s.versions.find j = some v)

/-- What a call of request `r` makes of content and versions of workpaper `i`. -/
inductive VersionStep (i : Uuid) (r : Request) (s s' : Db) : Prop where
  /-- Both stay, and an edit has not written the row at all. -/
  | kept (row : current i s' = current i s) (versions : SameVersions i s s')
      (unwritten : ∀ ctx dto, r = .update ctx i dto → s'.workpapers.find i = s.workpapers.find i)
  /-- The workpaper is new. -/
  | created (w' : Workpaper) (create : ∃ ctx engagementId dto, r = .create ctx engagementId dto) (row : s.workpapers.find i = none) (row' : s'.workpapers.find i = some w')
      (first : w'.currentVersion = 1) (versions : SameVersions i s s')
  /-- An edit: the row that the request has read becomes a version, and it has the content
  and the current version of the row that is replaced. -/
  | edited (w w' : Workpaper) (j : Uuid) (v : WorkpaperVersion) (update : ∃ ctx dto, r = .update ctx i dto)
      (row : s.workpapers.find i = some w) (row' : s'.workpapers.find i = some w')
      (next : w'.currentVersion = w.currentVersion + 1) (fresh : s.versions.find j = none)
      (versions : ∀ j', s'.versions.find j' = if j' = j then some v else s.versions.find j')
      (number : v.workpaperId = i ∧ v.versionNumber = w.currentVersion)
      (snapshot : v.snapshot.toWorkpaperContent = w.toWorkpaperContent ∧
        v.snapshot.currentVersion = w.currentVersion)

/-- A later state: the invariant is kept, the current version has not decreased, and if it
is the same then so is the content. -/
def Later (i : Uuid) (s s' : Db) : Prop :=
  Numbered i s → Numbered i s' ∧ ∀ c n, current i s = some (c, n) →
    ∃ c' n', current i s' = some (c', n') ∧ n ≤ n' ∧ (n = n' → c' = c)

theorem Later.refl (i : Uuid) (s : Db) : Later i s s :=
  fun h => ⟨h, fun c n hc => ⟨c, n, hc, le_rfl, fun _ => rfl⟩⟩

theorem Later.trans {i : Uuid} {a b c : Db} (h : Later i a b) (h' : Later i b c) : Later i a c := by
  intro ha
  obtain ⟨hb, hab⟩ := h ha
  obtain ⟨hc, hbc⟩ := h' hb
  refine ⟨hc, fun x n hx => ?_⟩
  obtain ⟨y, m, hy, hnm, hxy⟩ := hab x n hx
  obtain ⟨z, k, hz, hmk, hyz⟩ := hbc y m hy
  refine ⟨z, k, hz, by omega, fun hnk => ?_⟩
  rw [hyz (by omega), hxy (by omega)]

theorem current_eq_some {i : Uuid} {s : Db} {c : WorkpaperContent} {n : ℕ} :
    current i s = some (c, n) ↔ ∃ w, s.workpapers.find i = some w ∧ w.toWorkpaperContent = c ∧ w.currentVersion = n := by
  rw [current, Option.map_eq_some_iff]
  simp only [Prod.mk.injEq]

/-- The invariant looks at no more than `current` and the versions. -/
theorem Numbered.congr {i : Uuid} {s s' : Db} (h : Numbered i s) (hrow : current i s' = current i s)
    (hversions : SameVersions i s s') : Numbered i s' := by
  refine ⟨fun hnone j v hv hi => ?_, fun w' hw' => ?_, fun j j' v v' hv hv' hi hi' => ?_⟩
  · have : s.workpapers.find i = none := by
      rw [current, hnone, Option.map_none, current, eq_comm, Option.map_eq_none_iff] at hrow
      exact hrow
    exact h.absent this j v ((hversions j v hi).mp hv) hi
  · have hcur : current i s = some (w'.toWorkpaperContent, w'.currentVersion) := by
      rw [← hrow, current, hw']
      rfl
    obtain ⟨w, hw, -, hn⟩ := current_eq_some.mp hcur
    obtain ⟨hpos, hnumbers⟩ := h.numbers w hw
    rw [hn] at hpos hnumbers
    refine ⟨hpos, fun k => Iff.trans ?_ (hnumbers k)⟩
    exact exists_congr fun j => exists_congr fun v => by
      constructor
      · rintro ⟨hv, hi, hk⟩
        exact ⟨(hversions j v hi).mp hv, hi, hk⟩
      · rintro ⟨hv, hi, hk⟩
        exact ⟨(hversions j v hi).mpr hv, hi, hk⟩
  · exact h.once j j' v v' ((hversions j v hi).mp hv) ((hversions j' v' hi').mp hv') hi hi'

/-- One call keeps the invariant. -/
theorem Numbered.step {i : Uuid} {r : Request} {s s' : Db} (h : Numbered i s) (hs : VersionStep i r s s') :
    Numbered i s' := by
  cases hs with
  | kept row versions _ => exact h.congr row versions
  | created w' _ row row' first versions =>
    have hno : ∀ j v, s'.versions.find j = some v → v.workpaperId ≠ i := fun j v hv hi =>
      h.absent row j v ((versions j v hi).mp hv) hi
    have hsome : s'.workpapers.find i ≠ none := by simp [row']
    refine ⟨fun hnone => absurd hnone hsome, fun w hw => ?_, fun j _ v _ hv _ hi => absurd hi (hno j v hv)⟩
    rw [row', Option.some.injEq] at hw
    subst hw
    refine ⟨by omega, fun k => ⟨?_, fun hk => ?_⟩⟩
    · rintro ⟨j, v, hv, hi, -⟩
      exact absurd hi (hno j v hv)
    · omega
  | edited w w' j v _ row row' next fresh versions number _ =>
    obtain ⟨hpos, hnumbers⟩ := h.numbers w row
    have hbelow : ∀ j' v', s.versions.find j' = some v' → v'.workpaperId = i → v'.versionNumber < w.currentVersion :=
      fun j' v' hv' hi' => ((hnumbers v'.versionNumber).mp ⟨j', v', hv', hi', rfl⟩).2
    have hcases : ∀ j' v', s'.versions.find j' = some v' → (j' = j ∧ v' = v) ∨ s.versions.find j' = some v' := by
      intro j' v' hv'
      rw [versions] at hv'
      split at hv'
      · cases hv'
        exact .inl ⟨‹_›, rfl⟩
      · exact .inr hv'
    have hsome : s'.workpapers.find i ≠ none := by simp [row']
    refine ⟨fun hnone => absurd hnone hsome, fun w₁ hw₁ => ?_, fun j₁ j₂ v₁ v₂ h₁ h₂ hi₁ hi₂ heq => ?_⟩
    · rw [row', Option.some.injEq] at hw₁
      subst hw₁
      refine ⟨by omega, fun k => ⟨?_, fun hk => ?_⟩⟩
      · rintro ⟨j', v', hv', hi', rfl⟩
        rcases hcases j' v' hv' with ⟨-, rfl⟩ | hold
        · omega
        · have := (hnumbers v'.versionNumber).mp ⟨j', v', hold, hi', rfl⟩
          omega
      · by_cases hlast : k = w.currentVersion
        · exact ⟨j, v, by rw [versions, if_pos rfl], number.1, by rw [number.2, hlast]⟩
        · obtain ⟨j', v', hv', hi', hk'⟩ := (hnumbers k).mpr ⟨hk.1, by omega⟩
          refine ⟨j', v', ?_, hi', hk'⟩
          rw [versions, if_neg, hv']
          rintro rfl
          rw [fresh] at hv'
          cases hv'
    · rcases hcases j₁ v₁ h₁ with ⟨rfl, rfl⟩ | hold₁ <;> rcases hcases j₂ v₂ h₂ with ⟨rfl, rfl⟩ | hold₂
      · rfl
      · have := hbelow j₂ v₂ hold₂ hi₂
        omega
      · have := hbelow j₁ v₁ hold₁ hi₁
        omega
      · exact h.once j₁ j₂ v₁ v₂ hold₁ hold₂ hi₁ hi₂ heq

theorem Later.congr {i : Uuid} {s s' : Db} (hrow : current i s' = current i s) (hversions : SameVersions i s s') :
    Later i s s' :=
  fun h => ⟨h.congr hrow hversions, fun c n hc => ⟨c, n, hrow.trans hc, le_rfl, fun _ => rfl⟩⟩

/-- One call leads to a later state. -/
theorem Later.step {i : Uuid} {r : Request} {s s' : Db} (hs : Numbered i s → VersionStep i r s s') : Later i s s' := by
  intro h
  have hs := hs h
  refine ⟨h.step hs, fun c n hc => ?_⟩
  cases hs with
  | kept row _ _ => exact ⟨c, n, row.trans hc, le_rfl, fun _ => rfl⟩
  | created w' _ row _ _ _ =>
    rw [current, row] at hc
    cases hc
  | edited w w' _ _ _ row row' next _ _ _ _ =>
    obtain ⟨w₁, hw₁, -, hn⟩ := current_eq_some.mp hc
    rw [row, Option.some.injEq] at hw₁
    subst hw₁
    refine ⟨w'.toWorkpaperContent, w'.currentVersion, current_eq_some.mpr ⟨w', row', rfl, rfl⟩, ?_, ?_⟩ <;> omega

theorem Interference.of_later (i : Uuid) : Interference (Later i) where
  refl := Later.refl i
  trans := Later.trans
  aside h := by
    refine Later.congr ?_ fun j v _ => ?_
    · rw [current, h.workpapers, current]
    · rw [h.versions]

/-! ### What the requests guarantee -/

/-- An edit of another workpaper, or a commit that is not an edit: the versions stay. -/
theorem sameVersions_of_eq {i : Uuid} {s s' : Db} (h : s'.versions = s.versions) : SameVersions i s s' :=
  fun j v _ => by rw [h]

theorem current_of_rows {i id : Uuid} {s s' : Db} {w : Workpaper} (hi : i ≠ id)
    (h : ∀ j, s'.workpapers.find j = if j = id then some w else s.workpapers.find j) : current i s' = current i s := by
  rw [current, h, if_neg hi, current]

/-- **The optimistic lock**: an edit that is committed has read the content and the current
version that it replaces. Had another edit come in between, the number of its version
would be taken. -/
theorem Updated.current_eq {i : Uuid} {ctx : Ctx} {dto : UpdateWorkpaperDto} {before w w' : Workpaper} {s s₁ s₂ : Db}
    (h : Updated (Later i) s ctx i dto before w w' s₁ s₂) (hs : Numbered i s) :
    before.toWorkpaperContent = w.toWorkpaperContent ∧ before.currentVersion = w.currentVersion := by
  obtain ⟨s₀, h₀, h₁, hread⟩ := h.read
  obtain ⟨hs₀, -⟩ := h₀ hs
  obtain ⟨hs₁, hlater⟩ := h₁ hs₀
  have hbefore := (found_eq_some.mp hread).1
  obtain ⟨c, n, hcur, hle, hsame⟩ := hlater _ _ (current_eq_some.mpr ⟨before, hbefore, rfl, rfl⟩)
  obtain ⟨w₁, hw₁, rfl, rfl⟩ := current_eq_some.mp hcur
  rw [h.row, Option.some.injEq] at hw₁
  subst hw₁
  have hcurrent : before.currentVersion = w.currentVersion := by
    by_contra hne
    obtain ⟨hpos, -⟩ := hs₀.numbers before hbefore
    obtain ⟨j, v, hv, hvi, hvn⟩ := ((hs₁.numbers w h.row).2 before.currentVersion).mpr ⟨hpos, by omega⟩
    exact h.version j v hv ⟨hvi, hvn⟩
  exact ⟨(hsame hcurrent).symm, hcurrent⟩

/-- An edit increments the current version. -/
theorem edited_next {ctx : Ctx} {dto : UpdateWorkpaperDto} {before w w' : Workpaper}
    (h : edited ctx dto before w = .ok w') : w'.currentVersion = w.currentVersion + 1 := by
  unfold edited at h
  split at h <;> cases h
  rfl

theorem Updated.versionStep {i : Uuid} {ctx : Ctx} {id : Uuid} {dto : UpdateWorkpaperDto} {before w w' : Workpaper}
    {s s₁ s₂ : Db} (h : Updated (Later i) s ctx id dto before w w' s₁ s₂) (hs : Numbered i s) :
    VersionStep i (.update ctx id dto) s₁ s₂ := by
  obtain ⟨changeSummary, hfresh, hversions⟩ := h.versions
  by_cases hi : i = id
  · subst hi
    obtain ⟨hcontent, hcurrent⟩ := h.current_eq hs
    exact .edited w w' (ctx.uuid 0) _ ⟨ctx, dto, rfl⟩ h.row (by rw [h.rows, if_pos rfl]) (edited_next h.edit) hfresh
      hversions ⟨rfl, hcurrent⟩ ⟨hcontent, hcurrent⟩
  · refine .kept (current_of_rows hi h.rows) (fun j v hv => ?_) fun _ _ _ => by rw [h.rows, if_neg hi]
    rw [hversions]
    split
    · rename_i hj
      subst hj
      rw [hfresh]
      constructor
      · intro heq
        cases heq
        exact absurd hv.symm hi
      · intro heq
        cases heq
    · rfl

/-- Every call of a request is a step of the versions. -/
theorem Call.versionStep {i : Uuid} {r : Request} {s s₁ s₂ : Db} (h : Call (Later i) s r s₁ s₂) (hs : Numbered i s) :
    VersionStep i r s₁ s₂ := by
  rcases h with haside | hcommit
  · refine .kept ?_ (sameVersions_of_eq haside.versions) fun _ _ _ => by rw [haside.workpapers]
    rw [current, haside.workpapers, current]
  cases hcommit with
  | @create ctx engagementId dto _ _ hc =>
    obtain ⟨content, hrow⟩ := hc.row
    have hversions : s₂.versions = s₁.versions := by rw [hc.rest]
    by_cases hi : i = ctx.uuid 0
    · subst hi
      exact .created _ ⟨ctx, engagementId, dto, rfl⟩ hc.fresh (by rw [hrow, if_pos rfl]) rfl (sameVersions_of_eq hversions)
    · exact .kept (current_of_rows hi hrow) (sameVersions_of_eq hversions) fun _ _ h => by cases h
  | update hu => exact hu.versionStep hs
  | @transition ctx id dto t wp w _ _ ht =>
    have hversions : s₂.versions = s₁.versions := by rw [ht.rest]
    refine .kept ?_ (sameVersions_of_eq hversions) fun _ _ h => by cases h
    by_cases hi : i = id
    · subst hi
      obtain ⟨hcontent, hversion, -⟩ := transitioned_fields ctx t wp w
      rw [current, ht.rows, if_pos rfl, current, ht.row, Option.map_some, Option.map_some, hcontent, hversion]
    · exact current_of_rows hi ht.rows
  | createReviewNote hn =>
    have hwp : s₂.workpapers = s₁.workpapers := by rw [hn.rest]
    exact .kept (by rw [current, hwp, current]) (sameVersions_of_eq (by rw [hn.rest])) fun _ _ h => by cases h
  | updateReviewNote hn =>
    have hwp : s₂.workpapers = s₁.workpapers := by rw [hn.rest]
    exact .kept (by rw [current, hwp, current]) (sameVersions_of_eq (by rw [hn.rest])) fun _ _ h => by cases h

/-- Requests that interleave keep the invariant, and rely on no more than that. -/
theorem versions_relyGuarantee (i : Uuid) : RelyGuarantee serve (fun _ _ => True) (Numbered i)
    (fun _ => Later i) fun r s s' => Numbered i s → VersionStep i r s s' where
  refl _ := Later.refl i
  trans _ _ _ _ := Later.trans
  keep _ _ _ h hG := h.step (hG h)
  start c r h _ := by
    have hG : ∀ a b, Call (Later i) c.st r a b → (Numbered i a → VersionStep i r a b) :=
      fun _ _ hcall _ => hcall.versionStep h
    exact .inr (((serve_meets (Interference.of_later i) r c.st).mono_step hG).mono fun _ _ _ => trivial)
  compat _ _ _ _ _ _ _ _ _ _ _ _ _ hG := Later.step hG

/-! ### The contents that edits replace -/

/-- The next event is an edit of workpaper `i`: an update request of it has its turn and
writes the row. -/
def Edits (i : Uuid) (c : Config Request Db HttpError Response) (e : Event Request) : Prop :=
  ∃ j ctx dto p, e = .turn j ∧ c.threads[j]? = some ⟨.update ctx i dto, p⟩ ∧
    (c.next serve e).st.workpapers.find i ≠ c.st.workpapers.find i

open Classical in
/-- The contents that the row had just before each edit, the first edit first. -/
noncomputable def replaced (i : Uuid) (s₀ : Db) : List (Event Request) → List WorkpaperContent
  | [] => []
  | e :: past =>
    let c := interleave serve s₀ past
    replaced i s₀ past ++
      if Edits i c e then (c.st.workpapers.find i).toList.map Workpaper.toWorkpaperContent else []

/-- The versions of workpaper `i` are these contents, in order. -/
structure Recorded (i : Uuid) (s : Db) (contents : List WorkpaperContent) : Prop where
  absent : s.workpapers.find i = none → contents = []
  count : ∀ w, s.workpapers.find i = some w → contents.length + 1 = w.currentVersion
  snapshots : ∀ j v, s.versions.find j = some v → v.workpaperId = i →
    v.snapshot.currentVersion = v.versionNumber ∧
      contents[v.versionNumber - 1]? = some v.snapshot.toWorkpaperContent

theorem Recorded.congr {i : Uuid} {s s' : Db} {contents : List WorkpaperContent} (h : Recorded i s contents)
    (hrow : current i s' = current i s) (hversions : SameVersions i s s') : Recorded i s' contents := by
  refine ⟨fun hnone => ?_, fun w' hw' => ?_, fun j v hv hi => h.snapshots j v ((hversions j v hi).mp hv) hi⟩
  · refine h.absent ?_
    rw [current, hnone, Option.map_none, current, eq_comm, Option.map_eq_none_iff] at hrow
    exact hrow
  · have hcur : current i s = some (w'.toWorkpaperContent, w'.currentVersion) := by
      rw [← hrow, current, hw']
      rfl
    obtain ⟨w, hw, -, hn⟩ := current_eq_some.mp hcur
    rw [h.count w hw, hn]

/-- An edit adds the content that it replaces. -/
theorem Recorded.edited {i : Uuid} {ctx : Ctx} {dto : UpdateWorkpaperDto} {s s' : Db} {contents : List WorkpaperContent}
    (hN : Numbered i s) (h : Recorded i s contents) (hs : VersionStep i (.update ctx i dto) s s')
    (hwritten : s'.workpapers.find i ≠ s.workpapers.find i) :
    Recorded i s' (contents ++ (s.workpapers.find i).toList.map Workpaper.toWorkpaperContent) := by
  cases hs with
  | kept _ _ unwritten => exact absurd (unwritten ctx dto rfl) hwritten
  | created w' create =>
    obtain ⟨_, _, _, heq⟩ := create
    cases heq
  | edited w w' j v _ row row' next fresh versions number snapshot =>
    have hcount := h.count w row
    have hsome : s'.workpapers.find i ≠ none := by simp [row']
    rw [row, Option.toList_some, List.map_singleton]
    refine ⟨fun hnone => absurd hnone hsome, fun w₁ hw₁ => ?_, fun j' v' hv' hi' => ?_⟩
    · rw [row', Option.some.injEq] at hw₁
      subst hw₁
      rw [List.length_append, List.length_singleton, next, hcount]
    · rw [versions] at hv'
      split at hv'
      · -- the version that the edit has inserted
        rw [Option.some.injEq] at hv'
        subst hv'
        refine ⟨snapshot.2.trans number.2.symm, ?_⟩
        have hlast : v.versionNumber - 1 = contents.length := by omega
        rw [hlast, List.getElem?_append_right le_rfl, Nat.sub_self, snapshot.1]
        rfl
      · obtain ⟨hn, hget⟩ := h.snapshots j' v' hv' hi'
        have hbelow := ((hN.numbers w row).2 v'.versionNumber).mp ⟨j', v', hv', hi', rfl⟩
        exact ⟨hn, by rw [List.getElem?_append_left (by omega), hget]⟩

/-- The versions are the contents that the edits have replaced, whatever the interleaving. -/
theorem recorded_of_interleave {i : Uuid} {s₀ : Db} (hN : Numbered i s₀) (h₀ : Recorded i s₀ []) :
    ∀ evs, Recorded i (interleave serve s₀ evs).st (replaced i s₀ evs) := by
  intro evs
  induction evs with
  | nil => exact h₀
  | cons e past ih =>
    have hinv := ((versions_relyGuarantee i).sound hN past (scheduled_of_forall (fun _ _ => trivial) past)).1
    have hturn := (versions_relyGuarantee i).turn hN (scheduled_of_forall (fun _ _ => trivial) past)
    rw [replaced]
    split
    · rename_i hedits
      obtain ⟨j, ctx, dto, p, rfl, hj, hwritten⟩ := hedits
      rcases hturn j with heq | ⟨th, hth, hG⟩
      · exact absurd (by rw [heq]) hwritten
      · rw [hj, Option.some.injEq] at hth
        subst hth
        exact ih.edited hinv (hG hinv) hwritten
    · rename_i hedits
      rw [List.append_nil]
      cases e with
      | start r => exact ih
      | turn j =>
        rcases hturn j with heq | ⟨⟨r, p⟩, hth, hG⟩
        · rw [interleave, heq]
          exact ih
        · rw [interleave]
          cases hG hinv with
          | kept row versions _ => exact ih.congr row versions
          | created w' _ row row' first versions =>
            have hempty := ih.absent row
            rw [hempty] at ih ⊢
            have hsome : ((interleave serve s₀ past).next serve (.turn j)).st.workpapers.find i ≠ none := by
              simp [row']
            refine ⟨fun _ => rfl, fun w hw => ?_, fun j' v hv hi => ih.snapshots j' v ((versions j' v hi).mp hv) hi⟩
            rw [row', Option.some.injEq] at hw
            subst hw
            exact first.symm
          | edited w w' _ _ update row row' next _ _ _ _ =>
            obtain ⟨ctx, dto, rfl⟩ := update
            refine absurd ⟨j, ctx, dto, p, rfl, hth, ?_⟩ hedits
            rw [row, row', ne_eq, Option.some.injEq]
            rintro rfl
            omega

/-! ### What an edit has seen -/

/-- The first call of an edit reads the row, and the rest of it is an edit of that row. -/
theorem serve_update_first {ctx : Ctx} {i : Uuid} {dto : UpdateWorkpaperDto} {u : Db → Db}
    {k : Db → Service Response} (h : serve (.update ctx i dto) = .act u k) (s : Db) :
    u s = s ∧ (k s).Meets (Later i)
      (fun a b => Aside a b ∨ ∃ before w w', found ctx s i = some before ∧
        Updated (Later i) s ctx i dto before w w' a b) (fun _ _ => True) s := by
  unfold serve at h
  dsimp only at h
  split at h
  · cases h
  cases h
  refine ⟨rfl, ?_⟩
  show Prog.Meets _ _ _ ((_ >>= updateRead ctx i dto) >>= fun w => pure (Response.workpaper w)) s
  dsimp only [found]
  rcases hfound : ctx.findById s.workpapers i fun w => w.deletedAt.isNone with _ | before
  · trivial
  · show Prog.Meets _ _ _ (updateRead ctx i dto before >>= fun w => pure (Response.workpaper w)) s
    rw [Prog.meets_bind]
    refine ((updateRead_meets (Interference.of_later i) ctx i dto hfound).mono_step ?_).mono ?_
    · rintro a b (haside | ⟨w, w', hupd⟩)
      · exact .inl haside
      · exact .inr ⟨before, w, w', rfl, hupd⟩
    · rintro (e | w) s' - <;> trivial

/-- **No lost update**: from the first call of an edit to the edit, the content and the
current version of the workpaper stay what they are. -/
theorem edit_has_seen {i : Uuid} {s₀ : Db} (hN : Numbered i s₀) {past mid : List (Event Request)} {j : ℕ} {ctx : Ctx}
    {dto : UpdateWorkpaperDto}
    (hj : (interleave serve s₀ past).threads[j]? = some ⟨.update ctx i dto, serve (.update ctx i dto)⟩)
    (hedits : Edits i (interleave serve s₀ (mid ++ .turn j :: past)) (.turn j)) :
    current i (interleave serve s₀ (mid ++ .turn j :: past)).st = current i (interleave serve s₀ past).st := by
  have hrg := versions_relyGuarantee i
  have hall : ∀ evs, Scheduled serve (fun _ _ => True) s₀ evs := scheduled_of_forall fun _ _ => trivial
  obtain ⟨hinv, -⟩ := hrg.sound hN past (hall past)
  set s := (interleave serve s₀ past).st
  have hfirst : ∀ u k, serve (.update ctx i dto) = .act u k → (k s).Meets (Later i)
      (fun a b => Aside a b ∨ ∃ before w w', found ctx s i = some before ∧
        Updated (Later i) s ctx i dto before w w' a b) (fun _ _ => True) (u s) := by
    intro u k hact
    obtain ⟨hu, hM⟩ := serve_update_first hact s
    rw [hu]
    exact hM
  obtain ⟨j', _, _, _, ⟨⟩, -, hwritten⟩ := hedits
  rcases hrg.turn_later hN (fun _ _ _ _ _ _ => Later.step) hj hfirst mid (hall _) with heq | haside | ⟨before, w, w', hfound, hupd⟩
  · exact absurd (by rw [heq]) hwritten
  · exact absurd (by rw [haside.workpapers]) hwritten
  · obtain ⟨hcontent, hcurrent⟩ := hupd.current_eq hinv
    rw [current, hupd.row, current, (found_eq_some.mp hfound).1, Option.map_some, Option.map_some, hcontent, hcurrent]

/-- A workpaper that does not exist has nothing to be numbered or recorded. -/
theorem numbered_of_absent {i : Uuid} {s : Db} (h : s.workpapers.find i = none)
    (hv : ∀ j v, s.versions.find j = some v → v.workpaperId ≠ i) : Numbered i s ∧ Recorded i s [] := by
  have hno : ∀ w, s.workpapers.find i ≠ some w := fun w => by simp [h]
  refine ⟨⟨fun _ => hv, fun w hw => absurd hw (hno w), fun j _ v _ hj _ hi => absurd hi (hv j v hj)⟩, ?_⟩
  exact ⟨fun _ => rfl, fun w hw => absurd hw (hno w), fun j v hj hi => absurd hi (hv j v hj)⟩

/-- **The version history is complete and faithful**, whatever requests interleave and
however: the versions are numbered from 1 to below the current version, without gap or
repeat; there is one for each edit, with the content the row had just before that edit;
and that content is the content at the first call of the request that makes the edit,
in which it reads the row. -/
theorem versions_faithful (s₀ : Db) (i : Uuid) (h₀ : s₀.workpapers.find i = none)
    (hv₀ : ∀ j v, s₀.versions.find j = some v → v.workpaperId ≠ i) (evs : List (Event Request)) (w : Workpaper)
    (hw : (interleave serve s₀ evs).st.workpapers.find i = some w) :
    (∀ k, (∃ j v, (interleave serve s₀ evs).st.versions.find j = some v ∧ v.workpaperId = i ∧ v.versionNumber = k) ↔
        1 ≤ k ∧ k < w.currentVersion) ∧
      (∀ j j' v v', (interleave serve s₀ evs).st.versions.find j = some v →
        (interleave serve s₀ evs).st.versions.find j' = some v' → v.workpaperId = i → v'.workpaperId = i →
        v.versionNumber = v'.versionNumber → j = j') ∧
      (replaced i s₀ evs).length = w.currentVersion - 1 ∧
      (∀ j v, (interleave serve s₀ evs).st.versions.find j = some v → v.workpaperId = i →
        (replaced i s₀ evs)[v.versionNumber - 1]? = some v.snapshot.toWorkpaperContent) ∧
      ∀ mid past j ctx dto, evs = mid ++ .turn j :: past →
        (interleave serve s₀ past).threads[j]? = some ⟨.update ctx i dto, serve (.update ctx i dto)⟩ →
        Edits i (interleave serve s₀ evs) (.turn j) →
        current i (interleave serve s₀ evs).st = current i (interleave serve s₀ past).st := by
  obtain ⟨hN, hR⟩ := numbered_of_absent h₀ hv₀
  have hnumbered := ((versions_relyGuarantee i).sound hN evs (scheduled_of_forall (fun _ _ => trivial) evs)).1
  have hrecorded := recorded_of_interleave hN hR evs
  refine ⟨(hnumbered.numbers w hw).2, hnumbered.once, ?_, fun j v hv hi => (hrecorded.snapshots j v hv hi).2, ?_⟩
  · have hcount := hrecorded.count w hw
    omega
  · rintro mid past j ctx dto rfl hj hedits
    exact edit_has_seen hN hj hedits

/-- Ann and Ben edit workpaper 100 at the same time: both read it before either writes. -/
def race : List (Event Request) :=
  [.turn 2, .turn 1, .turn 2, .turn 1,
    .start (.update (actor 2 120) 100 { results := some (some "Agreed") }),
    .start (.update (actor 1 110) 100 { conclusion := some (some "Adequate") })] ++
    List.replicate 5 (.turn 0) ++
    [.start (.create (actor 1 100) 10 { reference := "B.1", title := "Cash", procedure := some (some "Inspect") })]

/-- Only one of the two edits goes through. -/
theorem versions_faithful_race : ∃ w, (interleave serve office race).st.workpapers.find 100 = some w ∧
    w.conclusion = some "Adequate" ∧ w.results = none ∧ (replaced 100 office race).length = 1 ∧
    ∀ k, (∃ j v, (interleave serve office race).st.versions.find j = some v ∧ v.workpaperId = 100 ∧
      v.versionNumber = k) ↔ 1 ≤ k ∧ k < 2 := by
  have hnone : office.workpapers.find 100 = none := by decide
  have hempty : ∀ j v, office.versions.find j = some v → v.workpaperId ≠ 100 := by
    intro j v hv
    cases hv
  obtain ⟨hnumbers, -, hlength, -⟩ := versions_faithful office 100 hnone hempty race _ rfl
  exact ⟨_, rfl, rfl, rfl, hlength, hnumbers⟩

end AuditSphere.Workpapers
