import AuditSphere.Intelligence.Provider
import AuditSphere.Theory.Program
import Mathlib.Data.List.Forall2

/-!
# Merged drafts

Whatever a model drafts, the baseline is upheld in what is accepted (`baseline_upheld`): its assessments are
kept, its exceptions, notes and register come first, its sections are all there, and nothing is cited that
is not in the context. The merged content may still have more caveats than the schema admits, but nothing
else goes wrong with it (`merged_fits_iff`).
-/

namespace AuditSphere.Intelligence

open Theory Shared.Assistant

/-! ### Loops -/

section Loops

variable {baseline : Content} {context : AuditContext}

/-- What the loop over the other exceptions keeps. -/
theorem addExceptions_keeps (P : List Shared.Assistant.Exception → Prop)
    {more exceptions : List Shared.Assistant.Exception} (h₀ : P exceptions)
    (hstep : ∀ e ∈ more, ∀ es : List Shared.Assistant.Exception, es.length < MAX_EXCEPTIONS → P es →
      P (es ++ [{ e with reference := exceptionId (es.length + 1), status := .potential }])) :
    P (addExceptions more exceptions) := by
  induction more generalizing exceptions with
  | nil => exact h₀
  | cons e more ih =>
    refine ih ?_ fun e' he' => hstep e' (List.mem_cons_of_mem _ he')
    split_ifs with hnew
    · exact hstep e List.mem_cons_self exceptions hnew.1 h₀
    · exact h₀

/-- What the loop over new rows keeps. -/
theorem addRows_keeps [Runtime] [Casing] (P : Entries → Prop) {rows : List Shared.Assistant.Row}
    {entries entries' : Entries} (h : addRows baseline context rows entries = .ok entries') (h₀ : P entries)
    (hstep : ∀ row ∈ rows, ∀ e : Entries, e.1.length < MAX_EXCEPTIONS → P e →
      P (e.1 ++ [rowException row (e.1.length + 1)], e.2 ++ [numberedRow row (e.1.length + 1)])) : P entries' := by
  induction rows generalizing entries with
  | nil =>
    cases h
    exact h₀
  | cons row rows ih =>
    unfold addRows at h
    split_ifs at h with hfull
    · cases h
      exact h₀
    · obtain ⟨_, -, h⟩ := Prog.bind_eq_ok.mp h
      exact ih h (hstep row List.mem_cons_self entries (Nat.lt_of_not_le hfull) h₀) fun r hr =>
        hstep r (List.mem_cons_of_mem _ hr)

end Loops

/-! ### Numbered exceptions -/

/-- The exceptions are numbered in their order. -/
def NumberedExceptions (es : List Shared.Assistant.Exception) : Prop :=
  ∀ i e, es[i]? = some e → e.reference = exceptionId (i + 1)

theorem NumberedExceptions.concat {es : List Shared.Assistant.Exception} (h : NumberedExceptions es)
    {e : Shared.Assistant.Exception} (he : e.reference = exceptionId (es.length + 1)) : NumberedExceptions (es ++ [e]) := by
  intro i e' hi
  rcases Nat.lt_trichotomy i es.length with hlt | rfl | hgt
  · rw [List.getElem?_append_left hlt] at hi
    exact h i e' hi
  · rw [List.getElem?_concat_length] at hi
    exact Option.some.inj hi ▸ he
  · rw [List.getElem?_eq_none (by rw [List.length_append, List.length_singleton]; omega)] at hi
    cases hi

/-- A row of the register and the exception that is added with it. -/
structure Paired (e : Shared.Assistant.Exception) (r : Shared.Assistant.Row) : Prop where
  reference : cell r 0 = e.reference
  observation : cell r 6 = e.observation
  risk : cell r 7 = e.risk
  unrated : cell r 8 = UNRATED_TEXT ∧ e.severity = .unrated ∧ e.status = .potential
  sourceIds : r.sourceIds = e.sourceIds

theorem paired_added {row : Shared.Assistant.Row} (hcells : row.cells.length = 10) (number : ℕ) :
    Paired (rowException row number) (numberedRow row number) := by
  have hset (k : ℕ) (hk : k ≠ 0) (hk' : k ≠ 8) : cell (numberedRow row number) k = cell row k := by
    simp [cell, numberedRow, List.getD_eq_getElem?_getD, List.getElem?_set_ne (Ne.symm hk),
      List.getElem?_set_ne (Ne.symm hk')]
  refine ⟨?_, hset 6 (by decide) (by decide), hset 7 (by decide) (by decide), ⟨?_, rfl, rfl⟩, rfl⟩
  · simp [cell, numberedRow, rowException, hcells]
  · simp [cell, numberedRow, hcells]

/-! ### Drafts that are checked -/

section Checked

variable {result baseline : Content} {context : AuditContext}

theorem sectionOf_some {c : Content} {title : String} {s : Section} (h : sectionOf c title = some s) :
    s ∈ c.sections ∧ s.title = title :=
  ⟨List.mem_of_find?_eq_some h, by simpa using List.find?_some h⟩

theorem sectionOf_isSome {c : Content} {s : Section} (h : s ∈ c.sections) : (sectionOf c s.title).isSome := by
  rw [sectionOf, List.find?_isSome]
  exact ⟨s, h, by simp⟩

/-- The rows of the register of a content, if it has one. -/
def baseRows (c : Content) : List Shared.Assistant.Row := ((sectionOf c EXCEPTION_REGISTER_TITLE).map (·.rows)).getD []

theorem mem_baseRows {c : Content} {r : Shared.Assistant.Row} (h : r ∈ baseRows c) : ∃ s ∈ c.sections, r ∈ s.rows := by
  unfold baseRows at h
  rcases hs : sectionOf c EXCEPTION_REGISTER_TITLE with _ | s
  · rw [hs] at h
    cases h
  · rw [hs] at h
    exact ⟨s, (sectionOf_some hs).1, h⟩

/-- What a checked draft satisfies. -/
structure Checked (result baseline : Content) (context : AuditContext) : Prop where
  cited : citedIds result ⊆ context.records.map fun r => r.source.id
  tables : ∀ s ∈ result.sections, ∀ r ∈ s.rows, r.cells.length = s.columns.length
  titles : ∀ s ∈ baseline.sections, ∃ r ∈ result.sections, r.title = s.title

theorem checkDraft_ok (h : checkDraft result baseline context = .ok ()) : Checked result baseline context := by
  unfold checkDraft at h
  dsimp only at h
  split_ifs at h with hcited htables hfacts htitles
  refine ⟨fun id hid => ?_, fun s hs r hr => ?_, fun s hs => ?_⟩
  · by_contra hnot
    exact hcited (List.any_eq_true.mpr ⟨id, hid, decide_eq_true hnot⟩)
  · by_contra hnot
    exact htables (List.any_eq_true.mpr ⟨s, hs, List.any_eq_true.mpr ⟨r, hr, decide_eq_true hnot⟩⟩)
  · by_contra hnot
    refine htitles (List.any_eq_true.mpr ⟨s, hs, ?_⟩)
    rw [Bool.not_eq_true', List.any_eq_false]
    exact fun r hr htitle => hnot ⟨r, hr, of_decide_eq_true htitle⟩

theorem flatMap_subset_iff {α β : Type} {f : α → List β} {l : List α} {m : List β} :
    l.flatMap f ⊆ m ↔ ∀ a ∈ l, f a ⊆ m := by
  constructor
  · exact fun h a ha b hb => h (List.mem_flatMap.mpr ⟨a, ha, hb⟩)
  · intro h b hb
    obtain ⟨a, ha, hb⟩ := List.mem_flatMap.mp hb
    exact h a ha hb

/-- All sources that a section cites are among some. -/
theorem sectionIds_subset {s : Section} {ids : List String} : sectionIds s ⊆ ids ↔
    (∀ i ∈ s.items, i.sourceIds ⊆ ids) ∧ ∀ r ∈ s.rows, r.sourceIds ⊆ ids := by
  rw [sectionIds, List.append_subset, flatMap_subset_iff, flatMap_subset_iff]

/-- All sources that a content cites are among some. -/
theorem citedIds_subset {c : Content} {ids : List String} : citedIds c ⊆ ids ↔
    (∀ s ∈ c.sections, sectionIds s ⊆ ids) ∧ (∀ e ∈ c.exceptions, e.sourceIds ⊆ ids) ∧
      (∀ n ∈ c.reviewerNotes, n.sourceIds ⊆ ids) ∧
      (c.evidenceAssessment.sourceIds ⊆ ids ∧ ∀ check ∈ c.evidenceAssessment.checks, check.sourceIds ⊆ ids) ∧
      c.ratingProposal.sourceIds ⊆ ids := by
  simp only [citedIds, List.append_subset, flatMap_subset_iff, and_assoc]

end Checked

/-! ### Registers that are merged -/

section Register

variable {result baseline : Content} {context : AuditContext} {register : Option Section}
  {exceptions : List Shared.Assistant.Exception}

/-- What the merge of the registers yields. -/
structure MergedRegister (result baseline : Content) (register : Option Section)
    (exceptions : List Shared.Assistant.Exception) : Prop where
  /-- Without a register in the draft nothing is merged. -/
  without : sectionOf result EXCEPTION_REGISTER_TITLE = none → exceptions = baseline.exceptions
  /-- Rows of the draft's register are added, with their exceptions, under the next numbers. -/
  merged : ∀ r, sectionOf result EXCEPTION_REGISTER_TITLE = some r → r.columns = EXCEPTION_REGISTER_COLUMNS ∧
    ∃ added : List (Shared.Assistant.Row × ℕ), (∀ x ∈ added, x.1 ∈ r.rows ∧ x.2 ≤ MAX_EXCEPTIONS) ∧
      exceptions = baseline.exceptions ++ added.map (fun x => rowException x.1 x.2) ∧
      ∃ items, register = some { r with rows := baseRows baseline ++ added.map (fun x => numberedRow x.1 x.2), items } ∧
        (items = [REGISTER_NOTICE] ∨ (∃ b ∈ baseline.sections, items = b.items) ∨ items = r.items)
  numbered : NumberedExceptions baseline.exceptions → NumberedExceptions exceptions
  length : baseline.exceptions.length ≤ MAX_EXCEPTIONS → exceptions.length ≤ MAX_EXCEPTIONS

theorem MergedRegister.prefix_exceptions (h : MergedRegister result baseline register exceptions) :
    baseline.exceptions <+: exceptions := by
  rcases hr : sectionOf result EXCEPTION_REGISTER_TITLE with _ | r
  · exact (h.without hr).symm ▸ List.prefix_rfl
  · obtain ⟨-, _, -, rfl, -⟩ := h.merged r hr
    exact List.prefix_append _ _

/-- What holds of every exception after the merge of the registers. -/
theorem MergedRegister.exceptions_all (E : Shared.Assistant.Exception → Prop)
    (h : MergedRegister result baseline register exceptions) (hbaseline : ∀ e ∈ baseline.exceptions, E e)
    (hresult : ∀ s ∈ result.sections, ∀ row ∈ s.rows, ∀ n ≤ MAX_EXCEPTIONS, E (rowException row n)) :
    ∀ e ∈ exceptions, E e := by
  intro e he
  rcases hr : sectionOf result EXCEPTION_REGISTER_TITLE with _ | r
  · exact hbaseline e (h.without hr ▸ he)
  · obtain ⟨-, added, hadded, rfl, -⟩ := h.merged r hr
    rcases List.mem_append.mp he with he | he
    · exact hbaseline e he
    · obtain ⟨x, hx, rfl⟩ := List.mem_map.mp he
      exact hresult r (sectionOf_some hr).1 x.1 (hadded x hx).1 x.2 (hadded x hx).2

/-- What holds of every row of the register after the merge. -/
theorem MergedRegister.rows_all (R : Shared.Assistant.Row → Prop)
    (h : MergedRegister result baseline register exceptions) (hbaseline : ∀ s ∈ baseline.sections, ∀ r ∈ s.rows, R r)
    (hresult : ∀ s ∈ result.sections, ∀ row ∈ s.rows, ∀ n ≤ MAX_EXCEPTIONS, R (numberedRow row n))
    {r s : Section} (hr : sectionOf result EXCEPTION_REGISTER_TITLE = some r) (hs : register = some s) :
    ∀ row ∈ s.rows, R row := by
  obtain ⟨-, added, hadded, -, items, hsome, -⟩ := h.merged r hr
  obtain rfl := Option.some.inj (hs.symm.trans hsome)
  intro row hrow
  rcases List.mem_append.mp hrow with hrow | hrow
  · obtain ⟨b, hb, hrow⟩ := mem_baseRows hrow
    exact hbaseline b hb row hrow
  · obtain ⟨x, hx, rfl⟩ := List.mem_map.mp hrow
    exact hresult r (sectionOf_some hr).1 x.1 (hadded x hx).1 x.2 (hadded x hx).2

/-- What holds of the statements of the register after the merge. -/
theorem MergedRegister.items_all (I : List Statement → Prop)
    (h : MergedRegister result baseline register exceptions) (hbaseline : ∀ s ∈ baseline.sections, I s.items)
    (hresult : ∀ s ∈ result.sections, I s.items) (hnotice : I [REGISTER_NOTICE])
    {r s : Section} (hr : sectionOf result EXCEPTION_REGISTER_TITLE = some r) (hs : register = some s) : I s.items := by
  obtain ⟨-, added, -, -, items, hsome, hitems⟩ := h.merged r hr
  obtain rfl := Option.some.inj (hs.symm.trans hsome)
  rcases hitems with rfl | ⟨b, hb, rfl⟩ | rfl
  · exact hnotice
  · exact hbaseline b hb
  · exact hresult r (sectionOf_some hr).1

/-- The register of a draft is merged into one with the same title. -/
theorem title_mergedSection (h : MergedRegister result baseline register exceptions) {s : Section}
    (hs : s ∈ result.sections) : (mergedSection baseline register s).title = s.title := by
  unfold mergedSection
  split_ifs with htitle hprotected
  · obtain ⟨r, hr⟩ := Option.isSome_iff_exists.mp (sectionOf_isSome hs)
    rw [htitle] at hr
    obtain ⟨-, _, -, -, _, rfl, -⟩ := h.merged r hr
    exact (sectionOf_some hr).2.trans htitle.symm
  · rcases hb : sectionOf baseline s.title with _ | b
    · rfl
    · exact (sectionOf_some hb).2
  · rfl

/-- What holds of every section of the merged content. -/
theorem mergedSection_all (S : Section → Prop) (h : MergedRegister result baseline register exceptions)
    (hbaseline : ∀ s ∈ baseline.sections, S s) (hresult : ∀ s ∈ result.sections, S s)
    (hmerged : ∀ r, sectionOf result EXCEPTION_REGISTER_TITLE = some r → ∀ s, register = some s → S s)
    {s : Section} (hs : s ∈ result.sections) : S (mergedSection baseline register s) := by
  unfold mergedSection
  split_ifs with htitle hprotected
  · obtain ⟨r, hr⟩ := Option.isSome_iff_exists.mp (sectionOf_isSome hs)
    rw [htitle] at hr
    obtain ⟨-, _, -, -, _, rfl, -⟩ := h.merged r hr
    exact hmerged r hr _ rfl
  · rcases hb : sectionOf baseline s.title with _ | b
    · exact hresult s hs
    · exact hbaseline b (sectionOf_some hb).1
  · exact hresult s hs

/-! ### The baseline is upheld -/

/-- The baseline is upheld in a content. -/
structure BaselineUpheld (baseline content : Content) (context : AuditContext) : Prop where
  assessment : content.evidenceAssessment = baseline.evidenceAssessment
  rating : content.ratingProposal = baseline.ratingProposal
  exceptions : baseline.exceptions <+: content.exceptions
  numbered : NumberedExceptions content.exceptions
  length : content.exceptions.length ≤ MAX_EXCEPTIONS
  /-- The rows of the baseline's register come first, and each row after them has an exception of its own. -/
  register : ∀ s ∈ content.sections, s.title = EXCEPTION_REGISTER_TITLE → ∃ added rows more,
    content.exceptions = baseline.exceptions ++ added ++ more ∧ s.rows = baseRows baseline ++ rows ∧
      List.Forall₂ Paired added rows
  notes : baseline.reviewerNotes <+: content.reviewerNotes
  titles : ∀ s ∈ baseline.sections, ∃ r ∈ content.sections, r.title = s.title
  /-- The sections that the model may not write are those of the baseline. -/
  kept : ∀ s ∈ content.sections, s.title ∈ PROTECTED → ∀ b, sectionOf baseline s.title = some b → s = b
  cited : citedIds content ⊆ context.records.map fun r => r.source.id

theorem isPrefix_addExceptions (more exceptions : List Shared.Assistant.Exception) :
    exceptions <+: addExceptions more exceptions :=
  addExceptions_keeps (exceptions <+: ·) List.prefix_rfl fun _ _ _ _ h => h.trans (List.prefix_append _ _)

/-- A note of the merged content is one of the baseline or of the draft. -/
theorem mem_mergedNotes {n : ReviewerNote} (hn : n ∈ (mergeDraft result baseline register exceptions).reviewerNotes) :
    n ∈ baseline.reviewerNotes ∨ n ∈ result.reviewerNotes :=
  (List.mem_append.mp (List.mem_of_mem_take hn)).imp_right List.mem_of_mem_filter

/-- What holds of every exception of the merged content. -/
theorem mergedExceptions_all (E : Shared.Assistant.Exception → Prop)
    (h : MergedRegister result baseline register exceptions) (hbaseline : ∀ e ∈ baseline.exceptions, E e)
    (hrow : ∀ s ∈ result.sections, ∀ row ∈ s.rows, ∀ n ≤ MAX_EXCEPTIONS, E (rowException row n))
    (hresult : ∀ e ∈ result.exceptions, ∀ n ≤ MAX_EXCEPTIONS,
      E { e with reference := exceptionId n, status := .potential }) :
    ∀ e ∈ (mergeDraft result baseline register exceptions).exceptions, E e := by
  refine addExceptions_keeps (fun es => ∀ e ∈ es, E e) (h.exceptions_all E hbaseline hrow) fun e he es hlt hes x hx => ?_
  rcases List.mem_append.mp hx with hx | hx
  · exact hes x hx
  · exact List.mem_singleton.mp hx ▸ hresult e he _ hlt

/-- The merged content cites what the baseline and the draft cite. -/
theorem cited_mergeDraft {ids : List String} (hbaseline : citedIds baseline ⊆ ids) (hresult : citedIds result ⊆ ids)
    (hmerge : MergedRegister result baseline register exceptions) :
    citedIds (mergeDraft result baseline register exceptions) ⊆ ids := by
  obtain ⟨hsections, hexceptions, hnotes, hassessment, hrating⟩ := citedIds_subset.mp hbaseline
  obtain ⟨hsections', hexceptions', hnotes', -, -⟩ := citedIds_subset.mp hresult
  have hrows {s : Section} (hs : s ∈ result.sections) := (sectionIds_subset.mp (hsections' s hs)).2
  refine citedIds_subset.mpr ⟨fun s hs => ?_, ?_, fun n hn => ?_, hassessment, hrating⟩
  · obtain ⟨s', hs', rfl⟩ := List.mem_map.mp hs
    refine mergedSection_all (sectionIds · ⊆ ids) hmerge hsections hsections' (fun r hr s hs => ?_) hs'
    refine sectionIds_subset.mpr ⟨?_, ?_⟩
    · refine hmerge.items_all (fun items => ∀ i ∈ items, i.sourceIds ⊆ ids)
        (fun b hb => (sectionIds_subset.mp (hsections b hb)).1)
        (fun s hs => (sectionIds_subset.mp (hsections' s hs)).1) (fun i hi => ?_) hr hs
      exact List.mem_singleton.mp hi ▸ List.nil_subset _
    · exact hmerge.rows_all (·.sourceIds ⊆ ids) (fun b hb => (sectionIds_subset.mp (hsections b hb)).2)
        (fun s hs row hrow _ _ => hrows hs row hrow) hr hs
  · exact mergedExceptions_all (·.sourceIds ⊆ ids) hmerge hexceptions (fun s hs row hrow _ _ => hrows hs row hrow)
      fun e he _ _ => hexceptions' e he
  · exact (mem_mergedNotes hn).elim (hnotes n) (hnotes' n)

/-- The checked draft upholds the baseline once it is merged with it. -/
theorem upheld_mergeDraft (hfits : baseline.Fits) (hnumbered : NumberedExceptions baseline.exceptions)
    (hbaseline : citedIds baseline ⊆ context.records.map fun r => r.source.id) (hchecked : Checked result baseline context)
    (hmerge : MergedRegister result baseline register exceptions) :
    BaselineUpheld baseline (mergeDraft result baseline register exceptions) context := by
  have htitle {s : Section} (hs : s ∈ result.sections) := title_mergedSection hmerge hs
  have hlength : exceptions.length ≤ MAX_EXCEPTIONS := hmerge.length hfits.exceptions.1
  refine ⟨rfl, rfl, hmerge.prefix_exceptions.trans (isPrefix_addExceptions _ _), ?_, ?_, ?_, ?_, ?_, ?_, ?_⟩
  · exact addExceptions_keeps NumberedExceptions (hmerge.numbered hnumbered) fun _ _ _ _ hes => hes.concat rfl
  · refine addExceptions_keeps (·.length ≤ MAX_EXCEPTIONS) hlength fun _ _ es hlt _ => ?_
    rw [List.length_append]
    exact hlt
  · intro s hs hregister
    obtain ⟨s', hs', rfl⟩ := List.mem_map.mp hs
    rw [htitle hs'] at hregister
    obtain ⟨r, hr⟩ := Option.isSome_iff_exists.mp (sectionOf_isSome hs')
    rw [hregister] at hr
    obtain ⟨hcolumns, added, hadded, hexceptions, items, hsome, -⟩ := hmerge.merged r hr
    obtain ⟨more, hmore⟩ := isPrefix_addExceptions result.exceptions exceptions
    refine ⟨added.map fun x => rowException x.1 x.2, added.map fun x => numberedRow x.1 x.2, more, ?_, ?_, ?_⟩
    · exact hexceptions ▸ hmore.symm
    · rw [mergedSection, if_pos hregister, hsome]
      rfl
    · rw [List.forall₂_map_left_iff, List.forall₂_map_right_iff, List.forall₂_same]
      intro x hx
      refine paired_added ?_ x.2
      rw [hchecked.tables r (sectionOf_some hr).1 x.1 (hadded x hx).1, hcolumns]
      rfl
  · exact List.prefix_take_iff.mpr ⟨List.prefix_append _ _, hfits.reviewerNotes.1⟩
  · intro s hs
    obtain ⟨r, hr, htitle'⟩ := hchecked.titles s hs
    exact ⟨_, List.mem_map_of_mem hr, (htitle hr).trans htitle'⟩
  · intro s hs hprotected b hb
    obtain ⟨s', hs', rfl⟩ := List.mem_map.mp hs
    rw [htitle hs'] at hprotected hb
    rw [mergedSection, if_neg (fun h => absurd (h ▸ hprotected) (by decide)), if_pos hprotected, hb]
    rfl
  · exact cited_mergeDraft hbaseline hchecked.cited hmerge

/-! ### The schema -/

/-- The number of an exception is short. -/
theorem size_exceptionId {n : ℕ} (hn : n ≤ MAX_EXCEPTIONS) : size (exceptionId n) = 6 := by
  have hlt : n < 10 ^ 3 := Nat.lt_of_le_of_lt hn (by decide)
  have hdigits : size (pad n 3) = 3 := by
    rw [size, toList_pad, unitLength_eq_length, length_numeral (by decide) hlt]
    intro c hc
    have hdigit := isDigit_of_mem_numeral hc
    rw [Char.isDigit, Bool.and_eq_true, decide_eq_true_eq, decide_eq_true_eq] at hdigit
    have hle : c.toNat ≤ 57 := hdigit.2
    omega
  rw [exceptionId, size_append, hdigits]
  rfl

theorem fits_notice : REGISTER_NOTICE.Fits := by decide +kernel

/-- A row that fits has cells that do, and what stands for a missing one does. -/
theorem isWithin_cell {row : Shared.Assistant.Row} (h : row.Fits) (k : ℕ) : IsWithin 4000 (cell row k) := by
  unfold cell
  rcases hk : row.cells[k]? with _ | c
  · rw [List.getD_eq_getElem?_getD, hk]
    exact Nat.zero_le _
  · rw [List.getD_eq_getElem?_getD, hk]
    exact h.2.1 c (List.mem_of_getElem? hk)

theorem fits_rowException {row : Shared.Assistant.Row} (h : row.Fits) {n : ℕ} (hn : n ≤ MAX_EXCEPTIONS) :
    (rowException row n).Fits :=
  ⟨(size_exceptionId hn).trans_le (by decide), (isWithin_cell h 6).mono (by decide), (isWithin_cell h 7).mono (by decide),
    h.2.2⟩

theorem fits_numberedRow {row : Shared.Assistant.Row} (h : row.Fits) {n : ℕ} (hn : n ≤ MAX_EXCEPTIONS) :
    (numberedRow row n).Fits := by
  obtain ⟨hlength, hcells, hrefs⟩ := h
  refine ⟨?_, fun c hc => ?_, hrefs⟩
  · rwa [numberedRow, List.length_set, List.length_set]
  · rcases List.mem_or_eq_of_mem_set hc with hc | rfl
    · rcases List.mem_or_eq_of_mem_set hc with hc | rfl
      · exact hcells c hc
      · exact (size_exceptionId hn).trans_le (by decide)
    · decide

/-- The merged register fits if it has no more rows than there can be exceptions. -/
theorem fits_register (hbaseline : baseline.Fits) (hresult : result.Fits)
    (hrows : (baseRows baseline).length ≤ baseline.exceptions.length)
    (hmerge : MergedRegister result baseline register exceptions) {r s : Section}
    (hr : sectionOf result EXCEPTION_REGISTER_TITLE = some r) (hs : register = some s) : s.Fits := by
  have hsection {s : Section} (hs : s ∈ result.sections) := hresult.sections.2 s hs
  have hitems := hmerge.items_all (fun items => items.length ≤ 100 ∧ ∀ i ∈ items, i.Fits)
    (fun b hb => (hbaseline.sections.2 b hb).items) (fun s hs => (hsection hs).items)
    ⟨by decide, fun i hi => List.mem_singleton.mp hi ▸ fits_notice⟩ hr hs
  have hfits := hmerge.rows_all Row.Fits (fun b hb => (hbaseline.sections.2 b hb).rows.2)
    (fun s hs row hrow n hn => fits_numberedRow ((hsection hs).rows.2 row hrow) hn) hr hs
  have hlength := hmerge.length hbaseline.exceptions.1
  obtain ⟨-, added, -, hexceptions, items, hsome, -⟩ := hmerge.merged r hr
  obtain rfl := Option.some.inj (hs.symm.trans hsome)
  have hr' := hsection (sectionOf_some hr).1
  refine ⟨hr'.title, hitems, hr'.columns, ?_, hfits⟩
  rw [hexceptions, List.length_append, List.length_map] at hlength
  rw [List.length_append, List.length_map]
  exact (Nat.add_le_add_right hrows _).trans hlength

/-- What is merged fits the schema unless it has too many caveats. -/
theorem fits_mergeDraft (hbaseline : baseline.Fits) (hresult : result.Fits)
    (hrows : (baseRows baseline).length ≤ baseline.exceptions.length)
    (hmerge : MergedRegister result baseline register exceptions) :
    (mergeDraft result baseline register exceptions).Fits ↔
      (mergeDraft result baseline register exceptions).caveats.length ≤ 100 := by
  refine ⟨fun h => h.caveats.1, fun hcaveats => ?_⟩
  refine ⟨hresult.title, hresult.narrative, ⟨?_, fun s hs => ?_⟩, ⟨?_, ?_⟩, ⟨List.length_take_le _ _, fun n hn => ?_⟩,
    hbaseline.evidenceAssessment, hbaseline.ratingProposal, hresult.suggestions, hresult.checklist, hcaveats,
    fun c hc => ?_⟩
  · exact (List.length_map _).trans_le hresult.sections.1
  · obtain ⟨s', hs', rfl⟩ := List.mem_map.mp hs
    exact mergedSection_all Section.Fits hmerge hbaseline.sections.2 hresult.sections.2
      (fun r hr s hs => fits_register hbaseline hresult hrows hmerge hr hs) hs'
  · refine addExceptions_keeps (·.length ≤ MAX_EXCEPTIONS) (hmerge.length hbaseline.exceptions.1) fun _ _ es hlt _ => ?_
    rw [List.length_append]
    exact hlt
  · refine mergedExceptions_all Exception.Fits hmerge hbaseline.exceptions.2 (fun s hs row hrow n hn => ?_)
      fun e he n hn => ?_
    · exact fits_rowException ((hresult.sections.2 s hs).rows.2 row hrow) hn
    · exact ⟨(size_exceptionId hn).trans_le (by decide), (hresult.exceptions.2 e he).2⟩
  · exact (mem_mergedNotes hn).elim (hbaseline.reviewerNotes.2 n) (hresult.reviewerNotes.2 n)
  · rcases List.mem_append.mp (List.mem_eraseDups.mp hc) with hc | hc
    · exact hresult.caveats.2 c hc
    · exact hbaseline.caveats.2 c (List.mem_of_mem_filter hc)

end Register

/-! ### What is accepted -/

section Accepted

variable [Runtime] [Casing] {value : Option Content} {result baseline content : Content} {context : AuditContext}
  {register : Option Section} {exceptions : List Shared.Assistant.Exception}

/-- What an accepted draft is made of. -/
theorem validateProviderDraft_ok (h : validateProviderDraft value baseline context = .ok content) :
    ∃ result register exceptions, value = some result ∧ result.Fits ∧ Checked result baseline context ∧
      mergeRegister result baseline context = .ok (register, exceptions) ∧
        content = mergeDraft result baseline register exceptions := by
  unfold validateProviderDraft at h
  split at h
  · cases h
  · rename_i result hvalue
    obtain ⟨hsome, hfits⟩ := Option.filter_eq_some_iff.mp hvalue
    obtain ⟨_, hcheck, h⟩ := Prog.bind_eq_ok.mp h
    obtain ⟨⟨register, exceptions⟩, hmerge, h⟩ := Prog.bind_eq_ok.mp h
    cases h
    exact ⟨result, register, exceptions, hsome, of_decide_eq_true hfits, checkDraft_ok hcheck, hmerge, rfl⟩

/-- The loop adds rows, and exceptions for them. -/
theorem addRows_added {rows : List Shared.Assistant.Row} {entries entries' : Entries}
    (h : addRows baseline context rows entries = .ok entries') :
    ∃ added : List (Shared.Assistant.Row × ℕ), (∀ x ∈ added, x.1 ∈ rows ∧ x.2 ≤ MAX_EXCEPTIONS) ∧
      entries'.1 = entries.1 ++ added.map (fun x => rowException x.1 x.2) ∧
      entries'.2 = entries.2 ++ added.map fun x => numberedRow x.1 x.2 := by
  refine addRows_keeps (fun e => ∃ added : List (Shared.Assistant.Row × ℕ),
    (∀ x ∈ added, x.1 ∈ rows ∧ x.2 ≤ MAX_EXCEPTIONS) ∧
      e.1 = entries.1 ++ added.map (fun x => rowException x.1 x.2) ∧
      e.2 = entries.2 ++ added.map fun x => numberedRow x.1 x.2) h ⟨[], nofun, ?_, ?_⟩ ?_
  · exact (List.append_nil _).symm
  · exact (List.append_nil _).symm
  · rintro row hrow e hlt ⟨added, hadded, h₁, h₂⟩
    refine ⟨added ++ [(row, e.1.length + 1)], fun x hx => ?_, ?_, ?_⟩
    · rcases List.mem_append.mp hx with hx | hx
      · exact hadded x hx
      · rw [List.mem_singleton.mp hx]
        exact ⟨hrow, hlt⟩
    · rw [List.map_append, ← List.append_assoc, ← h₁]
      rfl
    · rw [List.map_append, ← List.append_assoc, ← h₂]
      rfl

theorem mergeRegister_ok (h : mergeRegister result baseline context = .ok (register, exceptions)) :
    MergedRegister result baseline register exceptions := by
  unfold mergeRegister at h
  dsimp only at h
  split at h
  · rename_i hnone
    cases h
    refine ⟨fun _ => rfl, fun r hr => ?_, id, id⟩
    rw [hnone] at hr
    cases hr
  · rename_i r hr
    split_ifs at h with hcolumns hdup
    obtain ⟨⟨exceptions', rows⟩, hadd, h⟩ := Prog.bind_eq_ok.mp h
    cases h
    refine ⟨fun hnone => ?_, fun r' hr' => ?_, fun hnumbered => ?_, fun hlength => ?_⟩
    · rw [hnone] at hr
      cases hr
    · obtain rfl := Option.some.inj (hr.symm.trans hr')
      obtain ⟨added, hadded, rfl, rfl⟩ := addRows_added hadd
      refine ⟨Decidable.not_not.mp fun hne => hcolumns (.inr hne), added, fun x hx => ?_, rfl, _, rfl, ?_⟩
      · exact ⟨List.mem_of_mem_filter (hadded x hx).1, (hadded x hx).2⟩
      · split
        · exact .inl rfl
        · refine .inr ?_
          rcases hb : sectionOf baseline EXCEPTION_REGISTER_TITLE with _ | b
          · exact .inr rfl
          · exact .inl ⟨b, (sectionOf_some hb).1, rfl⟩
    · exact addRows_keeps (fun e => NumberedExceptions e.1) hadd hnumbered fun _ _ _ _ he => he.concat rfl
    · refine addRows_keeps (fun e => e.1.length ≤ MAX_EXCEPTIONS) hadd hlength fun _ _ e hlt _ => ?_
      rw [List.length_append]
      exact hlt

/-- The exceptions of the local register are numbered. -/
theorem numbered_transactionExceptionRegister {transactions : List TransactionReview} {s : Section}
    {exceptions : List Shared.Assistant.Exception}
    (hsources : ∀ row ∈ transactions, ∃ r ∈ context.records, r.source.id = row.sourceId)
    (h : transactionExceptionRegister context transactions = .ok (s, exceptions)) : NumberedExceptions exceptions := by
  have hentries := foldlM_addTransaction context hsources (show ([] : List Issue).length ≤ 100 from Nat.zero_le 100)
  obtain ⟨entries, hentries', h⟩ := Prog.bind_eq_ok.mp h
  obtain rfl := Except.ok.inj (hentries'.symm.trans hentries)
  cases h
  intro i e he
  rw [entriesOf, List.getElem?_mapIdx, Option.map_eq_some_iff] at he
  obtain ⟨x, -, rfl⟩ := he
  rfl

/-- What a provider has drafted is accepted with the baseline upheld: its assessments stand, its exceptions, its
register and its notes come first, its sections are there, and nothing is cited from outside the context. -/
theorem baseline_upheld (hfits : baseline.Fits) (hnumbered : NumberedExceptions baseline.exceptions)
    (hbaseline : citedIds baseline ⊆ context.records.map fun r => r.source.id)
    (h : validateProviderDraft value baseline context = .ok content) : BaselineUpheld baseline content context := by
  obtain ⟨result, register, exceptions, -, -, hchecked, hmerge, rfl⟩ := validateProviderDraft_ok h
  exact upheld_mergeDraft hfits hnumbered hbaseline hchecked (mergeRegister_ok hmerge)

/-- What is accepted fits the schema, and is not refused when it is stored, unless the caveats of the draft and those
of the baseline are too many together. -/
theorem merged_fits_iff (hfits : baseline.Fits) (hrows : (baseRows baseline).length ≤ baseline.exceptions.length)
    (h : validateProviderDraft (some result) baseline context = .ok content) : content.Fits ↔
      (result.caveats ++ baseline.caveats.filter fun c =>
        !"Local rule-based".toList.isPrefixOf c.toList).eraseDups.length ≤ 100 := by
  obtain ⟨result', register, exceptions, hvalue, hresult, -, hmerge, rfl⟩ := validateProviderDraft_ok h
  obtain rfl := Option.some.inj hvalue
  exact fits_mergeDraft hfits hresult hrows (mergeRegister_ok hmerge)

end Accepted

/-! ### A draft -/

/-- A document with a payment. -/
def minutes : AuditContext where
  target := none
  records := [{
    source := { id := "S1", kind := .Document, recordId := "d1", label := "minutes.txt", href := none, excerpt := "",
                truncated := false },
    fields := [("id", .str "d1"), ("extractedText", .str "Payment P-7 to Supplier F of KES 650,000 was not approved.")] }]
  links := []
  warnings := []

/-- A row of a register about the payment. -/
def paymentRow (id reference : String) : Shared.Assistant.Row where
  cells := [id, reference, "Supplier F", "KES 650,000", "Approval", "Minutes", "No approval for Supplier F was found.",
    "Unauthorised payment", "HIGH", "Ask for the approval."]
  basis := .assessment
  sourceIds := ["S1"]

/-- A review with one exception. -/
def review : Content where
  title := "Evidence review"
  narrative := "One document was read."
  sections := [{
    title := EXCEPTION_REGISTER_TITLE, items := [], columns := EXCEPTION_REGISTER_COLUMNS,
    rows := [paymentRow "EX-001" "P-6"] }]
  exceptions := [rowException (paymentRow "EX-001" "P-6") 1]
  reviewerNotes := [{ priority := .high, area := "Evidence", comment := "Obtain the approvals.", sourceIds := ["S1"] }]
  evidenceAssessment := { status := .insufficient, rationale := "No approval.", sourceIds := ["S1"], checks := [] }
  ratingProposal := { impact := none, likelihood := none, score := none, rating := .unrated, rationale := "", sourceIds := [] }
  suggestions := []
  checklist := []
  caveats := ["Local rule-based review."]

/-- What a model makes of it: the evidence is enough, and there is another payment. -/
def drafted : Content := { review with
  sections := [{
    title := EXCEPTION_REGISTER_TITLE, items := [], columns := EXCEPTION_REGISTER_COLUMNS,
    rows := [paymentRow "EX-009" "P-7"] }]
  exceptions := []
  reviewerNotes := []
  evidenceAssessment := { status := .sufficient, rationale := "", sourceIds := [], checks := [] }
  caveats := ["The model has seen one document."] }

theorem drafted_accepted : ∃ content,
    @validateProviderDraft wholeNumbers plainCasing (some drafted) review minutes = .ok content := by
  have hok : (@validateProviderDraft wholeNumbers plainCasing (some drafted) review minutes).isOk = true := by decide +kernel
  rcases h : @validateProviderDraft wholeNumbers plainCasing (some drafted) review minutes with e | content
  · rw [h] at hok
    cases hok
  · exact ⟨content, rfl⟩

theorem review_fits : review.Fits := by decide +kernel

theorem baseline_upheld_review : ∃ content,
    @validateProviderDraft wholeNumbers plainCasing (some drafted) review minutes = .ok content ∧
      BaselineUpheld review content minutes := by
  obtain ⟨content, h⟩ := drafted_accepted
  refine ⟨content, h, @baseline_upheld wholeNumbers plainCasing _ _ _ _ review_fits ?_ ?_ h⟩
  · rintro (_ | i) e he
    · cases he
      rfl
    · cases he
  · decide

theorem merged_fits_review : ∃ content,
    @validateProviderDraft wholeNumbers plainCasing (some drafted) review minutes = .ok content ∧ content.Fits := by
  obtain ⟨content, h⟩ := drafted_accepted
  exact ⟨content, h, (@merged_fits_iff wholeNumbers plainCasing _ _ _ _ review_fits (by decide) h).mpr (by decide)⟩

end AuditSphere.Intelligence
