import AuditSphere.Intelligence.Search

/-!
# The scope of a search

A search that is limited to an engagement returns the records that stand in it, that is, from
which a walk up the links meets it, and those with something below them that does. A record
that carries an engagement of its own, such as evidence, may stand in another one as well:
evidence of two engagements may share a document, and the document stands below the evidence
that was created with it. The search returns such records too. `rows_belong_iff` says for
which indexes this does not happen.
-/

namespace AuditSphere.Intelligence

open Theory

variable {index : AuditUniverseIndex}

/-! ### Walks -/

/-- The ids of the index. -/
def idsOf (index : AuditUniverseIndex) : List String := index.records.map (·.source.id)

theorem byId_eq_some {id : String} {r : AuditRecord} (h : byId index id = some r) :
    r ∈ index.records ∧ r.source.id = id := by
  unfold byId at h
  exact ⟨List.mem_reverse.mp (List.mem_of_find?_eq_some h), by simpa using List.find?_some h⟩

theorem mem_idsOf_of_byId {id : String} (h : (byId index id).isSome = true) : id ∈ idsOf index := by
  obtain ⟨r, hr⟩ := Option.isSome_iff_exists.mp h
  obtain ⟨hmem, hid⟩ := byId_eq_some hr
  exact List.mem_map.mpr ⟨r, hmem, hid⟩

/-- A record is found by its id. -/
theorem byId_of_mem (hids : (idsOf index).Nodup) {r : AuditRecord} (hr : r ∈ index.records) :
    byId index r.source.id = some r := by
  have hsome : (byId index r.source.id).isSome = true := by
    unfold byId
    rw [List.find?_isSome]
    exact ⟨r, List.mem_reverse.mpr hr, by simp⟩
  obtain ⟨r', hr'⟩ := Option.isSome_iff_exists.mp hsome
  obtain ⟨hmem, hid⟩ := byId_eq_some hr'
  rw [hr', List.inj_on_of_nodup_map hids hmem hr hid]

theorem parentIds_subset (id : String) : parentIds index id ⊆ idsOf index := by
  intro p hp
  obtain ⟨l, hl, rfl⟩ := List.mem_map.mp hp
  have hfollowed := (List.mem_filter.mp hl).2
  simp only [isFollowed, Bool.and_eq_true] at hfollowed
  exact mem_idsOf_of_byId hfollowed.1.1.1

theorem childIds_subset (id : String) : childIds index id ⊆ idsOf index := by
  intro c hc
  obtain ⟨l, -, hc⟩ := List.mem_flatMap.mp hc
  by_cases hfollowed : isFollowed index l = true
  · rw [if_pos hfollowed] at hc
    simp only [isFollowed, Bool.and_eq_true] at hfollowed
    rcases List.mem_append.mp hc with hc | hc
    · split at hc
      · rw [List.mem_singleton.mp hc]
        exact mem_idsOf_of_byId hfollowed.1.2
      · cases hc
    · split at hc
      · rw [List.mem_singleton.mp hc]
        exact mem_idsOf_of_byId hfollowed.1.1
      · cases hc
  · rw [if_neg hfollowed] at hc
    cases hc

theorem childIdsDown_subset (id : String) : childIdsDown index id ⊆ idsOf index :=
  List.Subset.trans (List.filter_subset_self _) (childIds_subset id)

/-- A walk over the ids of the index finds the records that can be reached. -/
theorem mem_walk_iff (hids : (idsOf index).Nodup) {next : String → List String}
    (hnext : ∀ id, next id ⊆ idsOf index) {r x : AuditRecord} (hr : r ∈ index.records) :
    x ∈ walk index next r ↔
      x ∈ index.records ∧ Relation.ReflTransGen (Neighbour next) r.source.id x.source.id := by
  have hreach : ∀ id, id ∈ walkFrom next index.records.length 0 [r.source.id] ↔
      Relation.ReflTransGen (Neighbour next) r.source.id id := fun id =>
    mem_walkFrom_iff (show ∀ id ∈ idsOf index, next id ⊆ idsOf index from fun id _ => hnext id)
      (List.mem_map_of_mem hr) (by simp [idsOf])
  rw [walk, List.mem_filterMap]
  constructor
  · rintro ⟨id, hid, hx⟩
    rw [hreach] at hid
    split at hx
    · rename_i hroot
      cases hx
      exact ⟨hr, hroot ▸ hid⟩
    · obtain ⟨hmem, rfl⟩ := byId_eq_some hx
      exact ⟨hmem, hid⟩
  · rintro ⟨hx, hpath⟩
    refine ⟨x.source.id, (hreach _).mpr hpath, ?_⟩
    split
    · rename_i hroot
      rw [List.inj_on_of_nodup_map hids hx hr hroot]
    · exact byId_of_mem hids hx

/-- One record stands above another. -/
def IsAbove (index : AuditUniverseIndex) (p r : AuditRecord) : Prop :=
  Relation.ReflTransGen (Neighbour (parentIds index)) r.source.id p.source.id

/-- One record stands below another: a walk down meets it. -/
def IsBelow (index : AuditUniverseIndex) (x r : AuditRecord) : Prop :=
  Relation.ReflTransGen (Neighbour (childIdsDown index)) r.source.id x.source.id

/-- An engagement stands above the record. -/
def StandsIn (index : AuditUniverseIndex) (e : String) (r : AuditRecord) : Prop :=
  ∃ p ∈ index.records, IsAbove index p r ∧ p.source.kind = .Engagement ∧ p.source.recordId = e

/-- The record stands in an engagement, or something below it does. -/
def Touches (index : AuditUniverseIndex) (e : String) (r : AuditRecord) : Prop :=
  ∃ x ∈ index.records, IsBelow index x r ∧ StandsIn index e x

section Walks

variable (hids : (idsOf index).Nodup) {e : String} {r x : AuditRecord} (hr : r ∈ index.records)

include hids hr

theorem mem_ancestors_iff : x ∈ ancestors index r ↔ x ∈ index.records ∧ IsAbove index x r :=
  mem_walk_iff hids parentIds_subset hr

theorem mem_descendants_iff : x ∈ descendants index r ↔ x ∈ index.records ∧ IsBelow index x r :=
  mem_walk_iff hids childIdsDown_subset hr

theorem isWithin_iff : isWithin index (some e) r = true ↔ StandsIn index e r := by
  simp only [isWithin, List.any_eq_true, mem_ancestors_iff hids hr, Bool.and_eq_true, decide_eq_true_eq, StandsIn,
    and_assoc]

theorem mem_outcomes_iff :
    x ∈ outcomes index (some e) r ↔ x ∈ index.records ∧ IsBelow index x r ∧ StandsIn index e x := by
  rw [outcomes, List.mem_filter, mem_descendants_iff hids hr, and_assoc]
  constructor
  · rintro ⟨hx, hbelow, hwithin⟩
    exact ⟨hx, hbelow, (isWithin_iff hids hx).mp hwithin⟩
  · rintro ⟨hx, hbelow, hwithin⟩
    exact ⟨hx, hbelow, (isWithin_iff hids hx).mpr hwithin⟩

theorem isReached_iff : isReached index (some e) r = true ↔ Touches index e r := by
  rw [isReached, Bool.or_eq_true, List.any_eq_true, isWithin_iff hids hr]
  constructor
  · rintro (hwithin | ⟨x, hx, hwithin⟩)
    · exact ⟨r, hr, .refl, hwithin⟩
    · obtain ⟨hmem, hbelow⟩ := (mem_descendants_iff hids hr).mp hx
      exact ⟨x, hmem, hbelow, (isWithin_iff hids hmem).mp hwithin⟩
  · rintro ⟨x, hx, hbelow, hwithin⟩
    exact .inr ⟨x, (mem_descendants_iff hids hr).mpr ⟨hx, hbelow⟩, (isWithin_iff hids hx).mpr hwithin⟩

end Walks

/-- A record that stands in an engagement touches it. -/
theorem StandsIn.touches {e : String} {r : AuditRecord} (h : StandsIn index e r) (hr : r ∈ index.records) :
    Touches index e r :=
  ⟨r, hr, .refl, h⟩

/-! ### Engagements of records -/

section Belonging

variable [Runtime]

/-- The engagement that a record carries, if it does: its own, or that of the finding of an action plan. -/
def ownEngagements (index : AuditUniverseIndex) (r : AuditRecord) : List String :=
  match r.source.kind with
  | .Finding | .Workpaper | .Evidence | .ControlTest => [field r "engagementId"].filter (· ≠ "")
  | .ActionPlan =>
    (((recordsOf index.records .Finding).filter fun f => f.source.recordId = field r "findingId").map fun f =>
      field f "engagementId").filter (· ≠ "")
  | _ => []

/-- The record carries no other engagement. -/
def BelongsTo (index : AuditUniverseIndex) (e : String) (r : AuditRecord) : Prop := ∀ e' ∈ ownEngagements index r, e' = e

/-- A search of an engagement is accepted, and returns a result. -/
def Searched (index : AuditUniverseIndex) (e : String) (result : SearchResult) : Prop :=
  ∃ dto now, scopeOf index dto = .ok (some e) ∧ searchAuditIntelligence index dto now = .ok result

/-- The rows of every search of an engagement are of records that belong to it. -/
def RowsBelong (index : AuditUniverseIndex) (e : String) : Prop :=
  ∀ result, Searched index e result → ∀ row ∈ result.rows, ∀ r ∈ index.records, r.source.id = row.sourceId →
    BelongsTo index e r

/-- So are the sources to which the rows are traced. -/
def TracesBelong (index : AuditUniverseIndex) (e : String) : Prop :=
  ∀ result, Searched index e result → ∀ row ∈ result.rows, ∀ id ∈ row.traceIds, ∀ r ∈ index.records,
    r.source.id = id → BelongsTo index e r

/-- The engagement can be searched. -/
def Selectable (index : AuditUniverseIndex) (e : String) : Prop :=
  e ≠ "" ∧ .Engagement ∉ index.restrictedKinds ∧ ∃ r ∈ index.records, r.source.kind = .Engagement ∧ r.source.recordId = e

/-- No record of another engagement, but for control tests, touches the engagement. -/
def Apart (index : AuditUniverseIndex) (e : String) : Prop :=
  ∀ r ∈ index.records, r.source.kind ≠ .ControlTest → Touches index e r → BelongsTo index e r

/-- No record of another engagement stands above one that touches the engagement. -/
def Sealed (index : AuditUniverseIndex) (e : String) : Prop :=
  ∀ r ∈ index.records, Touches index e r → ∀ p ∈ index.records, IsAbove index p r → BelongsTo index e p

/-! ### Rows -/

variable {query : IntelligenceQuery} {scope : Option String} {today e : String}

theorem matchOf_eq_some_iff {r : AuditRecord} {c : Candidate} :
    matchOf index query scope today r = some c ↔
      ∃ kind, kindFor index query r = some kind ∧ isReached index scope r = true ∧
        passes query today (candidate index scope kind r) = true ∧ c = candidate index scope kind r := by
  unfold matchOf
  cases hkind : kindFor index query r with
  | none => simp
  | some kind =>
    simp only [Option.some.injEq, exists_eq_left']
    split
    · rename_i h
      rw [Option.some.injEq]
      exact ⟨fun hc => ⟨h.1, h.2, hc.symm⟩, fun hc => hc.2.2.symm⟩
    · rename_i h
      exact ⟨fun hc => (nomatch hc), fun hc => absurd ⟨hc.1, hc.2.1⟩ h⟩

theorem mem_matchesOf_iff {c : Candidate} :
    c ∈ matchesOf index query scope today ↔ ∃ r ∈ index.records, matchOf index query scope today r = some c := by
  rw [matchesOf, (List.perm_insertionSort _ _).mem_iff, List.mem_filterMap]

/-- Control tests are not shown as rows. -/
theorem kindFor_ne_controlTest {r : AuditRecord} {kind : AuditSearchKind} (h : kindFor index query r = some kind) :
    r.source.kind ≠ .ControlTest := by
  intro htest
  have hnone : resultKind index query r = none := by
    simp only [resultKind, recordsAction, htest, reduceCtorEq, if_false, decide_false, Bool.and_false, Bool.false_and,
      Bool.false_eq_true]
    decide
  rw [kindFor, hnone] at h
  cases h

/-- A row is of a match, and shows traces of what is related to it. -/
theorem mem_rows {page : ℕ} {found : List Candidate} {row : ResultRow}
    (h : row ∈ (resultOf index query scope page found).rows) :
    ∃ c ∈ found, row.sourceId = c.record.source.id ∧ row.kind = c.kind ∧
      ∀ id ∈ row.traceIds, ∃ x ∈ c.related, x.source.id = id := by
  obtain ⟨c, hc, rfl⟩ := List.mem_map.mp h
  refine ⟨c, List.mem_of_mem_drop (List.mem_of_mem_take hc), rfl, rfl, fun id hid => ?_⟩
  obtain ⟨x, hx, rfl⟩ := List.mem_map.mp hid
  exact ⟨x, (List.mem_filter.mp (List.mem_of_mem_take hx)).1, rfl⟩

/-- Every match is on a page. -/
theorem exists_row (index : AuditUniverseIndex) (query : IntelligenceQuery) (scope : Option String)
    {found : List Candidate} {c : Candidate} (h : c ∈ found) :
    ∃ page, ∃ row ∈ (resultOf index query scope page found).rows, row.sourceId = c.record.source.id ∧ row.kind = c.kind := by
  obtain ⟨i, hi, rfl⟩ := List.getElem_of_mem h
  refine ⟨i / 25 + 1, rowFor query _ found[i], List.mem_map_of_mem ?_, rfl, rfl⟩
  rw [List.mem_take_iff_getElem]
  refine ⟨i % 25, ?_, ?_⟩
  · rw [List.length_drop]
    omega
  · rw [List.getElem_drop]
    congr 1
    omega

omit [Runtime] in
/-- What is related to a record: what stands above it, what is below it in the scope, evidence in the scope, and
what stands above these. -/
theorem mem_related {kind : AuditSearchKind} {r x : AuditRecord} (h : x ∈ related index scope kind r) :
    x ∈ ancestors index r ∨ ∃ o, (o ∈ outcomes index scope r ∨ o ∈ actionEvidence index scope kind r) ∧
      (x = o ∨ x ∈ ancestors index o) := by
  obtain ⟨entry, hentry, rfl⟩ := List.mem_map.mp h
  obtain ⟨y, hy, rfl⟩ := List.mem_map.mp (mem_mapOf hentry)
  simp only [List.mem_append, List.mem_flatMap] at hy
  rcases hy with (((hy | hy) | ⟨o, ho, hy⟩) | hy) | ⟨o, ho, hy⟩
  · exact .inl hy
  · exact .inr ⟨y, .inl hy, .inl rfl⟩
  · exact .inr ⟨o, .inl ho, .inr hy⟩
  · exact .inr ⟨y, .inr hy, .inl rfl⟩
  · exact .inr ⟨o, .inr ho, .inr hy⟩

/-- The rows of a search of an engagement are of records that touch it. -/
theorem Searched.rows (hids : (idsOf index).Nodup) {result : SearchResult} (h : Searched index e result)
    {row : ResultRow} (hrow : row ∈ result.rows) :
    ∃ r ∈ index.records, r.source.id = row.sourceId ∧ r.source.kind ≠ .ControlTest ∧ Touches index e r ∧
      ∃ kind, ∀ id ∈ row.traceIds, ∃ x ∈ related index (some e) kind r, x.source.id = id := by
  obtain ⟨dto, now, hscope, hsearch⟩ := h
  rw [searchAuditIntelligence, hscope] at hsearch
  cases hquery : interpretIntelligenceQuery dto now with
  | error err =>
    rw [hquery] at hsearch
    cases hsearch
  | ok query =>
    rw [hquery] at hsearch
    cases hsearch
    obtain ⟨c, hc, hid, -, htraces⟩ := mem_rows hrow
    obtain ⟨r, hr, hmatch⟩ := mem_matchesOf_iff.mp hc
    obtain ⟨kind, hkind, hreached, -, rfl⟩ := matchOf_eq_some_iff.mp hmatch
    exact ⟨r, hr, hid.symm, kindFor_ne_controlTest hkind, (isReached_iff hids hr).mp hreached, kind, htraces⟩

omit [Runtime] in
/-- What is related to a record that touches the engagement is above one that does. -/
theorem exists_touches_of_related (hids : (idsOf index).Nodup) {kind : AuditSearchKind} {r x : AuditRecord}
    (hr : r ∈ index.records) (htouches : Touches index e r) (hx : x ∈ related index (some e) kind r) :
    x ∈ index.records ∧ ∃ o ∈ index.records, Touches index e o ∧ IsAbove index x o := by
  rcases mem_related hx with hx | ⟨o, ho, hx⟩
  · obtain ⟨hmem, habove⟩ := (mem_ancestors_iff hids hr).mp hx
    exact ⟨hmem, r, hr, htouches, habove⟩
  · have hwithin : o ∈ index.records ∧ StandsIn index e o := by
      rcases ho with ho | ho
      · obtain ⟨hmem, -, hwithin⟩ := (mem_outcomes_iff hids hr).mp ho
        exact ⟨hmem, hwithin⟩
      · unfold actionEvidence at ho
        split at ho
        · obtain ⟨ho, hevidence⟩ := List.mem_filter.mp ho
          obtain ⟨f, hf, hbelow⟩ := List.mem_flatMap.mp ho
          have hfmem := ((mem_ancestors_iff hids hr).mp (List.mem_filter.mp hf).1).1
          have homem := ((mem_descendants_iff hids hfmem).mp hbelow).1
          exact ⟨homem, (isWithin_iff hids homem).mp (Bool.and_eq_true_iff.mp hevidence).2⟩
        · cases ho
    obtain ⟨homem, hstands⟩ := hwithin
    rcases hx with rfl | hx
    · exact ⟨homem, x, homem, hstands.touches homem, .refl⟩
    · obtain ⟨hmem, habove⟩ := (mem_ancestors_iff hids homem).mp hx
      exact ⟨hmem, o, homem, hstands.touches homem, habove⟩

/-! ### A search for everything of a kind -/

/-- A request for the records of a kind that an engagement has. -/
def plainRequest (e : String) (kind : AuditSearchKind) (page : ℕ) : CopilotRequest :=
  { prompt := "Show",
    targetType := none,
    targetId := none,
    searchScope := some .engagement,
    searchEngagementId := some e,
    searchKinds := some [kind],
    searchPage := some page }

/-- It has no filters. -/
def plainQuery (kind : AuditSearchKind) : IntelligenceQuery :=
  { q := ["show"],
    kinds := [kind],
    concepts := [],
    terms := [],
    dates := none,
    completed := false,
    closed := false,
    withoutExceptions := false,
    withoutFindings := false,
    isOpen := false,
    overdue := false,
    recurring := false,
    linkedFindings := false,
    failed := false,
    severity := none }

omit [Runtime] in
theorem interpret_plainRequest (kind : AuditSearchKind) (page : ℕ) (now : Date) :
    interpretIntelligenceQuery (plainRequest e kind page) now = .ok (plainQuery kind) := by
  have hwords : normal "Show" = ["show"] := by decide +kernel
  simp only [interpretIntelligenceQuery, plainRequest, hwords]
  rfl

omit [Runtime] in
theorem scopeOf_plainRequest (h : Selectable index e) (kind : AuditSearchKind) (page : ℕ) :
    scopeOf index (plainRequest e kind page) = .ok (some e) := by
  obtain ⟨hne, hopen, r, hr, hkind, hid⟩ := h
  have hany : (recordsOf index.records .Engagement).any (fun r => r.source.recordId = e) = true :=
    List.any_eq_true.mpr ⟨r, List.mem_filter.mpr ⟨hr, by simpa using hkind⟩, by simpa using hid⟩
  simp only [scopeOf, plainRequest, if_true, Option.some_or]
  rw [if_neg hopen, if_pos hany]

omit [Runtime] in
/-- Only an engagement that can be searched is. -/
theorem scopeOf_selectable {dto : CopilotRequest} (h : scopeOf index dto = .ok (some e)) : Selectable index e := by
  unfold scopeOf at h
  split at h
  · split at h
    · cases h
    · cases h
    · rename_i e' hne heq
      split at h
      · cases h
      · rename_i hopen
        split at h
        · rename_i hany
          cases h
          obtain ⟨r, hr, hid⟩ := List.any_eq_true.mp hany
          obtain ⟨hmem, hkind⟩ := List.mem_filter.mp hr
          exact ⟨fun hempty => hne (hempty ▸ rfl), hopen, r, hmem, by simpa using hkind, by simpa using hid⟩
        · cases h
  · cases h

theorem passes_plainQuery (kind : AuditSearchKind) (c : Candidate) : passes (plainQuery kind) today c = true := by
  simp [passes, plainQuery, passesText]

/-- The kind of a record that carries an engagement and is no control test. -/
theorem kindFor_plainQuery {r : AuditRecord} {e' : String} (hown : e' ∈ ownEngagements index r)
    (htest : r.source.kind ≠ .ControlTest) : ∃ kind, kindFor index (plainQuery kind) r = some kind := by
  unfold ownEngagements at hown
  split at hown
  · exact ⟨.Finding, by simp [kindFor, resultKind, recordsAction, plainQuery, AUDIT_SEARCH_KINDS,
      AuditSearchKind.source, *]⟩
  · exact ⟨.Workpaper, by simp [kindFor, resultKind, recordsAction, plainQuery, AUDIT_SEARCH_KINDS,
      AuditSearchKind.source, *]⟩
  · exact ⟨.Evidence, by simp [kindFor, resultKind, recordsAction, plainQuery, AUDIT_SEARCH_KINDS,
      AuditSearchKind.source, *]⟩
  · rename_i hkind
    exact absurd hkind htest
  · exact ⟨.ActionPlan, by simp [kindFor, resultKind, recordsAction, plainQuery, AUDIT_SEARCH_KINDS,
      AuditSearchKind.source, *]⟩
  · cases hown

/-- A record that carries an engagement, is no control test and touches the searched engagement is returned. -/
theorem exists_searched (hids : (idsOf index).Nodup) (he : Selectable index e) {r : AuditRecord} {e' : String}
    (hr : r ∈ index.records) (hown : e' ∈ ownEngagements index r) (htest : r.source.kind ≠ .ControlTest)
    (htouches : Touches index e r) :
    ∃ result, Searched index e result ∧ ∃ row ∈ result.rows, row.sourceId = r.source.id := by
  obtain ⟨kind, hkind⟩ := kindFor_plainQuery hown htest
  have hmatch : candidate index (some e) kind r ∈ matchesOf index (plainQuery kind) (some e) (isoDate 0) :=
    mem_matchesOf_iff.mpr ⟨r, hr, matchOf_eq_some_iff.mpr
      ⟨kind, hkind, (isReached_iff hids hr).mpr htouches, passes_plainQuery kind _, rfl⟩⟩
  obtain ⟨page, row, hrow, hid, -⟩ := exists_row index (plainQuery kind) (some e) hmatch
  refine ⟨_, ⟨plainRequest e kind page, 0, scopeOf_plainRequest he kind page, ?_⟩, row, hrow, hid⟩
  rw [searchAuditIntelligence, interpret_plainRequest, scopeOf_plainRequest he kind page]
  rfl

/-- The rows of all searches of an engagement belong to it exactly if the engagement cannot be searched, or no
record of another engagement touches it; control tests are never rows. If, moreover, none stands above a record
that touches it, then the traces of the rows belong to it as well. -/
theorem rows_belong_iff (hids : (idsOf index).Nodup) (e : String) :
    (RowsBelong index e ↔ (Selectable index e → Apart index e)) ∧
      (Sealed index e → RowsBelong index e ∧ TracesBelong index e) := by
  have hrows : ∀ result, Searched index e result → ∀ row ∈ result.rows, ∀ r ∈ index.records,
      r.source.id = row.sourceId → r.source.kind ≠ .ControlTest ∧ Touches index e r := by
    intro result hsearch row hrow r hr hid
    obtain ⟨r', hr', hid', htest, htouches, -⟩ := hsearch.rows hids hrow
    rw [List.inj_on_of_nodup_map hids hr hr' (hid.trans hid'.symm)]
    exact ⟨htest, htouches⟩
  have hselectable : ∀ result, Searched index e result → Selectable index e := by
    rintro result ⟨dto, now, hscope, -⟩
    exact scopeOf_selectable hscope
  refine ⟨⟨fun h he r hr htest htouches e' hown => ?_, fun h result hsearch row hrow r hr hid => ?_⟩,
    fun h => ⟨fun result hsearch row hrow r hr hid => ?_, fun result hsearch row hrow id hid r hr hrid => ?_⟩⟩
  · obtain ⟨result, hsearch, row, hrow, hid⟩ := exists_searched hids he hr hown htest htouches
    exact h result hsearch row hrow r hr hid.symm e' hown
  · obtain ⟨htest, htouches⟩ := hrows result hsearch row hrow r hr hid
    exact h (hselectable result hsearch) r hr htest htouches
  · exact h r hr (hrows result hsearch row hrow r hr hid).2 r hr .refl
  · obtain ⟨r', hr', -, -, htouches, kind, htraces⟩ := hsearch.rows hids hrow
    obtain ⟨x, hx, rfl⟩ := htraces id hid
    obtain ⟨hmem, o, ho, hotouches, habove⟩ := exists_touches_of_related hids hr' htouches hx
    rw [List.inj_on_of_nodup_map hids hr hmem hrid]
    exact h o ho hotouches x hmem habove

end Belonging

/-! ### Two engagements -/

/-- A record of a row. -/
def sourceOf (id : String) (kind : AuditSourceKind) (recordId : String) (fields : Fields) : AuditRecord :=
  { fields := ("id", .str recordId) :: fields,
    source := { id, kind, recordId, label := recordId, href := none, excerpt := "", truncated := false } }

/-- The index of some records. -/
def indexOf (records : List AuditRecord) : AuditUniverseIndex :=
  { records,
    links := ((@linkAuditRecords wholeNumbers records).toOption).getD [],
    warnings := [],
    indexedAt := "2026-09-08",
    restrictedKinds := [],
    incompleteKinds := [],
    textLimitedRecords := 0 }

/-- Two engagements with evidence each, and a document for each. -/
def twoDocuments : AuditUniverseIndex :=
  indexOf [
    sourceOf "S1" .Engagement "treasury" [("auditNumber", .str "IA-2026-001")],
    sourceOf "S2" .Engagement "payroll" [("auditNumber", .str "IA-2026-002")],
    sourceOf "S3" .Evidence "statement" [("engagementId", .str "treasury"), ("documentId", .str "scan")],
    sourceOf "S4" .Evidence "salaries" [("engagementId", .str "payroll"), ("documentId", .str "sheet")],
    sourceOf "S5" .Document "scan" [("ownerType", .str "Evidence"), ("ownerId", .str "statement")],
    sourceOf "S6" .Document "sheet" [("ownerType", .str "Evidence"), ("ownerId", .str "salaries")]]

/-- Evidence and its document lead to each other. -/
example : twoDocuments.links.map (fun l => (l.source, l.target)) =
    [("S1", "S3"), ("S5", "S3"), ("S2", "S4"), ("S6", "S4"), ("S3", "S5"), ("S4", "S6")] := by decide +kernel

/-- Whether an index is sealed can be tested. -/
theorem sealed_of_walks [Runtime] {index : AuditUniverseIndex} {e : String} (hids : (idsOf index).Nodup)
    (h : ∀ r ∈ index.records, isReached index (some e) r = true → ∀ p ∈ ancestors index r,
      ∀ e' ∈ ownEngagements index p, e' = e) : Sealed index e :=
  fun r hr htouches p hp habove =>
    h r hr ((isReached_iff hids hr).mpr htouches) p ((mem_ancestors_iff hids hr).mpr ⟨hp, habove⟩)

/-- The searches of the first engagement keep to it. -/
theorem rows_belong_twoDocuments :
    @RowsBelong wholeNumbers twoDocuments "treasury" ∧ @TracesBelong wholeNumbers twoDocuments "treasury" :=
  (@rows_belong_iff twoDocuments wholeNumbers (by decide +kernel) "treasury").2
    (@sealed_of_walks wholeNumbers twoDocuments "treasury" (by decide +kernel) (by decide +kernel))

/-- Two engagements with evidence each. The document was created with the evidence of the first, and is that of the
second too. -/
def sharedDocument : AuditUniverseIndex :=
  indexOf [
    sourceOf "S1" .Engagement "treasury" [("auditNumber", .str "IA-2026-001")],
    sourceOf "S2" .Engagement "payroll" [("auditNumber", .str "IA-2026-002")],
    sourceOf "S3" .Evidence "statement" [("engagementId", .str "treasury"), ("documentId", .str "scan")],
    sourceOf "S4" .Evidence "salaries" [("engagementId", .str "payroll"), ("documentId", .str "scan")],
    sourceOf "S5" .Document "scan" [("ownerType", .str "Evidence"), ("ownerId", .str "statement")]]

/-- The search of the first engagement returns the evidence of the second. -/
theorem sharedDocument_leaks :
    ¬ (@RowsBelong wholeNumbers sharedDocument "treasury" ∧ @TracesBelong wholeNumbers sharedDocument "treasury") := by
  let := wholeNumbers
  rintro ⟨hrows, -⟩
  have hids : (searchAuditIntelligence sharedDocument (plainRequest "treasury" .Evidence 1) 0).toOption.map
      (fun result => result.rows.map (·.sourceId)) = some ["S4", "S5", "S3"] := by
    decide +kernel
  have hscope : scopeOf sharedDocument (plainRequest "treasury" .Evidence 1) = .ok (some "treasury") := by
    decide +kernel
  cases hsearch : searchAuditIntelligence sharedDocument (plainRequest "treasury" .Evidence 1) 0 with
  | error e =>
    rw [hsearch] at hids
    cases hids
  | ok result =>
    rw [hsearch] at hids
    have hrow : "S4" ∈ result.rows.map (·.sourceId) := by
      rw [show result.rows.map (·.sourceId) = ["S4", "S5", "S3"] from Option.some.inj hids]
      exact List.mem_cons_self
    obtain ⟨row, hrow, hid⟩ := List.mem_map.mp hrow
    have hbelongs := hrows result ⟨_, _, hscope, hsearch⟩ row hrow
      (sourceOf "S4" .Evidence "salaries" [("engagementId", .str "payroll"), ("documentId", .str "scan")])
      (by simp [sharedDocument, indexOf]) hid.symm "payroll"
    exact absurd (hbelongs (by decide +kernel)) (by decide)

end AuditSphere.Intelligence
