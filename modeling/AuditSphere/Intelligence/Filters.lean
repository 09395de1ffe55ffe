import AuditSphere.Intelligence.Scope

/-!
# The filters of a search

The interpretation of a search lists its filters. What a filter asks of a row is `Satisfies`.
The search applies two of them to some kinds of rows only: recorded exceptions and failures to
controls and risks, and repeated findings to these and to findings. `filters_satisfied_iff`
says when the rows satisfy what is listed all the same.
-/

namespace AuditSphere.Intelligence

variable [Runtime]

/-- A failed test, a workpaper with recorded exceptions, or a failed control. -/
def IsFailure (x : AuditRecord) : Prop :=
  (x.source.kind = .ControlTest ∧ failedTest x = true) ∨ (x.source.kind = .Workpaper ∧ workpaperException x = true) ∨
    (x.source.kind = .Control ∧ failedControl x = true)

/-- A finding that is flagged as a repeat. -/
def isFlagged (x : AuditRecord) : Bool :=
  Json.same (mapGet "isRepeat" x.fields) (some (.bool true)) || field x "repeatOfId" ≠ ""

/-- A record is resolved, by its status. -/
def isResolved (x : AuditRecord) : Bool :=
  match x.source.kind with
  | .Finding => terminalFinding x
  | .ActionPlan => terminalAction x
  | _ => field x "status" ∈ ["CLOSED", "COMPLETED", "CANCELLED"]

/-- What controls and risks have below them while they are unresolved. -/
def IsUnresolvedIssue (today : String) (x : AuditRecord) : Prop :=
  (x.source.kind = .Finding ∧ isResolved x = false) ∨ (x.source.kind = .ActionPlan ∧ overdue today x = true) ∨ IsFailure x

/-- The property that holds the severity of a record. -/
def severityField (x : AuditRecord) : String :=
  match x.source.kind with
  | .Risk => "rating"
  | .ActionPlan => "priority"
  | _ => "severity"

/-- The record is dated by a test or a workpaper. -/
def IsTestedIn (dates : String × String) (x : AuditRecord) : Prop :=
  (x.source.kind = .ControlTest ∧ insideDate (some dates) (field x "testedAt") = true) ∨
    (x.source.kind = .Workpaper ∧ insideDate (some dates) (workpaperDate x) = true)

/-- Findings are repeated: the finding itself, or those of the record. -/
def IsRepeated (c : Candidate) : Prop :=
  if c.record.source.kind = .Finding then isFlagged c.record = true
  else 2 ≤ (c.ofKind .Finding).length ∨ ∃ f ∈ c.ofKind .Finding, isFlagged f = true

/-- The record or what is below it in the scope has failed. -/
def HasFailed (c : Candidate) : Prop := ∃ x, (x = c.record ∨ x ∈ c.outcomes) ∧ IsFailure x

/-- A row satisfies a filter. Controls and risks are judged by what is below them in the scope. -/
def Satisfies (query : IntelligenceQuery) (today : String) (c : Candidate) : Filter → Prop
  | .completed => ∃ e ∈ c.engagements, field e "status" = "COMPLETED"
  | .closed => field c.record "status" ∈ ["CLOSED", "VALIDATED", "COMPLETED"]
  | .unresolved =>
    if c.isJudgedBelow then ∃ x ∈ c.outcomes, IsUnresolvedIssue today x else isResolved c.record = false
  | .overdue =>
    if c.isJudgedBelow then
      ∃ x ∈ c.outcomes, (x.source.kind = .Finding ∨ x.source.kind = .ActionPlan) ∧ overdue today x = true
    else overdue today c.record = true
  | .severity value => field c.record (severityField c.record) = value
  | .linkedFindings => ∃ x ∈ c.outcomes, x.source.kind = .Finding
  | .withoutFindings => ∀ x ∈ c.outcomes, x.source.kind ≠ .Finding
  | .failed => HasFailed c
  | .recurring => IsRepeated c
  | .withoutExceptions => passesWithoutExceptions query c = true
  | .dates start finish =>
    if c.isJudgedBelow then ∃ x ∈ c.outcomes, IsTestedIn (start, finish) x
    else insideDate (some (start, finish)) (field c.record (dateKey query c)) = true

/-- The filter is not applied to the kind of the row. -/
def IsUnapplied (c : Candidate) : Filter → Prop
  | .failed => c.isJudgedBelow = false
  | .recurring => c.isJudgedBelow = false ∧ c.kind ≠ .Finding
  | _ => False

variable {query : IntelligenceQuery} {today : String} {c : Candidate}

omit [Runtime] in
theorem mem_ofKind_iff {kind : AuditSourceKind} {x : AuditRecord} :
    x ∈ c.ofKind kind ↔ x ∈ c.outcomes ∧ x.source.kind = kind := by
  simp [Candidate.ofKind, recordsOf]

/-- How a record may be shown: a document as evidence, a finding as an action, and everything else as what it is. -/
def Fits (c : Candidate) : Prop :=
  c.kind.source = c.record.source.kind ∨ (c.kind = .Evidence ∧ c.record.source.kind = .Document) ∨
    (c.kind = .ActionPlan ∧ c.record.source.kind = .Finding)

theorem fits_of_kindFor {index : AuditUniverseIndex} {scope : Option String} {r : AuditRecord} {kind : AuditSearchKind}
    (h : kindFor index query r = some kind) : Fits (candidate index scope kind r) := by
  have hresult : resultKind index query r = some kind := by
    rw [kindFor, Option.filter_eq_some_iff] at h
    exact h.1
  unfold resultKind at hresult
  split at hresult
  · rename_i hdocument
    cases hresult
    exact .inr (.inl ⟨rfl, hdocument⟩)
  · split at hresult
    · rename_i haction
      cases hresult
      have hfinding : r.source.kind = .Finding := by
        simp only [recordsAction, Bool.and_eq_true, decide_eq_true_eq] at haction
        exact haction.1.1.1.2
      exact .inr (.inr ⟨rfl, hfinding⟩)
    · have hsource : kind.source = r.source.kind := by simpa using List.find?_some hresult
      exact .inl hsource

omit [Runtime] in
theorem Fits.severityKey_eq (h : Fits c) : severityKey c = severityField c.record := by
  rcases h with h | ⟨hkind, hrecord⟩ | ⟨hkind, hrecord⟩
  · cases hkind : c.kind <;> simp [severityKey, severityField, ← h, hkind, AuditSearchKind.source]
  · simp [severityKey, severityField, hkind, hrecord]
  · simp [severityKey, severityField, hkind, hrecord]

/-- A row that is not judged by what is below it. -/
theorem Fits.isResolved_eq (h : Fits c) (hbelow : c.isJudgedBelow = false) (hopen : passesOpen today c = true) :
    isResolved c.record = false := by
  simp only [passesOpen, hbelow, Bool.false_eq_true, if_false] at hopen
  rcases h with h | ⟨hkind, hrecord⟩ | ⟨hkind, hrecord⟩
  · cases hkind : c.kind <;>
      simp_all [isResolved, ← h, AuditSearchKind.source, Candidate.isJudgedBelow]
  · simp_all [isResolved]
  · simp_all [isResolved, terminalAction]

/-! ### Applied filters -/

omit [Runtime] in
/-- A test of the outcomes of a kind. -/
theorem exists_of_any {kind : AuditSourceKind} {test : AuditRecord → Bool} (h : (c.ofKind kind).any test = true) :
    ∃ x ∈ c.outcomes, x.source.kind = kind ∧ test x = true := by
  obtain ⟨x, hx, htest⟩ := List.any_eq_true.mp h
  obtain ⟨hmem, hkind⟩ := mem_ofKind_iff.mp hx
  exact ⟨x, hmem, hkind, htest⟩

theorem satisfies_unresolved (hfits : Fits c) (h : passesOpen today c = true) : Satisfies query today c .unresolved := by
  simp only [Satisfies]
  split
  · rename_i hbelow
    simp only [passesOpen, hbelow, if_true, Bool.or_eq_true] at h
    rcases h with (((h | h) | h) | h) | h
    · obtain ⟨x, hx, hkind, hopen⟩ := exists_of_any h
      exact ⟨x, hx, .inl ⟨hkind, by simpa [isResolved, hkind] using hopen⟩⟩
    · obtain ⟨x, hx, hkind, hoverdue⟩ := exists_of_any h
      exact ⟨x, hx, .inr (.inl ⟨hkind, hoverdue⟩)⟩
    · obtain ⟨x, hx, hkind, hfailed⟩ := exists_of_any h
      exact ⟨x, hx, .inr (.inr (.inr (.inr ⟨hkind, hfailed⟩)))⟩
    · obtain ⟨x, hx, hkind, hfailed⟩ := exists_of_any h
      exact ⟨x, hx, .inr (.inr (.inl ⟨hkind, hfailed⟩))⟩
    · obtain ⟨x, hx, hkind, hfailed⟩ := exists_of_any h
      exact ⟨x, hx, .inr (.inr (.inr (.inl ⟨hkind, hfailed⟩)))⟩
  · rename_i hbelow
    exact hfits.isResolved_eq (by simpa using hbelow) h

theorem satisfies_overdue (h : passesOverdue today c = true) : Satisfies query today c .overdue := by
  simp only [Satisfies]
  split
  · rename_i hbelow
    simp only [passesOverdue, hbelow, if_true, Bool.or_eq_true] at h
    rcases h with h | h
    · obtain ⟨x, hx, hkind, hoverdue⟩ := exists_of_any h
      exact ⟨x, hx, .inl hkind, hoverdue⟩
    · obtain ⟨x, hx, hkind, hoverdue⟩ := exists_of_any h
      exact ⟨x, hx, .inr hkind, hoverdue⟩
  · rename_i hbelow
    simpa [passesOverdue, hbelow] using h

theorem hasFailed_of_passes (hbelow : c.isJudgedBelow = true) (h : passesFailed query c = true) : HasFailed c := by
  simp only [passesFailed, hbelow, if_true, Bool.or_eq_true, decide_eq_true_eq, Bool.and_eq_true] at h
  rcases h with (h | h) | ⟨-, h⟩
  · obtain ⟨x, hx⟩ := List.exists_mem_of_ne_nil _ h
    obtain ⟨hx, hqualifies⟩ := List.mem_filter.mp hx
    obtain ⟨hmem, hkind⟩ := mem_ofKind_iff.mp hx
    exact ⟨x, .inr hmem, .inl ⟨hkind, (Bool.and_eq_true_iff.mp hqualifies).1⟩⟩
  · obtain ⟨x, hx⟩ := List.exists_mem_of_ne_nil _ h
    obtain ⟨hx, hqualifies⟩ := List.mem_filter.mp hx
    obtain ⟨hmem, hkind⟩ := mem_ofKind_iff.mp hx
    exact ⟨x, .inr hmem, .inr (.inl ⟨hkind, (Bool.and_eq_true_iff.mp hqualifies).1⟩)⟩
  · obtain ⟨x, hx, hkind, hfailed⟩ := exists_of_any h
    exact ⟨x, .inr hx, .inr (.inr ⟨hkind, hfailed⟩)⟩

theorem isRepeated_of_passes (hfits : Fits c) (happlied : c.isJudgedBelow = true ∨ c.kind = .Finding)
    (h : passesRecurring c = true) : IsRepeated c := by
  unfold IsRepeated
  rcases happlied with hbelow | hfinding
  · have hrecord : c.record.source.kind ≠ .Finding := by
      intro hrecord
      simp only [Candidate.isJudgedBelow, Bool.or_eq_true, decide_eq_true_eq] at hbelow
      rcases hfits with hsource | ⟨hkind, -⟩ | ⟨hkind, -⟩
      · rcases hbelow with hkind | hkind <;> rw [hkind, hrecord] at hsource <;> cases hsource
      · rcases hbelow with hbelow | hbelow <;> rw [hkind] at hbelow <;> cases hbelow
      · rcases hbelow with hbelow | hbelow <;> rw [hkind] at hbelow <;> cases hbelow
    simp only [passesRecurring, hbelow, if_true, Bool.or_eq_true, decide_eq_true_eq] at h
    rw [if_neg hrecord]
    rcases h with h | h
    · exact .inl h
    · obtain ⟨f, hf, hflag⟩ := List.any_eq_true.mp h
      exact .inr ⟨f, hf, by simp [isFlagged, hflag]⟩
  · have hrecord : c.record.source.kind = .Finding := by
      rcases hfits with hsource | ⟨hkind, -⟩ | ⟨hkind, -⟩
      · rw [← hsource, hfinding]
        rfl
      · rw [hfinding] at hkind
        cases hkind
      · rw [hfinding] at hkind
        cases hkind
    rw [if_pos hrecord]
    have hbelow : c.isJudgedBelow = false := by simp [Candidate.isJudgedBelow, hfinding]
    simpa [passesRecurring, hbelow, hfinding, isFlagged] using h

theorem satisfies_dates {dates : String × String} (hdates : query.dates = some dates)
    (h : passesDates query c = true) : Satisfies query today c (.dates dates.1 dates.2) := by
  simp only [Satisfies]
  split
  · rename_i hbelow
    simp only [passesDates, hbelow, if_true, Bool.or_eq_true, hdates] at h
    rcases h with h | h
    · obtain ⟨x, hx, hkind, htest⟩ := exists_of_any h
      exact ⟨x, hx, .inl ⟨hkind, (Bool.and_eq_true_iff.mp htest).1⟩⟩
    · obtain ⟨x, hx, hkind, htest⟩ := exists_of_any h
      exact ⟨x, hx, .inr ⟨hkind, (Bool.and_eq_true_iff.mp htest).1⟩⟩
  · rename_i hbelow
    simpa [passesDates, hbelow, hdates] using h

/-- A record that passes satisfies all listed filters that are applied to its kind. -/
theorem satisfies_of_passes (hfits : Fits c) (h : passes query today c = true) {f : Filter} (hf : f ∈ filtersOf query)
    (happlied : ¬IsUnapplied c f) : Satisfies query today c f := by
  simp only [passes, Bool.and_eq_true, Bool.or_eq_true, Bool.not_eq_true', decide_eq_true_eq] at h
  obtain ⟨⟨⟨⟨⟨⟨⟨⟨⟨⟨⟨hcompleted, hseverity⟩, hlinked⟩, hwithoutFindings⟩, hclosed⟩, hwithoutExceptions⟩, hrecurring⟩,
    hopen⟩, hoverdue⟩, hfailed⟩, hdates⟩, -⟩ := h
  simp only [filtersOf, List.mem_append, List.mem_ite_nil_right, List.mem_singleton, Option.mem_toList,
    Option.map_eq_some_iff] at hf
  rcases hf with (((((((((⟨hq, rfl⟩ | ⟨hq, rfl⟩) | ⟨hq, rfl⟩) | ⟨hq, rfl⟩) | ⟨value, hq, rfl⟩) | ⟨hq, rfl⟩) | ⟨hq, rfl⟩) |
    ⟨hq, rfl⟩) | ⟨hq, rfl⟩) | ⟨hq, rfl⟩) | ⟨dates, hq, rfl⟩
  · simpa [Satisfies, passesCompleted, hq] using hcompleted
  · have hstatus := hclosed.resolve_left (by simp [hq])
    simp only [passesClosed, decide_eq_true_eq] at hstatus
    simp only [Satisfies, hstatus]
    split
    · simp
    · split <;> simp
  · exact satisfies_unresolved hfits (hopen.resolve_left (by simp [hq]))
  · exact satisfies_overdue (hoverdue.resolve_left (by simp [hq]))
  · rw [hq, Option.all_some, decide_eq_true_eq, hfits.severityKey_eq] at hseverity
    exact hseverity
  · obtain ⟨x, hx⟩ := List.exists_mem_of_ne_nil _ (hlinked.resolve_left (by simp [hq]))
    exact ⟨x, mem_ofKind_iff.mp hx⟩
  · intro x hx hkind
    have hnone := hwithoutFindings.resolve_left (by simp [hq])
    exact List.not_mem_nil (hnone ▸ mem_ofKind_iff.mpr ⟨hx, hkind⟩)
  · exact hasFailed_of_passes (by simpa [IsUnapplied] using happlied) (hfailed.resolve_left (by simp [hq]))
  · refine isRepeated_of_passes hfits ?_ (hrecurring.resolve_left (by simp [hq]))
    by_cases hbelow : c.isJudgedBelow = true
    · exact .inl hbelow
    · by_cases hkind : c.kind = .Finding
      · exact .inr hkind
      · exact absurd ⟨by simpa using hbelow, hkind⟩ happlied
  · exact hwithoutExceptions.resolve_left (by simp [hq])
  · exact satisfies_dates hq (hdates.resolve_left (by simp [hq]))

/-! ### Rows -/

/-- The rows of a request, on all its pages, satisfy the filters that are listed. -/
def Upheld (index : AuditUniverseIndex) (dto : CopilotRequest) (now : Date) : Prop :=
  ∀ query scope, interpretIntelligenceQuery dto now = .ok query → scopeOf index dto = .ok scope →
    ∀ page result, searchAuditIntelligence index { dto with searchPage := some page } now = .ok result →
      ∀ row ∈ result.rows, ∀ r ∈ index.records, r.source.id = row.sourceId → ∀ f ∈ filtersOf query,
        Satisfies query (isoDate now) (candidate index scope row.kind r) f

/-- No record gets past a filter that is not applied to its kind: those that pass the others would pass it. -/
def Unaffected (index : AuditUniverseIndex) (dto : CopilotRequest) (now : Date) : Prop :=
  ∀ query scope, interpretIntelligenceQuery dto now = .ok query → scopeOf index dto = .ok scope →
    ∀ r ∈ index.records, ∀ kind, kindFor index query r = some kind → isReached index scope r = true →
      passes query (isoDate now) (candidate index scope kind r) = true →
        (query.failed = true → kind ∉ [.Control, .Risk] → HasFailed (candidate index scope kind r)) ∧
        (query.recurring = true → kind ∉ [.Control, .Risk, .Finding] → IsRepeated (candidate index scope kind r))

omit [Runtime] in
theorem failed_mem_filtersOf (h : query.failed = true) : Filter.failed ∈ filtersOf query := by
  simp [filtersOf, h]

omit [Runtime] in
theorem recurring_mem_filtersOf (h : query.recurring = true) : Filter.recurring ∈ filtersOf query := by
  simp [filtersOf, h]

/-- The rows of a request satisfy the filters that its interpretation lists exactly if no record that passes the
applied filters fails one of the two that are not applied to its kind. -/
theorem filters_satisfied_iff {index : AuditUniverseIndex} (hids : (idsOf index).Nodup) (dto : CopilotRequest)
    (now : Date) : Upheld index dto now ↔ Unaffected index dto now := by
  have hsearch : ∀ {query scope} page, interpretIntelligenceQuery dto now = .ok query →
      scopeOf index dto = .ok scope → searchAuditIntelligence index { dto with searchPage := some page } now =
        .ok (resultOf index query scope page (matchesOf index query scope (isoDate now))) := by
    intro query scope page hquery hscope
    have hquery' : interpretIntelligenceQuery { dto with searchPage := some page } now = .ok query := hquery
    have hscope' : scopeOf index { dto with searchPage := some page } = .ok scope := hscope
    rw [searchAuditIntelligence, hquery', hscope']
    rfl
  constructor
  · intro h query scope hquery hscope r hr kind hkind hreached hpasses
    have hmatch : candidate index scope kind r ∈ matchesOf index query scope (isoDate now) :=
      mem_matchesOf_iff.mpr ⟨r, hr, matchOf_eq_some_iff.mpr ⟨kind, hkind, hreached, hpasses, rfl⟩⟩
    obtain ⟨page, row, hrow, hid, hrowKind⟩ := exists_row index query scope hmatch
    have hall := h query scope hquery hscope page _ (hsearch page hquery hscope) row hrow r hr hid.symm
    rw [show row.kind = kind from hrowKind] at hall
    exact ⟨fun hfailed _ => hall _ (failed_mem_filtersOf hfailed),
      fun hrecurring _ => hall _ (recurring_mem_filtersOf hrecurring)⟩
  · intro h query scope hquery hscope page result hresult row hrow r hr hid f hf
    rw [hsearch page hquery hscope] at hresult
    cases hresult
    obtain ⟨c, hc, hcid, hckind, -⟩ := mem_rows hrow
    obtain ⟨r', hr', hmatch⟩ := mem_matchesOf_iff.mp hc
    obtain ⟨kind, hkind, hreached, hpasses, rfl⟩ := matchOf_eq_some_iff.mp hmatch
    have hsame : r = r' := List.inj_on_of_nodup_map hids hr hr' (hid.trans hcid)
    subst hsame
    rw [show row.kind = kind from hckind]
    obtain ⟨hfailed, hrecurring⟩ := h query scope hquery hscope r hr kind hkind hreached hpasses
    by_cases happlied : IsUnapplied (candidate index scope kind r) f
    · have hbelow : ∀ {c : Candidate}, c.isJudgedBelow = false → c.kind ≠ .Control ∧ c.kind ≠ .Risk := fun h => by
        simpa [Candidate.isJudgedBelow] using h
      cases f with
      | failed =>
        have hq : query.failed = true := by simpa [filtersOf] using hf
        obtain ⟨hcontrol, hrisk⟩ := hbelow happlied
        exact hfailed hq (by simpa using ⟨hcontrol, hrisk⟩)
      | recurring =>
        have hq : query.recurring = true := by simpa [filtersOf] using hf
        obtain ⟨hcontrol, hrisk⟩ := hbelow happlied.1
        exact hrecurring hq (by simpa using ⟨hcontrol, hrisk, happlied.2⟩)
      | _ => exact happlied.elim
    · exact satisfies_of_passes (fits_of_kindFor hkind) hpasses hf happlied

/-! ### A control and a workpaper -/

/-- A request of a prompt alone. -/
def promptRequest (prompt : String) : CopilotRequest :=
  { prompt,
    targetType := none,
    targetId := none,
    searchScope := none,
    searchEngagementId := none,
    searchKinds := none,
    searchPage := none }

theorem mem_kinds_of_kindFor {index : AuditUniverseIndex} {r : AuditRecord} {kind : AuditSearchKind}
    (h : kindFor index query r = some kind) : kind ∈ query.kinds := by
  rw [kindFor, Option.filter_eq_some_iff] at h
  simpa using h.2

/-- A control that is ineffective, and a workpaper that says that there are no exceptions. -/
def controlAndWorkpaper : AuditUniverseIndex :=
  indexOf [
    sourceOf "S1" .Control "approval" [("effectiveness", .str "INEFFECTIVE")],
    sourceOf "S2" .Workpaper "bank" [("exceptions", .str "None noted"), ("status", .str "APPROVED")]]

example : (interpretIntelligenceQuery (promptRequest "Show failed controls") 0).toOption.map
    (fun q => (q.failed, q.recurring)) = some (true, false) := by decide +kernel

omit [Runtime] in
/-- A search for failed controls satisfies its filters. -/
theorem filters_satisfied_failedControls :
    @Upheld wholeNumbers controlAndWorkpaper (promptRequest "Show failed controls") 0 := by
  let := wholeNumbers
  refine (filters_satisfied_iff (by decide +kernel) _ _).mpr fun query scope hquery _ r _ kind hkind _ _ => ?_
  have hquery' : (interpretIntelligenceQuery (promptRequest "Show failed controls") 0).toOption.map
      (fun q => (q.kinds, q.recurring)) = some ([.Control], false) := by
    decide +kernel
  simp only [hquery, Except.toOption, Option.map_some, Option.some.injEq, Prod.mk.injEq] at hquery'
  have hcontrol : kind = .Control := by simpa [hquery'.1] using mem_kinds_of_kindFor hkind
  exact ⟨fun _ hkinds => absurd (by simp [hcontrol]) hkinds, fun hrecurring => by simp [hquery'.2] at hrecurring⟩

omit [Runtime] in
/-- A search for failed workpapers returns the one that says that there are no exceptions. -/
theorem cleanWorkpaper_shown :
    ¬@Upheld wholeNumbers controlAndWorkpaper (promptRequest "Show failed workpapers") 0 := by
  let := wholeNumbers
  intro h
  have hids : (idsOf controlAndWorkpaper).Nodup := by decide +kernel
  have hquery' : (interpretIntelligenceQuery (promptRequest "Show failed workpapers") 0).toOption.map
      (fun q => q.failed) = some true := by
    decide +kernel
  have hrows : (searchAuditIntelligence controlAndWorkpaper
      { promptRequest "Show failed workpapers" with searchPage := some 1 } 0).toOption.map
      (fun result => result.rows.map fun row => (row.sourceId, row.kind)) = some [("S2", .Workpaper)] := by
    decide +kernel
  cases hquery : interpretIntelligenceQuery (promptRequest "Show failed workpapers") 0 with
  | error e =>
    rw [hquery] at hquery'
    cases hquery'
  | ok query =>
    cases hsearch : searchAuditIntelligence controlAndWorkpaper
        { promptRequest "Show failed workpapers" with searchPage := some 1 } 0 with
    | error e =>
      rw [hsearch] at hrows
      cases hrows
    | ok result =>
      simp only [hquery, hsearch, Except.toOption, Option.map_some, Option.some.injEq] at hquery' hrows
      have hrow : ("S2", AuditSearchKind.Workpaper) ∈ result.rows.map fun row => (row.sourceId, row.kind) := by
        rw [hrows]
        exact List.mem_cons_self
      obtain ⟨row, hrow, hid⟩ := List.mem_map.mp hrow
      obtain ⟨hid, hkind⟩ := Prod.mk.inj hid
      have hmem : sourceOf "S2" .Workpaper "bank" [("exceptions", .str "None noted"), ("status", .str "APPROVED")] ∈
          controlAndWorkpaper.records := by
        simp [controlAndWorkpaper, indexOf]
      obtain ⟨x, hx, hfailure⟩ := h query none hquery rfl 1 result hsearch row hrow _ hmem hid.symm _
        (failed_mem_filtersOf hquery')
      -- nothing but the workpaper itself is below it
      have hself : x = sourceOf "S2" .Workpaper "bank" [("exceptions", .str "None noted"), ("status", .str "APPROVED")] := by
        rcases hx with hx | hx
        · exact hx
        · have hwalk : (descendants controlAndWorkpaper (sourceOf "S2" .Workpaper "bank"
              [("exceptions", .str "None noted"), ("status", .str "APPROVED")])).map (·.source.id) = ["S2"] := by
            decide +kernel
          have hbelow := (List.mem_filter.mp hx).1
          have hxid : x.source.id = "S2" := by simpa [hwalk] using List.mem_map_of_mem (f := (·.source.id)) hbelow
          exact List.inj_on_of_nodup_map hids ((mem_descendants_iff hids hmem).mp hbelow).1 hmem hxid
      subst hself
      rcases hfailure with ⟨hkind, -⟩ | ⟨-, hexception⟩ | ⟨hkind, -⟩
      · cases hkind
      · exact absurd hexception (by decide +kernel)
      · cases hkind

end AuditSphere.Intelligence
