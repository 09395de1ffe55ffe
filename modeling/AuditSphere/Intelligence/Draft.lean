import AuditSphere.Intelligence.Search
import AuditSphere.Shared.Assistant

/-!
# The draft of a search

The draft that `searchAuditIntelligence` returns with the context repeats the rows with
captions. Its texts are of a bounded length but for the interpretation, which lists all the
terms of the query (`size_interpretation`).
-/

namespace AuditSphere.Intelligence

open Shared.Assistant

/-- The text of a confidence. -/
def Confidence.text : Confidence → String
  | .low => "Low"
  | .medium => "Medium"
  | .high => "High"

/-- The text of a reason. -/
def EmptyReason.text : EmptyReason → String
  | .incomplete => "incomplete"
  | .permissions => "permissions"
  | .noMatch => "no_match"
  | .noData => "no_data"

section Draft

variable (index : AuditUniverseIndex) (result : SearchResult)

/-- `summary`. -/
def summary : String :=
  toString result.totalMatches ++ " matching records across " ++ toString result.engagementCount ++
    " linked engagements. " ++
    String.intercalate "; " (result.counts.map fun c => c.1.source.name ++ ": " ++ toString c.2) ++ "."

/-- The section on what was searched for. -/
def searchSummary : Section :=
  { title := "Search Summary",
    columns := [],
    rows := [],
    items := [{ text := result.interpretation, basis := .assessment, sourceIds := [] }] ++
      match result.emptyReason with
      | none => []
      | some reason =>
        [{ text := "Observed result: " ++ reason.text ++ ". Possible reasons: no indexed records exist in scope; " ++
            "terms need refinement; permissions restrict visibility; indexing is incomplete. A no-match result is " ++
            "not evidence of absence.",
           basis := .missing,
           sourceIds := [] }] }

/-- A row with captions. The record of a row is in the index. -/
def draftRow (r : ResultRow) : Shared.Assistant.Row :=
  { cells := [
      ((byId index r.sourceId).map (·.source.label)).getD "",
      r.engagement,
      r.severity,
      r.owner,
      r.status,
      orText (sliceText 10 r.dueDate) "Not set",
      r.detail].map (sliceText 4000),
    basis := .assessment,
    sourceIds := ([r.sourceId] ++ r.traceIds).take 100 }

/-- The section with the results. -/
def resultsSection : Section :=
  { title := "Results",
    items := [],
    columns := ["Record", "Engagement", "Severity / rating", "Owner", "Status", "Due date", "Audit intelligence"],
    rows := result.rows.map (draftRow index) }

/-- `coverageBasis`. -/
def coverageBasis : String :=
  "Accessible record metadata scanned in this request, not the percentage of hidden records or full document " ++
    "content. Private/restricted documents remain permission-filtered. This is a live read-through index, not " ++
    "a transactionally frozen snapshot."

/-- `confidenceReason`. -/
def confidenceReason : String :=
  "Retrieval confidence, not an audit opinion or statistical assurance. Explicit database links and filters " ++
    "are facts; terminology expansion and repeat-weakness classification require auditor validation."

/-- The coverage, in per cent. -/
def coverageText : Option ℕ → String
  | none => "unknown"
  | some percent => toString percent ++ "%"

/-- The section on what was read. -/
def coverageSection : Section :=
  { title := "Coverage",
    columns := [],
    rows := [],
    items := [
      { text := toString result.sourcesAnalysed ++ " accessible records analysed; metadata coverage: " ++
          coverageText result.coveragePercent ++ ". Confidence: " ++ result.confidence.text ++ ". " ++ coverageBasis ++
          " " ++ confidenceReason,
        basis := .assessment,
        sourceIds := [] }] }

/-- `draft`. -/
def draftOf : Content :=
  { title := "Audit Intelligence",
    narrative := if result.totalMatches ≠ 0 then summary result else "No matching records found.",
    sections := [searchSummary result, resultsSection index result, coverageSection result],
    exceptions := [],
    reviewerNotes := [],
    evidenceAssessment := {
      status := .notAssessed,
      rationale := "Retrieval does not assess evidence sufficiency.",
      sourceIds := [],
      checks := [] },
    ratingProposal := {
      impact := none,
      likelihood := none,
      score := none,
      rating := .unrated,
      rationale := "Search never changes or proposes record ratings.",
      sourceIds := [] },
    suggestions := [],
    checklist := [
      "Validate cited records, relationship paths and query interpretation before inclusion in audit documentation."],
    caveats := result.warnings ++ [
      "Search uses an audit-domain synonym dictionary, not a general-purpose embedding model. Unrecognised terms " ++
        "can require refinement.",
      "Repeated linked findings are review candidates, not proof of a common root cause. No records were created, " ++
        "approved, closed, issued or re-rated by this search."] }

end Draft

/-! ### Sizes -/

theorem size_sliceText_le (n : ℕ) (s : String) : size (sliceText n s) ≤ n := by
  rw [size, sliceText, String.toList_ofList]
  exact unitLength_sliceUnits_le n s.toList

theorem size_eq_zero_iff {s : String} : size s = 0 ↔ s = "" := by
  constructor
  · intro h
    have hlength := length_le_unitLength s.toList
    rw [show unitLength s.toList = 0 from h, Nat.le_zero, List.length_eq_zero_iff] at hlength
    exact String.toList_inj.mp hlength
  · rintro rfl
    rfl

/-- Texts that are joined, with a separator between each two of them. -/
theorem size_intercalate (separator : String) (words : List String) :
    size (String.intercalate separator words) = (words.map size).sum + (words.length - 1) * size separator := by
  induction words with
  | nil => simp [String.intercalate_nil, size_empty]
  | cons s words ih =>
    cases words with
    | nil => simp [String.intercalate_singleton]
    | cons s' words =>
      rw [String.intercalate_cons_cons, size_append, size_append, ih, List.map_cons, List.sum_cons]
      simp only [List.map_cons, List.sum_cons, List.length_cons, Nat.add_sub_cancel, Nat.succ_mul]
      omega

/-- The size of a list in the interpretation; `none` is the size of the word for an empty one. -/
def listSize (none : ℕ) (words : List String) : ℕ :=
  let joined := (words.map size).sum + (words.length - 1) * 2
  if joined = 0 then none else joined

theorem size_listText (words : List String) (empty : String) :
    size (listText words empty) = listSize (size empty) words := by
  have hjoined : size (String.intercalate ", " words) = (words.map size).sum + (words.length - 1) * 2 :=
    size_intercalate ", " words
  rw [listText, orText, listSize, ← hjoined]
  by_cases h : String.intercalate ", " words = ""
  · rw [if_neg (not_not.mpr h), if_pos (size_eq_zero_iff.mpr h)]
  · rw [if_pos h, if_neg (fun hsize => h (size_eq_zero_iff.mp hsize))]

/-- The size of the interpretation: what it says in any case, its lists, and the dates. -/
def spokenSize (query : IntelligenceQuery) (scope : Option String) : ℕ :=
  254 + (if scope.isSome then 19 else 29) + listSize 28 (query.kinds.map fun kind => kind.source.name) +
    listSize 4 ((filtersOf query).filterMap Filter.text) + listSize 4 query.concepts + listSize 4 query.terms +
    match query.dates with
    | none => 0
    | some d => 158 + size d.1 + size d.2

/-- The interpretation is not cut: it is as long as its lists. -/
theorem size_interpretation (query : IntelligenceQuery) (scope : Option String) :
    size (interpretation query scope) = spokenSize query scope := by
  have hstart : size "Audit-domain terminology expansion and explicit relationship retrieval. Scope: " = 79 :=
    (size_ofList _).trans (by decide +kernel)
  have hscope : size (if scope.isSome then "selected engagement" else "all accessible audit universe") =
      if scope.isSome then 19 else 29 := by
    split <;> decide +kernel
  have hlabels : size ". Types: " = 9 ∧ size ". Filters: " = 11 ∧ size ". Concepts: " = 12 ∧
      size ". Additional terms: " = 20 := by decide +kernel
  have hempty : size "none within selected filters" = 28 ∧ size "none" = 4 := by decide +kernel
  have hopen :
      size ". Open actions include implemented actions pending validation; risk-accepted findings and superseded actions are " =
        113 := (size_ofList _).trans (by decide +kernel)
  have hexclusive : size " (exclusive). Controls/risks use the qualifying test date or workpaper " = 71 :=
    (size_ofList _).trans (by decide +kernel)
  have hyear : size "prepared/updated date; actions use due date. Last year is rolling 12 months." = 76 :=
    (size_ofList _).trans (by decide +kernel)
  have hwords : size "not open. " = 10 ∧ size "Dates: " = 7 ∧ size " to " = 4 := by decide +kernel
  unfold interpretation spokenSize
  simp only [size_append, size_listText, hstart, hscope, hlabels, hempty, hopen, hwords]
  cases query.dates with
  | none =>
    simp only [size_empty]
    omega
  | some d =>
    simp only [size_append, hexclusive, hyear, hwords]
    omega

end AuditSphere.Intelligence
