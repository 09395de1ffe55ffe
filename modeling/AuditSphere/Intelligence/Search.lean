import AuditSphere.Intelligence.Index
import AuditSphere.Intelligence.Query
import AuditSphere.Theory.Walk
import Mathlib.Data.List.Infix
import Mathlib.Data.List.Sort

/-!
# Searching the index

`searchAuditIntelligence`. The links of the index make a graph of its records; what stands
above a record and below it is found by walking the graph. A record is a match if it is of a
kind that the query asks for, in the scope, and passes the filters. The sources of an index
have different ids, and records are told apart by them.

The draft for the user interface repeats the rows with captions and is left out.
-/

namespace AuditSphere.Intelligence

open Theory

/-! ### The graph -/

section Graph

variable (index : AuditUniverseIndex)

/-- `byId.get(id)`. -/
def byId (id : String) : Option AuditRecord := index.records.reverse.find? fun r => r.source.id = id

/-- The kind of the record with an id. -/
def kindAt (id : String) : Option AuditSourceKind := (byId index id).map (·.source.kind)

/-- Both ends of a link are there, and it does not lead to the finding that is repeated. -/
def isFollowed (l : Link) : Bool :=
  (byId index l.source).isSome && (byId index l.target).isSome && l.relationship ≠ "repeatOf"

/-- `parents.get(id)`. -/
def parentIds (id : String) : List String :=
  (index.links.filter fun l => isFollowed index l && l.target = id).map (·.source)

/-- The link leads from a finding to the evidence that supports it. -/
def isSupport (l : Link) : Bool :=
  l.relationship = "supported by" && kindAt index l.source = some .Finding && kindAt index l.target = some .Evidence

/-- `children.get(id)`: the evidence leads back to the finding. -/
def childIds (id : String) : List String :=
  index.links.flatMap fun l =>
    if isFollowed index l then
      (if l.source = id then [l.target] else []) ++ (if isSupport index l && l.target = id then [l.source] else [])
    else []

/-- A walk down does not enter these. -/
def isBarrier (id : String) : Bool :=
  match kindAt index id with
  | some .Entity | some .Process | some .Engagement => true
  | _ => false

/-- Where a walk down goes on. -/
def childIdsDown (id : String) : List String := (childIds index id).filter fun child => !isBarrier index child

/-- `walk`. -/
def walk (next : String → List String) (r : AuditRecord) : List AuditRecord :=
  (walkFrom next index.records.length 0 [r.source.id]).filterMap fun id =>
    if id = r.source.id then some r else byId index id

/-- `ancestors`. -/
def ancestors (r : AuditRecord) : List AuditRecord := walk index (parentIds index) r

/-- `walk(r, children, true)`. -/
def descendants (r : AuditRecord) : List AuditRecord := walk index (childIdsDown index) r

/-- `inScope`, for the id of an engagement. -/
def isWithin (scope : Option String) (r : AuditRecord) : Bool :=
  match scope with
  | none => true
  | some e => (ancestors index r).any fun p => p.source.kind = .Engagement && p.source.recordId = e

end Graph

/-! ### Records -/

section Records

variable [Runtime]

/-- Texts in the order of their characters. -/
def textBefore (a b : String) : Bool := a.toList < b.toList

/-- `terminalFinding`. -/
def terminalFinding (r : AuditRecord) : Bool := field r "status" ∈ ["CLOSED", "RISK_ACCEPTED"]

/-- `terminalAction`. -/
def terminalAction (r : AuditRecord) : Bool :=
  if r.source.kind = .Finding then terminalFinding r else field r "status" ∈ ["VALIDATED", "SUPERSEDED"]

/-- `failedTest`. -/
def failedTest (r : AuditRecord) : Bool :=
  (Json.toNumber (mapGet "exceptions" r.fields)).isPositive ||
    field r "result" ∈ ["FAIL", "PASS_WITH_EXCEPTIONS", "FAILED", "INEFFECTIVE", "PARTIALLY_EFFECTIVE"]

/-- A property is `false`. -/
def isFalse (r : AuditRecord) (key : String) : Bool := Json.same (mapGet key r.fields) (some (.bool false))

/-- `failedControl`. -/
def failedControl (r : AuditRecord) : Bool :=
  field r "effectiveness" = "INEFFECTIVE" || isFalse r "designEffective" || isFalse r "operatingEffective"

/-- `\b`, after a character of a word. -/
def endsWord (s : List Char) : Bool :=
  match s with
  | [] => true
  | c :: _ => !(c.isAlphanum || c = '_')

/-- What follows a word at the beginning of a text, in any case. -/
def afterWord (w : List Char) (s : List Char) : Option (List Char) :=
  if (s.take w.length).map Char.toLower = w then some (s.drop w.length) else none

/-- The text begins with a word. -/
def beginsWith (w : String) (s : List Char) : Bool := (afterWord w.toList s).any endsWord

/-- `/^no\s+exceptions?\b/i`. -/
def beginsNoExceptions (s : List Char) : Bool :=
  match afterWord ['n', 'o'] s with
  | some (c :: rest) =>
    isTrimmed c &&
      (beginsWith "exceptions" (rest.dropWhile isTrimmed) || beginsWith "exception" (rest.dropWhile isTrimmed))
  | _ => false

/-- `/^(?:0\b|none\b|nil\b|no\s+exceptions?\b)/i`. -/
def saysNoExceptions (s : String) : Bool :=
  beginsWith "0" s.toList || beginsWith "none" s.toList || beginsWith "nil" s.toList || beginsNoExceptions s.toList

/-- `workpaperException`. -/
def workpaperException (r : AuditRecord) : Bool :=
  field r "exceptions" ≠ "" &&
    !(saysNoExceptions (field r "exceptions") || beginsWith "n/a" (field r "exceptions").toList)

/-- `a || b`, of texts. -/
def orText (a b : String) : String := if a ≠ "" then a else b

/-- `workpaperDate`. -/
def workpaperDate (r : AuditRecord) : String := orText (field r "preparedAt") (field r "updatedAt")

/-- `insideDate`. -/
def insideDate (dates : Option (String × String)) (date : String) : Bool :=
  date ≠ "" && dates.all fun d => !textBefore date d.1 && textBefore date d.2

/-- `overdue`, at a day. -/
def overdue (today : String) (r : AuditRecord) : Bool :=
  field r "dueDate" ≠ "" && textBefore (sliceText 10 (field r "dueDate")) today && !terminalAction r

end Records

/-! ### Filters -/

/-- A record of a kind that the query asks for, in the scope. -/
structure Candidate where
  record : AuditRecord
  kind : AuditSearchKind
  /-- The record and what is below it, in the scope. -/
  outcomes : List AuditRecord
  related : List AuditRecord
  engagements : List AuditRecord

namespace Candidate

/-- The outcomes of a kind. -/
def ofKind (c : Candidate) (kind : AuditSourceKind) : List AuditRecord := recordsOf c.outcomes kind

/-- The candidate is a control or a risk, which is judged by what is below it. -/
def isJudgedBelow (c : Candidate) : Bool := c.kind = .Control || c.kind = .Risk

end Candidate

section Filters

variable [Runtime] (query : IntelligenceQuery) (today : String) (c : Candidate)

/-- The test or workpaper is in the period, if there is one. -/
def inPeriod (date : String) : Bool := query.dates.isNone || insideDate query.dates date

/-- `query.completed`. -/
def passesCompleted : Bool := c.engagements.any fun e => field e "status" = "COMPLETED"

/-- The property that holds the severity. -/
def severityKey : String :=
  if c.kind = .Risk then "rating"
  else if c.kind = .ActionPlan ∧ c.record.source.kind = .ActionPlan then "priority"
  else "severity"

/-- `query.closed`. -/
def passesClosed : Bool :=
  field c.record "status" =
    if c.kind = .Engagement then "COMPLETED" else if c.record.source.kind = .ActionPlan then "VALIDATED" else "CLOSED"

/-- `query.withoutExceptions`. -/
def passesWithoutExceptions : Bool :=
  let periodTests := (c.ofKind .ControlTest).filter fun t => inPeriod query (field t "testedAt")
  let periodWorkpapers := (c.ofKind .Workpaper).filter fun w => inPeriod query (workpaperDate w)
  (periodTests.any (fun t =>
      field t "result" = "PASS" && Json.toNumber (mapGet "exceptions" t.fields) = .finite 0) ||
    periodWorkpapers.any fun w => saysNoExceptions (field w "exceptions")) &&
  !periodTests.any failedTest && !periodWorkpapers.any workpaperException

/-- `query.recurring`. -/
def passesRecurring : Bool :=
  if c.isJudgedBelow then
    2 ≤ (c.ofKind .Finding).length ||
      (c.ofKind .Finding).any fun f => Json.same (mapGet "isRepeat" f.fields) (some (.bool true))
  else if c.kind = .Finding then
    Json.same (mapGet "isRepeat" c.record.fields) (some (.bool true)) || field c.record "repeatOfId" ≠ ""
  else true

/-- `query.open`. -/
def passesOpen : Bool :=
  if c.isJudgedBelow then
    (c.ofKind .Finding).any (fun f => !terminalFinding f) || (c.ofKind .ActionPlan).any (overdue today) ||
      (c.ofKind .Control).any failedControl || (c.ofKind .ControlTest).any failedTest ||
      (c.ofKind .Workpaper).any workpaperException
  else if c.kind = .ActionPlan then !terminalAction c.record
  else if c.kind = .Finding then !terminalFinding c.record
  else field c.record "status" ∉ ["CLOSED", "COMPLETED", "CANCELLED"]

/-- `query.overdue`. -/
def passesOverdue : Bool :=
  if c.isJudgedBelow then (c.ofKind .Finding).any (overdue today) || (c.ofKind .ActionPlan).any (overdue today)
  else overdue today c.record

/-- `qualifyingTests`. -/
def qualifyingTests : List AuditRecord :=
  (c.ofKind .ControlTest).filter fun t => failedTest t && inPeriod query (field t "testedAt")

/-- `qualifyingWorkpapers`. -/
def qualifyingWorkpapers : List AuditRecord :=
  (c.ofKind .Workpaper).filter fun w => workpaperException w && inPeriod query (workpaperDate w)

/-- `query.failed`. -/
def passesFailed : Bool :=
  if c.isJudgedBelow then
    qualifyingTests query c ≠ [] || qualifyingWorkpapers query c ≠ [] ||
      (query.dates.isNone && (c.ofKind .Control).any failedControl)
  else true

/-- The property that holds the date. -/
def dateKey : String :=
  if c.kind = .ActionPlan ∨ "due" ∈ query.q then "dueDate"
  else match c.kind with
    | .Evidence => if c.record.source.kind = .Document then "uploadedAt" else "obtainedAt"
    | .Engagement => "actualEnd"
    | .Workpaper => "updatedAt"
    | _ => "createdAt"

/-- `query.from`. -/
def passesDates : Bool :=
  if c.isJudgedBelow then
    (c.ofKind .ControlTest).any (fun t => insideDate query.dates (field t "testedAt") &&
        (!query.failed || failedTest t)) ||
      (c.ofKind .Workpaper).any fun w => insideDate query.dates (workpaperDate w) &&
        (!query.failed || workpaperException w)
  else insideDate query.dates (field c.record (dateKey query c))

/-- The properties of a record, as words. -/
def wordsOf (r : AuditRecord) : String := normalText (Json.stringify (.obj r.fields))

/-- What the topic of a candidate is looked for in. -/
def semanticText : String :=
  let hasProcess := c.related.any fun x => x.source.kind = .Process
  String.intercalate " " (c.related.map fun x =>
    if x.source.kind = .Entity ∧ c.kind ≠ .Entity then normalText (field x "name" ++ " " ++ field x "code")
    else if x.source.kind = .Engagement ∧ c.kind ≠ .Engagement ∧ hasProcess then normalText (field x "auditNumber")
    else wordsOf x)

/-- `text.includes(part)`. -/
def includes (text part : String) : Bool := part.toList <:+: text.toList

/-- `CONCEPTS[name].some((alias) => text.includes(alias))`. -/
def mentionsConcept (text name : String) : Bool :=
  (aliasesOf name).any fun words => includes text (String.intercalate " " words)

/-- The concepts and terms of the query. -/
def passesText : Bool :=
  query.concepts.all (fun name =>
    (name = "weakness" && ((query.failed && c.isJudgedBelow) || query.recurring || query.withoutExceptions)) ||
      mentionsConcept (semanticText c) name) &&
  query.terms.all fun term => includes (String.intercalate " " (c.related.map wordsOf)) term

/-- All filters of the query. -/
def passes : Bool :=
  (!query.completed || passesCompleted c) &&
  (query.severity.all fun severity => field c.record (severityKey c) = severity) &&
  (!query.linkedFindings || c.ofKind .Finding ≠ []) &&
  (!query.withoutFindings || c.ofKind .Finding = []) &&
  (!query.closed || passesClosed c) &&
  (!query.withoutExceptions || passesWithoutExceptions query c) &&
  (!query.recurring || passesRecurring c) &&
  (!query.isOpen || passesOpen today c) &&
  (!query.overdue || passesOverdue today c) &&
  (!query.failed || passesFailed query c) &&
  (query.dates.isNone || passesDates query c) &&
  passesText query c

end Filters

/-! ### Matches -/

section Matches

variable [Runtime] (index : AuditUniverseIndex) (query : IntelligenceQuery) (scope : Option String) (today : String)

/-- A finding that records a management action itself, without an action plan. -/
def recordsAction (r : AuditRecord) : Bool :=
  query.kinds = [.ActionPlan] && r.source.kind = .Finding &&
    r.source.recordId ∉ (recordsOf index.records .ActionPlan).map (fun a => field a "findingId") &&
    (field r "recommendation" ≠ "" || field r "managementResponse" ≠ "") &&
    (field r "actionOwnerId" ≠ "" || field r "actionOwnerName" ≠ "" || field r "dueDate" ≠ "")

/-- `resultKind`. -/
def resultKind (r : AuditRecord) : Option AuditSearchKind :=
  if r.source.kind = .Document then some .Evidence
  else if recordsAction index query r then some .ActionPlan
  else AUDIT_SEARCH_KINDS.find? fun kind => kind.source = r.source.kind

/-- The record is shown as a result of a kind that the query asks for. -/
def kindFor (r : AuditRecord) : Option AuditSearchKind :=
  (resultKind index query r).filter fun kind => kind ∈ query.kinds

/-- The record is in the scope, or something below it is. -/
def isReached (r : AuditRecord) : Bool :=
  isWithin index scope r || (descendants index r).any (isWithin index scope)

/-- `outcomes`. -/
def outcomes (r : AuditRecord) : List AuditRecord := (descendants index r).filter (isWithin index scope)

/-- `actionEvidence`: the evidence of the findings above an action. -/
def actionEvidence (kind : AuditSearchKind) (r : AuditRecord) : List AuditRecord :=
  if kind = .ActionPlan then
    ((recordsOf (ancestors index r) .Finding).flatMap (descendants index)).filter fun p =>
      (p.source.kind = .Evidence || p.source.kind = .Document) && isWithin index scope p
  else []

/-- `related`: one record for each id. -/
def related (kind : AuditSearchKind) (r : AuditRecord) : List AuditRecord :=
  let evidence := actionEvidence index scope kind r
  let all := ancestors index r ++ outcomes index scope r ++ (outcomes index scope r).flatMap (ancestors index) ++
    evidence ++ evidence.flatMap (ancestors index)
  (mapOf (all.map fun x => (x.source.id, x))).map Prod.snd

/-- A record as a candidate of a kind. -/
def candidate (kind : AuditSearchKind) (r : AuditRecord) : Candidate :=
  { record := r,
    kind,
    outcomes := outcomes index scope r,
    related := related index scope kind r,
    engagements := (related index scope kind r).filter fun x =>
      x.source.kind = .Engagement && scope.all (x.source.recordId = ·) }

/-- The record is found, if it is. -/
def matchOf (r : AuditRecord) : Option Candidate :=
  match kindFor index query r with
  | none => none
  | some kind =>
    if isReached index scope r ∧ passes query today (candidate index scope kind r) = true then
      some (candidate index scope kind r)
    else none

/-- `score`. -/
def score (c : Candidate) : ℕ :=
  (query.terms.filter fun t => includes (wordsOf c.record) t).length * 2 +
    (query.concepts.filter fun name => mentionsConcept (wordsOf c.record) name).length

/-- The order of the matches. -/
def sortsBefore (a b : Candidate) : Bool :=
  score query b < score query a ||
    (score query a = score query b &&
      ((Runtime.localeCompare a.record.source.label b.record.source.label).then
        (Runtime.localeCompare a.record.source.recordId b.record.source.recordId)) ≠ .gt)

/-- `matches`, sorted. -/
def matchesOf : List Candidate :=
  (index.records.filterMap (matchOf index query scope today)).insertionSort fun a b => sortsBefore query a b

end Matches

/-! ### Results -/

/-- A row of the results. -/
structure ResultRow where
  sourceId : String
  kind : AuditSearchKind
  engagement : String
  severity : String
  owner : String
  status : String
  dueDate : String
  detail : String
  traceIds : List String

/-- A filter that the interpretation lists. -/
inductive Filter where
  | completed | closed | unresolved | overdue
  | severity (value : String)
  | linkedFindings | withoutFindings | failed | recurring | withoutExceptions
  | dates (start finish : String)

/-- How the interpretation lists a filter. The dates are a sentence of their own. -/
def Filter.text : Filter → Option String
  | .completed => some "completed engagements"
  | .closed => some "closed / validated status"
  | .unresolved => some "unresolved status"
  | .overdue => some "overdue"
  | .severity value => some s!"severity/rating {value}"
  | .linkedFindings => some "linked findings"
  | .withoutFindings => some "no linked findings"
  | .failed => some "recorded test exceptions/failure"
  | .recurring => some "repeated findings"
  | .withoutExceptions => some "recorded testing without exceptions"
  | .dates _ _ => none

/-- `filters`, and the dates. -/
def filtersOf (query : IntelligenceQuery) : List Filter :=
  (if query.completed then [.completed] else []) ++ (if query.closed then [.closed] else []) ++
    (if query.isOpen then [.unresolved] else []) ++ (if query.overdue then [.overdue] else []) ++
    (query.severity.map Filter.severity).toList ++ (if query.linkedFindings then [.linkedFindings] else []) ++
    (if query.withoutFindings then [.withoutFindings] else []) ++ (if query.failed then [.failed] else []) ++
    (if query.recurring then [.recurring] else []) ++ (if query.withoutExceptions then [.withoutExceptions] else []) ++
    (query.dates.map fun d => Filter.dates d.1 d.2).toList

/-- The words of a list, or a word for none. -/
def listText (words : List String) (empty : String) : String := orText (String.intercalate ", " words) empty

/-- `interpretation`. -/
def interpretation (query : IntelligenceQuery) (scope : Option String) : String :=
  "Audit-domain terminology expansion and explicit relationship retrieval. Scope: " ++
  (if scope.isSome then "selected engagement" else "all accessible audit universe") ++ ". Types: " ++
  listText (query.kinds.map fun kind => kind.source.name) "none within selected filters" ++ ". Filters: " ++
  listText ((filtersOf query).filterMap Filter.text) "none" ++ ". Concepts: " ++ listText query.concepts "none" ++
  ". Additional terms: " ++ listText query.terms "none" ++
  ". Open actions include implemented actions pending validation; risk-accepted findings and superseded actions are " ++
  "not open. " ++
  match query.dates with
  | none => ""
  | some d =>
    "Dates: " ++ d.1 ++ " to " ++ d.2 ++ " (exclusive). Controls/risks use the qualifying test date or workpaper " ++
      "prepared/updated date; actions use due date. Last year is rolling 12 months."

/-- How sure a search is. -/
inductive Confidence where
  | low | medium | high
  deriving DecidableEq

/-- Why a search has no matches. -/
inductive EmptyReason where
  | incomplete | permissions | noMatch | noData
  deriving DecidableEq

/-- `intelligence`, and the context. -/
structure SearchResult where
  indexedAt : String
  coveragePercent : Option ℕ
  sourcesAnalysed : ℕ
  restrictedKinds : List AuditSourceKind
  incompleteKinds : List AuditSourceKind
  textLimitedRecords : ℕ
  confidence : Confidence
  totalMatches : ℕ
  engagementCount : ℕ
  counts : List (AuditSearchKind × ℕ)
  page : ℕ
  pageSize : ℕ
  emptyReason : Option EmptyReason
  rows : List ResultRow
  interpretation : String
  records : List AuditRecord
  links : List Link
  warnings : List String
  /-- The sources of the rows, with the reason for each. -/
  results : List (String × String)

section Results

variable [Runtime] (index : AuditUniverseIndex) (query : IntelligenceQuery)

/-- `reason`. -/
def reason (c : Candidate) : String :=
  let findings := (c.ofKind .Finding).length
  let effectiveness := String.intercalate ", " ((c.ofKind .Control).map fun x => field x "effectiveness")
  String.intercalate ". " ([
    if query.concepts ≠ [] then "Audit concepts: " ++ String.intercalate ", " query.concepts
      else "Recorded attributes and relationships",
    if query.linkedFindings then s!"{findings} linked findings" else "",
    if query.withoutFindings then
      "No findings linked in the accessible index; coverage limitations still apply" else "",
    if query.withoutExceptions then
      "Explicitly recorded clean testing; no exceptions found in the qualifying indexed tests. This is not a " ++
        "control-effectiveness opinion." else "",
    if query.recurring then
      s!"{findings} linked findings; repeat flags preserved (common cause requires validation)" else "",
    if query.failed then
      s!"{(qualifyingTests query c).length} qualifying control tests with exceptions/failure; " ++
        s!"{(qualifyingWorkpapers query c).length} workpapers with recorded exceptions (date basis: prepared date, " ++
        "otherwise updated date). Control effectiveness: " ++ orText effectiveness "not recorded" else "",
    if query.isOpen then "Unresolved recorded status or linked issue" else "",
    if query.completed then "Linked completed engagement" else ""].filter (· ≠ ""))

/-- `included`: the records of the page, and what is related to them, up to 400. -/
def includedOf (selected : List Candidate) : List (String × AuditRecord) :=
  (selected.flatMap Candidate.related).foldl
    (fun included r => if included.length < 400 then mapSet r.source.id r included else included)
    (mapOf (selected.map fun m => (m.record.source.id, m.record)))

/-- `traceIds`. -/
def traceIds (included : List (String × AuditRecord)) (c : Candidate) : List String :=
  ((c.related.filter fun r => r.source.id ≠ c.record.source.id && (mapGet r.source.id included).isSome).take 60).map
    (·.source.id)

/-- A match as a row. -/
def rowFor (included : List (String × AuditRecord)) (c : Candidate) : ResultRow :=
  let r := c.record
  let progress :=
    if c.kind = .ActionPlan then
      if r.source.kind = .Finding then "Finding-level management action; no separate action plan recorded."
      else "Progress: " ++ field r "progressPct" ++ "%. " ++ field r "progressNote" ++
        ". Parent finding validation is shown in traceability, not assumed to validate this action."
    else ""
  let effectiveness :=
    if c.kind = .Control then "Effectiveness: " ++ orText (field r "effectiveness") "Not tested" else ""
  { sourceId := r.source.id,
    kind := c.kind,
    engagement := listText (c.engagements.map fun e => field e "auditNumber") "Not linked / not visible",
    severity := orText (field r "severity") (orText (field r "rating") (orText (field r "priority") "Not recorded")),
    owner := orText (field r "ownerName") (orText (field r "actionOwnerName") "Not assigned"),
    status := orText (field r "status") (orText (field r "effectiveness") "Not recorded"),
    dueDate := field r "dueDate",
    detail := String.intercalate " " ([reason query c, progress, effectiveness].filter (· ≠ "")),
    traceIds := traceIds included c }

/-- `scopeId`, if the search is limited to an engagement. -/
def scopeOf (dto : CopilotRequest) : Except HttpError (Option String) :=
  if dto.searchScope = some .engagement then
    match (dto.searchEngagementId.or (if dto.targetType = some "Engagement" then dto.targetId else none)) with
    | none | some "" => .error (.badRequest "Choose an engagement for current-engagement search.")
    | some e =>
      if .Engagement ∈ index.restrictedKinds then
        .error (.forbidden "Engagement read permission is required for this scope.")
      else if (recordsOf index.records .Engagement).any fun r => r.source.recordId = e then .ok (some e)
      else .error (.notFound "Selected engagement is unavailable or was not indexed.")
  else .ok none

/-- The properties of a record in the context: texts are cut. -/
def contextRecord (r : AuditRecord) : AuditRecord :=
  { r with
    fields := r.fields.map fun f =>
      match f.2 with
      | .str s => (f.1, .str (sliceText 6000 s))
      | _ => f }

/-- How many matches of each kind there are. -/
def countsOf (found : List Candidate) : List (AuditSearchKind × ℕ) :=
  found.foldl (fun counts m => mapSet m.kind ((mapGet m.kind counts).getD 0 + 1) counts) []

/-- What `searchAuditIntelligence` returns for the matches. -/
def resultOf (query : IntelligenceQuery) (scope : Option String) (page : ℕ) (found : List Candidate) : SearchResult :=
  let selected := (found.drop ((page - 1) * 25)).take 25
  let included := includedOf selected
  let isCut := selected.any fun m => m.related.any fun r => (mapGet r.source.id included).isNone
  let coverageLimited := index.incompleteKinds ≠ []
  let lowConfidence := coverageLimited ∨ index.restrictedKinds ≠ [] ∨ 0 < index.textLimitedRecords ∨ index.warnings ≠ []
  { indexedAt := index.indexedAt,
    coveragePercent := if coverageLimited then none else some 100,
    sourcesAnalysed := index.records.length,
    restrictedKinds := index.restrictedKinds,
    incompleteKinds := index.incompleteKinds,
    textLimitedRecords := index.textLimitedRecords,
    confidence :=
      if found = [] ∨ coverageLimited then .low
      else if lowConfidence ∨ query.concepts ≠ [] ∨ query.terms ≠ [] then .medium
      else .high,
    totalMatches := found.length,
    engagementCount := (found.flatMap fun m => m.engagements.map fun e => e.source.recordId).dedup.length,
    counts := countsOf found,
    page,
    pageSize := 25,
    emptyReason :=
      if found ≠ [] then none
      else if coverageLimited then some .incomplete
      else if query.kinds.any (fun kind => kind.source ∈ index.restrictedKinds) then some .permissions
      else if index.records.any (fun r => (kindFor index query r).isSome) then some .noMatch
      else some .noData,
    rows := selected.map (rowFor query included),
    interpretation := interpretation query scope,
    records := included.map fun e => contextRecord e.2,
    links := index.links.filter fun l => (mapGet l.source included).isSome && (mapGet l.target included).isSome,
    warnings := index.warnings ++
      if isCut then ["Displayed traceability is limited to 400 sources. Result counts reflect the full indexed match set."]
      else [],
    results := selected.map fun m => (m.record.source.id, reason query m) }

/-- `searchAuditIntelligence`. -/
def searchAuditIntelligence (dto : CopilotRequest) (now : Date) : Except HttpError SearchResult := do
  let query ← interpretIntelligenceQuery dto now
  let scope ← scopeOf index dto
  return resultOf index query scope (dto.searchPage.getD 1) (matchesOf index query scope (isoDate now))

end Results

end AuditSphere.Intelligence
