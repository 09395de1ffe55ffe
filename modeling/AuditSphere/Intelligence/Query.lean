import AuditSphere.Common.Dates
import AuditSphere.Db.Client
import AuditSphere.Intelligence.Records

/-!
# Queries

`interpretIntelligenceQuery`: what a search asks for, from the words of its prompt. After
`normal` a text has words of letters and digits and single spaces between them, so that a
regular expression with word boundaries at its ends matches consecutive words.
-/

namespace AuditSphere.Intelligence

/-- `AuditSearchKind`. -/
inductive AuditSearchKind where
  | Engagement | Entity | Process | Risk | Control | Workpaper | Evidence | Finding | ActionPlan
  deriving DecidableEq

/-- `AUDIT_SEARCH_KINDS`. -/
def AUDIT_SEARCH_KINDS : List AuditSearchKind :=
  [.Engagement, .Entity, .Process, .Risk, .Control, .Workpaper, .Evidence, .Finding, .ActionPlan]

/-- The kind of the sources that are found. -/
def AuditSearchKind.source : AuditSearchKind → AuditSourceKind
  | .Engagement => .Engagement
  | .Entity => .Entity
  | .Process => .Process
  | .Risk => .Risk
  | .Control => .Control
  | .Workpaper => .Workpaper
  | .Evidence => .Evidence
  | .Finding => .Finding
  | .ActionPlan => .ActionPlan

/-- Where a search looks. -/
inductive SearchScope where
  | universe | engagement
  deriving DecidableEq

/-- What a search reads of `CopilotRequestDto`. -/
structure CopilotRequest where
  prompt : String
  targetType : Option String
  targetId : Option String
  searchScope : Option SearchScope
  searchEngagementId : Option String
  searchKinds : Option (List AuditSearchKind)
  searchPage : Option ℕ

/-! ### Words -/

/-- What `toLowerCase` and the replacements make of a character; everything but letters and digits separates
words. Two letters that are not ASCII have lower case letters that are. -/
def normalChar (c : Char) : List Char :=
  if c.isLower || c.isDigit then [c]
  else if c.isUpper then [c.toLower]
  else if c.toNat = 0x212A then ['k']
  else if c.toNat = 0x130 then ['i', ' ']
  else [' ']

/-- The words of a text, the current one in reverse. -/
def splitWords : List Char → List Char → List (List Char)
  | word, [] => if word = [] then [] else [word.reverse]
  | word, c :: s =>
    if c = ' ' then if word = [] then splitWords [] s else word.reverse :: splitWords [] s
    else splitWords (c :: word) s

/-- The words of `normal(text)`. -/
def normal (s : String) : List String := (splitWords [] (s.toList.flatMap normalChar)).map String.ofList

example : normal "Internal Audit: Q3/2026" = ["internal", "audit", "q3", "2026"] := by decide +kernel

/-- `normal(text)`. -/
def normalText (s : String) : String := String.intercalate " " (normal s)

/-- A word of a regular expression: one of some words, or any word; it may be optional. -/
structure Item where
  words : Option (List String)
  isOptional : Bool

/-- One of some words. -/
def word (words : List String) : Item := ⟨some words, false⟩

/-- One of some words, or nothing. -/
def maybe (words : List String) : Item := ⟨some words, true⟩

/-- The words begin with a match. -/
def matchesAt : List Item → List String → Bool
  | [], _ => true
  | item :: items, [] => item.isOptional && matchesAt items []
  | item :: items, w :: q =>
    (item.isOptional && matchesAt items (w :: q)) || (item.words.all (w ∈ ·) && matchesAt items q)

/-- `test`: there is a match. -/
def occurs (items : List Item) (q : List String) : Bool := q.tails.any (matchesAt items)

/-- `/\b20\d\d\b/`, on a word. -/
def isYear (w : String) : Bool :=
  match w.toList with
  | ['2', '0', a, b] => a.isDigit && b.isDigit
  | _ => false

/-! ### Terminology -/

/-- `CONCEPTS`: the names for which words stand, and these. -/
def CONCEPTS : List (String × List (List String)) :=
  [("procurement",
    [["procurement"], ["purchasing"], ["purchase"], ["purchase", "order"], ["accounts", "payable"], ["supplier"],
     ["vendor"], ["procure", "to", "pay"]]),
   ("approval",
    [["approval"], ["approve"], ["approver"], ["authorisation"], ["authorization"], ["authority"], ["delegation"],
     ["sign", "off"]]),
   ("weakness",
    [["weakness"], ["weaknesses"], ["failure"], ["failed"], ["exception"], ["exceptions"], ["missing"],
     ["incomplete"], ["ineffective"], ["deficient"], ["not", "verified"], ["could", "not", "be", "confirmed"]])]

/-- `CONCEPTS[c]`. -/
def aliasesOf (c : String) : List (List String) := (mapGet c CONCEPTS).getD []

/-- `STOP`. -/
def STOP : List String :=
  ["show", "me", "all", "any", "the", "a", "an", "which", "what", "who", "where", "when", "how", "many", "list",
   "find", "retrieve", "search", "give", "tell", "about", "of", "for", "with", "without", "in", "on", "at", "by",
   "from", "to", "and", "or", "have", "has", "had", "having", "are", "is", "was", "were", "be", "been", "being",
   "do", "does", "did", "can", "please", "across", "related", "relating", "identified", "recorded", "linked",
   "links", "link", "their", "there", "that", "those", "these", "this", "as", "it", "its", "my", "audit", "audits",
   "auditing", "universe", "record", "records", "engagement", "engagements", "entity", "entities", "process",
   "processes", "risk", "risks", "control", "controls", "workpaper", "workpapers", "evidence", "document",
   "documents", "finding", "findings", "issue", "issues", "action", "actions", "plan", "plans", "management",
   "owner", "owners", "due", "date", "dates", "status", "result", "results", "test", "tests", "tested", "testing",
   "last", "past", "previous", "year", "years", "month", "months", "completed", "complete", "closed", "open",
   "unresolved", "overdue", "recurring", "repeated", "recurrent", "repeat", "high", "medium", "low", "critical",
   "risk", "rated", "rating", "ineffective", "failed", "exceptions", "exception", "weaknesses", "weakness",
   "obtained", "identified", "suppliers", "analysed", "analyzed", "intelligence"]

/-- `TYPE_WORDS`: the kind that a word asks for. -/
def TYPE_WORDS : List (AuditSearchKind × List String) :=
  [(.ActionPlan, ["action", "actions", "remediation"]),
   (.Finding, ["finding", "findings"]),
   (.Risk, ["risk", "risks"]),
   (.Control, ["control", "controls"]),
   (.Workpaper, ["workpaper", "workpapers"]),
   (.Evidence, ["evidence", "document", "documents"]),
   (.Engagement, ["engagement", "engagements"]),
   (.Process, ["process", "processes"]),
   (.Entity, ["entity", "entities"])]

/-- The kind that a word asks for, if it does. -/
def typeOf (w : String) : Option AuditSearchKind := (TYPE_WORDS.find? fun t => w ∈ t.2).map Prod.fst

/-- A grade in front of the word risk is not about risks. -/
def subjectOf : List String → List String
  | [] => []
  | [w] => [w]
  | w :: next :: q =>
    if w ∈ ["high", "medium", "low", "critical"] ∧ next = "risk" then w :: subjectOf q else w :: subjectOf (next :: q)

/-! ### Dates -/

/-- The time of a day, as `toISOString` has it. -/
def timeText (ms : ℕ) : String :=
  "T" ++ pad (ms / 3600000) 2 ++ ":" ++ pad (ms / 60000 % 60) 2 ++ ":" ++ pad (ms / 1000 % 60) 2 ++ "." ++
    pad (ms % 1000) 3 ++ "Z"

/-- The date of a day, as `toISOString` has it. -/
def dayText (year month day : ℕ) : String :=
  (if year ≤ 9999 then pad year 4 else "+" ++ pad year 6) ++ "-" ++ pad month 2 ++ "-" ++ pad day 2

/-- `toISOString`. -/
def isoText (d : Date) : String :=
  let (year, month, day) := civil (d / 86400000)
  dayText year month day ++ timeText (d % 86400000)

/-- The same time a year before; there is no 29th of February then. -/
def yearBefore (d : Date) : String :=
  let (year, month, day) := civil (d / 86400000)
  (if month = 2 ∧ day = 29 then dayText (year - 1) 3 1 else dayText (year - 1) month day) ++ timeText (d % 86400000)

/-- The first of a month, and the first of the next. -/
def monthOf (d : Date) : String × String :=
  let (year, month, _) := civil (d / 86400000)
  (dayText year month 1 ++ timeText 0,
    (if month = 12 then dayText (year + 1) 1 1 else dayText year (month + 1) 1) ++ timeText 0)

/-! ### Interpretation -/

/-- What a search asks for. -/
structure IntelligenceQuery where
  q : List String
  kinds : List AuditSearchKind
  concepts : List String
  terms : List String
  /-- `from` and `to`. -/
  dates : Option (String × String)
  completed : Bool
  closed : Bool
  withoutExceptions : Bool
  withoutFindings : Bool
  isOpen : Bool
  overdue : Bool
  recurring : Bool
  linkedFindings : Bool
  failed : Bool
  severity : Option String

/-- `from` and `to`. -/
def datesOf (q : List String) (now : Date) : Option (String × String) :=
  if occurs [word ["last", "past", "previous"], word ["year"]] q ||
      occurs [word ["last", "past", "previous"], word ["12"], word ["months"]] q then
    some (yearBefore now, isoText now)
  else if occurs [word ["this"], word ["month"]] q then some (monthOf now)
  else
    match q.find? isYear with
    | none => none
    | some year =>
      if q.tails.any (fun l => matchesAt [word ["ia", "risk", "ctrl"]] l && (l.tail.head?.any isYear)) then none
      else
        some (year ++ "-01-01T00:00:00.000Z",
          toString (Nat.ofDigitChars 10 year.toList 0 + 1) ++ "-01-01T00:00:00.000Z")

/-- `/12 months/`, which may begin and end inside a word. -/
def mentions12Months (q : List String) : Bool :=
  q.tails.any fun l =>
    match l with
    | a :: b :: _ => "12".toList.isSuffixOf a.toList && "months".toList.isPrefixOf b.toList
    | _ => false

/-- `without exceptions`. -/
def asksWithoutExceptions (q : List String) : Bool :=
  occurs [word ["without", "no"], maybe ["recorded"], word ["exception", "exceptions"]] q

/-- `without findings`. -/
def asksWithoutFindings (q : List String) : Bool :=
  occurs [word ["without", "no"], maybe ["linked"], word ["finding", "findings"]] q

/-- `completed engagements`. -/
def asksCompleted (q : List String) : Bool :=
  occurs [word ["completed", "closed"], word ["audits", "engagements"]] q ||
    occurs [word ["audits", "engagements"], word ["completed"]] q ||
    occurs [word ["audits", "engagements"], word ["that"], word ["are"], word ["completed"]] q

/-- The result kinds: the first kind that is asked for, if the search allows it. -/
def kindsOf (dto : CopilotRequest) (q : List String) : List AuditSearchKind :=
  let inferred := ((subjectOf q).findSome? typeOf).or
    (if occurs [word ["audit", "audits"]] q then some .Engagement else none)
  let allowed := dto.searchKinds.getD AUDIT_SEARCH_KINDS
  match inferred with
  | some kind => allowed.filter (· = kind)
  | none => allowed

/-- `concepts`. -/
def conceptsOf (q : List String) : List String :=
  (CONCEPTS.filter fun c => c.2.any fun a => occurs (a.map fun w => word [w]) q).map Prod.fst

/-- `terms`. -/
def termsOf (q : List String) : List String :=
  let aliases := (conceptsOf q).flatMap fun c => (aliasesOf c).flatten
  (q.filter fun t =>
    1 < t.length && t ∉ STOP && !((asksWithoutExceptions q || asksWithoutFindings q) && t = "no") && t ∉ aliases &&
      !(t = "12" && mentions12Months q) && !isYear t).eraseDups

/-- `severity`. -/
def severityOf (q : List String) : Option String :=
  if "high" ∈ q then some "HIGH"
  else if "critical" ∈ q then some "CRITICAL"
  else if "medium" ∈ q then some "MEDIUM"
  else if "low" ∈ q then some "LOW"
  else none

/-- `interpretIntelligenceQuery`. -/
def interpretIntelligenceQuery (dto : CopilotRequest) (now : Date) : Except HttpError IntelligenceQuery :=
  let q := normal dto.prompt
  let withoutExceptions := asksWithoutExceptions q
  let withoutFindings := asksWithoutFindings q
  if occurs [word ["not", "without", "excluding", "except", "no"]] q && !withoutExceptions && !withoutFindings then
    .error (.badRequest ("This negative query cannot be interpreted reliably. Use explicit positive filters, or ask " ++
      "for records without linked findings or without exceptions."))
  else
    .ok
      { q,
        kinds := kindsOf dto q,
        concepts := conceptsOf q,
        terms := termsOf q,
        dates := datesOf q now,
        completed := asksCompleted q,
        closed := "closed" ∈ q && !asksCompleted q,
        withoutExceptions,
        withoutFindings,
        isOpen := "open" ∈ q || "unresolved" ∈ q,
        overdue := "overdue" ∈ q,
        recurring := q.any (· ∈ ["recurring", "repeated", "recurrent", "repeat"]),
        linkedFindings := !withoutFindings &&
          occurs [word ["linked", "with", "have"], ⟨none, true⟩, word ["findings"]] q,
        failed := !withoutExceptions && q.any (· ∈ ["ineffective", "failed", "failures", "exceptions"]),
        severity := severityOf q }

end AuditSphere.Intelligence
