import AuditSphere.Intelligence.Register
import AuditSphere.Intelligence.Search
import AuditSphere.Shared.Assistant

/-!
# The draft of a provider

`audit-provider.ts`: what a language model has drafted is checked against the local review, the baseline,
and merged with it. The regular expressions are matched here by hand; those that ignore case have
letters of ASCII only, and so has `\b`.
-/

namespace AuditSphere.Intelligence

open Shared.Assistant

/-! ### Phrases -/

/-- A character of `\w`. -/
def isWordChar (c : Char) : Bool := c.isAlphanum || c = '_'

/-- The text starts with the phrase, whatever its case, and no word goes on after it. -/
def startsWithPhrase (phrase text : List Char) : Bool :=
  (text.take phrase.length).map Char.toLower = phrase && (text.drop phrase.length).head?.all fun c => !isWordChar c

/-- `/\bphrase\b/i`, where `inWord` says whether a character of a word stands before the text. -/
def hasPhrase (phrase : List Char) : Bool → List Char → Bool
  | _, [] => false
  | inWord, c :: text => (!inWord && startsWithPhrase phrase (c :: text)) || hasPhrase phrase (isWordChar c) text

/-- One of the phrases is there. -/
def hasAny (phrases : List String) (inWord : Bool) (text : List Char) : Bool :=
  phrases.any fun phrase => hasPhrase phrase.toList inWord text

/-- The conclusions that no draft may draw. -/
def UNQUALIFIED : List String :=
  (["control", "controls"].flatMap fun control => ["is", "are", "was", "were"].flatMap fun verb =>
    ["", "fully ", "operating "].map fun adverb => control ++ " " ++ verb ++ " " ++ adverb ++ "effective") ++
  ["audit is clean", "audit was clean", "provide unqualified assurance", "provides unqualified assurance",
    "no further testing required", "no further testing is required", "no further validation required",
    "no further validation is required"]

/-- The conclusions that have to be qualified. -/
def TENTATIVE : List String :=
  ["control appear effective", "control appears effective", "controls appear effective", "controls appears effective"]

/-- The conclusions on the evidence. -/
def ENOUGH : List String :=
  ["evidence is sufficient", "evidence was sufficient", "evidence is fully sufficient", "evidence was fully sufficient"]

/-- `/\bhowever\b[\s\S]*\b(?:additional validation|further testing)\b/i`. -/
def isQualified : Bool → List Char → Bool
  | _, [] => false
  | inWord, c :: text =>
    (!inWord && startsWithPhrase "however".toList (c :: text) &&
      hasAny ["additional validation", "further testing"] true ((c :: text).drop 7)) || isQualified (isWordChar c) text

/-! ### Amounts -/

/-- `/^\d+(?:\.\d+)?/`: the match, and the text after it. -/
def decimalAt (s : List Char) : Option (List Char × List Char) :=
  let digits := s.takeWhile Char.isDigit
  if digits = [] then none
  else match s.dropWhile Char.isDigit with
    | '.' :: rest =>
      let fraction := rest.takeWhile Char.isDigit
      if fraction = [] then some (digits, '.' :: rest)
      else some (digits ++ '.' :: fraction, rest.dropWhile Char.isDigit)
    | rest => some (digits, rest)

/-- `/^[+-]?\d+(?:\.\d+)?/`. -/
def amountAt : List Char → Option (List Char × List Char)
  | [] => none
  | c :: s => if c = '+' ∨ c = '-' then (decimalAt s).map fun found => (c :: found.1, found.2) else decimalAt (c :: s)

/-- The matches in so many characters, one after the other. -/
def amountsIn : ℕ → List Char → List (List Char)
  | 0, _ => []
  | _, [] => []
  | n + 1, c :: s =>
    match amountAt (c :: s) with
    | none => amountsIn n s
    | some (found, rest) => found :: amountsIn n rest

/-- `match(/[+-]?\d+(?:\.\d+)?/g)`, without the commas. -/
def amountsOf (s : String) : List (List Char) :=
  let text := s.toList.filter (· ≠ ',')
  amountsIn text.length text

/-- `match(/\b[A-Z]{3}\b/)`. -/
def currencyOf : Bool → List Char → Option (List Char)
  | _, [] => none
  | inWord, c :: s =>
    let code := (c :: s).take 3
    if !inWord && code.length = 3 && code.all Char.isUpper && ((c :: s).drop 3).head?.all (!isWordChar ·) then some code
    else currencyOf (isWordChar c) s

example : (amountsOf "KES 650,000.50 and -3.").map String.ofList = ["650000.50", "-3"] ∧
    (currencyOf false "paid KES 650".toList).map String.ofList = some "KES" := by decide +kernel

/-! ### Exception rows -/

/-- `/^EX-\d{3,}$/`. -/
def isExceptionId (s : String) : Bool :=
  match s.toList with
  | 'E' :: 'X' :: '-' :: digits => 3 ≤ digits.length && digits.all Char.isDigit
  | _ => false

/-- `replace(/\s+/g, ' ')`; `inBlank` says whether a blank stands before the text. -/
def collapse : Bool → List Char → List Char
  | _, [] => []
  | inBlank, c :: s => if isTrimmed c then if inBlank then collapse true s else ' ' :: collapse true s else c :: collapse false s

/-- `replace(/[,\s]/g, '')`. -/
def withoutCommas (s : String) : String := String.ofList (s.toList.filter fun c => c ≠ ',' && !isTrimmed c)

/-- `row.cells[k]`, where there is such a cell. -/
def cell (r : Shared.Assistant.Row) (k : ℕ) : String := r.cells.getD k ""

/-- What is answered for a transaction that is not rated. -/
def UNRATED_TEXT : String := "UNRATED - auditor assessment required"

/-- The exceptions that a review can have. -/
def MAX_EXCEPTIONS : ℕ := 100

/-- `EX-001`, `EX-002`, ... -/
def exceptionId (number : ℕ) : String := "EX-" ++ pad number 3

section Provider

variable [Runtime] [Casing]

/-- `normalized`. -/
def normalized (value : String) : String := trimText (String.ofList (collapse false (Casing.lower value).toList))

/-- `normalized(r.cells[k])`, of a row that may be shorter. -/
def normalizedCell (r : Shared.Assistant.Row) (k : ℕ) : Except String String :=
  match r.cells[k]? with
  | none => .error "TypeError"
  | some value => .ok (normalized value)

/-- `some`, with a condition that may throw. -/
def anyRow (p : Shared.Assistant.Row → Except String Bool) : List Shared.Assistant.Row → Except String Bool
  | [] => .ok false
  | r :: rows => do if ← p r then .ok true else anyRow p rows

/-- The parsed row is the transaction: the same supplier, and the same amount. -/
def sameTransaction (row r : Shared.Assistant.Row) : Except String Bool := do
  if (← normalizedCell r 1) = normalized (cell row 2) then
    return withoutCommas (← normalizedCell r 2) = withoutCommas (normalized (cell row 3))
  else return false

/-- The texts of the documents that a row cites. -/
def textsOf (context : AuditContext) (row : Shared.Assistant.Row) : List String :=
  (context.records.filter fun r => decide (r.source.id ∈ row.sourceIds) && decide (r.source.kind = .Document) &&
    decide (field r "extractedText" ≠ "")).map fun r => normalized (field r "extractedText")

/-- The amount of a row is in one of the texts, and so is its currency. -/
def amountFound (texts : List String) (value : String) : Bool :=
  (match (amountsOf value).head? with
    | none => false
    | some amount => texts.any fun text => amount ∈ amountsOf text) &&
  ((currencyOf false value.toList).all fun currency =>
    texts.any fun text => includes text (Casing.lower (String.ofList currency)))

/-- The parsed rows of the baseline for the transaction of a row. -/
def parsedRows (baseline : Content) (row : Shared.Assistant.Row) : List Shared.Assistant.Row :=
  ((baseline.sections.find? fun s => s.title = "Transaction evidence reviewed").map (·.rows)).getD [] |>.filter fun r =>
    cell r 0 = cell row 1 && r.sourceIds.any (· ∈ row.sourceIds)

/-- The checks of a new row of the register. -/
def checkRow (baseline : Content) (context : AuditContext) (row : Shared.Assistant.Row) : Except String Unit :=
  let texts := textsOf context row
  if !isExceptionId (cell row 0) || row.cells.any (fun v => trimText v = "") then
    .error "AI provider returned an incomplete exception register row"
  else if texts = [] ∨ [1, 2].any (fun k => cell row k ≠ "Not supplied" &&
      !texts.any fun text => includes text (normalized (cell row k))) then
    .error "AI provider invented a transaction reference or supplier"
  else if cell row 3 ≠ "Not supplied" ∧ amountFound texts (cell row 3) = false then
    .error "AI provider invented a transaction amount or currency"
  else if [1, 2, 3].all (fun k => cell row k = "Not supplied") ∨ ¬[1, 2].any (fun k => cell row k ≠ "Not supplied" &&
      includes (normalized (cell row 6)) (normalized (cell row k))) then
    .error "AI provider returned a generic, untraceable transaction exception"
  else do
    let parsed := parsedRows baseline row
    if parsed ≠ [] then
      if ← anyRow (sameTransaction row) parsed then .ok ()
      else .error "AI provider mismatched the supplier or amount to a parsed transaction"
    else .ok ()

/-! ### The merge -/

/-- The row of the register, under a number. -/
def numberedRow (row : Shared.Assistant.Row) (number : ℕ) : Shared.Assistant.Row := { row with
  cells := (row.cells.set 0 (exceptionId number)).set 8 UNRATED_TEXT
  basis := .assessment }

/-- The exception of a row, under a number. -/
def rowException (row : Shared.Assistant.Row) (number : ℕ) : Shared.Assistant.Exception where
  reference := exceptionId number
  observation := cell row 6
  risk := cell row 7
  severity := .unrated
  status := .potential
  sourceIds := row.sourceIds

/-- The loop over the new rows, which ends when there are enough exceptions. -/
def addRows (baseline : Content) (context : AuditContext) : List Shared.Assistant.Row → Entries → Except String Entries
  | [], entries => .ok entries
  | row :: rows, entries =>
    if MAX_EXCEPTIONS ≤ entries.1.length then .ok entries
    else do
      checkRow baseline context row
      addRows baseline context rows (entries.1 ++ [rowException row (entries.1.length + 1)],
        entries.2 ++ [numberedRow row (entries.1.length + 1)])

/-- The last loop: the other exceptions of the draft, unless they say what another one says. -/
def addExceptions : List Shared.Assistant.Exception → List Shared.Assistant.Exception → List Shared.Assistant.Exception
  | [], exceptions => exceptions
  | e :: more, exceptions =>
    addExceptions more <|
      if exceptions.length < MAX_EXCEPTIONS ∧ ¬exceptions.any (fun b => b.observation = e.observation) then
        exceptions ++ [{ e with reference := exceptionId (exceptions.length + 1), status := .potential }]
      else exceptions

/-- A section under a title. -/
def sectionOf (c : Content) (title : String) : Option Section := c.sections.find? fun s => s.title = title

/-- What the merged register says if it has rows. -/
def REGISTER_NOTICE : Statement where
  text := "Potential transactional exceptions require auditor corroboration. Amounts are source-reported transaction " ++
    "values, not losses; repeated amounts must not be totalled. Confirm control applicability and assess severity " ++
    "before relying on this register."
  basis := .assessment
  sourceIds := []

/-- The register of the draft, merged with that of the baseline, and the exceptions. -/
def mergeRegister (result baseline : Content) (context : AuditContext) :
    Except String (Option Section × List Shared.Assistant.Exception) :=
  let baseRegister := sectionOf baseline EXCEPTION_REGISTER_TITLE
  match sectionOf result EXCEPTION_REGISTER_TITLE with
  | none => .ok (baseRegister, baseline.exceptions)
  | some register =>
    if (result.sections.filter fun s => s.title = EXCEPTION_REGISTER_TITLE).length ≠ 1 ∨
        register.columns ≠ EXCEPTION_REGISTER_COLUMNS then
      .error "AI provider returned an invalid exception register"
    else if ¬(register.rows.map (·.cells.head?)).Nodup then .error "AI provider returned duplicate exception IDs"
    else do
      let baseRows := (baseRegister.map (·.rows)).getD []
      let known := baseRows.map (·.cells.head?)
      let (exceptions, rows) ← addRows baseline context (register.rows.filter fun r => r.cells.head? ∉ known)
        (baseline.exceptions, baseRows)
      return (some { register with
        rows
        items := if rows ≠ [] then [REGISTER_NOTICE] else (baseRegister.map (·.items)).getD register.items }, exceptions)

/-! ### The checks -/

/-- The sources that a section cites. -/
def sectionIds (s : Section) : List String := s.items.flatMap (·.sourceIds) ++ s.rows.flatMap (·.sourceIds)

/-- The sources that a content cites. -/
def citedIds (c : Content) : List String :=
  c.sections.flatMap sectionIds ++ c.exceptions.flatMap (·.sourceIds) ++ c.reviewerNotes.flatMap (·.sourceIds) ++
    c.evidenceAssessment.sourceIds ++ c.evidenceAssessment.checks.flatMap (·.sourceIds) ++ c.ratingProposal.sourceIds

/-- The statement is a fact of the baseline. -/
def isBaselineFact (baseline : Content) (i : Statement) : Bool :=
  baseline.sections.any fun b => b.items.any fun original => original.basis = .fact && original.text = i.text &&
    String.intercalate "," original.sourceIds = String.intercalate "," i.sourceIds

/-- What the draft claims, but for the facts of the baseline. -/
def claimsOf (result baseline : Content) : List (List Char) :=
  ([result.title, result.narrative] ++
    (result.sections.flatMap fun s => (s.items.filter fun i => !isBaselineFact baseline i).map (·.text)) ++
    (result.sections.flatMap fun s => s.rows.flatMap (·.cells)) ++ result.exceptions.map (·.observation) ++
    result.reviewerNotes.map (·.comment)).map String.toList

/-- The checks of a draft that fits the schema. -/
def checkDraft (result baseline : Content) (context : AuditContext) : Except String Unit :=
  let allowed := context.records.map fun r => r.source.id
  let claims := claimsOf result baseline
  let isSufficient := decide (baseline.evidenceAssessment.status = .sufficient)
  if (citedIds result).any (· ∉ allowed) then .error "AI provider cited an unavailable source"
  else if result.sections.any fun s => s.rows.any fun r => r.cells.length ≠ s.columns.length then
    .error "AI provider returned an invalid audit table"
  else if (result.sections.any fun s => (s.items.any fun i => i.basis = .fact && i.sourceIds.isEmpty) ||
      s.rows.any fun r => r.basis = .fact && r.sourceIds.isEmpty) || result.exceptions.any (·.sourceIds.isEmpty) then
    .error "AI provider returned an unsupported factual assertion"
  else if baseline.sections.any fun s => !result.sections.any fun r => r.title = s.title then
    .error "AI provider omitted a required audit section"
  else if claims.any (hasAny UNQUALIFIED false) then
    .error "AI provider returned an unqualified effectiveness conclusion"
  else if claims.any fun text => hasAny TENTATIVE false text && (!isSufficient || !isQualified false text) then
    .error "AI provider returned an unsupported tentative effectiveness conclusion"
  else if !isSufficient && claims.any (hasAny ENOUGH false) then .error "AI provider overstated evidence sufficiency"
  else .ok ()

/-- The sections that the model may not write. -/
def PROTECTED : List String :=
  ["Dashboard", "Risk rating proposal", "Evidence sufficiency conclusion", "Review disposition", "Search results"]

/-- A section of the merged content. -/
def mergedSection (baseline : Content) (register : Option Section) (s : Section) : Section :=
  if s.title = EXCEPTION_REGISTER_TITLE then register.getD s
  else if s.title ∈ PROTECTED then (sectionOf baseline s.title).getD s
  else s

/-- The merged content. -/
def mergeDraft (result baseline : Content) (register : Option Section) (exceptions : List Shared.Assistant.Exception) :
    Content := { result with
  evidenceAssessment := baseline.evidenceAssessment
  ratingProposal := baseline.ratingProposal
  exceptions := addExceptions result.exceptions exceptions
  reviewerNotes := (baseline.reviewerNotes ++ result.reviewerNotes.filter fun n =>
    !baseline.reviewerNotes.any fun b => b.comment = n.comment).take 100
  sections := result.sections.map (mergedSection baseline register)
  caveats := (result.caveats ++ baseline.caveats.filter fun c =>
    !"Local rule-based".toList.isPrefixOf c.toList).eraseDups }

/-- `validateProviderDraft`, of a value with the properties of a content. -/
def validateProviderDraft (value : Option Content) (baseline : Content) (context : AuditContext) : Except String Content :=
  match value.filter fun c => decide c.Fits with
  | none => .error "AI provider output did not match the required audit format"
  | some result => do
    checkDraft result baseline context
    let (register, exceptions) ← mergeRegister result baseline context
    return mergeDraft result baseline register exceptions

end Provider

end AuditSphere.Intelligence
