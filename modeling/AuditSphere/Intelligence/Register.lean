import AuditSphere.Common.References
import AuditSphere.Intelligence.Records
import AuditSphere.Shared.Assistant

/-!
# The register of exceptions

`transaction-exceptions.ts`, and the transactions of `evidence-analysis.ts`. The register
and the list of exceptions are built side by side from the issues of the transactions, up
to a hundred: both have an entry for each issue, in the order of the transactions
(`transactionExceptionRegister_matches`).
-/

namespace AuditSphere.Intelligence

open Shared.Assistant

/-- Upper and lower case, as the language has them. -/
class Casing where
  /-- `toLowerCase`. -/
  lower : String → String
  /-- `toUpperCase`. -/
  upper : String → String

/-! ### Transactions -/

/-- `TransactionIssueCode`. -/
inductive TransactionIssueCode where
  | reference | approver | approvalDate | commitmentDate | lateApproval | ambiguousDate
  deriving DecidableEq

/-- `TransactionIssue`. -/
structure TransactionIssue where
  code : TransactionIssueCode
  message : String

/-- `TransactionReview`. -/
structure TransactionReview where
  sourceId : String
  row : ℕ
  location : String
  reference : String
  supplier : String
  amount : String
  approver : String
  approvalDate : String
  commitmentDate : String
  controlReference : String
  controlRequirement : String
  evidenceObserved : String
  severity : String
  issues : List String
  issueDetails : List TransactionIssue

/-- The texts that stand for nothing. -/
def MISSING : List String :=
  ["n/a", "na", "none", "null", "missing", "not available", "not provided", "not identified", "pending", "-"]

/-- `missingTransactionValue`. -/
def missingTransactionValue (s : String) : Bool :=
  trimText s = "" || String.ofList ((trimText s).toList.map Char.toLower) ∈ MISSING

/-- A value, or a text if it is missing. -/
def orMissing (s text : String) : String := if missingTransactionValue s then text else s

/-! ### Criteria -/

/-- What an issue is judged by. -/
structure Criterion where
  requirement : String
  impact : String
  followUp : String

/-- `CRITERIA`. -/
def CRITERIA : TransactionIssueCode → Criterion
  | .reference =>
    { requirement := "Retain a unique transaction reference linking the entry to supporting evidence.",
      impact := "Potential inability to trace or validate the transaction, including duplicate or unsupported processing.",
      followUp := "Obtain the original transaction identifier and reconcile the entry to the source-system population " ++
        "and supporting documents." }
  | .approver =>
    { requirement := "Approval evidence identifies the approver and supports authority under the applicable delegation " ++
        "matrix.",
      impact := "Potential unauthorised expenditure or payments outside delegated authority; actual loss is not " ++
        "established.",
      followUp := "Obtain the attributable approval workflow log or signed approval identifying the approver. Verify " ++
        "their authority for the transaction amount and date against the applicable delegation matrix; investigate " ++
        "and corroborate any breach." }
  | .approvalDate =>
    { requirement := "Retain a dated approval that can be compared with commitment.",
      impact := "Potential retrospective or unauthorised approval; the timing of authorisation cannot be established.",
      followUp := "Obtain the original approval timestamp or dated signed record and compare it with the source " ++
        "commitment timestamp." }
  | .commitmentDate =>
    { requirement := "Retain the commitment date needed to test whether authorisation occurred beforehand.",
      impact := "Potential commitment before authorisation; timing cannot be tested from the supplied row.",
      followUp := "Obtain the purchase-order release, contract or commitment timestamp and compare it with the " ++
        "approval record." }
  | .lateApproval =>
    { requirement := "Obtain authorised approval before procurement commitment.",
      impact := "Potential unauthorised commitment and retrospective approval; verify the dates and applicable " ++
        "exceptions before concluding a breach.",
      followUp := "Confirm the approval and commitment timestamps from original system logs. Investigate " ++
        "retrospective approval, verify any permitted exception and approver authority, and consider expanding the " ++
        "sample if corroborated." }
  | .ambiguousDate =>
    { requirement := "Retain unambiguous, valid approval and commitment timestamps.",
      impact := "Potential undetected timing exceptions because the supplied date values cannot reliably establish " ++
        "the event sequence.",
      followUp := "Confirm the date format and timezone with the source-system owner, obtain valid ISO dates or " ++
        "original timestamps, then repeat the approval-timing test." }

/-- `EXCEPTION_REGISTER_TITLE`. -/
def EXCEPTION_REGISTER_TITLE : String := "Exception Register"

/-- `EXCEPTION_REGISTER_COLUMNS`. -/
def EXCEPTION_REGISTER_COLUMNS : List String :=
  ["Exception ID", "Transaction Reference", "Supplier/Vendor", "Amount", "Control Requirement", "Evidence Observed",
   "Exception Identified", "Risk Impact", "Severity", "Auditor Follow-up"]

/-- What the register says if it is full. -/
def REGISTER_LIMITED : String :=
  "Register limited to 100 exceptions. Narrow the source data and review remaining transactions separately."

/-! ### The register -/

section Register

variable [Runtime] [Casing] (context : AuditContext)

/-- The ids of the controls that the evidence of a transaction and the target of the review name. -/
def controlIds (row : TransactionReview) : List String :=
  let document := context.records.find? fun r => r.source.id = row.sourceId
  let workpaperIds := ((recordsOf context.records .Evidence).filter fun e =>
    document.any fun d => field e "documentId" = d.source.recordId).map fun e => field e "workpaperId"
  let ids := (((recordsOf context.records .Workpaper).filter fun w => w.source.recordId ∈ workpaperIds).map fun w =>
    field w "controlId").filter (· ≠ "")
  match context.target.bind fun target => context.records.find? fun r => r.source.id = target with
  | none => ids
  | some target =>
    if target.source.kind = .Control then ids ++ [target.source.recordId]
    else if target.source.kind ∈ [.Workpaper, .Finding, .Procedure] ∧ field target "controlId" ≠ "" then
      ids ++ [field target "controlId"]
    else ids

/-- `transactionControl`. -/
def transactionControl (row : TransactionReview) : Option AuditRecord :=
  let controls := recordsOf context.records .Control
  if !missingTransactionValue row.controlReference then
    match controls.filter fun c => [c.source.recordId, field c "code", field c "title"].any fun value =>
        Casing.lower value = Casing.lower row.controlReference with
    | [c] => some c
    | _ => none
  else
    match (controlIds context row).eraseDups with
    | [id] => controls.find? fun c => c.source.recordId = id
    | _ => none

/-- The risks that a control mitigates. -/
def mitigatedRisks (control : Option AuditRecord) : List AuditRecord :=
  match control with
  | none => []
  | some c => (recordsOf context.records .Risk).filter fun r =>
      context.links.any fun l => l.source = r.source.id && l.target = c.source.id && l.relationship = "mitigated by"

/-- What is said of a transaction. -/
structure Subject where
  control : Option AuditRecord
  risks : List AuditRecord
  ids : List String
  subject : String
  observed : String

/-- What the loop prepares for a transaction, whose document is a source. -/
def subjectFor (row : TransactionReview) (source : AuditRecord) : Subject :=
  let control := transactionControl context row
  let risks := mitigatedRisks context control
  let transaction :=
    if missingTransactionValue row.reference then "unreferenced transaction (" ++ row.location ++ ")"
    else "transaction " ++ row.reference
  let supplier := orMissing row.supplier "the supplier/vendor not identified in the source"
  let value := if row.amount = "Not supplied" then "with amount not supplied" else "amounting to " ++ row.amount
  { control,
    risks,
    ids := [row.sourceId] ++ control.toList.map (·.source.id) ++ (risks.take 3).map (·.source.id),
    subject := supplier ++ " " ++ value ++ " (" ++ transaction ++ ")",
    observed := source.source.label ++ ", " ++ row.location ++ ". Reference: " ++ orMissing row.reference "not supplied" ++
      "; supplier/vendor: " ++ orMissing row.supplier "not supplied" ++ "; amount: " ++ row.amount ++ "; approver: " ++
      orMissing row.approver "not identified" ++ "; approval date: " ++ orMissing row.approvalDate "not supplied" ++
      "; commitment date: " ++ orMissing row.commitmentDate "not supplied" ++ "." ++
      if missingTransactionValue row.evidenceObserved then "" else " Source-stated evidence: " ++ row.evidenceObserved }

/-- `observation`. -/
def observationOf (row : TransactionReview) (subject : String) : TransactionIssueCode → String
  | .reference => "Exception: The transaction for " ++ subject ++ " could not be traced to its original record because " ++
      "the supplied evidence did not include a transaction reference."
  | .approver => "Exception: Approval authority could not be confirmed for " ++ subject ++ " because the supplied " ++
      "approval evidence did not identify the approver."
  | .approvalDate => "Exception: Approval timing could not be confirmed for " ++ subject ++ " because the supplied " ++
      "evidence did not include an approval date."
  | .commitmentDate => "Exception: Approval before commitment could not be confirmed for " ++ subject ++ " because the " ++
      "supplied evidence did not include the commitment date."
  | .lateApproval => "Exception: Approval for " ++ subject ++ " was recorded on " ++ row.approvalDate ++ ", after the " ++
      "commitment date of " ++ row.commitmentDate ++ ". Confirm both dates and the applicable requirement before " ++
      "concluding a control breach."
  | .ambiguousDate => "Exception: Approval timing could not be confirmed for " ++ subject ++ " because the supplied " ++
      "date format is ambiguous or invalid (approval: " ++
      (if row.approvalDate = "" then "not supplied" else row.approvalDate) ++ "; commitment: " ++
      (if row.commitmentDate = "" then "not supplied" else row.commitmentDate) ++ ")."

/-- `requirement`. -/
def requirementOf (row : TransactionReview) (control : Option AuditRecord) (criterion : Criterion) : String :=
  if !missingTransactionValue row.controlRequirement then "Source-stated requirement: " ++ row.controlRequirement
  else match control with
    | some c =>
      "Recorded control " ++ c.source.label ++ ": " ++
        (if field c "description" = "" then "description not supplied" else field c "description") ++
        ". Review criterion, applicability to confirm: " ++ criterion.requirement
    | none =>
      (if missingTransactionValue row.controlReference then ""
        else "Unresolved control reference " ++ row.controlReference ++ ". ") ++
        "Review criterion (policy/control requirement to confirm): " ++ criterion.requirement

/-- `impact`. -/
def impactOf (risks : List AuditRecord) (criterion : Criterion) : String :=
  criterion.impact ++
    if risks = [] then " Risk linkage requires confirmation."
    else " Linked risk: " ++ String.intercalate "; " ((risks.take 3).map (·.source.label)) ++ "."

/-- `rating`. -/
def ratingOf (row : TransactionReview) : Severity :=
  match Casing.upper (trimText row.severity) with
  | "LOW" => .low
  | "MEDIUM" => .medium
  | "HIGH" => .high
  | "CRITICAL" => .critical
  | _ => .unrated

/-- The text of a severity. -/
def severityText : Severity → String
  | .low => "LOW (source-reported; confirm)"
  | .medium => "MEDIUM (source-reported; confirm)"
  | .high => "HIGH (source-reported; confirm)"
  | .critical => "CRITICAL (source-reported; confirm)"
  | .unrated => "UNRATED - auditor assessment required"

/-- The exception for an issue, under a number. -/
def exceptionFor (row : TransactionReview) (s : Subject) (issue : TransactionIssue) (number : ℕ) : Shared.Assistant.Exception :=
  { reference := "EX-" ++ pad number 3,
    observation := observationOf row s.subject issue.code,
    risk := impactOf s.risks (CRITERIA issue.code),
    severity := ratingOf row,
    status := .potential,
    sourceIds := s.ids }

/-- The row of the register for it. -/
def registerRow (row : TransactionReview) (s : Subject) (issue : TransactionIssue) (number : ℕ) :
    Shared.Assistant.Row :=
  { cells := [
      "EX-" ++ pad number 3,
      orMissing row.reference "Not supplied",
      orMissing row.supplier "Not supplied",
      row.amount,
      requirementOf row s.control (CRITERIA issue.code),
      s.observed,
      observationOf row s.subject issue.code,
      impactOf s.risks (CRITERIA issue.code),
      severityText (ratingOf row),
      (CRITERIA issue.code).followUp],
    basis := .assessment,
    sourceIds := s.ids }

/-- The exceptions, and the rows of the register. -/
abbrev Entries := List Shared.Assistant.Exception × List Shared.Assistant.Row

/-- The inner loop, which ends at a hundred exceptions. -/
def addIssues (row : TransactionReview) (s : Subject) : List TransactionIssue → Entries → Entries
  | [], entries => entries
  | issue :: issues, entries =>
    if entries.1.length = 100 then entries
    else addIssues row s issues
      (entries.1 ++ [exceptionFor row s issue (entries.1.length + 1)],
        entries.2 ++ [registerRow row s issue (entries.1.length + 1)])

/-- A turn of the outer loop. The document of a transaction has to be a source. -/
def addTransaction (entries : Entries) (row : TransactionReview) : Except TypeError Entries :=
  match context.records.find? fun r => r.source.id = row.sourceId with
  | none => .error .typeError
  | some source => .ok (addIssues row (subjectFor context row source) row.issueDetails entries)

/-- `transactionExceptionRegister`: the register and the exceptions. -/
def transactionExceptionRegister (transactions : List TransactionReview) :
    Except TypeError (Section × List Shared.Assistant.Exception) := do
  let entries ← transactions.foldlM (addTransaction context) ([], [])
  let first : Statement :=
    { text :=
        if transactions ≠ [] then
          "Potential transactional exceptions and evidence gaps, subject to auditor corroboration. Amounts are " ++
            "source-reported transaction values, not quantified losses; repeated amounts across exceptions must not be " ++
            "totalled. Severity is source-reported where supplied, otherwise UNRATED. Confirm the applicable control " ++
            "requirement."
        else
          "No structured transaction rows were identified in the readable excerpts. Review original documents or " ++
            "supply a transaction listing; no absence-of-exceptions conclusion is made.",
      basis := .assessment,
      sourceIds := [] }
  let clean : List Statement :=
    if transactions ≠ [] ∧ entries.1 = [] then
      [{ text := "No rule-detected transactional exceptions were identified in the parsed rows. Approval authority, " ++
          "authenticity, policy applicability and population completeness still require auditor validation.",
         basis := .assessment,
         sourceIds := (transactions.map (·.sourceId)).eraseDups }]
    else []
  let limited : List Statement :=
    if entries.1.length = 100 then
      [{ text := REGISTER_LIMITED,
         basis := .missing,
         sourceIds := [] }]
    else []
  return (
    { title := EXCEPTION_REGISTER_TITLE,
      columns := EXCEPTION_REGISTER_COLUMNS,
      items := [first] ++ clean ++ limited,
      rows := entries.2 },
    entries.1)

/-! ### Entries for issues -/

/-- The issues of transactions, in their order. -/
def issuesOf (transactions : List TransactionReview) : List (TransactionReview × TransactionIssue) :=
  transactions.flatMap fun row => row.issueDetails.map (row, ·)

/-- The register has an entry for each of the first hundred issues, and the exceptions, too. -/
structure Matches (transactions : List TransactionReview) (register : Section)
    (exceptions : List Shared.Assistant.Exception) : Prop where
  /-- There are as many exceptions as issues, up to a hundred. -/
  count : exceptions.length = min 100 (issuesOf transactions).length
  /-- There are as many rows as exceptions. -/
  rows : register.rows.length = exceptions.length
  /-- The exception and the row at a place are for the issue at that place. -/
  issue : ∀ i row issue, i < 100 → (issuesOf transactions)[i]? = some (row, issue) →
    ∃ source, (context.records.find? fun r => r.source.id = row.sourceId) = some source ∧
      exceptions[i]? = some (exceptionFor row (subjectFor context row source) issue (i + 1)) ∧
      register.rows[i]? = some (registerRow row (subjectFor context row source) issue (i + 1))
  /-- Both have the same number, of three digits at least, and say the same. -/
  aligned : ∀ i e r, exceptions[i]? = some e → register.rows[i]? = some r →
    (e.reference = "EX-" ++ pad (i + 1) 3 ∧ 3 ≤ (pad (i + 1) 3).toList.length) ∧
      r.cells[0]? = some e.reference ∧ r.cells[6]? = some e.observation ∧ r.cells[7]? = some e.risk ∧
      r.sourceIds = e.sourceIds
  /-- It is said if there are more issues. -/
  limited : 100 < (issuesOf transactions).length → ∃ item ∈ register.items, item.text = REGISTER_LIMITED
  /-- The rows have the columns of the register. -/
  columns : register.columns = EXCEPTION_REGISTER_COLUMNS ∧
    ∀ row ∈ register.rows, row.cells.length = EXCEPTION_REGISTER_COLUMNS.length

/-- An issue, with what is said of its transaction. -/
abbrev Issue := TransactionReview × Subject × TransactionIssue

/-- The entries for some issues. -/
def entriesOf (issues : List Issue) : Entries :=
  (issues.mapIdx fun i x => exceptionFor x.1 x.2.1 x.2.2 (i + 1), issues.mapIdx fun i x => registerRow x.1 x.2.1 x.2.2 (i + 1))

theorem entriesOf_concat (issues : List Issue) (x : Issue) : entriesOf (issues ++ [x]) =
    ((entriesOf issues).1 ++ [exceptionFor x.1 x.2.1 x.2.2 (issues.length + 1)],
      (entriesOf issues).2 ++ [registerRow x.1 x.2.1 x.2.2 (issues.length + 1)]) := by
  rw [entriesOf, List.mapIdx_concat, List.mapIdx_concat]
  rfl

theorem length_entriesOf (issues : List Issue) : (entriesOf issues).1.length = issues.length := List.length_mapIdx

/-- The inner loop adds the issues that there is room for. -/
theorem addIssues_entriesOf (row : TransactionReview) (s : Subject) (issues : List TransactionIssue) {before : List Issue}
    (h : before.length ≤ 100) : addIssues row s issues (entriesOf before) =
      entriesOf ((before ++ issues.map fun issue => (row, s, issue)).take 100) := by
  induction issues generalizing before with
  | nil => rw [addIssues, List.map_nil, List.append_nil, List.take_of_length_le h]
  | cons issue issues ih =>
    rw [addIssues, length_entriesOf]
    by_cases hfull : before.length = 100
    · rw [if_pos hfull, List.take_append_of_le_length hfull.ge, List.take_of_length_le h]
    · have hroom : (before ++ [(row, s, issue)]).length ≤ 100 := by
        rw [List.length_append, List.length_singleton]
        omega
      rw [if_neg hfull, ← entriesOf_concat before (row, s, issue), ih hroom, List.append_assoc]
      rfl

/-- The issues of transactions whose documents are sources. -/
def issuesIn (transactions : List TransactionReview) : List Issue :=
  transactions.flatMap fun row => ((context.records.find? fun r => r.source.id = row.sourceId).map fun source =>
    row.issueDetails.map fun issue => (row, subjectFor context row source, issue)).getD []

omit [Runtime] [Casing] in
theorem take_take_append {α : Type} (n : ℕ) (l m : List α) : (l.take n ++ m).take n = (l ++ m).take n := by
  rcases Nat.le_total l.length n with h | h
  · rw [List.take_of_length_le h]
  · have hlength : (l.take n).length = n := by rw [List.length_take, Nat.min_eq_left h]
    rw [List.take_append_of_le_length hlength.ge, List.take_append_of_le_length h, List.take_take, Nat.min_self]

/-- The outer loop goes on with the issues of all transactions. -/
theorem foldlM_addTransaction {transactions : List TransactionReview}
    (h : ∀ row ∈ transactions, ∃ r ∈ context.records, r.source.id = row.sourceId) {before : List Issue}
    (hbefore : before.length ≤ 100) : transactions.foldlM (addTransaction context) (entriesOf before) =
      .ok (entriesOf ((before ++ issuesIn context transactions).take 100)) := by
  induction transactions generalizing before with
  | nil => rw [List.foldlM_nil, issuesIn, List.flatMap_nil, List.append_nil, List.take_of_length_le hbefore]; rfl
  | cons row transactions ih =>
    obtain ⟨⟨r, hr, hid⟩, hrest⟩ := List.forall_mem_cons.mp h
    obtain ⟨source, hsource⟩ := Option.isSome_iff_exists.mp
      (List.find?_isSome.mpr ⟨r, hr, decide_eq_true hid⟩ :
        (context.records.find? fun r => r.source.id = row.sourceId).isSome = true)
    have hstep : addTransaction context (entriesOf before) row = .ok (entriesOf
        ((before ++ row.issueDetails.map fun issue => (row, subjectFor context row source, issue)).take 100)) := by
      rw [addTransaction, hsource]
      exact congrArg Except.ok (addIssues_entriesOf row _ _ hbefore)
    rw [List.foldlM_cons, hstep]
    refine (ih hrest (List.length_take_le _ _)).trans ?_
    rw [issuesIn, issuesIn, List.flatMap_cons, hsource, Option.map_some, Option.getD_some, ← List.append_assoc]
    rw [take_take_append]

/-- The issues are those of the transactions. -/
theorem issuesIn_map {transactions : List TransactionReview}
    (h : ∀ row ∈ transactions, ∃ r ∈ context.records, r.source.id = row.sourceId) :
    (issuesIn context transactions).map (fun x => (x.1, x.2.2)) = issuesOf transactions := by
  rw [issuesIn, issuesOf, List.map_flatMap]
  refine List.flatMap_congr fun row hrow => ?_
  obtain ⟨r, hr, hid⟩ := h row hrow
  obtain ⟨source, hsource⟩ := Option.isSome_iff_exists.mp
    (List.find?_isSome.mpr ⟨r, hr, decide_eq_true hid⟩ :
      (context.records.find? fun r => r.source.id = row.sourceId).isSome = true)
  rw [hsource, Option.map_some, Option.getD_some, List.map_map]
  rfl

/-- What is said of the transaction of an issue. -/
theorem subject_of_mem {transactions : List TransactionReview} {x : Issue} (hx : x ∈ issuesIn context transactions) :
    ∃ source, (context.records.find? fun r => r.source.id = x.1.sourceId) = some source ∧
      x.2.1 = subjectFor context x.1 source := by
  obtain ⟨row, -, hx⟩ := List.mem_flatMap.mp hx
  cases hsource : context.records.find? fun r => r.source.id = row.sourceId with
  | none =>
    rw [hsource] at hx
    cases hx
  | some source =>
    rw [hsource, Option.map_some, Option.getD_some] at hx
    obtain ⟨issue, -, rfl⟩ := List.mem_map.mp hx
    exact ⟨source, hsource, rfl⟩

/-- **The register matches the transactions**: it has an entry for each issue, up to a hundred. -/
theorem transactionExceptionRegister_matches {transactions : List TransactionReview}
    (h : ∀ row ∈ transactions, ∃ r ∈ context.records, r.source.id = row.sourceId) :
    ∃ register exceptions, transactionExceptionRegister context transactions = .ok (register, exceptions) ∧
      Matches context transactions register exceptions := by
  have hentries := foldlM_addTransaction context h (show ([] : List Issue).length ≤ 100 from Nat.zero_le 100)
  rw [List.nil_append] at hentries
  obtain ⟨issues, hissues⟩ : ∃ issues, (issuesIn context transactions).take 100 = issues := ⟨_, rfl⟩
  rw [hissues] at hentries
  have hall := issuesIn_map context h
  have hlength : issues.length = min 100 (issuesOf transactions).length := by
    rw [← hissues, List.length_take, ← hall, List.length_map]
  refine ⟨_, _, Theory.Prog.bind_eq_ok.mpr ⟨entriesOf issues, hentries, rfl⟩, ?_⟩
  refine ⟨(length_entriesOf issues).trans hlength, ?_, fun i row issue hi hissue => ?_, fun i e r he hr => ?_,
    fun hmany => ?_, rfl, fun row hrow => ?_⟩
  · exact (List.length_mapIdx).trans (length_entriesOf issues).symm
  · rw [← hall, List.getElem?_map, Option.map_eq_some_iff] at hissue
    obtain ⟨x, hx, hpair⟩ := hissue
    obtain ⟨source, hsource, hsubject⟩ := subject_of_mem context (List.mem_of_getElem? hx)
    cases hpair
    have hplace : issues[i]? = some x := by rw [← hissues, List.getElem?_take_of_lt hi, hx]
    refine ⟨source, hsource, ?_, ?_⟩
    · show (entriesOf issues).1[i]? = _
      rw [entriesOf, List.getElem?_mapIdx, hplace, Option.map_some, hsubject]
    · show (entriesOf issues).2[i]? = _
      rw [entriesOf, List.getElem?_mapIdx, hplace, Option.map_some, hsubject]
  · change (entriesOf issues).1[i]? = some e at he
    change (entriesOf issues).2[i]? = some r at hr
    rw [entriesOf, List.getElem?_mapIdx, Option.map_eq_some_iff] at he hr
    obtain ⟨x, hx, rfl⟩ := he
    obtain ⟨y, hy, rfl⟩ := hr
    cases hx.symm.trans hy
    refine ⟨⟨rfl, ?_⟩, rfl, rfl, rfl, rfl⟩
    rw [toList_pad, Theory.numeral, List.length_append, List.length_replicate]
    omega
  · have hfull : (entriesOf issues).1.length = 100 := by rw [length_entriesOf, hlength, Nat.min_eq_left hmany.le]
    simp only [if_pos hfull]
    exact ⟨_, List.mem_append_right _ List.mem_cons_self, rfl⟩
  · change row ∈ (entriesOf issues).2 at hrow
    rw [entriesOf, List.mem_mapIdx] at hrow
    obtain ⟨i, _, rfl⟩ := hrow
    rfl

end Register

/-- Upper and lower case of the letters of ASCII. -/
abbrev plainCasing : Casing where
  lower s := String.ofList (s.toList.map Char.toLower)
  upper s := String.ofList (s.toList.map Char.toUpper)

/-- A listing of payments. -/
def listing : AuditContext where
  target := none
  records := [{
    source := { id := "S1", kind := .Document, recordId := "d1", label := "payments.csv", href := none, excerpt := "",
                truncated := false },
    fields := [("id", .str "d1"), ("fileName", .str "payments.csv")] }]
  links := []
  warnings := []

/-- A payment that nobody has approved. -/
def payment (row : ℕ) : TransactionReview where
  sourceId := "S1"
  row := row
  location := "row " ++ toString row
  reference := "P-" ++ toString row
  supplier := "Supplier F"
  amount := "KES 650,000"
  approver := ""
  approvalDate := ""
  commitmentDate := "2026-08-10"
  controlReference := ""
  controlRequirement := ""
  evidenceObserved := ""
  severity := "High"
  issues := []
  issueDetails := [
    { code := .approver, message := "Approver is not identified in the supplied transaction row." },
    { code := .approvalDate, message := "Approval date is not provided." }]

/-- The register of eighty payments. -/
theorem payments_matches : ∃ register exceptions,
    @transactionExceptionRegister wholeNumbers plainCasing listing ((List.range 80).map payment) =
      .ok (register, exceptions) ∧
    @Matches wholeNumbers plainCasing listing ((List.range 80).map payment) register exceptions :=
  @transactionExceptionRegister_matches wholeNumbers plainCasing listing ((List.range 80).map payment) (by
    intro row hrow
    obtain ⟨i, -, rfl⟩ := List.mem_map.mp hrow
    exact ⟨_, List.mem_cons_self, rfl⟩)

end AuditSphere.Intelligence
