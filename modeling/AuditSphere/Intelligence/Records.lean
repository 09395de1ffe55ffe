import AuditSphere.Common.Maps
import AuditSphere.Shared.Permissions

/-!
# Audit records

`audit-context.types.ts` and the links of `audit-universe-index.service.ts`: what the
audit intelligence reads is kept as records, each with its source and the properties of
its row, and `linkAuditRecords` links them by the ids that the properties hold.
-/

namespace AuditSphere.Intelligence

open Shared (PermissionKey)

/-- What a source is. -/
inductive AuditSourceKind where
  | Entity | Process | Risk | Control | Procedure | Engagement | Workpaper | Evidence | Finding
  | ActionPlan | ReviewNote | ControlTest | Document | Comment | RiskSignal | Metrics | ScoringModel | UserContext
  deriving DecidableEq

/-- The text of a kind. -/
def AuditSourceKind.name : AuditSourceKind → String
  | .Entity => "Entity"
  | .Process => "Process"
  | .Risk => "Risk"
  | .Control => "Control"
  | .Procedure => "Procedure"
  | .Engagement => "Engagement"
  | .Workpaper => "Workpaper"
  | .Evidence => "Evidence"
  | .Finding => "Finding"
  | .ActionPlan => "ActionPlan"
  | .ReviewNote => "ReviewNote"
  | .ControlTest => "ControlTest"
  | .Document => "Document"
  | .Comment => "Comment"
  | .RiskSignal => "RiskSignal"
  | .Metrics => "Metrics"
  | .ScoringModel => "ScoringModel"
  | .UserContext => "UserContext"

/-- `AUDIT_READ_PERMISSION`. -/
def AUDIT_READ_PERMISSION : AuditSourceKind → PermissionKey
  | .ActionPlan => .findingRead
  | .ReviewNote => .workpaperRead
  | .Entity => .universeRead
  | .Process => .universeRead
  | .Risk => .riskRead
  | .Control => .controlRead
  | .Procedure => .workpaperRead
  | .Engagement => .engagementRead
  | .Workpaper => .workpaperRead
  | .Evidence => .documentRead
  | .Finding => .findingRead
  | .Document => .documentRead
  | .ControlTest => .controlRead
  | .Comment => .aiUse
  | .RiskSignal => .monitoringRead
  | .Metrics => .findingRead
  | .ScoringModel => .riskRead
  | .UserContext => .aiUse

/-- The properties of a row. -/
abbrev Fields := List (String × Json)

/-- Where a record comes from. -/
structure AuditSource where
  id : String
  kind : AuditSourceKind
  recordId : String
  label : String
  href : Option String
  excerpt : String
  truncated : Bool

/-- A record of the index. -/
structure AuditRecord where
  source : AuditSource
  fields : Fields

/-- A link between two sources. -/
structure Link where
  /-- `from`. -/
  source : String
  /-- `to`. -/
  target : String
  relationship : String
  deriving DecidableEq

/-- `AuditContext`: what a review is about. What a search has found is kept beside it. -/
structure AuditContext where
  target : Option String
  records : List AuditRecord
  links : List Link
  warnings : List String

/-- `recordsOf`. -/
def recordsOf (records : List AuditRecord) (kind : AuditSourceKind) : List AuditRecord :=
  records.filter fun r => r.source.kind = kind

variable [Runtime]

/-- `field`, of the properties of a record. -/
def textField (fields : Fields) (key : String) : String :=
  trimText (((Json.nullish (mapGet key fields)).map Json.text).getD "")

/-- `field`. -/
def field (r : AuditRecord) (key : String) : String := textField r.fields key

/-- `href`. -/
def href (kind : AuditSourceKind) (r : Fields) : Option String :=
  let value := fun key => Json.textOf (mapGet key r)
  match kind with
  | .Entity => some ("/universe?entity=" ++ value "id")
  | .Process => some ("/universe?entity=" ++ value "entityId")
  | .Risk => some ("/risks?risk=" ++ value "id")
  | .Control => some ("/controls?control=" ++ value "id")
  | .ControlTest => some ("/controls?control=" ++ value "controlId")
  | .Engagement => some ("/engagements/" ++ value "id")
  | .Workpaper => some ("/workpapers/" ++ value "id")
  | .Finding => some ("/findings/" ++ value "id")
  | .ActionPlan => some ("/findings/" ++ value "findingId" ++ "?tab=recommendations")
  | .ReviewNote => some ("/workpapers/" ++ value "workpaperId")
  | .Evidence => some ("/engagements/" ++ value "engagementId" ++ "?tab=evidence")
  | .Procedure => some ("/engagements/" ++ value "engagementId" ++ "?tab=programme")
  | .RiskSignal => some "/monitoring"
  | .Document | .Comment | .Metrics | .ScoringModel | .UserContext => none

/-! ### Links -/

/-- `PARENTS`: the properties that hold the id of a record above, their relationship and its kind. -/
def PARENTS : List (String × String × AuditSourceKind) :=
  [("parentId", "parent", .Entity),
   ("entityId", "entity", .Entity),
   ("processId", "process", .Process),
   ("riskId", "risk", .Risk),
   ("controlId", "control", .Control),
   ("engagementId", "engagement", .Engagement),
   ("programStepId", "programStep", .Procedure),
   ("workpaperId", "workpaper", .Workpaper),
   ("documentId", "document", .Document),
   ("findingId", "finding", .Finding),
   ("repeatOfId", "repeatOf", .Finding)]

/-- The key of a record: its kind and the id of its row. -/
def keyOf (kind recordId : String) : String := s!"{kind}:{recordId}"

/-- The key of a record. -/
def AuditRecord.key (r : AuditRecord) : String := keyOf r.source.kind.name r.source.recordId

/-- The record that a record refers to by two of its properties. -/
def refersTo (r : AuditRecord) (type id : String) : String := keyOf (field r type) (field r id)

/-- The links from the records above a record, by the properties that it has. -/
def parentLinks (r : AuditRecord) : Except TypeError (List (String × String)) := do
  let risks ← if r.source.kind = .Control then Json.members "riskId" (mapGet "risks" r.fields) else pure []
  let findings ← if r.source.kind = .Evidence then Json.members "id" (mapGet "findings" r.fields) else pure []
  return PARENTS.map (fun p => (keyOf p.2.2.name (field r p.1), p.2.1)) ++
    risks.map (fun id => (keyOf "Risk" (Json.textOf id), "mitigated by")) ++
    findings.map (fun id => (keyOf "Finding" (Json.textOf id), "supported by")) ++
    (if r.source.kind = .Comment then [(refersTo r "targetType" "targetId", "comment")] else []) ++
    (if r.source.kind = .Document then [(refersTo r "ownerType" "ownerId", "attachment")] else [])

/-- `link`: a link from the record under a key, unless it is the record itself. Records are told apart by
where they stand. -/
def link (byKey : List (String × AuditRecord × ℕ)) (b : AuditRecord × ℕ) (links : List (String × Link))
    (parent : String × String) : List (String × Link) :=
  match mapGet parent.1 byKey with
  | none => links
  | some a =>
    if a.2 = b.2 then links
    else mapSet s!"{a.1.source.id}:{b.1.source.id}:{parent.2}"
      { source := a.1.source.id, target := b.1.source.id, relationship := parent.2 } links

/-- `linkAuditRecords`. -/
def linkAuditRecords (records : List AuditRecord) : Except TypeError (List Link) := do
  let numbered := records.zipIdx
  let byKey := mapOf (numbered.map fun r => (r.1.key, r))
  let links ← numbered.foldlM (fun links b => do
    let parents ← parentLinks b.1
    pure (parents.foldl (link byKey b) links)) []
  return links.map Prod.snd

end AuditSphere.Intelligence
