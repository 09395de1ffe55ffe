import AuditSphere.Intelligence.Records

/-!
# The index of the audit universe

`AuditUniverseIndexService.build`. It reads the rows of one kind after the other, page by
page, and makes a record of each; a kind that it cannot read to its end is incomplete. What
it calls may answer in any way: the reader has an answer for every call, and the user
directory one for every list of ids.

The pages of a kind are read in an endless loop. `readPages` has a number of rounds for it,
and no result when they are not enough.
-/

namespace AuditSphere.Intelligence

open Shared (PermissionKey)

/-- `INDEX_KINDS`. -/
def INDEX_KINDS : List AuditSourceKind :=
  [.Entity, .Process, .Engagement, .Risk, .Control, .Procedure, .Workpaper, .Finding, .ActionPlan, .Evidence,
   .ControlTest, .ReviewNote, .Document, .Comment]

/-- The index. -/
structure AuditUniverseIndex where
  records : List AuditRecord
  links : List Link
  warnings : List String
  indexedAt : String
  restrictedKinds : List AuditSourceKind
  incompleteKinds : List AuditSourceKind
  textLimitedRecords : ℕ

/-- How `build` fails. -/
inductive IndexError where
  | serviceUnavailable (message : String)
  | typeError
  deriving DecidableEq

/-- A row that the reader returns. -/
structure Row where
  /-- `String(row.id)`. -/
  id : String
  /-- The copy of the row through `JSON`, which may throw. -/
  copy : Option Fields

/-- `reader.fetch(kind, { index: true, afterId, take: 250 }, user)`: the answer to each call, by the number of
calls before it. -/
abbrev Reader := ℕ → AuditSourceKind → Option String → Except Unit (List Row)

/-- The users whose ids are in a list, with their names. -/
abbrev Directory := List (Option Json) → Except Unit (List (String × String))

/-- The variables of `build`. -/
structure Build where
  records : List AuditRecord
  restrictedKinds : List AuditSourceKind
  incompleteKinds : List AuditSourceKind
  textLimitedRecords : ℕ
  characters : ℕ
  successfulReads : ℕ
  /-- The calls of the reader so far. -/
  calls : ℕ

/-- Before anything is read. -/
def Build.empty : Build :=
  { records := [],
    restrictedKinds := [],
    incompleteKinds := [],
    textLimitedRecords := 0,
    characters := 0,
    successfulReads := 0,
    calls := 0 }

/-- `catch`: the kind is incomplete. -/
def Build.failed (b : Build) (kind : AuditSourceKind) : Build :=
  if kind ∈ b.incompleteKinds then b else { b with incompleteKinds := b.incompleteKinds ++ [kind] }

/-- No more records fit. -/
def Build.isFull (b : Build) (count : ℕ) : Prop :=
  5000 ≤ count ∨ 20000 ≤ b.records.length ∨ 25000000 ≤ b.characters

instance (b : Build) (count : ℕ) : Decidable (b.isFull count) :=
  inferInstanceAs (Decidable (_ ∨ _ ∨ _))

section Records

variable [Runtime]

/-- Long texts are cut. -/
def clip (fields : Fields) : Fields :=
  fields.map fun f =>
    match f.2 with
    | .str s => if 60000 < unitLength s.toList then (f.1, .str (sliceText 60000 s)) else f
    | _ => f

/-- A property is a text that is cut. -/
def isLong (f : String × Json) : Bool :=
  match f.2 with
  | .str s => 60000 < unitLength s.toList
  | _ => false

/-- `Array.isArray(fields.tags) && fields.tags.includes('ai-context:truncated')`. -/
def isTagged (fields : Fields) : Bool :=
  match mapGet "tags" fields with
  | some (.arr items) => items.any fun j => Json.same (some j) (some (.str "ai-context:truncated"))
  | _ => false

/-- Not all of the text is there. -/
def isLimited (kind : AuditSourceKind) (fields : Fields) : Bool :=
  isTagged fields || fields.any isLong || (kind = .Document && textField (clip fields) "extractedText" = "")

/-- `a ?? b ?? …`, of properties. -/
def firstOf (fields : Fields) (keys : List String) : Option Json :=
  keys.findSome? fun key => Json.nullish (mapGet key fields)

/-- The label of a record. -/
def label (kind : AuditSourceKind) (fields : Fields) : String :=
  let number := (firstOf fields ["auditNumber", "reference", "code"]).getD
    (.str (if kind = .ActionPlan then "Action " ++ Json.textOf (mapGet "sequence" fields) else ""))
  let title := (firstOf fields ["title", "name", "fileName", "description", "objective", "text"]).getD
    (.str kind.name)
  sliceText 300 (String.intercalate " - " (([number, title].filter fun j => Json.truthy (some j)).map Json.text))

/-- `String(fields.id)`. -/
def recordIdOf (fields : Fields) : String := Json.textOf (mapGet "id" fields)

/-- The record of a row, which is the `n`th of the index. -/
def recordOf (kind : AuditSourceKind) (n : ℕ) (copy : Fields) : AuditRecord :=
  let fields := clip copy
  let text := Json.stringify (.obj fields)
  { fields,
    source :=
      { id := s!"S{n}",
        kind,
        recordId := recordIdOf fields,
        label := label kind fields,
        href := href kind fields,
        excerpt := sliceText 3000 text,
        truncated := isLimited kind copy || 3000 < unitLength text.toList } }

/-- A row is put into the index. -/
def Build.push (b : Build) (kind : AuditSourceKind) (copy : Fields) : Build :=
  { b with
    records := b.records ++ [recordOf kind (b.records.length + 1) copy],
    textLimitedRecords := b.textLimitedRecords + if isLimited kind copy then 1 else 0,
    characters := b.characters + unitLength (Json.stringify (.obj (clip copy))).toList }

/-! ### Reading -/

/-- How the loop over the rows of a page ends. -/
inductive Page where
  | read | full | failed
  deriving DecidableEq

/-- The rows of a page, with the number of rows of the kind. -/
def readRows (kind : AuditSourceKind) : List Row → Build → ℕ → Build × ℕ × Page
  | [], b, count => (b, count, .read)
  | raw :: rows, b, count =>
    if b.isFull count then ({ b with incompleteKinds := b.incompleteKinds ++ [kind] }, count, .full)
    else
      match raw.copy with
      | none => (b, count, .failed)
      | some copy => readRows kind rows (b.push kind copy) (count + 1)

/-- The pages of a kind after a cursor. -/
def readPages (reader : Reader) (kind : AuditSourceKind) : ℕ → Option String → ℕ → Build → Option Build
  | 0, _, _, _ => none
  | fuel + 1, afterId, count, b =>
    match reader b.calls kind afterId with
    | .error _ => some ({ b with calls := b.calls + 1 }.failed kind)
    | .ok rows =>
      match readRows kind rows { b with calls := b.calls + 1, successfulReads := b.successfulReads + 1 } count with
      | (b, _, .failed) => some (b.failed kind)
      | (b, count, _) =>
        if kind ∈ b.incompleteKinds then some b
        else
          match rows.getLast? with
          | none => some b
          | some last =>
            if rows.length < 250 then some b
            -- the cursor did not advance
            else if some last.id = afterId then some (b.failed kind)
            else readPages reader kind fuel (some last.id) count b

/-- A kind is read, if the user may read it. -/
def readKind (permissions : List PermissionKey) (reader : Reader) (fuel : ℕ) (b : Build) (kind : AuditSourceKind) :
    Option Build :=
  if AUDIT_READ_PERMISSION kind ∈ permissions then readPages reader kind fuel none 0 b
  else some { b with restrictedKinds := b.restrictedKinds ++ [kind] }

/-! ### Owners -/

/-- The properties that hold the id of a user. -/
def ownerKeys : List String :=
  ["ownerId", "actionOwnerId", "leadId", "managerId", "partnerId", "preparedById", "reviewedById"]

/-- `ownerIds`. -/
def ownerIds (records : List AuditRecord) : Except TypeError (List (Option Json)) :=
  records.foldlM (fun ids r => do
    let members ← Json.members "userId" (mapGet "members" r.fields)
    let owners := (ownerKeys.map (field r)).filter (· ≠ "")
    pure ((owners.map (fun id => some (Json.str id)) ++ members).foldl Json.addTo ids)) []

/-- The names of users, looked up by 250. -/
def namesOf (directory : Directory) (ids : List (Option Json)) : Except Unit (List (String × String)) := do
  let users ← (ids.toChunks 250).mapM directory
  return mapOf users.flatten

/-- The owner of a record, by name. -/
def ownerName (names : List (String × String)) (fields : Fields) : String :=
  let owner := if textField fields "ownerId" ≠ "" then textField fields "ownerId" else textField fields "actionOwnerId"
  (mapGet owner names).getD
    (if owner ≠ "" then "Assigned user unavailable"
     else if textField fields "ownerName" ≠ "" then textField fields "ownerName"
     else textField fields "actionOwnerName")

/-- The team of an engagement, by name. -/
def team (names : List (String × String)) (fields : Fields) : List Json :=
  let members := ((Json.members "userId" (mapGet "members" fields)).toOption).getD []
  let leaders := ["leadId", "managerId", "partnerId"].map fun key => some (Json.str (textField fields key))
  (((leaders ++ members).filter Json.truthy).foldl Json.addTo []).map fun id =>
    match id with
    | some (.str id) => .str ((mapGet id names).getD "User unavailable")
    | _ => .str "User unavailable"

/-- The properties of a record with the name of its owner. -/
def owned (names : List (String × String)) (fields : Fields) : Fields :=
  mapSet "ownerName" (.str (ownerName names fields)) fields

/-- A record with the names of its owner and its team. -/
def named (names : List (String × String)) (r : AuditRecord) : AuditRecord :=
  let fields := owned names r.fields
  let fields := if r.source.kind = .Engagement then mapSet "team" (.arr (team names fields)) fields else fields
  { fields, source := { r.source with excerpt := sliceText 3000 (Json.stringify (.obj fields)) } }

/-- The members of an engagement are not an array, so that they have no `map`. -/
def isUnmapped (r : AuditRecord) : Bool :=
  r.source.kind = .Engagement &&
    match Json.nullish (mapGet "members" r.fields) with
    | none | some (.arr _) => false
    | _ => true

/-- The records are named one after the other, up to one whose members cannot be; whether all are. -/
def nameAll (names : List (String × String)) : List AuditRecord → List AuditRecord × Bool
  | [] => ([], true)
  | r :: records =>
    if isUnmapped r then ({ r with fields := owned names r.fields } :: records, false)
    else
      let rest := nameAll names records
      (named names r :: rest.1, rest.2)

/-! ### The index -/

/-- The record that a comment is about is indexed; other records are kept. -/
def isKept (records : List AuditRecord) (r : AuditRecord) : Bool :=
  r.source.kind ≠ .Comment || refersTo r "targetType" "targetId" ∈ records.map AuditRecord.key

/-- What `build` makes of the records that it has read. -/
def finish (directory : Directory) (now : String) (b : Build) : Except IndexError AuditUniverseIndex :=
  if b.successfulReads = 0 ∧ b.incompleteKinds ≠ [] then
    .error (.serviceUnavailable ("Audit search failed while reading the index. Retry or contact an administrator; " ++
      "this is not a no-match result."))
  else
    let records := b.records.filter (isKept b.records)
    match ownerIds records with
    | .error _ => .error .typeError
    | .ok ids =>
      let (records, isNamed) :=
        match namesOf directory ids with
        | .ok names => nameAll names records
        | .error _ => (records, false)
      match linkAuditRecords records with
      | .error _ => .error .typeError
      | .ok links =>
        let kindNames := fun kinds : List AuditSourceKind => String.intercalate ", " (kinds.map (·.name))
        .ok
          { records,
            links,
            warnings :=
              (if isNamed then [] else
                ["User directory lookup failed; some owner and team names are unavailable."]) ++
              (if b.incompleteKinds ≠ [] then
                [s!"Indexing incomplete: {kindNames b.incompleteKinds}. " ++
                  "Limits: 5,000 records per kind, 20,000 total, 25 million indexed characters. " ++
                  "Coverage percentage is unknown, not assumed."] else []) ++
              (if b.restrictedKinds ≠ [] then
                [s!"Read permissions exclude: {kindNames b.restrictedKinds}. " ++
                  "Coverage excludes records you cannot access."] else []) ++
              (if b.textLimitedRecords ≠ 0 then
                [s!"{b.textLimitedRecords} records have missing or limited searchable document text. " ++
                  "No OCR was performed."] else []),
            indexedAt := now,
            restrictedKinds := b.restrictedKinds,
            incompleteKinds := b.incompleteKinds,
            textLimitedRecords := b.textLimitedRecords }

/-- `build`, with a number of rounds for the pages of each kind. -/
def build (permissions : List PermissionKey) (reader : Reader) (directory : Directory) (now : String) (fuel : ℕ) :
    Option (Except IndexError AuditUniverseIndex) :=
  (INDEX_KINDS.foldlM (readKind permissions reader fuel) Build.empty).map (finish directory now)

end Records

end AuditSphere.Intelligence
