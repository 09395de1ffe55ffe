import AuditSphere.Auth.ObjectAccess
import AuditSphere.Theory.Follow

/-!
# Storage of documents

`StorageService` with its two drivers, and `MalwareScannerService`. The bytes of a document
are an object, under the storage key of the document. With the local driver clients send and
fetch them through the API; with S3 they put and get them at the object store, at a URL that
is signed for five minutes.

What lies outside is a parameter, `Platform`: SHA-256, the scanner, and which bytes the
object store takes at a URL that it has not refused as expired.
-/

namespace AuditSphere.Documents

open Prisma Theory Shared

/-- The contents of a file. -/
abbrev Bytes := List UInt8

/-- The drivers. -/
inductive StorageDriver where
  /-- `LocalStorageDriver`. -/
  | localFiles
  /-- `S3StorageDriver`. -/
  | s3
  deriving DecidableEq

/-- `PRESIGN_TTL_SECONDS`. -/
def presignTtlSeconds : ℕ := 300

/-- `PresignedUpload`: what the URL is signed for, and how long. -/
structure PresignedUpload where
  key : StorageKey
  documentId : Uuid
  mimeType : String
  sizeBytes : ℕ
  expiresAt : Date
  deriving DecidableEq

/-- `PresignedDownload`. -/
structure PresignedDownload where
  key : StorageKey
  documentId : Uuid
  fileName : String
  mimeType : String
  expiresAt : Date
  deriving DecidableEq

/-- `ObjectStat`. -/
structure ObjectStat where
  sizeBytes : ℕ
  checksumSha256 : Option String
  deriving DecidableEq

/-- What the scanner says of bytes; it may also not answer, or not so that it is understood. -/
inductive Verdict where
  | clean (detail : Option String)
  | infected (detail : Option String)
  | unavailable (message : String)

/-- The status of a scan. -/
inductive ScanStatus where
  | clean | infected | skipped
  deriving DecidableEq

/-- `ScanResult`. -/
structure ScanResult where
  status : ScanStatus
  detail : Option String

/-- The configuration, and what lies outside the API. -/
structure Platform where
  /-- The driver that is configured. -/
  driver : StorageDriver
  /-- SHA-256, in hexadecimal digits. -/
  sha256 : Bytes → String
  /-- `malwareScan.required`. -/
  scanRequired : Bool
  /-- The scanner, whose signatures change with time. -/
  scanner : Date → Bytes → Verdict
  /-- Whether the object store takes the bytes at the URL; it may hold the client to the size. -/
  takes : PresignedUpload → Bytes → Bool

/-- The database, the objects, and what clients and the scanner know. -/
structure Store where
  db : Db
  /-- The time. -/
  clock : Date
  /-- The objects. -/
  objects : Table StorageKey Bytes
  /-- The upload URLs that clients have been given. -/
  uploadUrls : List PresignedUpload
  /-- What the scanner has judged clean, with the document for which it was asked. -/
  judgedClean : List (Uuid × Bytes)

/-- How a request fails. -/
inductive DocumentError where
  | http (e : HttpError)
  | serviceUnavailable (message : String)
  deriving DecidableEq

/-- A method. -/
abbrev Method (α : Type) := Prog Store DocumentError α

/-- A program on the database. -/
def onDb {α : Type} (p : Service α) : Method α := p.embed Store.db (fun s db => { s with db }) DocumentError.http

namespace Storage

variable (env : Platform)

/-- `assertValidKey`, before anything is done with a key. -/
def keyed {α : Type} (key : StorageKey) (p : Method α) : Method α :=
  match key with
  | .uuid _ _ => p
  | .other text => throw (.http (.internal s!"Invalid storage key: {text}"))

/-- `presignUpload`. -/
def presignUpload (key : StorageKey) (documentId : Uuid) (mimeType : String) (sizeBytes : ℕ) :
    Method PresignedUpload :=
  keyed key do
    let now ← .read Store.clock
    pure { key, documentId, mimeType, sizeBytes, expiresAt := now + presignTtlSeconds * 1000 }

/-- `presignDownload`. -/
def presignDownload (key : StorageKey) (documentId : Uuid) (fileName mimeType : String) : Method PresignedDownload :=
  keyed key do
    let now ← .read Store.clock
    pure { key, documentId, fileName, mimeType, expiresAt := now + presignTtlSeconds * 1000 }

/-- `putObject`. -/
def putObject (key : StorageKey) (body : Bytes) : Method Unit :=
  keyed key (.write fun s => { s with objects := s.objects.put key body })

/-- `getObject`. -/
def getObject (key : StorageKey) : Method Bytes :=
  keyed key (.call fun s => match s.objects.find key with
    | some body => .ok (body, s)
    | none => .error (.http (.internal "NoSuchKey")))

/-- `deleteObject`. -/
def deleteObject (key : StorageKey) : Method Unit :=
  keyed key (.write fun s => { s with objects := s.objects.remove fun k _ => k = key })

/-- `LocalStorageDriver.stat`: the size first, and then the checksum, for which it reads the file. -/
def localStat (key : StorageKey) : Method (Option ObjectStat) := do
  let size ← .read fun s => (s.objects.find key).map List.length
  match size with
  | none => pure none
  | some sizeBytes => do
    let checksum ← .read fun s => (s.objects.find key).map env.sha256
    pure (checksum.map fun c => ⟨sizeBytes, some c⟩)

/-- `S3StorageDriver.stat`, which reports no checksum. -/
def s3Stat (key : StorageKey) : Method (Option ObjectStat) :=
  .read fun s => (s.objects.find key).map fun body => ⟨body.length, none⟩

/-- `stat`. -/
def stat (key : StorageKey) : Method (Option ObjectStat) :=
  keyed key (match env.driver with
    | .localFiles => localStat env key
    | .s3 => s3Stat key)

/-- `MalwareScannerService.scan`, asked for a document. -/
def scan (id : Uuid) (body : Bytes) : Method ScanResult :=
  if !env.scanRequired then pure ⟨.skipped, none⟩
  else .call fun s => match env.scanner s.clock body with
    | .clean detail => .ok (⟨.clean, detail⟩, { s with judgedClean := (id, body) :: s.judgedClean })
    | .infected detail => .ok (⟨.infected, detail⟩, s)
    | .unavailable message => .error (.serviceUnavailable message)

end Storage

end AuditSphere.Documents
