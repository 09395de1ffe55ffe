import AuditSphere.Db.Journal
import AuditSphere.Documents.Uploads
import AuditSphere.Theory.Yields
import AuditSphere.Workpapers.History

/-!
# Scanned contents

A document is released from its quarantine by `complete`, which looks the object up, fetches it and has it
scanned. These are separate calls to the object store, the scanner and the database, and the contents under
a key may be replaced between them, or later. What is released has been scanned all the same: the scanner has
found clean some contents that were under the key of the document (`released_scanned`). So nothing is served
but what has been scanned, unless the contents under a key are replaced by others (`served_scanned`).
-/

namespace AuditSphere.Documents.Serving

open Prisma Theory Shared

/-! ### Requests -/

/-- What a document says of its contents. -/
def Document.contents (d : Document) : StorageKey × Bool × Option String :=
  (d.storageKey, d.isQuarantined, d.checksumSha256)

/-- What else happens: clients put objects at the object store, time passes, and other services work on the
database. A document that appears is in quarantine, and what others say of its contents stays. -/
structure Elsewhere where
  change : Store → Store
  leaves : ∀ s id d, s.db.documents.find id = some d →
    ∃ d', (change s).db.documents.find id = some d' ∧ Document.contents d' = Document.contents d
  fresh : ∀ s id d', (change s).db.documents.find id = some d' → s.db.documents.find id = none →
    d'.isQuarantined = true

/-- A client puts an object at the object store. -/
def Elsewhere.send (key : StorageKey) (body : Bytes) : Elsewhere where
  change s := { s with objects := s.objects.put key body }
  leaves _ _ d h := ⟨d, h, rfl⟩
  fresh _ _ _ h hnone := by
    rw [show _ = none from hnone] at h
    cases h

/-- A request to the documents service, or what else happens. -/
inductive Request where
  | presignUpload (ctx : Ctx) (dto : PresignUploadDto)
  | upload (ctx : Ctx) (file : UploadedFile) (input : UploadDocumentDto)
  | complete (ctx : Ctx) (id : Uuid) (given : Option String)
  | putContent (ctx : Ctx) (id : Uuid) (body : Bytes)
  | getContent (ctx : Ctx) (id : Uuid)
  | download (ctx : Ctx) (id : Uuid)
  | remove (ctx : Ctx) (id : Uuid)
  | elsewhere (e : Elsewhere)

/-- What a request is answered. -/
inductive Answer where
  | url (p : PresignedUpload)
  | completion (c : Completion)
  | content (d : Document) (stream : Bytes)
  | link (p : PresignedDownload)
  | done

variable (env : Platform)

/-- The program of a request. -/
def perform : Request → Method Answer
  | .presignUpload ctx dto => .url <$> presignUpload ctx dto
  | .upload ctx file input => .completion <$> upload env ctx file input
  | .complete ctx id given => .completion <$> complete env ctx id given
  | .putContent ctx id body => .completion <$> putContent env ctx id body
  | .getContent ctx id => (fun r => .content r.1 r.2) <$> getContent env ctx id
  | .download ctx id => .link <$> download ctx id
  | .remove ctx id => (fun _ => .done) <$> remove ctx id
  | .elsewhere e => (fun _ => .done) <$> (.write e.change : Method Unit)

/-! ### What a call may do -/

/-- The key of a document stays. -/
def KeepsKeys (s s' : Store) : Prop :=
  ∀ id d, s.db.documents.find id = some d → ∃ d', s'.db.documents.find id = some d' ∧ d'.storageKey = d.storageKey

theorem KeepsKeys.refl (s : Store) : KeepsKeys s s := fun _ d h => ⟨d, h, rfl⟩

theorem KeepsKeys.trans {a b c : Store} (h : KeepsKeys a b) (h' : KeepsKeys b c) : KeepsKeys a c := by
  intro id d hd
  obtain ⟨d₁, h₁, hkey₁⟩ := h id d hd
  obtain ⟨d₂, h₂, hkey₂⟩ := h' id d₁ h₁
  exact ⟨d₂, h₂, hkey₂.trans hkey₁⟩

/-- In some states, contents were under a key that the scanner has found clean if it is asked at all; and with the
local driver the checksum is that of contents under the key. -/
structure ScannedIn (l : List Store) (key : StorageKey) (checksum : Option String) : Prop where
  clean : env.scanRequired = true → ∃ x ∈ l, ∃ body, x.objects.find key = some body ∧
    ∃ y ∈ l, ∃ detail, env.scanner y.clock body = .clean detail
  checksum : env.driver = .localFiles → ∃ x ∈ l, ∃ body, x.objects.find key = some body ∧
    checksum = some (env.sha256 body)

variable {env}

theorem ScannedIn.mono {l l' : List Store} {key : StorageKey} {checksum : Option String}
    (h : ScannedIn env l key checksum) (hl : l ⊆ l') : ScannedIn env l' key checksum := by
  refine ⟨fun hrequired => ?_, fun hlocal => ?_⟩
  · obtain ⟨x, hx, body, hbody, y, hy, hclean⟩ := h.clean hrequired
    exact ⟨x, hl hx, body, hbody, y, hl hy, hclean⟩
  · obtain ⟨x, hx, hrest⟩ := h.checksum hlocal
    exact ⟨x, hl hx, hrest⟩

variable (env)

/-- What a call of a request may do that has seen some states: keys stay, and a document is released if it was
before, with the same checksum, or if its contents have been scanned. -/
structure Allowed (l : List Store) (s s' : Store) : Prop where
  keys : KeepsKeys s s'
  released : ∀ id d', s'.db.documents.find id = some d' → d'.isQuarantined = false →
    (∃ d, s.db.documents.find id = some d ∧ Document.contents d' = Document.contents d) ∨
      ∃ x ∈ l, ∃ doc, x.db.documents.find id = some doc ∧ ScannedIn env l doc.storageKey d'.checksumSha256

/-- The program keeps to that, and ends as `Q` says if it does not fail. -/
abbrev Yields {α : Type} (p : Method α) (Q : α → List Store → Prop) (l : List Store) : Prop :=
  Prog.Yields (Allowed env) p Q l

section Yields

variable {env} {α β : Type} {p : Method α} {f : α → Method β} {Q : α → List Store → Prop} {Q' : β → List Store → Prop}
  {l : List Store}

/-- What is said of the contents of each document stays. -/
theorem allowed_of_contents {s s' : Store}
    (hleaves : ∀ id d, s.db.documents.find id = some d →
      ∃ d', s'.db.documents.find id = some d' ∧ Document.contents d' = Document.contents d)
    (hfresh : ∀ id d', s'.db.documents.find id = some d' → s.db.documents.find id = none → d'.isQuarantined = true) :
    Allowed env l s s' := by
  refine ⟨fun id d hd => ?_, fun id d' hd' hreleased => ?_⟩
  · obtain ⟨d', hd', hcontents⟩ := hleaves id d hd
    exact ⟨d', hd', congrArg Prod.fst hcontents⟩
  · rcases hd : s.db.documents.find id with _ | d
    · rw [hfresh id d' hd' hd] at hreleased
      cases hreleased
    · obtain ⟨d'', hd'', hcontents⟩ := hleaves id d hd
      obtain rfl := Option.some.inj (hd'.symm.trans hd'')
      exact .inl ⟨d, rfl, hcontents⟩

theorem allowed_of_documents {s s' : Store} (h : s'.db.documents = s.db.documents) : Allowed env l s s' := by
  refine allowed_of_contents (fun id d hd => ⟨d, h ▸ hd, rfl⟩) fun id d' hd' hnone => ?_
  rw [h, hnone] at hd'
  cases hd'

/-- A call that leaves the documents. -/
theorem yields_call {g : Store → Except DocumentError (α × Store)}
    (h : ∀ s a s', g s = .ok (a, s') → s'.db.documents = s.db.documents ∧ Q a (s :: l)) :
    Yields env (.call g) Q l := by
  refine Prog.yields_call (fun _ => allowed_of_documents rfl) fun s a s' hg => ?_
  obtain ⟨hdocuments, hQ⟩ := h s a s' hg
  exact ⟨allowed_of_documents hdocuments, hQ⟩

theorem yields_read {g : Store → α} (h : ∀ s, Q (g s) (s :: l)) : Yields env (.read g) Q l :=
  yields_call fun s _ _ heq => by
    cases heq
    exact ⟨rfl, h s⟩

/-- A program on the database that leaves the documents. -/
theorem yields_onDb {p : Service α} (hp : p.Calls fun db db' => db'.documents = db.documents) :
    Yields env (onDb p) (fun _ _ => True) l := by
  unfold onDb
  induction p generalizing l with
  | ret a => exact fun _ _ => trivial
  | fail e => exact nofun
  | act u k ih => exact fun s => ⟨allowed_of_documents (hp s.db).1, ih s.db (hp s.db).2⟩

theorem yields_looks {p : Service α} (hp : Looks p) : Yields env (onDb p) (fun _ _ => True) l :=
  yields_onDb (hp.mono fun _ _ heq => heq ▸ rfl)

/-- A call to the database. -/
theorem yields_onDb_call {g : Db → Except HttpError (α × Db)}
    (h : ∀ (s : Store) a db', g s.db = .ok (a, db') → Allowed env l s { s with db := db' } ∧ Q a (s :: l)) :
    Yields env (onDb (.call g)) Q l := by
  intro s
  dsimp only
  rcases hg : g s.db with e | ⟨a, db'⟩
  · exact ⟨allowed_of_documents rfl, nofun⟩
  · refine ⟨(h s a db' hg).1, ?_⟩
    rintro _ ⟨⟩
    exact (h s a db' hg).2

theorem yields_onDb_read {g : Db → α} (h : ∀ s : Store, Q (g s.db) (s :: l)) : Yields env (onDb (.read g)) Q l := by
  refine fun s => ⟨allowed_of_documents rfl, ?_⟩
  rintro _ ⟨⟩
  exact h s

theorem yields_auditRecord (ctx : Ctx) (action targetType : String) (id : Uuid) :
    Yields env (onDb (auditRecord ctx action targetType id)) (fun _ _ => True) l :=
  yields_onDb fun _ => ⟨rfl, trivial⟩

theorem onDb_bind (p : Service α) (f : α → Service β) : onDb (p >>= f) = onDb p >>= fun a => onDb (f a) := by
  unfold onDb
  induction p with
  | ret a => rfl
  | fail e => rfl
  | act u k ih => exact congrArg (Prog.act _) (funext fun s => ih s.db)

theorem yields_keyed {key : StorageKey} (hp : Yields env p Q l) : Yields env (Storage.keyed key p) Q l := by
  cases key with
  | uuid t o => exact hp
  | other text => exact Prog.yields_throw _

end Yields

/-! ### What the calls of a request do -/

section Calls

variable {env} {l : List Store}

theorem looks_check (r : Except HttpError Unit) : Looks (check r) := by
  cases r with
  | error e => exact Prog.calls_throw e
  | ok u => exact Prog.calls_pure ()

theorem looks_accessDocument (ctx : Ctx) (id : Uuid) : Looks (ObjectAccess.assertDocument ctx id) :=
  (looks_documentScope ctx).bind fun _ => looks_assertSome _ _

theorem looks_portalOwner (ctx : Ctx) (ownerType : ObjectAccess.DocumentOwnerType) (ownerId : Uuid) :
    Looks (ObjectAccess.assertPortalOwner ctx ownerType ownerId) := by
  cases ownerType
  case documentRequest => exact looks_assertSome _ _
  case finding => exact looks_assertSome _ _
  case recommendation =>
    exact (looks_read _).bind fun _ => Prog.Calls.ite (Prog.calls_throw _) (Prog.calls_pure ())
  all_goals exact Prog.calls_throw _

theorem looks_assertUploadOwner (ctx : Ctx) (ownerType : ObjectAccess.DocumentOwnerType) (ownerId : Uuid) :
    Looks (ObjectAccess.assertUploadOwner ctx ownerType ownerId) := by
  unfold ObjectAccess.assertUploadOwner
  refine Prog.Calls.ite (Prog.Calls.ite (Prog.calls_throw _) (Prog.calls_pure ())) ?_
  refine Prog.Calls.ite (looks_portalOwner ctx ownerType ownerId) (Prog.Calls.ite (Prog.calls_throw _) ?_)
  exact looks_assertSome _ _

theorem looks_get (ctx : Ctx) (id : Uuid) : Looks (get ctx id) := by
  refine (looks_accessDocument ctx id).bind fun _ => (looks_read _).bind fun doc => ?_
  cases doc with
  | none => exact Prog.calls_throw _
  | some doc => exact (looks_check _).bind fun _ => (looks_check _).bind fun _ => Prog.calls_pure doc

/-- A request has seen a document as it is. -/
def SawDocument (l : List Store) (id : Uuid) (doc : Document) : Prop :=
  ∃ x ∈ l, x.db.documents.find id = some doc

/-- A request has seen contents under a key. -/
def SawObject (l : List Store) (key : StorageKey) (body : Bytes) : Prop := ∃ x ∈ l, x.objects.find key = some body

theorem SawDocument.mono {l l' : List Store} {id : Uuid} {doc : Document} (h : SawDocument l id doc) (hl : l <:+ l') :
    SawDocument l' id doc :=
  h.imp fun _ hx => ⟨hl.subset hx.1, hx.2⟩

theorem SawObject.mono {l l' : List Store} {key : StorageKey} {body : Bytes} (h : SawObject l key body) (hl : l <:+ l') :
    SawObject l' key body :=
  h.imp fun _ hx => ⟨hl.subset hx.1, hx.2⟩

/-- A document that may be used is not in quarantine, unless that is allowed. -/
theorem assertUsable_ok {ctx : Ctx} {requireUploaded allowQuarantined : Bool} {doc : Document}
    (h : assertUsable ctx requireUploaded allowQuarantined doc = .ok ()) (hallow : allowQuarantined = false) :
    doc.isQuarantined = false := by
  subst hallow
  unfold assertUsable at h
  obtain ⟨-, -, h⟩ := Prog.bind_eq_ok.mp h
  obtain ⟨-, -, h⟩ := Prog.bind_eq_ok.mp h
  cases hquarantined : doc.isQuarantined with
  | false => rfl
  | true =>
    simp only [hquarantined, Bool.not_false, Bool.and_self, if_true] at h
    split at h
    · cases h
    · cases h

theorem yields_assertDocument (ctx : Ctx) (id : Uuid) (requireUploaded allowQuarantined : Bool) :
    Yields env (onDb (assertDocument ctx id requireUploaded allowQuarantined)) (fun doc l' => SawDocument l' id doc ∧
      (allowQuarantined = false → doc.isQuarantined = false)) l := by
  unfold assertDocument
  rw [onDb_bind]
  refine (yields_looks (looks_accessDocument ctx id)).bind fun _ l' _ _ => ?_
  rw [onDb_bind]
  refine Prog.Yields.bind (Q := fun found l' => ∀ doc, found = some doc → SawDocument l' id doc)
    (yields_onDb_read fun s doc hdoc => ?_) fun found l'' _ hfound => ?_
  · exact ⟨s, List.mem_cons_self, (Ctx.findById_eq_some.mp hdoc).1⟩
  · cases found with
    | none => exact Prog.yields_throw _
    | some doc =>
      dsimp only
      rcases husable : assertUsable ctx requireUploaded allowQuarantined doc with e | u
      · exact Prog.yields_throw _
      · exact Prog.yields_pure ⟨hfound doc rfl, assertUsable_ok husable⟩

theorem yields_getObject (key : StorageKey) :
    Yields env (Storage.getObject key) (fun body l' => SawObject l' key body) l := by
  refine yields_keyed (yields_call fun s body s' h => ?_)
  split at h
  · rename_i found hfound
    cases h
    exact ⟨rfl, s, List.mem_cons_self, hfound⟩
  · cases h

theorem yields_putObject (key : StorageKey) (body : Bytes) :
    Yields env (Storage.putObject key body) (fun _ _ => True) l :=
  yields_keyed (yields_call fun _ _ _ h => by
    cases h
    exact ⟨rfl, trivial⟩)

theorem yields_deleteObject (key : StorageKey) : Yields env (Storage.deleteObject key) (fun _ _ => True) l :=
  yields_keyed (yields_call fun _ _ _ h => by
    cases h
    exact ⟨rfl, trivial⟩)

/-- With the local driver the checksum is of contents under the key. -/
theorem yields_stat (key : StorageKey) : Yields env (Storage.stat env key) (fun stat l' => ∀ found, stat = some found →
    env.driver = .localFiles → ∃ body, SawObject l' key body ∧ found.checksumSha256 = some (env.sha256 body)) l := by
  refine yields_keyed ?_
  cases hdriver : env.driver with
  | localFiles =>
    refine Prog.Yields.bind (Q := fun _ _ => True) (yields_read fun _ => trivial) fun size l' _ _ => ?_
    cases size with
    | none => exact Prog.yields_pure nofun
    | some n =>
      refine Prog.Yields.bind (Q := fun checksum l'' => ∀ c, checksum = some c → ∃ body, SawObject l'' key body ∧
        c = env.sha256 body) (yields_read fun s c hc => ?_) fun checksum l'' _ hchecksum => Prog.yields_pure ?_
      · obtain ⟨body, hbody, rfl⟩ := Option.map_eq_some_iff.mp hc
        exact ⟨body, ⟨s, List.mem_cons_self, hbody⟩, rfl⟩
      · rintro found hfound -
        obtain ⟨c, hc, rfl⟩ := Option.map_eq_some_iff.mp hfound
        obtain ⟨body, hbody, rfl⟩ := hchecksum c hc
        exact ⟨body, hbody, rfl⟩
  | s3 => exact yields_read fun _ _ _ => nofun

/-- A scan that has not found anything has found the contents clean, if the scanner is asked. -/
theorem yields_scan (id : Uuid) (body : Bytes) :
    Yields env (Storage.scan env id body) (fun scan l' => scan.status ≠ .infected → env.scanRequired = true →
      ∃ x ∈ l', ∃ detail, env.scanner x.clock body = .clean detail) l := by
  refine Prog.Yields.ite (fun hnot => Prog.yields_pure ?_) fun _ => yields_call fun s scan s' h => ?_
  · intro _ hrequired
    rw [hrequired] at hnot
    cases hnot
  · split at h
    · rename_i detail hclean
      cases h
      exact ⟨rfl, fun _ _ => ⟨s, List.mem_cons_self, detail, hclean⟩⟩
    · cases h
      exact ⟨rfl, fun hne => absurd rfl hne⟩
    · cases h

/-! ### Changes of a document -/

/-- A change of one document that keeps its key, and releases it only if its contents have been scanned. -/
theorem allowed_of_update {s s' : Store} {id : Uuid} {d d' : Document} (hd : s.db.documents.find id = some d)
    (hrows : ∀ j, s'.db.documents.find j = if j = id then some d' else s.db.documents.find j)
    (hkey : d'.storageKey = d.storageKey)
    (hreleased : d'.isQuarantined = false → Document.contents d' = Document.contents d ∨
      ∃ doc, SawDocument l id doc ∧ ScannedIn env l doc.storageKey d'.checksumSha256) : Allowed env l s s' := by
  refine ⟨fun j e he => ?_, fun j e' he' hfree => ?_⟩
  · rw [hrows]
    split
    · rename_i hj
      rw [hj, hd] at he
      cases he
      exact ⟨d', rfl, hkey⟩
    · exact ⟨e, he, rfl⟩
  · rw [hrows] at he'
    split at he'
    · rename_i hj
      cases he'
      rw [hj]
      rcases hreleased hfree with hsame | ⟨doc, ⟨x, hx, hdoc⟩, hscanned⟩
      · exact .inl ⟨d, hd, hsame⟩
      · exact .inr ⟨x, hx, doc, hdoc, hscanned⟩
    · exact .inl ⟨e', he', rfl⟩

theorem updateDocument_ok {ctx : Ctx} {id : Uuid} {f : Date → Document → Document} {s s' : Store} {v : DocumentView}
    (h : (updateDocument ctx id f).run s = (.ok v, s')) : ∃ d, s.db.documents.find id = some d ∧
      v.row = (id, f s.clock d) ∧
      (∀ j, s'.db.documents.find j = if j = id then some (f s.clock d) else s.db.documents.find j) ∧
      s'.db = { s.db with documents := s'.db.documents } := by
  have h := Prog.run_call_ok.mp h
  split at h
  · cases h
  · rename_i d' documents hupdate
    cases h
    obtain ⟨d, hd, -, hf, hrows⟩ := updateRow_ok hupdate
    cases hf
    exact ⟨d, hd, rfl, hrows, rfl⟩

theorem yields_updateDocument {ctx : Ctx} {id : Uuid} {f : Date → Document → Document}
    (hkey : ∀ t d, (f t d).storageKey = d.storageKey)
    (hreleased : ∀ t d, (f t d).isQuarantined = false → Document.contents (f t d) = Document.contents d ∨
      ∃ doc, SawDocument l id doc ∧ ScannedIn env l doc.storageKey (f t d).checksumSha256) :
    Yields env (updateDocument ctx id f) (fun _ _ => True) l := by
  refine Prog.along_of_call fun s r s' h => ⟨?_, fun _ _ => trivial⟩
  rcases r with e | v
  · rw [Prog.atomic_call _ s e s' h]
    exact allowed_of_documents rfl
  · obtain ⟨d, hd, -, hrows, -⟩ := updateDocument_ok h
    exact allowed_of_update hd hrows (hkey _ _) (hreleased _ _)

/-- The program leaves the documents. -/
abbrev Leaves {α : Type} (p : Method α) : Prop := p.Calls fun s s' => s'.db.documents = s.db.documents

theorem calls_onDb {α : Type} {F : Db → Db → Prop} {p : Service α} (hp : p.Calls F) :
    (onDb p).Calls fun s s' => F s.db s'.db := by
  unfold onDb
  induction p with
  | ret a => trivial
  | fail e => trivial
  | act u k ih => exact fun s => ⟨(hp s.db).1, ih s.db (hp s.db).2⟩

theorem calls_insertVersion (id : Uuid) (v : DocumentVersion) :
    (insertVersion id v).Calls fun db db' => db' = { db with documentVersions := db'.documentVersions } := by
  refine Prog.calls_call (fun _ => rfl) fun db a db' h => ?_
  split_ifs at h
  obtain ⟨versions, -, h⟩ := Prog.bind_eq_ok.mp h
  cases h
  rfl

theorem leaves_insertVersion (id : Uuid) (v : DocumentVersion) : Leaves (onDb (insertVersion id v)) :=
  (calls_onDb (calls_insertVersion id v)).mono fun _ _ h => by rw [h]

/-- A document is changed, and what else is done with it leaves the documents. -/
theorem yields_update {α : Type} {ctx : Ctx} {id : Uuid} {f : Date → Document → Document} {rest : DocumentView → Method α}
    (hrest : ∀ v, Leaves (rest v)) (hkey : ∀ t d, (f t d).storageKey = d.storageKey)
    (hreleased : ∀ t d, (f t d).isQuarantined = false → Document.contents (f t d) = Document.contents d ∨
      ∃ doc, SawDocument l id doc ∧ ScannedIn env l doc.storageKey (f t d).checksumSha256) :
    Yields env (.transaction (updateDocument ctx id f >>= rest)) (fun _ _ => True) l := by
  refine Prog.along_of_call fun s r s' h => ⟨?_, fun _ _ => trivial⟩
  rcases r with e | a
  · rw [Prog.atomic_call _ s e s' h]
    exact allowed_of_documents rfl
  · have h := Prog.run_transaction_ok.mp h
    obtain ⟨v, s₁, hupdate, hlast⟩ := Prog.run_bind_ok.mp h
    obtain ⟨d, hd, -, hrows, -⟩ := updateDocument_ok hupdate
    have hleft := (hrest v).run (fun _ => rfl) (fun _ _ _ hab hbc => hbc.trans hab) s₁
    rw [hlast] at hleft
    exact allowed_of_update hd (fun j => by rw [hleft, hrows]) (hkey _ _) (hreleased _ _)

/-! ### Requests -/

theorem yields_presignUpload (ctx : Ctx) (dto : PresignUploadDto) :
    Yields env (presignUpload ctx dto) (fun _ _ => True) l := by
  refine (yields_looks (looks_check _)).bind fun _ l₁ _ _ => ?_
  refine (yields_looks (looks_assertUploadOwner ctx dto.ownerType dto.ownerId)).bind fun _ l₂ _ _ => ?_
  refine Prog.Yields.bind (Q := fun _ _ => True) ?_ fun _ l₃ _ _ => Prog.Yields.bind (Q := fun _ _ => True)
    (yields_keyed ?_) fun _ l₄ _ _ => (yields_auditRecord _ _ _ _).bind fun _ _ _ _ => Prog.yields_pure trivial
  · -- The new document is in quarantine.
    refine yields_onDb_call fun s _ db' hinsert => ⟨?_, trivial⟩
    split_ifs at hinsert
    obtain ⟨documents, hrows, hinsert⟩ := Prog.bind_eq_ok.mp hinsert
    cases hinsert
    obtain ⟨hnone, hfind⟩ := insertRow_ok hrows
    refine allowed_of_contents (fun id d hd => ⟨d, ?_, rfl⟩) fun id d' hd' hbefore => ?_
    · refine (hfind id).trans ?_
      split
      · rename_i hid
        rw [hid, hnone] at hd
        cases hd
      · exact hd
    · have hd' := (hfind id).symm.trans hd'
      split at hd'
      · cases hd'
        rfl
      · rw [hbefore] at hd'
        cases hd'
  · exact Prog.Yields.bind (Q := fun _ _ => True) (yields_read fun _ => trivial) fun _ _ _ _ => Prog.yields_pure trivial

theorem yields_completeScanned (ctx : Ctx) (id : Uuid) (doc : Document) (stat : ObjectStat) (checksum : Option String)
    (scan : ScanResult) (hdoc : SawDocument l id doc)
    (hscanned : scan.status ≠ .infected → ScannedIn env l doc.storageKey checksum) :
    Yields env (completeScanned ctx id doc stat checksum scan) (fun _ _ => True) l := by
  refine Prog.Yields.ite (fun _ => ?_) fun hclean => ?_
  · exact (yields_auditRecord _ _ _ _).bind fun _ _ _ _ => Prog.yields_throw _
  · refine Prog.Yields.bind (yields_update (fun v => ?_) (fun _ _ => rfl) fun t d _ => .inr ⟨doc, hdoc, hscanned hclean⟩)
      fun updated l₁ _ _ => ?_
    · refine Prog.Calls.bind (Prog.calls_read _ fun _ => rfl) fun existing => ?_
      split
      · exact (leaves_insertVersion _ _).bind fun _ => Prog.calls_pure v
      · exact Prog.calls_pure v
    · refine Prog.Yields.bind (Q := fun _ _ => True) (yields_read fun _ => trivial) fun _ l₂ _ _ => ?_
      exact (yields_auditRecord _ _ _ _).bind fun _ _ _ _ => Prog.yields_pure trivial

theorem yields_completeFound (ctx : Ctx) (id : Uuid) (doc : Document) (given : Option String) (stat : ObjectStat)
    (hdoc : SawDocument l id doc) (hstat : env.driver = .localFiles → ∃ body, SawObject l doc.storageKey body ∧
      stat.checksumSha256 = some (env.sha256 body)) :
    Yields env (completeFound env ctx id doc given stat) (fun _ _ => True) l := by
  refine Prog.Yields.ite (fun _ => ?_) fun _ => Prog.Yields.ite (fun _ => Prog.yields_throw _) fun hsame => ?_
  · exact (yields_deleteObject _).bind fun _ _ _ _ => Prog.yields_throw _
  · refine (yields_getObject _).bind fun body l₁ hl₁ hbody => (yields_scan id body).bind fun scan l₂ hl₂ hscan => ?_
    have hl : l <:+ l₂ := hl₁.trans hl₂
    refine yields_completeScanned ctx id doc stat _ scan (hdoc.mono hl) fun hclean =>
      ⟨fun hrequired => ?_, fun hlocal => ?_⟩
    · obtain ⟨x, hx, hfound⟩ := hbody.mono hl₂
      exact ⟨x, hx, body, hfound, hscan hclean hrequired⟩
    · obtain ⟨found, hfound, hchecksum⟩ := hstat hlocal
      obtain ⟨x, hx, hobject⟩ := hfound.mono hl
      refine ⟨x, hx, found, hobject, ?_⟩
      -- The checksum of the client, if it gives one, is that of the object.
      cases given with
      | none => rw [Option.map_none, Option.none_or, hchecksum]
      | some c =>
        rw [Option.map_some, Option.some_or, ← hchecksum]
        by_contra hne
        exact hsame ⟨rfl, by rw [hchecksum]; rfl, hne⟩

theorem yields_complete (ctx : Ctx) (id : Uuid) (given : Option String) :
    Yields env (complete env ctx id given) (fun _ _ => True) l := by
  refine (yields_assertDocument ctx id false true).bind fun doc l₁ _ hdoc => Prog.Yields.ite (fun _ => ?_) fun _ => ?_
  · exact (yields_looks (looks_get ctx id)).map fun _ _ h => h
  · refine (yields_stat _).bind fun stat l₂ hl₂ hstat => ?_
    cases stat with
    | none => exact Prog.yields_throw _
    | some found =>
      exact (yields_completeFound ctx id doc given found (hdoc.1.mono hl₂) (hstat found rfl)).map fun _ _ h => h

theorem yields_upload (ctx : Ctx) (file : UploadedFile) (input : UploadDocumentDto) :
    Yields env (upload env ctx file input) (fun _ _ => True) l := by
  refine Prog.Yields.ite (fun _ => Prog.yields_throw _) fun _ => ?_
  refine Prog.Yields.ite (fun _ => Prog.yields_throw _) fun _ => ?_
  refine (yields_presignUpload ctx _).bind fun presigned l₁ _ _ => ?_
  refine Prog.Yields.bind (Q := fun _ _ => True) (yields_read fun _ => trivial) fun doc l₂ _ _ => ?_
  cases doc with
  | none => exact Prog.yields_throw _
  | some doc => exact (yields_putObject _ _).bind fun _ _ _ _ => yields_complete ctx _ _

theorem yields_putContent (ctx : Ctx) (id : Uuid) (body : Bytes) :
    Yields env (putContent env ctx id body) (fun _ _ => True) l := by
  refine Prog.Yields.ite (fun _ => Prog.yields_throw _) fun _ => ?_
  refine Prog.Yields.ite (fun _ => Prog.yields_throw _) fun _ => ?_
  refine Prog.Yields.ite (fun _ => Prog.yields_throw _) fun _ => ?_
  refine (yields_assertDocument ctx id false true).bind fun doc _ _ _ => ?_
  refine Prog.Yields.ite (fun _ => Prog.yields_throw _) fun _ => ?_
  exact (yields_putObject _ _).bind fun _ _ _ _ => yields_complete ctx _ _

/-- What is served is under the key of a document that has been released. -/
theorem yields_getContent (ctx : Ctx) (id : Uuid) : Yields env (getContent env ctx id) (fun r l' =>
    SawDocument l' id r.1 ∧ r.1.isQuarantined = false ∧ SawObject l' r.1.storageKey r.2) l := by
  refine Prog.Yields.ite (fun _ => Prog.yields_throw _) fun _ => ?_
  refine (yields_assertDocument ctx id true false).bind fun doc l₁ _ hdoc => ?_
  refine (yields_getObject _).bind fun stream l₂ hl₂ hstream => (yields_auditRecord _ _ _ _).bind fun _ l₃ hl₃ _ => ?_
  exact Prog.yields_pure ⟨hdoc.1.mono (hl₂.trans hl₃), hdoc.2 rfl, hstream.mono hl₃⟩

/-- So is what is linked to. -/
theorem yields_download (ctx : Ctx) (id : Uuid) : Yields env (download ctx id) (fun p l' =>
    ∃ doc, SawDocument l' id doc ∧ doc.isQuarantined = false ∧ p.key = doc.storageKey) l := by
  refine (yields_assertDocument ctx id true false).bind fun doc l₁ _ hdoc => ?_
  refine Prog.Yields.bind (Q := fun p _ => p.key = doc.storageKey) (yields_keyed ?_) fun p l₂ hl₂ hkey => ?_
  · exact Prog.Yields.bind (Q := fun _ _ => True) (yields_read fun _ => trivial) fun _ _ _ _ => Prog.yields_pure rfl
  · exact (yields_auditRecord _ _ _ _).bind fun _ l₃ hl₃ _ =>
      Prog.yields_pure ⟨doc, hdoc.1.mono (hl₂.trans hl₃), hdoc.2 rfl, hkey⟩

theorem yields_remove (ctx : Ctx) (id : Uuid) : Yields env (remove ctx id) (fun _ _ => True) l := by
  refine (yields_assertDocument ctx id false false).bind fun doc l₁ _ _ => ?_
  refine Prog.Yields.bind (Q := fun _ _ => True) (yields_read fun _ => trivial) fun _ l₂ _ _ => ?_
  refine Prog.Yields.ite (fun _ => Prog.yields_throw _) fun _ => ?_
  refine Prog.Yields.bind (yields_updateDocument (fun _ _ => ?_) fun _ _ _ => .inl ?_) fun _ _ _ _ =>
    yields_auditRecord _ _ _ _
  · rfl
  · rfl

/-- What an answer says of what the request has seen. -/
def Answered (r : Request) (a : Answer) (l : List Store) : Prop :=
  match a with
  | .content doc stream => ∃ ctx id, r = .getContent ctx id ∧ SawDocument l id doc ∧ doc.isQuarantined = false ∧
      SawObject l doc.storageKey stream
  | .link p => ∃ ctx id, r = .download ctx id ∧ ∃ doc, SawDocument l id doc ∧ doc.isQuarantined = false ∧
      p.key = doc.storageKey
  | _ => True

theorem yields_perform (r : Request) : Yields env (perform env r) (Answered r) l := by
  cases r with
  | presignUpload ctx dto => exact (yields_presignUpload ctx dto).map fun _ _ _ => trivial
  | upload ctx file input => exact (yields_upload ctx file input).map fun _ _ _ => trivial
  | complete ctx id given => exact (yields_complete ctx id given).map fun _ _ _ => trivial
  | putContent ctx id body => exact (yields_putContent ctx id body).map fun _ _ _ => trivial
  | getContent ctx id => exact (yields_getContent ctx id).map fun _ _ h => ⟨ctx, id, rfl, h⟩
  | download ctx id => exact (yields_download ctx id).map fun _ _ h => ⟨ctx, id, rfl, h⟩
  | remove ctx id => exact (yields_remove ctx id).map fun _ _ _ => trivial
  | elsewhere e =>
    refine Prog.Yields.map (Q := fun _ _ => True) (fun s => ⟨?_, fun _ _ => trivial⟩) fun _ _ _ => trivial
    exact allowed_of_contents (e.leaves s) (e.fresh s)

end Calls

/-! ### Runs -/

section Runs

variable (env : Platform) (s₀ : Store)

/-- The states up to a moment, the most recent first. -/
def reached : List (Event Request) → List Store
  | [] => [s₀]
  | e :: past => (interleave (perform env) s₀ (e :: past)).st :: reached past

variable {env s₀}

theorem mem_reached (mid past : List (Event Request)) :
    (interleave (perform env) s₀ past).st ∈ reached env s₀ (mid ++ past) := by
  induction mid with
  | nil => cases past <;> exact List.mem_cons_self
  | cons e mid ih => exact List.mem_cons_of_mem _ ih

theorem reached_suffix (mid past : List (Event Request)) : reached env s₀ past ⊆ reached env s₀ (mid ++ past) := by
  induction mid with
  | nil => exact List.Subset.refl _
  | cons e mid ih => exact List.subset_cons_of_subset _ ih

theorem seen_subset_reached (j : ℕ) (evs : List (Event Request)) :
    seen (perform env) s₀ j evs ⊆ reached env s₀ evs := by
  intro x hx
  obtain ⟨mid, past, rfl, rfl⟩ := moment_of_mem_seen hx
  exact mem_reached mid past

/-- A turn does nothing, or what is allowed. -/
theorem turn_allowed (past : List (Event Request)) (i : ℕ) :
    interleave (perform env) s₀ (.turn i :: past) = interleave (perform env) s₀ past ∨
      Allowed env (seen (perform env) s₀ i past) (interleave (perform env) s₀ past).st
        (interleave (perform env) s₀ (.turn i :: past)).st := by
  rcases turn_cases s₀ (P := fun _ => Allowed env) (fun r => yields_perform r) past i with
    ⟨hsame, -⟩ | ⟨r, -, -, -, -, hallowed⟩
  · exact .inl hsame
  · exact .inr hallowed

/-- Between any two moments the key of a document stays. -/
theorem keys_between (mid past : List (Event Request)) :
    KeepsKeys (interleave (perform env) s₀ past).st (interleave (perform env) s₀ (mid ++ past)).st := by
  refine interleave_rel KeepsKeys.refl (fun _ _ _ => KeepsKeys.trans) (fun past i => ?_) mid past
  rcases turn_allowed past i with hsame | hallowed
  · show KeepsKeys _ (interleave (perform env) s₀ (.turn i :: past)).st
    rw [hsame]
    exact KeepsKeys.refl _
  · exact hallowed.keys

/-- Every document that is out of quarantine has been scanned. -/
def Scanned (env : Platform) (l : List Store) (s : Store) : Prop :=
  ∀ id d, s.db.documents.find id = some d → d.isQuarantined = false → ScannedIn env l d.storageKey d.checksumSha256

/-- **What is released has been scanned**, in every run. -/
theorem released_scanned (h₀ : Scanned env [s₀] s₀) (evs : List (Event Request)) :
    Scanned env (reached env s₀ evs) (interleave (perform env) s₀ evs).st := by
  induction evs with
  | nil => exact h₀
  | cons e past ih =>
    have hmono : reached env s₀ past ⊆ reached env s₀ (e :: past) := reached_suffix [e] past
    cases e with
    | start r => exact fun id d hd hfree => (ih id d hd hfree).mono hmono
    | turn i =>
      rcases turn_allowed past i with hsame | hallowed
      · rw [hsame]
        exact fun id d hd hfree => (ih id d hd hfree).mono hmono
      · intro id d' hd' hfree
        rcases hallowed.released id d' hd' hfree with ⟨d, hd, hcontents⟩ | ⟨x, hx, doc, hdoc, hscanned⟩
        · -- It was released before, with the same key and checksum.
          have hcontents := Prod.mk.inj hcontents
          have hrest := Prod.mk.inj hcontents.2
          rw [hcontents.1, hrest.2]
          exact (ih id d hd (hrest.1.symm.trans hfree)).mono hmono
        · -- It is released now, by a request that has seen it under the same key.
          obtain ⟨mid, earlier, rfl, rfl⟩ := moment_of_mem_seen hx
          obtain ⟨d, hd, hkey⟩ := keys_between (.turn i :: mid) earlier id doc hdoc
          obtain rfl := Option.some.inj (hd.symm.trans hd')
          rw [hkey]
          exact hscanned.mono (List.Subset.trans (seen_subset_reached i _) hmono)

/-- The scanner has found contents clean in some state, if it is asked at all. -/
def Clean (env : Platform) (l : List Store) (body : Bytes) : Prop :=
  env.scanRequired = true → ∃ x ∈ l, ∃ detail, env.scanner x.clock body = .clean detail

/-- In some states there is only one content under each key. -/
def NeverReplaced (content : StorageKey → Bytes) (l : List Store) : Prop :=
  ∀ x ∈ l, ∀ key body, x.objects.find key = some body → body = content key

/-- What was scanned is what there is. -/
theorem ScannedIn.content {l : List Store} {key : StorageKey} {checksum : Option String} {content : StorageKey → Bytes}
    (h : ScannedIn env l key checksum) (hcontent : NeverReplaced content l) : Clean env l (content key) ∧
      (env.driver = .localFiles → checksum = some (env.sha256 (content key))) := by
  refine ⟨fun hrequired => ?_, fun hlocal => ?_⟩
  · obtain ⟨x, hx, body, hbody, hclean⟩ := h.clean hrequired
    exact hcontent x hx key body hbody ▸ hclean
  · obtain ⟨x, hx, body, hbody, hchecksum⟩ := h.checksum hlocal
    exact hcontent x hx key body hbody ▸ hchecksum

/-- What a request has seen of a released document had been scanned. -/
theorem SawDocument.scanned (h₀ : Scanned env [s₀] s₀) {evs : List (Event Request)} {j : ℕ} {id : Uuid} {doc : Document}
    (h : SawDocument (seen (perform env) s₀ j evs) id doc) (hfree : doc.isQuarantined = false) :
    ScannedIn env (reached env s₀ evs) doc.storageKey doc.checksumSha256 := by
  obtain ⟨x, hx, hdoc⟩ := h
  obtain ⟨mid, past, rfl, rfl⟩ := moment_of_mem_seen hx
  exact (released_scanned h₀ past id doc hdoc hfree).mono (reached_suffix mid past)

/-- What may be served: contents that have been scanned, with their checksum, or a link to such contents. -/
def Served (env : Platform) (l : List Store) : Answer → Prop
  | .content doc stream => Clean env l stream ∧ (env.driver = .localFiles → doc.checksumSha256 = some (env.sha256 stream))
  | .link p => ∀ x ∈ l, ∀ body, x.objects.find p.key = some body → Clean env l body
  | _ => True

/-- **Nothing is served but what has been scanned**, in every interleaving in which no object is replaced. -/
theorem served_scanned (h₀ : Scanned env [s₀] s₀) {content : StorageKey → Bytes} {evs : List (Event Request)}
    (hcontent : NeverReplaced content (reached env s₀ evs)) {j : ℕ} {th : Thread Request Store DocumentError Answer}
    {a : Answer} (hj : (interleave (perform env) s₀ evs).threads[j]? = some th) (ha : th.rest.result = some (.ok a)) :
    Served env (reached env s₀ evs) a := by
  have hanswered := along_ended s₀ (fun r => yields_perform r) hj ha a rfl
  cases a with
  | content doc stream =>
    obtain ⟨ctx, id, -, hdoc, hfree, x, hx, hstream⟩ := hanswered
    rw [Served, hcontent x (seen_subset_reached j evs hx) _ _ hstream]
    exact (hdoc.scanned h₀ hfree).content hcontent
  | link p =>
    obtain ⟨ctx, id, -, doc, hdoc, hfree, hkey⟩ := hanswered
    intro x hx body hbody
    rw [hcontent x hx _ _ hbody, hkey]
    exact ((hdoc.scanned h₀ hfree).content hcontent).1
  | url p => trivial
  | completion c => trivial
  | done => trivial

end Runs

/-! ### An upload -/

/-- Files are on disk, and every file is clean. -/
def disk : Platform where
  driver := .localFiles
  sha256 body := if body = [1, 2, 3] then "039058" else "e3b0c4"
  scanRequired := true
  scanner _ _ := .clean none
  takes _ _ := false

/-- Nothing has been uploaded. -/
def emptyStore : Store where
  db := Workpapers.office
  clock := 0
  objects := .empty
  uploadUrls := []
  judgedClean := []

/-- Ann uploads a file for the assistant, and reads it, while somebody puts the same bytes under another key. -/
def uploading : List (Event Request) :=
  let ann : Ctx := { Workpapers.actor 1 100 with permissions := [.aiUse, .documentUpload] }
  List.replicate 6 (.turn 1) ++ [.turn 2, .start (.elsewhere (.send (.uuid 2 7) [1, 2, 3])), .start (.getContent ann 100)] ++
    List.replicate 20 (.turn 0) ++
    [.start (.upload ann ⟨"minutes.txt", "text/plain", [1, 2, 3]⟩ ⟨.aiContext, 1, none⟩)]

/-- The contents that are answered. -/
def Answer.stream : Answer → Option Bytes
  | .content _ stream => some stream
  | _ => none

theorem served_scanned_upload : ∃ th doc, (interleave (perform disk) emptyStore uploading).threads[1]? = some th ∧
    th.rest.result = some (.ok (.content doc [1, 2, 3])) ∧
      Served disk (reached disk emptyStore uploading) (.content doc [1, 2, 3]) := by
  have hstream : ((interleave (perform disk) emptyStore uploading).threads[1]?.bind fun th =>
      th.rest.result.bind fun r => r.toOption.bind Answer.stream) = some [1, 2, 3] := by decide +kernel
  have hcontent : NeverReplaced (fun _ => [1, 2, 3]) (reached disk emptyStore uploading) := by
    have hall : ((reached disk emptyStore uploading).all fun x =>
        x.objects.entries.all fun e => e.2 = [1, 2, 3]) = true := by decide +kernel
    intro x hx key body hbody
    have hentry := List.all_eq_true.mp (List.all_eq_true.mp hall x hx) _ ((Table.find_eq_some_iff _ _ _).mp hbody)
    exact of_decide_eq_true hentry
  obtain ⟨th, hth, hstream⟩ := Option.bind_eq_some_iff.mp hstream
  obtain ⟨r, hr, hstream⟩ := Option.bind_eq_some_iff.mp hstream
  obtain ⟨a, ha, hstream⟩ := Option.bind_eq_some_iff.mp hstream
  cases r with
  | error e => cases ha
  | ok a' =>
    cases ha
    cases a with
    | content doc stream =>
      cases hstream
      exact ⟨th, doc, hth, hr, served_scanned (fun _ _ h => by cases h) hcontent hth hr⟩
    | url p => cases hstream
    | completion c => cases hstream
    | link p => cases hstream
    | done => cases hstream

end AuditSphere.Documents.Serving
