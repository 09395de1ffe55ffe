import AuditSphere.Documents.Context

/-!
# Private context

Any number of requests to the documents service, for evidence, for documents and to engagements, by any users,
are served at once. What a call relies on has been checked earlier, and holds still, as context for the
assistant is never made of another document, nor another document of it (`keeps_between`). So it stays with its
uploader, nothing refers to it, and nobody else is answered with it (`context_private`).
-/

namespace AuditSphere.Documents.Context

open Prisma Theory Shared

/-! ### Requests -/

/-- What else happens: clients put objects at the object store, time passes, and other services work on
the database. They leave the documents, and link none. -/
structure Elsewhere where
  change : Store → Store
  aside : ∀ s, Aside s.db (change s).db

/-- A request to one of the services, or what else happens. What sorts a listing adds nothing to it. -/
inductive Request where
  | presignUpload (ctx : Ctx) (dto : PresignUploadDto)
  | upload (ctx : Ctx) (file : UploadedFile) (input : UploadDocumentDto)
  | complete (ctx : Ctx) (id : Uuid) (given : Option String)
  | putContent (ctx : Ctx) (id : Uuid) (body : Bytes)
  | getContent (ctx : Ctx) (id : Uuid)
  | download (ctx : Ctx) (id : Uuid)
  | remove (ctx : Ctx) (id : Uuid)
  | list (ctx : Ctx) (query : DocumentListQueryDto) (sorts : ∀ rows, query.sort rows ⊆ rows)
  | get (ctx : Ctx) (id : Uuid)
  | evidence (r : Evidence.Request)
  | requests (o : Requests.Operation)
  | engagements (r : Engagements.Request)
  | elsewhere (e : Elsewhere)

/-- The user who makes the request. -/
def Request.user : Request → Option Uuid
  | .presignUpload ctx _ | .upload ctx _ _ | .complete ctx _ _ | .putContent ctx _ _ | .getContent ctx _
  | .download ctx _ | .remove ctx _ | .list ctx _ _ | .get ctx _ => some ctx.userId
  | .evidence r => some r.ctx.userId
  | .requests o => some o.ctx.userId
  | .engagements r => some r.ctx.userId
  | .elsewhere _ => none

/-- What a request is answered; what the other services answer is left open. -/
inductive Answer where
  | url (p : PresignedUpload)
  | completion (c : Completion)
  | content (id : Uuid) (d : Document) (stream : Bytes)
  | link (p : PresignedDownload)
  | page (p : Page DocumentView)
  | detail (d : DocumentDetail)
  | done

/-- The answer shows something of the document. -/
def Answer.Shows : Answer → Uuid → Prop
  | .completion c, i => (completed c).1 = i
  | .content id _ _, i => id = i
  | .link p, i => p.documentId = i
  | .page p, i => ∃ v ∈ p.items, v.row.1 = i
  | .detail d, i => d.row.1 = i
  | _, _ => False

/-- The program of a request. -/
def perform (env : Platform) : Request → Method Answer
  | .presignUpload ctx dto => .url <$> presignUpload ctx dto
  | .upload ctx file input => .completion <$> upload env ctx file input
  | .complete ctx id given => .completion <$> complete env ctx id given
  | .putContent ctx id body => .completion <$> putContent env ctx id body
  | .getContent ctx id => (fun r => .content id r.1 r.2) <$> getContent env ctx id
  | .download ctx id => .link <$> download ctx id
  | .remove ctx id => (fun _ => .done) <$> remove ctx id
  | .list ctx query _ => .page <$> onDb (list ctx query)
  | .get ctx id => .detail <$> onDb (get ctx id)
  | .evidence r => (fun _ => .done) <$> onDb (Evidence.serve r)
  | .requests o => (fun _ => .done) <$> onDb (Requests.perform o)
  | .engagements r => (fun _ => .done) <$> onDb (Engagements.serve r)
  | .elsewhere e => (fun _ => .done) <$> (.write e.change : Method Unit)

theorem yields_perform (env : Platform) (r : Request) (l : List Store) : (perform env r).Yields (Lawful r.user)
    (fun a l' => ∀ i, a.Shows i → MayShow r.user l' i) l := by
  cases r with
  | presignUpload ctx dto => exact (yields_presignUpload ctx dto).map fun _ _ _ _ h => h.elim
  | upload ctx file input => exact (yields_upload ctx file input).map fun _ _ h i hi => hi ▸ h
  | complete ctx id given => exact (yields_complete ctx id given).map fun _ _ h i hi => hi ▸ h
  | putContent ctx id body => exact (yields_putContent ctx id body).map fun _ _ h i hi => hi ▸ h
  | getContent ctx id => exact (yields_getContent ctx id).map fun _ _ h i hi => hi ▸ h
  | download ctx id => exact (yields_download ctx id).map fun _ _ h i hi => (h.1.symm.trans hi) ▸ h.2
  | remove ctx id => exact (yields_remove ctx id).map fun _ _ _ _ h => h.elim
  | list ctx query sorts =>
    refine (yields_onDb (yields_list ctx query sorts)).map fun page l' h i hi => ?_
    obtain ⟨v, hv, rfl⟩ := hi
    exact h v hv
  | get ctx id => exact (yields_onDb (yields_get ctx id)).map fun _ _ h i hi => hi ▸ h
  | evidence r => exact (yields_onDb (yields_evidence r)).map fun _ _ _ _ h => h.elim
  | requests o => exact (yields_onDb (yields_requests o)).map fun _ _ _ _ h => h.elim
  | engagements r => exact (yields_onDb (yields_engagements r)).map fun _ _ _ _ h => h.elim
  | elsewhere e =>
    refine Prog.Yields.map (Q := fun _ _ => True) (fun s => ⟨?_, fun _ _ => trivial⟩) fun _ _ _ _ h => h.elim
    exact (e.aside s).allowed

/-! ### Runs -/

/-- Documents stay; context stays context of the same user, and what is not context never becomes it. -/
def Keeps (s s' : Db) : Prop := ∀ i d, s.documents.find i = some d →
  ∃ d', s'.documents.find i = some d' ∧ (IsContext d' ↔ IsContext d) ∧ (IsContext d → ownership d' = ownership d)

/-- Context belongs to its uploader, and nothing refers to it. -/
structure Private (db : Db) : Prop where
  owned : ∀ i d, db.documents.find i = some d → IsContext d → d.ownerId = some d.uploadedById
  unlinked : ∀ i, Linked db i → ∃ d, db.documents.find i = some d ∧ ¬IsContext d

theorem Keeps.refl (s : Db) : Keeps s s := fun _ d hd => ⟨d, hd, Iff.rfl, fun _ => rfl⟩

theorem Keeps.trans {a b c : Db} (h : Keeps a b) (h' : Keeps b c) : Keeps a c := by
  intro i d hd
  obtain ⟨d₁, hd₁, hcontext₁, howner₁⟩ := h i d hd
  obtain ⟨d₂, hd₂, hcontext₂, howner₂⟩ := h' i d₁ hd₁
  exact ⟨d₂, hd₂, hcontext₂.trans hcontext₁, fun hd => (howner₂ (hcontext₁.mpr hd)).trans (howner₁ hd)⟩

theorem Own.of_ownership {user : Option Uuid} {d d' : Document} (h : Own user d) (howner : ownership d' = ownership d) :
    Own user d' := by
  obtain ⟨-, hrest⟩ := Prod.mk.inj howner
  obtain ⟨hid, huploaded⟩ := Prod.mk.inj hrest
  exact ⟨hid.trans h.1, (congrArg some huploaded).trans h.2⟩

section Steps

variable {user : Option Uuid} {l : List Db} {s s' : Db}

/-- What has been seen not to be context is not. -/
theorem SawShared.now (hl : ∀ x ∈ l, Keeps x s) {i : Uuid} (h : SawShared l i) :
    ∃ d, s.documents.find i = some d ∧ ¬IsContext d := by
  obtain ⟨x, hx, d, hd, hnot⟩ := h
  obtain ⟨d', hd', hcontext, -⟩ := hl x hx i d hd
  exact ⟨d', hd', fun h => hnot (hcontext.mp h)⟩

/-- Context that the user has been seen to own is the user's own. -/
theorem SawUsable.now (hl : ∀ x ∈ l, Keeps x s) {i : Uuid} (h : SawUsable user l i) {d : Document}
    (hd : s.documents.find i = some d) (hcontext : IsContext d) : Own user d := by
  obtain ⟨x, hx, d₀, hd₀, hown⟩ := h
  obtain ⟨d', hd', hsame, howner⟩ := hl x hx i d₀ hd₀
  obtain rfl := Option.some.inj (hd.symm.trans hd')
  exact (hown (hsame.mp hcontext)).of_ownership (howner (hsame.mp hcontext))

theorem isContext_of_ownership {d d' : Document} (h : ownership d' = ownership d) : IsContext d' ↔ IsContext d := by
  rw [IsContext, IsContext, (Prod.mk.inj h).1]

/-- **What a step preserves**, if what has been seen is kept. -/
theorem Allowed.keeps (h : Allowed user l s s') (hl : ∀ x ∈ l, Keeps x s) : Keeps s s' := by
  intro i d hd
  obtain ⟨d', hd', rfl | ⟨howner, -⟩ | ⟨hnot, hshared⟩⟩ := h.documents i d hd
  · exact ⟨d', hd', Iff.rfl, fun _ => rfl⟩
  · exact ⟨d', hd', isContext_of_ownership howner, fun _ => howner⟩
  · obtain ⟨d₁, hd₁, hshared⟩ := hshared.now (List.forall_mem_cons.mpr ⟨Keeps.refl s, hl⟩)
    obtain rfl := Option.some.inj (hd.symm.trans hd₁)
    exact ⟨d', hd', iff_of_false hnot hshared, fun h => absurd h hshared⟩

theorem Allowed.isPrivate (h : Allowed user l s s') (hl : ∀ x ∈ l, Keeps x s) (hs : Private s) : Private s' := by
  have hkeeps := h.keeps hl
  refine ⟨fun i d' hd' hcontext => ?_, fun i hi => ?_⟩
  · rcases hd : s.documents.find i with _ | d
    · have hown := h.fresh i d' hd' hd hcontext
      exact hown.1.trans hown.2.symm
    · obtain ⟨d₁, hd₁, hsame, howner⟩ := hkeeps i d hd
      obtain rfl := Option.some.inj (hd'.symm.trans hd₁)
      have hbefore : Own (some d.uploadedById) d := ⟨hs.owned i d hd (hsame.mp hcontext), rfl⟩
      have hnow := hbefore.of_ownership (howner (hsame.mp hcontext))
      exact hnow.1.trans hnow.2.symm
  · have hshared : ∃ d, s.documents.find i = some d ∧ ¬IsContext d := by
      rcases h.links i hi with hlinked | hshared
      · exact hs.unlinked i hlinked
      · exact hshared.now (List.forall_mem_cons.mpr ⟨Keeps.refl s, hl⟩)
    obtain ⟨d, hd, hnot⟩ := hshared
    obtain ⟨d', hd', hsame, -⟩ := hkeeps i d hd
    exact ⟨d', hd', fun h => hnot (hsame.mp h)⟩

/-- Only the user changes what is the user's own context. -/
theorem Allowed.own_of_changed (h : Allowed user l s s') (hl : ∀ x ∈ l, Keeps x s) {i : Uuid} {d : Document}
    (hd : s.documents.find i = some d) (hcontext : IsContext d) (hchanged : s'.documents.find i ≠ some d) :
    Own user d := by
  obtain ⟨d', hd', rfl | ⟨-, husable⟩ | ⟨-, hshared⟩⟩ := h.documents i d hd
  · exact absurd hd' hchanged
  · exact husable.now hl hd hcontext
  · obtain ⟨d₁, hd₁, hnot⟩ := hshared.now (List.forall_mem_cons.mpr ⟨Keeps.refl s, hl⟩)
    obtain rfl := Option.some.inj (hd.symm.trans hd₁)
    exact absurd hcontext hnot

end Steps

section Runs

variable {env : Platform} {s₀ : Store}

/-- A turn does nothing, or what is allowed to the user of the request. -/
theorem turn_allowed (past : List (Event Request)) (i : ℕ) :
    interleave (perform env) s₀ (.turn i :: past) = interleave (perform env) s₀ past ∨
      ∃ r, requested (perform env) s₀ i past = some r ∧ Lawful r.user (seen (perform env) s₀ i past)
        (interleave (perform env) s₀ past).st (interleave (perform env) s₀ (.turn i :: past)).st := by
  rcases turn_cases s₀ (P := fun r => Lawful r.user) (fun r => yields_perform env r []) past i with
    ⟨hsame, -⟩ | ⟨r, hr, -, -, -, hallowed⟩
  · exact .inl hsame
  · exact .inr ⟨r, hr, hallowed⟩

/-- **What a run preserves**: between any two moments. -/
theorem keeps_between {evs mid past : List (Event Request)} (h : evs = mid ++ past) :
    Keeps (interleave (perform env) s₀ past).st.db (interleave (perform env) s₀ evs).st.db := by
  induction evs generalizing mid past with
  | nil =>
    obtain ⟨-, rfl⟩ := List.append_eq_nil_iff.mp h.symm
    exact Keeps.refl _
  | cons e evs ih =>
    cases mid with
    | nil =>
      subst h
      exact Keeps.refl _
    | cons e' mid =>
      refine (ih (List.cons.inj h).2).trans ?_
      cases e with
      | start r => exact Keeps.refl _
      | turn i =>
        rcases @turn_allowed env s₀ evs i with hsame | ⟨r, -, hallowed⟩
        · rw [hsame]
          exact Keeps.refl _
        · refine hallowed.keeps fun x hx => ?_
          obtain ⟨y, hy, rfl⟩ := List.mem_map.mp hx
          obtain ⟨mid', past', hmoment, rfl⟩ := moment_of_mem_seen hy
          exact ih hmoment

/-- What a request has seen is kept. -/
theorem keeps_seen {j : ℕ} {evs : List (Event Request)} {x : Db} (h : x ∈ (seen (perform env) s₀ j evs).map Store.db) :
    Keeps x (interleave (perform env) s₀ evs).st.db := by
  obtain ⟨y, hy, rfl⟩ := List.mem_map.mp h
  obtain ⟨mid, past, hmoment, rfl⟩ := moment_of_mem_seen hy
  exact keeps_between hmoment

theorem private_reached (h₀ : Private s₀.db) (evs : List (Event Request)) :
    Private (interleave (perform env) s₀ evs).st.db := by
  induction evs with
  | nil => exact h₀
  | cons e past ih =>
    cases e with
    | start r => exact ih
    | turn i =>
      rcases turn_allowed past i with hsame | ⟨r, -, hallowed⟩
      · rw [hsame]
        exact ih
      · exact hallowed.isPrivate (fun _ => keeps_seen) ih

variable (env s₀)

/-- In a run, context for the assistant is private: it belongs to its uploader for ever, nothing refers to it,
and only requests of its uploader change it or are answered with it. -/
structure StaysPrivate (evs : List (Event Request)) : Prop where
  isPrivate : Private (interleave (perform env) s₀ evs).st.db
  kept : ∀ mid past, evs = mid ++ past →
    Keeps (interleave (perform env) s₀ past).st.db (interleave (perform env) s₀ evs).st.db
  changed : ∀ j i d, (interleave (perform env) s₀ evs).st.db.documents.find i = some d → IsContext d →
    (interleave (perform env) s₀ (.turn j :: evs)).st.db.documents.find i ≠ some d →
      ∃ r, requested (perform env) s₀ j evs = some r ∧ r.user = some d.uploadedById
  shown : ∀ (j : ℕ) (th : Thread Request Store DocumentError Answer) (a : Answer) (i : Uuid) (d : Document),
    (interleave (perform env) s₀ evs).threads[j]? = some th → th.rest.result = some (.ok a) → a.Shows i →
      (interleave (perform env) s₀ evs).st.db.documents.find i = some d → IsContext d →
        th.req.user = some d.uploadedById

variable {env s₀}

/-- **Context for the assistant stays private**, in every interleaving of the services. -/
theorem context_private (h₀ : Private s₀.db) (evs : List (Event Request)) : StaysPrivate env s₀ evs := by
  refine ⟨private_reached h₀ evs, fun _ _ => keeps_between, fun j i d hd hcontext hchanged => ?_,
    fun j th a i d hj ha hshows hd hcontext => ?_⟩
  · rcases turn_allowed evs j with hsame | ⟨r, hr, hallowed⟩
    · rw [hsame] at hchanged
      exact absurd hd hchanged
    · exact ⟨r, hr, (hallowed.own_of_changed (fun _ => keeps_seen) hd hcontext hchanged).2.symm⟩
  · rcases along_ended s₀ (fun r => yields_perform env r []) hj ha a rfl i hshows with husable | ⟨x, hx, hlinked⟩
    · exact (husable.now (fun _ => keeps_seen) hd hcontext).2.symm
    · -- It is in the list as it is linked to a request, so it is not context.
      obtain ⟨y, hy, rfl⟩ := List.mem_map.mp hx
      obtain ⟨mid, past, hmoment, rfl⟩ := moment_of_mem_seen hy
      obtain ⟨d₀, hd₀, hnot⟩ := (private_reached h₀ past).unlinked i hlinked
      obtain ⟨d', hd', hsame, -⟩ := keeps_between hmoment i d₀ hd₀
      obtain rfl := Option.some.inj (hd.symm.trans hd')
      exact absurd (hsame.mp hcontext) hnot

end Runs

/-! ### An upload -/

/-- Ann uploads a file as context; Ben wants to file it as evidence, and Ann lists her documents. -/
def uploading : List (Event Request) :=
  let ann : Ctx := { Workpapers.actor 1 100 with permissions := [.aiUse, .documentUpload, .documentRead] }
  List.replicate 6 (.turn 2) ++ [.start (.list ann {} fun _ _ h => h)] ++ List.replicate 6 (.turn 1) ++
    [.start (.evidence (.create (Workpapers.actor 2 200) {
      engagementId := 10, workpaperId := none, documentId := some (some 100), description := "Minutes"
      type := none, obtainedFrom := none, obtainedAt := none, isSufficient := none }))] ++ List.replicate 20 (.turn 0) ++
    [.start (.upload ann ⟨"minutes.txt", "text/plain", [1, 2, 3]⟩ ⟨.aiContext, 1, none⟩)]

/-- The documents that are listed. -/
def Answer.listed : Answer → List Uuid
  | .page p => p.items.map fun v => v.row.1
  | _ => []

theorem private_emptyStore : Private Serving.emptyStore.db := by
  refine ⟨fun _ _ h => (by cases h), fun i hi => ?_⟩
  rcases hi with ⟨j, e, h, -⟩ | ⟨j, r, h, -⟩ | ⟨j, e, h, hreport⟩
  · cases h
  · cases h
  · have hentry := (Table.find_eq_some_iff _ _ _).mp h
    obtain ⟨-, rfl⟩ := Prod.mk.inj (List.mem_singleton.mp hentry)
    cases hreport

/-- Ann has uploaded context and finds it in her list; Ben is refused. -/
theorem context_private_upload :
    ((interleave (perform Serving.disk) Serving.emptyStore uploading).threads.map fun th =>
      th.rest.result.map fun r => r.toOption.map Answer.listed) = [some (some []), some none, some (some [100])] ∧
    ((interleave (perform Serving.disk) Serving.emptyStore uploading).st.db.documents.find 100).map Document.ownerType =
      some (some "AiContext") ∧
    StaysPrivate Serving.disk Serving.emptyStore uploading := by
  refine ⟨?_, ?_, context_private private_emptyStore uploading⟩
  · decide +kernel
  · decide +kernel

end AuditSphere.Documents.Context
