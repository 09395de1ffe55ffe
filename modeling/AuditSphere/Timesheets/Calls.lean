import AuditSphere.Timesheets.Service

/-!
# What a request for a timesheet does

A request looks at the sheet first (`FirstSaw`), and makes one call that matters: the commit of
the change of an entry with the total that it has summed up before (`Changed`), or a change of
the status (`Moved`). The other calls change only what is not of timesheets. `serve_along` says
so of whatever the request has seen on its way.
-/

namespace AuditSphere.Timesheets

open Prisma Theory Shared

/-! ### Calls -/

/-- Timesheets, entries and charge codes stay. -/
def Quiet (s s' : Books) : Prop := s' = { s with db := s'.db }

theorem Quiet.refl (s : Books) : Quiet s s := rfl

/-- The sheet as the first call of the request has found it. -/
def FirstSaw (l : List Books) (id : Uuid) (sheet : Timesheet) : Prop :=
  ∃ s₀, l.getLast? = some s₀ ∧ s₀.timesheets.find id = some sheet

/-- The entry as the first call of the request has found it. -/
def FirstRead (l : List Books) (id : Uuid) (e : TimeEntry) : Prop :=
  ∃ s₀, l.getLast? = some s₀ ∧ s₀.entries.table.find id = some e

/-- The user owns the sheet, and it may be edited. -/
def MayEdit (ctx : Ctx) (sheet : Timesheet) : Prop := sheet.userId = ctx.userId ∧ editable sheet.status = true

/-- The commit of a change of an entry: the total is what was summed up two calls before. -/
structure Changed (ctx : Ctx) (timesheetId : Uuid) (change : Books → Except HttpError (Unit × Books)) (l : List Books)
    (s v s' : Books) (total : ℕ) : Prop where
  summed : ∃ s₁ v₁, l[1]? = some s₁ ∧ change s₁ = .ok ((), v₁) ∧ total = hoursOf ctx v₁ timesheetId
  changed : change s = .ok ((), v)
  written : setTotal ctx timesheetId total v = .ok ((), s')

/-- A change of a sheet. -/
structure Moved (id : Uuid) (f : Timesheet → Timesheet) (t : Timesheet) (s s' : Books) : Prop where
  row : s.timesheets.find id = some t
  rows : ∀ j, s'.timesheets.find j = if j = id then some (f t) else s.timesheets.find j
  rest : s' = { s with timesheets := s'.timesheets }

/-- A call of a request, after those that found `l`. -/
inductive Call : Request → List Books → Books → Books → Prop where
  | quiet {r l s s'} (h : Quiet s s') : Call r l s s'
  | create {ctx timesheetId dto sheet l s v s' total} (saw : FirstSaw l timesheetId sheet) (may : MayEdit ctx sheet)
    (within : isWithinWeek (startOfUtcDay dto.date) sheet.weekStart = true)
    (h : Changed ctx timesheetId (insertEntry (ctx.uuid 0) (newEntry ctx timesheetId dto)) l s v s' total) :
    Call (.createEntry ctx timesheetId dto) l s s'
  | update {ctx id dto before sheet l s v s' total}
    (read : FirstRead l id before) (saw : FirstSaw l before.timesheetId sheet) (may : MayEdit ctx sheet)
    (within : ∀ date, dto.day = some date → isWithinWeek date sheet.weekStart = true)
    (h : Changed ctx before.timesheetId (updateEntryRow ctx id dto) l s v s' total) :
    Call (.updateEntry ctx id dto) l s s'
  | delete {ctx id before sheet l s v s' total}
    (read : FirstRead l id before) (saw : FirstSaw l before.timesheetId sheet) (may : MayEdit ctx sheet)
    (h : Changed ctx before.timesheetId (deleteEntryRow ctx id) l s v s' total) :
    Call (.deleteEntry ctx id) l s s'
  | submit {ctx id before t l s s'} (saw : FirstSaw l id before) (may : MayEdit ctx before)
    (filled : before.totalHours ≠ 0) (h : Moved id (submitted ctx) t s s') : Call (.submit ctx id) l s s'
  | approve {ctx id before t l s s'} (saw : FirstSaw l id before) (other : before.userId ≠ ctx.userId)
    (pending : before.status = .submitted) (h : Moved id (approved ctx) t s s') : Call (.approve ctx id) l s s'
  | reject {ctx id reason before t l s s'} (saw : FirstSaw l id before) (other : before.userId ≠ ctx.userId)
    (pending : before.status = .submitted) (h : Moved id (rejected reason) t s s') :
    Call (.reject ctx id reason) l s s'

/-! ### The calls of a method -/

section Methods

variable {α : Type} {P : List Books → Books → Books → Prop} {Q : Except HttpError α → List Books → Prop} {l : List Books}

theorem updateSheet_ok {ctx : Ctx} {id : Uuid} {f : Timesheet → Timesheet} {s s' : Books} {v : TimesheetView}
    (h : (updateSheet ctx id f).run s = (.ok v, s')) : ∃ t, Moved id f t s s' := by
  obtain ⟨⟨t', timesheets⟩, ht, h⟩ := Prog.bind_eq_ok.mp (Prog.run_call_ok.mp h)
  cases h
  obtain ⟨t, hfind, -, hf, hrows⟩ := updateRow_ok ht
  cases hf
  exact ⟨t, hfind, hrows, rfl⟩

/-- A query of the request, and what follows it. -/
theorem along_read {β : Type} (hsame : ∀ l s, P l s s) {f : Books → β} {k : β → Method α}
    (h : ∀ s, (k (f s)).Along P Q (s :: l)) : (Prog.read f >>= k).Along P Q l :=
  (Prog.along_read_bind f k l).mpr fun s => ⟨hsame l s, h s⟩

/-- Something, and what follows it. -/
theorem then_along {β : Type} {p : Method β} {k : β → Method α} (hp : p.Along P (fun _ l' => l <:+ l') l)
    (hk : ∀ a l', l <:+ l' → (k a).Along P (fun _ _ => True) l') : (p >>= k).Along P (fun _ _ => True) l := by
  rw [Prog.along_bind]
  refine hp.mono (fun _ _ _ _ h => h) ?_
  rintro (e | a) l' - hl
  · trivial
  · exact hk a l' hl

theorem after_along {β : Type} {p : Method β} {k : β → Method α} (hp : p.Along P (fun _ _ => True) l)
    (hk : ∀ a l', (k a).Along P (fun _ _ => True) l') : (p >>= k).Along P (fun _ _ => True) l :=
  then_along (hp.mono (fun _ _ _ _ h => h) fun _ _ hl _ => hl) fun a l' _ => hk a l'

theorem after_assertTimesheet {ctx : Ctx} {id : Uuid} {k : Timesheet → Method α} (hsame : ∀ l s, P l s s)
    (hk : ∀ s t, s.timesheets.find id = some t → (k t).Along P (fun _ _ => True) (s :: l)) :
    (assertTimesheet ctx id >>= k).Along P (fun _ _ => True) l := by
  unfold assertTimesheet
  rw [Prog.along_bind]
  refine (Prog.along_read_bind _ _ _).mpr fun s => ⟨hsame l s, ?_⟩
  cases hfind : ctx.findById s.timesheets id fun _ => true with
  | none => trivial
  | some t => exact hk s t (Ctx.findById_eq_some.mp hfind).1

/-- A program on the rest of the database. -/
theorem onDb_along {β : Type} (hquiet : ∀ l s s', Quiet s s' → P l s s') (p : Service β) (l : List Books) :
    (onDb p).Along P (fun _ _ => True) l := by
  unfold onDb
  induction p generalizing l with
  | ret a => trivial
  | fail e => trivial
  | act u k ih => exact fun s => ⟨hquiet _ _ _ rfl, ih (s.db) (s :: l)⟩

theorem ifGiven_along {assert : Uuid → Method Unit} (id : Option Uuid)
    (h : ∀ i l, (assert i).Along P (fun _ l' => l <:+ l') l) (l : List Books) :
    (ifGiven id assert).Along P (fun _ l' => l <:+ l') l := by
  cases id with
  | none => exact List.suffix_rfl
  | some i => exact h i l

theorem assertChargeCode_along (hsame : ∀ l s, P l s s) (ctx : Ctx) (id : Uuid) (l : List Books) :
    (assertChargeCode ctx id).Along P (fun _ l' => l <:+ l') l := by
  refine along_read hsame fun s => ?_
  rw [Prog.along_ite]
  split <;> exact List.suffix_cons s l

theorem assertEngagement_along (hsame : ∀ l s, P l s s) (ctx : Ctx) (id : Uuid) (l : List Books) :
    (assertEngagement ctx id).Along P (fun _ l' => l <:+ l') l := by
  refine along_read hsame fun s => ?_
  rw [Prog.along_ite]
  split <;> exact List.suffix_cons s l

/-- The transaction of a change of an entry makes one call that changes anything, its commit. -/
theorem changing_along {ctx : Ctx} {timesheetId : Uuid} {change : Books → Except HttpError (Unit × Books)}
    (hsame : ∀ l s, P l s s)
    (hcommit : ∀ l' s v s' total, l <:+ l' → Changed ctx timesheetId change l' s v s' total → P l' s s') :
    (changing ctx timesheetId change).Along P (fun _ _ => True) l := by
  unfold changing Txn.committed recalculateTotal
  refine Txn.along_exec (hsame l) (fun _ _ => trivial) fun s₀ _ _ _ _ _ => ?_
  refine Txn.along_query (hsame _) (fun _ _ => trivial) fun s₁ v₁ hv₁ => ?_
  rw [← Txn.exec_bind_ret]
  refine Txn.along_exec (hsame _) (fun _ _ => trivial) fun s₂ _ _ _ _ _ => ?_
  refine Txn.along_commit (hsame _) (fun _ _ => trivial) fun s s' hs => ⟨?_, trivial⟩
  -- The commit makes both writes once more.
  obtain ⟨v, _, hv, hset⟩ := Txn.followed_ok hs
  obtain ⟨_, _, hw, hv⟩ := Txn.followed_ok hv
  obtain ⟨_, _, hw₁, hv₁⟩ := Txn.followed_ok hv₁
  cases hw
  cases hw₁
  exact hcommit _ s v s' _ ⟨[s₂, s₁, s₀], rfl⟩ ⟨⟨s₁, v₁, rfl, hv₁, rfl⟩, hv, hset⟩

/-- An update of a sheet, and what is done with it. -/
theorem updateSheet_along {ctx : Ctx} {id : Uuid} {f : Timesheet → Timesheet} {β : Type}
    {k : TimesheetView → Method β} (hsame : ∀ l s, P l s s) (hmoved : ∀ l' t s s', l <:+ l' → Moved id f t s s' → P l' s s')
    (hk : ∀ v l', (k v).Along P (fun _ _ => True) l') : (updateSheet ctx id f >>= k).Along P (fun _ _ => True) l := by
  refine Prog.along_call_bind (fun s _ _ => ⟨hsame l s, trivial⟩) fun s v s' hcall => ?_
  obtain ⟨t, hmove⟩ := updateSheet_ok (Prog.run_call_ok.mpr hcall)
  exact ⟨hmoved l t s s' List.suffix_rfl hmove, hk v _⟩

end Methods

/-! ### The requests -/

theorem getLast?_of_suffix {α : Type} {l l' : List α} {a : α} (h : l.getLast? = some a) (hl : l <:+ l') :
    l'.getLast? = some a := by
  obtain ⟨front, rfl⟩ := hl
  simp [List.getLast?_append, h]

theorem FirstSaw.later {l l' : List Books} {id : Uuid} {sheet : Timesheet} (h : FirstSaw l id sheet) (hl : l <:+ l') :
    FirstSaw l' id sheet :=
  h.imp fun _ h => ⟨getLast?_of_suffix h.1 hl, h.2⟩

theorem FirstRead.later {l l' : List Books} {id : Uuid} {e : TimeEntry} (h : FirstRead l id e) (hl : l <:+ l') :
    FirstRead l' id e :=
  h.imp fun _ h => ⟨getLast?_of_suffix h.1 hl, h.2⟩

theorem assertCanEditOwn_ok {ctx : Ctx} {sheet : Timesheet} (h : assertCanEditOwn ctx sheet = .ok ()) :
    MayEdit ctx sheet := by
  unfold assertCanEditOwn at h
  split at h
  · cases h
  · rename_i howner
    split at h
    · cases h
    · rename_i heditable
      exact ⟨not_not.mp howner, by simpa using heditable⟩

section Requests

variable {P : List Books → Books → Books → Prop} {l : List Books}

theorem createChecked_along {ctx : Ctx} {timesheetId : Uuid} {dto : CreateTimeEntryDto}
    (hquiet : ∀ l s s', Quiet s s' → P l s s')
    (hcommit : ∀ l' s v s' total, l <:+ l' →
      Changed ctx timesheetId (insertEntry (ctx.uuid 0) (newEntry ctx timesheetId dto)) l' s v s' total → P l' s s') :
    (createChecked ctx timesheetId dto).Along P (fun _ _ => True) l := by
  have hsame : ∀ l s, P l s s := fun l s => hquiet l s s (Quiet.refl s)
  refine then_along (assertChargeCode_along hsame _ _ l) fun _ l₁ h₁ => ?_
  refine then_along (ifGiven_along _ (assertEngagement_along hsame ctx) l₁) fun _ l₂ h₂ => ?_
  refine after_along (changing_along hsame fun l' s v s' total hl => hcommit l' s v s' total ((h₁.trans h₂).trans hl)) ?_
  intro _ l₃
  refine along_read hsame fun s => ?_
  exact after_along (onDb_along hquiet _ _) fun _ _ => trivial

theorem updateChecked_along {ctx : Ctx} {id timesheetId : Uuid} {dto : UpdateTimeEntryDto}
    (hquiet : ∀ l s s', Quiet s s' → P l s s')
    (hcommit : ∀ l' s v s' total, l <:+ l' →
      Changed ctx timesheetId (updateEntryRow ctx id dto) l' s v s' total → P l' s s') :
    (updateChecked ctx id timesheetId dto).Along P (fun _ _ => True) l := by
  have hsame : ∀ l s, P l s s := fun l s => hquiet l s s (Quiet.refl s)
  refine then_along (ifGiven_along _ (assertChargeCode_along hsame ctx) l) fun _ l₁ h₁ => ?_
  refine then_along (ifGiven_along _ (assertEngagement_along hsame ctx) l₁) fun _ l₂ h₂ => ?_
  refine after_along (changing_along hsame fun l' s v s' total hl => hcommit l' s v s' total ((h₁.trans h₂).trans hl)) ?_
  intro _ l₃
  refine after_along (onDb_along hquiet _ _) fun _ l₄ => ?_
  exact fun s => ⟨hsame _ _, trivial⟩

end Requests

theorem createEntry_along (ctx : Ctx) (timesheetId : Uuid) (dto : CreateTimeEntryDto) :
    (createEntry ctx timesheetId dto).Along (Call (.createEntry ctx timesheetId dto)) (fun _ _ => True) [] := by
  have hsame : ∀ l s, Call (.createEntry ctx timesheetId dto) l s s := fun l s => .quiet (Quiet.refl s)
  unfold createEntry
  refine after_assertTimesheet hsame fun s sheet hfind => ?_
  have hsaw : FirstSaw [s] timesheetId sheet := ⟨s, rfl, hfind⟩
  cases hcheck : assertCanEditOwn ctx sheet with
  | error e => trivial
  | ok u =>
    rw [Prog.along_ite]
    split
    · trivial
    · rename_i hwithin
      refine createChecked_along (fun _ _ _ => .quiet) fun l' a v a' total hl hchanged => ?_
      exact .create (hsaw.later hl) (assertCanEditOwn_ok hcheck) (by simpa using hwithin) hchanged

/-- The entry and its sheet are read at once. -/
theorem after_findWithSheet {ctx : Ctx} {id : Uuid} {P : List Books → Books → Books → Prop} {α : Type}
    {k : TimeEntry × Timesheet → Method α} (hsame : ∀ l s, P l s s)
    (hk : ∀ s e t, s.entries.table.find id = some e → s.timesheets.find e.timesheetId = some t →
      (k (e, t)).Along P (fun _ _ => True) [s]) : (findWithSheet ctx id >>= k).Along P (fun _ _ => True) [] := by
  unfold findWithSheet
  rw [Prog.along_bind]
  refine (Prog.along_read_bind _ _ _).mpr fun s => ⟨hsame [] s, ?_⟩
  cases hfind : (ctx.findById s.entries.table id fun _ => true).bind fun e =>
      (s.timesheets.find e.timesheetId).map fun t => (e, t) with
  | none => trivial
  | some before =>
    obtain ⟨e, he, hmap⟩ := Option.bind_eq_some_iff.mp hfind
    obtain ⟨t, ht, rfl⟩ := Option.map_eq_some_iff.mp hmap
    exact hk s e t (Ctx.findById_eq_some.mp he).1 ht

theorem updateEntry_along (ctx : Ctx) (id : Uuid) (dto : UpdateTimeEntryDto) :
    (updateEntry ctx id dto).Along (Call (.updateEntry ctx id dto)) (fun _ _ => True) [] := by
  have hsame : ∀ l s, Call (.updateEntry ctx id dto) l s s := fun l s => .quiet (Quiet.refl s)
  unfold updateEntry
  refine after_findWithSheet hsame fun s before sheet hfind hsheet => ?_
  have hread : FirstRead [s] id before := ⟨s, rfl, hfind⟩
  have hsaw : FirstSaw [s] before.timesheetId sheet := ⟨s, rfl, hsheet⟩
  dsimp only
  cases hcheck : assertCanEditOwn ctx sheet with
  | error e => trivial
  | ok u =>
    rw [Prog.along_ite]
    split
    · trivial
    · rename_i hwithin
      refine updateChecked_along (fun _ _ _ => .quiet) fun l' a v a' total hl hchanged => ?_
      refine .update (hread.later hl) (hsaw.later hl) (assertCanEditOwn_ok hcheck) (fun date hdate => ?_) hchanged
      rw [hdate] at hwithin
      simpa using hwithin

theorem deleteEntry_along (ctx : Ctx) (id : Uuid) :
    (deleteEntry ctx id).Along (Call (.deleteEntry ctx id)) (fun _ _ => True) [] := by
  have hsame : ∀ l s, Call (.deleteEntry ctx id) l s s := fun l s => .quiet (Quiet.refl s)
  unfold deleteEntry
  refine after_findWithSheet hsame fun s before sheet hfind hsheet => ?_
  have hread : FirstRead [s] id before := ⟨s, rfl, hfind⟩
  have hsaw : FirstSaw [s] before.timesheetId sheet := ⟨s, rfl, hsheet⟩
  dsimp only
  cases hcheck : assertCanEditOwn ctx sheet with
  | error e => trivial
  | ok u =>
    refine after_along (changing_along hsame fun l' a v a' total hl hchanged => ?_) fun _ l' => ?_
    · exact .delete (hread.later hl) (hsaw.later hl) (assertCanEditOwn_ok hcheck) hchanged
    · exact onDb_along (fun _ _ _ => .quiet) _ _

theorem submit_along (ctx : Ctx) (id : Uuid) :
    (submit ctx id).Along (Call (.submit ctx id)) (fun _ _ => True) [] := by
  have hsame : ∀ l s, Call (.submit ctx id) l s s := fun l s => .quiet (Quiet.refl s)
  unfold submit
  refine after_assertTimesheet hsame fun s before hfind => ?_
  have hsaw : FirstSaw [s] id before := ⟨s, rfl, hfind⟩
  simp only [Prog.along_ite]
  split_ifs with howner heditable hfilled
  · trivial
  · trivial
  · trivial
  · have hmay : MayEdit ctx before := ⟨not_not.mp howner, by simpa using heditable⟩
    refine updateSheet_along hsame (fun l' t s' s'' hl hmove => .submit (hsaw.later hl) hmay hfilled hmove) fun v l' => ?_
    exact after_along (onDb_along (fun _ _ _ => .quiet) _ _) fun _ _ => trivial

theorem approve_along (ctx : Ctx) (id : Uuid) :
    (approve ctx id).Along (Call (.approve ctx id)) (fun _ _ => True) [] := by
  have hsame : ∀ l s, Call (.approve ctx id) l s s := fun l s => .quiet (Quiet.refl s)
  unfold approve
  rw [Prog.along_ite]
  split
  · trivial
  refine after_assertTimesheet hsame fun s before hfind => ?_
  have hsaw : FirstSaw [s] id before := ⟨s, rfl, hfind⟩
  simp only [Prog.along_ite]
  split_ifs with hother hpending
  · trivial
  · trivial
  · refine updateSheet_along hsame (fun l' t s' s'' hl hmove => ?_) fun v l' => ?_
    · exact .approve (hsaw.later hl) hother (not_not.mp hpending) hmove
    · exact after_along (onDb_along (fun _ _ _ => .quiet) _ _) fun _ _ => trivial

theorem reject_along (ctx : Ctx) (id : Uuid) (reason : String) :
    (reject ctx id reason).Along (Call (.reject ctx id reason)) (fun _ _ => True) [] := by
  have hsame : ∀ l s, Call (.reject ctx id reason) l s s := fun l s => .quiet (Quiet.refl s)
  unfold reject
  rw [Prog.along_ite]
  split
  · trivial
  refine after_assertTimesheet hsame fun s before hfind => ?_
  have hsaw : FirstSaw [s] id before := ⟨s, rfl, hfind⟩
  simp only [Prog.along_ite]
  split_ifs with hother hpending
  · trivial
  · trivial
  · refine updateSheet_along hsame (fun l' t s' s'' hl hmove => ?_) fun v l' => ?_
    · exact .reject (hsaw.later hl) hother (not_not.mp hpending) hmove
    · exact after_along (onDb_along (fun _ _ _ => .quiet) _ _) fun _ _ => trivial

/-- Every request makes calls as `Call` says. -/
theorem serve_along (r : Request) : (serve r).Along (Call r) (fun _ _ => True) [] := by
  unfold serve
  rw [Prog.along_ite]
  split
  · trivial
  cases r with
  | createEntry ctx timesheetId dto => exact (createEntry_along ctx timesheetId dto).map _
  | updateEntry ctx id dto => exact (updateEntry_along ctx id dto).map _
  | deleteEntry ctx id => exact (deleteEntry_along ctx id).map _
  | submit ctx id => exact (submit_along ctx id).map _
  | approve ctx id => exact (approve_along ctx id).map _
  | reject ctx id reason => exact (reject_along ctx id reason).map _

end AuditSphere.Timesheets
