import AuditSphere.Timesheets.Runs

/-!
# Submitted timesheets

A sheet that is submitted or approved is to be left alone, and it is approved by someone else once
it is submitted (`Frozen`). The status is checked on a row that is read before the change is made:
an entry may be committed after the sheet was approved, and an approval may overtake a rejection.

Whom the sheet belongs to and its week do not change, so that an approver is never the owner and
the dates of all entries are in the week, whatever the order of the requests.
-/

namespace AuditSphere.Timesheets

open Prisma Theory Shared

/-- The entries of a sheet. -/
def entriesIn (s : Books) (timesheetId : Uuid) : List (WithId TimeEntry) :=
  s.entries.table.rows fun _ e => e.timesheetId = timesheetId

/-- The approval of a sheet, if it is approved: by whom, and when. -/
def approval (t : Timesheet) : Option (Option Uuid × Option Date) :=
  if t.status = .approved then some (t.approvedById, t.approvedAt) else none

/-- A step leaves the entries of a submitted or approved sheet, and approves it only if it is submitted. -/
structure Frozen (timesheetId : Uuid) (s s' : Books) : Prop where
  entries : ∀ t, s.timesheets.find timesheetId = some t → t.status = .submitted ∨ t.status = .approved →
    (entriesIn s' timesheetId).Perm (entriesIn s timesheetId)
  approves : ∀ t', s'.timesheets.find timesheetId = some t' → t'.status = .approved →
    ∃ t, s.timesheets.find timesheetId = some t ∧ (t.status = .submitted ∨ approval t' = approval t)

/-- The status on which an edit of an entry, or an approval, rests. -/
def Request.accepts (r : Request) (status : TimesheetStatus) : Bool :=
  match r with
  | .createEntry .. | .updateEntry .. | .deleteEntry .. => editable status
  | .approve .. => status = .submitted
  | .submit .. | .reject .. => true

/-! ### Steps -/

theorem entriesIn_perm_iff {s s' : Books} {timesheetId : Uuid} :
    (entriesIn s timesheetId).Perm (entriesIn s' timesheetId) ↔ ∀ j e, e.timesheetId = timesheetId →
      (s.entries.table.find j = some e ↔ s'.entries.table.find j = some e) := by
  constructor
  · intro h j e he
    have hmem := h.mem_iff (a := (j, e))
    rw [entriesIn, entriesIn, Table.mem_rows_iff, Table.mem_rows_iff] at hmem
    simpa [he] using hmem
  · refine fun h => Table.rows_perm fun j e => ?_
    rw [decide_eq_true_iff]
    exact and_congr_left (h j e)

theorem not_editable {status : TimesheetStatus} : editable status = false ↔ status = .submitted ∨ status = .approved := by
  cases status <;> decide

/-- An edit leaves the entries of other sheets. -/
theorem Recounted.entriesIn_other {ctx : Ctx} {timesheetId other id : Uuid} {old new : Option TimeEntry} {total : ℕ}
    {s v s' : Books} (h : Recounted ctx other id old new total s v s') (hother : other ≠ timesheetId) :
    (entriesIn s' timesheetId).Perm (entriesIn s timesheetId) := by
  refine entriesIn_perm_iff.mpr fun j e he => ?_
  rw [h.entries]
  split
  · rename_i hj
    rw [hj, h.edited.found]
    constructor
    · exact fun hnew => absurd ((h.of_new e hnew).symm.trans he) hother
    · exact fun hold => absurd ((h.of_old e hold).symm.trans he) hother
  · rfl

/-- It does not touch the status or the approval of a sheet. -/
theorem Recounted.sheet {ctx : Ctx} {timesheetId other id : Uuid} {old new : Option TimeEntry} {total : ℕ}
    {s v s' : Books} (h : Recounted ctx other id old new total s v s') {t' : Timesheet}
    (ht' : s'.timesheets.find timesheetId = some t') :
    ∃ t, s.timesheets.find timesheetId = some t ∧ t'.status = t.status ∧ approval t' = approval t := by
  obtain ⟨t, ht, -, hrows⟩ := h.sheets
  rw [hrows] at ht'
  split at ht'
  · rename_i heq
    cases ht'
    exact ⟨t, heq ▸ ht, rfl, rfl⟩
  · exact ⟨t', ht', rfl, rfl⟩

/-- A step changes the entries of the sheet, or its approval. -/
def Touched (timesheetId : Uuid) (s s' : Books) : Prop :=
  ¬(entriesIn s' timesheetId).Perm (entriesIn s timesheetId) ∨
    (s'.timesheets.find timesheetId).map approval ≠ (s.timesheets.find timesheetId).map approval

/-- The check of the status would end as it did when the request made it. -/
def Relied (timesheetId : Uuid) (r : Request) (l : List Books) (s : Books) : Prop :=
  ∀ b ∈ l.getLast?, ∀ before ∈ b.timesheets.find timesheetId, ∀ t ∈ s.timesheets.find timesheetId,
    r.accepts t.status = r.accepts before.status

/-- A step that leaves the entries and the approval is one that is allowed. -/
theorem frozen_of_untouched {timesheetId : Uuid} {s s' : Books} (h : ¬Touched timesheetId s s') :
    Frozen timesheetId s s' := by
  unfold Touched at h
  push Not at h
  obtain ⟨hentries, happroval⟩ := h
  refine ⟨fun _ _ _ => hentries, fun t' ht' _ => ?_⟩
  rw [ht', Option.map_some, eq_comm, Option.map_eq_some_iff] at happroval
  obtain ⟨t, ht, heq⟩ := happroval
  exact ⟨t, ht, .inr heq.symm⟩

theorem not_touched {timesheetId : Uuid} {s s' : Books} (hentries : (entriesIn s' timesheetId).Perm (entriesIn s timesheetId))
    (happroval : (s'.timesheets.find timesheetId).map approval = (s.timesheets.find timesheetId).map approval) :
    ¬Touched timesheetId s s' :=
  fun h => h.elim (fun hne => hne hentries) fun hne => hne happroval

theorem Frozen.refl (timesheetId : Uuid) (s : Books) : Frozen timesheetId s s :=
  frozen_of_untouched (not_touched (List.Perm.refl _) rfl)

theorem FirstSaw.unique {l : List Books} {id : Uuid} {sheet : Timesheet} (h : FirstSaw l id sheet) :
    ∀ b ∈ l.getLast?, ∀ before ∈ b.timesheets.find id, before = sheet := by
  obtain ⟨s₀, hlast, hfind⟩ := h
  intro b hb before hbefore
  cases hlast.symm.trans hb
  exact Option.some.inj (hbefore.symm.trans hfind)

theorem Edits.accepts {r : Request} {timesheetId id : Uuid} {old new : Option TimeEntry}
    (h : Edits r timesheetId id old new) : r.accepts = editable := by
  cases h <;> rfl

/-- An edit of an entry is allowed, if it changes anything, exactly when the sheet is still editable. -/
theorem Recounted.leaves_iff {r : Request} {l : List Books} {timesheetId id : Uuid} {old new : Option TimeEntry}
    {total : ℕ} {s v s' : Books} (h : Recounted r.ctx timesheetId id old new total s v s')
    (edits : Edits r timesheetId id old new) {sheet : Timesheet} (hsaw : FirstSaw l timesheetId sheet)
    (may : MayEdit r.ctx sheet) (htouched : Touched timesheetId s s') :
    Frozen timesheetId s s' ↔ Relied timesheetId r l s := by
  obtain ⟨t, ht, -, hrows⟩ := h.sheets
  -- The approval stays, so that it is the entries that are changed.
  have hchanged : ¬(entriesIn s' timesheetId).Perm (entriesIn s timesheetId) := by
    refine fun hsame => not_touched hsame ?_ htouched
    rw [hrows, if_pos rfl, ht]
    rfl
  constructor
  · intro hfrozen b hb before hbefore t' ht'
    cases hsaw.unique b hb before hbefore
    cases ht.symm.trans ht'
    rw [edits.accepts, may.2]
    by_contra hstatus
    exact hchanged (hfrozen.entries t ht (not_editable.mp (Bool.eq_false_iff.mpr hstatus)))
  · intro hrelied
    obtain ⟨b, hb, hbefore⟩ := hsaw
    have hstatus := hrelied b hb sheet hbefore t ht
    rw [edits.accepts, may.2] at hstatus
    constructor
    · intro t' ht' hclosed
      cases ht.symm.trans ht'
      rw [not_editable.mpr hclosed] at hstatus
      cases hstatus
    · intro t' ht' _
      obtain ⟨t₁, ht₁, -, heq⟩ := h.sheet ht'
      exact ⟨t₁, ht₁, .inr heq⟩

/-- An approval is allowed, if it changes anything, exactly when the sheet is still submitted. -/
theorem approve_frozen_iff {ctx : Ctx} {l : List Books} {id : Uuid} {t : Timesheet} {s s' : Books}
    (h : Moved id (approved ctx) t s s') {before : Timesheet} (hsaw : FirstSaw l id before)
    (pending : before.status = .submitted) (htouched : Touched id s s') :
    Frozen id s s' ↔ Relied id (.approve ctx id) l s := by
  have hrow : s'.timesheets.find id = some (approved ctx t) := (h.rows id).trans (if_pos rfl)
  have hentries : entriesIn s' id = entriesIn s id := by
    rw [h.rest]
    rfl
  have hchanged : approval (approved ctx t) ≠ approval t := by
    refine fun hsame => not_touched (List.Perm.of_eq hentries) ?_ htouched
    rw [hrow, h.row, Option.map_some, Option.map_some, hsame]
  constructor
  · intro hfrozen b hb before' hbefore t' ht'
    cases hsaw.unique b hb before' hbefore
    cases h.row.symm.trans ht'
    obtain ⟨t₁, ht₁, hstatus⟩ := hfrozen.approves _ hrow rfl
    cases h.row.symm.trans ht₁
    have hsubmitted : t.status = .submitted := hstatus.resolve_right hchanged
    simp [Request.accepts, hsubmitted, pending]
  · intro hrelied
    obtain ⟨b, hb, hbefore⟩ := hsaw
    have hstatus := hrelied b hb before hbefore t h.row
    refine ⟨fun _ _ _ => List.Perm.of_eq hentries, fun _ _ _ => ⟨t, h.row, .inl ?_⟩⟩
    simpa [Request.accepts, pending] using hstatus

/-- A change of the status alone is allowed, unless it is an approval. -/
theorem Moved.frozen_of_unapproved {id : Uuid} {f : Timesheet → Timesheet} {t : Timesheet} {s s' : Books}
    (h : Moved id f t s s') (hf : (f t).status ≠ .approved) : Frozen id s s' := by
  constructor
  · intro _ _ _
    rw [h.rest]
    exact List.Perm.refl _
  · intro t' ht' hstatus
    rw [h.rows, if_pos rfl, Option.some.injEq] at ht'
    exact absurd (ht' ▸ hstatus) hf

theorem Effect.leaves_iff {r : Request} {l : List Books} {timesheetId : Uuid} {s s' : Books} (h : Effect r l s s') :
    Frozen timesheetId s s' ↔ (Touched timesheetId s s' → Relied timesheetId r l s) := by
  by_cases htouched : Touched timesheetId s s'
  · refine Iff.trans ?_ (forall_prop_of_true htouched).symm
    cases h with
    | quiet h =>
      refine absurd htouched (not_touched ?_ ?_) <;> rw [h]
      exact List.Perm.refl _
    | recounted other id old new total v h edits summed checked =>
      by_cases hother : other = timesheetId
      · subst hother
        obtain ⟨sheet, hsaw, may, -⟩ := checked
        exact h.leaves_iff edits hsaw may htouched
      · obtain ⟨t, ht, -, hrows⟩ := h.sheets
        refine absurd htouched (not_touched (h.entriesIn_other hother) ?_)
        rw [hrows, if_neg (Ne.symm hother)]
    | moved id f t h move checked =>
      have hentries : entriesIn s' timesheetId = entriesIn s timesheetId := by
        rw [h.rest]
        rfl
      by_cases hid : id = timesheetId
      · subst hid
        obtain ⟨before, hsaw, hbefore⟩ := checked
        rcases move with ⟨ctx, rfl, rfl⟩ | ⟨ctx, rfl, rfl⟩ | ⟨ctx, reason, rfl, rfl⟩
        · exact iff_of_true (h.frozen_of_unapproved nofun) fun _ _ _ _ _ _ => rfl
        · exact approve_frozen_iff h hsaw (hbefore ctx rfl).2 htouched
        · exact iff_of_true (h.frozen_of_unapproved nofun) fun _ _ _ _ _ _ => rfl
      · refine absurd htouched (not_touched (List.Perm.of_eq hentries) ?_)
        rw [h.rows, if_neg (Ne.symm hid)]
  · exact iff_of_true (frozen_of_untouched htouched) fun h => absurd h htouched

/-! ### Runs -/

section Runs

variable (timesheetId : Uuid) (s₀ : Books)

/-- Whenever a turn changes the entries of the sheet, or its approval, the check of the status would end
as it did when the request made it. -/
def Rechecked (past : List (Event Request)) : Event Request → Prop
  | .start _ => True
  | .turn i => Touched timesheetId (at_ s₀ past) (at_ s₀ (.turn i :: past)) →
      ∀ r ∈ requested serve s₀ i past, Relied timesheetId r (saw s₀ i past) (at_ s₀ past)

/-- The sheet is frozen while it is submitted or approved, and what is kept is kept. -/
def Lawful (past : List (Event Request)) (e : Event Request) : Prop :=
  Frozen timesheetId (at_ s₀ past) (at_ s₀ (e :: past)) ∧ Kept (at_ s₀ (e :: past))

variable {timesheetId s₀}

theorem frozen_turn_iff (past : List (Event Request)) (i : ℕ) :
    Frozen timesheetId (at_ s₀ past) (at_ s₀ (.turn i :: past)) ↔ Rechecked timesheetId s₀ past (.turn i) := by
  rcases turn_effect s₀ past i with hsame | ⟨r, hr, heffect⟩
  · refine iff_of_true (hsame ▸ Frozen.refl _ _) fun htouched => ?_
    rw [hsame] at htouched
    exact absurd htouched (not_touched (List.Perm.refl _) rfl)
  · refine heffect.leaves_iff.trans (imp_congr_right fun _ => ?_)
    rw [hr]
    exact ⟨fun h r' hr' => Option.some.inj hr' ▸ h, fun h => h r rfl⟩

end Runs

/-- **A submitted timesheet is frozen** in exactly the runs in which, whenever the entries of the sheet or its
approval change, the check of the status would end as it did when the request made it. -/
theorem frozen_iff (timesheetId : Uuid) (s₀ : Books) (h₀ : Kept s₀) (evs : List (Event Request)) :
    Every (Lawful timesheetId s₀) evs ↔ Every (Rechecked timesheetId s₀) evs := by
  induction evs with
  | nil => exact Iff.rfl
  | cons e past ih =>
    refine and_congr ?_ ih
    cases e with
    | start r => exact iff_of_true ⟨Frozen.refl _ _, kept_at h₀ (.start r :: past)⟩ trivial
    | turn i => exact (and_iff_left (kept_at h₀ (.turn i :: past))).trans (frozen_turn_iff past i)

instance (timesheetId : Uuid) (s s' : Books) : Decidable (Touched timesheetId s s') :=
  inferInstanceAs (Decidable (¬List.Perm _ _ ∨ _ ≠ _))

instance (timesheetId : Uuid) (r : Request) (l : List Books) (s : Books) : Decidable (Relied timesheetId r l s) :=
  inferInstanceAs (Decidable (∀ b ∈ l.getLast?, ∀ before ∈ b.timesheets.find timesheetId,
    ∀ t ∈ s.timesheets.find timesheetId, r.accepts t.status = r.accepts before.status))

instance (timesheetId : Uuid) (s₀ : Books) (past : List (Event Request)) (e : Event Request) :
    Decidable (Rechecked timesheetId s₀ past e) :=
  match e with
  | .start _ => .isTrue trivial
  | .turn i => inferInstanceAs (Decidable (_ → ∀ r ∈ requested serve s₀ i past, _))

/-- Ann enters hours twice and submits; Ben approves, and Cleo rejects. -/
def reviewing : List (Event Request) :=
  [.start (.reject (member 3 150) 20 "Too few"), .start (.approve (member 2 140) 20), .start (.submit (member 1 130) 20),
    .start (enter 110 ⟨3, three_hours⟩), .start (enter 100 ⟨2, two_hours⟩)]

/-- All hours are entered, and submitted; Ben approves. -/
theorem frozen_iff_reviewing :
    Every (Lawful 20 week) (turns 3 3 ++ turns 2 3 ++ turns 1 8 ++ turns 0 8 ++ reviewing) :=
  (frozen_iff 20 week kept_week _).mpr (by decide +kernel)

/-- The second entry is checked, and before it is committed the sheet is submitted and approved. -/
def approvedMeanwhile : List (Event Request) :=
  turns 1 4 ++ turns 3 3 ++ turns 2 3 ++ turns 1 1 ++ turns 0 8 ++ reviewing

/-- The approval is checked, and before it is written the sheet is rejected. -/
def rejectedMeanwhile : List (Event Request) :=
  turns 4 3 ++ turns 3 1 ++ turns 2 3 ++ turns 0 8 ++ reviewing

/-- An entry is added to an approved sheet, and a rejected sheet is approved. -/
theorem closed_sheet_changed :
    (((at_ week approvedMeanwhile).timesheets.find 20).map Timesheet.status = some .approved ∧
      (entriesIn (at_ week approvedMeanwhile) 20).map Prod.fst = [100] ∧
      (entriesIn (at_ week (.turn 1 :: approvedMeanwhile)) 20).map Prod.fst = [110, 100] ∧
      ¬Every (Lawful 20 week) (.turn 1 :: approvedMeanwhile)) ∧
    ((at_ week rejectedMeanwhile).timesheets.find 20).map Timesheet.status = some .rejected ∧
    ((at_ week (.turn 3 :: rejectedMeanwhile)).timesheets.find 20).map Timesheet.status = some .approved ∧
    ¬Every (Lawful 20 week) (.turn 3 :: rejectedMeanwhile) := by
  have happroved : ((at_ week approvedMeanwhile).timesheets.find 20).map Timesheet.status = some .approved := by
    decide +kernel
  have hrejected : ((at_ week rejectedMeanwhile).timesheets.find 20).map Timesheet.status = some .rejected := by
    decide +kernel
  have hafter : ((at_ week (.turn 3 :: rejectedMeanwhile)).timesheets.find 20).map Timesheet.status =
      some .approved := by decide +kernel
  refine ⟨⟨happroved, by decide +kernel, by decide +kernel, fun h => ?_⟩, hrejected, hafter, fun h => ?_⟩
  · obtain ⟨t, ht, hstatus⟩ := Option.map_eq_some_iff.mp happroved
    have hsame := h.1.1.entries t ht (.inr hstatus)
    revert hsame
    decide +kernel
  · obtain ⟨t', ht', hstatus'⟩ := Option.map_eq_some_iff.mp hafter
    obtain ⟨t, ht, hstatus⟩ := h.1.1.approves t' ht' hstatus'
    rw [ht, Option.map_some, Option.some.injEq] at hrejected
    rcases hstatus with hsubmitted | hsame
    · rw [hrejected] at hsubmitted
      cases hsubmitted
    · simp [approval, hstatus', hrejected] at hsame

end AuditSphere.Timesheets
