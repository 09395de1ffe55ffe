import AuditSphere.Timesheets.Calls
import AuditSphere.Workpapers.History

/-!
# Timesheets over a run

What a call of a request does to the entries and to the sheets (`Edited`, `Totalled`, `Moved`),
and what is kept in every run: sheets stay, with their owner and week, and an entry stays in its
sheet (`Later`); the tenant and the date of an entry are those of its sheet, and nobody approves
his own (`Kept`).
-/

namespace AuditSphere.Timesheets

open Prisma Theory Shared

/-! ### Writes -/

/-- A write of one entry. -/
structure Edited (id : Uuid) (old new : Option TimeEntry) (s v : Books) : Prop where
  found : s.entries.table.find id = old
  rows : ∀ j, v.entries.table.find j = if j = id then new else s.entries.table.find j
  drawn : v.entries.drawn = if old.isNone then id :: s.entries.drawn else s.entries.drawn
  unused : old = none → id ∉ s.entries.drawn
  rest : v = { s with entries := v.entries }

/-- A write of the total of a sheet. -/
structure Totalled (ctx : Ctx) (id : Uuid) (total : ℕ) (t : Timesheet) (v s' : Books) : Prop where
  row : v.timesheets.find id = some t
  tenant : t.tenantId = ctx.tenantId
  rows : ∀ j, s'.timesheets.find j = if j = id then some { t with totalHours := total } else v.timesheets.find j
  rest : s' = { v with timesheets := s'.timesheets }

theorem constrained_ok {b : Books} {e : TimeEntry} (h : constrained b e = .ok ()) :
    ∃ t, b.timesheets.find e.timesheetId = some t := by
  unfold constrained at h
  split at h
  · rename_i hrefers
    rw [Bool.and_eq_true, Bool.and_eq_true] at hrefers
    exact (refersTo_iff.mp hrefers.1.1) _ rfl
  · cases h

theorem insertEntry_ok {id : Uuid} {e : TimeEntry} {s v : Books} (h : insertEntry id e s = .ok ((), v)) :
    Edited id none (some e) s v ∧ ∃ t, s.timesheets.find e.timesheetId = some t := by
  obtain ⟨⟨⟩, hc, h⟩ := Prog.bind_eq_ok.mp h
  cases hinsert : s.entries.insert id e with
  | none =>
    rw [hinsert] at h
    cases h
  | some entries =>
    rw [hinsert] at h
    cases h
    obtain ⟨hunused, htable, hdrawn⟩ := Register.insert_eq_some hinsert
    refine ⟨⟨?_, fun j => ?_, hdrawn, fun _ => hunused, rfl⟩, constrained_ok hc⟩
    · exact Option.eq_none_iff_forall_ne_some.mpr fun e he => hunused (Register.mem_drawn he)
    · rw [htable, Table.find_put]

theorem updateEntryRow_ok {ctx : Ctx} {id : Uuid} {dto : UpdateTimeEntryDto} {s v : Books}
    (h : updateEntryRow ctx id dto s = .ok ((), v)) :
    ∃ e e', dto.apply e = .ok e' ∧ Edited id (some e) (some e') s v := by
  unfold updateEntryRow at h
  cases hfind : ctx.findById s.entries.table id fun _ => true with
  | none =>
    rw [hfind] at h
    cases h
  | some e =>
    rw [hfind] at h
    obtain ⟨e', happly, h⟩ := Prog.bind_eq_ok.mp h
    obtain ⟨⟨⟩, -, h⟩ := Prog.bind_eq_ok.mp h
    cases h
    have hrow := (Ctx.findById_eq_some.mp hfind).1
    refine ⟨e, e', happly, hrow, fun j => ?_, rfl, (fun h => by cases h), rfl⟩
    by_cases hj : j = id
    · subst hj
      simp [Register.modify, hrow]
    · simp [Register.modify, hj]

theorem deleteEntryRow_ok {ctx : Ctx} {id : Uuid} {s v : Books} (h : deleteEntryRow ctx id s = .ok ((), v)) :
    ∃ e, Edited id (some e) none s v := by
  unfold deleteEntryRow at h
  split at h
  · cases h
  · rename_i hsome
    cases h
    obtain ⟨e, he⟩ := Option.ne_none_iff_exists'.mp (by simpa using hsome)
    refine ⟨e, (Ctx.findById_eq_some.mp he).1, fun j => ?_, rfl, (fun h => by cases h), rfl⟩
    by_cases hj : j = id
    · subst hj
      simp [Register.remove]
    · cases hfind : s.entries.table.find j <;> simp [Register.remove, hj, hfind]

theorem setTotal_ok {ctx : Ctx} {id : Uuid} {total : ℕ} {v s' : Books} (h : setTotal ctx id total v = .ok ((), s')) :
    ∃ t, Totalled ctx id total t v s' := by
  unfold setTotal at h
  split at h
  · cases h
  · obtain ⟨⟨t', timesheets⟩, ht, h⟩ := Prog.bind_eq_ok.mp h
    cases h
    obtain ⟨t, hfind, hsees, hf, hrows⟩ := updateRow_ok ht
    cases hf
    exact ⟨t, hfind, (Ctx.sees_iff_tenant rfl).mp hsees, hrows, rfl⟩

theorem apply_ok {dto : UpdateTimeEntryDto} {e e' : TimeEntry} (h : dto.apply e = .ok e') :
    e'.tenantId = e.tenantId ∧ e'.timesheetId = e.timesheetId ∧ e'.date = dto.day.getD e.date ∧
      Field.onRequired (dto.hours.map (Option.map hundredths)) e.hours = some e'.hours := by
  unfold UpdateTimeEntryDto.apply at h
  split at h
  · rename_i hhours
    cases h
    exact ⟨rfl, rfl, rfl, hhours⟩
  · cases h

/-! ### What stays -/

/-- The sheet is of the same tenant, user and week. -/
structure Persists (t t' : Timesheet) : Prop where
  tenant : t'.tenantId = t.tenantId
  user : t'.userId = t.userId
  week : t'.weekStart = t.weekStart

theorem Persists.trans {t t' t'' : Timesheet} (h : Persists t t') (h' : Persists t' t'') : Persists t t'' :=
  ⟨h'.tenant.trans h.tenant, h'.user.trans h.user, h'.week.trans h.week⟩

/-- Sheets stay, and entries in their sheets; the id of an entry stays its own. -/
structure Later (s s' : Books) : Prop where
  sheet : ∀ ⦃id t⦄, s.timesheets.find id = some t → ∃ t', s'.timesheets.find id = some t' ∧ Persists t t'
  drawn : ∀ ⦃id⦄, id ∈ s.entries.drawn → id ∈ s'.entries.drawn
  entry : ∀ ⦃id e'⦄, id ∈ s.entries.drawn → s'.entries.table.find id = some e' →
    ∃ e, s.entries.table.find id = some e ∧ e'.timesheetId = e.timesheetId

theorem Later.refl (s : Books) : Later s s :=
  ⟨fun _ t h => ⟨t, h, rfl, rfl, rfl⟩, fun _ h => h, fun _ e _ h => ⟨e, h, rfl⟩⟩

theorem Later.trans {a b c : Books} (h : Later a b) (h' : Later b c) : Later a c where
  sheet id t ht := by
    obtain ⟨t', ht', hsame⟩ := h.sheet ht
    obtain ⟨t'', ht'', hsame'⟩ := h'.sheet ht'
    exact ⟨t'', ht'', hsame.trans hsame'⟩
  drawn _ hid := h'.drawn (h.drawn hid)
  entry id e'' hid he'' := by
    obtain ⟨e', he', heq'⟩ := h'.entry (h.drawn hid) he''
    obtain ⟨e, he, heq⟩ := h.entry hid he'
    exact ⟨e, he, heq'.trans heq⟩

theorem Quiet.later {s s' : Books} (h : Quiet s s') : Later s s' := by
  rw [h]
  exact ⟨fun _ t h => ⟨t, h, rfl, rfl, rfl⟩, fun _ h => h, fun _ e _ h => ⟨e, h, rfl⟩⟩

theorem Edited.later {id : Uuid} {old new : Option TimeEntry} {s v : Books} (h : Edited id old new s v)
    (hnew : ∀ e', new = some e' → ∀ e, old = some e → e'.timesheetId = e.timesheetId) : Later s v where
  sheet _ t ht := ⟨t, by rw [h.rest]; exact ht, rfl, rfl, rfl⟩
  drawn j hj := by
    rw [h.drawn]
    split
    · exact List.mem_cons_of_mem _ hj
    · exact hj
  entry j e' hj he' := by
    rw [h.rows] at he'
    split at he'
    · rename_i heq
      subst heq
      cases hold : old with
      | none => exact absurd hj (h.unused hold)
      | some e => exact ⟨e, h.found.trans hold, hnew e' he' e hold⟩
    · exact ⟨e', he', rfl⟩

theorem Totalled.later {ctx : Ctx} {id : Uuid} {total : ℕ} {t : Timesheet} {v s' : Books}
    (h : Totalled ctx id total t v s') : Later v s' where
  sheet j t' ht' := by
    rw [h.rows]
    by_cases hj : j = id
    · subst hj
      cases h.row.symm.trans ht'
      exact ⟨_, if_pos rfl, rfl, rfl, rfl⟩
    · exact ⟨t', (if_neg hj).trans ht', rfl, rfl, rfl⟩
  drawn j hj := by
    rw [h.rest]
    exact hj
  entry j e hj he := by
    rw [h.rest] at he
    exact ⟨e, he, rfl⟩

theorem Moved.later {id : Uuid} {f : Timesheet → Timesheet} {t : Timesheet} {s s' : Books} (h : Moved id f t s s')
    (hf : Persists t (f t)) : Later s s' where
  sheet j t' ht' := by
    rw [h.rows]
    by_cases hj : j = id
    · subst hj
      cases h.row.symm.trans ht'
      exact ⟨_, if_pos rfl, hf⟩
    · exact ⟨t', (if_neg hj).trans ht', rfl, rfl, rfl⟩
  drawn j hj := by
    rw [h.rest]
    exact hj
  entry j e hj he := by
    rw [h.rest] at he
    exact ⟨e, he, rfl⟩

/-! ### What a call does -/

/-- A change of an entry as it is committed, with the total of its sheet. -/
structure Recounted (ctx : Ctx) (timesheetId id : Uuid) (old new : Option TimeEntry) (total : ℕ) (s v s' : Books) :
    Prop where
  edited : Edited id old new s v
  totalled : ∃ t, Totalled ctx timesheetId total t v s'
  of_old : ∀ e, old = some e → e.timesheetId = timesheetId
  of_new : ∀ e, new = some e → e.timesheetId = timesheetId

/-- The change that a request makes of an entry. -/
inductive Edits : Request → Uuid → Uuid → Option TimeEntry → Option TimeEntry → Prop where
  | create {ctx timesheetId dto} :
    Edits (.createEntry ctx timesheetId dto) timesheetId (ctx.uuid 0) none (some (newEntry ctx timesheetId dto))
  | update {ctx timesheetId id dto e e'} (h : dto.apply e = .ok e') :
    Edits (.updateEntry ctx id dto) timesheetId id (some e) (some e')
  | delete {ctx timesheetId id e} : Edits (.deleteEntry ctx id) timesheetId id (some e) none

/-- What a call of a request does to timesheets. -/
inductive Effect (r : Request) (l : List Books) (s s' : Books) : Prop where
  | quiet (h : Quiet s s')
  | recounted (timesheetId id : Uuid) (old new : Option TimeEntry) (total : ℕ) (v : Books)
    (h : Recounted r.ctx timesheetId id old new total s v s') (edits : Edits r timesheetId id old new)
    (summed : ∃ s₁ v₁ old₁ new₁, l[1]? = some s₁ ∧ Edited id old₁ new₁ s₁ v₁ ∧ Edits r timesheetId id old₁ new₁ ∧
      total = hoursOf r.ctx v₁ timesheetId)
    (checked : ∃ sheet, FirstSaw l timesheetId sheet ∧ MayEdit r.ctx sheet ∧
      ∀ e, new = some e → isWithinWeek e.date sheet.weekStart = true ∨ ∃ e₀, old = some e₀ ∧ e.date = e₀.date)
  | moved (id : Uuid) (f : Timesheet → Timesheet) (t : Timesheet) (h : Moved id f t s s')
    (move : (∃ ctx, r = .submit ctx id ∧ f = submitted ctx) ∨ (∃ ctx, r = .approve ctx id ∧ f = approved ctx) ∨
      ∃ ctx reason, r = .reject ctx id reason ∧ f = rejected reason)
    (checked : ∃ before, FirstSaw l id before ∧ (∀ ctx, r = .approve ctx id → before.userId ≠ ctx.userId ∧
      before.status = .submitted))

/-- An entry that is still there is in the sheet in which it was found. -/
theorem FirstRead.sheet {l : List Books} {id : Uuid} {before e : TimeEntry} {s : Books} (h : FirstRead l id before)
    (hl : ∀ s₀ ∈ l, Later s₀ s) (he : s.entries.table.find id = some e) : e.timesheetId = before.timesheetId := by
  obtain ⟨s₀, hlast, hfind⟩ := h
  obtain ⟨e₀, he₀, hsame⟩ := (hl s₀ (List.mem_of_getLast? hlast)).entry (Register.mem_drawn hfind) he
  cases hfind.symm.trans he₀
  exact hsame

/-- Every call of a request has such an effect, when all that it has seen came before. -/
theorem Call.effect {r : Request} {l : List Books} {s s' : Books} (h : Call r l s s') (hl : ∀ s₀ ∈ l, Later s₀ s) :
    Effect r l s s' := by
  cases h with
  | quiet h => exact .quiet h
  | @create ctx timesheetId dto sheet _ _ v _ total saw may within h =>
    obtain ⟨⟨s₁, v₁, hs₁, hv₁, htotal⟩, hchange, hset⟩ := h
    obtain ⟨hedited, -⟩ := insertEntry_ok hchange
    obtain ⟨t, ht⟩ := setTotal_ok hset
    have hnew : ∀ e, some (newEntry ctx timesheetId dto) = some e → e.timesheetId = timesheetId := by
      rintro e ⟨⟩
      rfl
    refine .recounted timesheetId _ none _ total v ⟨hedited, ⟨t, ht⟩, fun e he => (by cases he), hnew⟩ .create
      ⟨s₁, v₁, none, _, hs₁, (insertEntry_ok hv₁).1, .create, htotal⟩ ⟨sheet, saw, may, ?_⟩
    rintro e ⟨⟩
    exact .inl within
  | @update ctx id dto before sheet _ _ v _ total read saw may within h =>
    obtain ⟨⟨s₁, v₁, hs₁, hv₁, htotal⟩, hchange, hset⟩ := h
    obtain ⟨e, e', happly, hedited⟩ := updateEntryRow_ok hchange
    obtain ⟨e₁, e₁', happly₁, hedited₁⟩ := updateEntryRow_ok hv₁
    obtain ⟨t, ht⟩ := setTotal_ok hset
    have hsheet : e.timesheetId = before.timesheetId := read.sheet hl hedited.found
    obtain ⟨-, hsame, hdate, -⟩ := apply_ok happly
    refine .recounted before.timesheetId id (some e) (some e') total v ⟨hedited, ⟨t, ht⟩, ?_, ?_⟩ (.update happly)
      ⟨s₁, v₁, some e₁, some e₁', hs₁, hedited₁, .update happly₁, htotal⟩ ⟨sheet, saw, may, ?_⟩
    · rintro _ ⟨⟩
      exact hsheet
    · rintro _ ⟨⟩
      exact hsame.trans hsheet
    · rintro _ ⟨⟩
      cases hday : dto.day with
      | none => exact .inr ⟨e, rfl, by rw [hdate, hday]; rfl⟩
      | some date =>
        refine .inl ?_
        rw [hdate, hday]
        exact within date hday
  | @delete ctx id before sheet _ _ v _ total read saw may h =>
    obtain ⟨⟨s₁, v₁, hs₁, hv₁, htotal⟩, hchange, hset⟩ := h
    obtain ⟨e, hedited⟩ := deleteEntryRow_ok hchange
    obtain ⟨e₁, hedited₁⟩ := deleteEntryRow_ok hv₁
    obtain ⟨t, ht⟩ := setTotal_ok hset
    refine .recounted before.timesheetId id (some e) none total v ⟨hedited, ⟨t, ht⟩, ?_, fun e he => (by cases he)⟩
      .delete ⟨s₁, v₁, some e₁, none, hs₁, hedited₁, .delete, htotal⟩ ⟨sheet, saw, may, fun e he => (by cases he)⟩
    rintro _ ⟨⟩
    exact read.sheet hl hedited.found
  | @submit ctx id before t _ _ _ saw may filled h =>
    exact .moved id _ t h (.inl ⟨ctx, rfl, rfl⟩) ⟨before, saw, fun _ hr => by cases hr⟩
  | @approve ctx id before t _ _ _ saw other pending h =>
    refine .moved id _ t h (.inr (.inl ⟨ctx, rfl, rfl⟩)) ⟨before, saw, fun _ hr => ?_⟩
    cases hr
    exact ⟨other, pending⟩
  | @reject ctx id reason before t _ _ _ saw other pending h =>
    exact .moved id _ t h (.inr (.inr ⟨ctx, reason, rfl, rfl⟩)) ⟨before, saw, fun _ hr => by cases hr⟩

/-- A sheet that a request has found is still there. -/
theorem FirstSaw.now {l : List Books} {id : Uuid} {sheet : Timesheet} {s : Books} (h : FirstSaw l id sheet)
    (hl : ∀ s₀ ∈ l, Later s₀ s) : ∃ t, s.timesheets.find id = some t ∧ Persists sheet t := by
  obtain ⟨s₀, hlast, hfind⟩ := h
  exact (hl s₀ (List.mem_of_getLast? hlast)).sheet hfind

theorem Effect.later {r : Request} {l : List Books} {s s' : Books} (h : Effect r l s s') : Later s s' := by
  cases h with
  | quiet h => exact h.later
  | recounted timesheetId id old new total v h =>
    obtain ⟨hedited, ⟨t, ht⟩, hold, hnew⟩ := h
    exact (hedited.later fun e' he' e he => (hnew e' he').trans (hold e he).symm).trans ht.later
  | moved id f t h move =>
    refine h.later ?_
    rcases move with ⟨ctx, -, rfl⟩ | ⟨ctx, -, rfl⟩ | ⟨ctx, reason, -, rfl⟩ <;> exact ⟨rfl, rfl, rfl⟩

/-! ### Over a run -/

section Runs

variable (s₀ : Books)

/-- The database after a run. -/
abbrev at_ (evs : List (Event Request)) : Books := (interleave serve s₀ evs).st

/-- What a request has seen. -/
abbrev saw (j : ℕ) (evs : List (Event Request)) : List Books := seen serve s₀ j evs

/-- What a request has seen came before. -/
theorem later_of_saw (evs : List (Event Request)) : ∀ j, ∀ s ∈ saw s₀ j evs, Later s (at_ s₀ evs) := by
  induction evs with
  | nil => exact fun j s hs => absurd hs List.not_mem_nil
  | cons e past ih =>
    cases e with
    | start r => exact ih
    | turn i =>
      rcases turn_cases s₀ serve_along past i with ⟨hsame, hseen⟩ | ⟨r, -, -, hmoved, hothers, hcall⟩
      · intro j s hs
        rw [saw, hseen] at hs
        rw [at_, hsame]
        exact ih j s hs
      · have hlater : Later (at_ s₀ past) (at_ s₀ (.turn i :: past)) := (hcall.effect (ih i)).later
        intro j s hs
        by_cases hj : j = i
        · subst hj
          rw [saw, hmoved] at hs
          rcases List.mem_cons.mp hs with rfl | hs
          · exact hlater
          · exact (ih j s hs).trans hlater
        · rw [saw, hothers j hj] at hs
          exact (ih j s hs).trans hlater

/-- A turn, by what it does. -/
theorem turn_effect (past : List (Event Request)) (i : ℕ) :
    at_ s₀ (.turn i :: past) = at_ s₀ past ∨ ∃ r, requested serve s₀ i past = some r ∧
      Effect r (saw s₀ i past) (at_ s₀ past) (at_ s₀ (.turn i :: past)) := by
  rcases turn_cases s₀ serve_along past i with ⟨hsame, -⟩ | ⟨r, hr, -, -, -, hcall⟩
  · exact .inl (congrArg Config.st hsame)
  · exact .inr ⟨r, hr, hcall.effect (later_of_saw s₀ past i)⟩

end Runs

/-! ### What is kept -/

/-- The sheet of the entry is there, with its tenant, and in its week is its date. -/
def Placed (s : Books) (e : TimeEntry) : Prop :=
  ∃ t, s.timesheets.find e.timesheetId = some t ∧ e.tenantId = t.tenantId ∧ isWithinWeek e.date t.weekStart = true

theorem Placed.later {s s' : Books} {e : TimeEntry} (h : Placed s e) (hs : Later s s') : Placed s' e := by
  obtain ⟨t, ht, htenant, hweek⟩ := h
  obtain ⟨t', ht', hsame⟩ := hs.sheet ht
  exact ⟨t', ht', htenant.trans hsame.tenant.symm, hsame.week ▸ hweek⟩

/-- An entry has the tenant of its sheet, and a date in its week; an approver is not the owner. -/
structure Kept (s : Books) : Prop where
  entry : ∀ ⦃id e⦄, s.entries.table.find id = some e → Placed s e
  approved : ∀ ⦃id t⦄, s.timesheets.find id = some t → t.status = .approved →
    ∃ approver, t.approvedById = some approver ∧ approver ≠ t.userId

/-- What becomes of an entry has the tenant that it had; a new one has that of its request. -/
theorem Edits.tenant {r : Request} {timesheetId id : Uuid} {old : Option TimeEntry} {e' : TimeEntry}
    (h : Edits r timesheetId id old (some e')) :
    (old = none ∧ e'.tenantId = r.ctx.tenantId) ∨ ∃ e, old = some e ∧ e'.tenantId = e.tenantId := by
  cases h with
  | create => exact .inl ⟨rfl, rfl⟩
  | update happly => exact .inr ⟨_, rfl, (apply_ok happly).1⟩

/-- The new state of an entry is placed. -/
theorem Recounted.placed {r : Request} {l : List Books} {timesheetId id : Uuid} {old : Option TimeEntry}
    {e' : TimeEntry} {total : ℕ} {s v s' : Books}
    (h : Recounted r.ctx timesheetId id old (some e') total s v s') (edits : Edits r timesheetId id old (some e'))
    {sheet : Timesheet} (hsaw : FirstSaw l timesheetId sheet) (hl : ∀ s₀ ∈ l, Later s₀ s)
    (hweek : isWithinWeek e'.date sheet.weekStart = true ∨ ∃ e₀, old = some e₀ ∧ e'.date = e₀.date) (hs : Kept s) :
    Placed s e' := by
  obtain ⟨t, ht, hsame⟩ := hsaw.now hl
  have hfind : s.timesheets.find e'.timesheetId = some t := (congrArg s.timesheets.find (h.of_new e' rfl)).trans ht
  -- What was so of the entry, in the same sheet.
  have hbefore : ∀ e, old = some e → e.tenantId = t.tenantId ∧ isWithinWeek e.date t.weekStart = true := by
    intro e he
    obtain ⟨t', ht', htenant, hdate⟩ := hs.entry (h.edited.found.trans he)
    rw [h.of_old e he] at ht'
    cases ht.symm.trans ht'
    exact ⟨htenant, hdate⟩
  refine ⟨t, hfind, ?_, ?_⟩
  · rcases edits.tenant with ⟨-, htenant⟩ | ⟨e, he, htenant⟩
    · obtain ⟨t', ht'⟩ := h.totalled
      have hrow := ht'.row
      rw [h.edited.rest] at hrow
      cases ht.symm.trans hrow
      exact htenant.trans ht'.tenant.symm
    · exact htenant.trans (hbefore e he).1
  · rcases hweek with hweek | ⟨e₀, he₀, hdate⟩
    · exact hsame.week ▸ hweek
    · exact hdate ▸ (hbefore e₀ he₀).2

/-- The rows of the sheets after a change of an entry: one has another total. -/
theorem Recounted.sheets {ctx : Ctx} {timesheetId id : Uuid} {old new : Option TimeEntry} {total : ℕ}
    {s v s' : Books} (h : Recounted ctx timesheetId id old new total s v s') : ∃ t,
    s.timesheets.find timesheetId = some t ∧ t.tenantId = ctx.tenantId ∧
      ∀ j, s'.timesheets.find j = if j = timesheetId then some { t with totalHours := total } else s.timesheets.find j := by
  obtain ⟨hedited, ⟨t, ht⟩, -, -⟩ := h
  have hsheets : v.timesheets = s.timesheets := by rw [hedited.rest]
  exact ⟨t, hsheets ▸ ht.row, ht.tenant, hsheets ▸ ht.rows⟩

/-- The rows of the entries after it. -/
theorem Recounted.entries {ctx : Ctx} {timesheetId id : Uuid} {old new : Option TimeEntry} {total : ℕ}
    {s v s' : Books} (h : Recounted ctx timesheetId id old new total s v s') (j : Uuid) :
    s'.entries.table.find j = if j = id then new else s.entries.table.find j := by
  obtain ⟨hedited, ⟨t, ht⟩, -, -⟩ := h
  rw [ht.rest]
  exact hedited.rows j

theorem Effect.kept {r : Request} {l : List Books} {s s' : Books} (h : Effect r l s s') (hl : ∀ s₀ ∈ l, Later s₀ s)
    (hs : Kept s) : Kept s' := by
  have hlater := h.later
  cases h with
  | quiet h =>
    rw [h]
    exact ⟨hs.entry, hs.approved⟩
  | recounted timesheetId id old new total v h edits summed checked =>
    constructor
    · intro j e he
      refine Placed.later ?_ hlater
      rw [h.entries] at he
      split at he
      · subst he
        obtain ⟨sheet, hsaw, -, hweek⟩ := checked
        exact h.placed edits hsaw hl (hweek e rfl) hs
      · exact hs.entry he
    · intro j t' ht' hstatus
      obtain ⟨t, ht, -, hrows⟩ := h.sheets
      rw [hrows] at ht'
      split at ht'
      · cases ht'
        have happroved := hs.approved ht hstatus
        exact happroved
      · exact hs.approved ht' hstatus
  | moved id f t h move checked =>
    constructor
    · intro j e he
      rw [h.rest] at he
      have hplaced : Placed s e := hs.entry he
      exact hplaced.later hlater
    · intro j t' ht' hstatus
      rw [h.rows] at ht'
      split at ht'
      · cases ht'
        rcases move with ⟨ctx, -, rfl⟩ | ⟨ctx, rfl, rfl⟩ | ⟨ctx, reason, -, rfl⟩
        · cases hstatus
        · -- The owner that the approver has found is the owner still.
          obtain ⟨before, hsaw, hbefore⟩ := checked
          obtain ⟨t'', ht'', hsame⟩ := hsaw.now hl
          cases h.row.symm.trans ht''
          exact ⟨ctx.userId, rfl, fun heq => (hbefore ctx rfl).1 (hsame.user.symm.trans heq.symm)⟩
        · cases hstatus
      · exact hs.approved ht' hstatus

theorem kept_at {s₀ : Books} (h₀ : Kept s₀) (evs : List (Event Request)) : Kept (at_ s₀ evs) := by
  induction evs with
  | nil => exact h₀
  | cons e past ih =>
    cases e with
    | start r => exact ih
    | turn i =>
      rcases turn_effect s₀ past i with hsame | ⟨r, -, heffect⟩
      · rw [hsame]
        exact ih
      · exact heffect.kept (later_of_saw s₀ past i) ih

theorem kept_of_saw {s₀ : Books} (h₀ : Kept s₀) {j : ℕ} {evs : List (Event Request)} {s : Books}
    (hs : s ∈ saw s₀ j evs) : Kept s := by
  obtain ⟨l₁, l₂, hl⟩ := List.append_of_mem hs
  obtain ⟨mid, past, -, -, rfl, -⟩ := seen_split hl
  exact kept_at h₀ past

/-! ### A week -/

/-- A user of timesheets, at time `k`. -/
def member (userId k : Uuid) : Ctx := { Workpapers.actor userId k with permissions := [.timeOwn, .timeApprove] }

/-- Ann's open timesheet 20, with nothing in it, and charge code 30. -/
def week : Books where
  db := Workpapers.office
  timesheets := ⟨[(20, ⟨1, 1, 0, .opened, 0, none, none, none, none⟩)], by decide⟩
  entries := .empty
  chargeCodes := ⟨[(30, ⟨1, "AUD", "Audit", true, true⟩)], by decide⟩

theorem kept_week : Kept week := by
  constructor
  · intro id e he
    cases he
  · refine (Table.forall_find_iff week.timesheets _).mpr ?_
    simp [week]

theorem two_hours : 1 / 4 ≤ (2 : ℚ) ∧ (2 : ℚ) ≤ 24 := by decide +kernel

theorem three_hours : 1 / 4 ≤ (3 : ℚ) ∧ (3 : ℚ) ≤ 24 := by decide +kernel

/-- Ann enters some hours in sheet 20. -/
def enter (k : Uuid) (hours : Hours) : Request := .createEntry (member 1 k) 20 { date := 0, chargeCodeId := 30, hours }

/-- So many turns of a request. -/
def turns (i n : ℕ) : List (Event Request) := List.replicate n (.turn i)

/-- No transaction is open: every request has ended. -/
def closed (s₀ : Books) (evs : List (Event Request)) : Bool :=
  (interleave serve s₀ evs).threads.all fun th => th.rest.result.isSome

end AuditSphere.Timesheets
