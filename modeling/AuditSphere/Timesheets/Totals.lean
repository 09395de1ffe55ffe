import AuditSphere.Timesheets.Runs

/-!
# The total of a timesheet

The total is summed up within the transaction that changes an entry, and written by its commit.
READ COMMITTED shows the sum what others have committed by then, not what they commit before the
total is written: two new entries, each of which is not in the sum of the other, leave the total
with the last of them alone.

The total of a sheet is right in every state of a run in which nobody has changed the hours of the
sheet between the sum and the commit.
-/

namespace AuditSphere.Timesheets

open Prisma Theory Shared

/-! ### Hours -/

/-- The hours of each entry of a sheet. -/
def hoursIn (s : Books) (timesheetId : Uuid) : List (Uuid × ℕ) :=
  (s.entries.table.rows fun _ e => e.timesheetId = timesheetId).map fun e => (e.1, e.2.hours)

/-- The total of the sheet is the sum of the hours of its entries. -/
def Exact (timesheetId : Uuid) (s : Books) : Prop :=
  ∀ t, s.timesheets.find timesheetId = some t → t.totalHours = ((hoursIn s timesheetId).map Prod.snd).sum

/-- What counts of an entry for the hours of a sheet. -/
def counted (timesheetId : Uuid) (e : Option TimeEntry) : Option ℕ :=
  (e.filter fun e => e.timesheetId = timesheetId).map TimeEntry.hours

theorem counted_of {timesheetId : Uuid} {e : TimeEntry} (h : e.timesheetId = timesheetId) :
    counted timesheetId (some e) = some e.hours :=
  congrArg (Option.map _) (if_pos (decide_eq_true h))

theorem counted_other {timesheetId other : Uuid} {e : Option TimeEntry} (hof : ∀ e', e = some e' → e'.timesheetId = other)
    (h : other ≠ timesheetId) : counted timesheetId e = none := by
  unfold counted
  rw [Option.map_eq_none_iff, Option.filter_eq_none_iff]
  intro e' he'
  simp [hof e' he', h]

theorem mem_hoursIn {s : Books} {timesheetId j : Uuid} {h : ℕ} :
    (j, h) ∈ hoursIn s timesheetId ↔ counted timesheetId (s.entries.table.find j) = some h := by
  unfold hoursIn counted
  rw [List.mem_map, Option.map_eq_some_iff]
  constructor
  · rintro ⟨⟨i, e⟩, he, heq⟩
    cases heq
    rw [Table.mem_rows_iff] at he
    exact ⟨e, Option.filter_eq_some_iff.mpr he, rfl⟩
  · rintro ⟨e, he, rfl⟩
    exact ⟨(j, e), (Table.mem_rows_iff _ _ _ _).mpr (Option.filter_eq_some_iff.mp he), rfl⟩

/-- The hours of a sheet are the same as soon as each entry counts the same. -/
theorem hoursIn_perm_iff {s s' : Books} {timesheetId : Uuid} :
    (hoursIn s timesheetId).Perm (hoursIn s' timesheetId) ↔
      ∀ j, counted timesheetId (s.entries.table.find j) = counted timesheetId (s'.entries.table.find j) := by
  have hnodup : ∀ s, (hoursIn s timesheetId).Nodup := by
    intro s
    refine List.Nodup.of_map Prod.fst ?_
    unfold hoursIn
    rw [List.map_map]
    exact s.entries.table.nodup.sublist (List.filter_sublist.map Prod.fst)
  rw [List.perm_ext_iff_of_nodup (hnodup s) (hnodup s')]
  constructor
  · intro h j
    refine Option.ext fun n => ?_
    rw [← mem_hoursIn, ← mem_hoursIn]
    exact h (j, n)
  · rintro h ⟨j, n⟩
    rw [mem_hoursIn, mem_hoursIn, h j]

/-- What a request sums up are all hours of the sheet, if its entries are of the tenant. -/
theorem hoursOf_eq {ctx : Ctx} {s : Books} {timesheetId : Uuid}
    (h : ∀ j e, s.entries.table.find j = some e → e.timesheetId = timesheetId → e.tenantId = ctx.tenantId) :
    hoursOf ctx s timesheetId = ((hoursIn s timesheetId).map Prod.snd).sum := by
  unfold hoursOf hoursIn Ctx.findMany
  rw [List.map_map, Table.rows_congr (q := fun _ e => e.timesheetId = timesheetId)]
  · rfl
  · intro j e he
    by_cases hsheet : e.timesheetId = timesheetId
    · have hsees : ctx.sees e = true := (Ctx.sees_iff_tenant rfl).mpr (h j e he hsheet)
      simp [hsheet, hsees]
    · simp [hsheet]

/-- After the same change of an entry each entry counts the same, if it did before. -/
theorem Edits.counted_eq {r : Request} {timesheetId id : Uuid} {old new old₁ new₁ : Option TimeEntry}
    (h : Edits r timesheetId id old new) (h₁ : Edits r timesheetId id old₁ new₁)
    (hof : ∀ e, old = some e → e.timesheetId = timesheetId) (hof₁ : ∀ e, old₁ = some e → e.timesheetId = timesheetId)
    (hcounted : counted timesheetId old₁ = counted timesheetId old) :
    counted timesheetId new₁ = counted timesheetId new := by
  cases h with
  | create =>
    cases h₁
    rfl
  | delete =>
    cases h₁
    rfl
  | @update ctx _ id dto e e' happly =>
    cases h₁ with
    | @update _ _ _ _ e₁ e₁' happly₁ =>
      obtain ⟨-, hsheet, -, hhours⟩ := apply_ok happly
      obtain ⟨-, hsheet₁, -, hhours₁⟩ := apply_ok happly₁
      have he := hof e rfl
      have he₁ := hof₁ e₁ rfl
      -- Both had the same hours, and are given the same.
      rw [counted_of he, counted_of he₁] at hcounted
      rw [Option.some.inj hcounted, hhours] at hhours₁
      rw [counted_of (hsheet.trans he), counted_of (hsheet₁.trans he₁), hhours₁]

theorem Edits.old_isSome {r : Request} {timesheetId id : Uuid} {old new old₁ new₁ : Option TimeEntry}
    (h : Edits r timesheetId id old new) (h₁ : Edits r timesheetId id old₁ new₁) : old.isSome = old₁.isSome := by
  cases h <;> cases h₁ <;> rfl

/-- The entries of other sheets count as before. -/
theorem Recounted.counted_other {ctx : Ctx} {timesheetId other id : Uuid} {old new : Option TimeEntry} {total : ℕ}
    {s v s' : Books} (h : Recounted ctx other id old new total s v s') (hother : other ≠ timesheetId) :
    (hoursIn s' timesheetId).Perm (hoursIn s timesheetId) := by
  refine hoursIn_perm_iff.mpr fun j => ?_
  rw [h.entries]
  split
  · rename_i hj
    rw [hj, h.edited.found, Timesheets.counted_other h.of_old hother, Timesheets.counted_other h.of_new hother]
  · rfl

/-- The change of an entry leaves the total right, if the hours of the sheet are still those that were
summed up. -/
theorem Recounted.exact {r : Request} {timesheetId id : Uuid} {old new : Option TimeEntry}
    {total : ℕ} {s v s' s₁ v₁ : Books} {old₁ new₁ : Option TimeEntry}
    (h : Recounted r.ctx timesheetId id old new total s v s') (edits : Edits r timesheetId id old new)
    (hedited₁ : Edited id old₁ new₁ s₁ v₁) (edits₁ : Edits r timesheetId id old₁ new₁)
    (htotal : total = hoursOf r.ctx v₁ timesheetId) (hlater : Later s₁ s) (hkept : Kept s₁)
    (hsettled : (hoursIn s₁ timesheetId).Perm (hoursIn s timesheetId)) : Exact timesheetId s' := by
  obtain ⟨t, ht, htenant, hrows⟩ := h.sheets
  have hof₁ : ∀ e, old₁ = some e → e.timesheetId = timesheetId := by
    intro e₁ he₁
    have hsome : old.isSome = true := (edits.old_isSome edits₁).trans (by rw [he₁]; rfl)
    obtain ⟨e, he⟩ := Option.isSome_iff_exists.mp hsome
    have hfind₁ := hedited₁.found.trans he₁
    obtain ⟨e₁', he₁', hsame⟩ := hlater.entry (Register.mem_drawn hfind₁) (h.edited.found.trans he)
    cases hfind₁.symm.trans he₁'
    exact hsame.symm.trans (h.of_old e he)
  have hperm : (hoursIn v₁ timesheetId).Perm (hoursIn s' timesheetId) := by
    refine hoursIn_perm_iff.mpr fun j => ?_
    rw [h.entries, hedited₁.rows]
    split
    · refine edits.counted_eq edits₁ h.of_old hof₁ ?_
      have hj := hoursIn_perm_iff.mp hsettled id
      rwa [hedited₁.found, h.edited.found] at hj
    · exact hoursIn_perm_iff.mp hsettled j
  have htenants : ∀ j e, v₁.entries.table.find j = some e → e.timesheetId = timesheetId →
      e.tenantId = r.ctx.tenantId := by
    -- As committed, the entries have the tenant of the sheet.
    have hfound : ∀ j e, s₁.entries.table.find j = some e → e.timesheetId = timesheetId →
        e.tenantId = r.ctx.tenantId := by
      intro j e he hsheet
      obtain ⟨t₁, ht₁, heq, -⟩ := hkept.entry he
      obtain ⟨t', ht', hsame⟩ := hlater.sheet ht₁
      rw [hsheet, ht] at ht'
      cases ht'
      exact heq.trans (hsame.tenant.symm.trans htenant)
    intro j e he hsheet
    rw [hedited₁.rows] at he
    split at he
    · subst he
      rcases edits₁.tenant with ⟨-, heq⟩ | ⟨e₁, he₁, heq⟩
      · exact heq
      · exact heq.trans (hfound id e₁ (hedited₁.found.trans he₁) (hof₁ e₁ he₁))
    · exact hfound j e he hsheet
  intro t' ht'
  rw [hrows, if_pos rfl] at ht'
  cases ht'
  exact htotal.trans ((hoursOf_eq htenants).trans (hperm.map Prod.snd).sum_nat)

theorem Exact.same {timesheetId : Uuid} {s s' : Books} (h : Exact timesheetId s)
    (hhours : (hoursIn s' timesheetId).Perm (hoursIn s timesheetId))
    (htotal : (s'.timesheets.find timesheetId).map Timesheet.totalHours =
      (s.timesheets.find timesheetId).map Timesheet.totalHours) : Exact timesheetId s' := by
  intro t' ht'
  rw [ht', Option.map_some, eq_comm, Option.map_eq_some_iff] at htotal
  obtain ⟨t, ht, heq⟩ := htotal
  rw [← heq, h t ht, (hhours.map Prod.snd).sum_nat]

/-! ### Runs -/

section Runs

variable (timesheetId : Uuid) (s₀ : Books)

/-- At a turn that changes the hours of the sheet, or its total, its hours are those that were committed
when the request summed them up. -/
def Settled (past : List (Event Request)) : Event Request → Prop
  | .start _ => True
  | .turn i =>
    let s := at_ s₀ past
    let s' := at_ s₀ (.turn i :: past)
    hoursIn s' timesheetId ≠ hoursIn s timesheetId ∨
        (s'.timesheets.find timesheetId).map Timesheet.totalHours ≠ (s.timesheets.find timesheetId).map Timesheet.totalHours →
      ∀ s₁ ∈ (saw s₀ i past)[1]?, (hoursIn s₁ timesheetId).Perm (hoursIn s timesheetId)

variable {timesheetId s₀}

/-- A turn leaves the total right. -/
theorem exact_turn (h₀ : Kept s₀) {past : List (Event Request)} {i : ℕ} (hs : Exact timesheetId (at_ s₀ past))
    (hsettled : Settled timesheetId s₀ past (.turn i)) : Exact timesheetId (at_ s₀ (.turn i :: past)) := by
  rcases turn_effect s₀ past i with hsame | ⟨r, -, heffect⟩
  · rwa [hsame]
  · have hl := later_of_saw s₀ past i
    cases heffect with
    | quiet h =>
      rw [h]
      exact hs
    | recounted other id old new total v h edits summed checked =>
      obtain ⟨t, ht, -, hrows⟩ := h.sheets
      by_cases hother : other = timesheetId
      · subst hother
        by_cases hchanged : hoursIn (at_ s₀ (.turn i :: past)) other ≠ hoursIn (at_ s₀ past) other ∨
            ((at_ s₀ (.turn i :: past)).timesheets.find other).map Timesheet.totalHours ≠
              ((at_ s₀ past).timesheets.find other).map Timesheet.totalHours
        · obtain ⟨s₁, v₁, old₁, new₁, hs₁, hedited₁, edits₁, htotal⟩ := summed
          have hmem : s₁ ∈ saw s₀ i past := List.mem_of_getElem? hs₁
          exact h.exact edits hedited₁ edits₁ htotal (hl s₁ hmem) (kept_of_saw h₀ hmem) (hsettled hchanged s₁ hs₁)
        · push Not at hchanged
          exact hs.same (List.Perm.of_eq hchanged.1) hchanged.2
      · exact hs.same (h.counted_other hother) (by rw [hrows, if_neg (Ne.symm hother)])
    | moved id f t h move checked =>
      have hhours : hoursIn (at_ s₀ (.turn i :: past)) timesheetId = hoursIn (at_ s₀ past) timesheetId := by
        rw [h.rest]
        rfl
      refine hs.same (List.Perm.of_eq hhours) ?_
      rw [h.rows]
      split
      · rename_i heq
        rw [heq, h.row]
        rcases move with ⟨ctx, -, rfl⟩ | ⟨ctx, -, rfl⟩ | ⟨ctx, reason, -, rfl⟩ <;> rfl
      · rfl

/-- **The total of a sheet is exact** in every state of a run in which, at each turn that changes the hours
or the total of the sheet, its hours are those that were summed up. -/
theorem totals_exact (timesheetId : Uuid) (s₀ : Books) (h₀ : Kept s₀) (hexact : Exact timesheetId s₀)
    (evs : List (Event Request)) (h : Every (Settled timesheetId s₀) evs) : Exact timesheetId (at_ s₀ evs) := by
  induction evs with
  | nil => exact hexact
  | cons e past ih =>
    cases e with
    | start r => exact ih h.2
    | turn i => exact exact_turn h₀ (ih h.2) h.1

end Runs

instance (timesheetId : Uuid) (s : Books) : Decidable (Exact timesheetId s) :=
  decidable_of_iff (∀ t ∈ s.timesheets.find timesheetId, t.totalHours = ((hoursIn s timesheetId).map Prod.snd).sum)
    Iff.rfl

instance (timesheetId : Uuid) (s₀ : Books) (past : List (Event Request)) (e : Event Request) :
    Decidable (Settled timesheetId s₀ past e) :=
  match e with
  | .start _ => .isTrue trivial
  | .turn i => inferInstanceAs (Decidable (_ ∨ _ → ∀ s₁ ∈ (saw s₀ i past)[1]?, List.Perm _ _))

/-- Two hours and three, entered at once. -/
def entering : List (Event Request) :=
  [.start (enter 110 ⟨3, three_hours⟩), .start (enter 100 ⟨2, two_hours⟩)]

theorem exact_week : Exact 20 week := by
  intro t ht
  cases ht
  rfl

/-- The second request sums up after the first has committed. -/
theorem totals_exact_entering :
    Exact 20 (at_ week (turns 1 6 ++ turns 0 8 ++ turns 1 2 ++ entering)) :=
  totals_exact 20 week kept_week exact_week _ (by decide +kernel)

/-- The second request sums up before the first commits, and writes its total after that. -/
def overlapping : List (Event Request) := turns 1 4 ++ turns 0 3 ++ turns 1 4 ++ turns 0 5 ++ entering

theorem total_lost : Exact 20 week ∧ Kept week ∧ closed week overlapping = true ∧
    hoursIn (at_ week overlapping) 20 = [(110, 300), (100, 200)] ∧
    ((at_ week overlapping).timesheets.find 20).map Timesheet.totalHours = some 300 ∧
    ¬Exact 20 (at_ week overlapping) :=
  ⟨exact_week, kept_week, by decide +kernel, by decide +kernel, by decide +kernel, by decide +kernel⟩

end AuditSphere.Timesheets
