import AuditSphere.Db.Numbered
import AuditSphere.Engagements.History

/-!
# Audit numbers

The engagements of a tenant and year are numbered `IA-2026-001`, `IA-2026-002`, ...
(`auditNumbers`). An engagement is created with the number that follows the highest one of its
tenant and year (`created_issued`), and it is created wherever that number is free and nothing
else stands in the way (`create_accepted`). No other request touches a number
(`references_kept`).
-/

namespace AuditSphere.Engagements

open Prisma Theory Shared

/-! ### Numbers -/

/-- The digits of a year. -/
theorem toDigits_year {year : ℕ} (hyear : 1000 ≤ year ∧ year ≤ 9999) : (Nat.toDigits 10 year).length = 4 := by
  have hle := (Nat.length_toDigits_le_iff (b := 10) (k := 4) (n := year) (by decide) (by decide)).mpr (by omega)
  have hgt := (Nat.length_toDigits_le_iff (b := 10) (k := 3) (n := year) (by decide) (by decide)).not.mpr (by omega)
  omega

theorem toList_prefix (year : ℕ) : (auditNumberPrefix year).toList = 'I' :: 'A' :: '-' :: (Nat.toDigits 10 year ++ ['-']) := by
  unfold auditNumberPrefix
  rw [String.toList_append, String.toList_append, Nat.toString_eq_repr, Nat.toList_repr]
  rfl

/-- A text that neither begins nor ends with white space. -/
theorem trimmed_eq {l : List Char} (hfirst : ∀ c ∈ l.head?, isTrimmed c = false)
    (hlast : ∀ c ∈ l.getLast?, isTrimmed c = false) : trimmed l = l := by
  unfold trimmed
  have hdrop : ∀ l : List Char, (∀ c ∈ l.head?, isTrimmed c = false) → l.dropWhile isTrimmed = l := by
    intro l hl
    cases l with
    | nil => rfl
    | cons c l => exact List.dropWhile_cons_of_neg (by simp [hl c rfl])
  rw [hdrop l hfirst, hdrop l.reverse (by rwa [List.head?_reverse]), List.reverse_reverse]

theorem digit_kept {c : Char} (h : c.isDigit = true) : isTrimmed c = false := by
  obtain ⟨hlow, hhigh⟩ := Char.isDigit_iff_toNat.mp h
  simp only [Char.reduceToNat] at hlow hhigh
  have hbig : decide (8192 ≤ c.toNat) = false := decide_eq_false (by omega)
  unfold isTrimmed
  simp only [List.mem_cons, List.not_mem_nil, or_false, hbig, Bool.false_and, Bool.or_false, decide_eq_false_iff_not]
  omega

/-- The characters of a number. -/
theorem toList_number (year n : ℕ) :
    (auditNumberPrefix year ++ pad n 3).toList = 'I' :: 'A' :: '-' :: (Nat.toDigits 10 year ++ '-' :: numeral 3 n) := by
  rw [String.toList_append, toList_prefix, toList_pad]
  simp

/-- The number of an engagement is read back. -/
theorem parse_number {year : ℕ} (hyear : 1000 ≤ year ∧ year ≤ 9999) (n : ℕ) :
    parseAuditNumber (auditNumberPrefix year ++ pad n 3) = some (year, n) := by
  have hdigits := toDigits_year hyear
  have htrimmed : trimmed ('I' :: 'A' :: '-' :: (Nat.toDigits 10 year ++ '-' :: numeral 3 n)) =
      'I' :: 'A' :: '-' :: (Nat.toDigits 10 year ++ '-' :: numeral 3 n) := by
    refine trimmed_eq (fun c hc => ?_) (fun c hc => ?_)
    · cases hc
      decide
    · -- the last character is a digit
      have hlast : ('I' :: 'A' :: '-' :: (Nat.toDigits 10 year ++ '-' :: numeral 3 n)).getLast? = (numeral 3 n).getLast? := by
        rw [show 'I' :: 'A' :: '-' :: (Nat.toDigits 10 year ++ '-' :: numeral 3 n) =
          ('I' :: 'A' :: '-' :: (Nat.toDigits 10 year ++ ['-'])) ++ numeral 3 n by simp]
        exact List.getLast?_append_of_ne_nil _ (numeral_ne_nil 3 n)
      rw [hlast] at hc
      exact digit_kept (isDigit_of_mem_numeral (List.mem_of_getLast? hc))
  have hwidth : 3 ≤ (numeral 3 n).length := by
    simp only [numeral, List.length_append, List.length_replicate]
    omega
  have htake : (Nat.toDigits 10 year ++ '-' :: numeral 3 n).take 4 = Nat.toDigits 10 year := List.take_left' hdigits
  have hdrop : (Nat.toDigits 10 year ++ '-' :: numeral 3 n).drop 5 = numeral 3 n := by
    rw [List.drop_append, hdigits, List.drop_eq_nil_of_le (by omega)]
    rfl
  have hhyphen : (Nat.toDigits 10 year ++ '-' :: numeral 3 n)[4]? = some '-' := by
    rw [List.getElem?_append_right (by omega), hdigits]
    rfl
  unfold parseAuditNumber
  rw [toList_number, htrimmed]
  simp only [htake, hdrop, hhyphen]
  rw [if_pos]
  · rw [Nat.ofDigitChars_ten_toDigits, value_numeral]
  · exact ⟨hdigits, List.all_eq_true.mpr fun c hc => Nat.isDigit_of_mem_toDigits (by decide) (by decide) hc, trivial,
      hwidth, List.all_eq_true.mpr fun c => isDigit_of_mem_numeral⟩

theorem formatAuditNumber_ok {year seq : ℕ} (hyear : 1000 ≤ year ∧ year ≤ 9999) (hseq : 0 < seq) :
    formatAuditNumber year seq = .ok (auditNumberPrefix year ++ pad seq 3) := by
  unfold formatAuditNumber
  rw [if_neg (by omega), if_neg (by omega)]
  rfl

/-- A number is only formatted for a year with four digits. -/
theorem formatAuditNumber_cases (year seq : ℕ) :
    ((1000 ≤ year ∧ year ≤ 9999) ∧ formatAuditNumber year seq = .ok (auditNumberPrefix year ++ pad seq 3)) ∨
      ∃ message, formatAuditNumber year seq = .error (.internal message) := by
  unfold formatAuditNumber
  split
  · exact .inr ⟨_, rfl⟩
  · rename_i hyear
    split
    · exact .inr ⟨_, rfl⟩
    · exact .inl ⟨by omega, rfl⟩

/-- The number that follows. -/
theorem nextAuditNumber_eq {year : ℕ} (hyear : 1000 ≤ year ∧ year ≤ 9999) (n : ℕ) :
    nextAuditNumber year (some (auditNumberPrefix year ++ pad n 3)) = .ok (auditNumberPrefix year ++ pad (n + 1) 3) := by
  unfold nextAuditNumber
  rw [Option.bind_some, parse_number hyear]
  dsimp only
  rw [if_pos rfl, formatAuditNumber_ok hyear n.succ_pos]

theorem nextAuditNumber_none {year : ℕ} (hyear : 1000 ≤ year ∧ year ≤ 9999) :
    nextAuditNumber year none = .ok (auditNumberPrefix year ++ pad 1 3) :=
  formatAuditNumber_ok hyear Nat.one_pos

/-- A number starts with its year. -/
theorem nextAuditNumber_ok {year : ℕ} {latest : Option String} {auditNumber : String}
    (h : nextAuditNumber year latest = .ok auditNumber) :
    (1000 ≤ year ∧ year ≤ 9999) ∧ auditNumber.startsWith (auditNumberPrefix year) = true := by
  unfold nextAuditNumber at h
  rcases formatAuditNumber_cases year _ with ⟨hyear, hok⟩ | ⟨message, herror⟩
  · rw [hok] at h
    cases h
    exact ⟨hyear, startsWith_append _ _⟩
  · rw [herror] at h
    cases h

/-- An error of the format is not one of the database. -/
theorem nextAuditNumber_error {year : ℕ} {latest : Option String} {e : HttpError}
    (h : nextAuditNumber year latest = .error e) : e ≠ .prisma .p2002 := by
  unfold nextAuditNumber at h
  rcases formatAuditNumber_cases year _ with ⟨-, hok⟩ | ⟨message, herror⟩
  · rw [hok] at h
    cases h
  · rw [herror] at h
    cases h
    exact fun h => by cases h

/-- There is always a next number in a year with four digits. -/
theorem nextAuditNumber_total {year : ℕ} (hyear : 1000 ≤ year ∧ year ≤ 9999) (latest : Option String) :
    ∃ auditNumber, nextAuditNumber year latest = .ok auditNumber := by
  refine ⟨_, formatAuditNumber_ok hyear ?_⟩
  split
  · rename_i parsedYear seq _
    by_cases h : parsedYear = year
    · rw [if_pos h]
      exact seq.succ_pos
    · rw [if_neg h]
      exact Nat.one_pos
  · exact Nat.one_pos

/-- Numbers of different years do not start alike. -/
theorem year_of_startsWith {year year' : ℕ} (hyear : 1000 ≤ year ∧ year ≤ 9999) (hyear' : 1000 ≤ year' ∧ year' ≤ 9999)
    {t : String} (h : t.startsWith (auditNumberPrefix year) = true) (h' : t.startsWith (auditNumberPrefix year') = true) :
    year = year' := by
  rw [String.startsWith_string_iff, toList_prefix] at h h'
  obtain ⟨l, hl⟩ := h
  obtain ⟨l', hl'⟩ := h'
  rw [← hl'] at hl
  simp only [List.cons_append, List.append_assoc, List.cons.injEq, true_and] at hl
  have hdigits := (List.append_inj hl (by rw [toDigits_year hyear, toDigits_year hyear'])).1
  rw [← Nat.ofDigitChars_ten_toDigits (n := year), hdigits, Nat.ofDigitChars_ten_toDigits]

/-- `IA-2026-001`, `IA-2026-002`, ... -/
def auditNumbers (year : ℕ) (hyear : 1000 ≤ year ∧ year ≤ 9999) : Numbering String 1000 :=
  textNumbering (auditNumberPrefix year) 3 1000 three_digits thousand_eq (fun latest => (nextAuditNumber year latest).toOption.getD "")
    (by rw [nextAuditNumber_none hyear]; rfl) fun n => by rw [nextAuditNumber_eq hyear]; rfl

/-- The audit numbers of the engagements of a tenant and year. -/
def engagementNumbers (s : Db) (tenantId : Uuid) (year : ℕ) : Uuid → Option String :=
  references s.engagements (fun e => e.tenantId = tenantId && e.auditNumber.startsWith (auditNumberPrefix year))
    Engagement.auditNumber

/-- The highest of them. -/
def highestNumber (s : Db) (tenantId : Uuid) (year : ℕ) : Option String :=
  greatest ((s.engagements.rows fun _ e =>
    e.tenantId = tenantId && e.auditNumber.startsWith (auditNumberPrefix year)).map fun e => e.2.auditNumber)

theorem highestNumber_highest (s : Db) (tenantId : Uuid) (year : ℕ) :
    Highest (present (engagementNumbers s tenantId year)) (highestNumber s tenantId year) :=
  highest_greatest fun _ _ _ => rfl

/-- A query of a tenant finds the highest number. -/
theorem latestNumber_eq (ctx : Ctx) (s : Db) (year : ℕ) : latestNumber ctx s year = highestNumber s ctx.tenantId year := by
  unfold latestNumber highestNumber Ctx.findMany
  rw [Table.rows_congr]
  intro j e _
  rw [Bool.eq_iff_iff, Bool.and_eq_true, Bool.and_eq_true, Ctx.sees_iff_tenant rfl, decide_eq_true_eq]

/-- More members do not matter to the numbers. -/
theorem Aside.numbers {a b : Db} (h : Aside a b) (tenantId : Uuid) (year : ℕ) :
    engagementNumbers b tenantId year = engagementNumbers a tenantId year := by
  refine references_congr fun j => ?_
  have hj := h.engagements j
  generalize a.engagements.find j = row at hj
  generalize b.engagements.find j = row' at hj
  cases hj with
  | none => exact .none
  | some hjoined =>
    rw [hjoined.rest]
    exact .some ⟨rfl, rfl⟩

/-- Nor to the highest number. -/
theorem Aside.highest {a b : Db} (h : Aside a b) (tenantId : Uuid) (year : ℕ) :
    highestNumber b tenantId year = highestNumber a tenantId year := by
  have hb := highestNumber_highest b tenantId year
  rw [h.numbers] at hb
  exact hb.unique (highestNumber_highest a tenantId year)

/-! ### Requests that create no engagement -/

/-- The request creates an engagement of a tenant and year. -/
def CreatesIn (tenantId : Uuid) (year : ℕ) (s : Db) (r : Request) : Prop :=
  (∃ ctx dto, r = .create ctx dto ∧ ctx.tenantId = tenantId ∧ dto.year ctx.now = year) ∧ Accepted serve s r

theorem apply_number {dto : UpdateEngagementDto} {e e' : Engagement} (h : dto.apply e = .ok e') :
    e'.tenantId = e.tenantId ∧ e'.auditNumber = e.auditNumber := by
  unfold UpdateEngagementDto.apply at h
  split at h
  · cases h
    exact ⟨rfl, rfl⟩
  · cases h

/-- A commit that creates no engagement keeps the rows, with their tenants and numbers. -/
theorem Commit.numbers {s s₁ s₂ : Db} {r : Request} (h : Commit Aside s r s₁ s₂) (tenantId : Uuid) (year : ℕ) :
    (∃ ctx dto auditNumber id, r = .create ctx dto ∧ s₁.engagements.find id = none ∧
      (∀ j, s₂.engagements.find j =
        if j = id then some (newEngagement ctx dto auditNumber) else s₁.engagements.find j) ∧
      nextAuditNumber (dto.year ctx.now) (highestNumber s₁ ctx.tenantId (dto.year ctx.now)) = .ok auditNumber ∧
      constrained s₁ id (newEngagement ctx dto auditNumber) = .ok ()) ∨
    engagementNumbers s₂ tenantId year = engagementNumbers s₁ tenantId year := by
  cases h with
  | @create ctx dto id historyId auditNumber _ _ h =>
    obtain ⟨s₀, -, h₀, hnumbered⟩ := h.numbered
    rw [latestNumber_eq, ← h₀.highest] at hnumbered
    exact .inl ⟨ctx, dto, auditNumber, id, rfl, h.fresh, h.rows, hnumbered, h.admitted⟩
  | update h =>
    obtain ⟨htenant, hnumber⟩ := apply_number h.change
    exact .inr (references_update h.row h.rows (by rw [htenant, hnumber]) hnumber)
  | @transition ctx id dto t engagement e _ _ h =>
    obtain ⟨htenant, hnumber, -⟩ := transitioned_kept ctx t engagement e
    exact .inr (references_update h.row h.rows (by rw [htenant, hnumber]) hnumber)

/-- A request that creates no engagement of the tenant and year keeps their numbers. -/
theorem references_kept {s : Db} {r : Request} {tenantId : Uuid} {year : ℕ} (hyear : 1000 ≤ year ∧ year ≤ 9999)
    (h : ¬CreatesIn tenantId year s r) :
    engagementNumbers (after serve s r) tenantId year = engagementNumbers s tenantId year := by
  rcases serve_effect s r with ⟨-, haside⟩ | ⟨hacc, s₁, s₂, h₁, hcommit, h₂⟩
  · exact haside.numbers tenantId year
  rw [h₂.numbers, ← h₁.numbers]
  rcases hcommit.numbers tenantId year with ⟨ctx, dto, auditNumber, id, rfl, hfresh, hrows, hnumbered, -⟩ | hkept
  · refine references_insert_other hfresh hrows ?_
    obtain ⟨hyear', hstart⟩ := nextAuditNumber_ok hnumbered
    by_contra hother
    rw [Bool.not_eq_false, Bool.and_eq_true, decide_eq_true_eq] at hother
    refine h ⟨⟨ctx, dto, rfl, hother.1, ?_⟩, hacc⟩
    exact (year_of_startsWith hyear hyear' hother.2 hstart).symm
  · exact hkept

/-! ### Creation -/

section Create

variable {s : Db} {ctx : Ctx} {dto : CreateEngagementDto} (hyear : 1000 ≤ dto.year ctx.now ∧ dto.year ctx.now ≤ 9999)

/-- The number that follows is the next one of the numbering, where it is defined. -/
theorem next_of_ok {latest : Option String} {auditNumber : String}
    (h : nextAuditNumber (dto.year ctx.now) latest = .ok auditNumber) :
    (auditNumbers (dto.year ctx.now) hyear).next latest = auditNumber :=
  show (nextAuditNumber (dto.year ctx.now) latest).toOption.getD "" = auditNumber by rw [h]; rfl

/-- **A new engagement** has the number that follows the highest one, which was free. -/
theorem created_issued (hacc : Accepted serve s (.create ctx dto)) :
    (auditNumbers (dto.year ctx.now) hyear).next (highestNumber s ctx.tenantId (dto.year ctx.now)) ∉
        present (engagementNumbers s ctx.tenantId (dto.year ctx.now)) ∧
      ∃ j, Issued (engagementNumbers s ctx.tenantId (dto.year ctx.now)) j
        ((auditNumbers (dto.year ctx.now) hyear).next (highestNumber s ctx.tenantId (dto.year ctx.now)))
        (engagementNumbers (after serve s (.create ctx dto)) ctx.tenantId (dto.year ctx.now)) := by
  rcases serve_effect s (.create ctx dto) with ⟨hfail, -⟩ | ⟨-, s₁, s₂, h₁, hcommit, h₂⟩
  · exact absurd hacc hfail
  rw [h₂.numbers, ← h₁.numbers, ← h₁.highest]
  cases hcommit with
  | @create _ _ id historyId auditNumber _ _ h =>
    obtain ⟨s₀, -, h₀, hnumbered⟩ := h.numbered
    rw [latestNumber_eq, ← h₀.highest] at hnumbered
    obtain ⟨-, hstart⟩ := nextAuditNumber_ok hnumbered
    rw [next_of_ok hyear hnumbered]
    refine ⟨(unique_iff (q := fun e => e.tenantId = ctx.tenantId) h.fresh ?_).mp ?_, id,
      references_insert h.fresh h.rows (by simp [newEngagement, hstart])⟩
    · intro e he
      rw [he, hstart, Bool.and_true]
    · have hadmitted := h.admitted
      unfold constrained at hadmitted
      split at hadmitted
      · cases hadmitted
      · rename_i hunique
        exact (Bool.not_eq_true _).mp hunique

/-- A request for a new engagement in which nothing but its number may be in the way. -/
structure Admissible (s : Db) (ctx : Ctx) (dto : CreateEngagementDto) : Prop where
  permitted : ctx.hasPermission .engagementCreate = true
  entity : Found ctx Db.entities dto.entityId (fun _ e => e.deletedAt.isNone) (· = ·) s s
  lead : refersTo s.users dto.leadId.orNull = true
  manager : refersTo s.users dto.managerId.orNull = true
  partner : refersTo s.users dto.partnerId.orNull = true
  user : refersTo s.users (some ctx.userId) = true
  fresh : s.engagements.find (ctx.uuid 0) = none
  freshEntry : s.stageHistory.find (ctx.uuid 1) = none

/-- An attempt to insert an engagement, numbered after the highest one. -/
def attempted (ctx : Ctx) (dto : CreateEngagementDto) (year attempt : ℕ) (latest : Option String) :
    Service (WithId Engagement) :=
  match nextAuditNumber year latest with
  | .error e => throw e
  | .ok auditNumber => insertEngagement (ctx.uuid (2 * attempt)) (ctx.uuid (2 * attempt + 1))
      (newEngagement ctx dto auditNumber) (opened ctx (ctx.uuid (2 * attempt)))

theorem attempted_eq {ctx : Ctx} {dto : CreateEngagementDto} {year attempt : ℕ} {latest : Option String}
    {auditNumber : String} (h : nextAuditNumber year latest = .ok auditNumber) :
    attempted ctx dto year attempt latest = insertEngagement (ctx.uuid (2 * attempt)) (ctx.uuid (2 * attempt + 1))
      (newEngagement ctx dto auditNumber) (opened ctx (ctx.uuid (2 * attempt))) := by
  unfold attempted
  rw [h]

/-- The loop numbers engagements. -/
theorem insertNumbered_numbered (ctx : Ctx) (dto : CreateEngagementDto) (year : ℕ) :
    Numbered (fun db => latestNumber ctx db year) (attempted ctx dto year) (insertNumbered ctx dto year) where
  exhausted := ⟨_, rfl⟩
  attempt left := by
    rw [insertNumbered]
    congr 1
    funext latest
    unfold attempted
    cases hnext : nextAuditNumber year latest with
    | ok auditNumber => rfl
    | error e =>
      dsimp only
      show throw e = if e = .prisma .p2002 ∧ 4 - left < 4 then insertNumbered ctx dto year left else throw e
      rw [if_neg fun h => nextAuditNumber_error hnext h.1]
  atomic attempt latest := by
    unfold attempted
    split
    · exact (Prog.readOnly_throw _).atomic
    · exact Prog.atomic_call _

include hyear

/-- **An engagement is created** if its number is free. -/
theorem create_accepted (h : Admissible s ctx dto)
    (hfree : (auditNumbers (dto.year ctx.now) hyear).next (highestNumber s ctx.tenantId (dto.year ctx.now)) ∉
      present (engagementNumbers s ctx.tenantId (dto.year ctx.now))) :
    Accepted serve s (.create ctx dto) := by
  obtain ⟨auditNumber, hnext⟩ := nextAuditNumber_total hyear (highestNumber s ctx.tenantId (dto.year ctx.now))
  rw [next_of_ok hyear hnext] at hfree
  rw [← latestNumber_eq] at hnext
  obtain ⟨-, hstart⟩ := nextAuditNumber_ok hnext
  -- the first attempt inserts the engagement
  have hadmitted : constrained s (ctx.uuid 0) (newEngagement ctx dto auditNumber) = .ok () := by
    unfold constrained
    rw [if_neg, if_pos]
    · simp [newEngagement, h.entity.refersTo, h.lead, h.manager, h.partner]
    · refine (Bool.not_eq_true _).mpr ((unique_iff (q := fun e => e.tenantId = ctx.tenantId) h.fresh ?_).mpr hfree)
      intro e he
      rw [show e.auditNumber = auditNumber from he, hstart, Bool.and_true]
  obtain ⟨engagements, hengagements⟩ := insertRow_fresh h.fresh (newEngagement ctx dto auditNumber)
  obtain ⟨entries, hentries⟩ := insertRow_fresh h.freshEntry (opened ctx (ctx.uuid 0))
  have hinsert : (attempted ctx dto (dto.year ctx.now) 0 (latestNumber ctx s (dto.year ctx.now))).run s =
      (.ok (ctx.uuid 0, newEngagement ctx dto auditNumber), { s with engagements, stageHistory := entries }) := by
    rw [attempted_eq hnext]
    refine Prog.run_transaction_ok.mpr (Prog.run_bind_ok.mpr ⟨(), { s with engagements }, ?_, ?_⟩)
    · refine Prog.run_call_ok.mpr ?_
      rw [hadmitted, hengagements]
      rfl
    · refine Prog.run_bind_ok.mpr ⟨(), { s with engagements, stageHistory := entries }, Prog.run_call_ok.mpr ?_, rfl⟩
      have hon : refersTo engagements (some (ctx.uuid 0)) = true :=
        refersTo_iff.mpr fun _ hi => ⟨_, Option.some.inj hi ▸ ((insertRow_ok hengagements).2 _).trans (if_pos rfl)⟩
      dsimp only
      rw [if_pos (by simp [opened, hon, h.user]), hentries]
      rfl
  refine Prog.succeeds_guard (by simp [Request.permission, Request.ctx, h.permitted]) (Prog.Succeeds.map ?_ _)
  unfold create
  refine Prog.succeeds_bind (assertRelated_run h.entity _) ?_
  refine Prog.succeeds_bind ((insertNumbered_numbered ctx dto _).run_first hinsert) ?_
  obtain ⟨_, _, hrest, -⟩ := ((auditRecord_quiet ctx "engagement.created" "Engagement" (ctx.uuid 0)).bind fun _ =>
    (notifyMany_quiet ctx _ _).bind fun _ => Prog.within_pure (ctx.uuid 0, newEngagement ctx dto auditNumber)).run
      Quiet.refl (fun _ _ _ => Quiet.trans) { s with engagements, stageHistory := entries }
  exact ⟨_, _, hrest⟩

end Create

end AuditSphere.Engagements
