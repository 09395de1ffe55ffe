import Mathlib.Data.Rat.Defs
import AuditSphere.Common.Values

/-!
# The content of an answer

`packages/shared/src/ai-assistant.ts`: what the assistant answers with, and the schema that
it has to satisfy, which limits the length of every text and list.
-/

namespace AuditSphere.Shared

namespace Assistant

/-- What a statement rests on. -/
inductive AuditBasis where
  | fact | assessment | assumption | recommendation | missing
  deriving DecidableEq

/-- `AuditStatement`. -/
structure Statement where
  text : String
  basis : AuditBasis
  sourceIds : List String

/-- A row of a section. -/
structure Row where
  cells : List String
  basis : AuditBasis
  sourceIds : List String

/-- A section: statements, and a table. -/
structure Section where
  title : String
  items : List Statement
  columns : List String
  rows : List Row

/-- How severe an exception is. -/
inductive Severity where
  | low | medium | high | critical | unrated
  deriving DecidableEq

/-- An exception is recorded, or seen by the assistant. -/
inductive ExceptionStatus where
  | recorded | potential
  deriving DecidableEq

/-- An exception. -/
structure Exception where
  reference : String
  observation : String
  risk : String
  severity : Severity
  status : ExceptionStatus
  sourceIds : List String

/-- How urgent a note is. -/
inductive Priority where
  | high | medium | low
  deriving DecidableEq

/-- A note of the reviewer. -/
structure ReviewerNote where
  priority : Priority
  area : String
  comment : String
  sourceIds : List String

/-- What is found of the evidence. -/
inductive CheckResult where
  | present | missing | notVerified
  deriving DecidableEq

/-- A check of the evidence. -/
structure EvidenceCheck where
  label : String
  result : CheckResult
  detail : String
  sourceIds : List String

/-- Whether the evidence is enough. -/
inductive EvidenceStatus where
  | sufficient | partiallySufficient | insufficient | notAssessed
  deriving DecidableEq

/-- `evidenceAssessment`. -/
structure EvidenceAssessment where
  status : EvidenceStatus
  rationale : String
  sourceIds : List String
  checks : List EvidenceCheck

/-- `ratingProposal`. -/
structure RatingProposal where
  impact : Option ℚ
  likelihood : Option ℚ
  score : Option ℚ
  rating : Severity
  rationale : String
  sourceIds : List String

/-- `AssistantContent`. -/
structure Content where
  title : String
  narrative : String
  sections : List Section
  exceptions : List Exception
  reviewerNotes : List ReviewerNote
  evidenceAssessment : EvidenceAssessment
  ratingProposal : RatingProposal
  suggestions : List String
  checklist : List String
  caveats : List String

/-! ### The schema -/

/-- The length of a text. -/
def size (s : String) : ℕ := unitLength s.toList

/-- `z.string().max(n)`. -/
def IsWithin (n : ℕ) (s : String) : Prop := size s ≤ n

/-- `text`. -/
def IsText (s : String) : Prop := IsWithin 12000 s

/-- `refs`. -/
def IsRefs (ids : List String) : Prop := ids.length ≤ 100 ∧ ∀ id ∈ ids, IsWithin 30 id

/-- `statement`. -/
def Statement.Fits (s : Statement) : Prop := IsText s.text ∧ IsRefs s.sourceIds

/-- `row`. -/
def Row.Fits (r : Row) : Prop :=
  (1 ≤ r.cells.length ∧ r.cells.length ≤ 10) ∧ (∀ cell ∈ r.cells, IsWithin 4000 cell) ∧ IsRefs r.sourceIds

/-- A section of the schema. -/
structure Section.Fits (s : Section) : Prop where
  title : IsWithin 160 s.title
  items : s.items.length ≤ 100 ∧ ∀ item ∈ s.items, item.Fits
  columns : s.columns.length ≤ 10 ∧ ∀ column ∈ s.columns, IsWithin 100 column
  rows : s.rows.length ≤ 100 ∧ ∀ row ∈ s.rows, row.Fits

/-- An exception of the schema. -/
def Exception.Fits (e : Exception) : Prop :=
  IsWithin 30 e.reference ∧ IsText e.observation ∧ IsText e.risk ∧ IsRefs e.sourceIds

/-- A note of the schema. -/
def ReviewerNote.Fits (n : ReviewerNote) : Prop := IsWithin 160 n.area ∧ IsText n.comment ∧ IsRefs n.sourceIds

/-- A check of the schema. -/
def EvidenceCheck.Fits (c : EvidenceCheck) : Prop := IsWithin 160 c.label ∧ IsText c.detail ∧ IsRefs c.sourceIds

/-- `evidenceAssessment` of the schema. -/
structure EvidenceAssessment.Fits (a : EvidenceAssessment) : Prop where
  rationale : IsText a.rationale
  sourceIds : IsRefs a.sourceIds
  checks : a.checks.length ≤ 20 ∧ ∀ check ∈ a.checks, check.Fits

/-- `z.number().int().min(1).max(5)`. -/
def IsGrade (q : ℚ) : Prop := q.den = 1 ∧ 1 ≤ q ∧ q ≤ 5

/-- `ratingProposal` of the schema. -/
structure RatingProposal.Fits (p : RatingProposal) : Prop where
  impact : ∀ q ∈ p.impact, IsGrade q
  likelihood : ∀ q ∈ p.likelihood, IsGrade q
  score : ∀ q ∈ p.score, 1 ≤ q ∧ q ≤ 25
  rationale : IsText p.rationale
  sourceIds : IsRefs p.sourceIds

/-- The texts of a list that is limited. -/
def AreTexts (texts : List String) : Prop := texts.length ≤ 100 ∧ ∀ s ∈ texts, IsText s

/-- `AssistantContentSchema`. -/
structure Content.Fits (c : Content) : Prop where
  title : 1 ≤ size c.title ∧ IsWithin 300 c.title
  narrative : IsText c.narrative
  sections : c.sections.length ≤ 20 ∧ ∀ s ∈ c.sections, s.Fits
  exceptions : c.exceptions.length ≤ 100 ∧ ∀ e ∈ c.exceptions, e.Fits
  reviewerNotes : c.reviewerNotes.length ≤ 100 ∧ ∀ n ∈ c.reviewerNotes, n.Fits
  evidenceAssessment : c.evidenceAssessment.Fits
  ratingProposal : c.ratingProposal.Fits
  suggestions : AreTexts c.suggestions
  checklist : AreTexts c.checklist
  caveats : AreTexts c.caveats

/-! ### Lengths -/

instance (n : ℕ) (s : String) : Decidable (IsWithin n s) := inferInstanceAs (Decidable (_ ≤ _))

instance (s : String) : Decidable (IsText s) := inferInstanceAs (Decidable (IsWithin _ _))

theorem IsWithin.mono {m n : ℕ} {s : String} (h : IsWithin m s) (hmn : m ≤ n) : IsWithin n s := Nat.le_trans h hmn

theorem isRefs_nil : IsRefs [] := ⟨Nat.zero_le _, nofun⟩

theorem size_append (s t : String) : size (s ++ t) = size s + size t := by
  rw [size, String.toList_append, unitLength, List.map_append, List.sum_append]
  rfl

theorem size_empty : size "" = 0 := rfl

/-- The length of a text that is written out. -/
theorem size_ofList (s : List Char) : size (String.ofList s) = unitLength s := by rw [size, String.toList_ofList]

theorem size_ofList_le {s : List Char} {n : ℕ} (h : unitLength s ≤ n) : size (String.ofList s) ≤ n :=
  (size_ofList s).trans_le h

theorem size_append_le {s t : String} {m n : ℕ} (hs : size s ≤ m) (ht : size t ≤ n) : size (s ++ t) ≤ m + n :=
  (size_append s t).trans_le (Nat.add_le_add hs ht)

/-- A text that is cut is not longer than that. -/
theorem unitLength_sliceUnits_le (n : ℕ) (s : List Char) : unitLength (sliceUnits n s) ≤ n := by
  fun_induction sliceUnits n s with
  | case1 => exact Nat.zero_le _
  | case2 => exact Nat.zero_le _
  | case3 c s n h ih =>
    rw [unitLength_cons, if_pos h]
    omega
  | case4 => decide
  | case5 c s h n ih =>
    rw [unitLength_cons, if_neg h]
    omega

/-- Every character has a unit. -/
theorem length_le_unitLength (s : List Char) : s.length ≤ unitLength s := by
  induction s with
  | nil => exact Nat.le_refl 0
  | cons c s ih =>
    rw [unitLength_cons, List.length_cons]
    split <;> omega

/-- A number below 2^32 has ten digits at most. -/
theorem size_toString_le {n : ℕ} (h : n < 2 ^ 32) : size (toString n) ≤ 10 := by
  have hdigits : (toString n).toList = Nat.toDigits 10 n := by rw [Nat.toString_eq_repr, Nat.toList_repr]
  rw [size, hdigits, unitLength_eq_length, Nat.length_toDigits_le_iff (by decide) (by decide)]
  · exact h.trans (by decide)
  · intro c hc
    have hdigit := Nat.isDigit_of_mem_toDigits (by decide) (by decide) hc
    rw [Char.isDigit, Bool.and_eq_true, decide_eq_true_eq, decide_eq_true_eq] at hdigit
    have hle : c.toNat ≤ 57 := hdigit.2
    omega

/-! ### Checks -/

instance (ids : List String) : Decidable (IsRefs ids) := inferInstanceAs (Decidable (_ ∧ ∀ id ∈ ids, _))

instance (texts : List String) : Decidable (AreTexts texts) := inferInstanceAs (Decidable (_ ∧ ∀ s ∈ texts, _))

instance (s : Statement) : Decidable s.Fits := inferInstanceAs (Decidable (_ ∧ _))

instance (r : Row) : Decidable r.Fits := inferInstanceAs (Decidable (_ ∧ (∀ cell ∈ r.cells, _) ∧ _))

instance (s : Section) : Decidable s.Fits :=
  decidable_of_iff (IsWithin 160 s.title ∧ (s.items.length ≤ 100 ∧ ∀ item ∈ s.items, item.Fits) ∧
    (s.columns.length ≤ 10 ∧ ∀ column ∈ s.columns, IsWithin 100 column) ∧ (s.rows.length ≤ 100 ∧ ∀ row ∈ s.rows, row.Fits))
    ⟨fun h => ⟨h.1, h.2.1, h.2.2.1, h.2.2.2⟩, fun h => ⟨h.title, h.items, h.columns, h.rows⟩⟩

instance (e : Exception) : Decidable e.Fits := inferInstanceAs (Decidable (_ ∧ _ ∧ _ ∧ _))

instance (n : ReviewerNote) : Decidable n.Fits := inferInstanceAs (Decidable (_ ∧ _ ∧ _))

instance (c : EvidenceCheck) : Decidable c.Fits := inferInstanceAs (Decidable (_ ∧ _ ∧ _))

instance (a : EvidenceAssessment) : Decidable a.Fits :=
  decidable_of_iff (IsText a.rationale ∧ IsRefs a.sourceIds ∧ a.checks.length ≤ 20 ∧ ∀ check ∈ a.checks, check.Fits)
    ⟨fun h => ⟨h.1, h.2.1, h.2.2⟩, fun h => ⟨h.rationale, h.sourceIds, h.checks⟩⟩

instance (q : ℚ) : Decidable (IsGrade q) := inferInstanceAs (Decidable (_ ∧ _ ∧ _))

instance (p : RatingProposal) : Decidable p.Fits :=
  decidable_of_iff ((∀ q ∈ p.impact, IsGrade q) ∧ (∀ q ∈ p.likelihood, IsGrade q) ∧ (∀ q ∈ p.score, 1 ≤ q ∧ q ≤ 25) ∧
    IsText p.rationale ∧ IsRefs p.sourceIds)
    ⟨fun h => ⟨h.1, h.2.1, h.2.2.1, h.2.2.2.1, h.2.2.2.2⟩,
      fun h => ⟨h.impact, h.likelihood, h.score, h.rationale, h.sourceIds⟩⟩

instance (c : Content) : Decidable c.Fits :=
  decidable_of_iff ((1 ≤ size c.title ∧ IsWithin 300 c.title) ∧ IsText c.narrative ∧
    (c.sections.length ≤ 20 ∧ ∀ s ∈ c.sections, s.Fits) ∧ (c.exceptions.length ≤ 100 ∧ ∀ e ∈ c.exceptions, e.Fits) ∧
    (c.reviewerNotes.length ≤ 100 ∧ ∀ n ∈ c.reviewerNotes, n.Fits) ∧ c.evidenceAssessment.Fits ∧ c.ratingProposal.Fits ∧
    AreTexts c.suggestions ∧ AreTexts c.checklist ∧ AreTexts c.caveats)
    ⟨fun h => ⟨h.1, h.2.1, h.2.2.1, h.2.2.2.1, h.2.2.2.2.1, h.2.2.2.2.2.1, h.2.2.2.2.2.2.1, h.2.2.2.2.2.2.2.1,
      h.2.2.2.2.2.2.2.2.1, h.2.2.2.2.2.2.2.2.2⟩,
      fun h => ⟨h.title, h.narrative, h.sections, h.exceptions, h.reviewerNotes, h.evidenceAssessment, h.ratingProposal,
        h.suggestions, h.checklist, h.caveats⟩⟩

end Assistant

end AuditSphere.Shared
