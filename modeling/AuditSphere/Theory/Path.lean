import AuditSphere.Theory.Seen

/-!
# Records that keep a history of their state

A record is in a state, and each change of the state is written down: where from and
where to. The rows are a `Path` if the first says where the record began and every
other is a declared step from where the last one led to; they fit the record if they
lead to the state that it is in (`Recorded.Fits`).

A program that reads the state, decides and writes the new state with its row later
writes down where it believes the record to be. `fits_iff_current`: in an interleaving
of such programs the rows fit all the time exactly if every call that moves a record
finds it in the state that was read (`Current`).
-/

namespace AuditSphere.Theory

variable {S : Type}

/-- The rows, the most recent first, lead from the initial state to a state. -/
inductive Path (initial : S) (declared : S → S → Prop) : List (Option S × S) → S → Prop where
  /-- The record begins. -/
  | start : Path initial declared [(none, initial)] initial
  /-- One more step. -/
  | step {rows a b} (h : Path initial declared rows a) (hab : declared a b) :
    Path initial declared ((some a, b) :: rows) b

/-- A record as its history shows it: its state, if it is there, and the rows. -/
structure Recorded (S : Type) where
  /-- The state, if the record is there. -/
  state : Option S
  /-- The rows of its history, the most recent first. -/
  rows : List (Option S × S)
  deriving DecidableEq

section Path

variable {initial : S} {declared : S → S → Prop}

/-- Rows lead to one state only: the one that the last row says. -/
theorem Path.head {rows : List (Option S × S)} {a : S} (h : Path initial declared rows a) :
    rows.head?.map Prod.snd = some a := by
  cases h <;> rfl

theorem Path.unique {rows : List (Option S × S)} {a b : S} (ha : Path initial declared rows a)
    (hb : Path initial declared rows b) : a = b :=
  Option.some.inj (ha.head.symm.trans hb.head)

theorem path_step_iff {rows : List (Option S × S)} {a b : S} :
    Path initial declared ((some a, b) :: rows) b ↔ Path initial declared rows a ∧ declared a b := by
  constructor
  · rintro (_ | ⟨h, hab⟩)
    exact ⟨h, hab⟩
  · rintro ⟨h, hab⟩
    exact .step h hab

/-- The rows fit the record: there are none if it is not there, and else they lead to its state. -/
def Recorded.Fits (initial : S) (declared : S → S → Prop) (v : Recorded S) : Prop :=
  match v.state with
  | none => v.rows = []
  | some a => Path initial declared v.rows a

/-- What a call makes of a record whose state has been read as `read`. -/
inductive Advance (initial : S) (declared : S → S → Prop) (read : Option S) : Recorded S → Recorded S → Prop where
  /-- Nothing. -/
  | kept (v) : Advance initial declared read v v
  /-- The record begins. -/
  | created {rows} : Advance initial declared read ⟨none, rows⟩ ⟨some initial, (none, initial) :: rows⟩
  /-- The record moves, by a step from the state that was read. -/
  | moved {a b c rows} (hread : read = some a) (hac : declared a c) :
    Advance initial declared read ⟨some b, rows⟩ ⟨some c, (some a, c) :: rows⟩

/-- A row of a record that is there is written only if it is in the state that was read. -/
def Current (read : Option S) (v v' : Recorded S) : Prop := v'.rows ≠ v.rows → v.state = none ∨ read = v.state

instance [DecidableEq S] (read : Option S) (v v' : Recorded S) : Decidable (Current read v v') :=
  inferInstanceAs (Decidable (_ → _))

variable {read : Option S} {v v' : Recorded S}

/-- **One call**: the rows still fit exactly if the state was current. -/
theorem Advance.fits_iff (h : Advance initial declared read v v') (hv : v.Fits initial declared) :
    v'.Fits initial declared ↔ Current read v v' := by
  cases h with
  | kept => exact ⟨fun _ h => absurd rfl h, fun _ => hv⟩
  | created =>
    obtain rfl : _ = [] := hv
    exact ⟨fun _ _ => .inl rfl, fun _ => .start⟩
  | @moved a b c rows hread hac =>
    have hpath : Path initial declared rows b := hv
    constructor
    · intro h _
      rw [hread, (path_step_iff.mp h).1.unique hpath]
      exact .inr rfl
    · intro h
      rcases h (List.cons_ne_self _ _) with hnone | hsame
      · cases hnone
      · rw [hread, Option.some.injEq] at hsame
        subst hsame
        exact .step hpath hac

/-- What of a history no call breaks: every row is declared, and the last one leads to the state. -/
structure Recorded.Loose (initial : S) (declared : S → S → Prop) (v : Recorded S) : Prop where
  rows : ∀ row ∈ v.rows, match row.1 with
    | none => row.2 = initial
    | some a => declared a row.2
  last : v.rows.head?.map Prod.snd = v.state

/-- Rows that fit are so. -/
theorem Recorded.Fits.loose (h : v.Fits initial declared) : v.Loose initial declared := by
  obtain ⟨state, rows⟩ := v
  cases state with
  | none =>
    obtain rfl : rows = [] := h
    exact ⟨fun _ h => absurd h List.not_mem_nil, rfl⟩
  | some a =>
    have hpath : Path initial declared rows a := h
    refine ⟨fun row hrow => ?_, hpath.head⟩
    clear h
    dsimp only at hrow
    induction hpath with
    | start =>
      obtain rfl := List.mem_singleton.mp hrow
      rfl
    | step _ hab ih =>
      rcases List.mem_cons.mp hrow with rfl | hrow
      · exact hab
      · exact ih hrow

/-- One call keeps them so, whatever it has read. -/
theorem Advance.loose (h : Advance initial declared read v v') (hv : v.Loose initial declared) :
    v'.Loose initial declared := by
  cases h with
  | kept => exact hv
  | created =>
    refine ⟨fun row hrow => ?_, rfl⟩
    rcases List.mem_cons.mp hrow with rfl | hrow
    · rfl
    · exact hv.rows row hrow
  | moved _ hac =>
    refine ⟨fun row hrow => ?_, rfl⟩
    rcases List.mem_cons.mp hrow with rfl | hrow
    · exact hac
    · exact hv.rows row hrow

end Path

/-! ### Interleavings -/

section Interleave

variable {ρ σ ε α : Type} (prog : ρ → Prog σ ε α) (view : σ → Recorded S) (k : ℕ) (s₀ : σ)

/-- The state of the record as a request has read it, at its `k`-th call from 0. -/
def readAt (l : List σ) : Option S := l.reverse[k]?.bind fun s => (view s).state

/-- In every call, the state of the record was current. -/
def AllCurrent : List (Event ρ) → Prop
  | [] => True
  | .start _ :: past => AllCurrent past
  | .turn j :: past =>
    Current (readAt view k (seen prog s₀ j past)) (view (interleave prog s₀ past).st)
      (view (interleave prog s₀ (.turn j :: past)).st) ∧ AllCurrent past

instance decidableAllCurrent [DecidableEq S] : ∀ evs, Decidable (AllCurrent prog view k s₀ evs)
  | [] => .isTrue trivial
  | .start _ :: past => decidableAllCurrent past
  | .turn _ :: past => @instDecidableAnd _ _ _ (decidableAllCurrent past)

variable {prog view k s₀} {initial : S} {declared : S → S → Prop}

/-- **Histories of states**: the rows fit after every event exactly if every call that
moves the record finds it in the state that was read. -/
theorem fits_iff_current (hprog : ∀ r, (prog r).Along
      (fun l s s' => Advance initial declared (readAt view k l) (view s) (view s')) (fun _ _ => True) [])
    (h₀ : (view s₀).Fits initial declared) (evs : List (Event ρ)) :
    (∀ past, past <:+ evs → (view (interleave prog s₀ past).st).Fits initial declared) ↔
      AllCurrent prog view k s₀ evs := by
  induction evs with
  | nil =>
    refine ⟨fun _ => trivial, fun _ past hpast => ?_⟩
    rw [List.suffix_nil.mp hpast]
    exact h₀
  | cons e past ih =>
    have hsplit : (∀ past', past' <:+ e :: past → (view (interleave prog s₀ past').st).Fits initial declared) ↔
        (view (interleave prog s₀ (e :: past)).st).Fits initial declared ∧
          ∀ past', past' <:+ past → (view (interleave prog s₀ past').st).Fits initial declared := by
      simp only [List.suffix_cons_iff, forall_eq_or_imp]
    rw [hsplit, ih]
    have hfits : AllCurrent prog view k s₀ past → (view (interleave prog s₀ past).st).Fits initial declared :=
      fun h => ih.mpr h past List.suffix_rfl
    cases e with
    | start r => exact ⟨fun h => h.2, fun h => ⟨hfits h, h⟩⟩
    | turn j =>
      refine and_congr_left fun h => ?_
      rcases along_turn s₀ hprog past j with heq | ⟨_, -, hadvance⟩
      · rw [interleave, heq]
        exact (Advance.kept _).fits_iff (hfits h)
      · exact hadvance.fits_iff (hfits h)

/-- Whatever the requests have read, every row is declared, and the last one leads to the state. -/
theorem loose_of_interleave (hprog : ∀ r, (prog r).Along
      (fun l s s' => Advance initial declared (readAt view k l) (view s) (view s')) (fun _ _ => True) [])
    (h₀ : (view s₀).Loose initial declared) (evs : List (Event ρ)) :
    (view (interleave prog s₀ evs).st).Loose initial declared := by
  induction evs with
  | nil => exact h₀
  | cons e past ih =>
    cases e with
    | start r => exact ih
    | turn j =>
      rcases along_turn s₀ hprog past j with heq | ⟨_, -, hadvance⟩
      · rw [interleave, heq]
        exact ih
      · exact hadvance.loose ih

end Interleave

end AuditSphere.Theory
