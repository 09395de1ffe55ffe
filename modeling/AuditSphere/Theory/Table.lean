import Mathlib.Data.List.Basic
import Mathlib.Data.List.Nodup

/-!
# Tables

A table keeps rows under keys, each key at most once: the list of entries
carries the proof, so a table with a repeated key cannot be built. Rows are
found by key (`find`), inserted under a fresh key (`insert`), changed in place
(`modify`) and removed (`remove`); `first`, `rows` and `count` are the queries.

Every operation is characterised by what `find` returns afterwards, so what is
proved about a table never looks at the order of its entries.
-/

namespace AuditSphere.Theory

/-- Rows `ρ` under keys `ι`. -/
@[ext]
structure Table (ι ρ : Type) where
  /-- The rows, each with its key. -/
  entries : List (ι × ρ)
  /-- No key occurs twice. -/
  nodup : (entries.map Prod.fst).Nodup

namespace Table

variable {ι ρ : Type}

/-- The table without rows. -/
def empty : Table ι ρ := ⟨[], List.nodup_nil⟩

/-- The first row that satisfies `p`, with its key. -/
def first (t : Table ι ρ) (p : ι → ρ → Bool) : Option (ι × ρ) :=
  t.entries.find? fun e => p e.1 e.2

/-- The rows that satisfy `p`, with their keys. -/
def rows (t : Table ι ρ) (p : ι → ρ → Bool) : List (ι × ρ) :=
  t.entries.filter fun e => p e.1 e.2

/-- How many rows satisfy `p`. -/
def count (t : Table ι ρ) (p : ι → ρ → Bool) : ℕ := (t.rows p).length

/-- Change the rows that satisfy `p`; the keys stay. -/
def modify (t : Table ι ρ) (p : ι → ρ → Bool) (f : ρ → ρ) : Table ι ρ where
  entries := t.entries.map fun e => (e.1, if p e.1 e.2 then f e.2 else e.2)
  nodup := by
    rw [List.map_map]
    exact t.nodup

/-- Remove the rows that satisfy `p`. -/
def remove (t : Table ι ρ) (p : ι → ρ → Bool) : Table ι ρ where
  entries := t.entries.filter fun e => !p e.1 e.2
  nodup := (List.filter_sublist.map Prod.fst).nodup t.nodup

variable [DecidableEq ι]

/-- The row under a key. -/
def find (t : Table ι ρ) (i : ι) : Option ρ := (t.first fun j _ => j = i).map Prod.snd

/-- Insert a row under a key that is not yet used. -/
def insert (t : Table ι ρ) (i : ι) (r : ρ) : Option (Table ι ρ) :=
  if h : i ∈ t.entries.map Prod.fst then none
  else some ⟨(i, r) :: t.entries, List.nodup_cons.mpr ⟨h, t.nodup⟩⟩

/-- A row is found under a key exactly when the table has that entry. -/
theorem find_eq_some_iff (t : Table ι ρ) (i : ι) (r : ρ) : t.find i = some r ↔ (i, r) ∈ t.entries := by
  constructor
  · intro h
    obtain ⟨⟨j, r'⟩, he, rfl⟩ := Option.map_eq_some_iff.mp h
    have hj : j = i := by simpa using List.find?_some he
    subst hj
    exact List.mem_of_find?_eq_some he
  · intro h
    have hsome : (t.first fun j _ => j = i).isSome := by
      rw [first, List.find?_isSome]
      exact ⟨(i, r), h, by simp⟩
    obtain ⟨⟨j, r'⟩, he⟩ := Option.isSome_iff_exists.mp hsome
    have hj : j = i := by simpa using List.find?_some he
    subst hj
    have heq : ((j, r') : ι × ρ) = (j, r) :=
      List.inj_on_of_nodup_map t.nodup (List.mem_of_find?_eq_some he) h rfl
    rw [find, he, heq]
    rfl

/-- What holds of every row that can be found can be checked row by row. -/
theorem forall_find_iff (t : Table ι ρ) (P : ι → ρ → Prop) :
    (∀ i r, t.find i = some r → P i r) ↔ ∀ e ∈ t.entries, P e.1 e.2 := by
  constructor
  · exact fun h e he => h e.1 e.2 ((t.find_eq_some_iff e.1 e.2).mpr he)
  · exact fun h i r hr => h (i, r) ((t.find_eq_some_iff i r).mp hr)

theorem find_eq_none_iff (t : Table ι ρ) (i : ι) : t.find i = none ↔ i ∉ t.entries.map Prod.fst := by
  constructor
  · intro h hi
    obtain ⟨⟨j, r⟩, he, rfl⟩ := List.mem_map.mp hi
    rw [(t.find_eq_some_iff j r).mpr he] at h
    cases h
  · intro h
    cases hf : t.find i with
    | none => rfl
    | some r => exact absurd (List.mem_map_of_mem ((t.find_eq_some_iff i r).mp hf)) h

@[simp] theorem find_empty (i : ι) : (empty : Table ι ρ).find i = none := rfl

/-- The rows a query can return are those under some key. -/
theorem mem_rows_iff (t : Table ι ρ) (p : ι → ρ → Bool) (i : ι) (r : ρ) :
    (i, r) ∈ t.rows p ↔ t.find i = some r ∧ p i r = true := by
  rw [rows, List.mem_filter, find_eq_some_iff]

/-- What `first` returns satisfies the condition and is the row under its key. -/
theorem find_of_first {t : Table ι ρ} {p : ι → ρ → Bool} {i : ι} {r : ρ} (h : t.first p = some (i, r)) :
    t.find i = some r ∧ p i r = true :=
  ⟨(t.find_eq_some_iff i r).mpr (List.mem_of_find?_eq_some h), by simpa using List.find?_some h⟩

theorem first_eq_none_iff (t : Table ι ρ) (p : ι → ρ → Bool) :
    t.first p = none ↔ ∀ i r, t.find i = some r → p i r = false := by
  rw [first, List.find?_eq_none]
  constructor
  · intro h i r hr
    simpa using h (i, r) ((t.find_eq_some_iff i r).mp hr)
  · rintro h ⟨i, r⟩ hr
    simpa using h i r ((t.find_eq_some_iff i r).mpr hr)

/-- A query finds a row if there is one. -/
theorem isSome_first_iff {t : Table ι ρ} {p : ι → ρ → Bool} :
    (t.first p).isSome = true ↔ ∃ i r, t.find i = some r ∧ p i r = true := by
  have hnone := t.first_eq_none_iff p
  cases hfirst : t.first p with
  | none => simpa using hnone.mp hfirst
  | some row => simpa [hfirst] using hnone

/-- A query that fixes the key returns the row under it, if that satisfies the rest. -/
theorem first_key (t : Table ι ρ) (i : ι) (p : ρ → Bool) :
    (t.first fun j r => decide (j = i) && p r) = ((t.find i).filter p).map fun r => (i, r) := by
  cases hf : t.find i with
  | none =>
    rw [Option.filter_none, Option.map_none, first_eq_none_iff]
    intro j r hr
    by_cases hj : j = i
    · subst hj
      rw [hf] at hr
      cases hr
    · simp [hj]
  | some r =>
    by_cases hp : p r = true
    · rw [Option.filter_some, if_pos hp, Option.map_some]
      cases hq : t.first fun j r => decide (j = i) && p r with
      | none =>
        have := (t.first_eq_none_iff _).mp hq i r hf
        simp [hp] at this
      | some e =>
        obtain ⟨hj, hc⟩ := find_of_first hq
        simp only [Bool.and_eq_true, decide_eq_true_eq] at hc
        rw [hc.1, hf, Option.some.injEq] at hj
        rw [hj, ← hc.1]
    · rw [Option.filter_some, if_neg hp, Option.map_none, first_eq_none_iff]
      intro j r' hr'
      by_cases hj : j = i
      · subst hj
        rw [hf, Option.some.injEq] at hr'
        subst hr'
        simpa using hp
      · simp [hj]

theorem count_eq_zero_iff (t : Table ι ρ) (p : ι → ρ → Bool) :
    t.count p = 0 ↔ ∀ i r, t.find i = some r → p i r = false := by
  rw [count, List.length_eq_zero_iff, rows, List.filter_eq_nil_iff]
  constructor
  · intro h i r hr
    simpa using h (i, r) ((t.find_eq_some_iff i r).mp hr)
  · rintro h ⟨i, r⟩ hr
    simpa using h i r ((t.find_eq_some_iff i r).mpr hr)

/-- After a change, the row under a key is the changed one if it was selected. -/
@[simp] theorem find_modify (t : Table ι ρ) (p : ι → ρ → Bool) (f : ρ → ρ) (i : ι) :
    (t.modify p f).find i = (t.find i).map fun r => if p i r then f r else r := by
  cases hf : t.find i with
  | none =>
    rw [find_eq_none_iff] at hf
    rw [Option.map_none, find_eq_none_iff]
    intro h
    obtain ⟨e, he, rfl⟩ := List.mem_map.mp h
    obtain ⟨e', he', rfl⟩ := List.mem_map.mp he
    exact hf (List.mem_map.mpr ⟨e', he', rfl⟩)
  | some r =>
    rw [Option.map_some, find_eq_some_iff]
    exact List.mem_map.mpr ⟨(i, r), (t.find_eq_some_iff i r).mp hf, rfl⟩

/-- Changes that make the same of each row are the same. -/
theorem modify_congr {t : Table ι ρ} {p q : ι → ρ → Bool} {f g : ρ → ρ}
    (h : ∀ i r, t.find i = some r → (if p i r then f r else r) = if q i r then g r else r) :
    t.modify p f = t.modify q g := by
  simp only [modify, mk.injEq]
  refine List.map_congr_left fun e he => ?_
  rw [h e.1 e.2 ((t.find_eq_some_iff e.1 e.2).mpr he)]

/-- One change after another, of other rows. -/
theorem modify_modify {t : Table ι ρ} {p q : ι → Bool} {f : ρ → ρ} (h : ∀ i, p i = true → q i = false) :
    (t.modify (fun i _ => p i) f).modify (fun i _ => q i) f = t.modify (fun i _ => p i || q i) f := by
  simp only [modify, mk.injEq, List.map_map]
  refine List.map_congr_left fun e _ => ?_
  by_cases hp : p e.1 = true
  · simp [hp, h e.1 hp]
  · simp [hp]

/-- The row under a key, after it was modified. -/
theorem find_modify_self (t : Table ι ρ) (i : ι) (f : ρ → ρ) :
    (t.modify (fun j _ => decide (j = i)) f).find i = (t.find i).map f := by
  rw [find_modify]
  simp

/-- The rows after the one under a key was modified. -/
theorem find_modify_key (t : Table ι ρ) (i : ι) (f : ρ → ρ) (j : ι) :
    (t.modify (fun k _ => decide (k = i)) f).find j = if i = j then (t.find j).map f else t.find j := by
  by_cases hj : i = j
  · subst hj
    rw [if_pos rfl, find_modify_self]
  · rw [if_neg hj, find_modify]
    cases t.find j <;> simp [Ne.symm hj]

/-- After a removal, the row under a key is still there if it was not selected. -/
@[simp] theorem find_remove (t : Table ι ρ) (p : ι → ρ → Bool) (i : ι) :
    (t.remove p).find i = (t.find i).filter fun r => !p i r := by
  cases hf : t.find i with
  | none =>
    rw [find_eq_none_iff] at hf
    rw [Option.filter_none, find_eq_none_iff]
    exact fun h => hf ((List.filter_sublist.map Prod.fst).subset h)
  | some r =>
    have hmem := (t.find_eq_some_iff i r).mp hf
    by_cases hp : p i r = true
    · rw [Option.filter_some, if_neg (by simp [hp]), find_eq_none_iff]
      intro h
      obtain ⟨⟨j, r'⟩, he, rfl⟩ := List.mem_map.mp h
      obtain ⟨he, hn⟩ := List.mem_filter.mp he
      have : ((j, r') : ι × ρ) = (j, r) := List.inj_on_of_nodup_map t.nodup he hmem rfl
      rw [Prod.mk.injEq] at this
      simp [this.2, hp] at hn
    · rw [Option.filter_some, if_pos (by simpa using hp), find_eq_some_iff]
      exact List.mem_filter.mpr ⟨hmem, by simpa using hp⟩

omit [DecidableEq ι] in
/-- What a query returns after a removal. -/
@[simp] theorem first_remove (t : Table ι ρ) (q p : ι → ρ → Bool) :
    (t.remove q).first p = t.first fun i r => !q i r && p i r := by
  rw [first, remove, List.find?_filter, first]
  congr
  funext e
  simp

omit [DecidableEq ι] in
@[simp] theorem rows_remove (t : Table ι ρ) (q p : ι → ρ → Bool) :
    (t.remove q).rows p = t.rows fun i r => !q i r && p i r := by
  rw [rows, remove, List.filter_filter, rows]
  congr
  funext e
  rw [Bool.and_comm]

/-- A row that is removed is no longer counted. -/
theorem count_remove_key {t : Table ι ρ} {i : ι} {r : ρ} (h : t.find i = some r) (p : ι → ρ → Bool) :
    t.count p = (t.remove fun j _ => j = i).count p + if p i r then 1 else 0 := by
  obtain ⟨front, back, hsplit⟩ := List.append_of_mem ((find_eq_some_iff t i r).mp h)
  have hnodup := t.nodup
  rw [hsplit, List.map_append, List.map_cons, List.nodup_middle, List.nodup_cons, List.mem_append, not_or] at hnodup
  obtain ⟨⟨hfront, hback⟩, -⟩ := hnodup
  have hkept (l : List (ι × ρ)) (hl : i ∉ l.map Prod.fst) : (l.filter fun e => !decide (e.1 = i)) = l := by
    refine List.filter_eq_self.mpr fun e he => ?_
    simpa using fun heq => hl (List.mem_map.mpr ⟨e, he, heq⟩)
  have hremoved : (t.remove fun j _ => j = i).entries = front ++ back := by
    change t.entries.filter (fun e => !decide (e.1 = i)) = front ++ back
    rw [hsplit, List.filter_append, hkept front hfront, List.filter_cons_of_neg (by simp), hkept back hback]
  simp only [count, rows, hremoved, hsplit, List.filter_append, List.filter_cons, List.length_append]
  cases p i r
  · simp
  · simp only [if_true, List.length_cons]
    omega
/-- Two conditions that are the same of every row select the same rows. -/
theorem rows_congr {t : Table ι ρ} {p q : ι → ρ → Bool} (h : ∀ i r, t.find i = some r → p i r = q i r) :
    t.rows p = t.rows q :=
  List.filter_congr fun e he => h e.1 e.2 ((t.find_eq_some_iff e.1 e.2).mpr he)

/-- An insertion succeeds exactly under an unused key. -/
theorem insert_eq_none_iff (t : Table ι ρ) (i : ι) (r : ρ) : t.insert i r = none ↔ t.find i ≠ none := by
  rw [Ne, find_eq_none_iff, insert]
  split <;> simp_all

theorem find_of_insert {t t' : Table ι ρ} {i : ι} {r : ρ} (h : t.insert i r = some t') :
    t.find i = none ∧ ∀ j, t'.find j = if j = i then some r else t.find j := by
  unfold insert at h
  split at h
  · cases h
  · rename_i hi
    rw [Option.some.injEq] at h
    subst h
    refine ⟨(t.find_eq_none_iff i).mpr hi, fun j => ?_⟩
    unfold find first
    rw [List.find?_cons]
    by_cases hj : i = j
    · simp [hj]
    · simp [hj, Ne.symm hj]

/-- The entry that is inserted last comes first. -/
theorem entries_of_insert {t t' : Table ι ρ} {i : ι} {r : ρ} (h : t.insert i r = some t') :
    t'.entries = (i, r) :: t.entries := by
  unfold insert at h
  split at h
  · cases h
  · cases h
    rfl

/-! ### Overwriting -/

/-- Put a row under a key, in place of the one that is there. -/
def put (t : Table ι ρ) (i : ι) (r : ρ) : Table ι ρ where
  entries := (i, r) :: (t.remove fun j _ => decide (j = i)).entries
  nodup := by
    refine List.nodup_cons.mpr ⟨fun h => ?_, (t.remove _).nodup⟩
    obtain ⟨e, he, hi⟩ := List.mem_map.mp h
    have := (List.mem_filter.mp he).2
    simp [hi] at this

theorem find_put (t : Table ι ρ) (i : ι) (r : ρ) (j : ι) : (t.put i r).find j = if j = i then some r else t.find j := by
  by_cases hj : j = i
  · subst hj
    simp [find, first, put]
  · have hfind : (t.put i r).find j = (t.remove fun j _ => decide (j = i)).find j := by
      unfold find first put
      rw [List.find?_cons]
      simp [Ne.symm hj]
    rw [hfind, find_remove, if_neg hj]
    cases t.find j <;> simp [hj]

/-- Tables with the same rows, as far as a condition goes, have the same of them in some order. -/
theorem rows_perm {t t' : Table ι ρ} {p q : ι → ρ → Bool}
    (h : ∀ i r, t.find i = some r ∧ p i r = true ↔ t'.find i = some r ∧ q i r = true) : (t.rows p).Perm (t'.rows q) := by
  have hnodup : ∀ (t : Table ι ρ) (p : ι → ρ → Bool), (t.rows p).Nodup := fun t p =>
    (List.Nodup.of_map _ t.nodup).filter _
  refine (List.perm_ext_iff_of_nodup (hnodup t p) (hnodup t' q)).mpr ?_
  rintro ⟨i, r⟩
  rw [mem_rows_iff, mem_rows_iff]
  exact h i r

/-! ### Keys chosen by the table -/

/-- A key above all keys in use. -/
def fresh (t : Table ℕ ρ) : ℕ := (t.entries.map Prod.fst).foldr (fun i n => max (i + 1) n) 0

theorem find_fresh (t : Table ℕ ρ) : t.find t.fresh = none := by
  have hlt : ∀ is : List ℕ, ∀ i ∈ is, i < is.foldr (fun i n => max (i + 1) n) 0 := by
    intro is
    induction is with
    | nil => exact fun _ hi => absurd hi List.not_mem_nil
    | cons j is ih =>
      intro i hi
      rw [List.foldr_cons]
      rcases List.mem_cons.mp hi with rfl | hi
      · omega
      · have := ih i hi
        omega
  rw [find_eq_none_iff]
  exact fun h => Nat.lt_irrefl _ (hlt _ _ h)

/-- Insert a row under a fresh key. -/
def add (t : Table ℕ ρ) (r : ρ) : Table ℕ ρ where
  entries := (t.fresh, r) :: t.entries
  nodup := List.nodup_cons.mpr ⟨(t.find_eq_none_iff _).mp t.find_fresh, t.nodup⟩

/-- An addition puts one row where there was none, and leaves the others. -/
theorem find_add (t : Table ℕ ρ) (r : ρ) (i : ℕ) :
    (t.add r).find i = t.find i ∨ (t.find i = none ∧ (t.add r).find i = some r) := by
  by_cases hi : t.fresh = i
  · subst hi
    exact .inr ⟨t.find_fresh, by simp [find, first, add]⟩
  · refine .inl ?_
    unfold find first add
    rw [List.find?_cons]
    simp [hi]

end Table

/-! ### Keys that are used once -/

/-- A table that keeps every key it has had: none is used again. -/
structure Register (ι ρ : Type) where
  /-- The rows. -/
  table : Table ι ρ
  /-- The keys that rows have had. -/
  drawn : List ι
  /-- The keys of the rows are among them. -/
  known : ∀ e ∈ table.entries, e.1 ∈ drawn

namespace Register

variable {ι ρ : Type}

/-- The register without rows. -/
def empty : Register ι ρ := ⟨.empty, [], fun _ h => absurd h List.not_mem_nil⟩

/-- Change the rows that satisfy `p`. -/
def modify (t : Register ι ρ) (p : ι → ρ → Bool) (f : ρ → ρ) : Register ι ρ where
  table := t.table.modify p f
  drawn := t.drawn
  known := by
    intro e he
    obtain ⟨e', he', rfl⟩ := List.mem_map.mp he
    exact t.known e' he'

/-- Remove the rows that satisfy `p`; their keys stay drawn. -/
def remove (t : Register ι ρ) (p : ι → ρ → Bool) : Register ι ρ where
  table := t.table.remove p
  drawn := t.drawn
  known := fun e he => t.known e (List.mem_of_mem_filter he)

variable [DecidableEq ι]

/-- Insert a row under a key that has not been used. -/
def insert (t : Register ι ρ) (i : ι) (r : ρ) : Option (Register ι ρ) :=
  if i ∈ t.drawn then none
  else some ⟨t.table.put i r, i :: t.drawn, by
    intro e he
    rcases List.mem_cons.mp he with rfl | he
    · exact List.mem_cons_self
    · exact List.mem_cons_of_mem _ (t.known e (List.mem_of_mem_filter he))⟩

theorem mem_drawn {t : Register ι ρ} {i : ι} {r : ρ} (h : t.table.find i = some r) : i ∈ t.drawn :=
  t.known (i, r) ((t.table.find_eq_some_iff i r).mp h)

theorem insert_eq_some {t t' : Register ι ρ} {i : ι} {r : ρ} (h : t.insert i r = some t') :
    i ∉ t.drawn ∧ t'.table = t.table.put i r ∧ t'.drawn = i :: t.drawn := by
  unfold insert at h
  split at h
  · cases h
  · rename_i hi
    cases h
    exact ⟨hi, rfl, rfl⟩

end Register

end AuditSphere.Theory
