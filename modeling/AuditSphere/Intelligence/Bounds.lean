import AuditSphere.Intelligence.Index
import AuditSphere.Theory.Pages
import Mathlib.Data.List.Forall2
import Mathlib.Data.List.Nodup

/-!
# The bounds of the index

Whatever the reader answers, `build` ends, and the index that it returns is bounded and its
sources have different ids. If the reader returns the rows of a kind in ascending order, and
the kind is neither restricted nor incomplete, then all its rows are in the index, but for
comments on records that are not there.

A page that does not end the loop adds all its rows, at least 250, and a kind has at most 5000
records, so that 21 rounds are enough.
-/

namespace AuditSphere.Intelligence

open Shared (PermissionKey)
open Theory

variable [Runtime]

/-! ### Records of a kind -/

/-- The records of rows that are put into the index after `n` others. -/
def recordsFrom (kind : AuditSourceKind) : ℕ → List Fields → List AuditRecord
  | _, [] => []
  | n, copy :: copies => recordOf kind (n + 1) copy :: recordsFrom kind (n + 1) copies

@[simp] theorem recordsFrom_length (kind : AuditSourceKind) (n : ℕ) (copies : List Fields) :
    (recordsFrom kind n copies).length = copies.length := by
  induction copies generalizing n with
  | nil => rfl
  | cons copy copies ih => simp [recordsFrom, ih]

theorem recordsFrom_append (kind : AuditSourceKind) (n : ℕ) (copies more : List Fields) :
    recordsFrom kind n (copies ++ more) = recordsFrom kind n copies ++ recordsFrom kind (n + copies.length) more := by
  induction copies generalizing n with
  | nil => rfl
  | cons copy copies ih =>
    simp only [List.cons_append, recordsFrom, ih, List.length_cons]
    rw [Nat.add_right_comm, Nat.add_assoc]

theorem recordsFrom_kind {kind : AuditSourceKind} {n : ℕ} {copies : List Fields} {r : AuditRecord}
    (h : r ∈ recordsFrom kind n copies) : r.source.kind = kind := by
  induction copies generalizing n with
  | nil => cases h
  | cons copy copies ih =>
    rcases List.mem_cons.mp h with rfl | h
    · rfl
    · exact ih h

/-- Every row that is put into the index has a record. -/
theorem exists_mem_recordsFrom {kind : AuditSourceKind} {copies : List Fields} {copy : Fields} (h : copy ∈ copies)
    (n : ℕ) : ∃ m, recordOf kind m copy ∈ recordsFrom kind n copies := by
  induction copies generalizing n with
  | nil => cases h
  | cons head copies ih =>
    rcases List.mem_cons.mp h with rfl | h
    · exact ⟨n + 1, List.mem_cons_self⟩
    · obtain ⟨m, hm⟩ := ih h (n + 1)
      exact ⟨m, List.mem_cons_of_mem _ hm⟩

/-- The sources are numbered. -/
theorem recordsFrom_id (kind : AuditSourceKind) (n : ℕ) (copies : List Fields) :
    (recordsFrom kind n copies).map (·.source.id) =
      (List.range' (n + 1) copies.length).map fun i => s!"S{i}" := by
  induction copies generalizing n with
  | nil => rfl
  | cons copy copies ih =>
    simp only [recordsFrom, List.map_cons, ih, List.length_cons, List.range'_succ]
    rfl

/-! ### Reading a kind -/

/-- What reading a kind does: the rows `copies` are put into the index after `count` others of the kind. -/
structure Reads (kind : AuditSourceKind) (count : ℕ) (copies : List Fields) (b b' : Build) : Prop where
  records : b'.records = b.records ++ recordsFrom kind b.records.length copies
  total : copies ≠ [] → b'.records.length ≤ 20000
  ofKind : copies ≠ [] → count + copies.length ≤ 5000
  restricted : b'.restrictedKinds = b.restrictedKinds
  incomplete : b'.incompleteKinds = b.incompleteKinds ∨ b'.incompleteKinds = b.incompleteKinds ++ [kind]

variable {kind : AuditSourceKind} {count : ℕ} {b b' : Build}

theorem Reads.refl (kind : AuditSourceKind) (count : ℕ) (b : Build) : Reads kind count [] b b :=
  ⟨by simp [recordsFrom], fun h => absurd rfl h, fun h => absurd rfl h, rfl, .inl rfl⟩

/-- First one part of the rows is read, to its end, then another. -/
theorem Reads.trans {b'' : Build} {copies more : List Fields} (h : Reads kind count copies b b')
    (hwhole : b'.incompleteKinds = b.incompleteKinds) (h' : Reads kind (count + copies.length) more b' b'') :
    Reads kind count (copies ++ more) b b'' := by
  refine ⟨?_, fun hne => ?_, fun hne => ?_, h'.restricted.trans h.restricted, hwhole ▸ h'.incomplete⟩
  · rw [h'.records, h.records, recordsFrom_append, List.append_assoc, List.length_append, recordsFrom_length]
  · by_cases hmore : more = []
    · subst hmore
      have hsame : b''.records = b'.records := by simpa [recordsFrom] using h'.records
      exact hsame ▸ h.total (by simpa using hne)
    · exact h'.total hmore
  · by_cases hmore : more = []
    · subst hmore
      simpa using h.ofKind (by simpa using hne)
    · have := h'.ofKind hmore
      rw [List.length_append]
      omega

/-- The variables that count calls do not matter. -/
theorem Reads.of_called {copies : List Fields} {calls : ℕ} (reads : ℕ)
    (h : Reads kind count copies { b with calls := calls, successfulReads := reads } b') : Reads kind count copies b b' :=
  ⟨h.records, h.total, h.ofKind, h.restricted, h.incomplete⟩

/-- The kind is incomplete at the end. -/
theorem Reads.failed {copies : List Fields} (h : Reads kind count copies b b')
    (hwhole : b'.incompleteKinds = b.incompleteKinds) : Reads kind count copies b (b'.failed kind) := by
  unfold Build.failed
  split
  · exact h
  · exact ⟨h.records, h.total, h.ofKind, h.restricted, .inr (by rw [← hwhole])⟩

omit [Runtime] in
theorem mem_incompleteKinds_failed (b : Build) (kind : AuditSourceKind) : kind ∈ (b.failed kind).incompleteKinds := by
  unfold Build.failed
  split
  · assumption
  · exact List.mem_append_right _ List.mem_cons_self

/-- The rows of a page: those before one that does not fit, or that fails, are put into the index. -/
theorem readRows_spec (kind : AuditSourceKind) (rows : List Row) (b : Build) (count : ℕ) :
    ∃ copies, Reads kind count copies b (readRows kind rows b count).1 ∧
      (readRows kind rows b count).2.1 = count + copies.length ∧
      match (readRows kind rows b count).2.2 with
      | .read => (readRows kind rows b count).1.incompleteKinds = b.incompleteKinds ∧
          rows.map Row.copy = copies.map some
      | .full => kind ∈ (readRows kind rows b count).1.incompleteKinds
      | .failed => (readRows kind rows b count).1.incompleteKinds = b.incompleteKinds := by
  induction rows generalizing b count with
  | nil => exact ⟨[], Reads.refl kind count b, rfl, rfl, rfl⟩
  | cons row rows ih =>
    unfold readRows
    by_cases hfull : b.isFull count
    · simp only [if_pos hfull]
      exact ⟨[], ⟨by simp [recordsFrom], fun h => absurd rfl h, fun h => absurd rfl h, rfl, .inr rfl⟩, rfl,
        List.mem_append_right _ List.mem_cons_self⟩
    · simp only [if_neg hfull]
      cases hcopy : row.copy with
      | none => exact ⟨[], Reads.refl kind count b, rfl, rfl⟩
      | some copy =>
        simp only [Build.isFull, not_or, not_le] at hfull
        have hpush : Reads kind count [copy] b (b.push kind copy) := by
          refine ⟨rfl, fun _ => ?_, fun _ => hfull.1, rfl, .inl rfl⟩
          simp only [Build.push, List.length_append, List.length_singleton]
          omega
        obtain ⟨copies, hreads, hcount, hpage⟩ := ih (b.push kind copy) (count + 1)
        refine ⟨copy :: copies, hpush.trans rfl hreads, ?_, ?_⟩
        · rw [hcount, List.length_cons]
          omega
        · cases hend : (readRows kind rows (b.push kind copy) (count + 1)).2.2 <;> simp only [hend] at hpage ⊢
          · exact ⟨hpage.1, by rw [List.map_cons, hcopy, hpage.2, List.map_cons]⟩
          · exact hpage
          · exact hpage

/-- The reader returns the rows of a kind in ascending order, after the cursor. -/
def Returns (lt : String → String → Prop) [DecidableRel lt] (reader : Reader) (kind : AuditSourceKind)
    (rows : List Row) : Prop :=
  Ascending lt Row.id rows ∧ ∀ n cursor, reader n kind cursor = .ok (page lt Row.id 250 cursor rows)

variable (reader : Reader) (lt : String → String → Prop) [DecidableRel lt] [IsStrictOrder String lt]

/-- The pages of a kind: the loop ends, and reads all that it does not report as missing. -/
theorem readPages_spec (fuel : ℕ) (cursor : Option String) (hcount : count ≤ 5000) (hfuel : 5000 < count + 250 * fuel)
    (hkind : kind ∉ b.incompleteKinds) :
    ∃ b' copies, (∀ extra, readPages reader kind (fuel + extra) cursor count b = some b') ∧
      Reads kind count copies b b' ∧
      ∀ rows, Returns lt reader kind rows → kind ∉ b'.incompleteKinds →
        (afterCursor lt Row.id cursor rows).map Row.copy = copies.map some := by
  induction fuel generalizing cursor count b with
  | zero => omega
  | succ fuel ih =>
    have hround : ∀ extra, fuel + 1 + extra = fuel + extra + 1 := fun extra => Nat.add_right_comm fuel 1 extra
    simp only [hround, readPages]
    cases hread : reader b.calls kind cursor with
    | error e =>
      refine ⟨_, [], fun _ => rfl, ?_, fun rows hrows => ?_⟩
      · exact Reads.of_called b.successfulReads ((Reads.refl kind count _).failed rfl)
      · rw [hrows.2] at hread
        cases hread
    | ok rows =>
      obtain ⟨copies, hreads, hcopies, hpage⟩ :=
        readRows_spec kind rows { b with calls := b.calls + 1, successfulReads := b.successfulReads + 1 } count
      have hrows : ∀ rows', Returns lt reader kind rows' → rows = page lt Row.id 250 cursor rows' := fun rows' h => by
        rw [h.2] at hread
        exact (Except.ok.inj hread).symm
      obtain ⟨⟨b₁, count₁, end₁⟩, hresult⟩ : ∃ result, readRows kind rows
          { b with calls := b.calls + 1, successfulReads := b.successfulReads + 1 } count = result := ⟨_, rfl⟩
      rw [hresult] at hreads hcopies hpage
      simp only [hresult]
      replace hreads := hreads.of_called _
      cases end₁ with
      | failed =>
        exact ⟨_, copies, fun _ => rfl, hreads.failed hpage, fun _ _ h => absurd (mem_incompleteKinds_failed b₁ kind) h⟩
      | full =>
        exact ⟨b₁, copies, fun _ => by simp only [if_pos (show kind ∈ b₁.incompleteKinds from hpage)], hreads,
          fun _ _ h => absurd hpage h⟩
      | read =>
        obtain ⟨hwhole, hmap⟩ := hpage
        have hopen : kind ∉ b₁.incompleteKinds := fun h => hkind (hwhole ▸ h)
        have hlength : rows.length = copies.length := by simpa using congrArg List.length hmap
        simp only [if_neg hopen]
        cases hlast : rows.getLast? with
        | none =>
          refine ⟨b₁, copies, fun _ => rfl, hreads, fun rows' h _ => ?_⟩
          have hshort : (page lt Row.id 250 cursor rows').length < 250 := by
            rw [← hrows rows' h, List.getLast?_eq_none_iff.mp hlast]
            simp
          rw [← page_of_length_lt hshort, ← hrows rows' h, hmap]
        | some last =>
          by_cases hshort : rows.length < 250
          · simp only [if_pos hshort]
            refine ⟨b₁, copies, fun _ => rfl, hreads, fun rows' h _ => ?_⟩
            rw [← page_of_length_lt (hrows rows' h ▸ hshort), ← hrows rows' h, hmap]
          simp only [if_neg hshort]
          by_cases hstuck : some last.id = cursor
          · simp only [if_pos hstuck]
            exact ⟨_, copies, fun _ => rfl, hreads.failed hwhole,
              fun _ _ h => absurd (mem_incompleteKinds_failed b₁ kind) h⟩
          simp only [if_neg hstuck]
          -- the whole page is in the index, so that at most 20 rounds get here
          have hcount₁ : count₁ = count + copies.length := hcopies
          have hmore : count + copies.length ≤ 5000 :=
            hreads.ofKind (List.ne_nil_of_length_pos (by omega))
          obtain ⟨b', more, hends, hrest, hall⟩ :=
            ih (some last.id) (show count₁ ≤ 5000 by omega) (by omega) hopen
          refine ⟨b', copies ++ more, hends, hreads.trans hwhole (hcount₁ ▸ hrest), fun rows' h hend => ?_⟩
          have hback := hall rows' h hend
          rw [afterCursor_last h.1 (by rw [← hrows rows' h]; exact hlast)] at hback
          rw [← List.take_append_drop 250 (afterCursor lt Row.id cursor rows'), List.map_append, List.map_append, hback,
            ← hmap, hrows rows' h]
          rfl

/-! ### Reading all kinds -/

/-- The records so far are numbered, and within the limits. -/
structure Sound (b : Build) : Prop where
  ids : b.records.map (·.source.id) = (List.range' 1 b.records.length).map fun i => s!"S{i}"
  total : b.records.length ≤ 20000
  ofKind : ∀ kind, (recordsOf b.records kind).length ≤ 5000

/-- Nothing of a kind has been read. -/
structure Fresh (b : Build) (kind : AuditSourceKind) : Prop where
  records : ∀ r ∈ b.records, r.source.kind ≠ kind
  incomplete : kind ∉ b.incompleteKinds

/-- Reading some kinds only adds records, of these kinds, and reports only on them. -/
structure Grows (kinds : List AuditSourceKind) (b b' : Build) : Prop where
  records : b.records ⊆ b'.records
  new : ∀ r ∈ b'.records, r ∈ b.records ∨ r.source.kind ∈ kinds
  restricted : b.restrictedKinds ⊆ b'.restrictedKinds
  incomplete : b.incompleteKinds ⊆ b'.incompleteKinds
  reported : ∀ kind ∈ b'.incompleteKinds, kind ∈ b.incompleteKinds ∨ kind ∈ kinds

/-- The row has a record. -/
def HasRow (records : List AuditRecord) (kind : AuditSourceKind) (row : Row) : Prop :=
  ∃ copy n, row.copy = some copy ∧ recordOf kind n copy ∈ records

omit [Runtime] in
theorem sound_empty : Sound Build.empty := ⟨rfl, Nat.zero_le _, fun _ => Nat.zero_le _⟩

omit [Runtime] in
theorem recordsOf_append (records more : List AuditRecord) (kind : AuditSourceKind) :
    recordsOf (records ++ more) kind = recordsOf records kind ++ recordsOf more kind :=
  List.filter_append records more

theorem Reads.sound {copies : List Fields} (h : Reads kind 0 copies b b') (hb : Sound b) (hfresh : Fresh b kind) :
    Sound b' := by
  by_cases hcopies : copies = []
  · subst hcopies
    have hsame : b'.records = b.records := by simpa [recordsFrom] using h.records
    exact ⟨hsame ▸ hb.ids, hsame ▸ hb.total, hsame ▸ hb.ofKind⟩
  · refine ⟨?_, h.total hcopies, fun k => ?_⟩
    · rw [h.records, List.map_append, hb.ids, recordsFrom_id, List.length_append, recordsFrom_length, ← List.map_append,
        Nat.add_comm b.records.length 1, List.range'_append_1]
    · rw [h.records, recordsOf_append, List.length_append]
      by_cases hk : k = kind
      · subst hk
        have hnone : recordsOf b.records k = [] :=
          List.filter_eq_nil_iff.mpr fun r hr => by simpa using hfresh.records r hr
        have hle : (recordsOf (recordsFrom k b.records.length copies) k).length ≤ copies.length :=
          (List.length_filter_le _ _).trans_eq (recordsFrom_length k _ copies)
        have := h.ofKind hcopies
        rw [hnone, List.length_nil]
        omega
      · have hnone : recordsOf (recordsFrom kind b.records.length copies) k = [] :=
          List.filter_eq_nil_iff.mpr fun r hr => by simpa [recordsFrom_kind hr] using Ne.symm hk
        rw [hnone, List.length_nil]
        exact hb.ofKind k

theorem Reads.grows {copies : List Fields} (h : Reads kind count copies b b') : Grows [kind] b b' := by
  refine ⟨?_, fun r hr => ?_, ?_, ?_, fun k hk => ?_⟩
  · rw [h.records]
    exact List.subset_append_left _ _
  · rw [h.records, List.mem_append] at hr
    exact hr.imp_right fun hr => List.mem_singleton.mpr (recordsFrom_kind hr)
  · rw [h.restricted]
    exact List.Subset.refl _
  · rcases h.incomplete with heq | heq <;> rw [heq]
    · exact List.Subset.refl _
    · exact List.subset_append_left _ _
  · rcases h.incomplete with heq | heq <;> rw [heq] at hk
    · exact .inl hk
    · exact List.mem_append.mp hk

omit [Runtime] in
theorem Grows.refl (b : Build) : Grows [] b b :=
  ⟨List.Subset.refl _, fun _ => .inl, List.Subset.refl _, List.Subset.refl _, fun _ => .inl⟩

omit [Runtime] in
theorem Grows.trans {b'' : Build} {kinds : List AuditSourceKind} (h : Grows [kind] b b') (h' : Grows kinds b' b'') :
    Grows (kind :: kinds) b b'' := by
  refine ⟨List.Subset.trans h.records h'.records, fun r hr => ?_, List.Subset.trans h.restricted h'.restricted,
    List.Subset.trans h.incomplete h'.incomplete, fun k hk => ?_⟩
  · rcases h'.new r hr with hr | hr
    · exact (h.new r hr).imp_right fun hr => List.mem_cons.mpr (.inl (List.mem_singleton.mp hr))
    · exact .inr (List.mem_cons_of_mem _ hr)
  · rcases h'.reported k hk with hk | hk
    · exact (h.reported k hk).imp_right fun hk => List.mem_cons.mpr (.inl (List.mem_singleton.mp hk))
    · exact .inr (List.mem_cons_of_mem _ hk)

omit [Runtime] in
theorem Grows.fresh {kinds : List AuditSourceKind} {k : AuditSourceKind} (h : Grows kinds b b') (hk : k ∉ kinds)
    (hfresh : Fresh b k) : Fresh b' k := by
  refine ⟨fun r hr hkind => ?_, fun hmem => ?_⟩
  · rcases h.new r hr with hr | hr
    · exact hfresh.records r hr hkind
    · exact hk (hkind ▸ hr)
  · exact (h.reported k hmem).elim hfresh.incomplete hk

theorem readKind_spec (permissions : List PermissionKey) (hb : Sound b) (hfresh : Fresh b kind) :
    ∃ b', (∀ extra, readKind permissions reader (21 + extra) b kind = some b') ∧ Sound b' ∧ Grows [kind] b b' ∧
      ∀ rows, Returns lt reader kind rows → kind ∉ b'.restrictedKinds → kind ∉ b'.incompleteKinds →
        ∀ row ∈ rows, HasRow b'.records kind row := by
  unfold readKind
  split
  · obtain ⟨b', copies, hends, hreads, hall⟩ :=
      readPages_spec reader lt 21 none (Nat.zero_le 5000) (by decide) hfresh.incomplete
    refine ⟨b', hends, hreads.sound hb hfresh, hreads.grows, fun rows hrows _ hwhole row hrow => ?_⟩
    have hcopy : row.copy ∈ copies.map some := by
      rw [← hall rows hrows hwhole]
      exact List.mem_map_of_mem hrow
    obtain ⟨copy, hmem, hcopy⟩ := List.mem_map.mp hcopy
    obtain ⟨n, hn⟩ := exists_mem_recordsFrom hmem b.records.length
    exact ⟨copy, n, hcopy.symm, hreads.records ▸ List.mem_append_right _ hn⟩
  · refine ⟨_, fun _ => rfl, ⟨hb.ids, hb.total, hb.ofKind⟩, ?_, fun rows _ hopen => ?_⟩
    · exact ⟨List.Subset.refl _, fun _ => .inl, List.subset_append_left _ _, List.Subset.refl _, fun _ => .inl⟩
    · exact absurd (List.mem_append_right _ List.mem_cons_self) hopen

/-- All kinds are read, one after the other. -/
theorem readKinds_spec (permissions : List PermissionKey) {kinds : List AuditSourceKind} (hnodup : kinds.Nodup)
    (hb : Sound b) (hfresh : ∀ kind ∈ kinds, Fresh b kind) :
    ∃ b', (∀ extra, kinds.foldlM (readKind permissions reader (21 + extra)) b = some b') ∧ Sound b' ∧
      Grows kinds b b' ∧
      ∀ kind ∈ kinds, ∀ rows, Returns lt reader kind rows → kind ∉ b'.restrictedKinds → kind ∉ b'.incompleteKinds →
        ∀ row ∈ rows, HasRow b'.records kind row := by
  induction kinds generalizing b with
  | nil => exact ⟨b, fun _ => rfl, hb, Grows.refl b, fun _ h => absurd h List.not_mem_nil⟩
  | cons kind kinds ih =>
    obtain ⟨hkind, hnodup⟩ := List.nodup_cons.mp hnodup
    obtain ⟨b₁, hends₁, hb₁, hgrows₁, hall₁⟩ :=
      readKind_spec reader lt permissions hb (hfresh kind List.mem_cons_self)
    have hfresh₁ : ∀ k ∈ kinds, Fresh b₁ k := fun k hk =>
      hgrows₁.fresh (fun h => hkind (List.mem_singleton.mp h ▸ hk)) (hfresh k (List.mem_cons_of_mem _ hk))
    obtain ⟨b', hends, hb', hgrows, hall⟩ := ih hnodup hb₁ hfresh₁
    refine ⟨b', fun extra => ?_, hb', hgrows₁.trans hgrows, fun k hk rows hrows hopen hwhole row hrow => ?_⟩
    · rw [List.foldlM_cons, hends₁ extra]
      exact hends extra
    · rcases List.mem_cons.mp hk with rfl | hk
      · obtain ⟨copy, n, hcopy, hmem⟩ := hall₁ rows hrows (fun h => hopen (hgrows.restricted h))
          (fun h => hwhole (hgrows.incomplete h)) row hrow
        exact ⟨copy, n, hcopy, hgrows.records hmem⟩
      · exact hall k hk rows hrows hopen hwhole row hrow

/-! ### The index -/

/-- A record keeps where it comes from, and its properties but for the names. -/
structure Renamed (r r' : AuditRecord) : Prop where
  id : r'.source.id = r.source.id
  kind : r'.source.kind = r.source.kind
  recordId : r'.source.recordId = r.source.recordId
  fields : ∀ key, key ≠ "ownerName" → key ≠ "team" → mapGet key r'.fields = mapGet key r.fields

omit [Runtime] in
theorem Renamed.refl (r : AuditRecord) : Renamed r r := ⟨rfl, rfl, rfl, fun _ _ _ => rfl⟩

omit [Runtime] in
theorem Renamed.key {r r' : AuditRecord} (h : Renamed r r') : r'.key = r.key := by
  rw [AuditRecord.key, AuditRecord.key, h.kind, h.recordId]

omit [Runtime] in
/-- What depends on the source alone is the same for records that have been renamed. -/
theorem map_renamed {β : Type} {f : AuditRecord → β} (hf : ∀ r r', Renamed r r' → f r' = f r)
    {records records' : List AuditRecord} (h : List.Forall₂ Renamed records records') :
    records'.map f = records.map f := by
  induction h with
  | nil => rfl
  | cons hr _ ih => rw [List.map_cons, List.map_cons, hf _ _ hr, ih]

theorem named_renamed (names : List (String × String)) (r : AuditRecord) : Renamed r (named names r) := by
  refine ⟨rfl, rfl, rfl, fun key howner hteam => ?_⟩
  unfold named
  dsimp only
  split
  · rw [mapGet_mapSet_of_ne hteam, owned, mapGet_mapSet_of_ne howner]
  · rw [owned, mapGet_mapSet_of_ne howner]

theorem nameAll_renamed (names : List (String × String)) (records : List AuditRecord) :
    List.Forall₂ Renamed records (nameAll names records).1 := by
  induction records with
  | nil => exact .nil
  | cons r records ih =>
    unfold nameAll
    split
    · refine .cons ⟨rfl, rfl, rfl, fun key howner _ => ?_⟩ (List.forall₂_same.mpr fun r _ => Renamed.refl r)
      rw [owned, mapGet_mapSet_of_ne howner]
    · exact .cons (named_renamed names r) ih

/-- What the index has of the records that were read. -/
structure Finished (b : Build) (index : AuditUniverseIndex) : Prop where
  records : List.Forall₂ Renamed (b.records.filter (isKept b.records)) index.records
  restricted : index.restrictedKinds = b.restrictedKinds
  incomplete : index.incompleteKinds = b.incompleteKinds

theorem finish_ok {directory : Directory} {now : String} {index : AuditUniverseIndex}
    (h : finish directory now b = .ok index) : Finished b index := by
  unfold finish at h
  split at h
  · cases h
  · cases hids : ownerIds (b.records.filter (isKept b.records)) with
    | error e => simp only [hids, reduceCtorEq] at h
    | ok ids =>
      simp only [hids] at h
      split at h
      · cases h
      · cases h
        refine ⟨?_, rfl, rfl⟩
        dsimp only
        split
        · exact nameAll_renamed _ _
        · exact List.forall₂_same.mpr fun r _ => Renamed.refl r

variable {index : AuditUniverseIndex}

omit [Runtime] in
theorem recordsOf_length (records : List AuditRecord) (kind : AuditSourceKind) :
    (recordsOf records kind).length = (records.map (·.source.kind)).count kind := by
  rw [List.count_eq_countP, List.countP_map, List.countP_eq_length_filter]
  rfl

/-- Every record that is kept is in the index. -/
theorem Finished.exists_renamed (h : Finished b index) {r : AuditRecord} (hr : r ∈ b.records)
    (hkept : isKept b.records r = true) : ∃ r' ∈ index.records, Renamed r r' := by
  obtain ⟨i, hi, rfl⟩ := List.getElem_of_mem (List.mem_filter.mpr ⟨hr, hkept⟩)
  obtain ⟨hlength, hget⟩ := List.forall₂_iff_get.mp h.records
  exact ⟨_, List.getElem_mem (hlength ▸ hi), hget i hi (hlength ▸ hi)⟩

/-- The keys of the index are keys of the records that were read. -/
theorem Finished.keys (h : Finished b index) {key : String} (hkey : key ∈ index.records.map AuditRecord.key) :
    key ∈ b.records.map AuditRecord.key := by
  rw [map_renamed (fun _ _ hr => hr.key) h.records] at hkey
  obtain ⟨r, hr, hkey⟩ := List.mem_map.mp hkey
  exact List.mem_map.mpr ⟨r, (List.mem_filter.mp hr).1, hkey⟩

/-- The row is in the index. -/
def Indexed (index : AuditUniverseIndex) (kind : AuditSourceKind) (row : Row) : Prop :=
  ∃ copy, row.copy = some copy ∧ ∃ r ∈ index.records, r.source.kind = kind ∧ r.source.recordId = recordIdOf (clip copy) ∧
    ∀ key, key ≠ "ownerName" → key ≠ "team" → mapGet key r.fields = mapGet key (clip copy)

/-- The row is a comment, and no record of the index is the one that it is about. -/
def Orphaned (index : AuditUniverseIndex) (kind : AuditSourceKind) (row : Row) : Prop :=
  kind = .Comment ∧ ∃ copy, row.copy = some copy ∧
    keyOf (textField (clip copy) "targetType") (textField (clip copy) "targetId") ∉ index.records.map AuditRecord.key

theorem Finished.indexed (h : Finished b index) {row : Row} (hrow : HasRow b.records kind row) :
    Indexed index kind row ∨ Orphaned index kind row := by
  obtain ⟨copy, n, hcopy, hmem⟩ := hrow
  by_cases hkept : isKept b.records (recordOf kind n copy) = true
  · obtain ⟨r, hr, hrenamed⟩ := h.exists_renamed hmem hkept
    exact .inl ⟨copy, hcopy, r, hr, hrenamed.kind, hrenamed.recordId, hrenamed.fields⟩
  · simp only [isKept, Bool.or_eq_true, decide_eq_true_eq, not_or, not_not] at hkept
    exact .inr ⟨hkept.1, copy, hcopy, fun hkey => hkept.2 (h.keys hkey)⟩

/-- Whatever the reader and the directory answer, 21 rounds are enough. The index is bounded, its sources
have different ids, and it has all rows of the kinds that are neither restricted nor incomplete and whose
rows the reader returns in ascending order, but for comments on records that it has not. -/
theorem build_bounded (lt : String → String → Prop) [DecidableRel lt] [IsStrictOrder String lt]
    (permissions : List PermissionKey) (reader : Reader) (directory : Directory) (now : String) :
    ∃ result, (∀ fuel, 21 ≤ fuel → build permissions reader directory now fuel = some result) ∧
      ∀ index, result = .ok index →
        index.records.length ≤ 20000 ∧
        (∀ kind, (recordsOf index.records kind).length ≤ 5000) ∧
        (index.records.map (·.source.id)).Nodup ∧
        ∀ kind ∈ INDEX_KINDS, ∀ rows, Returns lt reader kind rows → kind ∉ index.restrictedKinds →
          kind ∉ index.incompleteKinds → ∀ row ∈ rows, Indexed index kind row ∨ Orphaned index kind row := by
  have hfresh : ∀ kind ∈ INDEX_KINDS, Fresh Build.empty kind := fun kind _ =>
    ⟨fun r hr => absurd hr List.not_mem_nil, List.not_mem_nil⟩
  obtain ⟨b, hends, hb, -, hall⟩ :=
    readKinds_spec reader lt permissions (by decide) sound_empty hfresh
  refine ⟨finish directory now b, fun fuel hfuel => ?_, fun index hindex => ?_⟩
  · obtain ⟨extra, rfl⟩ := Nat.exists_eq_add_of_le hfuel
    rw [build, hends extra, Option.map_some]
  · have h := finish_ok hindex
    have hsublist : (b.records.filter (isKept b.records)).Sublist b.records := List.filter_sublist
    refine ⟨?_, fun kind => ?_, ?_, fun kind hkind rows hrows hopen hwhole row hrow => ?_⟩
    · rw [← h.records.length_eq]
      exact hsublist.length_le.trans hb.total
    · rw [recordsOf_length, map_renamed (fun _ _ hr => hr.kind) h.records, ← recordsOf_length]
      exact (hsublist.filter _).length_le.trans (hb.ofKind kind)
    · rw [map_renamed (fun _ _ hr => hr.id) h.records]
      refine (hsublist.map _).nodup ?_
      rw [hb.ids]
      refine List.Nodup.map (fun i j hij => ?_) List.nodup_range'
      have hdigits : Nat.toDigits 10 i = Nat.toDigits 10 j :=
        String.ofList_injective (String.append_right_inj _ |>.mp hij)
      rw [← Nat.ofDigitChars_ten_toDigits (n := i), hdigits, Nat.ofDigitChars_ten_toDigits]
    · rw [h.restricted] at hopen
      rw [h.incomplete] at hwhole
      exact h.indexed (hall kind hkind rows hrows hopen hwhole row hrow)

/-! ### An index of two findings -/

/-- A row with an id and some more properties. -/
def rowOf (id : String) (fields : Fields) : Row := ⟨id, some (("id", .str id) :: fields)⟩

/-- Two findings and two comments, one of them on a finding that is not there. -/
def someRows : AuditSourceKind → List Row
  | .Finding => [rowOf "f1" [("title", .str "Approvals are missing")], rowOf "f2" [("title", .str "Late entries")]]
  | .Comment =>
    [rowOf "c1" [("targetType", .str "Finding"), ("targetId", .str "f1")],
     rowOf "c2" [("targetType", .str "Finding"), ("targetId", .str "f3")]]
  | _ => []

/-- The order of ids, character by character. -/
def idBefore (a b : String) : Prop := a.toList < b.toList

instance : DecidableRel idBefore := fun a b => inferInstanceAs (Decidable (a.toList < b.toList))

instance : IsStrictOrder String idBefore where
  irrefl a := List.lt_irrefl a.toList
  trans _ _ _ := List.lt_trans

/-- The reader of these rows. -/
def rowReader : Reader := fun _ kind cursor => .ok (page idBefore Row.id 250 cursor (someRows kind))

omit [Runtime] in
theorem rowReader_returns (kind : AuditSourceKind) : Returns idBefore rowReader kind (someRows kind) := by
  refine ⟨?_, fun _ _ => rfl⟩
  cases kind <;> decide

omit [Runtime] in
/-- Both findings are in the index, and of the comments those on records that are. -/
theorem build_bounded_twoFindings :
    ∃ index, @build wholeNumbers [.findingRead, .aiUse] rowReader (fun _ => .ok []) "2026-09-08" 21 = some (.ok index) ∧
      index.records.length ≤ 20000 ∧
        ∀ kind ∈ [AuditSourceKind.Finding, .Comment], ∀ row ∈ someRows kind,
          @Indexed wholeNumbers index kind row ∨ @Orphaned wholeNumbers index kind row := by
  have hkinds : (@build wholeNumbers [.findingRead, .aiUse] rowReader (fun _ => .ok []) "2026-09-08" 21).map
      (fun result => result.toOption.map fun index => (index.restrictedKinds, index.incompleteKinds)) =
      some (some ([.Entity, .Process, .Engagement, .Risk, .Control, .Procedure, .Workpaper, .Evidence, .ControlTest,
        .ReviewNote, .Document], [])) := by
    decide +kernel
  obtain ⟨result, hends, h⟩ := @build_bounded wholeNumbers idBefore _ _ [.findingRead, .aiUse] rowReader
    (fun _ => .ok []) "2026-09-08"
  rw [hends 21 le_rfl] at hkinds ⊢
  cases result with
  | error e => cases hkinds
  | ok index =>
    simp only [Option.map_some, Except.toOption, Option.some.injEq, Prod.mk.injEq] at hkinds
    obtain ⟨htotal, -, -, hall⟩ := h index rfl
    refine ⟨index, rfl, htotal, fun kind hkind row hrow => hall kind ?_ _ (rowReader_returns kind) ?_ ?_ row hrow⟩
    · simp only [List.mem_cons, List.not_mem_nil, or_false] at hkind
      rcases hkind with rfl | rfl <;> decide
    · rw [hkinds.1]
      simp only [List.mem_cons, List.not_mem_nil, or_false] at hkind
      rcases hkind with rfl | rfl <;> decide
    · rw [hkinds.2]
      exact List.not_mem_nil

end AuditSphere.Intelligence
