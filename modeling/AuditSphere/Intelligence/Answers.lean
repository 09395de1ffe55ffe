import AuditSphere.Intelligence.Bounds
import AuditSphere.Intelligence.Draft
import AuditSphere.Intelligence.Filters
import AuditSphere.Theory.Blocks
import AuditSphere.Theory.Lists
import Mathlib.Algebra.Order.BigOperators.Group.List
import Mathlib.Data.List.Dedup
import Mathlib.Data.List.Infix

/-!
# The answers of a search

What a search returns is cut in several places: the matches into pages, what is related to them at
400 records, the traces of a row at 60. No cut leaves a citation of a record that is not returned
(`isClosed_resultOf`), and the pages are together all matches (`arePages_resultOf`). The draft fits
the schema of the assistant but for one text, which lists what was searched for and is not cut.
-/

namespace AuditSphere.Intelligence

open Theory Shared.Assistant

/-! ### Lists that are sorted by a key -/

/-- An element is inserted where its key belongs, however those with equal keys are ordered. -/
theorem pairwise_orderedInsert {α : Type} {r : α → α → Prop} [DecidableRel r] {key : α → ℕ}
    (hle : ∀ a b, r a b → key b ≤ key a) (hge : ∀ a b, ¬r a b → key a ≤ key b) (a : α) {l : List α}
    (hl : l.Pairwise fun x y => key y ≤ key x) : (l.orderedInsert r a).Pairwise fun x y => key y ≤ key x := by
  induction l with
  | nil => exact List.pairwise_singleton _ _
  | cons b l ih =>
    obtain ⟨hb, hl⟩ := List.pairwise_cons.mp hl
    rw [List.orderedInsert_cons]
    split
    · rename_i hab
      refine List.pairwise_cons.mpr ⟨fun x hx => ?_, List.pairwise_cons.mpr ⟨hb, hl⟩⟩
      rcases List.mem_cons.mp hx with rfl | hx
      · exact hle _ _ hab
      · exact (hb x hx).trans (hle _ _ hab)
    · rename_i hab
      refine List.pairwise_cons.mpr ⟨fun x hx => ?_, ih hl⟩
      rcases List.mem_cons.mp ((List.perm_orderedInsert r a l).mem_iff.mp hx) with rfl | hx
      · exact hge _ _ hab
      · exact hb x hx

/-- So a list is sorted by its keys. -/
theorem pairwise_insertionSort {α : Type} {r : α → α → Prop} [DecidableRel r] {key : α → ℕ}
    (hle : ∀ a b, r a b → key b ≤ key a) (hge : ∀ a b, ¬r a b → key a ≤ key b) (l : List α) :
    (l.insertionSort r).Pairwise fun x y => key y ≤ key x := by
  induction l with
  | nil => exact List.Pairwise.nil
  | cons a l ih => exact pairwise_orderedInsert hle hge a ih

/-! ### What is returned -/

theorem length_mapSet_le {κ ν : Type} [DecidableEq κ] (key : κ) (value : ν) (m : List (κ × ν)) :
    (mapSet key value m).length ≤ m.length + 1 := by
  induction m with
  | nil => exact Nat.le_refl 1
  | cons e m ih =>
    obtain ⟨k, v⟩ := e
    rw [mapSet]
    split
    · exact Nat.le_succ _
    · exact Nat.succ_le_succ ih

/-- The records that are returned: 400 at most, each under its id, and among them those of the page. -/
structure Includes (selected : List Candidate) (included : List (String × AuditRecord)) : Prop where
  length : included.length ≤ 400
  keys : ∀ e ∈ included, e.1 = e.2.source.id
  rows : ∀ m ∈ selected, (mapGet m.record.source.id included).isSome = true

section Included

variable {selected : List Candidate} {included : List (String × AuditRecord)}

/-- One more record, if there is room. -/
theorem Includes.add (h : Includes selected included) (hroom : included.length < 400) (r : AuditRecord) :
    Includes selected (mapSet r.source.id r included) := by
  refine ⟨(length_mapSet_le _ _ _).trans hroom, fun e he => ?_, fun m hm => ?_⟩
  · rcases mem_mapSet he with rfl | he
    · rfl
    · exact h.keys e he
  · by_cases hid : m.record.source.id = r.source.id
    · rw [hid, mapGet_mapSet_self]
      rfl
    · rw [mapGet_mapSet_of_ne hid]
      exact h.rows m hm

/-- A page has 25 records of its own, and there are 400 at most with what is related to them. -/
theorem includes_includedOf (hids : (selected.map (·.record.source.id)).Nodup) (hlength : selected.length ≤ 25) :
    Includes selected (includedOf selected) := by
  have hkeys : ((selected.map fun m => (m.record.source.id, m.record)).map Prod.fst) =
      selected.map (·.record.source.id) := by
    rw [List.map_map]
    rfl
  have hstart : Includes selected (mapOf (selected.map fun m => (m.record.source.id, m.record))) := by
    rw [mapOf_of_nodup (hkeys ▸ hids)]
    refine ⟨?_, fun e he => ?_, fun m hm => ?_⟩
    · rw [List.length_map]
      omega
    · obtain ⟨m, -, rfl⟩ := List.mem_map.mp he
      rfl
    · rw [mapGet_isSome_iff, hkeys]
      exact List.mem_map_of_mem hm
  unfold includedOf
  generalize mapOf (selected.map fun m => (m.record.source.id, m.record)) = included at hstart
  induction selected.flatMap Candidate.related generalizing included with
  | nil => exact hstart
  | cons r records ih =>
    rw [List.foldl_cons]
    refine ih _ ?_
    split
    · rename_i hroom
      exact hstart.add hroom r
    · exact hstart

end Included

section Answers

variable [Runtime] (index : AuditUniverseIndex)

/-- The ids of the records that are returned. -/
def returnedIds (result : SearchResult) : List String := result.records.map (·.source.id)

/-- What is cited is returned: by the rows, their traces, the tables of the draft and the links. -/
structure IsClosed (result : SearchResult) : Prop where
  records : result.records.length ≤ 400
  rows : ∀ row ∈ result.rows, row.sourceId ∈ returnedIds result ∧ ∀ id ∈ row.traceIds, id ∈ returnedIds result
  results : ∀ entry ∈ result.results, entry.1 ∈ returnedIds result
  tables : ∀ part ∈ (draftOf index result).sections, ∀ row ∈ part.rows, ∀ id ∈ row.sourceIds, id ∈ returnedIds result
  links : ∀ l ∈ result.links, l.source ∈ returnedIds result ∧ l.target ∈ returnedIds result

variable {index} {query : IntelligenceQuery} {scope : Option String} {page : ℕ} {found : List Candidate}

omit [Runtime] in
/-- A record that is found among the included is returned. -/
theorem mem_returnedIds {selected : List Candidate} {included : List (String × AuditRecord)}
    (h : Includes selected included) {id : String} (hid : (mapGet id included).isSome = true) :
    id ∈ (included.map fun e => contextRecord e.2).map (·.source.id) := by
  obtain ⟨e, he, rfl⟩ := List.mem_map.mp (mapGet_isSome_iff.mp hid)
  exact List.mem_map.mpr ⟨contextRecord e.2, List.mem_map.mpr ⟨e, he, rfl⟩, (h.keys e he).symm⟩

omit [Runtime] in
/-- The rows of the tables of a draft. -/
theorem mem_tables {result : SearchResult} {part : Section} (hpart : part ∈ (draftOf index result).sections)
    {row : Shared.Assistant.Row} (hrow : row ∈ part.rows) : ∃ r ∈ result.rows, row = draftRow index r := by
  rcases List.mem_cons.mp hpart with rfl | hpart
  · cases hrow
  · rcases List.mem_cons.mp hpart with rfl | hpart
    · obtain ⟨r, hr, rfl⟩ := List.mem_map.mp hrow
      exact ⟨r, hr, rfl⟩
    · rw [List.mem_singleton.mp hpart] at hrow
      cases hrow

/-- **No citation is left open**, on whatever page. -/
theorem isClosed_resultOf (hids : (found.map (·.record.source.id)).Nodup) :
    IsClosed index (resultOf index query scope page found) := by
  have hselected : (((found.drop ((page - 1) * 25)).take 25).map (·.record.source.id)).Nodup :=
    (((List.take_sublist _ _).trans (List.drop_sublist _ _)).map _).nodup hids
  have hincludes := includes_includedOf hselected (List.length_take_le _ _)
  have hrows : ∀ row ∈ (resultOf index query scope page found).rows,
      row.sourceId ∈ returnedIds (resultOf index query scope page found) ∧
        ∀ id ∈ row.traceIds, id ∈ returnedIds (resultOf index query scope page found) := by
    intro row hrow
    obtain ⟨m, hm, rfl⟩ := List.mem_map.mp hrow
    refine ⟨mem_returnedIds hincludes (hincludes.rows m hm), fun id hid => ?_⟩
    obtain ⟨r, hr, rfl⟩ := List.mem_map.mp hid
    have hcond := (List.mem_filter.mp (List.mem_of_mem_take hr)).2
    exact mem_returnedIds hincludes (Bool.and_eq_true_iff.mp hcond).2
  refine ⟨?_, hrows, fun entry hentry => ?_, fun part hpart row hrow id hid => ?_, fun l hl => ?_⟩
  · exact (List.length_map _).trans_le hincludes.length
  · obtain ⟨m, hm, rfl⟩ := List.mem_map.mp hentry
    exact mem_returnedIds hincludes (hincludes.rows m hm)
  · obtain ⟨r, hr, rfl⟩ := mem_tables hpart hrow
    rcases List.mem_append.mp (List.mem_of_mem_take hid) with hid | hid
    · rw [List.mem_singleton.mp hid]
      exact (hrows r hr).1
    · exact (hrows r hr).2 id hid
  · have hends := Bool.and_eq_true_iff.mp (List.mem_filter.mp hl).2
    exact ⟨mem_returnedIds hincludes hends.1, mem_returnedIds hincludes hends.2⟩

/-! ### Counts and pages -/

/-- The counts of the kinds add up to all matches. -/
theorem sum_counts : ((resultOf index query scope page found).counts.map Prod.snd).sum =
    (resultOf index query scope page found).totalMatches :=
  (sum_foldl_mapSet Candidate.kind found []).trans (Nat.zero_add _)

variable {today : String}

theorem record_of_matchOf {r : AuditRecord} {c : Candidate} (h : matchOf index query scope today r = some c) :
    c.record = r := by
  obtain ⟨kind, -, -, -, rfl⟩ := matchOf_eq_some_iff.mp h
  rfl

/-- Each record is a match once at most. -/
theorem ids_filterMap_sublist (records : List AuditRecord) :
    ((records.filterMap (matchOf index query scope today)).map (·.record.source.id)).Sublist
      (records.map (·.source.id)) := by
  induction records with
  | nil => exact List.Sublist.refl _
  | cons r records ih =>
    cases hmatch : matchOf index query scope today r with
    | none =>
      rw [List.filterMap_cons_none hmatch]
      exact ih.cons _
    | some c =>
      rw [List.filterMap_cons_some hmatch, List.map_cons, List.map_cons, record_of_matchOf hmatch]
      exact ih.cons_cons _

theorem nodup_matchesOf (hids : (idsOf index).Nodup) :
    ((matchesOf index query scope today).map (·.record.source.id)).Nodup :=
  (((List.perm_insertionSort _ _).map _).nodup_iff).mpr ((ids_filterMap_sublist index.records).nodup hids)

/-- The matches stand in descending order of their scores. -/
theorem sorted_matchesOf :
    (matchesOf index query scope today).Pairwise fun a b => score query b ≤ score query a := by
  refine pairwise_insertionSort (fun a b h => ?_) (fun a b h => ?_) _
  · rw [sortsBefore, Bool.or_eq_true, Bool.and_eq_true, decide_eq_true_eq, decide_eq_true_eq] at h
    rcases h with h | ⟨h, -⟩
    · exact h.le
    · exact h.ge
  · rw [sortsBefore, Bool.or_eq_true, decide_eq_true_eq, not_or] at h
    exact not_lt.mp h.1

variable (index query scope today) in
/-- The rows of the pages are the matches: in the order of their scores, each of them once, and 25 on every page
but the last. -/
structure ArePages (rows : ℕ → List ResultRow) : Prop where
  matches_iff : ∀ r ∈ index.records, r.source.id ∈ (matchesOf index query scope today).map (·.record.source.id) ↔
    (matchOf index query scope today r).isSome = true
  sorted : (matchesOf index query scope today).Pairwise fun a b => score query b ≤ score query a
  once : ((matchesOf index query scope today).map (·.record.source.id)).Nodup
  together : ∀ n, (matchesOf index query scope today).length ≤ 25 * n →
    ((List.range n).flatMap fun k => rows (k + 1)).map (·.sourceId) =
      (matchesOf index query scope today).map (·.record.source.id)
  length : ∀ p, 1 ≤ p → (rows p).length = min 25 ((matchesOf index query scope today).length - 25 * (p - 1))

/-- **The pages are the matches.** -/
theorem arePages_resultOf (hids : (idsOf index).Nodup) : ArePages index query scope today fun p =>
    (resultOf index query scope p (matchesOf index query scope today)).rows := by
  refine ⟨fun r hr => ?_, sorted_matchesOf, nodup_matchesOf hids, fun n hn => ?_, fun p hp => ?_⟩
  · rw [List.mem_map]
    constructor
    · rintro ⟨c, hc, hid⟩
      obtain ⟨r', hr', hmatch⟩ := mem_matchesOf_iff.mp hc
      rw [record_of_matchOf hmatch] at hid
      rw [← List.inj_on_of_nodup_map hids hr' hr hid, hmatch]
      rfl
    · intro h
      obtain ⟨c, hc⟩ := Option.isSome_iff_exists.mp h
      exact ⟨c, mem_matchesOf_iff.mpr ⟨r, hr, hc⟩, by rw [record_of_matchOf hc]⟩
  · -- the pages are slices that follow each other
    rw [List.map_flatMap]
    have hslices := @flatMap_slices _ ((matchesOf index query scope today).map (·.record.source.id)) (fun k => k * 25)
      (fun _ => 25) rfl (fun k => Nat.succ_mul k 25) n
    rw [List.take_of_length_le (by rw [List.length_map]; omega)] at hslices
    rw [← hslices]
    refine List.flatMap_congr fun k _ => ?_
    rw [← List.map_drop, ← List.map_take, resultOf, List.map_map, Nat.add_sub_cancel]
    rfl
  · rw [resultOf, List.length_map, List.length_take, List.length_drop, Nat.mul_comm]

end Answers

/-! ### The schema -/

/-- The name of a kind is short. -/
theorem size_name_le (kind : AuditSearchKind) : size kind.source.name ≤ 10 := by
  cases kind <;> decide +kernel

/-- There are nine kinds. -/
theorem length_kinds_le {kinds : List AuditSearchKind} (h : kinds.Nodup) : kinds.length ≤ 9 :=
  (List.subperm_of_subset h (show kinds ⊆ AUDIT_SEARCH_KINDS from fun kind _ => by cases kind <;> decide)).length_le

/-- Texts of a limited length, joined. -/
theorem size_intercalate_le {separator : String} {words : List String} {n k : ℕ} (hsize : ∀ s ∈ words, size s ≤ k)
    (hlength : words.length ≤ n) : size (String.intercalate separator words) ≤ n * (k + size separator) := by
  have hsum : (words.map size).sum ≤ words.length * k := by
    have := List.sum_le_card_nsmul (words.map size) k (by simpa using hsize)
    simpa using this
  rw [size_intercalate, Nat.mul_add]
  exact Nat.add_le_add (hsum.trans (Nat.mul_le_mul_right _ hlength))
    (Nat.mul_le_mul_right _ ((Nat.sub_le _ _).trans hlength))

/-- The summary names the counts of the kinds. -/
theorem size_summary_le {result : SearchResult} (htotal : result.totalMatches < 2 ^ 32)
    (hengagements : result.engagementCount < 2 ^ 32) (hkinds : (result.counts.map Prod.fst).Nodup)
    (hcounts : ∀ c ∈ result.counts, c.2 < 2 ^ 32) : IsText (summary result) := by
  have hlength : (result.counts.map fun c => c.1.source.name ++ ": " ++ toString c.2).length ≤ 9 := by
    rw [List.length_map, ← List.length_map (f := Prod.fst)]
    exact length_kinds_le hkinds
  have hsizes : ∀ s ∈ result.counts.map (fun c => c.1.source.name ++ ": " ++ toString c.2), size s ≤ 22 := by
    intro s hs
    obtain ⟨c, hc, rfl⟩ := List.mem_map.mp hs
    have hname := size_name_le c.1
    have hnumber := size_toString_le (hcounts c hc)
    have hcolon : size ": " = 2 := by decide +kernel
    rw [size_append, size_append, hcolon]
    omega
  have hjoined := @size_intercalate_le "; " _ _ _ hsizes hlength
  have hnumbers := size_toString_le htotal
  have hnumbers' := size_toString_le hengagements
  have hconstants : size " matching records across " = 25 ∧ size " linked engagements. " = 21 ∧ size "; " = 2 ∧
      size "." = 1 := by decide +kernel
  rw [hconstants.2.2.1] at hjoined
  rw [IsText, IsWithin, summary]
  simp only [size_append, hconstants]
  omega

/-- The draft, without the warnings of the index. -/
def withoutWarnings (index : AuditUniverseIndex) (result : SearchResult) : Content :=
  let draft := draftOf index result
  { draft with caveats := draft.caveats.drop index.warnings.length }

/-- A piece of a text that is written out. -/
theorem size_piece_le {s : List Char} (h : unitLength s ≤ 200) : size (String.ofList s) ≤ 200 := size_ofList_le h

section Schema

variable {index : AuditUniverseIndex} {result : SearchResult}

theorem searchSummary_fits (h : IsText result.interpretation) : (searchSummary result).Fits := by
  have htitle : IsWithin 160 "Search Summary" := by decide +kernel
  refine ⟨htitle, ⟨?_, fun item hitem => ?_⟩, ⟨Nat.zero_le _, nofun⟩, ⟨Nat.zero_le _, nofun⟩⟩
  · rw [searchSummary, List.length_append]
    cases result.emptyReason <;> simp
  · rcases List.mem_append.mp hitem with hitem | hitem
    · rw [List.mem_singleton.mp hitem]
      exact ⟨h, isRefs_nil⟩
    · revert hitem
      cases result.emptyReason with
      | none => exact nofun
      | some reason =>
        intro hitem
        rw [List.mem_singleton.mp hitem]
        have hreason : size reason.text ≤ 20 := by cases reason <;> decide +kernel
        refine ⟨?_, isRefs_nil⟩
        exact (size_append_le (size_append_le (size_append_le (size_append_le
          (size_piece_le (by decide +kernel)) hreason) (size_piece_le (by decide +kernel)))
          (size_piece_le (by decide +kernel))) (size_piece_le (by decide +kernel))).trans (by decide)

/-- A row of the table fits, whatever stands in it. -/
theorem draftRow_fits {r : ResultRow} (hid : IsWithin 30 r.sourceId) (htraces : ∀ id ∈ r.traceIds, IsWithin 30 id) :
    (draftRow index r).Fits := by
  have hseven : (draftRow index r).cells.length = 7 := rfl
  refine ⟨by rw [hseven]; decide, fun cell hcell => ?_, List.length_take_le _ _, fun id hmem => ?_⟩
  · obtain ⟨s, -, rfl⟩ := List.mem_map.mp hcell
    exact size_sliceText_le 4000 s
  · rcases List.mem_append.mp (List.mem_of_mem_take hmem) with hmem | hmem
    · rw [List.mem_singleton.mp hmem]
      exact hid
    · exact htraces id hmem

theorem resultsSection_fits (hlength : result.rows.length ≤ 25)
    (hrows : ∀ r ∈ result.rows, IsWithin 30 r.sourceId ∧ ∀ id ∈ r.traceIds, IsWithin 30 id) :
    (resultsSection index result).Fits := by
  have htitle : IsWithin 160 "Results" := by decide +kernel
  have hcolumns : ∀ column ∈ (resultsSection index result).columns, IsWithin 100 column := by
    simp only [resultsSection]
    decide +kernel
  refine ⟨htitle, ⟨Nat.zero_le _, nofun⟩, ⟨by simp [resultsSection], hcolumns⟩, ⟨?_, fun row hrow => ?_⟩⟩
  · rw [resultsSection, List.length_map]
    omega
  · obtain ⟨r, hr, rfl⟩ := List.mem_map.mp hrow
    exact draftRow_fits (hrows r hr).1 (hrows r hr).2

theorem coverageSection_fits (hsources : result.sourcesAnalysed < 2 ^ 32)
    (hpercent : ∀ p ∈ result.coveragePercent, p < 2 ^ 32) : (coverageSection result).Fits := by
  have htitle : IsWithin 160 "Coverage" := by decide +kernel
  refine ⟨htitle, ⟨by simp [coverageSection], fun item hitem => ?_⟩, ⟨Nat.zero_le _, nofun⟩, ⟨Nat.zero_le _, nofun⟩⟩
  rw [List.mem_singleton.mp hitem]
  refine ⟨?_, isRefs_nil⟩
  have hsize := size_toString_le hsources
  have hcoverage : size (coverageText result.coveragePercent) ≤ 11 := by
    cases hp : result.coveragePercent with
    | none => decide +kernel
    | some percent =>
      have hpercent := size_toString_le (hpercent percent hp)
      have hsign : size "%" = 1 := by decide +kernel
      rw [coverageText, size_append, hsign]
      omega
  have hconfidence : size result.confidence.text ≤ 6 := by
    cases result.confidence <;> decide +kernel
  have hbasis : size coverageBasis ≤ 200 + 200 + 200 :=
    size_append_le (size_append_le (size_piece_le (by decide +kernel)) (size_piece_le (by decide +kernel)))
      (size_piece_le (by decide +kernel))
  have hreason : size confidenceReason ≤ 200 + 200 :=
    size_append_le (size_piece_le (by decide +kernel)) (size_piece_le (by decide +kernel))
  have hconstants : size " accessible records analysed; metadata coverage: " ≤ 100 ∧ size ". Confidence: " ≤ 100 ∧
      size ". " ≤ 100 ∧ size " " ≤ 100 := by decide +kernel
  rw [IsText, IsWithin]
  simp only [size_append]
  omega

variable (index) in
/-- What of a result is bounded: its numbers, the ids it cites and its rows. -/
structure IsBounded (result : SearchResult) : Prop where
  sources : result.sourcesAnalysed < 2 ^ 32
  percent : ∀ p ∈ result.coveragePercent, p < 2 ^ 32
  total : result.totalMatches < 2 ^ 32
  engagements : result.engagementCount < 2 ^ 32
  kinds : (result.counts.map Prod.fst).Nodup
  counts : ∀ c ∈ result.counts, c.2 < 2 ^ 32
  length : result.rows.length ≤ 25
  ids : ∀ r ∈ result.rows, IsWithin 30 r.sourceId ∧ ∀ id ∈ r.traceIds, IsWithin 30 id
  warnings : ∃ extra, result.warnings = index.warnings ++ extra ∧ extra.length ≤ 1 ∧ ∀ s ∈ extra, IsText s

theorem narrative_fits (h : IsBounded index result) : IsText (withoutWarnings index result).narrative := by
  have hnone : IsText "No matching records found." := by decide +kernel
  unfold withoutWarnings draftOf
  dsimp only
  split
  · exact size_summary_le h.total h.engagements h.kinds h.counts
  · exact hnone

/-- What is left of the caveats is of the search itself. -/
theorem caveats_fits (h : IsBounded index result) : AreTexts (withoutWarnings index result).caveats := by
  obtain ⟨extra, hwarnings, hlength, htexts⟩ := h.warnings
  have hown : ∀ s ∈ ((draftOf index result).caveats.drop result.warnings.length), IsText s := by
    rw [draftOf, List.drop_left]
    intro s hs
    rcases List.mem_cons.mp hs with rfl | hs
    · exact (size_append_le (size_piece_le (by decide +kernel)) (size_piece_le (by decide +kernel))).trans
        (by decide)
    · rw [List.mem_singleton.mp hs]
      exact (size_append_le (size_piece_le (by decide +kernel)) (size_piece_le (by decide +kernel))).trans
        (by decide)
  have hcaveats : (withoutWarnings index result).caveats =
      extra ++ (draftOf index result).caveats.drop result.warnings.length := by
    rw [withoutWarnings, draftOf, List.drop_left, hwarnings, List.append_assoc, List.drop_left]
  rw [hcaveats]
  refine ⟨?_, fun s hs => (List.mem_append.mp hs).elim (htexts s) (hown s)⟩
  rw [List.length_append, draftOf, List.drop_left]
  simp only [List.length_cons, List.length_nil]
  omega

/-- The draft of a bounded result fits the schema exactly if its interpretation does. -/
theorem withoutWarnings_fits_iff (h : IsBounded index result) :
    (withoutWarnings index result).Fits ↔ IsText result.interpretation := by
  constructor
  · intro hfits
    have hsummary := hfits.sections.2 (searchSummary result) List.mem_cons_self
    exact (hsummary.items.2 _ (List.mem_append_left _ List.mem_cons_self)).1
  · intro htext
    have hrationale : IsText (withoutWarnings index result).evidenceAssessment.rationale :=
      size_ofList_le (by decide +kernel)
    have hrating : IsText (withoutWarnings index result).ratingProposal.rationale :=
      size_ofList_le (by decide +kernel)
    have hchecklist : ∀ s ∈ (withoutWarnings index result).checklist, IsText s := by
      intro s hs
      rw [List.mem_singleton.mp hs]
      exact size_ofList_le (by decide +kernel)
    have hsections : ∀ part ∈ (draftOf index result).sections, part.Fits := by
      intro part hpart
      rcases List.mem_cons.mp hpart with rfl | hpart
      · exact searchSummary_fits htext
      · rcases List.mem_cons.mp hpart with rfl | hpart
        · exact resultsSection_fits h.length h.ids
        · rw [List.mem_singleton.mp hpart]
          exact coverageSection_fits h.sources h.percent
    exact {
      title := by
        have htitle : 1 ≤ size "Audit Intelligence" ∧ IsWithin 300 "Audit Intelligence" := by decide +kernel
        exact htitle
      narrative := narrative_fits h
      sections := ⟨by simp [withoutWarnings, draftOf], hsections⟩
      exceptions := ⟨Nat.zero_le _, nofun⟩
      reviewerNotes := ⟨Nat.zero_le _, nofun⟩
      evidenceAssessment := ⟨hrationale, isRefs_nil, Nat.zero_le _, nofun⟩
      ratingProposal := ⟨nofun, nofun, nofun, hrating, isRefs_nil⟩
      suggestions := ⟨Nat.zero_le _, nofun⟩
      checklist := ⟨by simp [withoutWarnings, draftOf], hchecklist⟩
      caveats := caveats_fits h }

end Schema

/-! ### Answers -/

/-- An index of sources with different ids, none of them longer than the schema allows. -/
structure IsIndex (index : AuditUniverseIndex) : Prop where
  ids : (idsOf index).Nodup
  short : ∀ id ∈ idsOf index, IsWithin 30 id
  length : index.records.length < 2 ^ 32

section Bounded

variable [Runtime] {index : AuditUniverseIndex} {query : IntelligenceQuery} {scope : Option String} {today : String}

/-- An index that was built has sources that are numbered, 20000 of them at most. -/
theorem isIndex_of_build {permissions : List Shared.PermissionKey} {reader : Reader} {directory : Directory}
    {now : String} {fuel : ℕ} (hfuel : 21 ≤ fuel)
    (h : build permissions reader directory now fuel = some (.ok index)) : IsIndex index := by
  have hfresh : ∀ kind ∈ INDEX_KINDS, Fresh Build.empty kind := fun kind _ =>
    ⟨fun r hr => absurd hr List.not_mem_nil, List.not_mem_nil⟩
  obtain ⟨result, hresult, hbounded⟩ := build_bounded idBefore permissions reader directory now
  obtain ⟨htotal, -, hids, -⟩ := hbounded index (Option.some.inj ((hresult fuel hfuel).symm.trans h))
  obtain ⟨b, hends, hb, -, -⟩ := readKinds_spec reader idBefore permissions (by decide) sound_empty hfresh
  obtain ⟨extra, rfl⟩ := Nat.exists_eq_add_of_le hfuel
  rw [build, hends extra, Option.map_some, Option.some.injEq] at h
  refine ⟨hids, fun id hid => ?_, htotal.trans_lt (by decide)⟩
  -- the id is one of those that were numbered
  rw [idsOf, map_renamed (fun _ _ hr => hr.id) (finish_ok h).records] at hid
  have hnumbered := (List.filter_sublist.map _).subset hid
  rw [hb.ids] at hnumbered
  obtain ⟨i, hi, rfl⟩ := List.mem_map.mp hnumbered
  have hle := (List.mem_range'_1.mp hi).2
  have hnumber : size (toString i) ≤ 10 := size_toString_le (by have := hb.total; omega)
  have hS : size "S" = 1 := by decide +kernel
  have hsize : size ("S" ++ toString i) ≤ 11 := by
    rw [size_append, hS]
    omega
  exact hsize.trans (by decide)

omit [Runtime] in
theorem mem_walk {next : String → List String} {r x : AuditRecord} (hr : r ∈ index.records)
    (hx : x ∈ walk index next r) : x ∈ index.records := by
  obtain ⟨id, -, hid⟩ := List.mem_filterMap.mp hx
  split at hid
  · cases hid
    exact hr
  · exact (byId_eq_some hid).1

omit [Runtime] in
/-- What is related to a record of the index is a record of the index. -/
theorem related_subset {kind : AuditSearchKind} {r x : AuditRecord} (hr : r ∈ index.records)
    (hx : x ∈ related index scope kind r) : x ∈ index.records := by
  rcases mem_related hx with hx | ⟨o, ho, hx⟩
  · exact mem_walk hr hx
  · have ho : o ∈ index.records := by
      rcases ho with ho | ho
      · exact mem_walk hr (List.mem_filter.mp ho).1
      · rw [actionEvidence] at ho
        split at ho
        · obtain ⟨f, hf, ho⟩ := List.mem_flatMap.mp (List.mem_filter.mp ho).1
          exact mem_walk (mem_walk hr (List.mem_filter.mp hf).1) ho
        · cases ho
    rcases hx with rfl | hx
    · exact ho
    · exact mem_walk ho hx

theorem matches_subset {c : Candidate} (hc : c ∈ matchesOf index query scope today) :
    c.record ∈ index.records ∧ (∀ x ∈ c.related, x ∈ index.records) ∧ c.engagements ⊆ c.related := by
  obtain ⟨r, hr, hmatch⟩ := mem_matchesOf_iff.mp hc
  obtain ⟨kind, -, -, -, rfl⟩ := matchOf_eq_some_iff.mp hmatch
  exact ⟨hr, fun x hx => related_subset hr hx, fun x hx => (List.mem_filter.mp hx).1⟩

theorem length_matchesOf_le : (matchesOf index query scope today).length ≤ index.records.length :=
  (List.perm_insertionSort _ _).length_eq.trans_le (List.length_filterMap_le _ _)

/-- There are no more engagements than records. -/
theorem engagementCount_le {page : ℕ} :
    (resultOf index query scope page (matchesOf index query scope today)).engagementCount ≤ index.records.length := by
  rw [← List.length_map (f := fun r : AuditRecord => r.source.recordId)]
  refine (List.subperm_of_subset (List.nodup_dedup _) fun id hid => ?_).length_le
  obtain ⟨m, hm, hid⟩ := List.mem_flatMap.mp (List.mem_dedup.mp hid)
  obtain ⟨e, he, rfl⟩ := List.mem_map.mp hid
  obtain ⟨-, hrelated, hengagements⟩ := matches_subset hm
  exact List.mem_map_of_mem (hrelated e (hengagements he))

omit [Runtime] in
/-- Each kind is counted once, and no more often than there are matches. -/
theorem countsOf_bounded (found : List Candidate) :
    ((countsOf found).map Prod.fst).Nodup ∧ ∀ c ∈ countsOf found, c.2 ≤ found.length := by
  refine ⟨?_, fun c hc => ?_⟩
  · rw [countsOf]
    suffices ∀ counts : List (AuditSearchKind × ℕ), (counts.map Prod.fst).Nodup → ((found.foldl (fun counts m =>
        mapSet m.kind ((mapGet m.kind counts).getD 0 + 1) counts) counts).map Prod.fst).Nodup from
      this [] List.nodup_nil
    induction found with
    | nil => exact fun _ h => h
    | cons m found ih => exact fun counts h => ih _ (nodup_keys_mapSet h)
  · have hsum : ((countsOf found).map Prod.snd).sum = found.length :=
      (sum_foldl_mapSet Candidate.kind found []).trans (Nat.zero_add _)
    rw [← hsum]
    exact List.le_sum_of_mem (List.mem_map_of_mem hc)

/-- What a search returns for its matches is bounded. -/
theorem isBounded_resultOf (h : IsIndex index) (page : ℕ) :
    IsBounded index (resultOf index query scope page (matchesOf index query scope today)) := by
  have htotal : (matchesOf index query scope today).length < 2 ^ 32 := length_matchesOf_le.trans_lt h.length
  have hshort : ∀ r ∈ index.records, IsWithin 30 r.source.id := fun r hr => h.short _ (List.mem_map_of_mem hr)
  exact {
    sources := h.length
    percent := by
      intro p hp
      simp only [resultOf] at hp
      split at hp
      · cases hp
      · cases hp
        decide
    total := htotal
    engagements := engagementCount_le.trans_lt h.length
    kinds := (countsOf_bounded _).1
    counts := fun c hc => ((countsOf_bounded _).2 c hc).trans_lt htotal
    length := by
      rw [resultOf, List.length_map]
      exact List.length_take_le _ _
    ids := by
      intro row hrow
      obtain ⟨c, hc, hid, -, htraces⟩ := mem_rows hrow
      obtain ⟨hrecord, hrelated, -⟩ := matches_subset hc
      refine ⟨hid ▸ hshort _ hrecord, fun id hmem => ?_⟩
      obtain ⟨x, hx, rfl⟩ := htraces id hmem
      exact hshort x (hrelated x hx)
    warnings := by
      refine ⟨_, rfl, ?_, ?_⟩
      · split <;> simp
      · intro s hs
        split at hs
        · rw [List.mem_singleton.mp hs]
          exact size_ofList_le (by decide +kernel)
        · cases hs }

/-- The answers to a query, page by page: closed, counted, the pages of the matches, and with a draft that fits
the schema but for the warnings of the index. -/
structure Answers (index : AuditUniverseIndex) (dto : CopilotRequest) (now : Date) (query : IntelligenceQuery)
    (scope : Option String) (answer : ℕ → SearchResult) : Prop where
  returned : ∀ p, 1 ≤ p → searchAuditIntelligence index { dto with searchPage := some p } now = .ok (answer p)
  closed : ∀ p, 1 ≤ p → IsClosed index (answer p)
  counted : ∀ p, 1 ≤ p → ((answer p).counts.map Prod.snd).sum = (answer p).totalMatches
  total : ∀ p, 1 ≤ p → (answer p).totalMatches = (matchesOf index query scope (isoDate now)).length
  pages : ArePages index query scope (isoDate now) fun p => (answer p).rows
  fits : ∀ p, 1 ≤ p → (withoutWarnings index (answer p)).Fits

variable {dto : CopilotRequest} {now : Date}

/-- The pages are of one search. -/
theorem search_page (hquery : interpretIntelligenceQuery dto now = .ok query) (hscope : scopeOf index dto = .ok scope)
    (p : ℕ) : searchAuditIntelligence index { dto with searchPage := some p } now =
      .ok (resultOf index query scope p (matchesOf index query scope (isoDate now))) := by
  have hquery' : interpretIntelligenceQuery { dto with searchPage := some p } now = .ok query := hquery
  have hscope' : scopeOf index { dto with searchPage := some p } = .ok scope := hscope
  rw [searchAuditIntelligence, hquery', hscope']
  rfl

/-- An answer that fits has an interpretation that does. -/
theorem spokenSize_le_of_answers (hquery : interpretIntelligenceQuery dto now = .ok query)
    (hscope : scopeOf index dto = .ok scope) {answer : ℕ → SearchResult}
    (h : Answers index dto now query scope answer) : spokenSize query scope ≤ 12000 := by
  have hreturned := h.returned 1 le_rfl
  rw [search_page hquery hscope, Except.ok.injEq] at hreturned
  have hsummary := (h.fits 1 le_rfl).sections.2 (searchSummary (answer 1)) List.mem_cons_self
  have htext : IsText (answer 1).interpretation :=
    (hsummary.items.2 _ (List.mem_append_left _ List.mem_cons_self)).1
  rw [← hreturned] at htext
  rw [← size_interpretation]
  exact htext

/-- **A search answer is closed, its pages are exact**, and its draft fits the schema, exactly if the text that
lists what is searched for does. -/
theorem answers_iff (hindex : IsIndex index) (hquery : interpretIntelligenceQuery dto now = .ok query)
    (hscope : scopeOf index dto = .ok scope) :
    (∃ answer, Answers index dto now query scope answer) ↔ spokenSize query scope ≤ 12000 := by
  constructor
  · rintro ⟨answer, h⟩
    exact spokenSize_le_of_answers hquery hscope h
  · intro hsize
    refine ⟨fun p => resultOf index query scope p (matchesOf index query scope (isoDate now)), ?_⟩
    have htext : IsText (interpretation query scope) := (size_interpretation query scope).trans_le hsize
    exact {
      returned := fun p _ => search_page hquery hscope p
      closed := fun p _ => isClosed_resultOf (nodup_matchesOf hindex.ids)
      counted := fun p _ => sum_counts
      total := fun p _ => rfl
      pages := arePages_resultOf hindex.ids
      fits := fun p _ => (withoutWarnings_fits_iff (isBounded_resultOf hindex p)).mpr htext }

end Bounded

/-- A search for the evidence of an engagement. -/
theorem answers_twoDocuments : ∃ answer, @Answers wholeNumbers twoDocuments (plainRequest "treasury" .Evidence 1) 0
    (plainQuery .Evidence) (some "treasury") answer :=
  (@answers_iff wholeNumbers twoDocuments (plainQuery .Evidence) (some "treasury") _ 0
    ⟨by decide +kernel, by decide +kernel, by decide +kernel⟩ (interpret_plainRequest .Evidence 1 0)
    (by decide +kernel)).mpr (by decide +kernel)

/-! ### Prompts of many words -/

/-- Words are read one by one. -/
theorem splitWords_append (word : List Char) {w : List Char} (hw : ' ' ∉ w) (hne : w ≠ []) (rest : List Char) :
    splitWords word (w ++ ' ' :: rest) = (w.reverse ++ word).reverse :: splitWords [] rest := by
  induction w generalizing word with
  | nil => exact absurd rfl hne
  | cons c w ih =>
    obtain ⟨hc, hw⟩ := not_or.mp (List.mem_cons.not.mp hw)
    rw [List.cons_append, splitWords, if_neg (Ne.symm hc)]
    by_cases hempty : w = []
    · subst hempty
      simp [splitWords]
    · rw [ih (c :: word) hw hempty]
      simp

theorem splitWords_words {words : List (List Char)} (h : ∀ w ∈ words, ' ' ∉ w ∧ w ≠ []) :
    splitWords [] (words.flatMap fun w => w ++ [' ']) = words := by
  induction words with
  | nil => rfl
  | cons w words ih =>
    obtain ⟨⟨hw, hne⟩, h⟩ := List.forall_mem_cons.mp h
    rw [List.flatMap_cons, List.append_assoc, List.singleton_append, splitWords_append [] hw hne, ih h]
    simp

/-- No word of the list occurs: a match of it does not either. -/
theorem occurs_word_eq_false {ws q : List String} (h : ∀ w ∈ q, w ∉ ws) : occurs [word ws] q = false := by
  rw [occurs, List.any_eq_false]
  intro l hl
  cases l with
  | nil => simp [matchesAt, word]
  | cons w l =>
    have hw := h w (((List.mem_tails _ _).mp hl).subset List.mem_cons_self)
    simp [matchesAt, word, hw]

/-- A word of four characters with a digit in it, which no list of words has. -/
structure IsCode (w : String) : Prop where
  length : w.toList.length = 4
  digit : (w.toList.getD 1 ' ').isDigit = true
  last : w.toList.getD 3 ' ' = 'i'

theorem IsCode.not_mem {w : String} (h : IsCode w) {ws : List String}
    (hws : ∀ s ∈ ws, s.toList.length = 4 → (s.toList.getD 1 ' ').isDigit = false) : w ∉ ws := by
  intro hw
  have := hws w hw h.length
  rw [h.digit] at this
  cases this

/-- Such words are all terms. -/
theorem termsOf_codes {q : List String} (hq : ∀ w ∈ q, IsCode w) (hnodup : q.Nodup) : termsOf q = q := by
  have hkept : ∀ t ∈ q, (decide (1 < t.length) && decide (t ∉ STOP) &&
      !((asksWithoutExceptions q || asksWithoutFindings q) && decide (t = "no")) &&
      decide (t ∉ (conceptsOf q).flatMap fun c => (aliasesOf c).flatten) &&
      !(decide (t = "12") && mentions12Months q) && !isYear t) = true := by
    intro t ht
    have hcode := hq t ht
    have hlength : 1 < t.length := by
      rw [← String.length_toList, hcode.length]
      decide
    have hstop : t ∉ STOP := hcode.not_mem (by decide +kernel)
    have halias : t ∉ (conceptsOf q).flatMap fun c => (aliasesOf c).flatten := by
      intro hmem
      obtain ⟨c, -, hmem⟩ := List.mem_flatMap.mp hmem
      have hknown : t ∉ CONCEPTS.flatMap fun e => e.2.flatten := hcode.not_mem (by decide +kernel)
      rw [aliasesOf] at hmem
      cases hget : mapGet c CONCEPTS with
      | none =>
        rw [hget] at hmem
        cases hmem
      | some aliases =>
        rw [hget] at hmem
        exact hknown (List.mem_flatMap.mpr ⟨(c, aliases), mem_of_mapGet hget, hmem⟩)
    have hno : t ∉ ["no", "12"] := hcode.not_mem (by decide +kernel)
    have hyear : isYear t = false := by
      have hlast := hcode.last
      unfold isYear
      split
      · rename_i a b h
        rw [h] at hlast
        obtain rfl : b = 'i' := hlast
        exact Bool.and_false _
      · rfl
    simp only [List.mem_cons, List.not_mem_nil, or_false, not_or] at hno
    simp [hlength, hstop, halias, hno, hyear]
  rw [termsOf, List.filter_eq_self.mpr hkept, eraseDups_of_nodup hnodup]

/-- The letters of a word with a number. -/
def letters (k : ℕ) : List Char := [Char.ofNat (97 + k / 100), Nat.digitChar (k / 10 % 10), Nat.digitChar (k % 10)]

/-- A prompt of words with numbers, each closed by a capital letter that is written as two small ones. -/
def codePrompt (ks : List ℕ) : String := String.ofList (ks.flatMap fun k => letters k ++ ['İ'])

/-- The words, as they are read. -/
def codes (ks : List ℕ) : List String := (ks.map fun k => letters k ++ ['i']).map String.ofList

theorem letter_spec : ∀ a < 20, normalChar (Char.ofNat (97 + a)) = [Char.ofNat (97 + a)] ∧
    Char.ofNat (97 + a) ≠ ' ' ∧ (Char.ofNat (97 + a)).toNat = 97 + a := by
  decide

theorem digit_spec : ∀ d < 10, normalChar (Nat.digitChar d) = [Nat.digitChar d] ∧ Nat.digitChar d ≠ ' ' ∧
    (Nat.digitChar d).toNat = 48 + d ∧ (Nat.digitChar d).isDigit = true := by
  decide

/-- What the letters are, and that they tell the number. -/
theorem letters_spec {k : ℕ} (hk : k < 2000) : (letters k).flatMap normalChar = letters k ∧ ' ' ∉ letters k ∧
    ((letters k).getD 1 ' ').isDigit = true ∧ (∀ c ∈ letters k, c.toNat ≤ 0xFFFF) ∧
    ((letters k).getD 0 ' ').toNat * 100 + ((letters k).getD 1 ' ').toNat * 10 + ((letters k).getD 2 ' ').toNat =
      10228 + k := by
  obtain ⟨hnormal, hspace, hnumber⟩ := letter_spec (k / 100) (by omega)
  obtain ⟨hnormal₁, hspace₁, hnumber₁, hdigit₁⟩ := digit_spec (k / 10 % 10) (by omega)
  obtain ⟨hnormal₂, hspace₂, hnumber₂, -⟩ := digit_spec (k % 10) (by omega)
  refine ⟨?_, ?_, hdigit₁, ?_, ?_⟩
  · rw [letters, List.flatMap_cons, List.flatMap_cons, List.flatMap_singleton, hnormal, hnormal₁, hnormal₂]
    rfl
  · simp [letters, hspace.symm, hspace₁.symm, hspace₂.symm]
  · simp only [letters, List.mem_cons, List.not_mem_nil, or_false]
    rintro c (rfl | rfl | rfl) <;> omega
  · simp only [letters, List.getD_cons_zero, List.getD_cons_succ]
    omega

section Codes

variable {ks : List ℕ} (hks : ∀ k ∈ ks, k < 2000)

include hks

theorem normal_codePrompt : normal (codePrompt ks) = codes ks := by
  have hchars : (ks.flatMap fun k => letters k ++ ['İ']).flatMap normalChar =
      (ks.map fun k => letters k ++ ['i']).flatMap fun w => w ++ [' '] := by
    rw [List.flatMap_assoc, List.flatMap_map]
    refine List.flatMap_congr fun k hk => ?_
    have hspec := letters_spec (hks k hk)
    have hlast : normalChar 'İ' = ['i', ' '] := by decide +kernel
    rw [List.flatMap_append, hspec.1, List.flatMap_singleton, hlast, List.append_assoc]
    rfl
  have hwords : ∀ w ∈ ks.map fun k => letters k ++ ['i'], ' ' ∉ w ∧ w ≠ [] := by
    intro w hw
    obtain ⟨k, hk, rfl⟩ := List.mem_map.mp hw
    have hspec := letters_spec (hks k hk)
    exact ⟨by simp [hspec.2.1], by simp⟩
  rw [normal, codePrompt, codes, String.toList_ofList, hchars, splitWords_words hwords]

theorem nodup_codes (hnodup : ks.Nodup) : (codes ks).Nodup := by
  refine (List.Nodup.map_on ?_ hnodup).map fun _ _ => String.ofList_injective
  intro k hk l hl h
  have hk := (letters_spec (hks k hk)).2.2.2.2
  have hl := (letters_spec (hks l hl)).2.2.2.2
  rw [List.append_cancel_right h] at hk
  omega

theorem isCode_codes : ∀ w ∈ codes ks, IsCode w := by
  intro w hw
  obtain ⟨chars, hchars, rfl⟩ := List.mem_map.mp hw
  obtain ⟨k, hk, rfl⟩ := List.mem_map.mp hchars
  have hspec := letters_spec (hks k hk)
  exact ⟨by rw [String.toList_ofList]; rfl, by rw [String.toList_ofList]; exact hspec.2.2.1,
    by rw [String.toList_ofList]; rfl⟩

/-- Four characters of the prompt make a word of four. -/
theorem size_codes : size (codePrompt ks) = 4 * ks.length ∧ ((codes ks).map size).sum = 4 * ks.length := by
  have hword : ∀ k ∈ ks, ∀ c : Char, c.toNat ≤ 0xFFFF → unitLength (letters k ++ [c]) = 4 := by
    intro k hk c hc
    refine (unitLength_eq_length fun c' hc' => ?_).trans rfl
    rcases List.mem_append.mp hc' with hc' | hc'
    · exact (letters_spec (hks k hk)).2.2.2.1 c' hc'
    · rw [List.mem_singleton.mp hc']
      exact hc
  have hletter : 'İ'.toNat ≤ 0xFFFF ∧ 'i'.toNat ≤ 0xFFFF := by decide
  rw [size, codePrompt, codes, String.toList_ofList, List.map_map, List.map_map]
  clear hks
  induction ks with
  | nil => exact ⟨rfl, rfl⟩
  | cons k ks ih =>
    obtain ⟨hk, hword⟩ := List.forall_mem_cons.mp hword
    obtain ⟨hprompt, hsum⟩ := ih hword
    have hsize : size (String.ofList (letters k ++ ['i'])) = 4 := by
      rw [size, String.toList_ofList, hk 'i' hletter.2]
    have happend := size_append (String.ofList (letters k ++ ['İ']))
      (String.ofList (ks.flatMap fun k => letters k ++ ['İ']))
    rw [size, size, size, String.toList_append, String.toList_ofList, String.toList_ofList, hk 'İ' hletter.1,
      hprompt] at happend
    rw [List.flatMap_cons, happend, List.map_cons, List.sum_cons, hsum, List.length_cons]
    simp only [Function.comp_apply, hsize]
    omega

/-- What is understood of the prompt: every word is a term. -/
theorem interpret_codePrompt (hnodup : ks.Nodup) : ∃ query,
    interpretIntelligenceQuery (promptRequest (codePrompt ks)) 0 = .ok query ∧ query.terms = codes ks := by
  have hnegative : occurs [word ["not", "without", "excluding", "except", "no"]] (codes ks) = false :=
    occurs_word_eq_false fun w hw => (isCode_codes hks w hw).not_mem (by decide +kernel)
  have hterms := termsOf_codes (isCode_codes hks) (nodup_codes hks hnodup)
  rw [interpretIntelligenceQuery, promptRequest, normal_codePrompt hks, hnegative]
  exact ⟨_, rfl, hterms⟩

/-- Two thousand words are as many as a prompt may have, and the text that lists them is longer than a text may be. -/
theorem spokenSize_codePrompt (hnodup : ks.Nodup) (hlength : ks.length = 2000) : size (codePrompt ks) = 8000 ∧
    ∃ query, interpretIntelligenceQuery (promptRequest (codePrompt ks)) 0 = .ok query ∧
      12000 < spokenSize query none := by
  obtain ⟨hprompt, hsum⟩ := size_codes hks
  obtain ⟨query, hquery, hterms⟩ := interpret_codePrompt hks hnodup
  refine ⟨by omega, query, hquery, ?_⟩
  have hcodes : (codes ks).length = 2000 := by
    rw [codes, List.length_map, List.length_map, hlength]
  have hlist : listSize 4 query.terms = 11998 := by
    rw [listSize, hterms, hsum, hcodes, hlength]
    rfl
  unfold spokenSize
  rw [hlist, if_neg (by simp)]
  omega

end Codes

/-- A prompt of two thousand words is accepted, and no answers to it are as they should be. -/
theorem longPrompt_refused : size (codePrompt (List.range 2000)) = 8000 ∧
    ∃ query, interpretIntelligenceQuery (promptRequest (codePrompt (List.range 2000))) 0 = .ok query ∧
      scopeOf twoDocuments (promptRequest (codePrompt (List.range 2000))) = .ok none ∧
      ¬∃ answer, @Answers wholeNumbers twoDocuments (promptRequest (codePrompt (List.range 2000))) 0 query none
        answer := by
  have hks : ∀ k ∈ List.range 2000, k < 2000 := fun k hk => List.mem_range.mp hk
  obtain ⟨hprompt, query, hquery, hsize⟩ := spokenSize_codePrompt hks List.nodup_range List.length_range
  refine ⟨hprompt, query, hquery, rfl, ?_⟩
  rintro ⟨answer, h⟩
  exact absurd (@spokenSize_le_of_answers wholeNumbers _ _ _ _ _ hquery rfl answer h) (by omega)

end AuditSphere.Intelligence
