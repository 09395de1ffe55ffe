import AuditSphere.Intelligence.Scope

/-!
# The walks of a search

The graph of an index is kept in two maps, which are filled link by link
(`directions`), and a walk goes through a queue that grows while it is read
(`walkRounds`). It is shown to end, to find each record that can be reached once
(`walkIn_exact`), and to be the `walk` that the rest of the search is modelled with.
The records above a record are looked up once and kept; the answers are the same
(`walk_exact`).

Records are told apart by the ids of their sources, which are different in every
index that `build` returns (`build_bounded`).
-/

namespace AuditSphere.Intelligence

open Theory

/-! ### The maps -/

/-- `parents` and `children`. -/
structure Directions where
  parents : List (String × List AuditRecord)
  children : List (String × List AuditRecord)

/-- `map.get(id) ?? []`. -/
def recordsAt (id : String) (direction : List (String × List AuditRecord)) : List AuditRecord :=
  (mapGet id direction).getD []

/-- `map.set(id, [...(map.get(id) ?? []), r])`. -/
def addAt (id : String) (r : AuditRecord) (direction : List (String × List AuditRecord)) :
    List (String × List AuditRecord) :=
  mapSet id (recordsAt id direction ++ [r]) direction

variable (index : AuditUniverseIndex)

/-- A link is put into the maps. -/
def follow (d : Directions) (l : Link) : Directions :=
  match byId index l.source, byId index l.target with
  | some a, some b =>
    if l.relationship = "repeatOf" then d
    else
      let children := addAt a.source.id b d.children
      { parents := addAt b.source.id a d.parents,
        children :=
          if l.relationship = "supported by" ∧ a.source.kind = .Finding ∧ b.source.kind = .Evidence then
            addAt b.source.id a children
          else children }
  | _, _ => d

/-- The maps of an index. -/
def directions : Directions := index.links.foldl (follow index) ⟨[], []⟩

/-! ### The walk -/

/-- A walk down does not enter records of these kinds. -/
def isClosedKind (kind : AuditSourceKind) : Bool := kind ∈ [.Entity, .Process, .Engagement]

/-- A record is put into the queue, unless it is found already or not entered. -/
def visit (down : Bool) (s : List (String × AuditRecord) × List AuditRecord) (next : AuditRecord) :
    List (String × AuditRecord) × List AuditRecord :=
  if (mapGet next.source.id s.1).isSome || (down && isClosedKind next.source.kind) then s
  else (mapSet next.source.id next s.1, s.2 ++ [next])

/-- The loop of `walk` from the `i`th record of the queue on, for a number of rounds. -/
def walkRounds (direction : List (String × List AuditRecord)) (down : Bool) :
    ℕ → ℕ → List (String × AuditRecord) × List AuditRecord → Option (List AuditRecord)
  | 0, _, _ => none
  | rounds + 1, i, s =>
    match s.2[i]? with
    | none => some (s.1.map Prod.snd)
    | some x => walkRounds direction down rounds (i + 1) ((recordsAt x.source.id direction).foldl (visit down) s)

/-- `walk`, for a number of rounds. -/
def walkIn (direction : List (String × List AuditRecord)) (down : Bool) (rounds : ℕ) (root : AuditRecord) :
    Option (List AuditRecord) :=
  walkRounds direction down rounds 0 ([(root.source.id, root)], [root])

/-- A step of a walk. -/
def Steps (direction : List (String × List AuditRecord)) (down : Bool) (x y : AuditRecord) : Prop :=
  y ∈ recordsAt x.source.id direction ∧ ¬(down = true ∧ isClosedKind y.source.kind = true)

/-! ### What the maps hold -/

variable {index}

theorem recordsAt_addAt (id j : String) (r : AuditRecord) (direction : List (String × List AuditRecord)) :
    recordsAt j (addAt id r direction) = recordsAt j direction ++ if j = id then [r] else [] := by
  by_cases h : j = id
  · subst h
    simp [recordsAt, addAt]
  · simp [recordsAt, addAt, mapGet_mapSet_of_ne h, h]

/-- The records at an id are those whose ids the links give. -/
theorem recordsAt_directions (id : String) :
    recordsAt id (directions index).parents = (parentIds index id).filterMap (byId index) ∧
      recordsAt id (directions index).children = (childIds index id).filterMap (byId index) := by
  suffices ∀ (links : List Link) (d : Directions),
      recordsAt id (links.foldl (follow index) d).parents = recordsAt id d.parents ++
        ((links.filter fun l => isFollowed index l && l.target = id).map (·.source)).filterMap (byId index) ∧
      recordsAt id (links.foldl (follow index) d).children = recordsAt id d.children ++
        (links.flatMap fun l =>
          if isFollowed index l then
            (if l.source = id then [l.target] else []) ++ (if isSupport index l && l.target = id then [l.source] else [])
          else []).filterMap (byId index) from this index.links ⟨[], []⟩
  intro links
  induction links with
  | nil => simp
  | cons l links ih =>
    intro d
    rw [List.foldl_cons, (ih _).1, (ih _).2]
    cases ha : byId index l.source with
    | none => simp [follow, ha, isFollowed]
    | some a =>
      cases hb : byId index l.target with
      | none => simp [follow, ha, hb, isFollowed]
      | some b =>
        obtain ⟨-, haid⟩ := byId_eq_some ha
        obtain ⟨-, hbid⟩ := byId_eq_some hb
        by_cases hrepeat : l.relationship = "repeatOf"
        · simp [follow, ha, hb, isFollowed, hrepeat]
        · have hfollowed : isFollowed index l = true := by simp [isFollowed, ha, hb, hrepeat]
          have hsupport : isSupport index l = true ↔
              l.relationship = "supported by" ∧ a.source.kind = .Finding ∧ b.source.kind = .Evidence := by
            simp [isSupport, kindAt, ha, hb, and_assoc]
          simp only [follow, ha, hb, if_neg hrepeat, List.filter_cons, List.flatMap_cons, hfollowed, Bool.true_and,
            if_true, decide_eq_true_eq, haid, hbid]
          constructor
          · rw [recordsAt_addAt]
            by_cases hid : l.target = id
            · simp [hid, ha]
            · simp [hid, Ne.symm hid]
          · have hdown : (if l.source = id then [l.target] else []).filterMap (byId index) =
                if id = l.source then [b] else [] := by
              by_cases hid : l.source = id
              · simp [hid, hb]
              · simp [hid, Ne.symm hid]
            have hup : (if l.target = id then [l.source] else []).filterMap (byId index) =
                if id = l.target then [a] else [] := by
              by_cases hid : l.target = id
              · simp [hid, ha]
              · simp [hid, Ne.symm hid]
            by_cases hs : isSupport index l = true
            · rw [if_pos (hsupport.mp hs), recordsAt_addAt, recordsAt_addAt]
              simp only [hs, Bool.true_and, decide_eq_true_eq]
              rw [List.filterMap_append, List.filterMap_append, hdown, hup]
              simp only [List.append_assoc]
            · rw [if_neg (mt hsupport.mpr hs), recordsAt_addAt]
              simp only [hs, Bool.false_and, Bool.false_eq_true, if_false, List.append_nil]
              rw [List.filterMap_append, hdown, List.append_assoc]

/-- The records in a map are those of the index. -/
def Known (index : AuditUniverseIndex) (direction : List (String × List AuditRecord)) : Prop :=
  ∀ id, ∀ y ∈ recordsAt id direction, byId index y.source.id = some y

theorem known_of_filterMap {direction : List (String × List AuditRecord)} {next : String → List String}
    (h : ∀ id, recordsAt id direction = (next id).filterMap (byId index)) : Known index direction := by
  intro id y hy
  rw [h] at hy
  obtain ⟨j, -, hj⟩ := List.mem_filterMap.mp hy
  rw [(byId_eq_some hj).2, hj]

theorem known_parents : Known index (directions index).parents :=
  known_of_filterMap fun id => (recordsAt_directions id).1

theorem known_children : Known index (directions index).children :=
  known_of_filterMap fun id => (recordsAt_directions id).2

/-! ### The queue -/

/-- The records found are those in the queue. -/
def paired (queue : List AuditRecord) : List (String × AuditRecord) × List AuditRecord :=
  (queue.map fun x => (x.source.id, x), queue)

/-- A walk enters the record. -/
def isEntered (down : Bool) (r : AuditRecord) : Bool := !(down && isClosedKind r.source.kind)

/-- The ids of the records that a walk goes on to. -/
def nextIds (direction : List (String × List AuditRecord)) (down : Bool) (id : String) : List String :=
  ((recordsAt id direction).filter (isEntered down)).map (·.source.id)

theorem ids_paired (queue : List AuditRecord) : (paired queue).1.map Prod.fst = queue.map (·.source.id) := by
  rw [paired, List.map_map]
  rfl

/-- Records are put into the queue if their ids are new. -/
theorem foldl_visit (down : Bool) (ys queue : List AuditRecord) : ∃ queue', ys.foldl (visit down) (paired queue) = paired queue' ∧
    queue'.map (·.source.id) = pushNew (queue.map (·.source.id))
      ((ys.filter (isEntered down)).map (·.source.id)) ∧
    queue <+: queue' ∧ ∀ x ∈ queue', x ∈ queue ∨ x ∈ ys := by
  induction ys generalizing queue with
  | nil => exact ⟨queue, rfl, rfl, List.prefix_rfl, fun x hx => .inl hx⟩
  | cons y ys ih =>
    have hfound : (mapGet y.source.id (paired queue).1).isSome = true ↔ y.source.id ∈ queue.map (·.source.id) := by
      rw [mapGet_isSome_iff, ids_paired]
    by_cases hclosed : (down && isClosedKind y.source.kind) = true
    · obtain ⟨queue', hrun, hids, hprefix, hmem⟩ := ih queue
      refine ⟨queue', ?_, ?_, hprefix, fun x hx => (hmem x hx).imp_right (List.mem_cons_of_mem y)⟩
      · rw [List.foldl_cons, visit, hclosed, Bool.or_true, if_pos rfl, hrun]
      · rw [hids, List.filter_cons_of_neg (by simp [isEntered, hclosed])]
    · have hopen : isEntered down y = true := by rw [isEntered, Bool.not_eq_true _ |>.mp hclosed, Bool.not_false]
      rw [List.filter_cons_of_pos hopen, List.map_cons, pushNew_cons, List.foldl_cons, visit,
        Bool.not_eq_true _ |>.mp hclosed, Bool.or_false]
      by_cases hid : y.source.id ∈ queue.map (·.source.id)
      · obtain ⟨queue', hrun, hids, hprefix, hmem⟩ := ih queue
        rw [if_pos (hfound.mpr hid), if_pos hid]
        exact ⟨queue', hrun, hids, hprefix, fun x hx => (hmem x hx).imp_right (List.mem_cons_of_mem y)⟩
      · obtain ⟨queue', hrun, hids, hprefix, hmem⟩ := ih (queue ++ [y])
        have hpaired : (mapSet y.source.id y (paired queue).1, (paired queue).2 ++ [y]) = paired (queue ++ [y]) := by
          rw [mapSet_of_not_mem (by rwa [ids_paired]), paired, paired, List.map_append]
          rfl
        rw [if_neg (mt hfound.mp hid), if_neg hid, hpaired]
        refine ⟨queue', hrun, ?_, (List.prefix_append _ _).trans hprefix, fun x hx => ?_⟩
        · rw [hids, List.map_append]
          rfl
        · rcases hmem x hx with hx | hx
          · rcases List.mem_append.mp hx with hx | hx
            · exact .inl hx
            · exact .inr (List.mem_singleton.mp hx ▸ List.mem_cons_self)
          · exact .inr (List.mem_cons_of_mem y hx)

section Walk

variable {direction : List (String × List AuditRecord)} (hknown : Known index direction) (down : Bool)

include hknown

theorem nextIds_subset (id : String) : nextIds direction down id ⊆ idsOf index := by
  intro j hj
  obtain ⟨y, hy, rfl⟩ := List.mem_map.mp hj
  exact mem_idsOf_of_byId (by rw [hknown id y (List.mem_filter.mp hy).1]; rfl)

/-- The loop comes to an end, with a record for each id that the walk over the ids finds. -/
theorem walkRounds_paired {n i : ℕ} {queue : List AuditRecord} (hnodup : (queue.map (·.source.id)).Nodup)
    (hsub : queue.map (·.source.id) ⊆ idsOf index) (hi : i ≤ queue.length) (hn : index.records.length < n + i) :
    ∃ queue', walkRounds direction down n i (paired queue) = some queue' ∧
      queue'.map (·.source.id) = walkFrom (nextIds direction down) n i (queue.map (·.source.id)) ∧
      queue <+: queue' ∧ ∀ x ∈ queue', x ∈ queue ∨ byId index x.source.id = some x := by
  induction n generalizing i queue with
  | zero =>
    have hlength := (hnodup.subperm hsub).length_le
    rw [List.length_map, idsOf, List.length_map] at hlength
    omega
  | succ n ih =>
    have hget : (queue.map (·.source.id))[i]? = (queue[i]?).map (·.source.id) := List.getElem?_map
    rw [walkRounds, walkFrom, hget]
    cases hx : (paired queue).2[i]? with
    | none =>
      rw [show queue[i]? = none from hx, Option.map_none]
      refine ⟨queue, congrArg some ?_, rfl, List.prefix_rfl, fun x hx => .inl hx⟩
      rw [paired, List.map_map]
      exact List.map_id _
    | some x =>
      rw [show queue[i]? = some x from hx, Option.map_some]
      obtain ⟨queue₁, hrun, hids, hprefix, hmem⟩ := foldl_visit down (recordsAt x.source.id direction) queue
      have hlt : i < queue.length := (List.getElem?_eq_some_iff.mp hx).1
      have hids' : queue₁.map (·.source.id) =
          pushNew (queue.map (·.source.id)) (nextIds direction down x.source.id) := hids
      obtain ⟨queue', hrun', hids₂, hprefix', hmem'⟩ := @ih (i + 1) queue₁ (by rw [hids']; exact pushNew_nodup hnodup)
        (by
          rw [hids']
          intro y hy
          exact (mem_pushNew_iff.mp hy).elim (fun hy => hsub hy) fun hy => nextIds_subset hknown down _ hy)
        (Nat.lt_of_lt_of_le hlt hprefix.length_le) (by omega)
      dsimp only
      rw [hrun, ← hids']
      refine ⟨queue', hrun', hids₂, hprefix.trans hprefix', fun y hy => ?_⟩
      rcases hmem' y hy with hy | hy
      · exact (hmem y hy).imp_right fun hy => hknown _ y hy
      · exact .inr hy

/-! ### What a walk finds -/

variable (hids : (idsOf index).Nodup) {root : AuditRecord} (hroot : root ∈ index.records)

include hids hroot

/-- A walk ends, with a record for each id. -/
theorem walkIn_ids : ∃ found, (∀ rounds, index.records.length < rounds → walkIn direction down rounds root = some found) ∧
    found.map (·.source.id) = walkFrom (nextIds direction down) index.records.length 0 [root.source.id] ∧
    found.head? = some root ∧ ∀ x ∈ found, byId index x.source.id = some x := by
  have hnodes : ∀ id ∈ idsOf index, nextIds direction down id ⊆ idsOf index := fun id _ => nextIds_subset hknown down id
  have hstart : [root].map (·.source.id) ⊆ idsOf index := by simpa [idsOf] using ⟨root, hroot, rfl⟩
  have hlength : (idsOf index).length = index.records.length := List.length_map _
  have hrun (rounds : ℕ) (h : index.records.length < rounds) := @walkRounds_paired index direction hknown down rounds 0
    [root] (List.nodup_singleton _) hstart (Nat.zero_le _) h
  obtain ⟨found, hfound, hfoundIds, ⟨rest, rfl⟩, hmem⟩ := hrun (index.records.length + 1) (Nat.lt_succ_self _)
  have hall : ∀ x ∈ [root] ++ rest, byId index x.source.id = some x := by
    intro x hx
    rcases hmem x hx with hx | hx
    · rw [List.mem_singleton.mp hx, byId_of_mem hids hroot]
    · exact hx
  refine ⟨[root] ++ rest, fun rounds h => ?_, ?_, rfl, hall⟩
  · -- with other rounds the walk finds the same ids, and so the same records
    obtain ⟨found', hfound', hfoundIds', -, hmem'⟩ := hrun rounds h
    have hsame : found'.map (·.source.id) = ([root] ++ rest).map (·.source.id) := by
      rw [hfoundIds, hfoundIds']
      exact walkFrom_eq hnodes (List.nodup_singleton _) hstart (by omega) (by omega)
    have hrecords : ∀ l : List AuditRecord, (∀ x ∈ l, byId index x.source.id = some x) →
        (l.map (·.source.id)).filterMap (byId index) = l := by
      intro l hl
      rw [List.filterMap_map]
      exact (List.filterMap_congr hl).trans (List.filterMap_some)
    have hall' : ∀ x ∈ found', byId index x.source.id = some x := by
      intro x hx
      rcases hmem' x hx with hx | hx
      · rw [List.mem_singleton.mp hx, byId_of_mem hids hroot]
      · exact hx
    rw [← hrecords _ hall, ← hsame, hrecords _ hall']
    exact hfound'
  · rw [hfoundIds]
    exact walkFrom_eq hnodes (List.nodup_singleton _) hstart (by omega) (by omega)

/-- Between records of the index, the steps are those between their ids. -/
theorem reaches_iff {x : AuditRecord} (hx : byId index x.source.id = some x) :
    Relation.ReflTransGen (Neighbour (nextIds direction down)) root.source.id x.source.id ↔
      Relation.ReflTransGen (Steps direction down) root x := by
  have hentered (y : AuditRecord) : isEntered down y = true ↔ ¬(down = true ∧ isClosedKind y.source.kind = true) := by
    rw [isEntered, Bool.not_eq_true', ← Bool.not_eq_true, Bool.and_eq_true]
  constructor
  · intro h
    obtain ⟨y, hy, hid, hyid⟩ : ∃ y, Relation.ReflTransGen (Steps direction down) root y ∧ y.source.id = x.source.id ∧
        byId index y.source.id = some y := by
      generalize x.source.id = id at h
      induction h with
      | refl => exact ⟨root, .refl, rfl, byId_of_mem hids hroot⟩
      | tail _ hstep ih =>
        obtain ⟨y, hy, rfl, -⟩ := ih
        obtain ⟨z, hz, rfl⟩ := List.mem_map.mp hstep
        obtain ⟨hz, henters⟩ := List.mem_filter.mp hz
        exact ⟨z, hy.tail ⟨hz, (hentered z).mp henters⟩, rfl, hknown _ z hz⟩
    rw [hid, hx, Option.some.injEq] at hyid
    exact hyid ▸ hy
  · intro h
    clear hx
    induction h with
    | refl => exact .refl
    | tail _ hstep ih =>
      exact ih.tail (List.mem_map_of_mem (List.mem_filter.mpr ⟨hstep.1, (hentered _).mpr hstep.2⟩))

/-- **A walk is exact**: it ends, and finds the root and every record that can be reached from it, each once. -/
theorem walkIn_exact : ∃ found, (∀ rounds, index.records.length < rounds → walkIn direction down rounds root = some found) ∧
    found.head? = some root ∧ (found.map (·.source.id)).Nodup ∧
    ∀ x, x ∈ found ↔ Relation.ReflTransGen (Steps direction down) root x := by
  obtain ⟨found, hrun, hfoundIds, hhead, hall⟩ := walkIn_ids hknown down hids hroot
  have hreach (id : String) : id ∈ found.map (·.source.id) ↔
      Relation.ReflTransGen (Neighbour (nextIds direction down)) root.source.id id := by
    rw [hfoundIds]
    exact mem_walkFrom_iff (show ∀ id ∈ idsOf index, _ ⊆ idsOf index from fun id _ => nextIds_subset hknown down id)
      (List.mem_map_of_mem hroot) (by simp [idsOf])
  refine ⟨found, hrun, hhead, by rw [hfoundIds]; exact walkFrom_nodup (List.nodup_singleton _), fun x => ⟨fun hx => ?_, fun h => ?_⟩⟩
  · exact (reaches_iff hknown down hids hroot (hall x hx)).mp ((hreach _).mp (List.mem_map_of_mem hx))
  · -- what is reached is in the index
    have hx : byId index x.source.id = some x := by
      cases h with
      | refl => exact byId_of_mem hids hroot
      | tail _ hstep => exact hknown _ x hstep.1
    obtain ⟨y, hy, hid⟩ := List.mem_map.mp ((hreach _).mpr ((reaches_iff hknown down hids hroot hx).mpr h))
    have hyid := hall y hy
    rw [hid, hx, Option.some.injEq] at hyid
    exact hyid ▸ hy

/-- The walk over the ids that the search is modelled with finds the same. -/
theorem walkIn_eq {next : String → List String} (hnext : ∀ id, nextIds direction down id = next id) {rounds : ℕ}
    (h : index.records.length < rounds) : walkIn direction down rounds root = some (walk index next root) := by
  obtain ⟨found, hrun, hfoundIds, -, hall⟩ := walkIn_ids hknown down hids hroot
  rw [hrun rounds h, walk, ← funext hnext, ← hfoundIds, List.filterMap_map]
  refine congrArg some ((List.filterMap_some).symm.trans (List.filterMap_congr fun x hx => ?_))
  dsimp only [Function.comp]
  split
  · rename_i hid
    rw [← hall x hx, hid, byId_of_mem hids hroot]
  · exact (hall x hx).symm

end Walk

/-! ### Above and below -/

/-- The records of a walk's next ids, and those of them that it enters, by their ids. -/
theorem entered_eq (hids : (idsOf index).Nodup) (down : Bool) {ids : List String} (h : ids ⊆ idsOf index) :
    ((ids.filterMap (byId index)).filter (isEntered down)).map (·.source.id) =
      ids.filter fun id => !(down && isBarrier index id) := by
  induction ids with
  | nil => rfl
  | cons id ids ih =>
    obtain ⟨hid, hrest⟩ := List.cons_subset.mp h
    obtain ⟨x, hx, rfl⟩ := List.mem_map.mp hid
    have hbyId := byId_of_mem hids hx
    have hbarrier : isBarrier index x.source.id = isClosedKind x.source.kind := by
      rw [isBarrier, kindAt, hbyId, Option.map_some]
      cases x.source.kind <;> rfl
    rw [List.filterMap_cons_some hbyId, List.filter_cons, List.filter_cons, hbarrier, ← isEntered]
    split
    · rw [List.map_cons, ih hrest]
    · exact ih hrest

section Ancestors

variable (hids : (idsOf index).Nodup) {r : AuditRecord} (hr : r ∈ index.records) {rounds : ℕ}
  (h : index.records.length < rounds)

include hids hr h

theorem walkIn_parents : walkIn (directions index).parents false rounds r = some (ancestors index r) := by
  refine walkIn_eq known_parents false hids hr (fun id => ?_) h
  rw [nextIds, (recordsAt_directions id).1, entered_eq hids false (parentIds_subset id)]
  exact List.filter_eq_self.mpr fun _ _ => rfl

theorem walkIn_children : walkIn (directions index).children true rounds r = some (descendants index r) := by
  refine walkIn_eq known_children true hids hr (fun id => ?_) h
  rw [nextIds, (recordsAt_directions id).2, entered_eq hids true (childIds_subset id)]
  rfl

end Ancestors

/-! ### Records above a record are looked up once -/

/-- `ancestors`, with `ancestorCache`. -/
def cachedAncestors (index : AuditUniverseIndex) (rounds : ℕ) (cache : List (String × List AuditRecord)) (r : AuditRecord) :
    Option (List AuditRecord × List (String × List AuditRecord)) :=
  match mapGet r.source.id cache with
  | some found => some (found, cache)
  | none => (walkIn (directions index).parents false rounds r).map fun found => (found, mapSet r.source.id found cache)

/-- The records above one record after the other. -/
def askAll (index : AuditUniverseIndex) (rounds : ℕ) :
    List (String × List AuditRecord) → List AuditRecord → Option (List (List AuditRecord))
  | _, [] => some []
  | cache, r :: asked => do
    let (found, cache) ← cachedAncestors index rounds cache r
    let rest ← askAll index rounds cache asked
    pure (found :: rest)

/-- What is kept are the records above a record. -/
def Cached (index : AuditUniverseIndex) (cache : List (String × List AuditRecord)) : Prop :=
  ∀ r ∈ index.records, ∀ found, mapGet r.source.id cache = some found → found = ancestors index r

theorem askAll_eq {index : AuditUniverseIndex} (hids : (idsOf index).Nodup) {rounds : ℕ} (h : index.records.length < rounds)
    {asked : List AuditRecord} (hasked : ∀ r ∈ asked, r ∈ index.records) {cache : List (String × List AuditRecord)}
    (hcache : Cached index cache) : askAll index rounds cache asked = some (asked.map (ancestors index)) := by
  induction asked generalizing cache with
  | nil => rfl
  | cons r asked ih =>
    have hr := hasked r List.mem_cons_self
    obtain ⟨cache', hstep, hcache'⟩ : ∃ cache', cachedAncestors index rounds cache r = some (ancestors index r, cache') ∧
        Cached index cache' := by
      unfold cachedAncestors
      cases hget : mapGet r.source.id cache with
      | some found => exact ⟨cache, by rw [hcache r hr found hget], hcache⟩
      | none =>
        refine ⟨mapSet r.source.id (ancestors index r) cache, by rw [walkIn_parents hids hr h, Option.map_some], ?_⟩
        intro x hx found hfound
        by_cases hid : x.source.id = r.source.id
        · rw [hid, mapGet_mapSet_self, Option.some.injEq] at hfound
          rw [← hfound, List.inj_on_of_nodup_map hids hx hr hid]
        · rw [mapGet_mapSet_of_ne hid] at hfound
          exact hcache x hx found hfound
    have hrest := ih (fun x hx => hasked x (List.mem_cons_of_mem r hx)) hcache'
    rw [askAll, hstep, Option.bind_eq_bind, Option.bind_some]
    dsimp only
    rw [hrest]
    rfl

/-- **The relationship walk is exact**: along each of the maps, entering all records or only those a walk down enters, it
ends and finds the root and every record that can be reached, each once; and the records above a record are the same when
they are looked up once and kept. -/
theorem walk_exact {index : AuditUniverseIndex} (hids : (idsOf index).Nodup) {rounds : ℕ}
    (hrounds : index.records.length < rounds) :
    (∀ direction ∈ [(directions index).parents, (directions index).children], ∀ down, ∀ root ∈ index.records,
      ∃ found, walkIn direction down rounds root = some found ∧ found.head? = some root ∧
        (found.map (·.source.id)).Nodup ∧ ∀ x, x ∈ found ↔ Relation.ReflTransGen (Steps direction down) root x) ∧
    ∀ asked : List AuditRecord, (∀ r ∈ asked, r ∈ index.records) →
      askAll index rounds [] asked = asked.mapM (walkIn (directions index).parents false rounds) := by
  refine ⟨fun direction hdirection down root hroot => ?_, fun asked hasked => ?_⟩
  · have hknown : Known index direction := by
      rcases List.mem_cons.mp hdirection with rfl | hdirection
      · exact known_parents
      · exact List.mem_singleton.mp hdirection ▸ known_children
    obtain ⟨found, hrun, hfound⟩ := walkIn_exact hknown down hids hroot
    exact ⟨found, hrun rounds hrounds, hfound⟩
  · rw [askAll_eq hids hrounds hasked fun _ _ _ h => by cases h]
    induction asked with
    | nil => rfl
    | cons r asked ih =>
      rw [List.mapM_cons, walkIn_parents hids (hasked r List.mem_cons_self) hrounds,
        ← ih fun x hx => hasked x (List.mem_cons_of_mem r hx)]
      rfl

/-- A finding and the evidence that supports it: each is below the other. -/
def supported : AuditUniverseIndex :=
  indexOf [
    sourceOf "S1" .Finding "late" [],
    sourceOf "S2" .Evidence "invoice" [("findings", .arr [.obj [("id", .str "late")]])]]

/-- The walks of the two. -/
theorem supported_walk : ∃ found, walkIn (directions supported).children true 3 (sourceOf "S1" .Finding "late" []) = some found ∧
    found.head? = some (sourceOf "S1" .Finding "late" []) ∧ (found.map (·.source.id)).Nodup ∧
    ∀ x, x ∈ found ↔
      Relation.ReflTransGen (Steps (directions supported).children true) (sourceOf "S1" .Finding "late" []) x :=
  (walk_exact (by decide) (by decide)).1 _ (List.mem_cons_of_mem _ List.mem_cons_self) true _ List.mem_cons_self

end AuditSphere.Intelligence
