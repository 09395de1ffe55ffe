import AuditSphere.Common.Maps
import AuditSphere.Common.Pagination
import AuditSphere.Theory.Trees
import AuditSphere.Universe.Forest

/-!
# The tree of entities

`buildEntityTree` puts a list of entities under their parents. The nodes are linked
first, in the order of the list (`link`): a node goes to the children of its parent
if that is in the list, and to the roots if not. Then the nodes of every level are
put in the order of their names, as `localeCompare` orders texts, of which no more
is used than that it is a total preorder.

Every entity of the list occurs once if none is its own ancestor, and the order of
the list decides only the order of siblings with equal names.
-/

namespace AuditSphere.Universe

open Prisma Theory Tree

/-- `EntityNode`. -/
abbrev EntityNode := Theory.Tree (WithId AuditEntity)

/-- The nodes' children and the roots, in the order in which they were pushed. -/
structure Links where
  children : Uuid → List (WithId AuditEntity)
  roots : List (WithId AuditEntity)

/-- The parent of a node, if it is in the list. -/
def parentRef (byId : List (WithId AuditEntity)) (node : WithId AuditEntity) : Option Uuid :=
  node.2.parentId.filter fun p => (mapGet p byId).isSome

/-- A node is pushed to the children of its parent or to the roots. -/
def link (byId : List (WithId AuditEntity)) (links : Links) (node : WithId AuditEntity) : Links :=
  match parentRef byId node with
  | some p => { links with children := Function.update links.children p (links.children p ++ [node]) }
  | none => { links with roots := links.roots ++ [node] }

section Tree

variable [Collation]

/-- `a.name.localeCompare(b.name)` is not positive. -/
def nameLe (a b : WithId AuditEntity) : Bool := Collation.le a.2.name b.2.name

/-- `buildEntityTree`. The nodes that hang from the roots are no deeper than there are nodes. -/
def buildEntityTree (rows : List (WithId AuditEntity)) : Option (List EntityNode) :=
  let byId := mapOf rows
  let links := byId.foldl (link byId) ⟨fun _ => [], []⟩
  grow Prod.fst (fun id => (links.children id).mergeSort nameLe) (byId.length + 1) (links.roots.mergeSort nameLe)

/-! ### What the tree is -/

/-- The parent of an entity of a list, if it is in the list. -/
def parentIn (rows : List (WithId AuditEntity)) (id : Uuid) : Option Uuid :=
  (mapGet id rows).bind fun e => parentRef rows (id, e)

omit [Collation] in
theorem parentIn_of_mem {rows : List (WithId AuditEntity)} (hids : (rows.map Prod.fst).Nodup) {row : WithId AuditEntity}
    (h : row ∈ rows) : parentIn rows row.1 = parentRef rows row := by
  rw [parentIn, (mapGet_eq_some_iff hids).mpr h, Option.bind_some]

/-- The tree of a list of entities. -/
structure IsTreeOf (rows : List (WithId AuditEntity)) (ts : List EntityNode) : Prop where
  /-- Every entity occurs exactly once, under its parent if that is in the list and as a root otherwise. -/
  once : (occurrences Prod.fst none ts).Perm (rows.map fun row => (parentIn rows row.1, row))
  /-- Siblings are in the order of their names. -/
  ordered : EveryLevel (List.Pairwise fun a b => nameLe a b = true) ts

/-- The names are equal for the order. -/
def SameName (a b : WithId AuditEntity) : Prop := nameLe a b = true ∧ nameLe b a = true

/-! ### What the links are -/

omit [Collation] in
theorem foldl_link (byId nodes : List (WithId AuditEntity)) (links : Links) : nodes.foldl (link byId) links =
    ⟨fun id => links.children id ++ nodes.filter fun node => parentRef byId node = some id,
      links.roots ++ nodes.filter fun node => parentRef byId node = none⟩ := by
  induction nodes generalizing links with
  | nil => simp
  | cons node nodes ih =>
    rw [List.foldl_cons, ih, link]
    cases hparent : parentRef byId node with
    | none => simp [hparent]
    | some p =>
      have hchildren : (fun id => Function.update links.children p (links.children p ++ [node]) id ++
          nodes.filter fun node => parentRef byId node = some id) =
          fun id => links.children id ++ (node :: nodes).filter fun node => parentRef byId node = some id := by
        funext id
        by_cases hid : id = p
        · subst hid
          simp [hparent]
        · simp [hparent, hid, Ne.symm hid]
      rw [hchildren]
      simp [hparent]

section Rows

variable {rows : List (WithId AuditEntity)}

/-- The children of an entity in the list, in the order of their names. -/
def childrenIn (rows : List (WithId AuditEntity)) (id : Uuid) : List (WithId AuditEntity) :=
  (rows.filter fun row => parentRef rows row = some id).mergeSort nameLe

/-- The entities whose parent is not in the list, in the order of their names. -/
def rootsIn (rows : List (WithId AuditEntity)) : List (WithId AuditEntity) :=
  (rows.filter fun row => parentRef rows row = none).mergeSort nameLe

theorem buildEntityTree_eq (hids : (rows.map Prod.fst).Nodup) :
    buildEntityTree rows = grow Prod.fst (childrenIn rows) (rows.length + 1) (rootsIn rows) := by
  unfold buildEntityTree
  rw [mapOf_of_nodup hids]
  simp only [foldl_link, List.nil_append]
  rfl

theorem nameLe_trans (a b c : WithId AuditEntity) (h : nameLe a b = true) (h' : nameLe b c = true) : nameLe a c = true :=
  Collation.le_trans a.2.name b.2.name c.2.name h h'

theorem nameLe_total (a b : WithId AuditEntity) : (nameLe a b || nameLe b a) = true :=
  Collation.le_total a.2.name b.2.name

theorem arranges_nameLe (l : List (WithId AuditEntity)) : Arranges nameLe l (l.mergeSort nameLe) :=
  arranges_mergeSort nameLe_trans nameLe_total l

theorem hangs (hids : (rows.map Prod.fst).Nodup) :
    Hangs Prod.fst rows (parentIn rows) (rootsIn rows) (childrenIn rows) where
  mem_roots a := by
    rw [rootsIn, List.mem_mergeSort, List.mem_filter, decide_eq_true_eq]
    exact and_congr_right fun ha => by rw [parentIn_of_mem hids ha]
  nodup_roots := (arranges_nameLe _).perm.nodup_iff.mpr (hids.of_map.filter _)
  mem_children k a := by
    rw [childrenIn, List.mem_mergeSort, List.mem_filter, decide_eq_true_eq]
    exact and_congr_right fun ha => by rw [parentIn_of_mem hids ha]
  nodup_children k := (arranges_nameLe _).perm.nodup_iff.mpr (hids.of_map.filter _)
  keys := hids
  known j k h := by
    obtain ⟨e, he, hk⟩ := Option.bind_eq_some_iff.mp h
    obtain ⟨-, hk⟩ := Option.filter_eq_some_iff.mp hk
    exact ⟨mapGet_isSome_iff.mp (by rw [he]; rfl), mapGet_isSome_iff.mp hk⟩

omit [Collation] in
/-- Whether the parent is in the list does not depend on its order. -/
theorem parentRef_perm {rows' : List (WithId AuditEntity)} (h : rows'.Perm rows) : parentRef rows' = parentRef rows := by
  funext node
  refine congrArg (node.2.parentId.filter ·) (funext fun p => ?_)
  rw [Bool.eq_iff_iff, mapGet_isSome_iff, mapGet_isSome_iff]
  exact (h.map Prod.fst).mem_iff

omit [Collation] in
theorem parentIn_perm {rows' : List (WithId AuditEntity)} (hids : (rows.map Prod.fst).Nodup) (h : rows'.Perm rows) :
    parentIn rows' = parentIn rows := by
  funext id
  have hget : mapGet id rows' = mapGet id rows := by
    refine Option.ext fun e => ?_
    rw [mapGet_eq_some_iff hids, mapGet_eq_some_iff ((h.map Prod.fst).nodup_iff.mpr hids), h.mem_iff]
  rw [parentIn, parentIn, hget, parentRef_perm h]

/-- Another order of the list makes another order of equal names only. -/
theorem sorted_perm {l l' : List (WithId AuditEntity)} (h : l'.Perm l) :
    (l'.mergeSort nameLe).Perm (l.mergeSort nameLe) ∧
      List.Forall₂ SameName (l.mergeSort nameLe) (l'.mergeSort nameLe) := by
  have hl' : Arranges nameLe l (l'.mergeSort nameLe) :=
    ⟨(arranges_nameLe l').perm.trans h, (arranges_nameLe l').sorted⟩
  exact ⟨hl'.perm.trans (arranges_nameLe l).perm.symm, (arranges_nameLe l).ties nameLe_trans nameLe_total hl'⟩

/-- The tree of a list without cycles. -/
theorem exists_tree (hids : (rows.map Prod.fst).Nodup) (hforest : Forest (parentIn rows)) :
    ∃ ts, buildEntityTree rows = some ts ∧ Grown Prod.fst (childrenIn rows) (rootsIn rows) ts := by
  obtain ⟨ts, hts⟩ := (hangs hids).exists_grow hforest
  exact ⟨ts, (buildEntityTree_eq hids).trans hts, grown_of_grow hts⟩

end Rows

/-- **The entity tree shows every entity once**: under its parent or as a root, with siblings in the order of their
names, and whatever the order of the list, up to the order of equal names. -/
theorem buildEntityTree_spec {rows : List (WithId AuditEntity)} (hids : (rows.map Prod.fst).Nodup)
    (hacyclic : Acyclic (parentIn rows)) :
    ∃ ts, buildEntityTree rows = some ts ∧ IsTreeOf rows ts ∧
      ∀ rows', rows'.Perm rows → ∃ ts', buildEntityTree rows' = some ts' ∧ Alike SameName ts ts' := by
  have hforest : Forest (parentIn rows) := hacyclic.forest fun id hid => by
    obtain ⟨p, hp⟩ := Option.isSome_iff_exists.mp hid
    exact ((hangs hids).known id p hp).1
  obtain ⟨ts, hts, hgrown⟩ := exists_tree hids hforest
  refine ⟨ts, hts, ⟨(hangs hids).occurrences_perm hforest hgrown, ?_⟩, fun rows' hperm => ?_⟩
  · exact hgrown.everyLevel (arranges_nameLe _).sorted fun id => (arranges_nameLe _).sorted
  · obtain ⟨ts', hts', hgrown'⟩ := exists_tree ((hperm.map Prod.fst).nodup_iff.mpr hids)
      ((parentIn_perm hids hperm).symm ▸ hforest)
    have hsorted (p : WithId AuditEntity → Bool) : ((rows'.filter p).mergeSort nameLe).Perm ((rows.filter p).mergeSort nameLe) ∧
        List.Forall₂ SameName ((rows.filter p).mergeSort nameLe) ((rows'.filter p).mergeSort nameLe) :=
      sorted_perm (hperm.filter p)
    have hchildren (id : Uuid) : childrenIn rows' id =
        (rows'.filter fun row => parentRef rows row = some id).mergeSort nameLe := by
      rw [childrenIn, parentRef_perm hperm]
    have hroots : rootsIn rows' = (rows'.filter fun row => parentRef rows row = none).mergeSort nameLe := by
      rw [rootsIn, parentRef_perm hperm]
    refine ⟨ts', hts', hgrown.alike hgrown' ?_ ?_ (fun id => ?_) fun id => ?_⟩
    · rw [hroots]
      exact (hsorted _).1
    · rw [hroots]
      exact (hsorted _).2
    · rw [hchildren]
      exact (hsorted _).1
    · rw [hchildren]
      exact (hsorted _).2

end Tree

/-- Department 3 is listed before its parent, department 2, and department 9 is not in the list. -/
def listed : List (WithId AuditEntity) := [department 3 (some 2), department 2 none, department 1 (some 9)]

/-- The departments make a tree. -/
theorem listed_tree : ∃ ts, @buildEntityTree characterwise listed = some ts ∧ @IsTreeOf characterwise listed ts ∧
    ∀ rows', rows'.Perm listed → ∃ ts', @buildEntityTree characterwise rows' = some ts' ∧
      Alike (@SameName characterwise) ts ts' := by
  have hdown : ∀ id p, parentIn listed id = some p → p < id := by
    intro id p h
    obtain ⟨e, he, hp⟩ := Option.bind_eq_some_iff.mp h
    have hrows : ∀ row ∈ listed, ∀ p ∈ parentRef listed row, p < row.1 := by decide
    exact hrows (id, e) (mem_of_mapGet he) p hp
  exact @buildEntityTree_spec characterwise listed (by decide) fun id k =>
    (forest_of_rank (fun id => id) hdown id).climb_ne_self k

end AuditSphere.Universe
