import AuditSphere.Theory.Forest
import AuditSphere.Theory.Ties
import Mathlib.Data.List.Nodup
import Mathlib.Data.List.Forall2

/-!
# Trees from parents

Items with keys, each under at most one other, are grown into trees from the roots
down: below an item stand its children, as a list gives them for its key
(`Grown`). If the way up from everything ends, and the lists are those of the
items below each key, then every item occurs exactly once, with its parent above
it (`Grown.occurrences_perm`). What holds of all the lists holds of the siblings
at every level (`Grown.everyLevel`), and lists in another order make trees that
are alike (`Grown.alike`).
-/

namespace AuditSphere.Theory

/-- An item with what stands below it. -/
inductive Tree (α : Type) where
  | node (item : α) (children : List (Tree α))

namespace Tree

variable {α κ : Type}

/-- The item at the top. -/
def item : Tree α → α
  | .node a _ => a

/-- What stands below it. -/
def children : Tree α → List (Tree α)
  | .node _ ts => ts

/-- The items of trees from the top, each with the key of the item above it. -/
def occurrences (key : α → κ) (above : Option κ) : List (Tree α) → List (Option κ × α)
  | [] => []
  | .node a us :: ts => (above, a) :: (occurrences key (some (key a)) us ++ occurrences key above ts)

theorem occurrences_eq (key : α → κ) (above : Option κ) (ts : List (Tree α)) : occurrences key above ts =
    ts.flatMap fun t => (above, t.item) :: occurrences key (some (key t.item)) t.children := by
  induction ts with
  | nil => rw [occurrences, List.flatMap_nil]
  | cons t ts ih =>
    obtain ⟨a, us⟩ := t
    rw [occurrences, ih, List.flatMap_cons]
    rfl

/-- What holds of the siblings at every level. -/
inductive EveryLevel (P : List α → Prop) : List (Tree α) → Prop where
  | mk {ts : List (Tree α)} (here : P (ts.map item)) (below : ∀ t ∈ ts, EveryLevel P t.children) : EveryLevel P ts

/-- Trees that are the same up to the order of siblings that tie. -/
inductive Alike (tie : α → α → Prop) : List (Tree α) → List (Tree α) → Prop where
  | mk {ts us : List (Tree α)} (items : (us.map item).Perm (ts.map item))
      (ties : List.Forall₂ tie (ts.map item) (us.map item))
      (below : ∀ t ∈ ts, ∀ u ∈ us, t.item = u.item → Alike tie t.children u.children) : Alike tie ts us

end Tree

open Tree

variable {α κ : Type}

/-- The trees of items down to a depth, below each item its children; there are none if some lie deeper. -/
def grow (key : α → κ) (children : κ → List α) : ℕ → List α → Option (List (Tree α))
  | 0, [] => some []
  | 0, _ :: _ => none
  | n + 1, as => as.mapM fun a => (grow key children n (children (key a))).map (Tree.node a)

/-- The trees of items, below each item its children. -/
inductive Grown (key : α → κ) (children : κ → List α) : List α → List (Tree α) → Prop where
  | mk {ts : List (Tree α)} (below : ∀ t ∈ ts, Grown key children (children (key t.item)) t.children) :
    Grown key children (ts.map item) ts

variable {key : α → κ} {children : κ → List α} {as : List α} {ts : List (Tree α)}

theorem grown_of_grow {n : ℕ} (h : grow key children n as = some ts) : Grown key children as ts := by
  induction n generalizing as ts with
  | zero =>
    cases as with
    | nil =>
      cases h
      have hbelow : ∀ t ∈ ([] : List (Tree α)), Grown key children (children (key t.item)) t.children := nofun
      exact .mk hbelow
    | cons a as => cases h
  | succ n ih =>
    -- each tree is grown of its item
    have hitems : ts.map item = as ∧ ∀ t ∈ ts, Grown key children (children (key t.item)) t.children := by
      rw [grow] at h
      induction as generalizing ts with
      | nil =>
        cases h
        exact ⟨rfl, nofun⟩
      | cons a as ih' =>
        rw [List.mapM_cons] at h
        obtain ⟨t, ht, h⟩ := Option.bind_eq_some_iff.mp h
        obtain ⟨ts', hts, h⟩ := Option.bind_eq_some_iff.mp h
        cases h
        obtain ⟨us, hus, rfl⟩ := Option.map_eq_some_iff.mp ht
        obtain ⟨hmap, hbelow⟩ := ih' hts
        refine ⟨congrArg (a :: ·) hmap, fun t ht => ?_⟩
        rcases List.mem_cons.mp ht with rfl | ht
        · exact ih hus
        · exact hbelow t ht
    exact hitems.1 ▸ .mk hitems.2

/-! ### Every level -/

theorem Grown.everyLevel {P : List α → Prop} (h : Grown key children as ts) (has : P as)
    (hchildren : ∀ k, P (children k)) : EveryLevel P ts := by
  induction h with
  | mk below ih => exact .mk has fun t ht => ih t ht (hchildren _)

theorem Grown.alike {tie : α → α → Prop} {children' : κ → List α} {as' : List α} {ts' : List (Tree α)}
    (h : Grown key children as ts) (h' : Grown key children' as' ts') (has : as'.Perm as) (htie : List.Forall₂ tie as as')
    (hchildren : ∀ k, (children' k).Perm (children k)) (hties : ∀ k, List.Forall₂ tie (children k) (children' k)) :
    Alike tie ts ts' := by
  induction h generalizing as' ts' with
  | mk below ih =>
    cases h' with
    | mk below' =>
      refine .mk has htie fun t ht u hu heq => ih t ht (below' u hu) ?_ ?_
      · rw [← heq]
        exact hchildren _
      · rw [← heq]
        exact hties _

/-! ### Items and their parents -/

/-- The roots are the items without a parent, and the children under a key are those whose parent it is. -/
structure Hangs (key : α → κ) (items : List α) (parent : κ → Option κ) (roots : List α) (children : κ → List α) :
    Prop where
  /-- The roots, each once. -/
  mem_roots : ∀ a, a ∈ roots ↔ a ∈ items ∧ parent (key a) = none
  nodup_roots : roots.Nodup
  /-- The children, each once. -/
  mem_children : ∀ k a, a ∈ children k ↔ a ∈ items ∧ parent (key a) = some k
  nodup_children : ∀ k, (children k).Nodup
  /-- Items have different keys. -/
  keys : (items.map key).Nodup
  /-- What has a parent is an item, and so is the parent. -/
  known : ∀ j k, parent j = some k → j ∈ items.map key ∧ k ∈ items.map key

namespace Hangs

variable {items roots : List α} {parent : κ → Option κ}

section

variable (h : Hangs key items parent roots children)

include h

theorem eq_of_key {a b : α} (ha : a ∈ items) (hb : b ∈ items) (heq : key a = key b) : a = b :=
  List.inj_on_of_nodup_map h.keys ha hb heq

theorem grow_of_climb (hforest : Forest parent) {n d : ℕ} (hn : items.length < n + d)
    (has : ∀ a ∈ as, ∃ r, climb parent d (key a) = some r) : ∃ ts, grow key children n as = some ts := by
  induction n generalizing d as with
  | zero =>
    cases as with
    | nil => exact ⟨[], rfl⟩
    | cons a as =>
      obtain ⟨r, hr⟩ := has a (List.mem_cons_self ..)
      have hle := (hforest (key a)).climb_le (l := items.map key)
        (fun j hj => (h.known j _ (Option.some_get hj).symm).1) hr
      rw [List.length_map] at hle
      omega
  | succ n ih =>
    have hbelow : ∀ a ∈ as, ∃ t, (grow key children n (children (key a))).map (Tree.node a) = some t := by
      intro a ha
      obtain ⟨r, hr⟩ := has a ha
      obtain ⟨us, hus⟩ := @ih (children (key a)) (d + 1) (by omega) fun c hc =>
        ⟨r, (climb_succ_of ((h.mem_children _ c).mp hc).2 d).trans hr⟩
      exact ⟨.node a us, by rw [hus, Option.map_some]⟩
    rw [grow]
    clear has
    induction as with
    | nil => exact ⟨[], rfl⟩
    | cons a as ih' =>
      obtain ⟨t, ht⟩ := hbelow a (List.mem_cons_self ..)
      obtain ⟨ts, hts⟩ := ih' fun b hb => hbelow b (List.mem_cons_of_mem _ hb)
      refine ⟨t :: ts, ?_⟩
      rw [List.mapM_cons, ht, hts]
      rfl

/-- The trees are there if the way up from everything ends. -/
theorem exists_grow (hforest : Forest parent) : ∃ ts, grow key children (items.length + 1) roots = some ts :=
  h.grow_of_climb hforest (d := 0) (Nat.lt_succ_self _) fun a _ => ⟨key a, rfl⟩

/-- What occurs below items is what hangs under a key that is below one of them. -/
theorem mem_occurrences (hgrown : Grown key children as ts) (has : ∀ a ∈ as, a ∈ items) (p q : Option κ) (x : α) :
    (q, x) ∈ occurrences key p ts ↔
      (q = p ∧ x ∈ as) ∨ ∃ a ∈ as, ∃ i k, climb parent i k = some (key a) ∧ x ∈ children k ∧ q = some k := by
  induction hgrown generalizing p with
  | @mk ts below ih =>
    rw [occurrences_eq, List.mem_flatMap]
    constructor
    · rintro ⟨t, ht, hmem⟩
      rcases List.mem_cons.mp hmem with heq | hmem
      · cases heq
        exact .inl ⟨rfl, List.mem_map_of_mem ht⟩
      · right
        refine ⟨t.item, List.mem_map_of_mem ht, ?_⟩
        rcases (ih t ht (fun c hc => ((h.mem_children _ c).mp hc).1) _).mp hmem with ⟨rfl, hx⟩ | ⟨c, hc, i, k, hk, hx, rfl⟩
        · exact ⟨0, key t.item, rfl, hx, rfl⟩
        · refine ⟨i + 1, k, ?_, hx, rfl⟩
          rw [climb_succ, hk, Option.bind_some, ((h.mem_children _ c).mp hc).2]
    · rintro (⟨rfl, hx⟩ | ⟨a, ha, i, k, hk, hx, rfl⟩)
      · obtain ⟨t, ht, rfl⟩ := List.mem_map.mp hx
        exact ⟨t, ht, List.mem_cons_self ..⟩
      · obtain ⟨t, ht, rfl⟩ := List.mem_map.mp ha
        refine ⟨t, ht, List.mem_cons_of_mem _ ((ih t ht (fun c hc => ((h.mem_children _ c).mp hc).1) _).mpr ?_)⟩
        cases i with
        | zero =>
          cases hk
          exact .inl ⟨rfl, hx⟩
        | succ i =>
          -- the last step is from a child of the item
          rw [climb_succ] at hk
          obtain ⟨j, hj, hparent⟩ := Option.bind_eq_some_iff.mp hk
          obtain ⟨c, hc, rfl⟩ := List.mem_map.mp (h.known j _ hparent).1
          exact .inr ⟨c, (h.mem_children _ c).mpr ⟨hc, hparent⟩, i, k, hj, hx, rfl⟩

/-- Nothing occurs twice. -/
theorem nodup_occurrences (hforest : Forest parent) (hgrown : Grown key children as ts) (has : ∀ a ∈ as, a ∈ items)
    (hnodup : as.Nodup) (p : Option κ) (hp : ∀ a ∈ as, parent (key a) = p) : (occurrences key p ts).Nodup := by
  induction hgrown generalizing p with
  | @mk ts below ih =>
    have hitems : ∀ k, ∀ a ∈ children k, a ∈ items := fun k a ha => ((h.mem_children k a).mp ha).1
    have hmem {t : Tree α} (ht : t ∈ ts) {q : Option κ} {x : α}
        (hx : (q, x) ∈ occurrences key (some (key t.item)) t.children) :
        ∃ i k, climb parent i k = some (key t.item) ∧ x ∈ children k ∧ q = some k := by
      rcases (h.mem_occurrences (below t ht) (hitems _) _ q x).mp hx with ⟨rfl, hx'⟩ | ⟨c, hc, i, k, hk, hx', rfl⟩
      · exact ⟨0, key t.item, rfl, hx', rfl⟩
      · refine ⟨i + 1, k, ?_, hx', rfl⟩
        rw [climb_succ, hk, Option.bind_some, ((h.mem_children _ c).mp hc).2]
    -- an item of this level does not occur farther down
    have hlevel {t : Tree α} (ht : t ∈ ts) (x : α) : (p, x) ∉ occurrences key (some (key t.item)) t.children := by
      intro hx
      obtain ⟨i, k, hk, -, rfl⟩ := hmem ht hx
      refine (hforest k).climb_ne_self i ?_
      rw [climb_succ, hk, Option.bind_some, hp _ (List.mem_map_of_mem ht)]
    rw [occurrences_eq, List.nodup_flatMap]
    refine ⟨fun t ht => List.nodup_cons.mpr ⟨hlevel ht _, ?_⟩, ?_⟩
    · exact ih t ht (hitems _) (h.nodup_children _) _ fun c hc => ((h.mem_children _ c).mp hc).2
    · refine (List.pairwise_map.mp hnodup).imp_of_mem fun {t u} ht hu hne => ?_
      rintro ⟨q, x⟩ hx hx'
      rcases List.mem_cons.mp hx with heq | hx <;> rcases List.mem_cons.mp hx' with heq' | hx'
      · cases heq
        exact hne (Prod.mk.inj heq').2
      · cases heq
        exact hlevel hu _ hx'
      · cases heq'
        exact hlevel ht _ hx
      · obtain ⟨i, k, hk, -, rfl⟩ := hmem ht hx
        obtain ⟨j, k', hk', -, hkk⟩ := hmem hu hx'
        cases hkk
        have hkey := (hforest k).eq_of_climb hk hk' (by
          rw [hp _ (List.mem_map_of_mem ht), hp _ (List.mem_map_of_mem hu)])
        exact hne (h.eq_of_key (has _ (List.mem_map_of_mem ht)) (has _ (List.mem_map_of_mem hu)) hkey)

/-- **Every item occurs exactly once**, under its parent. -/
theorem occurrences_perm (hforest : Forest parent) (hgrown : Grown key children roots ts) :
    (occurrences key none ts).Perm (items.map fun a => (parent (key a), a)) := by
  have hroots : ∀ a ∈ roots, a ∈ items := fun a ha => ((h.mem_roots a).mp ha).1
  have hnodup : (items.map fun a => (parent (key a), a)).Nodup :=
    h.keys.of_map.map fun a b heq => (Prod.mk.inj heq).2
  refine (List.perm_ext_iff_of_nodup (h.nodup_occurrences hforest hgrown hroots h.nodup_roots none fun a ha =>
    ((h.mem_roots a).mp ha).2) hnodup).mpr ?_
  rintro ⟨q, x⟩
  rw [h.mem_occurrences hgrown hroots, List.mem_map]
  constructor
  · rintro (⟨rfl, hx⟩ | ⟨a, -, i, k, -, hx, rfl⟩)
    · obtain ⟨hx, hnone⟩ := (h.mem_roots x).mp hx
      exact ⟨x, hx, by rw [hnone]⟩
    · obtain ⟨hx, hsome⟩ := (h.mem_children k x).mp hx
      exact ⟨x, hx, by rw [hsome]⟩
  · rintro ⟨a, ha, heq⟩
    obtain ⟨rfl, rfl⟩ := Prod.mk.inj heq
    cases hparent : parent (key a) with
    | none => exact .inl ⟨rfl, (h.mem_roots a).mpr ⟨ha, hparent⟩⟩
    | some k =>
      -- the way up from the parent ends at a root
      obtain ⟨i, r, hr, hnone⟩ := (hforest k).exists_root
      have hrow : r ∈ items.map key := by
        cases i with
        | zero =>
          cases hr
          exact (h.known _ _ hparent).2
        | succ i =>
          rw [climb_succ] at hr
          obtain ⟨j, -, hj⟩ := Option.bind_eq_some_iff.mp hr
          exact (h.known _ _ hj).2
      obtain ⟨b, hb, rfl⟩ := List.mem_map.mp hrow
      exact .inr ⟨b, (h.mem_roots b).mpr ⟨hb, hnone⟩, i, k, hr, (h.mem_children k a).mpr ⟨ha, hparent⟩, rfl⟩

end

end Hangs

end AuditSphere.Theory
