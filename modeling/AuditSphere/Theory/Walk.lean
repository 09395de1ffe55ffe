import Mathlib.Data.List.Nodup
import Mathlib.Data.List.Perm.Subperm
import Mathlib.Logic.Relation

/-!
# Walking a graph

A walk collects the nodes that can be reached from one node. It goes through the nodes it has
found, in the order in which it has found them, and appends the neighbours of each that are
new. With a round for each node of the graph the walk finds exactly what can be reached
(`mem_walkFrom_iff`).
-/

namespace AuditSphere.Theory

variable {α : Type} [DecidableEq α]

/-- Append the nodes that are new. -/
def pushNew (found nodes : List α) : List α := nodes.foldl (fun f y => if y ∈ f then f else f ++ [y]) found

/-- Go on from the `i`th node that was found. -/
def walkFrom (next : α → List α) : ℕ → ℕ → List α → List α
  | 0, _, found => found
  | fuel + 1, i, found =>
    match found[i]? with
    | none => found
    | some x => walkFrom next fuel (i + 1) (pushNew found (next x))

/-- The other node is a neighbour. -/
def Neighbour (next : α → List α) (x y : α) : Prop := y ∈ next x

section Push

variable {found nodes : List α}

theorem pushNew_cons (found : List α) (z : α) (nodes : List α) :
    pushNew found (z :: nodes) = pushNew (if z ∈ found then found else found ++ [z]) nodes := rfl

theorem mem_pushNew_iff {y : α} : y ∈ pushNew found nodes ↔ y ∈ found ∨ y ∈ nodes := by
  induction nodes generalizing found with
  | nil => simp [pushNew]
  | cons z nodes ih =>
    rw [pushNew_cons, ih]
    split
    · rename_i hz
      constructor
      · exact fun h => h.imp_right (List.mem_cons_of_mem z)
      · rintro (h | h)
        · exact .inl h
        · rcases List.mem_cons.mp h with rfl | h
          · exact .inl hz
          · exact .inr h
    · simp [or_assoc]

theorem pushNew_nodup (h : found.Nodup) : (pushNew found nodes).Nodup := by
  induction nodes generalizing found with
  | nil => exact h
  | cons z nodes ih =>
    rw [pushNew_cons]
    split
    · exact ih h
    · rename_i hz
      refine ih (List.nodup_append.mpr ⟨h, List.nodup_singleton z, fun x hx y hy => ?_⟩)
      rw [List.mem_singleton.mp hy]
      exact fun hxz => hz (hxz ▸ hx)

theorem prefix_pushNew (found nodes : List α) : found <+: pushNew found nodes := by
  induction nodes generalizing found with
  | nil => exact List.prefix_rfl
  | cons z nodes ih =>
    rw [pushNew_cons]
    split
    · exact ih found
    · exact (List.prefix_append _ _).trans (ih _)

end Push

variable {next : α → List α} {root : α}

/-- Everything that is found can be reached. -/
theorem walkFrom_sound {fuel i : ℕ} {found : List α} (h : ∀ y ∈ found, Relation.ReflTransGen (Neighbour next) root y) {y : α}
    (hy : y ∈ walkFrom next fuel i found) : Relation.ReflTransGen (Neighbour next) root y := by
  induction fuel generalizing i found with
  | zero => exact h y hy
  | succ fuel ih =>
    unfold walkFrom at hy
    split at hy
    · exact h y hy
    · rename_i x hx
      refine ih (fun z hz => ?_) hy
      rcases mem_pushNew_iff.mp hz with hz | hz
      · exact h z hz
      · exact (h x (List.mem_of_getElem? hx)).tail hz

/-- With enough rounds, the neighbours of everything that is found are found. -/
theorem walkFrom_closed {nodes : List α} (hnodes : ∀ x ∈ nodes, next x ⊆ nodes) {fuel i : ℕ} {found : List α}
    (hnodup : found.Nodup) (hsub : found ⊆ nodes) (hdone : ∀ x ∈ found.take i, next x ⊆ found)
    (hfuel : nodes.length ≤ fuel + i) :
    found ⊆ walkFrom next fuel i found ∧ ∀ x ∈ walkFrom next fuel i found, next x ⊆ walkFrom next fuel i found := by
  induction fuel generalizing i found with
  | zero =>
    have hlength : found.length ≤ i := Nat.le_trans (hnodup.subperm hsub).length_le (by omega)
    rw [List.take_of_length_le hlength] at hdone
    exact ⟨List.Subset.refl _, hdone⟩
  | succ fuel ih =>
    unfold walkFrom
    split
    · rename_i hnone
      rw [List.take_of_length_le (List.getElem?_eq_none_iff.mp hnone)] at hdone
      exact ⟨List.Subset.refl _, hdone⟩
    · rename_i x hx
      have hgrow : found ⊆ pushNew found (next x) := fun y hy => mem_pushNew_iff.mpr (.inl hy)
      obtain ⟨hi, hxi⟩ := List.getElem?_eq_some_iff.mp hx
      have htake : (pushNew found (next x)).take (i + 1) = found.take i ++ [x] := by
        obtain ⟨rest, hrest⟩ := prefix_pushNew found (next x)
        rw [← hrest, List.take_append_of_le_length (by omega), List.take_add_one, hx]
        rfl
      obtain ⟨hfound, hclosed⟩ := ih (i := i + 1) (pushNew_nodup hnodup)
        (fun y hy => (mem_pushNew_iff.mp hy).elim (fun hy => hsub hy)
          (fun hy => hnodes x (hsub (List.mem_of_getElem? hx)) hy))
        (fun y hy => by
          rw [htake, List.mem_append, List.mem_singleton] at hy
          rcases hy with hy | rfl
          · exact List.Subset.trans (hdone y hy) hgrow
          · exact fun z hz => mem_pushNew_iff.mpr (.inr hz))
        (by omega)
      exact ⟨List.Subset.trans hgrow hfound, hclosed⟩

/-- More rounds than enough make no difference. -/
theorem walkFrom_eq {nodes : List α} (hnodes : ∀ x ∈ nodes, next x ⊆ nodes) {m n i : ℕ} {found : List α}
    (hnodup : found.Nodup) (hsub : found ⊆ nodes) (hm : nodes.length ≤ m + i) (hn : nodes.length ≤ n + i) :
    walkFrom next m i found = walkFrom next n i found := by
  have hdone : nodes.length ≤ i → found[i]? = none := fun h =>
    List.getElem?_eq_none (Nat.le_trans (hnodup.subperm hsub).length_le h)
  induction m generalizing n i found with
  | zero =>
    cases n with
    | zero => rfl
    | succ n => rw [walkFrom, walkFrom, hdone (by omega)]
  | succ m ih =>
    cases n with
    | zero => rw [walkFrom, walkFrom, hdone (by omega)]
    | succ n =>
      rw [walkFrom, walkFrom]
      split
      · rfl
      · rename_i x hx
        have hsub' : pushNew found (next x) ⊆ nodes := fun y hy =>
          (mem_pushNew_iff.mp hy).elim (fun hy => hsub hy) fun hy => hnodes x (hsub (List.mem_of_getElem? hx)) hy
        exact ih (pushNew_nodup hnodup) hsub' (by omega) (by omega) fun h =>
          List.getElem?_eq_none (Nat.le_trans ((pushNew_nodup hnodup).subperm hsub').length_le h)

theorem walkFrom_nodup {fuel i : ℕ} {found : List α} (h : found.Nodup) : (walkFrom next fuel i found).Nodup := by
  induction fuel generalizing i found with
  | zero => exact h
  | succ fuel ih =>
    rw [walkFrom]
    split
    · exact h
    · exact ih (pushNew_nodup h)

/-- The walk from a node finds exactly what can be reached from it. -/
theorem mem_walkFrom_iff {nodes : List α} (hnodes : ∀ x ∈ nodes, next x ⊆ nodes) (hroot : root ∈ nodes) {fuel : ℕ}
    (hfuel : nodes.length ≤ fuel) {y : α} :
    y ∈ walkFrom next fuel 0 [root] ↔ Relation.ReflTransGen (Neighbour next) root y := by
  constructor
  · refine walkFrom_sound fun z hz => ?_
    rw [List.mem_singleton.mp hz]
  · intro h
    obtain ⟨hfound, hclosed⟩ := walkFrom_closed hnodes (List.nodup_singleton root)
      (List.cons_subset.mpr ⟨hroot, List.nil_subset _⟩) (fun x hx => absurd hx (by simp)) (show _ ≤ fuel + 0 from hfuel)
    induction h with
    | refl => exact hfound List.mem_cons_self
    | tail _ hstep ih => exact hclosed _ ih hstep

end AuditSphere.Theory
