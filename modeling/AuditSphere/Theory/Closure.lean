import Mathlib.Logic.Function.Basic

/-!
# References between owned rows

A store as its references show it: under each key a row or none, and of a row its
owner and the keys it refers to (`RefGraph`). Whom the rows of an owner may refer to is
a relation `may` between an owner, a key and the owner of the row under that key.

A graph is `Closed` if every reference leads to a row, of an owner that may be
referred to. Nothing else is needed of a write: one that puts a row under a key, for
the owner the key has or under a fresh key, keeps a graph closed if each reference
of the new row leads somewhere (`Closed.put`).
-/

namespace AuditSphere.Theory

/-- What is seen of a row. -/
structure Node (κ τ : Type) where
  /-- Whose row it is. -/
  owner : τ
  /-- The rows it refers to. -/
  refs : List κ

/-- The rows of a store by their keys. -/
abbrev RefGraph (κ τ : Type) := κ → Option (Node κ τ)

namespace RefGraph

variable {κ τ : Type} (may : τ → κ → τ → Prop)

/-- Under the key there is a row that the owner may refer to. -/
def Leads (g : RefGraph κ τ) (owner : τ) (k : κ) : Prop := ∃ n, g k = some n ∧ may owner k n.owner

/-- Every reference leads to a row that may be referred to. -/
def Closed (g : RefGraph κ τ) : Prop := ∀ k n, g k = some n → ∀ k' ∈ n.refs, g.Leads may n.owner k'

/-- Put a row under a key. -/
def put [DecidableEq κ] (g : RefGraph κ τ) (k : κ) (n : Node κ τ) : RefGraph κ τ := Function.update g k (some n)

variable {may} {g : RefGraph κ τ}

/-- A graph without references is closed. -/
theorem Closed.of_no_refs (h : ∀ k n, g k = some n → n.refs = []) : g.Closed may := by
  intro k n hn k' hk'
  rw [h k n hn] at hk'
  cases hk'

/-- In a closed graph a reference that leads to a row leads to one that may be referred to. -/
theorem Closed.owner (h : g.Closed may) {k k' : κ} {n n' : Node κ τ} (hn : g k = some n) (hk' : k' ∈ n.refs)
    (hn' : g k' = some n') : may n.owner k' n'.owner := by
  obtain ⟨m, hm, hmay⟩ := h k n hn k' hk'
  rw [hn', Option.some.injEq] at hm
  rw [hm]
  exact hmay

section Put

variable [DecidableEq κ] {k : κ} {n : Node κ τ}

theorem put_self : g.put k n k = some n := Function.update_self ..

theorem put_of_ne {k' : κ} (h : k' ≠ k) : g.put k n k' = g k' := Function.update_of_ne h ..

/-- What leads somewhere still does, as long as no key changes its owner. -/
theorem Leads.put {owner : τ} {k' : κ} (h : g.Leads may owner k') (hsame : ∀ m, g k = some m → m.owner = n.owner) :
    (g.put k n).Leads may owner k' := by
  obtain ⟨m, hm, hmay⟩ := h
  by_cases hk : k' = k
  · subst hk
    exact ⟨n, put_self, hsame m hm ▸ hmay⟩
  · exact ⟨m, (put_of_ne hk).trans hm, hmay⟩

/-- **Writes**: to put a row under a key keeps a graph closed if the key does not change
its owner and the references of the row lead somewhere. -/
theorem Closed.put (hg : g.Closed may) (hsame : ∀ m, g k = some m → m.owner = n.owner)
    (hrefs : ∀ k' ∈ n.refs, g.Leads may n.owner k') : (g.put k n).Closed may := by
  intro j m hm k' hk'
  by_cases hj : j = k
  · subst hj
    rw [put_self, Option.some.injEq] at hm
    subst hm
    exact (hrefs k' hk').put hsame
  · rw [put_of_ne hj] at hm
    exact (hg j m hm k' hk').put hsame

end Put

end RefGraph

end AuditSphere.Theory
