import AuditSphere.Common.Values
import Mathlib.Data.Multiset.Defs

/-!
# Temporary passwords

`randomPassword`: the password of a user who is invited, or whose password is reset. A
character of each of the four alphabets is drawn, then ten of all of them, and then the
characters are swapped. The random bytes come from a stream that is given: each draw takes
the first byte and leaves the others.
-/

namespace AuditSphere.Crypto

/-! ### Drawing -/

/-- The random bytes that are still to come. -/
abbrev RandomBytes := ℕ → UInt8

/-- `randomBytes(1)[0]`. -/
def randomByte (bytes : RandomBytes) : ℕ × RandomBytes := ((bytes 0).toNat, fun n => bytes (n + 1))

/-- Characters to draw from. -/
structure Alphabet where
  letters : List Char
  nonempty : 0 < letters.length

namespace Alphabet

instance : Membership Char Alphabet := ⟨fun set c => c ∈ set.letters⟩

instance : Append Alphabet :=
  ⟨fun a b => ⟨a.letters ++ b.letters, by rw [List.length_append]; exact Nat.add_pos_left a.nonempty _⟩⟩

theorem mem_append {a b : Alphabet} {c : Char} : c ∈ a ++ b ↔ c ∈ a ∨ c ∈ b := List.mem_append

end Alphabet

/-- `pick`. -/
def pick (set : Alphabet) (bytes : RandomBytes) : Char × RandomBytes :=
  let (byte, bytes) := randomByte bytes
  (set.letters.get ⟨byte % set.letters.length, Nat.mod_lt _ set.nonempty⟩, bytes)

theorem pick_mem (set : Alphabet) (bytes : RandomBytes) : (pick set bytes).1 ∈ set := List.get_mem _ _

/-- Characters are pushed, so many. -/
def pushPicks (set : Alphabet) : ℕ → List Char → RandomBytes → List Char × RandomBytes
  | 0, chars, bytes => (chars, bytes)
  | n + 1, chars, bytes =>
    let (c, bytes) := pick set bytes
    pushPicks set n (chars ++ [c]) bytes

/-- What is pushed comes after what is there. -/
theorem pushPicks_spec (set : Alphabet) (n : ℕ) (chars : List Char) (bytes : RandomBytes) :
    ∃ picked : List Char, (pushPicks set n chars bytes).1 = chars ++ picked ∧ picked.length = n ∧ ∀ c ∈ picked, c ∈ set := by
  induction n generalizing chars bytes with
  | zero => exact ⟨[], (List.append_nil chars).symm, rfl, fun c hc => absurd hc List.not_mem_nil⟩
  | succ n ih =>
    obtain ⟨picked, happ, hlength, hmem⟩ := ih (chars ++ [(pick set bytes).1]) (pick set bytes).2
    refine ⟨(pick set bytes).1 :: picked, ?_, by rw [List.length_cons, hlength], ?_⟩
    · rw [pushPicks, happ, List.append_assoc]
      rfl
    · exact List.forall_mem_cons.mpr ⟨pick_mem set bytes, hmem⟩

/-! ### Shuffling -/

section Shuffle

variable {α : Type}

/-- `[chars[i], chars[j]] = [chars[j], chars[i]]`. -/
def swap (chars : List α) (i j : ℕ) : List α :=
  match chars[i]?, chars[j]? with
  | some a, some b => (chars.set i b).set j a
  | _, _ => chars

/-- The swaps of the loop, from the index `i` down to 1. -/
def shuffle : ℕ → List α → RandomBytes → List α × RandomBytes
  | 0, chars, bytes => (chars, bytes)
  | i + 1, chars, bytes =>
    let (byte, bytes) := randomByte bytes
    shuffle i (swap chars (i + 1) (byte % (i + 2))) bytes

theorem swap_perm (chars : List α) (i j : ℕ) : (swap chars i j).Perm chars := by
  unfold swap
  split
  · rename_i a b hi hj
    obtain ⟨hlti, rfl⟩ := List.getElem?_eq_some_iff.mp hi
    obtain ⟨hltj, rfl⟩ := List.getElem?_eq_some_iff.mp hj
    exact List.set_set_perm hlti hltj
  · exact List.Perm.refl chars

/-- **The shuffle** changes the order only, whichever bytes are drawn. -/
theorem shuffle_perm (i : ℕ) (chars : List α) (bytes : RandomBytes) : (shuffle i chars bytes).1.Perm chars := by
  induction i generalizing chars bytes with
  | zero => exact List.Perm.refl chars
  | succ i ih => exact (ih _ _).trans (swap_perm chars (i + 1) _)

end Shuffle

/-! ### Passwords -/

def upper : Alphabet := ⟨"ABCDEFGHJKLMNPQRSTUVWXYZ".toList, by decide⟩

def lower : Alphabet := ⟨"abcdefghjkmnpqrstuvwxyz".toList, by decide⟩

def digits : Alphabet := ⟨"23456789".toList, by decide⟩

def symbols : Alphabet := ⟨"!@#$%&*".toList, by decide⟩

def all : Alphabet := upper ++ lower ++ digits ++ symbols

theorem mem_all {c : Char} : c ∈ all ↔ c ∈ upper ∨ c ∈ lower ∨ c ∈ digits ∨ c ∈ symbols := by
  simp only [all, Alphabet.mem_append, or_assoc]

/-- All the characters are of the basic plane. -/
theorem all_basic : ∀ c ∈ all.letters, c.toNat ≤ 0xFFFF := by
  have hall : (all.letters.all fun c => decide (c.toNat ≤ 0xFFFF)) = true := by decide +kernel
  exact fun c hc => of_decide_eq_true (List.all_eq_true.mp hall c hc)

/-- `randomPassword`. -/
def randomPassword (bytes : RandomBytes) : String :=
  let (u, bytes) := pick upper bytes
  let (l, bytes) := pick lower bytes
  let (d, bytes) := pick digits bytes
  let (s, bytes) := pick symbols bytes
  let chars := [u, l, d, s]
  let (chars, bytes) := pushPicks all (14 - chars.length) chars bytes
  String.ofList (shuffle (chars.length - 1) chars bytes).1

/-- The characters of a password, in the order in which they are drawn. -/
theorem randomPassword_perm (bytes : RandomBytes) : ∃ u l d s picked, u ∈ upper ∧ l ∈ lower ∧ d ∈ digits ∧ s ∈ symbols ∧
    picked.length = 10 ∧ (∀ c ∈ picked, c ∈ all) ∧ (randomPassword bytes).toList.Perm ([u, l, d, s] ++ picked) := by
  let afterUpper := (pick upper bytes).2
  let afterLower := (pick lower afterUpper).2
  let afterDigits := (pick digits afterLower).2
  let afterSymbols := (pick symbols afterDigits).2
  obtain ⟨picked, happ, hlength, hmem⟩ := pushPicks_spec all 10
    [(pick upper bytes).1, (pick lower afterUpper).1, (pick digits afterLower).1, (pick symbols afterDigits).1] afterSymbols
  refine ⟨_, _, _, _, picked, pick_mem upper bytes, pick_mem lower afterUpper, pick_mem digits afterLower,
    pick_mem symbols afterDigits, hlength, hmem, ?_⟩
  rw [← happ, randomPassword, String.toList_ofList]
  exact shuffle_perm _ _ _

/-- **Every temporary password** has 14 characters, all of the four alphabets and at least one of each; the shuffle of
any characters has them as often as before. -/
theorem randomPassword_meets (bytes : RandomBytes) :
    unitLength (randomPassword bytes).toList = 14 ∧
      (∀ c ∈ (randomPassword bytes).toList, c ∈ upper ∨ c ∈ lower ∨ c ∈ digits ∨ c ∈ symbols) ∧
      (∀ set ∈ [upper, lower, digits, symbols], ∃ c ∈ (randomPassword bytes).toList, c ∈ set) ∧
      ∀ (chars : List Char) (i : ℕ), ((shuffle i chars bytes).1 : Multiset Char) = chars := by
  obtain ⟨u, l, d, s, picked, hu, hl, hd, hs, hlength, hpicked, hperm⟩ := randomPassword_perm bytes
  have hmem : ∀ c ∈ [u, l, d, s], c ∈ (randomPassword bytes).toList := fun c hc =>
    hperm.mem_iff.mpr (List.mem_append_left picked hc)
  have hall : ∀ c ∈ (randomPassword bytes).toList, c ∈ all := by
    intro c hc
    rcases List.mem_append.mp (hperm.mem_iff.mp hc) with hfirst | hrest
    · simp only [List.mem_cons, List.not_mem_nil, or_false] at hfirst
      rcases hfirst with rfl | rfl | rfl | rfl
      · exact mem_all.mpr (.inl hu)
      · exact mem_all.mpr (.inr (.inl hl))
      · exact mem_all.mpr (.inr (.inr (.inl hd)))
      · exact mem_all.mpr (.inr (.inr (.inr hs)))
    · exact hpicked c hrest
  refine ⟨?_, fun c hc => mem_all.mp (hall c hc), fun set hset => ?_,
    fun chars i => Multiset.coe_eq_coe.mpr (shuffle_perm i chars bytes)⟩
  · rw [unitLength_eq_length fun c hc => all_basic c (hall c hc), hperm.length_eq, List.length_append, hlength]
    rfl
  · simp only [List.mem_cons, List.not_mem_nil, or_false] at hset
    rcases hset with rfl | rfl | rfl | rfl
    · exact ⟨u, hmem u (by simp), hu⟩
    · exact ⟨l, hmem l (by simp), hl⟩
    · exact ⟨d, hmem d (by simp), hd⟩
    · exact ⟨s, hmem s (by simp), hs⟩

end AuditSphere.Crypto
