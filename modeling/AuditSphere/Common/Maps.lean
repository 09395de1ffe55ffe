import AuditSphere.Common.Values

/-!
# Maps and texts of values

What `Map`, `Set`, `String` and `Number` of the language do: entries stand in the order in
which their keys were first set, and every value has a text. How numbers are written and
read, and how texts are sorted, is left to the runtime.
-/

namespace AuditSphere

/-- What `Number(value)` is. -/
inductive Number where
  | nan
  | finite (q : ℚ)
  | infinite (positive : Bool)
  deriving DecidableEq

/-- `0 < number`. -/
def Number.isPositive : Number → Bool
  | .nan => false
  | .finite q => 0 < q
  | .infinite positive => positive

/-- What the runtime decides: how numbers are written and read, and how texts are sorted. -/
class Runtime where
  /-- `Number.prototype.toString`. -/
  numberToString : ℚ → String
  /-- `Number(text)`. -/
  numberOf : String → Number
  /-- `localeCompare`. -/
  localeCompare : String → String → Ordering

/-! ### Maps -/

section Maps

variable {κ ν : Type} [DecidableEq κ]

/-- `map.get(key)`, for the entries of a map. -/
def mapGet (key : κ) : List (κ × ν) → Option ν
  | [] => none
  | (k, v) :: entries => if k = key then some v else mapGet key entries

/-- `map.set(key, value)`, and the assignment of a property. -/
def mapSet (key : κ) (value : ν) : List (κ × ν) → List (κ × ν)
  | [] => [(key, value)]
  | (k, v) :: entries => if k = key then (k, value) :: entries else (k, v) :: mapSet key value entries

@[simp] theorem mapGet_mapSet_self (key : κ) (value : ν) (m : List (κ × ν)) :
    mapGet key (mapSet key value m) = some value := by
  induction m with
  | nil => simp [mapSet, mapGet]
  | cons e m ih =>
    obtain ⟨k, v⟩ := e
    by_cases h : k = key <;> simp [mapSet, mapGet, h, ih]

theorem mapGet_mapSet_of_ne {key other : κ} (h : other ≠ key) (value : ν) (m : List (κ × ν)) :
    mapGet other (mapSet key value m) = mapGet other m := by
  induction m with
  | nil => simp [mapSet, mapGet, h.symm]
  | cons e m ih =>
    obtain ⟨k, v⟩ := e
    by_cases hk : k = key
    · subst hk
      simp [mapSet, mapGet, h.symm]
    · simp [mapSet, mapGet, hk, ih]

theorem mem_mapSet {e : κ × ν} {key : κ} {value : ν} {m : List (κ × ν)} (h : e ∈ mapSet key value m) :
    e = (key, value) ∨ e ∈ m := by
  induction m with
  | nil => exact .inl (List.mem_singleton.mp h)
  | cons e' m ih =>
    rw [mapSet] at h
    split at h
    · rename_i hk
      rcases List.mem_cons.mp h with rfl | h
      · exact .inl (by rw [hk])
      · exact .inr (List.mem_cons_of_mem _ h)
    · rcases List.mem_cons.mp h with rfl | h
      · exact .inr List.mem_cons_self
      · exact (ih h).imp_right (List.mem_cons_of_mem _)

/-- A map of entries, set one after the other. -/
def mapOf (entries : List (κ × ν)) : List (κ × ν) := entries.foldl (fun m e => mapSet e.1 e.2 m) []

/-- A map has no other entries than those that were set. -/
theorem mem_mapOf {e : κ × ν} {entries : List (κ × ν)} (h : e ∈ mapOf entries) : e ∈ entries := by
  suffices ∀ m, e ∈ entries.foldl (fun m e => mapSet e.1 e.2 m) m → e ∈ m ∨ e ∈ entries from
    (this [] h).resolve_left List.not_mem_nil
  clear h
  induction entries with
  | nil => exact fun m h => .inl h
  | cons e' entries ih =>
    intro m h
    rcases ih _ h with h | h
    · rcases mem_mapSet h with rfl | h
      · exact .inr List.mem_cons_self
      · exact .inl h
    · exact .inr (List.mem_cons_of_mem _ h)

theorem mem_of_mapGet {key : κ} {value : ν} {m : List (κ × ν)} (h : mapGet key m = some value) : (key, value) ∈ m := by
  induction m with
  | nil => cases h
  | cons e m ih =>
    obtain ⟨k, v⟩ := e
    rw [mapGet] at h
    split at h
    · rename_i hk
      cases h
      exact hk ▸ List.mem_cons_self
    · exact List.mem_cons_of_mem _ (ih h)

/-- In a map every key has one value. -/
theorem mapGet_eq_some_iff {key : κ} {value : ν} {m : List (κ × ν)} (hkeys : (m.map Prod.fst).Nodup) :
    mapGet key m = some value ↔ (key, value) ∈ m := by
  refine ⟨mem_of_mapGet, fun h => ?_⟩
  induction m with
  | nil => cases h
  | cons e m ih =>
    obtain ⟨k, v⟩ := e
    obtain ⟨hfresh, hkeys⟩ := List.nodup_cons.mp hkeys
    rw [mapGet]
    rcases List.mem_cons.mp h with heq | h
    · cases heq
      exact if_pos rfl
    · have hk : k ≠ key := by
        rintro rfl
        exact hfresh (List.mem_map.mpr ⟨_, h, rfl⟩)
      rw [if_neg hk, ih hkeys h]

theorem mapGet_isSome_iff {key : κ} {m : List (κ × ν)} : (mapGet key m).isSome = true ↔ key ∈ m.map Prod.fst := by
  induction m with
  | nil => simp [mapGet]
  | cons e m ih =>
    obtain ⟨k, v⟩ := e
    by_cases hk : k = key
    · simp [mapGet, hk]
    · simp [mapGet, hk, ih, Ne.symm hk]

/-- A new key is set last. -/
theorem mapSet_of_not_mem {key : κ} {m : List (κ × ν)} (h : key ∉ m.map Prod.fst) (value : ν) :
    mapSet key value m = m ++ [(key, value)] := by
  induction m with
  | nil => rfl
  | cons e m ih =>
    obtain ⟨k, v⟩ := e
    rw [List.map_cons, List.mem_cons, not_or] at h
    rw [mapSet, if_neg (Ne.symm h.1), ih h.2, List.cons_append]

theorem mem_mapSet_self (key : κ) (value : ν) (m : List (κ × ν)) : (key, value) ∈ mapSet key value m :=
  mem_of_mapGet (mapGet_mapSet_self key value m)

/-- Entries under other keys are kept. -/
theorem mem_mapSet_of_mem {e : κ × ν} {key : κ} {m : List (κ × ν)} (h : e ∈ m) (hkey : e.1 ≠ key) (value : ν) :
    e ∈ mapSet key value m := by
  induction m with
  | nil => cases h
  | cons e' m ih =>
    rw [mapSet]
    rcases List.mem_cons.mp h with rfl | h
    · rw [if_neg hkey]
      exact List.mem_cons_self
    · split
      · exact List.mem_cons_of_mem _ h
      · exact List.mem_cons_of_mem _ (ih h)

/-- An entry is in the map if no other one has its key. -/
theorem mem_mapOf_of_unique {e : κ × ν} {entries : List (κ × ν)} (h : e ∈ entries)
    (hunique : ∀ e' ∈ entries, e'.1 = e.1 → e' = e) : e ∈ mapOf entries := by
  suffices ∀ m : List (κ × ν), e ∈ m ∨ e ∈ entries → e ∈ entries.foldl (fun m e => mapSet e.1 e.2 m) m from
    this [] (.inr h)
  clear h
  induction entries with
  | nil => exact fun m h => h.resolve_right List.not_mem_nil
  | cons e' entries ih =>
    intro m h
    refine ih (fun x hx => hunique x (List.mem_cons_of_mem _ hx)) _ ?_
    by_cases hkey : e'.1 = e.1
    · rw [hunique e' List.mem_cons_self hkey]
      exact .inl (mem_mapSet_self _ _ _)
    · rcases h with h | h
      · exact .inl (mem_mapSet_of_mem h (Ne.symm hkey) _)
      · rcases List.mem_cons.mp h with rfl | h
        · exact absurd rfl hkey
        · exact .inr h

/-- A map has each key once. -/
theorem nodup_keys_mapSet {key : κ} {value : ν} {m : List (κ × ν)} (h : (m.map Prod.fst).Nodup) :
    ((mapSet key value m).map Prod.fst).Nodup := by
  by_cases hkey : key ∈ m.map Prod.fst
  · have hsame : (mapSet key value m).map Prod.fst = m.map Prod.fst := by
      clear h
      induction m with
      | nil => cases hkey
      | cons e m ih =>
        obtain ⟨k, v⟩ := e
        rw [mapSet]
        split
        · rfl
        · rename_i hk
          rw [List.map_cons, List.map_cons, ih ((List.mem_cons.mp hkey).resolve_left (Ne.symm hk))]
    rwa [hsame]
  · rw [mapSet_of_not_mem hkey, List.map_append]
    refine List.nodup_append.mpr ⟨h, by simp, fun k hk k' hk' heq => hkey ?_⟩
    rw [heq, List.mem_singleton.mp hk'] at hk
    exact hk

theorem nodup_keys_mapOf (entries : List (κ × ν)) : ((mapOf entries).map Prod.fst).Nodup := by
  suffices ∀ m : List (κ × ν), (m.map Prod.fst).Nodup →
      ((entries.foldl (fun m e => mapSet e.1 e.2 m) m).map Prod.fst).Nodup from this [] List.nodup_nil
  induction entries with
  | nil => exact fun m h => h
  | cons e entries ih => exact fun m h => ih _ (nodup_keys_mapSet h)

/-- Entries with different keys are a map as they stand. -/
theorem mapOf_of_nodup {entries : List (κ × ν)} (hkeys : (entries.map Prod.fst).Nodup) : mapOf entries = entries := by
  suffices ∀ m : List (κ × ν), ((m ++ entries).map Prod.fst).Nodup →
      entries.foldl (fun m e => mapSet e.1 e.2 m) m = m ++ entries from this [] hkeys
  clear hkeys
  induction entries with
  | nil => exact fun m _ => (List.append_nil m).symm
  | cons e entries ih =>
    intro m h
    have hnew : e.1 ∉ m.map Prod.fst := by
      rw [List.map_append, List.map_cons, List.nodup_append] at h
      exact fun hmem => h.2.2 e.1 hmem e.1 List.mem_cons_self rfl
    rw [List.foldl_cons, mapSet_of_not_mem hnew, ih (m ++ [e]) (by rwa [List.append_assoc]), List.append_assoc]
    rfl

/-- Counting one more of a key adds one to the sum. -/
theorem sum_mapSet_succ (key : κ) (m : List (κ × ℕ)) :
    ((mapSet key ((mapGet key m).getD 0 + 1) m).map Prod.snd).sum = (m.map Prod.snd).sum + 1 := by
  induction m with
  | nil => rfl
  | cons e m ih =>
    obtain ⟨k, n⟩ := e
    rw [mapSet, mapGet]
    split
    · simp only [List.map_cons, List.sum_cons, Option.getD_some]
      omega
    · simp only [List.map_cons, List.sum_cons, ih]
      omega

/-- A loop that counts the keys of a list counts each of its elements once. -/
theorem sum_foldl_mapSet {α : Type} (key : α → κ) (l : List α) (m : List (κ × ℕ)) :
    ((l.foldl (fun m a => mapSet (key a) ((mapGet (key a) m).getD 0 + 1) m) m).map Prod.snd).sum =
      (m.map Prod.snd).sum + l.length := by
  induction l generalizing m with
  | nil => rfl
  | cons a l ih =>
    rw [List.foldl_cons, ih, sum_mapSet_succ, List.length_cons]
    omega

end Maps

/-! ### Texts -/

/-- The text without white space at its ends. -/
def trimText (s : String) : String :=
  String.ofList ((s.toList.dropWhile isTrimmed).reverse.dropWhile isTrimmed).reverse

/-- `text.slice(0, n)`. -/
def sliceText (n : ℕ) (s : String) : String := String.ofList (sliceUnits n s.toList)

namespace Json

/-- `===`, on values that `JSON.parse` has made: no two arrays or objects are the same. -/
def same : Option Json → Option Json → Bool
  | none, none | some .null, some .null => true
  | some (.bool a), some (.bool b) => a == b
  | some (.num a), some (.num b) => a == b
  | some (.str a), some (.str b) => a == b
  | _, _ => false

/-- `value ?? undefined`. -/
def nullish : Option Json → Option Json
  | some .null => none
  | j => j

/-- `set.add(value)`. -/
def addTo (set : List (Option Json)) (j : Option Json) : List (Option Json) :=
  if set.any (same j) then set else set ++ [j]

variable [Runtime]

mutual
/-- `String(value)`. -/
def text : Json → String
  | .null => "null"
  | .bool b => if b then "true" else "false"
  | .num q => Runtime.numberToString q
  | .str s => s
  | .arr items => String.intercalate "," (itemTexts items)
  | .obj _ => "[object Object]"

/-- The items of an array, as `join` prints them. -/
def itemTexts : List Json → List String
  | [] => []
  | .null :: items => "" :: itemTexts items
  | j :: items => text j :: itemTexts items
end

/-- `String(value)`, of a value that may be undefined. -/
def textOf (j : Option Json) : String := (j.map text).getD "undefined"

/-- `Number(value)`. -/
def toNumber : Option Json → Number
  | none | some (.obj _) => .nan
  | some .null => .finite 0
  | some (.bool b) => .finite (if b then 1 else 0)
  | some (.num q) => .finite q
  | some (.str s) => Runtime.numberOf s
  | some (.arr items) => Runtime.numberOf (text (.arr items))

/-- A text as `JSON.stringify` writes it, between quotation marks. -/
def quote (s : String) : String :=
  String.ofList ('"' :: s.toList.flatMap escape ++ ['"'])
where
  /-- A character of it. -/
  escape (c : Char) : List Char :=
    if c = '"' ∨ c = '\\' then ['\\', c]
    else if c.toNat = 8 then ['\\', 'b']
    else if c.toNat = 9 then ['\\', 't']
    else if c.toNat = 10 then ['\\', 'n']
    else if c.toNat = 12 then ['\\', 'f']
    else if c.toNat = 13 then ['\\', 'r']
    else if c.toNat < 32 then
      ['\\', 'u', '0', '0', if c.toNat < 16 then '0' else '1', Nat.digitChar (c.toNat % 16)]
    else [c]

mutual
/-- `JSON.stringify(value)`. -/
def stringify : Json → String
  | .null => "null"
  | .bool b => if b then "true" else "false"
  | .num q => Runtime.numberToString q
  | .str s => quote s
  | .arr items => "[" ++ String.intercalate "," (stringifyItems items) ++ "]"
  | .obj fields => "\x7b" ++ String.intercalate "," (stringifyFields fields) ++ "\x7d"

/-- The items of an array. -/
def stringifyItems : List Json → List String
  | [] => []
  | j :: items => stringify j :: stringifyItems items

/-- The properties of an object. -/
def stringifyFields : List (String × Json) → List String
  | [] => []
  | (key, j) :: fields => (quote key ++ ":" ++ stringify j) :: stringifyFields fields
end

end Json

/-- A runtime that writes and reads whole numbers, and sorts texts by their characters. -/
abbrev wholeNumbers : Runtime where
  numberToString q := toString q.num
  numberOf s := if s.toList.all Char.isDigit then .finite (Nat.ofDigitChars 10 s.toList 0) else .nan
  localeCompare a b := if a = b then .eq else if a.toList < b.toList then .lt else .gt

/-! ### Iteration -/

/-- A value is read in a way that its type does not allow. -/
inductive TypeError where
  | typeError
  deriving DecidableEq

namespace Json

/-- The items over which `for (const item of value ?? [])` runs. -/
def items : Option Json → Except TypeError (List Json)
  | none | some .null => .ok []
  | some (.arr items) => .ok items
  | some (.str s) => .ok (s.toList.map fun c => .str (String.singleton c))
  | _ => .error .typeError

/-- `item[key]`; null has no properties. -/
def member (key : String) : Json → Except TypeError (Option Json)
  | .null => .error .typeError
  | j => .ok (j.property key)

/-- `item[key]`, for the items of a value. -/
def members (key : String) (j : Option Json) : Except TypeError (List (Option Json)) :=
  items j >>= fun l => l.mapM (member key)

end Json

end AuditSphere
