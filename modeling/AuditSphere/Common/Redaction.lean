import Mathlib.Logic.Function.Iterate
import AuditSphere.Common.Maps
import AuditSphere.Common.Values

/-!
# Redaction

`redact` takes the secrets out of a record before it is written to the audit trail, and
`toSerializable` makes the numbers of an answer plain. Both go through values that are
nested to any depth, `redact` down to the depth 8 and `toSerializable` down to 32. The one
looks at the numbers under the keys of objects only, so that it is the other with the
secrets taken out exactly where `Fits` holds of every part that it shows (`redact_iff`).
-/

namespace AuditSphere.Redaction

/-- A value of the language. Its numbers are of a type of their own, into which integers are rounded. -/
inductive Value (ν : Type) where
  | undefined
  | null
  | bool (b : Bool)
  | num (n : ν)
  | str (s : String)
  | bigint (n : ℤ)
  | date (d : Date)
  /-- A function, such as the constructor that is a property of a decimal. -/
  | function
  /-- A decimal: the number that `toNumber` makes of it, and its own properties. -/
  | decimal (n : ν) (own : List (String × Value ν))
  | arr (items : List (Value ν))
  | obj (entries : List (String × Value ν))

/-- `SENSITIVE_KEYS`. -/
def SENSITIVE_KEYS : List String := [
  "passwordHash",
  "mfaSecretEnc",
  "mfaRecoveryCodes",
  "tokenHash",
  "configEnc",
  "password",
  "currentPassword",
  "newPassword"]

section Redaction

variable {ν : Type}

/-- `out[key] = value`. The key `__proto__` sets the prototype, and is no entry. -/
def setProperty (key : String) (value : Value ν) (out : List (String × Value ν)) : List (String × Value ν) :=
  if key = "__proto__" then out else mapSet key value out

variable (number : ℤ → ν)

mutual

/-- `redact`. -/
def redact (depth : ℕ) (value : Value ν) : Value ν :=
  match value with
  | .arr items => if depth > 8 then .arr items else .arr (redactItems (depth + 1) items)
  -- a decimal that is not a property is taken for an object
  | .decimal n own => if depth > 8 then .decimal n own else .obj (redactEntries depth own [])
  | .obj entries => if depth > 8 then .obj entries else .obj (redactEntries depth entries [])
  | value => value
termination_by structural value

/-- `value.map((v) => redact(v, depth))`. -/
def redactItems (depth : ℕ) (items : List (Value ν)) : List (Value ν) :=
  match items with
  | [] => []
  | item :: items => redact depth item :: redactItems depth items
termination_by structural items

/-- The loop of `redact` over the entries of an object. -/
def redactEntries (depth : ℕ) (entries out : List (String × Value ν)) : List (String × Value ν) :=
  match entries with
  | [] => out
  | (k, v) :: entries =>
    redactEntries depth entries (setProperty k
      (if k ∈ SENSITIVE_KEYS then .str "[redacted]"
        else match v with
          | .bigint n => .num (number n)
          | .decimal n _ => .num n
          | _ => redact (depth + 1) v) out)
termination_by structural entries

end

mutual

/-- `toSerializable`. -/
def toSerializable (depth : ℕ) (value : Value ν) : Value ν :=
  match value with
  | .bigint n => .num (number n)
  | .decimal n _ => .num n
  | .arr items => if depth > 32 then .arr items else .arr (serializableItems (depth + 1) items)
  | .obj entries => if depth > 32 then .obj entries else .obj (serializableEntries (depth + 1) entries [])
  | value => value
termination_by structural value

/-- `value.map((v) => toSerializable(v, depth))`. -/
def serializableItems (depth : ℕ) (items : List (Value ν)) : List (Value ν) :=
  match items with
  | [] => []
  | item :: items => toSerializable depth item :: serializableItems depth items
termination_by structural items

/-- The loop of `toSerializable` over the entries of an object. -/
def serializableEntries (depth : ℕ) (entries out : List (String × Value ν)) : List (String × Value ν) :=
  match entries with
  | [] => out
  | (k, v) :: entries => serializableEntries depth entries (setProperty k (toSerializable depth v) out)
termination_by structural entries

end

mutual

/-- A value without the secrets at any depth. -/
def masked (value : Value ν) : Value ν :=
  match value with
  | .arr items => .arr (maskedItems items)
  | .obj entries => .obj (maskedEntries entries)
  | value => value
termination_by structural value

/-- Items without secrets. -/
def maskedItems (items : List (Value ν)) : List (Value ν) :=
  match items with
  | [] => []
  | item :: items => masked item :: maskedItems items
termination_by structural items

/-- Entries without secrets. -/
def maskedEntries (entries : List (String × Value ν)) : List (String × Value ν) :=
  match entries with
  | [] => []
  | (k, v) :: entries => (k, if k ∈ SENSITIVE_KEYS then .str "[redacted]" else masked v) :: maskedEntries entries
termination_by structural entries

end

/-! ### Parts of a value -/

/-- The steps from a value to a part of it: into an array, or under a key of an object. -/
abbrev Path := List (Option String)

/-- A part of a value lies at the end of a path. -/
inductive Occurs : Value ν → Path → Value ν → Prop where
  | here (value : Value ν) : Occurs value [] value
  | element {items : List (Value ν)} {item part : Value ν} {path : Path} (hitem : item ∈ items)
    (h : Occurs item path part) : Occurs (.arr items) (none :: path) part
  | property {entries : List (String × Value ν)} {e : String × Value ν} {part : Value ν} {path : Path}
    (he : e ∈ entries) (h : Occurs e.2 path part) : Occurs (.obj entries) (some e.1 :: path) part

/-- No object has a key twice. -/
def Distinct (value : Value ν) : Prop :=
  ∀ path entries, Occurs value path (.obj entries) → (entries.map Prod.fst).Nodup

/-- What the two are called with: there are no functions but within decimals. -/
structure IsData (value : Value ν) : Prop where
  distinct : Distinct value
  functions : ∀ path, ¬ Occurs value path .function

/-- Under the sensitive keys of a value there is nothing but the text that says so. -/
def NoSecrets (value : Value ν) : Prop :=
  ∀ path k part, Occurs value (path ++ [some k]) part → k ∈ SENSITIVE_KEYS → part = .str "[redacted]"

/-- A value has no big integers. -/
def NoBigInts (value : Value ν) : Prop := ∀ path part, Occurs value path part → ∀ n, part ≠ .bigint n

/-- What is written to the audit trail has no secrets and no big integers, and is else what would be answered. -/
structure IsRedacted (value : Value ν) : Prop where
  secrets : NoSecrets (redact number 0 value)
  bigints : NoBigInts (redact number 0 value)
  /-- Everything else is as `toSerializable` leaves it. -/
  same : redact number 0 value = masked (toSerializable number 0 value)

/-- The path goes through a key that is redacted, or that is no entry. -/
def Hidden (path : Path) : Prop := ∃ k, some k ∈ path.take 9 ∧ (k ∈ SENSITIVE_KEYS ∨ k = "__proto__")

/-- The path ends with a key of an object at the depth 8 or less. -/
def UnderKey (path : Path) : Prop := path.length ≤ 9 ∧ ∃ k, path.getLast? = some (some k)

/-- A part that both functions make the same of, but for secrets. -/
structure Fits (path : Path) (part : Value ν) : Prop where
  /-- Big integers are under the keys that are looked at. -/
  bigint : ∀ n, part = .bigint n → UnderKey path
  /-- Decimals too, or below everything that is looked at. -/
  decimal : ∀ n own, part = .decimal n own → UnderKey path ∨ 33 < path.length
  /-- Below what is redacted, secrets are not there. -/
  secret : ∀ k, path.getLast? = some (some k) → k ∈ SENSITIVE_KEYS → part = .str "[redacted]"
  /-- Nor is there a prototype that one of the functions sets. -/
  proto : path.getLast? = some (some "__proto__") → 33 < path.length

end Redaction

/-! ### What the functions make of each kind of value -/

section Equations

variable {ν : Type}

/-- Induction over arrays and objects. -/
theorem Value.nested_induction {motive : Value ν → Prop} (other : ∀ value : Value ν, (∀ items, value ≠ .arr items) →
      (∀ entries, value ≠ .obj entries) → motive value)
    (arr : ∀ items, (∀ item ∈ items, motive item) → motive (.arr items))
    (obj : ∀ entries : List (String × Value ν), (∀ e ∈ entries, motive e.2) → motive (.obj entries)) (value : Value ν) :
    motive value := by
  refine @Value.rec ν motive (fun entries => ∀ e ∈ entries, motive e.2) (fun items => ∀ item ∈ items, motive item)
    (fun e => motive e.2) ?_ ?_ ?_ ?_ ?_ ?_ ?_ ?_ (fun _ _ _ => other _ nofun nofun) arr obj
    nofun (fun e es he hes => List.forall_mem_cons.mpr ⟨he, hes⟩)
    nofun (fun v vs hv hvs => List.forall_mem_cons.mpr ⟨hv, hvs⟩) (fun _ _ h => h) value
  all_goals intros; exact other _ nofun nofun

/-- The entries that are kept. -/
def kept (entries : List (String × Value ν)) : List (String × Value ν) := entries.filter fun e => e.1 ≠ "__proto__"

/-- Entries with different keys are set one after the other. -/
theorem foldl_setProperty (f : String × Value ν → Value ν) {entries : List (String × Value ν)}
    (h : (entries.map Prod.fst).Nodup) :
    entries.foldl (fun out e => setProperty e.1 (f e) out) [] = (kept entries).map fun e => (e.1, f e) := by
  have hfold : ∀ (es out : List (String × Value ν)), es.foldl (fun out e => setProperty e.1 (f e) out) out =
      ((kept es).map fun e => (e.1, f e)).foldl (fun out e => mapSet e.1 e.2 out) out := by
    intro es
    induction es with
    | nil => exact fun _ => rfl
    | cons e es ih =>
      intro out
      rw [List.foldl_cons, ih, setProperty]
      by_cases hproto : e.1 = "__proto__" <;> simp [hproto, kept]
  have hkeys : (((kept entries).map fun e => (e.1, f e)).map Prod.fst).Nodup := by
    rw [List.map_map]
    exact h.sublist (List.filter_sublist.map _)
  rw [hfold]
  exact mapOf_of_nodup hkeys

variable (number : ℤ → ν)

/-- What `redact` sets a property to. -/
def redactProperty (depth : ℕ) (e : String × Value ν) : Value ν :=
  if e.1 ∈ SENSITIVE_KEYS then .str "[redacted]"
  else match e.2 with
    | .bigint n => .num (number n)
    | .decimal n _ => .num n
    | v => redact number (depth + 1) v

theorem redactItems_eq (depth : ℕ) (items : List (Value ν)) :
    redactItems number depth items = items.map (redact number depth) := by
  induction items with
  | nil => rfl
  | cons item items ih => rw [redactItems, ih, List.map_cons]

theorem redactEntries_eq (depth : ℕ) (entries out : List (String × Value ν)) : redactEntries number depth entries out =
    entries.foldl (fun out e => setProperty e.1 (redactProperty number depth e) out) out := by
  induction entries generalizing out with
  | nil => rfl
  | cons e entries ih =>
    obtain ⟨k, v⟩ := e
    rw [redactEntries.eq_def]
    cases v <;> exact ih _

/-- Deep in a value nothing is redacted. -/
theorem redact_of_deep {depth : ℕ} (h : 8 < depth) (value : Value ν) : redact number depth value = value := by
  cases value <;> simp [redact, h]

theorem redact_arr (depth : ℕ) (items : List (Value ν)) :
    redact number depth (.arr items) = .arr (items.map (redact number (depth + 1))) := by
  by_cases h : 8 < depth
  · have hid : redact number (depth + 1) = (id : Value ν → Value ν) :=
      funext (redact_of_deep number (Nat.lt_succ_of_lt h))
    rw [redact_of_deep number h, hid, List.map_id]
  · rw [redact, if_neg h, redactItems_eq]

theorem redact_obj {depth : ℕ} (hdepth : depth ≤ 8) {entries : List (String × Value ν)}
    (h : (entries.map Prod.fst).Nodup) :
    redact number depth (.obj entries) = .obj ((kept entries).map fun e => (e.1, redactProperty number depth e)) := by
  rw [redact, if_neg (Nat.not_lt.mpr hdepth), redactEntries_eq, foldl_setProperty _ h]

theorem serializableItems_eq (depth : ℕ) (items : List (Value ν)) :
    serializableItems number depth items = items.map (toSerializable number depth) := by
  induction items with
  | nil => rfl
  | cons item items ih => rw [serializableItems, ih, List.map_cons]

theorem serializableEntries_eq (depth : ℕ) (entries out : List (String × Value ν)) :
    serializableEntries number depth entries out =
      entries.foldl (fun out e => setProperty e.1 (toSerializable number depth e.2) out) out := by
  induction entries generalizing out with
  | nil => rfl
  | cons e entries ih => rw [serializableEntries, ih, List.foldl_cons]

/-- What `toSerializable` leaves at a depth, which it does not look at below 33. -/
def served (depth : ℕ) (value : Value ν) : Value ν := if 33 < depth then value else toSerializable number depth value

theorem served_of_deep {depth : ℕ} (h : 33 < depth) (value : Value ν) : served number depth value = value := if_pos h

theorem served_of_le {depth : ℕ} (h : depth ≤ 33) (value : Value ν) :
    served number depth value = toSerializable number depth value :=
  if_neg (Nat.not_lt.mpr h)

theorem served_below {depth : ℕ} (h : 32 < depth) : served number (depth + 1) = id :=
  funext (served_of_deep number (Nat.succ_lt_succ h))

theorem served_arr (depth : ℕ) (items : List (Value ν)) :
    served number depth (.arr items) = .arr (items.map (served number (depth + 1))) := by
  by_cases h : 32 < depth
  · rw [served_below number h, List.map_id, served, toSerializable, if_pos h, ite_self]
  · have hnext : depth + 1 ≤ 33 := by omega
    rw [served_of_le number (Nat.le_of_succ_le hnext), toSerializable, if_neg h, serializableItems_eq]
    exact congrArg _ (List.map_congr_left fun item _ => (served_of_le number hnext item).symm)

theorem served_obj (depth : ℕ) {entries : List (String × Value ν)} (h : (entries.map Prod.fst).Nodup) :
    served number depth (.obj entries) =
      .obj ((if 32 < depth then entries else kept entries).map fun e => (e.1, served number (depth + 1) e.2)) := by
  by_cases hdepth : 32 < depth
  · rw [if_pos hdepth, served_below number hdepth, served, toSerializable, if_pos hdepth, ite_self]
    exact congrArg _ (List.map_id _).symm
  · have hnext : depth + 1 ≤ 33 := by omega
    rw [if_neg hdepth, served_of_le number (Nat.le_of_succ_le hnext), toSerializable, if_neg hdepth,
      serializableEntries_eq, foldl_setProperty (fun e => toSerializable number (depth + 1) e.2) h]
    exact congrArg _ (List.map_congr_left fun e _ => by rw [served_of_le number hnext])

theorem masked_arr (items : List (Value ν)) : masked (.arr items) = .arr (items.map masked) := by
  have hitems : maskedItems items = items.map masked := by
    induction items with
    | nil => rfl
    | cons item items ih => rw [maskedItems, ih, List.map_cons]
  rw [masked, hitems]

theorem masked_obj (entries : List (String × Value ν)) : masked (.obj entries) =
    .obj (entries.map fun e => (e.1, if e.1 ∈ SENSITIVE_KEYS then .str "[redacted]" else masked e.2)) := by
  have hentries : maskedEntries entries =
      entries.map fun e => (e.1, if e.1 ∈ SENSITIVE_KEYS then .str "[redacted]" else masked e.2) := by
    induction entries with
    | nil => rfl
    | cons e entries ih => rw [maskedEntries, ih, List.map_cons]
  rw [masked, hentries]

end Equations

/-! ### Parts of each kind of value -/

section Parts

variable {ν : Type}

theorem occurs_arr_iff {items : List (Value ν)} {path : Path} {part : Value ν} : Occurs (.arr items) path part ↔
    (path = [] ∧ part = .arr items) ∨ ∃ item ∈ items, ∃ rest, path = none :: rest ∧ Occurs item rest part := by
  constructor
  · rintro (_ | ⟨hitem, h⟩)
    · exact .inl ⟨rfl, rfl⟩
    · exact .inr ⟨_, hitem, _, rfl, h⟩
  · rintro (⟨rfl, rfl⟩ | ⟨item, hitem, rest, rfl, h⟩)
    · exact .here _
    · exact .element hitem h

theorem occurs_obj_iff {entries : List (String × Value ν)} {path : Path} {part : Value ν} :
    Occurs (.obj entries) path part ↔ (path = [] ∧ part = .obj entries) ∨
      ∃ e ∈ entries, ∃ rest, path = some e.1 :: rest ∧ Occurs e.2 rest part := by
  constructor
  · rintro (_ | _ | ⟨he, h⟩)
    · exact .inl ⟨rfl, rfl⟩
    · exact .inr ⟨_, he, _, rfl, h⟩
  · rintro (⟨rfl, rfl⟩ | ⟨e, he, rest, rfl, h⟩)
    · exact .here _
    · exact .property he h

theorem occurs_other {value : Value ν} (harr : ∀ items, value ≠ .arr items) (hobj : ∀ entries, value ≠ .obj entries)
    {path : Path} {part : Value ν} : Occurs value path part ↔ path = [] ∧ part = value := by
  constructor
  · rintro (_ | _ | _)
    · exact ⟨rfl, rfl⟩
    · exact absurd rfl (harr _)
    · exact absurd rfl (hobj _)
  · rintro ⟨rfl, rfl⟩
    exact .here _

theorem occurs_str {s : String} {path : Path} {part : Value ν} : Occurs (.str s) path part ↔ path = [] ∧ part = .str s :=
  occurs_other (by rintro _ ⟨⟩) (by rintro _ ⟨⟩)

/-- What holds of all parts of an array holds of it and of the parts of its items. -/
theorem forall_occurs_arr {items : List (Value ν)} {p : Path → Value ν → Prop} :
    (∀ path part, Occurs (.arr items) path part → p path part) ↔
      p [] (.arr items) ∧ ∀ item ∈ items, ∀ path part, Occurs item path part → p (none :: path) part := by
  constructor
  · exact fun h => ⟨h _ _ (.here _), fun item hitem path part hpart => h _ _ (.element hitem hpart)⟩
  · rintro ⟨hhere, hitems⟩ path part hpart
    obtain ⟨rfl, rfl⟩ | ⟨item, hitem, rest, rfl, hinside⟩ := occurs_arr_iff.mp hpart
    · exact hhere
    · exact hitems item hitem rest part hinside

/-- What holds of all parts of an object holds of it and of the parts of its properties. -/
theorem forall_occurs_obj {entries : List (String × Value ν)} {p : Path → Value ν → Prop} :
    (∀ path part, Occurs (.obj entries) path part → p path part) ↔
      p [] (.obj entries) ∧ ∀ e ∈ entries, ∀ path part, Occurs e.2 path part → p (some e.1 :: path) part := by
  constructor
  · exact fun h => ⟨h _ _ (.here _), fun e he path part hpart => h _ _ (.property he hpart)⟩
  · rintro ⟨hhere, hentries⟩ path part hpart
    obtain ⟨rfl, rfl⟩ | ⟨e, he, rest, rfl, hinside⟩ := occurs_obj_iff.mp hpart
    · exact hhere
    · exact hentries e he rest part hinside

theorem noBigInts_arr (items : List (Value ν)) : NoBigInts (.arr items) ↔ ∀ item ∈ items, NoBigInts item :=
  forall_occurs_arr.trans (and_iff_right nofun)

theorem noBigInts_obj (entries : List (String × Value ν)) : NoBigInts (.obj entries) ↔ ∀ e ∈ entries, NoBigInts e.2 :=
  forall_occurs_obj.trans (and_iff_right nofun)

theorem distinct_arr {items : List (Value ν)} : Distinct (.arr items) ↔ ∀ item ∈ items, Distinct item := by
  constructor
  · exact fun h item hitem path entries hpart => h _ _ (.element hitem hpart)
  · intro h path entries hpart
    obtain ⟨-, heq⟩ | ⟨item, hitem, rest, -, hpart⟩ := occurs_arr_iff.mp hpart
    · cases heq
    · exact h item hitem rest entries hpart

theorem distinct_obj {entries : List (String × Value ν)} :
    Distinct (.obj entries) ↔ (entries.map Prod.fst).Nodup ∧ ∀ e ∈ entries, Distinct e.2 := by
  constructor
  · exact fun h => ⟨h _ _ (.here _), fun e he path part hpart => h _ _ (.property he hpart)⟩
  · rintro ⟨hhere, hentries⟩ path part hpart
    obtain ⟨-, heq⟩ | ⟨e, he, rest, -, hpart⟩ := occurs_obj_iff.mp hpart
    · cases heq
      exact hhere
    · exact hentries e he rest part hpart

theorem distinct_other {value : Value ν} (harr : ∀ items, value ≠ .arr items) (hobj : ∀ entries, value ≠ .obj entries) :
    Distinct value :=
  fun _ entries hpart => absurd ((occurs_other harr hobj).mp hpart).2.symm (hobj entries)

/-- A masked value has no secrets. -/
theorem noSecrets_masked (value : Value ν) : NoSecrets (masked value) := by
  have hlast {path : Path} {s : Option String} {rest : Path} {k : String} (h : path ++ [some k] = s :: rest) :
      (rest = [] ∧ s = some k) ∨ ∃ path', rest = path' ++ [some k] := by
    cases path with
    | nil =>
      obtain ⟨rfl, rfl⟩ := List.cons.inj h
      exact .inl ⟨rfl, rfl⟩
    | cons s' path' => exact .inr ⟨path', (List.cons.inj h).2.symm⟩
  induction value using Value.nested_induction with
  | other value harr hobj =>
    intro path k part h
    have hmasked : masked value = value := by
      cases value <;> first | rfl | exact absurd rfl (harr _) | exact absurd rfl (hobj _)
    rw [hmasked, occurs_other harr hobj] at h
    exact absurd h.1 (List.append_ne_nil_of_right_ne_nil _ (List.cons_ne_nil _ _))
  | arr items ih =>
    intro path k part h
    rw [masked_arr, occurs_arr_iff] at h
    obtain ⟨h, -⟩ | ⟨item, hitem, rest, h, hpart⟩ := h
    · exact absurd h (List.append_ne_nil_of_right_ne_nil _ (List.cons_ne_nil _ _))
    · obtain ⟨item', hitem', rfl⟩ := List.mem_map.mp hitem
      obtain ⟨-, hkey⟩ | ⟨path', rfl⟩ := hlast h
      · cases hkey
      · exact ih item' hitem' path' k part hpart
  | obj entries ih =>
    intro path k part h hk
    rw [masked_obj, occurs_obj_iff] at h
    obtain ⟨h, -⟩ | ⟨e, he, rest, h, hpart⟩ := h
    · exact absurd h (List.append_ne_nil_of_right_ne_nil _ (List.cons_ne_nil _ _))
    · obtain ⟨e', he', rfl⟩ := List.mem_map.mp he
      dsimp only at h hpart
      obtain ⟨-, hkey⟩ | ⟨path', rfl⟩ := hlast h
      · rw [Option.some.injEq] at hkey
        rw [if_pos (hkey ▸ hk), occurs_str] at hpart
        exact hpart.2
      · by_cases hkey : e'.1 ∈ SENSITIVE_KEYS
        · rw [if_pos hkey, occurs_str] at hpart
          exact absurd hpart.1 (List.append_ne_nil_of_right_ne_nil _ (List.cons_ne_nil _ _))
        · rw [if_neg hkey] at hpart
          exact ih e' he' path' k part hpart hk

end Parts

/-! ### Where the two functions agree -/

section Agreement

variable {ν : Type} (number : ℤ → ν)

/-- From a depth on, nothing is lost but secrets and the form of numbers. -/
def Agrees (depth : ℕ) (value : Value ν) : Prop :=
  NoBigInts (redact number depth value) ∧ redact number depth value = masked (served number depth value)

/-- A number that is made plain where it is a property. -/
def IsBig (value : Value ν) : Prop := (∃ n, value = .bigint n) ∨ ∃ n own, value = .decimal n own

theorem agrees_arr (depth : ℕ) (items : List (Value ν)) :
    Agrees number depth (.arr items) ↔ ∀ item ∈ items, Agrees number (depth + 1) item := by
  rw [Agrees, redact_arr, served_arr, masked_arr, noBigInts_arr, List.forall_mem_map, Value.arr.injEq, List.map_map,
    List.map_inj_left, ← forall₂_and]
  rfl

theorem noBigInts_str (s : String) : NoBigInts (.str s : Value ν) := by
  intro path part hpart n
  rw [(occurs_str.mp hpart).2]
  exact nofun

theorem noBigInts_num (n : ν) : NoBigInts (.num n) := by
  intro path part hpart n
  rw [((occurs_other (by rintro _ ⟨⟩) (by rintro _ ⟨⟩)).mp hpart).2]
  exact nofun

/-- Under a key that is looked at, numbers are made plain, too. -/
theorem agrees_property {depth : ℕ} (hdepth : depth ≤ 8) (e : String × Value ν) :
    (NoBigInts (redactProperty number depth e) ∧ redactProperty number depth e =
        if e.1 ∈ SENSITIVE_KEYS then .str "[redacted]" else masked (served number (depth + 1) e.2)) ↔
      e.1 ∈ SENSITIVE_KEYS ∨ IsBig e.2 ∨ Agrees number (depth + 1) e.2 := by
  obtain ⟨k, v⟩ := e
  rw [redactProperty]
  by_cases hkey : k ∈ SENSITIVE_KEYS
  · rw [if_pos hkey, if_pos hkey]
    exact iff_of_true ⟨noBigInts_str _, rfl⟩ (.inl hkey)
  · rw [if_neg hkey, if_neg hkey, or_iff_right hkey, served_of_le number (by omega)]
    cases v with
    | bigint n => exact iff_of_true ⟨noBigInts_num _, rfl⟩ (.inl (.inl ⟨n, rfl⟩))
    | decimal n own => exact iff_of_true ⟨noBigInts_num _, rfl⟩ (.inl (.inr ⟨n, own, rfl⟩))
    | _ =>
      rw [or_iff_right (by rintro (⟨_, h⟩ | ⟨_, _, h⟩) <;> cases h), Agrees, served_of_le number (by omega)]

theorem agrees_obj_of_le {depth : ℕ} (hdepth : depth ≤ 8) {entries : List (String × Value ν)}
    (h : (entries.map Prod.fst).Nodup) : Agrees number depth (.obj entries) ↔
      ∀ e ∈ entries, e.1 = "__proto__" ∨ e.1 ∈ SENSITIVE_KEYS ∨ IsBig e.2 ∨ Agrees number (depth + 1) e.2 := by
  have hserved : (if 32 < depth then entries else kept entries) = kept entries := if_neg (by omega)
  rw [Agrees, redact_obj number hdepth h, served_obj number depth h, hserved, masked_obj, noBigInts_obj,
    List.forall_mem_map, Value.obj.injEq, List.map_map, List.map_inj_left, ← forall₂_and, kept, List.forall_mem_filter]
  refine forall₂_congr fun e _ => ?_
  rw [decide_eq_true_eq, ← agrees_property number hdepth e, or_iff_not_imp_left]
  exact imp_congr_right fun _ => and_congr_right fun _ => by simp

theorem agrees_obj_of_lt {depth : ℕ} (hdepth : 8 < depth) {entries : List (String × Value ν)}
    (h : (entries.map Prod.fst).Nodup) : Agrees number depth (.obj entries) ↔
      ∀ e ∈ entries, (e.1 ∈ SENSITIVE_KEYS → e.2 = .str "[redacted]") ∧ (e.1 = "__proto__" → 32 < depth) ∧
        Agrees number (depth + 1) e.2 := by
  have hmap (es : List (String × Value ν)) : es.map (fun e => (e.1, if e.1 ∈ SENSITIVE_KEYS then .str "[redacted]"
        else masked (served number (depth + 1) e.2))) = es ↔
      ∀ e ∈ es, e.2 = if e.1 ∈ SENSITIVE_KEYS then .str "[redacted]" else masked (served number (depth + 1) e.2) := by
    conv_lhs => rhs; rw [← List.map_id es]
    rw [List.map_inj_left]
    exact forall₂_congr fun e _ => by rw [id, Prod.ext_iff, and_iff_right rfl, eq_comm]
  have hkept (es : List (String × Value ν)) (g : String × Value ν → String × Value ν) :
      es = (kept es).map g → kept es = es := by
    intro heq
    refine (List.filter_sublist).eq_of_length ?_
    conv_rhs => rw [heq, List.length_map]
    rfl
  rw [Agrees, redact_of_deep number hdepth, served_obj number depth h, masked_obj, noBigInts_obj, Value.obj.injEq,
    List.map_map]
  constructor
  · rintro ⟨hbig, heq⟩ e he
    have hsame : (if 32 < depth then entries else kept entries) = entries := by
      by_cases hdeep : 32 < depth
      · rw [if_pos hdeep]
      · rw [if_neg hdeep] at heq ⊢
        exact hkept _ _ heq
    rw [hsame] at heq
    have hvalue := (hmap entries).mp heq.symm e he
    refine ⟨fun hkey => by rw [hvalue, if_pos hkey], fun hproto => ?_, ?_⟩
    · by_contra hdeep
      rw [if_neg hdeep] at hsame
      exact absurd hproto (of_decide_eq_true (List.filter_eq_self.mp hsame e he))
    · rw [Agrees, redact_of_deep number (by omega)]
      refine ⟨hbig e he, ?_⟩
      by_cases hkey : e.1 ∈ SENSITIVE_KEYS
      · rw [hvalue, if_pos hkey, served]
        split <;> rfl
      · rwa [if_neg hkey] at hvalue
  · intro hall
    have hsame : (if 32 < depth then entries else kept entries) = entries := by
      by_cases hdeep : 32 < depth
      · rw [if_pos hdeep]
      · rw [if_neg hdeep, kept, List.filter_eq_self]
        exact fun e he => decide_eq_true fun hproto => hdeep ((hall e he).2.1 hproto)
    rw [hsame]
    refine ⟨fun e he => ?_, ((hmap entries).mpr fun e he => ?_).symm⟩
    · have hbig := (hall e he).2.2.1
      rwa [redact_of_deep number (by omega)] at hbig
    · have hsame := (hall e he).2.2.2
      rw [redact_of_deep number (by omega)] at hsame
      by_cases hkey : e.1 ∈ SENSITIVE_KEYS
      · rw [if_pos hkey]
        exact (hall e he).1 hkey
      · rwa [if_neg hkey]

theorem agrees_bigint (depth : ℕ) (n : ℤ) : ¬ Agrees number depth (.bigint n) :=
  fun h => h.1 [] (.bigint n) (.here _) n rfl

theorem agrees_decimal (depth : ℕ) (n : ν) (own : List (String × Value ν)) :
    Agrees number depth (.decimal n own) ↔ 33 < depth := by
  constructor
  · rintro ⟨-, h⟩
    by_contra hdepth
    rw [served_of_le number (Nat.not_lt.mp hdepth), redact] at h
    split at h <;> cases h
  · intro hdepth
    rw [Agrees, redact_of_deep number (by omega), served_of_deep number hdepth]
    refine ⟨fun path part hpart n => ?_, rfl⟩
    rw [((occurs_other (by rintro _ ⟨⟩) (by rintro _ ⟨⟩)).mp hpart).2]
    exact nofun

/-- Of any other value that is not nested, both functions make nothing else. -/
theorem agrees_other {value : Value ν} (harr : ∀ items, value ≠ .arr items) (hobj : ∀ entries, value ≠ .obj entries)
    (hbig : ¬ IsBig value) (depth : ℕ) : Agrees number depth value := by
  have hbigints : NoBigInts value := by
    intro path part hpart n hn
    exact hbig (.inl ⟨n, ((occurs_other harr hobj).mp hpart).2 ▸ hn⟩)
  cases value with
  | arr items => exact absurd rfl (harr items)
  | obj entries => exact absurd rfl (hobj entries)
  | bigint n => exact absurd (.inl ⟨n, rfl⟩) hbig
  | decimal n own => exact absurd (.inr ⟨n, own, rfl⟩) hbig
  | _ => exact ⟨hbigints, by rw [served]; split <;> rfl⟩

end Agreement

/-! ### What is shown -/

section Shown

variable {ν : Type}

/-- All parts of the value at the end of a path fit, if they are shown. -/
def Shown (path : Path) (value : Value ν) : Prop :=
  ∀ rest part, Occurs value rest part → ¬ Hidden (path ++ rest) → Fits (path ++ rest) part

/-- A value fits the key at the end of a path. -/
def KeyFits (path : Path) (value : Value ν) : Prop :=
  (∀ k, path.getLast? = some (some k) → k ∈ SENSITIVE_KEYS → value = .str "[redacted]") ∧
    (path.getLast? = some (some "__proto__") → 33 < path.length)

theorem Hidden.append {path : Path} (h : Hidden path) (rest : Path) : Hidden (path ++ rest) := by
  obtain ⟨k, hk, hkey⟩ := h
  rw [Hidden, List.take_append]
  exact ⟨k, List.mem_append_left _ hk, hkey⟩

theorem hidden_element {path : Path} : Hidden (path ++ [none]) ↔ Hidden path := by
  refine ⟨fun ⟨k, hk, hkey⟩ => ⟨k, ?_, hkey⟩, fun h => h.append _⟩
  rw [List.take_append, List.mem_append] at hk
  exact hk.resolve_right fun h => by cases List.mem_singleton.mp (List.mem_of_mem_take h)

theorem hidden_property {path : Path} {k : String} (h : ¬ Hidden path) :
    Hidden (path ++ [some k]) ↔ path.length ≤ 8 ∧ (k ∈ SENSITIVE_KEYS ∨ k = "__proto__") := by
  constructor
  · rintro ⟨k', hk', hkey⟩
    rw [List.take_append, List.mem_append] at hk'
    have hlast := hk'.resolve_left fun hpath => h ⟨k', hpath, hkey⟩
    obtain ⟨rfl⟩ := Option.some.inj (List.mem_singleton.mp (List.mem_of_mem_take hlast))
    refine ⟨?_, hkey⟩
    by_contra hlong
    rw [show 9 - path.length = 0 by omega, List.take_zero] at hlast
    exact absurd hlast List.not_mem_nil
  · rintro ⟨hlength, hkey⟩
    refine ⟨k, ?_, hkey⟩
    rw [List.take_of_length_le (by rw [List.length_append, List.length_singleton]; omega)]
    exact List.mem_append_right _ List.mem_cons_self

theorem shown_of_hidden {path : Path} (h : Hidden path) (value : Value ν) : Shown path value :=
  fun rest _ _ hhidden => absurd (h.append rest) hhidden

theorem shown_arr {path : Path} (h : ¬ Hidden path) (items : List (Value ν)) :
    Shown path (.arr items) ↔ KeyFits path (.arr items) ∧ ∀ item ∈ items, Shown (path ++ [none]) item := by
  rw [Shown, forall_occurs_arr, List.append_nil]
  refine and_congr ⟨fun hfits => ⟨(hfits h).secret, (hfits h).proto⟩, fun hkey _ => ⟨nofun, nofun, hkey.1, hkey.2⟩⟩ ?_
  simp only [Shown, List.append_assoc, List.singleton_append]

theorem shown_obj {path : Path} (h : ¬ Hidden path) (entries : List (String × Value ν)) :
    Shown path (.obj entries) ↔ KeyFits path (.obj entries) ∧ ∀ e ∈ entries, Shown (path ++ [some e.1]) e.2 := by
  rw [Shown, forall_occurs_obj, List.append_nil]
  refine and_congr ⟨fun hfits => ⟨(hfits h).secret, (hfits h).proto⟩, fun hkey _ => ⟨nofun, nofun, hkey.1, hkey.2⟩⟩ ?_
  simp only [Shown, List.append_assoc, List.singleton_append]

theorem shown_other {path : Path} (h : ¬ Hidden path) {value : Value ν} (harr : ∀ items, value ≠ .arr items)
    (hobj : ∀ entries, value ≠ .obj entries) : Shown path value ↔ Fits path value := by
  constructor
  · intro hshown
    have hfits := hshown [] value (.here _)
    rw [List.append_nil] at hfits
    exact hfits h
  · intro hfits rest part hpart _
    obtain ⟨rfl, rfl⟩ := (occurs_other harr hobj).mp hpart
    rwa [List.append_nil]

theorem not_underKey_element (path : Path) : ¬ UnderKey (path ++ [none]) := by
  rintro ⟨-, k, hk⟩
  rw [List.getLast?_concat] at hk
  cases hk

theorem underKey_property {path : Path} {k : String} : UnderKey (path ++ [some k]) ↔ path.length ≤ 8 := by
  rw [UnderKey, List.getLast?_concat, List.length_append, List.length_singleton, Nat.succ_le_succ_iff]
  exact and_iff_left ⟨k, rfl⟩

theorem keyFits_element (path : Path) (value : Value ν) : KeyFits (path ++ [none]) value := by
  rw [KeyFits, List.getLast?_concat]
  exact ⟨nofun, nofun⟩

theorem keyFits_property {path : Path} {k : String} {value : Value ν} : KeyFits (path ++ [some k]) value ↔
    (k ∈ SENSITIVE_KEYS → value = .str "[redacted]") ∧ (k = "__proto__" → 32 < path.length) := by
  rw [KeyFits, List.getLast?_concat, List.length_append, List.length_singleton, Nat.succ_lt_succ_iff]
  simp only [Option.some.injEq, forall_eq']

/-- The parts that are shown fit if both functions agree, or the value is a number under a key. -/
theorem shown_iff (number : ℤ → ν) {path : Path} (hpath : ¬ Hidden path) {value : Value ν} (h : Distinct value) :
    Shown path value ↔ KeyFits path value ∧ (UnderKey path ∧ IsBig value ∨ Agrees number path.length value) := by
  induction value using Value.nested_induction generalizing path with
  | other value harr hobj =>
    rw [shown_other hpath harr hobj]
    by_cases hbig : IsBig value
    · obtain ⟨n, rfl⟩ | ⟨n, own, rfl⟩ := id hbig
      · rw [or_iff_left (agrees_bigint number _ n), and_iff_left hbig]
        exact ⟨fun hfits => ⟨⟨hfits.secret, hfits.proto⟩, hfits.bigint n rfl⟩,
          fun ⟨hkey, hunder⟩ => ⟨fun _ _ => hunder, nofun, hkey.1, hkey.2⟩⟩
      · rw [agrees_decimal, and_iff_left hbig]
        exact ⟨fun hfits => ⟨⟨hfits.secret, hfits.proto⟩, hfits.decimal n own rfl⟩,
          fun ⟨hkey, hplace⟩ => ⟨nofun, fun _ _ _ => hplace, hkey.1, hkey.2⟩⟩
    · rw [and_iff_left (.inr (agrees_other number harr hobj hbig _))]
      exact ⟨fun hfits => ⟨hfits.secret, hfits.proto⟩, fun hkey =>
        ⟨fun n hn => absurd (.inl ⟨n, hn⟩) hbig, fun n own hn => absurd (.inr ⟨n, own, hn⟩) hbig, hkey.1, hkey.2⟩⟩
  | arr items ih =>
    rw [shown_arr hpath, agrees_arr, or_iff_right (by rintro ⟨-, ⟨_, h⟩ | ⟨_, _, h⟩⟩ <;> cases h)]
    refine and_congr_right fun _ => forall₂_congr fun item hitem => ?_
    rw [ih item hitem (mt hidden_element.mp hpath) (distinct_arr.mp h item hitem),
      and_iff_right (keyFits_element path item), or_iff_right fun h => not_underKey_element path h.1, List.length_append,
      List.length_singleton]
  | obj entries ih =>
    obtain ⟨hkeys, hentries⟩ := distinct_obj.mp h
    rw [shown_obj hpath, or_iff_right (by rintro ⟨-, ⟨_, h⟩ | ⟨_, _, h⟩⟩ <;> cases h)]
    refine and_congr_right fun _ => ?_
    by_cases hlength : path.length ≤ 8
    · rw [agrees_obj_of_le number hlength hkeys]
      refine forall₂_congr fun e he => ?_
      by_cases hkey : e.1 ∈ SENSITIVE_KEYS ∨ e.1 = "__proto__"
      · refine iff_of_true (shown_of_hidden ((hidden_property hpath).mpr ⟨hlength, hkey⟩) e.2) ?_
        exact hkey.elim (fun hsensitive => .inr (.inl hsensitive)) .inl
      · rw [ih e he (fun hhidden => hkey ((hidden_property hpath).mp hhidden).2) (hentries e he), keyFits_property,
          underKey_property, and_iff_right hlength, List.length_append, List.length_singleton]
        rw [not_or] at hkey
        rw [or_iff_right hkey.2, or_iff_right hkey.1]
        exact and_iff_right ⟨fun hsensitive => absurd hsensitive hkey.1, fun hproto => absurd hproto hkey.2⟩
    · rw [agrees_obj_of_lt number (by omega) hkeys]
      refine forall₂_congr fun e he => ?_
      rw [ih e he (fun hhidden => hlength ((hidden_property hpath).mp hhidden).1) (hentries e he), keyFits_property,
        underKey_property, or_iff_right fun hunder => hlength hunder.1, List.length_append, List.length_singleton,
        and_assoc]

/-- **What is written to the audit trail** is the answer without the secrets, and without big integers, exactly if all
parts of the value fit that are not under a key that is redacted. -/
theorem redact_iff (number : ℤ → ν) {value : Value ν} (h : IsData value) :
    IsRedacted number value ↔ ∀ path part, Occurs value path part → ¬ Hidden path → Fits path part := by
  have hroot : ¬ Hidden [] := by
    rintro ⟨k, hk, -⟩
    cases hk
  have hshown := shown_iff number hroot h.distinct
  rw [and_iff_right ⟨nofun, nofun⟩, or_iff_right (by rintro ⟨⟨-, _, h⟩, -⟩; cases h)] at hshown
  refine Iff.trans ?_ hshown.symm
  rw [Agrees, List.length_nil, served_of_le number (Nat.zero_le _)]
  exact ⟨fun ⟨_, hbigints, hsame⟩ => ⟨hbigints, hsame⟩,
    fun ⟨hbigints, hsame⟩ => ⟨hsame ▸ noSecrets_masked _, hbigints, hsame⟩⟩

end Shown

/-- A user with the size of an avatar. -/
def avatar : Value ℤ :=
  .obj [("email", .str "a@b.c"), ("passwordHash", .str "x"), ("avatar", .obj [("sizeBytes", .bigint 5)])]

/-- It is redacted. -/
theorem avatar_redacted : IsRedacted id avatar := by
  refine (redact_iff id ⟨?_, ?_⟩).mpr ?_
  · simp [avatar, distinct_obj, distinct_other]
  · simp [avatar, occurs_obj_iff, occurs_other]
  · have hplain {k : String} (hk : k ∉ SENSITIVE_KEYS) (hproto : k ≠ "__proto__") (path : Path) (value : Value ℤ) :
        KeyFits (path ++ [some k]) value :=
      keyFits_property.mpr ⟨fun h => absurd h hk, fun h => absurd h hproto⟩
    simp only [avatar, forall_occurs_obj, List.forall_mem_cons]
    refine ⟨fun _ => ⟨nofun, nofun, nofun, nofun⟩, fun path part hpart _ => ?_, fun path part _ h => ?_, ⟨?_, ?_⟩, nofun⟩
    · obtain ⟨rfl, rfl⟩ := occurs_str.mp hpart
      obtain ⟨hsecret, hproto⟩ := @hplain "email" (by decide) (by decide) [] (.str "a@b.c")
      exact ⟨nofun, nofun, hsecret, hproto⟩
    · exact absurd ⟨"passwordHash", List.mem_cons_self, .inl (by decide)⟩ h
    · obtain ⟨hsecret, hproto⟩ := @hplain "avatar" (by decide) (by decide) [] (.obj [("sizeBytes", .bigint 5)])
      exact fun _ => ⟨nofun, nofun, hsecret, hproto⟩
    · refine ⟨fun path part hpart _ => ?_, nofun⟩
      obtain ⟨rfl, rfl⟩ := (occurs_other (by rintro _ ⟨⟩) (by rintro _ ⟨⟩)).mp hpart
      obtain ⟨hsecret, hproto⟩ := @hplain "sizeBytes" (by decide) (by decide) [some "avatar"] (.bigint 5)
      exact ⟨fun _ _ => ⟨by decide, _, rfl⟩, nofun, hsecret, hproto⟩

/-- The sizes of two documents. -/
def sizes : Value ℤ := .obj [("sizeBytes", .arr [.bigint 5, .bigint 7])]

/-- A user in the innermost of nine objects. -/
def innermost : Value ℤ :=
  Nat.iterate (fun value => .obj [("before", value)]) 9 (.obj [("passwordHash", .str "x")])

/-- The big integers of an array stay, and so does a secret that lies deep. -/
theorem sizes_not_redacted :
    ¬ (∀ value : Value ℤ, IsData value → IsRedacted id value) ∧ redact id 0 sizes = sizes ∧
      redact id 0 innermost = innermost ∧ ¬ NoBigInts (redact id 0 sizes) ∧ ¬ NoSecrets (redact id 0 innermost) := by
  have hsizes : redact id 0 sizes = sizes := rfl
  have hinnermost : redact id 0 innermost = innermost := rfl
  have hbigint : ¬ NoBigInts (redact id 0 sizes) := by
    rw [hsizes]
    exact fun h => h _ (.bigint 5) (.property List.mem_cons_self (.element List.mem_cons_self (.here _))) 5 rfl
  have hsecret : ¬ NoSecrets (redact id 0 innermost) := by
    rw [hinnermost]
    intro h
    have hplace : Occurs innermost (List.replicate 9 (some "before") ++ [some "passwordHash"]) (.str "x") := by
      iterate 10 refine .property List.mem_cons_self ?_
      exact .here _
    exact absurd (Value.str.inj (h _ _ _ hplace (by decide))) (by decide)
  refine ⟨fun h => hbigint (h sizes ⟨?_, ?_⟩).bigints, hsizes, hinnermost, hbigint, hsecret⟩
  · simp [sizes, distinct_obj, distinct_arr, distinct_other]
  · simp [sizes, occurs_obj_iff, occurs_arr_iff, occurs_other]

end AuditSphere.Redaction
