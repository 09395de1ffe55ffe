import AuditSphere.Intelligence.Scope

/-!
# The links of an index

`linkAuditRecords` looks the records up that a record refers to, under keys that are put
together of a kind and an id, and keeps each link under a key put together of the ids of
its ends. With ids that hold no colon, as those of an index are, the links are exactly the
relationships that are recorded (`linkAuditRecords_exact`). An id with a colon may make two
links one, and a record without an id is taken for the parent of all that have none
(`colliding_keys`).
-/

namespace AuditSphere.Intelligence

section Links

variable [Runtime]

/-! ### What is recorded -/

/-- A record records a relationship to another. -/
inductive Records (b a : AuditRecord) : String → Prop where
  /-- The other is a record above it, by a foreign key. -/
  | parent {key relationship : String} {kind : AuditSourceKind} (h : (key, relationship, kind) ∈ PARENTS)
    (hkey : field b key ≠ "") (hkind : a.source.kind = kind) (hid : a.source.recordId = field b key) :
    Records b a relationship
  /-- It is a control, and the other one of its risks. -/
  | risk {ids : List (Option Json)} {id : Json} (hb : b.source.kind = .Control) (ha : a.source.kind = .Risk)
    (hids : Json.members "riskId" (mapGet "risks" b.fields) = .ok ids) (hid : some id ∈ ids)
    (htext : a.source.recordId = Json.text id) : Records b a "mitigated by"
  /-- It is evidence, and the other one of its findings. -/
  | finding {ids : List (Option Json)} {id : Json} (hb : b.source.kind = .Evidence) (ha : a.source.kind = .Finding)
    (hids : Json.members "id" (mapGet "findings" b.fields) = .ok ids) (hid : some id ∈ ids)
    (htext : a.source.recordId = Json.text id) : Records b a "supported by"
  /-- It is a comment on the other. -/
  | comment (hb : b.source.kind = .Comment) (hkind : field b "targetType" = a.source.kind.name)
    (hkey : field b "targetId" ≠ "") (hid : a.source.recordId = field b "targetId") : Records b a "comment"
  /-- It is a document of the other. -/
  | document (hb : b.source.kind = .Document) (hkind : field b "ownerType" = a.source.kind.name)
    (hkey : field b "ownerId" ≠ "") (hid : a.source.recordId = field b "ownerId") : Records b a "attachment"

/-- The risks of a control and the findings of evidence can be gone through. -/
def IsReadable (r : AuditRecord) : Prop :=
  (r.source.kind = .Control → ∃ ids, Json.members "riskId" (mapGet "risks" r.fields) = .ok ids) ∧
    (r.source.kind = .Evidence → ∃ ids, Json.members "id" (mapGet "findings" r.fields) = .ok ids)

/-- The links are exactly the recorded relationships between different records, each once. -/
structure AreExact (records : List AuditRecord) (links : List Link) : Prop where
  /-- The ends of every link are records of the list. -/
  ends : ∀ l ∈ links, (∃ a ∈ records, a.source.id = l.source) ∧ ∃ b ∈ records, b.source.id = l.target
  /-- There is a link where a relationship is recorded, and nowhere else. -/
  recorded : ∀ a ∈ records, ∀ b ∈ records, ∀ relationship,
    { source := a.source.id, target := b.source.id, relationship } ∈ links ↔ Records b a relationship ∧ a ≠ b
  /-- No link occurs twice. -/
  nodup : links.Nodup

/-! ### Keys -/

omit [Runtime] in
/-- A text is split at its first colon in one way. -/
theorem append_colon_inj {x x' y y' : List Char} (hx : ':' ∉ x) (hx' : ':' ∉ x') :
    x ++ ':' :: y = x' ++ ':' :: y' ↔ x = x' ∧ y = y' := by
  constructor
  · intro h
    induction x generalizing x' with
    | nil =>
      cases x' with
      | nil => exact ⟨rfl, (List.cons.inj h).2⟩
      | cons c x' => exact absurd ((List.cons.inj h).1 ▸ List.mem_cons_self) hx'
    | cons c x ih =>
      cases x' with
      | nil => exact absurd ((List.cons.inj h).1 ▸ List.mem_cons_self) hx
      | cons c' x' =>
        obtain ⟨rfl, htail⟩ := List.cons.inj h
        obtain ⟨rfl, rfl⟩ := ih (fun hc => hx (List.mem_cons_of_mem _ hc)) (fun hc => hx' (List.mem_cons_of_mem _ hc)) htail
        exact ⟨rfl, rfl⟩
  · rintro ⟨rfl, rfl⟩
    rfl

omit [Runtime] in
theorem keyOf_toList (kind id : String) : (keyOf kind id).toList = kind.toList ++ ':' :: id.toList := by
  show (kind ++ ":" ++ id).toList = _
  simp

omit [Runtime] in
theorem name_toList (kind : AuditSourceKind) : ':' ∉ kind.name.toList := by
  cases kind <;> decide

omit [Runtime] in
theorem name_injective {kind kind' : AuditSourceKind} (h : kind.name = kind'.name) : kind = kind' := by
  cases kind <;> cases kind' <;> first | rfl | exact absurd h (by decide)

omit [Runtime] in
/-- The key of a record is a key of its kind and its id only. -/
theorem key_eq_iff (a : AuditRecord) (kind : AuditSourceKind) (id : String) :
    a.key = keyOf kind.name id ↔ a.source.kind = kind ∧ a.source.recordId = id := by
  rw [AuditRecord.key, ← String.toList_inj, keyOf_toList, keyOf_toList,
    append_colon_inj (name_toList _) (name_toList _), String.toList_inj, String.toList_inj]
  exact and_congr_left fun _ => ⟨name_injective, fun h => h ▸ rfl⟩

omit [Runtime] in
/-- So it is for any text in place of a kind, if the id of the record has no colon. -/
theorem key_eq_iff_of_colon {a : AuditRecord} (ha : ':' ∉ a.source.recordId.toList) (type id : String) :
    a.key = keyOf type id ↔ type = a.source.kind.name ∧ a.source.recordId = id := by
  by_cases htype : ':' ∈ type.toList
  · -- then the text after the first colon has another one
    refine iff_of_false (fun h => ?_) fun h => name_toList a.source.kind (h.1 ▸ htype)
    obtain ⟨x, y, hxy, hx⟩ := List.eq_append_cons_of_mem htype
    rw [AuditRecord.key, ← String.toList_inj, keyOf_toList, keyOf_toList, hxy, List.append_assoc, List.cons_append,
      append_colon_inj (name_toList _) hx] at h
    exact ha (h.2 ▸ List.mem_append_right _ List.mem_cons_self)
  · rw [AuditRecord.key, ← String.toList_inj, keyOf_toList, keyOf_toList,
      append_colon_inj (name_toList _) htype, String.toList_inj, String.toList_inj]
    exact and_congr_left fun _ => eq_comm

/-! ### Candidates -/

/-- The relationships that a record may record, with the keys of the records. -/
def parentsOf (r : AuditRecord) : List (String × String) := ((parentLinks r).toOption).getD []

/-- The property of the items of a list, of records of a kind. -/
def itemsIf (kind : AuditSourceKind) (key list : String) (r : AuditRecord) : Except TypeError (List (Option Json)) :=
  if r.source.kind = kind then Json.members key (mapGet list r.fields) else pure []

theorem parentLinks_eq (r : AuditRecord) : parentLinks r = (itemsIf .Control "riskId" "risks" r >>= fun risks =>
    itemsIf .Evidence "id" "findings" r >>= fun findings =>
      .ok (PARENTS.map (fun p => (keyOf p.2.2.name (field r p.1), p.2.1)) ++
        risks.map (fun id => (keyOf "Risk" (Json.textOf id), "mitigated by")) ++
        findings.map (fun id => (keyOf "Finding" (Json.textOf id), "supported by")) ++
        (if r.source.kind = .Comment then [(refersTo r "targetType" "targetId", "comment")] else []) ++
        (if r.source.kind = .Document then [(refersTo r "ownerType" "ownerId", "attachment")] else []))) := by
  unfold parentLinks itemsIf
  by_cases hcontrol : r.source.kind = .Control <;> by_cases hevidence : r.source.kind = .Evidence
  · rw [hcontrol] at hevidence
    cases hevidence
  · simp only [if_pos hcontrol, if_neg hevidence]
    rfl
  · simp only [if_neg hcontrol, if_pos hevidence]
    rfl
  · simp only [if_neg hcontrol, if_neg hevidence]
    rfl

theorem readable_iff (r : AuditRecord) : (∃ ps, parentLinks r = .ok ps) ↔ IsReadable r := by
  have hread (kind : AuditSourceKind) (key list : String) :
      (∃ ids, itemsIf kind key list r = .ok ids) ↔
        (r.source.kind = kind → ∃ ids, Json.members key (mapGet list r.fields) = .ok ids) := by
    rw [itemsIf]
    by_cases h : r.source.kind = kind
    · simp [h]
    · rw [if_neg h]
      exact iff_of_true ⟨[], rfl⟩ fun h' => absurd h' h
  rw [IsReadable, ← hread, ← hread, parentLinks_eq]
  constructor
  · rintro ⟨ps, h⟩
    obtain ⟨risks, hrisks, h⟩ := Theory.Prog.bind_eq_ok.mp h
    obtain ⟨findings, hfindings, -⟩ := Theory.Prog.bind_eq_ok.mp h
    exact ⟨⟨risks, hrisks⟩, ⟨findings, hfindings⟩⟩
  · rintro ⟨⟨risks, hrisks⟩, ⟨findings, hfindings⟩⟩
    exact ⟨_, Theory.Prog.bind_eq_ok.mpr ⟨risks, hrisks, Theory.Prog.bind_eq_ok.mpr ⟨findings, hfindings, rfl⟩⟩⟩

theorem mem_parentsOf {r : AuditRecord} (h : IsReadable r) (key relationship : String) :
    (key, relationship) ∈ parentsOf r ↔
      (∃ p ∈ PARENTS, key = keyOf p.2.2.name (field r p.1) ∧ relationship = p.2.1) ∨
      (r.source.kind = .Control ∧ ∃ ids, Json.members "riskId" (mapGet "risks" r.fields) = .ok ids ∧
        ∃ id ∈ ids, key = keyOf "Risk" (Json.textOf id) ∧ relationship = "mitigated by") ∨
      (r.source.kind = .Evidence ∧ ∃ ids, Json.members "id" (mapGet "findings" r.fields) = .ok ids ∧
        ∃ id ∈ ids, key = keyOf "Finding" (Json.textOf id) ∧ relationship = "supported by") ∨
      (r.source.kind = .Comment ∧ key = refersTo r "targetType" "targetId" ∧ relationship = "comment") ∨
      (r.source.kind = .Document ∧ key = refersTo r "ownerType" "ownerId" ∧ relationship = "attachment") := by
  obtain ⟨ps, hps⟩ := (readable_iff r).mpr h
  have hparents : parentsOf r = ps := by rw [parentsOf, hps]; rfl
  rw [parentLinks_eq] at hps
  obtain ⟨risks, hrisks, hps⟩ := Theory.Prog.bind_eq_ok.mp hps
  obtain ⟨findings, hfindings, hps⟩ := Theory.Prog.bind_eq_ok.mp hps
  cases hps
  rw [itemsIf] at hrisks hfindings
  rw [hparents, List.mem_append, List.mem_append, List.mem_append, List.mem_append, or_assoc, or_assoc, or_assoc]
  refine or_congr ?_ (or_congr ?_ (or_congr ?_ (or_congr ?_ ?_)))
  · simp only [List.mem_map, Prod.mk.injEq, eq_comm]
  · by_cases hkind : r.source.kind = .Control
    · rw [if_pos hkind] at hrisks
      simp only [hrisks, List.mem_map, Prod.mk.injEq, hkind, true_and, Except.ok.injEq, exists_eq_left', eq_comm]
    · rw [if_neg hkind] at hrisks
      cases hrisks
      simp [hkind]
  · by_cases hkind : r.source.kind = .Evidence
    · rw [if_pos hkind] at hfindings
      simp only [hfindings, List.mem_map, Prod.mk.injEq, hkind, true_and, Except.ok.injEq, exists_eq_left', eq_comm]
    · rw [if_neg hkind] at hfindings
      cases hfindings
      simp [hkind]
  · by_cases hkind : r.source.kind = .Comment <;> simp [hkind]
  · by_cases hkind : r.source.kind = .Document <;> simp [hkind]

/-- The key of a link. -/
def linkKey (l : Link) : String := s!"{l.source}:{l.target}:{l.relationship}"

/-- The link from the record under a key, unless it is the record itself. -/
def linkFrom (byKey : List (String × AuditRecord × ℕ)) (b : AuditRecord × ℕ) (p : String × String) : Option Link :=
  (mapGet p.1 byKey).bind fun a =>
    if a.2 = b.2 then none
    else some { source := a.1.source.id, target := b.1.source.id, relationship := p.2 }

omit [Runtime] in
theorem foldl_link (byKey : List (String × AuditRecord × ℕ)) (b : AuditRecord × ℕ) (ps : List (String × String))
    (m : List (String × Link)) : ps.foldl (link byKey b) m =
      ((ps.filterMap (linkFrom byKey b)).map fun l => (linkKey l, l)).foldl (fun m e => mapSet e.1 e.2 m) m := by
  induction ps generalizing m with
  | nil => rfl
  | cons p ps ih =>
    rw [List.foldl_cons, ih]
    have hstep : link byKey b m p =
        ((linkFrom byKey b p).toList.map fun l => (linkKey l, l)).foldl (fun m e => mapSet e.1 e.2 m) m := by
      rw [link, linkFrom]
      cases mapGet p.1 byKey with
      | none => rfl
      | some a =>
        dsimp only [Option.bind_some]
        split <;> rfl
    rw [hstep, ← List.foldl_append, ← List.map_append]
    cases h : linkFrom byKey b p with
    | none => rw [List.filterMap_cons_none h]; rfl
    | some l => rw [List.filterMap_cons_some h]; rfl

/-- The links to make, one after the other. -/
def candidateLinks (records : List AuditRecord) : List Link :=
  records.zipIdx.flatMap fun b =>
    (parentsOf b.1).filterMap (linkFrom (mapOf (records.zipIdx.map fun r => (r.1.key, r))) b)

/-- The links are made if the records can be read, and those with one key are one. -/
theorem linkAuditRecords_ok_iff (records : List AuditRecord) (links : List Link) :
    linkAuditRecords records = .ok links ↔ (∀ r ∈ records, IsReadable r) ∧
      links = (mapOf ((candidateLinks records).map fun l => (linkKey l, l))).map Prod.snd := by
  generalize hbyKey : mapOf (records.zipIdx.map fun r => (r.1.key, r)) = byKey
  have hfold : ∀ (rs : List (AuditRecord × ℕ)) (m m' : List (String × Link)),
      rs.foldlM (fun links b => do
        let parents ← parentLinks b.1
        pure (parents.foldl (link byKey b) links)) m = (.ok m' : Except TypeError (List (String × Link))) ↔
      (∀ b ∈ rs, IsReadable b.1) ∧ m' = ((rs.flatMap fun b => (parentsOf b.1).filterMap (linkFrom byKey b)).map
        fun l => (linkKey l, l)).foldl (fun m e => mapSet e.1 e.2 m) m := by
    intro rs
    induction rs with
    | nil =>
      intro m m'
      exact ⟨fun h => ⟨nofun, by cases h; rfl⟩, fun h => congrArg Except.ok h.2.symm⟩
    | cons b rs ih =>
      intro m m'
      rw [List.foldlM_cons, Theory.Prog.bind_eq_ok, List.forall_mem_cons, List.flatMap_cons, List.map_append,
        List.foldl_append]
      constructor
      · rintro ⟨m₁, h₁, h⟩
        obtain ⟨ps, hps, h₁⟩ := Theory.Prog.bind_eq_ok.mp h₁
        cases h₁
        obtain ⟨hreadable, hm'⟩ := (ih _ _).mp h
        have hparents : parentsOf b.1 = ps := by rw [parentsOf, hps]; rfl
        rw [hparents, ← foldl_link]
        exact ⟨⟨(readable_iff _).mp ⟨ps, hps⟩, hreadable⟩, hm'⟩
      · rintro ⟨⟨hb, hreadable⟩, hm'⟩
        obtain ⟨ps, hps⟩ := (readable_iff _).mpr hb
        have hparents : parentsOf b.1 = ps := by rw [parentsOf, hps]; rfl
        rw [hparents, ← foldl_link] at hm'
        exact ⟨_, Theory.Prog.bind_eq_ok.mpr ⟨ps, hps, rfl⟩, (ih _ _).mpr ⟨hreadable, hm'⟩⟩
  have hreadable : (∀ b ∈ records.zipIdx, IsReadable b.1) ↔ ∀ r ∈ records, IsReadable r := by
    rw [← List.zipIdx_map_fst 0 records, List.forall_mem_map, List.zipIdx_map_fst]
  rw [linkAuditRecords, candidateLinks, hbyKey, Theory.Prog.bind_eq_ok]
  constructor
  · rintro ⟨m, hm, h⟩
    cases h
    obtain ⟨hall, rfl⟩ := (hfold _ _ _).mp hm
    exact ⟨hreadable.mp hall, rfl⟩
  · rintro ⟨hall, rfl⟩
    exact ⟨_, (hfold _ _ _).mpr ⟨hreadable.mpr hall, rfl⟩, rfl⟩

/-! ### Records with ids as those of an index -/

/-- The sources have different ids, the records different kinds or ids of their rows, and the ids are of a form that
cannot be taken for anything else. -/
structure WellKeyed (records : List AuditRecord) : Prop where
  /-- Sources have different ids. -/
  ids : (records.map (·.source.id)).Nodup
  /-- Records of a kind have different ids of their rows. -/
  keys : (records.map fun r => (r.source.kind, r.source.recordId)).Nodup
  /-- The ids of sources hold no colon. -/
  sources : ∀ r ∈ records, ':' ∉ r.source.id.toList
  /-- Nor do the ids of rows, which are not empty and not the text of a value that is missing. -/
  rows : ∀ r ∈ records, ':' ∉ r.source.recordId.toList ∧ r.source.recordId ≠ "" ∧ r.source.recordId ≠ "undefined"

section WellKeyed

variable {records : List AuditRecord} (h : WellKeyed records)

include h

omit [Runtime] in
theorem WellKeyed.eq_of_id {a b : AuditRecord} (ha : a ∈ records) (hb : b ∈ records) (hid : a.source.id = b.source.id) :
    a = b :=
  List.inj_on_of_nodup_map h.ids ha hb hid

omit [Runtime] in
/-- A record is found under its key. -/
theorem WellKeyed.mapGet_iff (key : String) (a : AuditRecord × ℕ) :
    mapGet key (mapOf (records.zipIdx.map fun r => (r.1.key, r))) = some a ↔ a ∈ records.zipIdx ∧ a.1.key = key := by
  have hnodup : ((records.zipIdx.map fun r => (r.1.key, r)).map Prod.fst).Nodup := by
    have hkeys : (records.zipIdx.map fun r => (r.1.key, r)).map Prod.fst = records.map AuditRecord.key := by
      rw [List.map_map]
      conv_rhs => rw [← List.zipIdx_map_fst 0 records, List.map_map]
      rfl
    rw [hkeys]
    refine List.Nodup.map_on (fun a ha b hb heq => ?_) h.ids.of_map
    exact List.inj_on_of_nodup_map h.keys ha hb (Prod.ext_iff.mpr ((key_eq_iff a _ _).mp heq))
  rw [mapOf_of_nodup hnodup, mapGet_eq_some_iff hnodup, List.mem_map]
  constructor
  · rintro ⟨r, hr, heq⟩
    cases heq
    exact ⟨hr, rfl⟩
  · rintro ⟨ha, rfl⟩
    exact ⟨a, ha, rfl⟩

/-- The links to make are those from another record whose key a record refers to. -/
theorem WellKeyed.mem_candidateLinks (l : Link) : l ∈ candidateLinks records ↔ ∃ a ∈ records, ∃ b ∈ records,
    a ≠ b ∧ (a.key, l.relationship) ∈ parentsOf b ∧ l.source = a.source.id ∧ l.target = b.source.id := by
  have hplace {a b : AuditRecord × ℕ} (ha : a ∈ records.zipIdx) (hb : b ∈ records.zipIdx) : a.2 = b.2 ↔ a.1 = b.1 := by
    have ha' : records[a.2]? = some a.1 := List.mem_zipIdx_iff_getElem?.mp ha
    have hb' : records[b.2]? = some b.1 := List.mem_zipIdx_iff_getElem?.mp hb
    constructor
    · intro heq
      rw [heq, hb', Option.some.injEq] at ha'
      exact ha'.symm
    · intro heq
      obtain ⟨hlt, hget⟩ := List.getElem?_eq_some_iff.mp ha'
      obtain ⟨hlt', hget'⟩ := List.getElem?_eq_some_iff.mp hb'
      exact (h.ids.of_map.getElem_inj_iff).mp (by rw [hget, hget', heq])
  have hfst {a : AuditRecord × ℕ} (ha : a ∈ records.zipIdx) : a.1 ∈ records := by
    rw [← List.zipIdx_map_fst 0 records]
    exact List.mem_map_of_mem ha
  have hexists {a : AuditRecord} (ha : a ∈ records) : ∃ i, (a, i) ∈ records.zipIdx := by
    rw [← List.zipIdx_map_fst 0 records] at ha
    obtain ⟨r, hr, rfl⟩ := List.mem_map.mp ha
    exact ⟨r.2, hr⟩
  rw [candidateLinks, List.mem_flatMap]
  constructor
  · rintro ⟨b, hb, hl⟩
    obtain ⟨p, hp, hl⟩ := List.mem_filterMap.mp hl
    obtain ⟨a, ha, hl⟩ := Option.bind_eq_some_iff.mp hl
    obtain ⟨ha, hkey⟩ := (h.mapGet_iff _ _).mp ha
    split at hl
    · cases hl
    · rename_i hne
      cases hl
      refine ⟨a.1, hfst ha, b.1, hfst hb, mt (hplace ha hb).mpr hne, ?_, rfl, rfl⟩
      rw [hkey]
      exact hp
  · rintro ⟨a, ha, b, hb, hne, hp, hsource, htarget⟩
    obtain ⟨i, hi⟩ := hexists ha
    obtain ⟨j, hj⟩ := hexists hb
    refine ⟨(b, j), hj, List.mem_filterMap.mpr ⟨_, hp, ?_⟩⟩
    rw [linkFrom, (h.mapGet_iff _ _).mpr ⟨hi, rfl⟩, Option.bind_some, if_neg (mt (hplace hi hj).mp hne)]
    rw [← hsource, ← htarget]

/-- Different links have different keys. -/
theorem WellKeyed.linkKey_inj {l l' : Link} (hl : l ∈ candidateLinks records) (hl' : l' ∈ candidateLinks records)
    (hkey : linkKey l = linkKey l') : l = l' := by
  obtain ⟨a, ha, b, hb, -, -, hsource, htarget⟩ := (h.mem_candidateLinks l).mp hl
  obtain ⟨a', ha', b', hb', -, -, hsource', htarget'⟩ := (h.mem_candidateLinks l').mp hl'
  have htoList (l : Link) : (linkKey l).toList =
      l.source.toList ++ ':' :: (l.target.toList ++ ':' :: l.relationship.toList) := by
    show (l.source ++ ":" ++ l.target ++ ":" ++ l.relationship).toList = _
    simp
  rw [← String.toList_inj, htoList, htoList, append_colon_inj (hsource ▸ h.sources a ha) (hsource' ▸ h.sources a' ha'),
    append_colon_inj (htarget ▸ h.sources b hb) (htarget' ▸ h.sources b' hb'), String.toList_inj, String.toList_inj,
    String.toList_inj] at hkey
  obtain ⟨source, target, relationship⟩ := l
  obtain ⟨source', target', relationship'⟩ := l'
  obtain ⟨rfl, rfl, rfl⟩ := hkey
  rfl

/-- A record refers to the key of another if it records the relationship. -/
theorem WellKeyed.mem_parentsOf_iff {a b : AuditRecord} (ha : a ∈ records) (hb : IsReadable b) (relationship : String) :
    (a.key, relationship) ∈ parentsOf b ↔ Records b a relationship := by
  obtain ⟨hcolon, hempty, hundefined⟩ := h.rows a ha
  have hrisk (id : Option Json) (kind : AuditSourceKind) : a.key = keyOf kind.name (Json.textOf id) ↔
      a.source.kind = kind ∧ ∃ j, id = some j ∧ a.source.recordId = Json.text j := by
    rw [key_eq_iff]
    refine and_congr_right fun _ => ?_
    cases id with
    | none => exact iff_of_false hundefined nofun
    | some j => simp [Json.textOf]
  rw [mem_parentsOf hb]
  constructor
  · rintro (⟨p, hp, hkey, rfl⟩ | ⟨hkind, ids, hids, id, hid, hkey, rfl⟩ | ⟨hkind, ids, hids, id, hid, hkey, rfl⟩ |
      ⟨hkind, hkey, rfl⟩ | ⟨hkind, hkey, rfl⟩)
    · obtain ⟨hkind, hid⟩ := (key_eq_iff a _ _).mp hkey
      exact .parent hp (hid ▸ hempty) hkind hid
    · obtain ⟨ha, j, rfl, htext⟩ := (hrisk id .Risk).mp hkey
      exact .risk hkind ha hids hid htext
    · obtain ⟨ha, j, rfl, htext⟩ := (hrisk id .Finding).mp hkey
      exact .finding hkind ha hids hid htext
    · obtain ⟨htype, hid⟩ := (key_eq_iff_of_colon hcolon _ _).mp hkey
      exact .comment hkind htype (hid ▸ hempty) hid
    · obtain ⟨htype, hid⟩ := (key_eq_iff_of_colon hcolon _ _).mp hkey
      exact .document hkind htype (hid ▸ hempty) hid
  · rintro (⟨hp, -, hkind, hid⟩ | ⟨hkind, ha, hids, hid, htext⟩ | ⟨hkind, ha, hids, hid, htext⟩ |
      ⟨hkind, htype, -, hid⟩ | ⟨hkind, htype, -, hid⟩)
    · exact .inl ⟨_, hp, (key_eq_iff a _ _).mpr ⟨hkind, hid⟩, rfl⟩
    · exact .inr (.inl ⟨hkind, _, hids, _, hid, (hrisk _ .Risk).mpr ⟨ha, _, rfl, htext⟩, rfl⟩)
    · exact .inr (.inr (.inl ⟨hkind, _, hids, _, hid, (hrisk _ .Finding).mpr ⟨ha, _, rfl, htext⟩, rfl⟩))
    · exact .inr (.inr (.inr (.inl ⟨hkind, (key_eq_iff_of_colon hcolon _ _).mpr ⟨htype, hid⟩, rfl⟩)))
    · exact .inr (.inr (.inr (.inr ⟨hkind, (key_eq_iff_of_colon hcolon _ _).mpr ⟨htype, hid⟩, rfl⟩)))

end WellKeyed

/-- **The links are exactly the recorded relationships**, each once; they are made if the risks of controls and the
findings of evidence can be gone through. -/
theorem linkAuditRecords_exact {records : List AuditRecord} (h : WellKeyed records) :
    ((∃ links, linkAuditRecords records = .ok links) ↔ ∀ r ∈ records, IsReadable r) ∧
      ∀ links, linkAuditRecords records = .ok links → AreExact records links := by
  refine ⟨⟨?_, fun hreadable => ⟨_, (linkAuditRecords_ok_iff records _).mpr ⟨hreadable, rfl⟩⟩⟩, fun links hlinks => ?_⟩
  · rintro ⟨links, hlinks⟩
    exact ((linkAuditRecords_ok_iff records links).mp hlinks).1
  obtain ⟨hreadable, rfl⟩ := (linkAuditRecords_ok_iff records links).mp hlinks
  have hentries : ∀ e ∈ mapOf ((candidateLinks records).map fun l => (linkKey l, l)),
      e.1 = linkKey e.2 ∧ e.2 ∈ candidateLinks records := by
    intro e he
    obtain ⟨l, hl, rfl⟩ := List.mem_map.mp (mem_mapOf he)
    exact ⟨rfl, hl⟩
  have hmem (l : Link) : l ∈ (mapOf ((candidateLinks records).map fun l => (linkKey l, l))).map Prod.snd ↔
      l ∈ candidateLinks records := by
    constructor
    · intro hl
      obtain ⟨e, he, rfl⟩ := List.mem_map.mp hl
      exact (hentries e he).2
    · intro hl
      refine List.mem_map.mpr ⟨_, mem_mapOf_of_unique (List.mem_map_of_mem hl) fun e he hkey => ?_, rfl⟩
      obtain ⟨l', hl', rfl⟩ := List.mem_map.mp he
      rw [h.linkKey_inj hl' hl hkey]
  refine ⟨fun l hl => ?_, fun a ha b hb relationship => ?_, ?_⟩
  · obtain ⟨a, ha, b, hb, -, -, hsource, htarget⟩ := (h.mem_candidateLinks l).mp ((hmem l).mp hl)
    exact ⟨⟨a, ha, hsource.symm⟩, b, hb, htarget.symm⟩
  · rw [hmem, h.mem_candidateLinks]
    constructor
    · rintro ⟨a', ha', b', hb', hne, hp, hsource, htarget⟩
      obtain rfl := h.eq_of_id ha ha' hsource
      obtain rfl := h.eq_of_id hb hb' htarget
      exact ⟨(h.mem_parentsOf_iff ha (hreadable b hb) relationship).mp hp, hne⟩
    · rintro ⟨hrecords, hne⟩
      exact ⟨a, ha, b, hb, hne, (h.mem_parentsOf_iff ha (hreadable b hb) relationship).mpr hrecords, rfl, rfl⟩
  · -- the keys of the map are different, and a link has one key
    refine List.Nodup.of_map linkKey ?_
    rw [List.map_map]
    have hkeys := nodup_keys_mapOf ((candidateLinks records).map fun l => (linkKey l, l))
    rwa [List.map_congr_left fun e he => (hentries e he).1] at hkeys

end Links

/-- A risk with its control, and a comment on the finding of a workpaper. -/
def mitigated : List AuditRecord := [
  sourceOf "S1" .Risk "fraud" [],
  sourceOf "S2" .Control "approval" [("risks", .arr [.obj [("riskId", .str "fraud")]])],
  sourceOf "S3" .Workpaper "sample" [("controlId", .str "approval")],
  sourceOf "S4" .Comment "remark" [("targetType", .str "Workpaper"), ("targetId", .str "sample")]]

/-- The links between them. -/
theorem mitigated_links : ((∃ links, @linkAuditRecords wholeNumbers mitigated = .ok links) ↔
      ∀ r ∈ mitigated, IsReadable r) ∧
    ∀ links, @linkAuditRecords wholeNumbers mitigated = .ok links → @AreExact wholeNumbers mitigated links :=
  @linkAuditRecords_exact wholeNumbers mitigated ⟨by decide, by decide, by decide, by decide⟩

example : (@linkAuditRecords wholeNumbers mitigated).toOption.map (fun links => links.map fun l => (l.source, l.target)) =
    some [("S1", "S2"), ("S2", "S3"), ("S3", "S4")] := by decide +kernel

/-- Two workpapers on two risks, whose sources have ids with colons. -/
def colliding : List AuditRecord := [
  sourceOf "1" .Risk "fraud" [],
  sourceOf "1:2" .Risk "error" [],
  sourceOf "2:3" .Workpaper "sample" [("riskId", .str "fraud")],
  sourceOf "3" .Workpaper "count" [("riskId", .str "error")]]

/-- A process, and an entity without an id. -/
def nameless : List AuditRecord := [
  sourceOf "S1" .Entity "" [],
  sourceOf "S2" .Process "payments" []]

/-- The one link of two is lost; and the process that names no entity is linked to the one without an id. -/
theorem colliding_keys :
    ¬ (∀ records : List AuditRecord, (records.map (·.source.id)).Nodup →
        (records.map fun r => (r.source.kind, r.source.recordId)).Nodup →
        ∀ links, @linkAuditRecords wholeNumbers records = .ok links → @AreExact wholeNumbers records links) ∧
      @linkAuditRecords wholeNumbers colliding = .ok [{ source := "1:2", target := "3", relationship := "risk" }] ∧
      @linkAuditRecords wholeNumbers nameless = .ok [{ source := "S1", target := "S2", relationship := "parent" },
        { source := "S1", target := "S2", relationship := "entity" }] := by
  have hcolliding : @linkAuditRecords wholeNumbers colliding =
      .ok [{ source := "1:2", target := "3", relationship := "risk" }] := by
    decide +kernel
  refine ⟨fun h => ?_, hcolliding, by decide +kernel⟩
  let := wholeNumbers
  have hexact := h colliding (by decide) (by decide) _ hcolliding
  -- the sample records the risk of fraud
  have hlink := (hexact.recorded (sourceOf "1" .Risk "fraud" []) (by simp [colliding])
    (sourceOf "2:3" .Workpaper "sample" [("riskId", .str "fraud")]) (by simp [colliding]) "risk").mpr
    ⟨@Records.parent wholeNumbers _ _ "riskId" "risk" .Risk (by decide) (by decide +kernel) rfl (by decide +kernel),
      fun heq => absurd (congrArg (·.source.id) heq) (by decide)⟩
  exact absurd hlink (by decide)

end AuditSphere.Intelligence
