import AuditSphere.Qr.Blocks
import AuditSphere.Qr.Placement

/-!
# A QR code says its text

What a reader finds in the matrix that the encoder builds: the version, the level and the mask, the
codewords, and with these the bytes of the text.
-/

namespace AuditSphere.Qr

open Theory

variable {version : ℕ} {ecl : Ecl}

/-! ### The finished matrix -/

/-- The canvas once the codewords are placed. -/
def placed (codewords : List ℕ) (version : ℕ) (ecl : Ecl) : Canvas :=
  placeCodewords (matrixSize version) codewords (draw (functionPatterns version ecl) blank)

/-- The modules that a mask and its format bits make of the placed ones. -/
structure Finished (c₀ : Canvas) (version : ℕ) (ecl : Ecl) (mask : ℕ) (modules : Cell → Bool) : Prop where
  mask_lt : mask < 8
  format : ∀ call ∈ drawFormatBits (matrixSize version) ecl mask, modules call.1 = call.2
  others : ∀ p, p ∉ (drawFormatBits (matrixSize version) .L 0).map Prod.fst →
    modules p = (c₀.modules p ^^ (invert mask p && !c₀.isFunction p))

theorem placed_isFunction (codewords : List ℕ) (p : Cell) :
    (placed codewords version ecl).isFunction p = true ↔ p ∈ (functionPatterns version ecl).map Prod.fst := by
  rw [placed, placeCodewords_eq, draw_isFunction]
  exact or_iff_left Bool.false_ne_true

theorem format_isFunction (codewords : List ℕ) {p : Cell}
    (hp : p ∈ (drawFormatBits (matrixSize version) .L 0).map Prod.fst) :
    (placed codewords version ecl).isFunction p = true := by
  rw [placed_isFunction]
  simp only [functionPatterns, List.map_append, List.mem_append]
  exact Or.inl (Or.inr (mem_format_iff.mpr hp))

/-- The format bits are drawn beside the finders: fifteen cells at the first one, and a copy at the two others. -/
theorem format_nodup {size : ℕ} (hsize : 21 ≤ size) : ((drawFormatBits size .L 0).map Prod.fst).Nodup := by
  have hfirst : ((List.range 6).map (fun i => ((8, i) : Cell)) ++ [(8, 7), (8, 8), (7, 8)] ++
      (List.range' 9 6).map (fun i => (14 - i, 8))).Nodup := by decide
  have hright : ((List.range 8).map fun i => ((size - 1 - i, 8) : Cell)).Nodup := by
    refine List.Nodup.map_on (fun i hi j hj h => ?_) List.nodup_range
    rw [List.mem_range] at hi hj
    rw [Prod.mk.injEq] at h
    omega
  have hbelow : ((List.range' 8 7).map fun i => ((8, size - 15 + i) : Cell)).Nodup := by
    refine List.Nodup.map_on (fun i hi j hj h => ?_) List.nodup_range'
    rw [Prod.mk.injEq] at h
    omega
  rw [map_fst_drawFormatBits, List.nodup_append, List.nodup_append, List.nodup_append]
  refine ⟨⟨⟨hfirst, hright, ?_⟩, hbelow, ?_⟩, List.nodup_singleton _, ?_⟩
  all_goals
    rintro ⟨x, y⟩ hp ⟨x', y'⟩ hq heq
    rw [Prod.mk.injEq] at heq
    simp only [List.mem_append, List.mem_map, List.mem_range, List.mem_range'_1, List.mem_cons, List.not_mem_nil, or_false,
      Prod.mk.injEq] at hp hq
    obtain ⟨rfl, rfl⟩ := heq
  · obtain ⟨j, hj, rfl, rfl⟩ := hq
    omega
  · omega
  · omega

/-- The modules of the matrix are finished. -/
theorem buildMatrix_modules (hversion : version ∈ versions) (ecl : Ecl) (codewords : List ℕ) :
    ∃ mask modules, Finished (placed codewords version ecl) version ecl mask modules ∧
      (buildMatrix codewords version ecl).modules = (List.range (matrixSize version)).map fun y =>
        (List.range (matrixSize version)).map fun x => modules (x, y) := by
  have hstart : Apart (matrixSize version) (placed codewords version ecl)
      (Choice.mk (placed codewords version ecl) 0 none).canvas := ⟨rfl, fun _ _ => rfl⟩
  have hformat : ∀ p ∈ (drawFormatBits (matrixSize version) .L 0).map Prod.fst,
      (placed codewords version ecl).isFunction p = true := fun p hp => format_isFunction codewords hp
  obtain ⟨hapart, hbest⟩ := foldl_tryMask hformat (List.range 8) hstart
  refine ⟨_, _, ⟨?_, fun call hcall => ?_, fun p hp => masked_modules hapart _ hp⟩, rfl⟩
  · rcases hbest with hbest | hbest
    · exact Nat.lt_of_le_of_lt (Nat.le_of_eq hbest) (Nat.zero_lt_succ 7)
    · exact List.mem_range.mp hbest
  · rw [draw_modules]
    refine writeAll_of_mem ?_ hcall
    have hnodup := format_nodup (twentyone_le_matrixSize hversion)
    rw [map_fst_drawFormatBits] at hnodup ⊢
    exact hnodup

/-! ### Reading modules -/

variable {c₀ : Canvas} {mask : ℕ} {modules : Cell → Bool}

/-- The rows of a matrix with given modules. -/
def rowsOf (size : ℕ) (modules : Cell → Bool) : Reader.Matrix :=
  (List.range size).map fun y => (List.range size).map fun x => modules (x, y)

theorem moduleAt_rowsOf {size : ℕ} (modules : Cell → Bool) {p : Cell} (hx : p.1 < size) (hy : p.2 < size) :
    Reader.moduleAt (rowsOf size modules) p = modules p := by
  simp [Reader.moduleAt, rowsOf, List.getD_eq_getElem?_getD, hx, hy]

theorem bitsOf_eq_map (width n : ℕ) : bitsOf width n = (List.range width).reverse.map n.testBit := by
  induction width with
  | zero => rfl
  | succ width ih => rw [bitsOf, ih, List.range_succ, List.reverse_append, List.reverse_singleton, List.singleton_append,
      List.map_cons]

/-- Cells in which the bits of a number stand spell it. -/
theorem spelled_rowsOf {size n width : ℕ} {cellOf : ℕ → Cell} (hn : n < 2 ^ width)
    (hinside : ∀ i < width, (cellOf i).1 < size ∧ (cellOf i).2 < size)
    (hbits : ∀ i < width, modules (cellOf i) = n.testBit i) :
    Reader.spelled (rowsOf size modules) ((List.range width).reverse.map cellOf) = n := by
  have hread : ((List.range width).reverse.map cellOf).map (Reader.moduleAt (rowsOf size modules)) = bitsOf width n := by
    rw [bitsOf_eq_map, List.map_map]
    refine List.map_congr_left fun i hi => ?_
    rw [List.mem_reverse, List.mem_range] at hi
    obtain ⟨hx, hy⟩ := hinside i hi
    rw [Function.comp_apply, moduleAt_rowsOf modules hx hy, hbits i hi]
  rw [Reader.spelled, hread, ofBits_bitsOf hn]

/-- The only element with a property is found. -/
theorem find?_eq_some_of_unique {α : Type} {l : List α} {f : α → Bool} {a : α} (ha : a ∈ l) (hfa : f a = true)
    (hunique : ∀ b ∈ l, f b = true → b = a) : l.find? f = some a := by
  cases hfind : l.find? f with
  | none => exact absurd hfa (List.find?_eq_none.mp hfind a ha)
  | some b => rw [hunique b (List.mem_of_find?_eq_some hfind) (List.find?_some hfind)]

/-! ### The format information -/

/-- The cell of a format bit around the upper left finder. -/
def formatCell (i : ℕ) : Cell :=
  if i ≤ 5 then (8, i) else if i = 6 then (8, 7) else if i = 7 then (8, 8) else if i = 8 then (7, 8) else (14 - i, 8)

/-- The cell of its copy. -/
def formatCopyCell (size i : ℕ) : Cell := if i < 8 then (size - 1 - i, 8) else (8, size - 15 + i)

theorem formatCells_eq : Reader.formatCells = (List.range 15).reverse.map formatCell := by decide

theorem formatCopyCells_eq {size : ℕ} (hsize : 21 ≤ size) :
    Reader.formatCopyCells size = (List.range 15).reverse.map (formatCopyCell size) := by
  have hcopy : (List.range 15).reverse = (List.range 7).map (14 - ·) ++ (List.range 8).map (7 - ·) := by decide
  rw [Reader.formatCopyCells, hcopy, List.map_append, List.map_map, List.map_map]
  congr 1
  · refine List.map_congr_left fun i hi => ?_
    rw [List.mem_range] at hi
    rw [Function.comp_apply, formatCopyCell, if_neg (by omega), Prod.mk.injEq]
    omega
  · refine List.map_congr_left fun i hi => ?_
    rw [List.mem_range] at hi
    rw [Function.comp_apply, formatCopyCell, if_pos (by omega), Prod.mk.injEq]
    omega

theorem mem_drawFormatBits_bit {i : ℕ} (size mask : ℕ) (hi : i < 15) :
    (formatCell i, (formatBits ecl mask).testBit i) ∈ drawFormatBits size ecl mask ∧
      (formatCopyCell size i, (formatBits ecl mask).testBit i) ∈ drawFormatBits size ecl mask := by
  simp only [drawFormatBits, List.mem_append, List.mem_map, List.mem_range, List.mem_range'_1]
  constructor
  · unfold formatCell
    split_ifs with h₅ h₆ h₇ h₈
    · exact Or.inl (Or.inl (Or.inl (Or.inl (Or.inl ⟨i, by omega, rfl⟩))))
    · subst h₆
      exact Or.inl (Or.inl (Or.inl (Or.inl (Or.inr (by simp [getBit])))))
    · subst h₇
      exact Or.inl (Or.inl (Or.inl (Or.inl (Or.inr (by simp [getBit])))))
    · subst h₈
      exact Or.inl (Or.inl (Or.inl (Or.inl (Or.inr (by simp [getBit])))))
    · exact Or.inl (Or.inl (Or.inl (Or.inr ⟨i, by omega, rfl⟩)))
  · unfold formatCopyCell
    split_ifs with h
    · exact Or.inl (Or.inl (Or.inr ⟨i, h, rfl⟩))
    · exact Or.inl (Or.inr ⟨i, by omega, rfl⟩)

/-- The format bits are the valid format information of the level and the mask. -/
theorem formatBits_eq (ecl : Ecl) : ∀ mask < 8,
    formatBits ecl mask = Reader.formatInformation.getD (eclFormatBits ecl * 8 + mask) 0 ∧
      formatBits ecl mask < 2 ^ 15 ∧ eclFormatBits ecl * 8 + mask < 32 ∧
      Reader.levelOf ((eclFormatBits ecl * 8 + mask) / 8) = ecl ∧ (eclFormatBits ecl * 8 + mask) % 8 = mask := by
  cases ecl <;> decide +kernel

theorem formatInformation_injective : ∀ data < 32, ∀ data' < 32,
    Reader.formatInformation.getD data 0 = Reader.formatInformation.getD data' 0 → data = data' := by
  decide +kernel

theorem Finished.spelled_format (h : Finished c₀ version ecl mask modules) (hversion : version ∈ versions) :
    Reader.spelled (rowsOf (matrixSize version) modules) Reader.formatCells = formatBits ecl mask ∧
      Reader.spelled (rowsOf (matrixSize version) modules) (Reader.formatCopyCells (matrixSize version)) =
        formatBits ecl mask := by
  have hsize := twentyone_le_matrixSize hversion
  obtain ⟨-, hlt, -⟩ := formatBits_eq ecl mask h.mask_lt
  rw [formatCells_eq, formatCopyCells_eq hsize]
  constructor
  · refine spelled_rowsOf hlt (fun i hi => ?_) fun i hi => h.format _ (mem_drawFormatBits_bit _ mask hi).1
    unfold formatCell
    split_ifs <;> dsimp only <;> omega
  · refine spelled_rowsOf hlt (fun i hi => ?_) fun i hi => h.format _ (mem_drawFormatBits_bit _ mask hi).2
    unfold formatCopyCell
    split_ifs <;> dsimp only <;> omega

/-- The level and the mask are read. -/
theorem Finished.readFormat_eq (h : Finished c₀ version ecl mask modules) (hversion : version ∈ versions) :
    Reader.readFormat (rowsOf (matrixSize version) modules) = some (ecl, mask) := by
  obtain ⟨hfirst, hcopy⟩ := h.spelled_format hversion
  obtain ⟨htable, -, hdata, hlevel, hmask⟩ := formatBits_eq ecl mask h.mask_lt
  have hlength : (rowsOf (matrixSize version) modules).length = matrixSize version := by simp [rowsOf]
  rw [Reader.readFormat, hlength, hfirst, hcopy, find?_eq_some_of_unique (List.mem_range.mpr hdata), Option.map_some,
    hlevel, hmask]
  · simp only [htable, and_self, decide_true]
  · intro data hrange hsame
    rw [decide_eq_true_eq, htable] at hsame
    exact formatInformation_injective _ (List.mem_range.mp hrange) _ hdata hsame.1.symm

/-! ### The version information -/

theorem drawVersion_nodup (version : ℕ) : ((drawVersion version).map Prod.fst).Nodup := by
  unfold drawVersion
  split
  · exact List.nodup_nil
  · rw [List.map_flatMap, List.nodup_flatMap]
    refine ⟨fun i hi => ?_, List.pairwise_lt_range.imp_of_mem fun {i j} hi hj hlt => ?_⟩
    · have hne : matrixSize version - 11 + i % 3 ≠ i / 3 := by
        rw [List.mem_range] at hi
        rw [matrixSize]
        omega
      simp [hne]
    · rw [List.mem_range] at hi hj
      rintro ⟨x, y⟩ hp hq
      simp only [List.map_cons, List.map_nil, List.mem_cons, List.not_mem_nil, or_false, Prod.mk.injEq] at hp hq
      rw [matrixSize] at hp hq
      omega

/-- The version bits are the valid version information. -/
theorem versionBits_eq : ∀ version ∈ versions, 7 ≤ version →
    versionBits version = Reader.versionInformation.getD (version - 7) 0 ∧ versionBits version < 2 ^ 18 := by
  decide +kernel

/-- The version bits are drawn last, and neither the codewords nor the mask nor the format bits
touch them. -/
theorem Finished.version_bit {codewords : List ℕ} (h : Finished (placed codewords version ecl) version ecl mask modules)
    (hversion : version ∈ versions) {call : Call} (hcall : call ∈ drawVersion version) : modules call.1 = call.2 := by
  have hcell : call.1 ∈ (drawVersion version).map Prod.fst := List.mem_map_of_mem hcall
  have hfunction : (placed codewords version ecl).isFunction call.1 = true := by
    rw [placed_isFunction, functionPatterns]
    exact List.map_append ▸ List.mem_append_right _ hcell
  have hdrawn : (draw (functionPatterns version ecl) blank).isFunction call.1 = true := by
    rw [placed, placeCodewords_eq] at hfunction
    exact hfunction
  have hformat : call.1 ∉ (drawFormatBits (matrixSize version) .L 0).map Prod.fst := by
    rw [mem_drawFormatBits (twentyone_le_matrixSize hversion)]
    rw [mem_drawVersion, matrixSize] at hcell
    rw [matrixSize]
    omega
  rw [h.others call.1 hformat, hfunction, Bool.not_true, Bool.and_false, Bool.xor_false, placed,
    placeCodewords_of_function hdrawn, draw_modules, functionPatterns, writeAll_append]
  exact writeAll_of_mem (drawVersion_nodup version) hcall

theorem mem_drawVersion_bit {i : ℕ} (hseven : 7 ≤ version) (hi : i < 18) :
    ((Reader.dimension version - 11 + i % 3, i / 3), (versionBits version).testBit i) ∈ drawVersion version ∧
      ((i / 3, Reader.dimension version - 11 + i % 3), (versionBits version).testBit i) ∈ drawVersion version := by
  rw [← matrixSize_eq, drawVersion, if_neg (by omega)]
  exact ⟨List.mem_flatMap.mpr ⟨i, List.mem_range.mpr hi, List.mem_cons_self⟩,
    List.mem_flatMap.mpr ⟨i, List.mem_range.mpr hi, List.mem_cons_of_mem _ List.mem_cons_self⟩⟩

theorem Finished.spelled_version {codewords : List ℕ}
    (h : Finished (placed codewords version ecl) version ecl mask modules) (hversion : version ∈ versions)
    (hseven : 7 ≤ version) :
    Reader.spelled (rowsOf (matrixSize version) modules) (Reader.versionCells version) = versionBits version ∧
      Reader.spelled (rowsOf (matrixSize version) modules) ((Reader.versionCells version).map Prod.swap) =
        versionBits version := by
  obtain ⟨-, hlt⟩ := versionBits_eq version hversion hseven
  have hsize := matrixSize_eq version
  rw [Reader.versionCells, List.map_map]
  constructor
  · refine spelled_rowsOf hlt (fun i hi => ?_) fun i hi => h.version_bit hversion (mem_drawVersion_bit hseven hi).1
    rw [Reader.dimension] at *
    dsimp only
    omega
  · refine spelled_rowsOf hlt (fun i hi => ?_) fun i hi => h.version_bit hversion (mem_drawVersion_bit hseven hi).2
    rw [Reader.dimension] at *
    dsimp only [Function.comp_apply, Prod.swap]
    omega

/-- The version is read. -/
theorem Finished.readVersion_eq {codewords : List ℕ}
    (h : Finished (placed codewords version ecl) version ecl mask modules) (hversion : version ∈ versions) :
    Reader.readVersion (rowsOf (matrixSize version) modules) = some version := by
  have hlength : (rowsOf (matrixSize version) modules).length = Reader.dimension version := by
    simp [rowsOf, matrixSize_eq]
  refine find?_eq_some_of_unique hversion ?_ fun other _ hother => ?_
  · rw [decide_eq_true_eq]
    refine ⟨hlength, fun row hrow => ?_, ?_⟩
    · obtain ⟨y, -, rfl⟩ := List.mem_map.mp hrow
      simp [rowsOf]
    · rcases Nat.lt_or_ge version 7 with hsmall | hseven
      · exact Or.inl hsmall
      · obtain ⟨hright, hleft⟩ := h.spelled_version hversion hseven
        rw [hright, hleft]
        exact Or.inr ⟨(versionBits_eq version hversion hseven).1, (versionBits_eq version hversion hseven).1⟩
  · rw [decide_eq_true_eq, hlength, Reader.dimension, Reader.dimension] at hother
    omega

/-! ### The codewords -/

theorem maskCondition_eq (mask : ℕ) (p : Cell) : Reader.maskCondition mask p.2 p.1 = invert mask p := by
  obtain ⟨x, y⟩ := p
  unfold Reader.maskCondition invert
  split <;> simp [Nat.add_comm, Nat.mul_comm, beq_eq_decide]

/-- The free modules in the encoder's order are those that the reader reads. -/
theorem free_eq (hversion : version ∈ versions) :
    ((zigzag (matrixSize version)).filter fun p => !(draw (functionPatterns version ecl) blank).isFunction p) =
      (Reader.readingOrder (Reader.dimension version)).filter fun p => ¬ Reader.FunctionModule version p := by
  rw [zigzag_eq hversion]
  refine List.filter_congr fun p hp => ?_
  obtain ⟨hx, hy, -⟩ := readingOrder_inside hp
  rw [← matrixSize_eq] at hx hy
  have hfunction : (draw (functionPatterns version ecl) blank).isFunction p = true ↔ Reader.FunctionModule version p := by
    rw [draw_isFunction, ← mem_functionPatterns hversion ecl hx hy]
    exact or_iff_left Bool.false_ne_true
  rw [Bool.eq_iff_iff, Bool.not_eq_true', ← Bool.not_eq_true, hfunction, decide_eq_true_eq]

/-- The codewords are read. -/
theorem Finished.readCodewords_eq {codewords : List ℕ}
    (h : Finished (placed codewords version ecl) version ecl mask modules) (hversion : version ∈ versions)
    (hlength : codewords.length = getNumRawDataModules version / 8) (hbytes : ∀ n ∈ codewords, n < 256) :
    Reader.readCodewords (rowsOf (matrixSize version) modules) version mask = codewords := by
  have hroom := codewords_fit hversion
  have hbits := flatMap_bitsOf_length codewords
  rw [Reader.readCodewords, ← getNumRawDataModules_eq version hversion, ← hlength, ← hbits]
  generalize hcells : ((Reader.readingOrder (Reader.dimension version)).filter fun p =>
    ¬ Reader.FunctionModule version p) = cells at hroom
  have hread : (cells.map fun p => Reader.moduleAt (rowsOf (matrixSize version) modules) p ^^
      Reader.maskCondition mask p.2 p.1) =
      cells.map (writeAll (cells.zip (codewords.flatMap (bitsOf 8))) (draw (functionPatterns version ecl) blank).modules) := by
    refine List.map_congr_left fun p hp => ?_
    rw [← hcells] at hp
    obtain ⟨hp, hfree⟩ := List.mem_filter.mp hp
    obtain ⟨hx, hy, -⟩ := readingOrder_inside hp
    rw [← matrixSize_eq] at hx hy
    have hfunction : (placed codewords version ecl).isFunction p = false := by
      rw [← Bool.not_eq_true, placed_isFunction, mem_functionPatterns hversion ecl hx hy]
      exact of_decide_eq_true hfree
    have hformat : p ∉ (drawFormatBits (matrixSize version) .L 0).map Prod.fst := fun hp => by
      rw [format_isFunction codewords hp] at hfunction
      cases hfunction
    rw [moduleAt_rowsOf modules hx hy, h.others p hformat, hfunction, Bool.not_false, Bool.and_true, maskCondition_eq,
      Bool.xor_assoc, Bool.xor_self, Bool.xor_false, placed, placeCodewords_eq, free_eq hversion, hcells]
  have hnodup : cells.Nodup := hcells ▸ (readingOrder_nodup version).filter _
  simp only [hread]
  rw [map_writeAll_zip hnodup (by rw [hbits, hlength]; exact hroom), bytesOf_flatMap hbytes]

/-! ### The round trip -/

theorem utf8Bytes_lt (text : String) : ∀ n ∈ utf8Bytes text, n < 256 := by
  intro n hn
  obtain ⟨byte, -, rfl⟩ := List.mem_map.mp hn
  exact byte.toNat_lt

/-- A reader recovers the bytes of every text that fits the largest symbol, and the encoder throws
exactly when they do not fit. -/
theorem decode_encodeQr (text : String) (ecl : Ecl) :
    (Reader.Fits (utf8Bytes text) ecl →
      ∃ matrix, encodeQr text ecl = .ok matrix ∧ Reader.decode matrix.modules = some (utf8Bytes text)) ∧
    ((∃ error, encodeQr text ecl = .error error) ↔ ¬ Reader.Fits (utf8Bytes text) ecl) := by
  cases hchosen : chooseVersion (utf8Bytes text) ecl with
  | none =>
    have hfits := chooseVersion_eq_none.mp hchosen
    simp only [encodeQr, hchosen]
    exact ⟨fun h => absurd h hfits, fun _ => hfits, fun _ => ⟨_, rfl⟩⟩
  | some version =>
    have hfits : Reader.Fits (utf8Bytes text) ecl := by
      by_contra h
      rw [chooseVersion_eq_none.mpr h] at hchosen
      cases hchosen
    obtain ⟨hversion, hfit⟩ := chooseVersion_some hchosen
    have hlayout := layout ecl version hversion
    have hdata : (dataCodewords (utf8Bytes text) version ecl).length = getNumDataCodewords version ecl :=
      (dataCodewords_bits hfit).1
    have hbytes : ∀ n ∈ dataCodewords (utf8Bytes text) version ecl, n < 256 := bytesOf_lt _
    obtain ⟨mask, modules, hfinished, hmodules⟩ := buildMatrix_modules hversion ecl
      (addEccAndInterleave (dataCodewords (utf8Bytes text) version ecl) version ecl)
    simp only [encodeQr, hchosen]
    refine ⟨fun _ => ⟨_, rfl, ?_⟩, fun ⟨error, herror⟩ => (nomatch herror), fun h => absurd hfits h⟩
    rw [hmodules, ← rowsOf, Reader.decode, hfinished.readVersion_eq hversion]
    simp only [Option.bind_eq_bind, Option.bind_some, hfinished.readFormat_eq hversion]
    rw [hfinished.readCodewords_eq hversion (addEccAndInterleave_length hlayout hdata)
      (addEccAndInterleave_lt hlayout hdata hbytes), deinterleave_addEccAndInterleave hversion hdata,
      readMessage_dataCodewords hversion (utf8Bytes_lt text) hfit]

/-- A key of the two-step sign-in is read from its code. -/
theorem decode_encodeQr_key :
    ∃ matrix, encodeQr "otpauth://totp/AuditSphere" .M = .ok matrix ∧
      Reader.decode matrix.modules = some (utf8Bytes "otpauth://totp/AuditSphere") :=
  (decode_encodeQr "otpauth://totp/AuditSphere" .M).1 (by decide +kernel)

end AuditSphere.Qr
