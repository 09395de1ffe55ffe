import AuditSphere.Documents.Storage

/-!
# Framing for the scanner

`scanWithClamAv` sends a document to clamd in chunks: the command, then each chunk after its
length, and a length of zero at the end. clamd reads what follows the command by the rule of
`INSTREAM` (`instream`).
-/

namespace AuditSphere.Documents

/-! ### Writing -/

/-- `writeUInt32BE`. -/
def writeUInt32BE (n : ℕ) : Bytes :=
  [UInt8.ofNat (n / 2 ^ 24), UInt8.ofNat (n / 2 ^ 16), UInt8.ofNat (n / 2 ^ 8), UInt8.ofNat n]

/-- The command. -/
def instreamCommand : Bytes := "zINSTREAM\x00".toUTF8.toList

/-- `Buffer.concat([length, chunk])`; a length of 2^32 or more is out of range, and the scan fails. -/
def frame (chunk : Bytes) : Option Bytes := if chunk.length < 2 ^ 32 then some (writeUInt32BE chunk.length ++ chunk) else none

/-- What `scanWithClamAv` writes to the socket for the chunks of a stream, one write after the other. -/
def scanWrites (chunks : List Bytes) : Option (List Bytes) := do
  let frames ← chunks.mapM frame
  return instreamCommand :: frames ++ [List.replicate 4 0]

/-! ### Reading -/

/-- The number of four bytes. -/
def readUInt32BE (a b c d : UInt8) : ℕ := 2 ^ 24 * a.toNat + 2 ^ 16 * b.toNat + 2 ^ 8 * c.toNat + d.toNat

/-- What clamd takes for the contents of the file, and what is left after the length of zero; nothing if the input
ends too early. -/
def instream (input : Bytes) : Option (Bytes × Bytes) :=
  match input with
  | a :: b :: c :: d :: rest =>
    if readUInt32BE a b c d = 0 then some ([], rest)
    else if readUInt32BE a b c d ≤ rest.length then
      (instream (rest.drop (readUInt32BE a b c d))).map fun (content, after) =>
        (rest.take (readUInt32BE a b c d) ++ content, after)
    else none
  | _ => none
termination_by input.length
decreasing_by
  generalize readUInt32BE a b c d = n
  rw [List.length_drop, List.length_cons, List.length_cons, List.length_cons, List.length_cons]
  omega

theorem readUInt32BE_write {n : ℕ} (h : n < 2 ^ 32) : readUInt32BE (UInt8.ofNat (n / 2 ^ 24)) (UInt8.ofNat (n / 2 ^ 16))
    (UInt8.ofNat (n / 2 ^ 8)) (UInt8.ofNat n) = n := by
  simp only [readUInt32BE, UInt8.toNat_ofNat']
  omega

/-- The length of zero ends the contents. -/
theorem instream_zero (rest : Bytes) : instream (List.replicate 4 0 ++ rest) = some ([], rest) := by
  rw [show List.replicate 4 (0 : UInt8) ++ rest = 0 :: 0 :: 0 :: 0 :: rest from rfl, instream, if_pos (by decide)]

/-- A frame is read as its chunk. -/
theorem instream_frame {chunk : Bytes} (hne : chunk ≠ []) (hlt : chunk.length < 2 ^ 32) (rest : Bytes) :
    instream (writeUInt32BE chunk.length ++ chunk ++ rest) =
      (instream rest).map fun (content, after) => (chunk ++ content, after) := by
  have hpos : chunk.length ≠ 0 := fun h => hne (List.length_eq_zero_iff.mp h)
  rw [List.append_assoc, writeUInt32BE, List.cons_append, List.cons_append, List.cons_append, List.cons_append,
    List.nil_append, instream, readUInt32BE_write hlt, if_neg hpos, if_pos (by rw [List.length_append]; omega),
    List.drop_left, List.take_left]

/-- What is read does not change if more follows. -/
theorem instream_append {input content after : Bytes} (h : instream input = some (content, after)) (more : Bytes) :
    instream (input ++ more) = some (content, after ++ more) := by
  induction input using instream.induct generalizing content after with
  | case1 a b c d rest hzero =>
    rw [instream, if_pos hzero] at h
    obtain ⟨rfl, rfl⟩ := Prod.mk.inj (Option.some.inj h)
    rw [List.cons_append, List.cons_append, List.cons_append, List.cons_append, instream, if_pos hzero]
  | case2 a b c d rest hzero hle ih =>
    rw [instream, if_neg hzero, if_pos hle] at h
    obtain ⟨⟨content', after'⟩, hrest, heq⟩ := Option.map_eq_some_iff.mp h
    obtain ⟨rfl, rfl⟩ := Prod.mk.inj heq
    rw [List.cons_append, List.cons_append, List.cons_append, List.cons_append, instream, if_neg hzero,
      if_pos (by rw [List.length_append]; omega), List.drop_append_of_le_length hle, List.take_append_of_le_length hle,
      ih hrest]
    rfl
  | case3 a b c d rest hzero hle =>
    rw [instream, if_neg hzero, if_neg hle] at h
    cases h
  | case4 input hshort =>
    rw [instream] at h
    · cases h
    · exact hshort

/-! ### The round trip -/

/-- The frames of chunks. -/
theorem mapM_frame {chunks : List Bytes} (h : ∀ chunk ∈ chunks, chunk.length < 2 ^ 32) :
    chunks.mapM frame = some (chunks.map fun chunk => writeUInt32BE chunk.length ++ chunk) := by
  induction chunks with
  | nil => rfl
  | cons chunk chunks ih =>
    obtain ⟨hchunk, hchunks⟩ := List.forall_mem_cons.mp h
    rw [List.mapM_cons, ih hchunks, frame, if_pos hchunk]
    rfl

/-- Frames and the length of zero are read as the chunks. -/
theorem instream_frames {chunks : List Bytes} (h : ∀ chunk ∈ chunks, chunk ≠ [] ∧ chunk.length < 2 ^ 32) :
    instream ((chunks.map fun (chunk : Bytes) => writeUInt32BE chunk.length ++ chunk) ++ [List.replicate 4 0]).flatten =
      some (chunks.flatten, []) := by
  induction chunks with
  | nil => exact instream_zero []
  | cons chunk chunks ih =>
    obtain ⟨⟨hne, hlt⟩, hchunks⟩ := List.forall_mem_cons.mp h
    rw [List.map_cons, List.cons_append, List.flatten_cons, instream_frame hne hlt, ih hchunks]
    rfl

/-- **Every byte is scanned**: what follows the command is read as the chunks, one after the other, with the length of
zero at the end and nothing after it, and no part of it that is sent so far is read as a whole file. -/
theorem scanWrites_read {chunks : List Bytes} (h : ∀ chunk ∈ chunks, chunk ≠ [] ∧ chunk.length < 2 ^ 32) :
    ∃ frames, scanWrites chunks = some (instreamCommand :: (frames ++ [List.replicate 4 0])) ∧
      instream (frames ++ [List.replicate 4 0]).flatten = some (chunks.flatten, []) ∧
      ∀ sent more, sent ++ more = (frames ++ [List.replicate 4 0]).flatten → more ≠ [] → instream sent = none := by
  have hread := instream_frames h
  refine ⟨chunks.map fun chunk => writeUInt32BE chunk.length ++ chunk, ?_, hread, fun sent more hsent hmore => ?_⟩
  · rw [scanWrites, mapM_frame fun chunk hchunk => (h chunk hchunk).2]
    rfl
  · rw [Option.eq_none_iff_forall_ne_some]
    rintro ⟨content, after⟩ hearly
    -- what is read of a part leaves the rest unread
    rw [← hsent, instream_append hearly, Option.some.injEq, Prod.mk.injEq] at hread
    exact hmore (List.append_eq_nil_iff.mp hread.2).2

/-- Two chunks. -/
theorem two_chunks_read : ∃ frames, scanWrites [[80, 75], [3]] = some (instreamCommand :: (frames ++ [List.replicate 4 0])) ∧
    instream (frames ++ [List.replicate 4 0]).flatten = some ([80, 75, 3], []) := by
  obtain ⟨frames, hwrites, hread, -⟩ := @scanWrites_read [[80, 75], [3]] (by decide)
  exact ⟨frames, hwrites, hread⟩

end AuditSphere.Documents
