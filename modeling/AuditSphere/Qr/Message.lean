import AuditSphere.Qr.Matrix
import AuditSphere.Qr.Reader

/-!
# The version and the message of a QR code

The encoder's arithmetic of the capacities agrees with the tables of the standard. It chooses a
version exactly when the bytes fit in the largest symbol, and the data codewords of that version
are a message from which the bytes are read.
-/

namespace AuditSphere.Qr

open Theory

/-! ### Capacities -/

/-- The versions there are. -/
abbrev versions : List ℕ := List.range' 1 40

theorem mem_versions {version : ℕ} : version ∈ versions ↔ 1 ≤ version ∧ version ≤ 40 := by
  rw [List.mem_range'_1]
  omega

theorem getNumDataCodewords_eq (ecl : Ecl) :
    ∀ version ∈ versions, getNumDataCodewords version ecl = Reader.ofVersion (Reader.dataCodewords ecl) 0 version := by
  cases ecl <;> decide +kernel

theorem getNumRawDataModules_eq :
    ∀ version ∈ versions, getNumRawDataModules version / 8 = Reader.ofVersion Reader.totalCodewords 0 version := by
  decide +kernel

theorem numErrorCorrectionBlocks_eq (ecl : Ecl) :
    ∀ version ∈ versions, entry numErrorCorrectionBlocks version ecl = Reader.ofVersion (Reader.blocks ecl) 0 version := by
  cases ecl <;> decide +kernel

/-- No version holds more than the last one, the wider character count of that included. -/
theorem capacity_le_last (ecl : Ecl) :
    ∀ version ∈ versions,
      8 * getNumDataCodewords version ecl + 16 ≤ 8 * getNumDataCodewords 40 ecl + ccBits version := by
  cases ecl <;> decide +kernel

/-- The character count of a version can count its data codewords. -/
theorem getNumDataCodewords_lt (ecl : Ecl) :
    ∀ version ∈ versions, getNumDataCodewords version ecl < 2 ^ ccBits version := by
  cases ecl <;> decide +kernel

theorem ccBits_mod (version : ℕ) : ccBits version % 8 = 0 := by
  unfold ccBits
  split <;> rfl

variable {bytes : List ℕ} {version : ℕ} {ecl : Ecl}

/-- The chosen version is one of the forty, and the bytes fit it. -/
theorem chooseVersion_some (h : chooseVersion bytes ecl = some version) :
    version ∈ versions ∧ 4 + ccBits version + bytes.length * 8 ≤ getNumDataCodewords version ecl * 8 := by
  have hneeded := List.find?_some h
  rw [decide_eq_true_eq] at hneeded
  exact ⟨List.mem_of_find?_eq_some h, hneeded⟩

/-- No version is chosen exactly when the bytes do not fit the largest symbol. -/
theorem chooseVersion_eq_none : chooseVersion bytes ecl = none ↔ ¬ Reader.Fits bytes ecl := by
  have hlast : getNumDataCodewords 40 ecl = Reader.ofVersion (Reader.dataCodewords ecl) 0 40 :=
    getNumDataCodewords_eq ecl 40 (by decide)
  rw [chooseVersion, List.find?_eq_none, Reader.Fits, ← hlast]
  constructor
  · intro h hfits
    have h40 := h 40 (by decide)
    rw [decide_eq_true_eq, show ccBits 40 = 16 from rfl] at h40
    omega
  · intro hfits version hversion hneeded
    have hle := capacity_le_last ecl version hversion
    rw [decide_eq_true_eq] at hneeded
    omega

/-! ### The message -/

theorem bitsOf_zero (width : ℕ) : bitsOf width 0 = List.replicate width false := by
  induction width with
  | zero => rfl
  | succ width ih => rw [bitsOf, ih, Nat.zero_testBit, List.replicate_succ]

/-- The padding bytes fill the capacity and leave the bits before them. -/
theorem appendPadding_eq (capacity pad : ℕ) (bits : List Bool) (hbits : bits.length % 8 = 0)
    (hcapacity : capacity % 8 = 0) (hle : bits.length ≤ capacity) :
    ∃ padding, appendPadding capacity pad bits = bits ++ padding ∧ bits.length + padding.length = capacity := by
  fun_induction appendPadding capacity pad bits with
  | case1 pad bits hlt ih =>
    have hlength : (bits ++ bitsOf 8 pad).length = bits.length + 8 := by rw [List.length_append, bitsOf_length]
    rw [hlength] at ih
    obtain ⟨padding, heq, hcount⟩ := ih (by omega) (by omega)
    refine ⟨bitsOf 8 pad ++ padding, by rw [heq, List.append_assoc], ?_⟩
    rw [List.length_append, bitsOf_length]
    omega
  | case2 pad bits hge => exact ⟨[], (List.append_nil bits).symm, by simp; omega⟩

/-- The bits of the data codewords: mode, character count, bytes, terminator, and padding up to the
capacity. -/
theorem dataCodewords_bits (hfit : 4 + ccBits version + bytes.length * 8 ≤ getNumDataCodewords version ecl * 8) :
    (dataCodewords bytes version ecl).length = getNumDataCodewords version ecl ∧
    ∃ padding, (dataCodewords bytes version ecl).flatMap (bitsOf 8) =
      bitsOf 4 4 ++ (bitsOf (ccBits version) bytes.length ++
        (bytes.flatMap (bitsOf 8) ++ (List.replicate 4 false ++ padding))) := by
  have hmod := ccBits_mod version
  have hhead : (bitsOf 4 4 ++ bitsOf (ccBits version) bytes.length ++ bytes.flatMap (bitsOf 8)).length =
      4 + ccBits version + 8 * bytes.length := by
    simp only [List.length_append, bitsOf_length, flatMap_bitsOf_length]
  -- the header ends in the middle of a byte, so that the terminator has its four bits
  have hterminator : min 4 (getNumDataCodewords version ecl * 8 - (4 + ccBits version + 8 * bytes.length)) = 4 := by
    omega
  have halign : (8 - (4 + ccBits version + 8 * bytes.length + 4) % 8) % 8 = 0 := by omega
  have hbits : headBits bytes version ecl = bitsOf 4 4 ++ bitsOf (ccBits version) bytes.length ++
      bytes.flatMap (bitsOf 8) ++ List.replicate 4 false := by
    simp only [headBits, hhead, hterminator, bitsOf_zero]
    rw [List.length_append, hhead, List.length_replicate, halign, List.replicate_zero, List.append_nil]
  have hlength : (headBits bytes version ecl).length = 4 + ccBits version + 8 * bytes.length + 4 := by
    rw [hbits, List.length_append, hhead, List.length_replicate]
  obtain ⟨padding, heq, hcount⟩ := appendPadding_eq (getNumDataCodewords version ecl * 8) 0xec
    (headBits bytes version ecl) (by omega) (by omega) (by omega)
  have hfull : (headBits bytes version ecl ++ padding).length = 8 * getNumDataCodewords version ecl := by
    rw [List.length_append]
    omega
  obtain ⟨hcodewords, hflat⟩ := flatMap_bytesOf hfull
  rw [dataCodewords, heq]
  refine ⟨hcodewords, padding, ?_⟩
  rw [hflat, hbits]
  simp only [List.append_assoc]

/-- The data codewords of a version that the bytes fit are a message that says the bytes. -/
theorem readMessage_dataCodewords (hversion : version ∈ versions) (hbytes : ∀ n ∈ bytes, n < 256)
    (hfit : 4 + ccBits version + bytes.length * 8 ≤ getNumDataCodewords version ecl * 8) :
    Reader.readMessage ((dataCodewords bytes version ecl).flatMap (bitsOf 8)) version = some bytes := by
  obtain ⟨-, padding, hbits⟩ := dataCodewords_bits hfit
  have hcount : bytes.length < 2 ^ ccBits version := by
    have := getNumDataCodewords_lt ecl version hversion
    omega
  have hmode : (bitsOf 4 4).length = 4 := bitsOf_length 4 4
  have hwidth : (bitsOf 4 4 ++ bitsOf (ccBits version) bytes.length).length = 4 + ccBits version := by
    rw [List.length_append, bitsOf_length, bitsOf_length]
  have hlength := flatMap_bitsOf_length bytes
  rw [hbits]
  simp only [Reader.readMessage]
  rw [show (if version ≤ 9 then 8 else 16) = ccBits version from rfl, List.take_left' hmode, List.drop_left' hmode,
    List.take_left' (bitsOf_length _ _), ofBits_bitsOf hcount, ← List.append_assoc, List.drop_left' hwidth,
    List.take_left' hlength, List.drop_left' hlength, bytesOf_flatMap hbytes, if_pos]
  refine ⟨rfl, by rw [List.length_append, hlength]; omega, fun bit hbit => ?_⟩
  rw [List.take_left' (List.length_replicate ..)] at hbit
  exact List.eq_of_mem_replicate hbit

end AuditSphere.Qr
