import AuditSphere.Qr.Codewords
import AuditSphere.Theory.Cells

/-!
# Reading a QR code

What ISO/IEC 18004 lets a reader do with a matrix of modules, stated by its tables and not by
the encoder: the version and the format information are read, the mask is removed, the modules
that belong to no function pattern are read in zigzag, the blocks are taken apart, the error
correction codewords are dropped and the message in byte mode is read.
-/

namespace AuditSphere.Qr.Reader

open Theory

/-- A matrix is the list of its rows; `true` is a dark module. -/
abbrev Matrix := List (List Bool)

/-- The module in a column and a row. -/
def moduleAt (m : Matrix) (cell : ℕ × ℕ) : Bool := (m.getD cell.2 []).getD cell.1 false

/-- The number of modules on each side. -/
def dimension (version : ℕ) : ℕ := 17 + 4 * version

/-! ### Tables, from version 1 on -/

/-- The number of codewords in a symbol. -/
def totalCodewords : List ℕ := [
  26, 44, 70, 100, 134, 172, 196, 242, 292, 346, 404, 466, 532, 581, 655, 733, 815, 901, 991, 1085,
  1156, 1258, 1364, 1474, 1588, 1706, 1828, 1921, 2051, 2185, 2323, 2465, 2611, 2761, 2876, 3034, 3196, 3362, 3532, 3706]

/-- The number of these that are data codewords. -/
def dataCodewords : Ecl → List ℕ
  | .L => [
    19, 34, 55, 80, 108, 136, 156, 194, 232, 274, 324, 370, 428, 461, 523, 589, 647, 721, 795, 861,
    932, 1006, 1094, 1174, 1276, 1370, 1468, 1531, 1631, 1735, 1843, 1955, 2071, 2191, 2306, 2434, 2566, 2702, 2812, 2956]
  | .M => [
    16, 28, 44, 64, 86, 108, 124, 154, 182, 216, 254, 290, 334, 365, 415, 453, 507, 563, 627, 669,
    714, 782, 860, 914, 1000, 1062, 1128, 1193, 1267, 1373, 1455, 1541, 1631, 1725, 1812, 1914, 1992, 2102, 2216, 2334]
  | .Q => [
    13, 22, 34, 48, 62, 76, 88, 110, 132, 154, 180, 206, 244, 261, 295, 325, 367, 397, 445, 485,
    512, 568, 614, 664, 718, 754, 808, 871, 911, 985, 1033, 1115, 1171, 1231, 1286, 1354, 1426, 1502, 1582, 1666]
  | .H => [
    9, 16, 26, 36, 46, 60, 66, 86, 100, 122, 140, 158, 180, 197, 223, 253, 283, 313, 341, 385,
    406, 442, 464, 514, 538, 596, 628, 661, 701, 745, 793, 845, 901, 961, 986, 1054, 1096, 1142, 1222, 1276]

/-- The number of error correction blocks. -/
def blocks : Ecl → List ℕ
  | .L => [
    1, 1, 1, 1, 1, 2, 2, 2, 2, 4, 4, 4, 4, 4, 6, 6, 6, 6, 7, 8, 8, 9, 9, 10, 12, 12, 12, 13, 14, 15, 16, 17, 18, 19, 19,
    20, 21, 22, 24, 25]
  | .M => [
    1, 1, 1, 2, 2, 4, 4, 4, 5, 5, 5, 8, 9, 9, 10, 10, 11, 13, 14, 16, 17, 17, 18, 20, 21, 23, 25, 26, 28, 29, 31, 33, 35,
    37, 38, 40, 43, 45, 47, 49]
  | .Q => [
    1, 1, 2, 2, 4, 4, 6, 6, 8, 8, 8, 10, 12, 16, 12, 17, 16, 18, 21, 20, 23, 23, 25, 27, 29, 34, 34, 35, 38, 40, 43, 45,
    48, 51, 53, 56, 59, 62, 65, 68]
  | .H => [
    1, 1, 2, 4, 4, 4, 5, 6, 8, 8, 11, 11, 16, 16, 18, 16, 19, 21, 25, 25, 25, 34, 30, 32, 35, 37, 40, 42, 45, 48, 51, 54,
    57, 60, 63, 66, 70, 74, 77, 81]

/-- The row and column coordinates of the centers of the alignment patterns. -/
def alignmentCoordinates : List (List ℕ) := [
  [], [6, 18], [6, 22], [6, 26], [6, 30], [6, 34], [6, 22, 38], [6, 24, 42], [6, 26, 46], [6, 28, 50], [6, 30, 54],
  [6, 32, 58], [6, 34, 62], [6, 26, 46, 66], [6, 26, 48, 70], [6, 26, 50, 74], [6, 30, 54, 78], [6, 30, 56, 82],
  [6, 30, 58, 86], [6, 34, 62, 90], [6, 28, 50, 72, 94], [6, 26, 50, 74, 98], [6, 30, 54, 78, 102],
  [6, 28, 54, 80, 106], [6, 32, 58, 84, 110], [6, 30, 58, 86, 114], [6, 34, 62, 90, 118], [6, 26, 50, 74, 98, 122],
  [6, 30, 54, 78, 102, 126], [6, 26, 52, 78, 104, 130], [6, 30, 56, 82, 108, 134], [6, 34, 60, 86, 112, 138],
  [6, 30, 58, 86, 114, 142], [6, 34, 62, 90, 118, 146], [6, 30, 54, 78, 102, 126, 150], [6, 24, 50, 76, 102, 128, 154],
  [6, 28, 54, 80, 106, 132, 158], [6, 32, 58, 84, 110, 136, 162], [6, 26, 54, 82, 110, 138, 166],
  [6, 30, 58, 86, 114, 142, 170]]

/-- The valid format information, by the five data bits. -/
def formatInformation : List ℕ := [
  0x5412, 0x5125, 0x5E7C, 0x5B4B, 0x45F9, 0x40CE, 0x4F97, 0x4AA0, 0x77C4, 0x72F3, 0x7DAA, 0x789D, 0x662F, 0x6318, 0x6C41,
  0x6976, 0x1689, 0x13BE, 0x1CE7, 0x19D0, 0x0762, 0x0255, 0x0D0C, 0x083B, 0x355F, 0x3068, 0x3F31, 0x3A06, 0x24B4, 0x2183,
  0x2EDA, 0x2BED]

/-- The valid version information, from version 7 on. -/
def versionInformation : List ℕ := [
  0x07C94, 0x085BC, 0x09A99, 0x0A4D3, 0x0BBF6, 0x0C762, 0x0D847, 0x0E60D, 0x0F928, 0x10B78, 0x1145D, 0x12A17, 0x13532,
  0x149A6, 0x15683, 0x168C9, 0x177EC, 0x18EC4, 0x191E1, 0x1AFAB, 0x1B08E, 0x1CC1A, 0x1D33F, 0x1ED75, 0x1F250, 0x209D5,
  0x216F0, 0x228BA, 0x2379F, 0x24B0B, 0x2542E, 0x26A64, 0x27541, 0x28C69]

/-- The entry of a table for a version. -/
def ofVersion {α : Type} (table : List α) (default : α) (version : ℕ) : α := table.getD (version - 1) default

/-! ### Version and format information -/

/-- The number that the modules of some cells spell, the most significant bit first. -/
def spelled (m : Matrix) (cells : List (ℕ × ℕ)) : ℕ := ofBits (cells.map (moduleAt m))

/-- The cells of the version information beside the upper right finder. -/
def versionCells (version : ℕ) : List (ℕ × ℕ) :=
  (List.range 18).reverse.map fun i => (dimension version - 11 + i % 3, i / 3)

/-- The version is that of the size, and from version 7 on both copies of the version information
say so. -/
def readVersion (m : Matrix) : Option ℕ :=
  (List.range' 1 40).find? fun version =>
    m.length = dimension version ∧ (∀ row ∈ m, row.length = m.length) ∧
      (version < 7 ∨
        (spelled m (versionCells version) = versionInformation.getD (version - 7) 0 ∧
          spelled m ((versionCells version).map Prod.swap) = versionInformation.getD (version - 7) 0))

/-- The cells of the format information around the upper left finder. -/
def formatCells : List (ℕ × ℕ) := [
  (0, 8), (1, 8), (2, 8), (3, 8), (4, 8), (5, 8), (7, 8), (8, 8), (8, 7), (8, 5), (8, 4), (8, 3), (8, 2), (8, 1), (8, 0)]

/-- The cells of its copy beside the two other finders. -/
def formatCopyCells (size : ℕ) : List (ℕ × ℕ) :=
  (List.range 7).map (fun i => (8, size - 1 - i)) ++ (List.range 8).map fun i => (size - 8 + i, 8)

/-- The level of its indicator. -/
def levelOf : ℕ → Ecl
  | 0 => .M
  | 1 => .L
  | 2 => .H
  | _ => .Q

/-- The level and the mask that both copies of the format information give. -/
def readFormat (m : Matrix) : Option (Ecl × ℕ) :=
  ((List.range 32).find? fun data =>
    spelled m formatCells = formatInformation.getD data 0 ∧
      spelled m (formatCopyCells m.length) = formatInformation.getD data 0).map fun data => (levelOf (data / 8), data % 8)

/-! ### Function patterns -/

/-- The centers of the alignment patterns: all pairs of coordinates that do not meet a finder. -/
def alignmentCenters (version : ℕ) : List (ℕ × ℕ) :=
  let coordinates := ofVersion alignmentCoordinates [] version
  let last := dimension version - 7
  (coordinates.product coordinates).filter fun c => c ≠ (6, 6) ∧ c ≠ (6, last) ∧ c ≠ (last, 6)

/-- The cell belongs to a finder with its separator and the format information, to a timing
pattern, to an alignment pattern or to the version information. -/
def FunctionModule (version : ℕ) (cell : ℕ × ℕ) : Prop :=
  let size := dimension version
  (cell.1 < 9 ∧ cell.2 < 9) ∨ (size - 8 ≤ cell.1 ∧ cell.2 < 9) ∨ (cell.1 < 9 ∧ size - 8 ≤ cell.2) ∨
  cell.1 = 6 ∨ cell.2 = 6 ∨
  (∃ c ∈ alignmentCenters version, c.1 ≤ cell.1 + 2 ∧ cell.1 ≤ c.1 + 2 ∧ c.2 ≤ cell.2 + 2 ∧ cell.2 ≤ c.2 + 2) ∨
  (7 ≤ version ∧
    ((size - 11 ≤ cell.1 ∧ cell.1 < size - 8 ∧ cell.2 < 6) ∨ (cell.1 < 6 ∧ size - 11 ≤ cell.2 ∧ cell.2 < size - 8)))

instance (version : ℕ) : DecidablePred (FunctionModule version) := fun _ => inferInstanceAs (Decidable (_ ∨ _))

/-! ### Codewords -/

/-- The condition of a data mask for a row and a column; the masked modules are those that meet it. -/
def maskCondition (mask row column : ℕ) : Bool :=
  match mask with
  | 0 => (row + column) % 2 = 0
  | 1 => row % 2 = 0
  | 2 => column % 3 = 0
  | 3 => (row + column) % 3 = 0
  | 4 => (row / 2 + column / 3) % 2 = 0
  | 5 => row * column % 2 + row * column % 3 = 0
  | 6 => (row * column % 2 + row * column % 3) % 2 = 0
  | 7 => ((row + column) % 2 + row * column % 3) % 2 = 0
  | _ => false

/-- The right one of a pair of columns, counted from the right side; column 6 is in no pair. -/
def rightColumn (size pair : ℕ) : ℕ :=
  if size - 1 - 2 * pair > 6 then size - 1 - 2 * pair else size - 2 - 2 * pair

/-- All modules outside column 6, two columns at a time from the right, upwards and downwards in turn. -/
def readingOrder (size : ℕ) : List (ℕ × ℕ) :=
  (List.range ((size - 1) / 2)).flatMap fun pair =>
    (List.range size).flatMap fun i =>
      let row := if pair % 2 = 0 then size - 1 - i else i
      [(rightColumn size pair, row), (rightColumn size pair - 1, row)]

/-- The codewords of the symbol, the mask removed. -/
def readCodewords (m : Matrix) (version mask : ℕ) : List ℕ :=
  let cells := (readingOrder (dimension version)).filter fun cell => ¬ FunctionModule version cell
  let bits := cells.map fun cell => moduleAt m cell ^^ maskCondition mask cell.2 cell.1
  bytesOf (bits.take (8 * ofVersion totalCodewords 0 version))

/-- The data codewords in their order. The first blocks are the shorter ones, and the
codewords of all blocks come in turn. -/
def deinterleave (codewords : List ℕ) (version : ℕ) (ecl : Ecl) : List ℕ :=
  let count := ofVersion (blocks ecl) 0 version
  let short := ofVersion (dataCodewords ecl) 0 version / count
  let shorter := count - ofVersion (dataCodewords ecl) 0 version % count
  (List.range count).flatMap fun j =>
    (List.range short).map (fun i => codewords.getD (i * count + j) 0) ++
      if j < shorter then [] else [codewords.getD (short * count + (j - shorter)) 0]

/-! ### Message -/

/-- A message of one segment in byte mode, which the terminator or the end of the data follows. -/
def readMessage (bits : List Bool) (version : ℕ) : Option (List ℕ) :=
  let width := if version ≤ 9 then 8 else 16
  let count := ofBits ((bits.drop 4).take width)
  let rest := bits.drop (4 + width)
  if ofBits (bits.take 4) = 4 ∧ 8 * count ≤ rest.length ∧ ∀ bit ∈ (rest.drop (8 * count)).take 4, bit = false then
    some (bytesOf (rest.take (8 * count)))
  else none

/-- The bytes that a matrix says. -/
def decode (m : Matrix) : Option (List ℕ) := do
  let version ← readVersion m
  let (ecl, mask) ← readFormat m
  readMessage ((deinterleave (readCodewords m version mask) version ecl).flatMap (bitsOf 8)) version

/-- The bytes fit in the largest symbol at the level. -/
def Fits (bytes : List ℕ) (ecl : Ecl) : Prop := 4 + 16 + 8 * bytes.length ≤ 8 * ofVersion (dataCodewords ecl) 0 40

instance (bytes : List ℕ) (ecl : Ecl) : Decidable (Fits bytes ecl) := inferInstanceAs (Decidable (_ ≤ _))

end AuditSphere.Qr.Reader
