import AuditSphere.Theory.Bits

/-!
# Codewords of a QR code

The first half of the encoder of the web application (`lib/qr.ts`): the tables of the error
correction levels, the data codewords of a text in byte mode, the Reed–Solomon remainders and
the interleaving of the blocks.
-/

namespace AuditSphere.Qr

open Theory

/-- The error correction levels. -/
inductive Ecl where
  | L
  | M
  | Q
  | H
  deriving DecidableEq, Repr

def eclIndex : Ecl → ℕ
  | .L => 0
  | .M => 1
  | .Q => 2
  | .H => 3

def eclFormatBits : Ecl → ℕ
  | .L => 1
  | .M => 0
  | .Q => 3
  | .H => 2

/-- Indexed by level and version; index 0 is a placeholder that no version reads. -/
def eccCodewordsPerBlock : List (List ℕ) := [
  [0, 7, 10, 15, 20, 26, 18, 20, 24, 30, 18, 20, 24, 26, 30, 22, 24, 28, 30, 28, 28, 28, 28, 30, 30, 26, 28, 30, 30,
    30, 30, 30, 30, 30, 30, 30, 30, 30, 30, 30, 30],
  [0, 10, 16, 26, 18, 24, 16, 18, 22, 22, 26, 30, 22, 22, 24, 24, 28, 28, 26, 26, 26, 26, 28, 28, 28, 28, 28, 28, 28,
    28, 28, 28, 28, 28, 28, 28, 28, 28, 28, 28, 28],
  [0, 13, 22, 18, 26, 18, 24, 18, 22, 20, 24, 28, 26, 24, 20, 30, 24, 28, 28, 26, 30, 28, 30, 30, 30, 30, 28, 30, 30,
    30, 30, 30, 30, 30, 30, 30, 30, 30, 30, 30, 30],
  [0, 17, 28, 22, 16, 22, 28, 26, 26, 24, 28, 24, 28, 22, 24, 24, 30, 28, 28, 26, 28, 30, 24, 30, 30, 30, 30, 30, 30,
    30, 30, 30, 30, 30, 30, 30, 30, 30, 30, 30, 30]]

/-- Indexed as `eccCodewordsPerBlock`. -/
def numErrorCorrectionBlocks : List (List ℕ) := [
  [0, 1, 1, 1, 1, 1, 2, 2, 2, 2, 4, 4, 4, 4, 4, 6, 6, 6, 6, 7, 8, 8, 9, 9, 10, 12, 12, 12, 13, 14, 15, 16, 17, 18, 19,
    19, 20, 21, 22, 24, 25],
  [0, 1, 1, 1, 2, 2, 4, 4, 4, 5, 5, 5, 8, 9, 9, 10, 10, 11, 13, 14, 16, 17, 17, 18, 20, 21, 23, 25, 26, 28, 29, 31, 33,
    35, 37, 38, 40, 43, 45, 47, 49],
  [0, 1, 1, 2, 2, 4, 4, 6, 6, 8, 8, 8, 10, 12, 16, 12, 17, 16, 18, 21, 20, 23, 23, 25, 27, 29, 34, 34, 35, 38, 40, 43,
    45, 48, 51, 53, 56, 59, 62, 65, 68],
  [0, 1, 1, 2, 4, 4, 4, 5, 6, 8, 8, 11, 11, 16, 16, 18, 16, 19, 21, 25, 25, 25, 34, 30, 32, 35, 37, 40, 42, 45, 48, 51,
    54, 57, 60, 63, 66, 70, 74, 77, 81]]

/-- The entry of a table for a level and a version. -/
def entry (table : List (List ℕ)) (ver : ℕ) (ecl : Ecl) : ℕ := (table.getD (eclIndex ecl) []).getD ver 0

def getNumRawDataModules (ver : ℕ) : ℕ :=
  let result := (16 * ver + 128) * ver + 64
  if ver ≥ 2 then
    let numAlign := ver / 7 + 2
    let result := result - ((25 * numAlign - 10) * numAlign - 55)
    if ver ≥ 7 then result - 36 else result
  else result

def getNumDataCodewords (ver : ℕ) (ecl : Ecl) : ℕ :=
  getNumRawDataModules ver / 8 - entry eccCodewordsPerBlock ver ecl * entry numErrorCorrectionBlocks ver ecl

/-! ### Reed–Solomon -/

def gfMultiply (x y : ℕ) : ℕ :=
  ((List.range 8).reverse.foldl
    (fun z i => ((z <<< 1) ^^^ ((z >>> 7) * 0x11d)) ^^^ (((y >>> i) &&& 1) * x)) 0) &&& 0xff

/-- One round of the divisor: every coefficient is multiplied by the root, and the next one,
which the round has not reached yet, is added to it. -/
def multiplyRoot (root : ℕ) : List ℕ → List ℕ
  | [] => []
  | [c] => [gfMultiply c root]
  | c :: d :: cs => (gfMultiply c root ^^^ d) :: multiplyRoot root (d :: cs)

def rsComputeDivisor (degree : ℕ) : List ℕ :=
  ((List.range degree).foldl (fun (result, root) _ => (multiplyRoot root result, gfMultiply root 0x02))
    (List.replicate (degree - 1) 0 ++ [1], 1)).1

def rsComputeRemainder (data divisor : List ℕ) : List ℕ :=
  data.foldl
    (fun result b =>
      let factor := b ^^^ result.headD 0
      List.zipWith (fun r coef => r ^^^ gfMultiply coef factor) (result.tail ++ [0]) divisor)
    (List.replicate divisor.length 0)

/-! ### The data codewords -/

/-- What the text encoder gives for a text. -/
def utf8Bytes (text : String) : List ℕ := text.toUTF8.data.toList.map UInt8.toNat

/-- The width of the character count. -/
def ccBits (version : ℕ) : ℕ := if version ≤ 9 then 8 else 16

/-- The smallest version that fits. -/
def chooseVersion (bytes : List ℕ) (ecl : Ecl) : Option ℕ :=
  (List.range' 1 40).find? fun version =>
    4 + ccBits version + bytes.length * 8 ≤ getNumDataCodewords version ecl * 8

/-- The padding bytes, from `pad` on, until the bits fill the capacity. -/
def appendPadding (dataCapacityBits pad : ℕ) (bits : List Bool) : List Bool :=
  if bits.length < dataCapacityBits then
    appendPadding dataCapacityBits (pad ^^^ (0xec ^^^ 0x11)) (bits ++ bitsOf 8 pad)
  else bits
  termination_by dataCapacityBits - bits.length
  decreasing_by rw [List.length_append, bitsOf_length]; omega

/-- The bits of the buffer before the padding bytes: mode, character count, bytes, terminator and
the bits up to a whole byte. -/
def headBits (bytes : List ℕ) (version : ℕ) (ecl : Ecl) : List Bool :=
  let dataCapacityBits := getNumDataCodewords version ecl * 8
  let bits := bitsOf 4 0x4 ++ bitsOf (ccBits version) bytes.length ++ bytes.flatMap (bitsOf 8)
  let bits := bits ++ bitsOf (min 4 (dataCapacityBits - bits.length)) 0
  bits ++ bitsOf ((8 - bits.length % 8) % 8) 0

def dataCodewords (bytes : List ℕ) (version : ℕ) (ecl : Ecl) : List ℕ :=
  bytesOf (appendPadding (getNumDataCodewords version ecl * 8) 0xec (headBits bytes version ecl))

/-! ### Blocks -/

/-- The blocks from the position `k` of the data on, each with its remainder; a short block has a
placeholder between the two. -/
def eccBlocks (data : List ℕ) (numShortBlocks shortDataLen : ℕ) (rsDiv : List ℕ) : List ℕ → ℕ → List (List ℕ)
  | [], _ => []
  | i :: is, k =>
    let dat := (data.drop k).take (shortDataLen + if i < numShortBlocks then 0 else 1)
    let ecc := rsComputeRemainder dat rsDiv
    ((if i < numShortBlocks then dat ++ [0] else dat) ++ ecc) ::
      eccBlocks data numShortBlocks shortDataLen rsDiv is (k + dat.length)

def addEccAndInterleave (data : List ℕ) (ver : ℕ) (ecl : Ecl) : List ℕ :=
  let numBlocks := entry numErrorCorrectionBlocks ver ecl
  let blockEccLen := entry eccCodewordsPerBlock ver ecl
  let rawCodewords := getNumRawDataModules ver / 8
  let numShortBlocks := numBlocks - rawCodewords % numBlocks
  let shortBlockLen := rawCodewords / numBlocks
  let blocks := eccBlocks data numShortBlocks (shortBlockLen - blockEccLen) (rsComputeDivisor blockEccLen)
    (List.range numBlocks) 0
  (List.range (blocks.headD []).length).flatMap fun i =>
    (List.range blocks.length).flatMap fun j =>
      -- the placeholder of a short block is left out
      if i ≠ shortBlockLen - blockEccLen ∨ j ≥ numShortBlocks then [(blocks.getD j []).getD i 0] else []

end AuditSphere.Qr
