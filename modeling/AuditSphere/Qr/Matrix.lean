import AuditSphere.Qr.Codewords
import AuditSphere.Theory.Cells
import Mathlib.Data.Int.Order.Basic

/-!
# The matrix of a QR code

The second half of the encoder of the web application (`lib/qr.ts`): the function patterns, the
codewords in zigzag, the masks with their penalty score, and `encodeQr`, which puts the two
halves together. A cell is a pair of its column and its row. A drawing is the list of the
modules that it sets, in the order in which it sets them.
-/

namespace AuditSphere.Qr

open Theory

abbrev Cell := ℕ × ℕ

/-- What is drawn so far: the dark modules and the function modules. -/
structure Canvas where
  modules : Cell → Bool
  isFunction : Cell → Bool

/-- A module that is set, and whether it is dark. -/
abbrev Call := Cell × Bool

def setFn (c : Canvas) (call : Call) : Canvas where
  modules := Function.update c.modules call.1 call.2
  isFunction := Function.update c.isFunction call.1 true

/-- Draw function modules. -/
def draw (calls : List Call) (c : Canvas) : Canvas := calls.foldl setFn c

def blank : Canvas where
  modules := fun _ => false
  isFunction := fun _ => false

def matrixSize (version : ℕ) : ℕ := version * 4 + 17

def getBit (x i : ℕ) : Bool := x.testBit i

/-! ### Function patterns -/

def timing (size : ℕ) : List Call :=
  (List.range size).flatMap fun i => [((6, i), i % 2 == 0), ((i, 6), i % 2 == 0)]

/-- The integers from `-n` to `n`. -/
def offsets (n : ℕ) : List ℤ := (List.range (2 * n + 1)).map fun (i : ℕ) => (i : ℤ) - n

def drawFinder (size x y : ℕ) : List Call :=
  (offsets 4).flatMap fun (dy : ℤ) =>
    (offsets 4).flatMap fun (dx : ℤ) =>
      let dist := max |dx| |dy|
      let xx := x + dx
      let yy := y + dy
      if xx ≥ 0 ∧ xx < size ∧ yy ≥ 0 ∧ yy < size then [((xx.toNat, yy.toNat), dist != 2 && dist != 4)] else []

def drawAlign (center : Cell) : List Call :=
  (offsets 2).flatMap fun (dy : ℤ) =>
    (offsets 2).map fun (dx : ℤ) => (((center.1 + dx).toNat, (center.2 + dy).toNat), max |dx| |dy| != 1)

/-- Put one position after the other behind the first, in steps down from `p`. -/
def alignPositions (step : ℕ) : ℕ → ℕ → List ℕ → List ℕ
  | 0, _, pos => pos
  | missing + 1, p, pos => alignPositions step missing (p - step) (pos.insertIdx 1 p)

/-- The centers of the alignment patterns, except where the finders are. -/
def alignCenters (version : ℕ) : List Cell :=
  if version > 1 then
    let numAlign := version / 7 + 2
    let step := if version = 32 then 26 else (version * 4 + 4 + (numAlign * 2 - 2) - 1) / (numAlign * 2 - 2) * 2
    let pos := alignPositions step (numAlign - 1) (matrixSize version - 7) [6]
    (List.range numAlign).flatMap fun i =>
      (List.range numAlign).flatMap fun j =>
        if (i = 0 ∧ j = 0) ∨ (i = 0 ∧ j = numAlign - 1) ∨ (i = numAlign - 1 ∧ j = 0) then []
        else [(pos.getD i 0, pos.getD j 0)]
  else []

def formatBits (ecl : Ecl) (mask : ℕ) : ℕ :=
  let data := (eclFormatBits ecl <<< 3) ||| mask
  let rem := (List.range 10).foldl (fun rem _ => (rem <<< 1) ^^^ ((rem >>> 9) * 0x537)) data
  ((data <<< 10) ||| rem) ^^^ 0x5412

def drawFormatBits (size : ℕ) (ecl : Ecl) (mask : ℕ) : List Call :=
  let bits := formatBits ecl mask
  (List.range 6).map (fun i => ((8, i), getBit bits i)) ++
  [((8, 7), getBit bits 6), ((8, 8), getBit bits 7), ((7, 8), getBit bits 8)] ++
  (List.range' 9 6).map (fun i => ((14 - i, 8), getBit bits i)) ++
  (List.range 8).map (fun i => ((size - 1 - i, 8), getBit bits i)) ++
  (List.range' 8 7).map (fun i => ((8, size - 15 + i), getBit bits i)) ++
  [((8, size - 8), true)]

def versionBits (version : ℕ) : ℕ :=
  let rem := (List.range 12).foldl (fun rem _ => (rem <<< 1) ^^^ ((rem >>> 11) * 0x1f25)) version
  (version <<< 12) ||| rem

def drawVersion (version : ℕ) : List Call :=
  if version < 7 then []
  else
    (List.range 18).flatMap fun i =>
      let bit := getBit (versionBits version) i
      let a := matrixSize version - 11 + i % 3
      let b := i / 3
      [((a, b), bit), ((b, a), bit)]

/-- All the function patterns, with the format bits of the first mask. -/
def functionPatterns (version : ℕ) (ecl : Ecl) : List Call :=
  let size := matrixSize version
  timing size ++ drawFinder size 3 3 ++ drawFinder size (size - 4) 3 ++ drawFinder size 3 (size - 4) ++
  (alignCenters version).flatMap drawAlign ++ drawFormatBits size ecl 0 ++ drawVersion version

/-! ### Codewords -/

/-- The right columns of the pairs of columns, from `right` on; the vertical timing pattern is
passed over. -/
def rightColumns (right : ℕ) : List ℕ :=
  if right ≥ 1 then
    let right' := if right = 6 then 5 else right
    right' :: rightColumns (right' - 2)
  else []
  termination_by right
  decreasing_by all_goals (split <;> omega)

/-- The modules in the order in which the codewords are placed. -/
def zigzag (size : ℕ) : List Cell :=
  (rightColumns (size - 1)).flatMap fun right =>
    (List.range size).flatMap fun vert =>
      (List.range 2).map fun j =>
        let x := right - j
        let upward := ((right + 1) &&& 2) == 0
        (x, if upward then size - 1 - vert else vert)

/-- Place the next bit, if the module is free and a bit is left. -/
def placeBit (codewords : List ℕ) : Canvas × ℕ → Cell → Canvas × ℕ
  | (c, bitIndex), cell =>
    if !c.isFunction cell && bitIndex < codewords.length * 8 then
      let bit := getBit (codewords.getD (bitIndex >>> 3) 0) (7 - (bitIndex &&& 7))
      ({ c with modules := Function.update c.modules cell bit }, bitIndex + 1)
    else (c, bitIndex)

def placeCodewords (size : ℕ) (codewords : List ℕ) (c : Canvas) : Canvas :=
  ((zigzag size).foldl (placeBit codewords) (c, 0)).1

/-! ### Masks -/

def invert (mask : ℕ) : Cell → Bool
  | (x, y) =>
    match mask with
    | 0 => (x + y) % 2 == 0
    | 1 => y % 2 == 0
    | 2 => x % 3 == 0
    | 3 => (x + y) % 3 == 0
    | 4 => (x / 3 + y / 2) % 2 == 0
    | 5 => x * y % 2 + x * y % 3 == 0
    | 6 => (x * y % 2 + x * y % 3) % 2 == 0
    | 7 => ((x + y) % 2 + x * y % 3) % 2 == 0
    | _ => false

def applyMask (mask : ℕ) (c : Canvas) : Canvas :=
  { c with modules := fun cell => if invert mask cell && !c.isFunction cell then !c.modules cell else c.modules cell }

def addHistory (size runLen : ℕ) (hist : List ℕ) : List ℕ :=
  (if hist.headD 0 = 0 then runLen + size else runLen) :: hist.dropLast

def countPatterns (h : List ℕ) : ℤ :=
  let n := h.getD 1 0
  let core := n > 0 ∧ h.getD 2 0 = n ∧ h.getD 3 0 = n * 3 ∧ h.getD 4 0 = n ∧ h.getD 5 0 = n
  (if core ∧ h.getD 0 0 ≥ n * 4 ∧ h.getD 6 0 ≥ n then 1 else 0) +
    (if core ∧ h.getD 6 0 ≥ n * 4 ∧ h.getD 0 0 ≥ n then 1 else 0)

def terminateAndCount (size : ℕ) (color : Bool) (runLen : ℕ) (hist : List ℕ) : ℤ :=
  if color then countPatterns (addHistory size size (addHistory size runLen hist))
  else countPatterns (addHistory size (runLen + size) hist)

/-- The state of the walk along a row or a column. -/
structure Run where
  result : ℤ
  runColor : Bool
  runLen : ℕ
  hist : List ℕ

def Run.step (size : ℕ) (run : Run) (module : Bool) : Run :=
  if module = run.runColor then
    let runLen := run.runLen + 1
    let score := if runLen = 5 then 3 else if runLen > 5 then 1 else 0
    { run with result := run.result + score, runLen := runLen }
  else
    let hist := addHistory size run.runLen run.hist
    let score := if !run.runColor then countPatterns hist * 40 else 0
    { result := run.result + score, runColor := module, runLen := 1, hist := hist }

/-- The penalty of the runs and the finder-like patterns of a row or a column. -/
def linePenalty (size : ℕ) (line : List Bool) : ℤ :=
  let run := line.foldl (Run.step size) ⟨0, false, 0, [0, 0, 0, 0, 0, 0, 0]⟩
  run.result + terminateAndCount size run.runColor run.runLen run.hist * 40

def penaltyScore (size : ℕ) (modules : Cell → Bool) : ℤ :=
  let rows := (List.range size).map fun y => linePenalty size ((List.range size).map fun x => modules (x, y))
  let columns := (List.range size).map fun x => linePenalty size ((List.range size).map fun y => modules (x, y))
  let squares := (List.range (size - 1)).flatMap fun y =>
    (List.range (size - 1)).map fun x =>
      let c := modules (x, y)
      if c = modules (x + 1, y) ∧ c = modules (x, y + 1) ∧ c = modules (x + 1, y + 1) then (3 : ℤ) else 0
  let dark := ((List.range size).flatMap fun y => (List.range size).filter fun x => modules (x, y)).length
  let total := size * size
  let k : ℤ := (((dark * 20 : ℤ) - total * 10).natAbs + total - 1) / total - 1
  rows.sum + columns.sum + squares.sum + k * 10

/-- The canvas, the best mask so far and its penalty. -/
structure Choice where
  canvas : Canvas
  bestMask : ℕ
  minPenalty : Option ℤ

/-- Try a mask and undo it. -/
def tryMask (size : ℕ) (ecl : Ecl) (choice : Choice) (m : ℕ) : Choice :=
  let canvas := draw (drawFormatBits size ecl m) (applyMask m choice.canvas)
  let p := penaltyScore size canvas.modules
  let better := choice.minPenalty.all (p < ·)
  { canvas := applyMask m canvas
    bestMask := if better then m else choice.bestMask
    minPenalty := if better then some p else choice.minPenalty }

/-! ### The matrix -/

structure QrMatrix where
  size : ℕ
  version : ℕ
  ecl : Ecl
  modules : List (List Bool)

def buildMatrix (codewords : List ℕ) (version : ℕ) (ecl : Ecl) : QrMatrix :=
  let size := matrixSize version
  let canvas := placeCodewords size codewords (draw (functionPatterns version ecl) blank)
  let choice := (List.range 8).foldl (tryMask size ecl) ⟨canvas, 0, none⟩
  let canvas := draw (drawFormatBits size ecl choice.bestMask) (applyMask choice.bestMask choice.canvas)
  { size := size
    version := version
    ecl := ecl
    modules := (List.range size).map fun y => (List.range size).map fun x => canvas.modules (x, y) }

def encodeQr (text : String) (ecl : Ecl := Ecl.M) : Except String QrMatrix :=
  let bytes := utf8Bytes text
  match chooseVersion bytes ecl with
  | none => .error "Data too long for a QR code"
  | some version =>
    .ok (buildMatrix (addEccAndInterleave (dataCodewords bytes version ecl) version ecl) version ecl)

end AuditSphere.Qr
