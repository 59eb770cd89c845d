import CellShader.Grid.NumberArray

/-!
# Running rules on numbers

A plain value is run on numbers as they are handed over: as an array, or as rows of which an array
is made only when it is needed.  So what is wrong with the rows shows after what is wrong with an
array, and not at all when no generation is asked for.
-/

namespace CellShader

open Number

/-- Numbers as they are handed over: an array, or rows of which one is made when it is needed. -/
inductive Numbers
  | array (a : NumberArray)
  | rows (x : Nested Numeral)

namespace Numbers

/-- The array of the numbers. -/
def toArray : Numbers → Except FieldFault NumberArray
  | array a => .ok a
  | rows x => NumberArray.ofRows x

/-- The field of words for the numbers. -/
def toField (n : Numbers) : Except FieldFault Field := do (← n.toArray).toField

/-- The cells of numbers in two dimensions. -/
def toGrid (n : Numbers) : Except FieldFault Grid := do (← n.toArray).toGrid

end Numbers

/-! ## Running plain values -/

namespace Value

/-- Run `f` on the fields of numbers in boxes of one shape. -/
def onFields (isAlive numNeighbors : Numbers)
    (f : (a n : Field) → a.shape = n.shape → Except FieldFault Field) :
    Except FieldFault Field := do
  let a ← isAlive.toField
  let n ← numNeighbors.toField
  if h : a.shape = n.shape then f a n h else throw (.shapeMismatch a.shape n.shape)

/-- The values of an expression at all cells. -/
def evalOn (v : Value) (isAlive numNeighbors : Numbers) : Except FieldFault Field :=
  onFields isAlive numNeighbors (fun a n h =>
    match v with
    | rule (.expr e) => .ok (.evalExpr e a n h)
    | v => .error (.unsupportedExpr v))

/-- The results of a statement at all cells. -/
def runOn (v : Value) (isAlive numNeighbors : Numbers) : Except FieldFault Field :=
  onFields isAlive numNeighbors (fun a n _ =>
    match v with
    | rule (.statement s) => .ok (.runStatement s a n)
    | v => .error (.unsupportedStatement v))

/-- The generations that a statement makes of numbers, as many as asked for.  Numbers that are not
in two dimensions and a value that is no statement have no next generation. -/
def generations (v : Value) (count : Nat) (cells : Numbers) : Except FieldFault (List Grid) :=
  if count = 0 then .ok []
  else
    match cells.toGrid with
    | .error fault => .error fault
    | .ok g =>
      match v with
      | rule (.statement s) => .ok (g.generations s count)
      | v => .error (.unsupportedStatement v)

end Value

end CellShader
