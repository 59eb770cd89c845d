import CellShader.Grid.Box
import CellShader.Recipe.Value

/-!
# Why no rule was run

Each way in which making a field or a grid of numbers, or running a rule on it, can fail, and the
message for it.
-/

namespace CellShader

open Number

/-- Why a field could not be made or a rule not be run on it. -/
inductive FieldFault
  | number (fault : NumberFault)
  | uneven (shape : List Nat)
  | listElement
  | shapeMismatch (isAlive numNeighbors : List Nat)
  | notTwoDimensional (dimensions : Nat)
  | unsupportedExpr (v : Value)
  | unsupportedStatement (v : Value)

namespace FieldFault

/-- The message for a fault. -/
def message : FieldFault → String
  | number fault => fault.message
  | uneven shape => unevenMessage shape
  | listElement =>
    "int() argument must be a string, a bytes-like object or a real number, not 'list'"
  | shapeMismatch a n =>
    "Shape mismatch between alive " ++ shapeText a ++ " and neighbors " ++ shapeText n ++ "!"
  | notTwoDimensional dimensions =>
    "Expected a 2D grid, got " ++ toString dimensions ++ " dimensions!"
  | unsupportedExpr v => "Unsupported expression " ++ v.display ++ "!"
  | unsupportedStatement v => "Unsupported statement " ++ v.display ++ "!"

end FieldFault

end CellShader
