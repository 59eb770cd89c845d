import CellShader.Rule.Basic

/-!
# Life-like rules

Rules under which a cell's next state depends on whether it is alive and on the number of its live
neighbours alone: a dead cell comes to life for some counts and a live one survives for some.
-/

namespace CellShader

/-- The greatest number of live neighbours. -/
def maxNeighbors : Nat := 8

/-- The test that the number of live neighbours is `count`. -/
def Expr.countIs (count : UInt32) : Expr := .compare .equal .neighbors (.const count)

/-- The test that the number of live neighbours is among `counts`: a chain of disjunctions, built
from the left, and 0 when there are none. -/
def Expr.countIn : List UInt32 → Expr
  | [] => .const 0
  | count :: counts =>
    counts.foldl (fun e c => .connect .or e (.countIs c)) (.countIs count)

/-- The rule under which dead cells come to life for the counts in `birth` and live ones survive for
those in `survival`. -/
def Statement.lifeLike (birth survival : List UInt32) : Statement :=
  .ifThenElse .alive (.setResult (.countIn survival)) (.setResult (.countIn birth))

/-- Conway's game of life: a live cell survives with 2 or 3 live neighbours, and a dead one comes to
life with exactly 3. -/
def Statement.conway : Statement :=
  .ifThenElse .alive
    (.setResult (.connect .or (.compare .equal .neighbors (.const 2))
      (.compare .equal .neighbors (.const 3))))
    (.setResult (.compare .equal .neighbors (.const 3)))

theorem Statement.conway_eq_lifeLike : Statement.conway = .lifeLike [3] [2, 3] := rfl

end CellShader
