import CellShader.Rule.Basic

/-!
# What a rule means for one cell

The value of an expression and the effect of a statement at a cell of which it is known whether it
is alive and how many live neighbours it has.  This is the meaning that the shader text has too.
-/

namespace CellShader

/-- Whether a comparison holds. -/
def Comparison.holds : Comparison → UInt32 → UInt32 → Bool
  | greater, a, b => b < a
  | greaterOrEqual, a, b => b ≤ a
  | less, a, b => a < b
  | lessOrEqual, a, b => a ≤ b
  | equal, a, b => a == b

/-- The word for a comparison: 1 when it holds and 0 when it does not. -/
def Comparison.apply (op : Comparison) (a b : UInt32) : UInt32 := if op.holds a b then 1 else 0

def Connective.apply : Connective → UInt32 → UInt32 → UInt32
  | and, a, b => a &&& b
  | or, a, b => a ||| b

/-- The value of an expression at a cell. -/
def Expr.value (isAlive numNeighbors : UInt32) : Expr → UInt32
  | const c => c
  | alive => isAlive
  | neighbors => numNeighbors
  | compare op lhs rhs =>
    op.apply (lhs.value isAlive numNeighbors) (rhs.value isAlive numNeighbors)
  | connect op lhs rhs =>
    op.apply (lhs.value isAlive numNeighbors) (rhs.value isAlive numNeighbors)

/-- What a statement makes of the result so far. -/
def Statement.run (isAlive numNeighbors : UInt32) : Statement → UInt32 → UInt32
  | noop, result => result
  | setResult e, _ => e.value isAlive numNeighbors
  | ifThenElse condition whenTrue whenFalse, result =>
    if condition.value isAlive numNeighbors ≠ 0 then whenTrue.run isAlive numNeighbors result
    else whenFalse.run isAlive numNeighbors result

/-- The result that a statement leaves at a cell, the result being 0 to begin with. -/
def Statement.outcome (s : Statement) (isAlive numNeighbors : UInt32) : UInt32 :=
  s.run isAlive numNeighbors 0

end CellShader
