/-!
# The rule language

A rule is a tree.  Expressions work on unsigned words of 32 bits: constants, whether the cell at
hand is alive, how many of its neighbours are, comparisons that give 0 or 1, and the two bitwise
connectives.  Statements branch on expressions and set the cell's result.
-/

namespace CellShader

/-- The comparisons of two words. -/
inductive Comparison
  | greater
  | greaterOrEqual
  | less
  | lessOrEqual
  | equal
  deriving DecidableEq, Repr

/-- The bitwise connectives. -/
inductive Connective
  | and
  | or
  deriving DecidableEq, Repr

/-- An expression of the rule language. -/
inductive Expr
  | const (value : UInt32)
  | alive
  | neighbors
  | compare (op : Comparison) (lhs rhs : Expr)
  | connect (op : Connective) (lhs rhs : Expr)
  deriving DecidableEq, Repr

/-- A statement of the rule language. -/
inductive Statement
  | noop
  | setResult (value : Expr)
  | ifThenElse (condition : Expr) (whenTrue whenFalse : Statement)
  deriving DecidableEq, Repr

/-- A rule tree of either kind. -/
inductive Rule
  | expr (e : Expr)
  | statement (s : Statement)
  deriving DecidableEq, Repr

end CellShader
