import CellShader.Rule.Wgsl

/-!
# Rules as constructor terms

The form in which messages show a rule: each node with its kind and, in parentheses, its named
parts.
-/

namespace CellShader

def Comparison.kind : Comparison → String
  | greater => "GreaterThan"
  | greaterOrEqual => "GreaterOrEqual"
  | less => "LessThan"
  | lessOrEqual => "LessOrEqual"
  | equal => "Equal"

def Connective.kind : Connective → String
  | and => "And"
  | or => "Or"

/-- The kind of an expression's root. -/
def Expr.kind : Expr → String
  | const _ => "Const"
  | alive => "Alive"
  | neighbors => "NeighborCount"
  | compare op _ _ => op.kind
  | connect op _ _ => op.kind

/-- The kind of a statement's root. -/
def Statement.kind : Statement → String
  | noop => "Noop"
  | setResult _ => "SetResult"
  | ifThenElse _ _ _ => "IfThenElse"

/-- The kind of a rule's root. -/
def Rule.kind : Rule → String
  | expr e => e.kind
  | statement s => s.kind

/-- A node with two operands. -/
def showBinary (kind lhs rhs : String) : String :=
  kind ++ "(lhs=" ++ lhs ++ ", rhs=" ++ rhs ++ ")"

/-- An expression as a constructor term. -/
def Expr.display : Expr → String
  | const value => "Const(value=" ++ String.ofList (decimal value.toNat) ++ ")"
  | alive => "Alive()"
  | neighbors => "NeighborCount()"
  | compare op lhs rhs => showBinary op.kind lhs.display rhs.display
  | connect op lhs rhs => showBinary op.kind lhs.display rhs.display

/-- A statement as a constructor term. -/
def Statement.display : Statement → String
  | noop => "Noop()"
  | setResult value => "SetResult(expr=" ++ value.display ++ ")"
  | ifThenElse condition whenTrue whenFalse =>
    "IfThenElse(condition=" ++ condition.display ++ ", if_true_then=" ++ whenTrue.display ++
      ", if_false_then=" ++ whenFalse.display ++ ")"

end CellShader
