import CellShader.Rule.Basic

/-!
# Rules as shader text

The WGSL text of a rule, made to be put into a compute shader that declares `is_alive`,
`num_neighbors` and `var result: u32`.  Operands stand in parentheses.  A comparison is cast to
`u32`, since the language does not mix truth values with words.
-/

namespace CellShader

/-- The shader variable that holds whether the cell is alive. -/
def aliveName : List Char := "is_alive".toList

/-- The shader variable that holds the number of live neighbours. -/
def neighborsName : List Char := "num_neighbors".toList

/-- The shader variable that receives the next state of the cell. -/
def resultName : List Char := "result".toList

def Comparison.symbol : Comparison → List Char
  | greater => ['>']
  | greaterOrEqual => ['>', '=']
  | less => ['<']
  | lessOrEqual => ['<', '=']
  | equal => ['=', '=']

def Connective.symbol : Connective → List Char
  | and => ['&']
  | or => ['|']

/-- The decimal digits of a number. -/
def decimal (n : Nat) : List Char := Nat.toDigits 10 n

/-- Two operands in parentheses around a symbol. -/
def infixCode (symbol lhs rhs : List Char) : List Char :=
  '(' :: lhs ++ [')', ' '] ++ symbol ++ [' ', '('] ++ rhs ++ [')']

/-- The shader text of an expression. -/
def Expr.code : Expr → List Char
  | const value => decimal value.toNat ++ ['u']
  | alive => aliveName
  | neighbors => neighborsName
  | compare op lhs rhs => "u32(".toList ++ infixCode op.symbol lhs.code rhs.code ++ [')']
  | connect op lhs rhs => '(' :: infixCode op.symbol lhs.code rhs.code ++ [')']

/-- The shader text of a statement; doing nothing has none. -/
def Statement.code : Statement → List Char
  | noop => []
  | setResult value => resultName ++ " = ".toList ++ value.code ++ [';']
  | ifThenElse condition whenTrue whenFalse =>
    "if (".toList ++ condition.code ++ ") \x7b ".toList ++ whenTrue.code ++
      " \x7d else \x7b ".toList ++ whenFalse.code ++ " \x7d".toList

/-- The shader text of a rule. -/
def Rule.code : Rule → List Char
  | expr e => e.code
  | statement s => s.code

end CellShader
