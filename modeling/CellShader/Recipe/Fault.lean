import CellShader.Grid.Box
import CellShader.Recipe.Value
import CellShader.Rule.LifeLike

/-!
# Why no rule was built

Each way in which building a rule can fail, with the values at fault, and the message for it.
-/

namespace CellShader

open Number

/-- The kinds of node of which only the special cases can be built. -/
inductive AbstractNode
  | expr
  | binary
  | comparison
  | connective
  | statement
  deriving DecidableEq, Repr

/-- The two halves of a life-like rule. -/
inductive Half
  | birth
  | survival
  deriving DecidableEq, Repr

/-- Why no rule was built. -/
inductive BuildFault
  | notAConstant (v : Value)
  | constantOutOfRange (v : Value)
  | noTime
  | notAnExpr (v : Value)
  | notAStatement (v : Value)
  | operandNotAnExpr (v : Value)
  | resultNotAnExpr (v : Value)
  | conditionNotAnExpr (v : Value)
  | branchNotAStatement (v : Value)
  | notATree (v : Value)
  | abstractNode (node : AbstractNode)
  | countOutOfRange (half : Half) (v : Value)
  | notIterable (v : Value)
  | unhashable (v : Value)
  | unhashableSpan
  | unhashableBlock
  | notOrdered (left right : Value)
  | notText (v : Value)
  | bytesForText
  | notARulestring (s : String)
  | rulestringHalves (s : String)
  | unknownRuleset (name : Value) (known : List String)
  | unknownRule (name : String) (known : List String) (cause : BuildFault)
  | rulesetTaken (name : String)
  | endlessRuleset (name : String)
  | missingArguments (callee : String) (missing : List String)
  | tooManyArguments (callee : String) (wanted given : Nat)
  | number (fault : NumberFault)
  | severalTruths
  | noTruths
  | unevenList (shape : List Nat)

namespace AbstractNode

def name : AbstractNode → String
  | expr => "Expr"
  | binary => "BinaryExpr"
  | comparison => "Comparison"
  | connective => "BitwiseExpr"
  | statement => "Statement"

end AbstractNode

namespace Half

def name : Half → String
  | birth => "Birth"
  | survival => "Survival"

end Half

namespace BuildFault

/-- A value with its type, as several messages show it. -/
def ofType (v : Value) : String := v.display ++ " of type " ++ v.typeText

/-- Words in a row, with `and` before the last one. -/
def inARow : List String → String
  | [] => ""
  | [a] => a
  | [a, b] => a ++ " and " ++ b
  | ws => ", ".intercalate ws.dropLast ++ ", and " ++ ws.getLast?.getD ""

/-- A word with the ending for a number. -/
def counted (word : String) (n : Nat) : String := if n = 1 then word else word ++ "s"

/-- The message for a fault. -/
def message : BuildFault → String
  | notAConstant v => "Const value must be an integer, got " ++ ofType v ++ "!"
  | constantOutOfRange v => "Const value " ++ v.plain ++ " does not fit in a u32!"
  | noTime =>
    "int() argument must be a string, a bytes-like object or a real number, not 'NoneType'"
  | notAnExpr v => "Expected an Expr or an integer, got " ++ ofType v ++ "!"
  | notAStatement v => "Expected a Statement, got " ++ ofType v ++ "!"
  | operandNotAnExpr v =>
    "Expected an Expr operand, got " ++ v.typeText ++
      "! Use the builder functions to wrap integers."
  | resultNotAnExpr v => "Expected an Expr, got " ++ v.typeText ++ "!"
  | conditionNotAnExpr v => "Expected an Expr condition, got " ++ v.typeText ++ "!"
  | branchNotAStatement v => "Expected a Statement branch, got " ++ v.typeText ++ "!"
  | notATree v => "Expected an Expr or a Statement, got " ++ v.typeText ++ "!"
  | abstractNode node => node.name ++ " is abstract, build one of its subclasses instead!"
  | countOutOfRange half v =>
    half.name ++ " count " ++ v.plain ++ " is outside of 0.." ++ toString maxNeighbors ++ "!"
  | notIterable v => "'" ++ v.shortType ++ "' object is not iterable"
  | unhashable v => "unhashable type: '" ++ v.shortType ++ "'"
  | unhashableSpan => "Can't hash generic timedelta64"
  | unhashableBlock => "unhashable type: 'writeable void-scalar'"
  | notOrdered left right =>
    "'<' not supported between instances of '" ++ left.shortType ++ "' and '" ++
      right.shortType ++ "'"
  | notText v => "expected string or bytes-like object, got '" ++ v.shortType ++ "'"
  | bytesForText => "cannot use a string pattern on a bytes-like object"
  | notARulestring s => "Invalid rulestring '" ++ s ++ "', expected something like 'B3/S23'!"
  | rulestringHalves s => "Invalid rulestring '" ++ s ++ "', needs one 'B' and one 'S' part!"
  | unknownRuleset name known =>
    "Unknown ruleset '" ++ name.plain ++ "', known rulesets are: " ++ ", ".intercalate known
  | unknownRule name known _ =>
    "'" ++ name ++ "' is neither a known ruleset (" ++ ", ".intercalate known ++
      ") nor a valid rulestring!"
  | rulesetTaken name => "Ruleset '" ++ name ++ "' is already registered!"
  | endlessRuleset name => "Ruleset '" ++ name ++ "' is built from itself!"
  | missingArguments callee missing =>
    callee ++ "() missing " ++ toString missing.length ++ " required positional " ++
      counted "argument" missing.length ++ ": " ++ inARow (missing.map Text.quoted)
  | tooManyArguments callee wanted given =>
    callee ++ "() takes " ++ toString wanted ++ " positional " ++ counted "argument" wanted ++
      " but " ++ toString given ++ (if given = 1 then " was given" else " were given")
  | number fault => fault.message
  | severalTruths =>
    "The truth value of an array with more than one element is ambiguous. " ++
      "Use a.any() or a.all()"
  | noTruths =>
    "The truth value of an empty array is ambiguous. " ++
      "Use `array.size > 0` to check that an array is not empty."
  | unevenList shape => unevenMessage shape

/-- What a fault is about. -/
def kind : BuildFault → FaultKind
  | notAConstant _ | constantOutOfRange _ | countOutOfRange _ _ | unhashableSpan
  | notARulestring _ | rulestringHalves _ | unknownRule _ _ _ | rulesetTaken _ | severalTruths
  | noTruths | unevenList _ => .value
  | number fault => fault.kind
  | unknownRuleset _ _ => .name
  | endlessRuleset _ => .loop
  | notAnExpr _ | notAStatement _ | operandNotAnExpr _ | resultNotAnExpr _ | conditionNotAnExpr _
  | branchNotAStatement _ | notATree _ | abstractNode _ | notIterable _ | noTime | unhashable _
  | unhashableBlock | notOrdered _ _ | notText _ | bytesForText | missingArguments _ _
  | tooManyArguments _ _ _ => .type

/-- The fault behind a fault. -/
def cause? : BuildFault → Option BuildFault
  | unknownRule _ _ cause => some cause
  | _ => none

end BuildFault

end CellShader
