import CellShader.Recipe.Value
import CellShader.Recipe.Fault

/-!
# Recipes

A recipe is a term over the operations that make rules: plain values, numbers to be put into a
machine type, perhaps still to be read from a text, lists, and operations applied to terms.  It says
how to build a rule without building it.
-/

namespace CellShader

open Number

/-- What a recipe can do with values.  Where there are two ways to make a node, the one with `Node`
in its name takes finished parts only. -/
inductive Operation
  | constant
  | constantNode
  | alive
  | aliveNode
  | neighbors
  | neighborsNode
  /-- a comparison that makes constants of integers -/
  | compare (op : Comparison)
  /-- a comparison of finished expressions -/
  | compareNode (op : Comparison)
  /-- a connective that makes constants of integers -/
  | connect (op : Connective)
  /-- a connective between finished expressions -/
  | connectNode (op : Connective)
  | noop
  | noopNode
  | setResult
  | setResultNode
  | ifThenElse
  | ifThenElseNode
  | asExpr
  | asStatement
  | abstractNode (node : AbstractNode)
  | conway
  | lifeLike
  | countIn
  | rulestring
  /-- look a ruleset up by its name -/
  | ruleset
  /-- look a ruleset up by its name or else read a rulestring -/
  | ruleNamed
  deriving DecidableEq, Repr

/-- How to build a value. -/
inductive Term
  | plain (v : Value)
  /-- a number put into a type -/
  | number (t : NumberType) (n : Numeral)
  /-- a floating-point number as a text spells it, put into a type -/
  | spelled (t : NumberType) (text : String)
  | list (items : List Term)
  | call (op : Operation) (arguments : List Term)

/-- The name of the builder of a comparison. -/
def Comparison.builder : Comparison → String
  | greater => "gt"
  | greaterOrEqual => "gte"
  | less => "lt"
  | lessOrEqual => "lte"
  | equal => "equal"

/-- The name of the builder of a connective. -/
def Connective.builder : Connective → String
  | and => "and_"
  | or => "or_"

namespace Operation

/-- What an operation is called. -/
def name : Operation → String
  | constant => "const_u32"
  | constantNode => "Const"
  | alive => "alive"
  | aliveNode => "Alive"
  | neighbors => "neighbors"
  | neighborsNode => "NeighborCount"
  | compare op => op.builder
  | compareNode op => op.kind
  | connect op => op.builder
  | connectNode op => op.kind
  | noop => "void"
  | noopNode => "Noop"
  | setResult => "set_result"
  | setResultNode => "SetResult"
  | ifThenElse => "if_then_else"
  | ifThenElseNode => "IfThenElse"
  | asExpr => "as_expr"
  | asStatement => "as_statement"
  | abstractNode node => node.name
  | conway => "conways_game_of_life"
  | lifeLike => "life_like"
  | countIn => "neighbor_count_in"
  | rulestring => "parse_rulestring"
  | ruleset => "get_ruleset"
  | ruleNamed => "ruleset_from_string"

/-- Whether an operation makes a node of finished parts. -/
def isNode : Operation → Bool
  | constantNode | aliveNode | neighborsNode | compareNode _ | connectNode _ | noopNode
  | setResultNode | ifThenElseNode | abstractNode _ => true
  | _ => false

/-- The names of an operation's parameters. -/
def parameters : Operation → List String
  | constant | constantNode | asExpr | asStatement => ["value"]
  | compare _ | compareNode _ | connect _ | connectNode _ => ["lhs", "rhs"]
  | setResult | setResultNode => ["expr"]
  | ifThenElse | ifThenElseNode => ["condition", "if_true_then", "if_false_then"]
  | abstractNode .binary | abstractNode .comparison | abstractNode .connective => ["lhs", "rhs"]
  | lifeLike => ["birth", "survival"]
  | countIn => ["counts"]
  | rulestring => ["rulestring"]
  | ruleset => ["name"]
  | ruleNamed => ["text"]
  | alive | aliveNode | neighbors | neighborsNode | noop | noopNode | conway
  | abstractNode .expr | abstractNode .statement => []

/-- What is wrong with the number of arguments that an operation is given.  A node itself counts as
one of its arguments. -/
def miscounted (op : Operation) (given : Nat) : BuildFault :=
  let callee := if op.isNode then op.name ++ ".__init__" else op.name
  let itself := if op.isNode then 1 else 0
  if given < op.parameters.length then .missingArguments callee (op.parameters.drop given)
  else .tooManyArguments callee (op.parameters.length + itself) (given + itself)

end Operation

end CellShader
