import CellShader.Recipe.Rulestring
import CellShader.Recipe.Term

/-!
# The registry of rulesets

Rulesets are kept as recipes under their names.  A name once taken keeps its recipe.  A recipe is
carried out anew whenever its ruleset is asked for, against the registry as it then is, and it may
ask for other rulesets; one that leads back to itself builds nothing.
-/

namespace CellShader

/-- The recipes of the known rulesets, by name. -/
structure Registry where
  entries : List (String × Term)

namespace Registry

/-- The recipe of a ruleset. -/
def find? (r : Registry) (name : String) : Option Term := r.entries.lookup name

/-- Whether a ruleset is known. -/
def has (r : Registry) (name : String) : Bool := (r.find? name).isSome

/-- The names of the known rulesets in the order of their characters. -/
def names (r : Registry) : List String := (r.entries.map (·.1)).mergeSort (fun a b => a ≤ b)

/-- Add a ruleset under a name that is not taken. -/
def register (r : Registry) (name : String) (recipe : Term) : Except BuildFault Registry :=
  if r.has name then .error (.rulesetTaken name) else .ok ⟨r.entries ++ [(name, recipe)]⟩

/-- The rulesets known from the start. -/
def builtin : Registry :=
  ⟨[("conway", .call .conway []),
    ("highlife", .call .rulestring [.plain (.text "B36/S23")]),
    ("seeds", .call .rulestring [.plain (.text "B2/S")]),
    ("day_and_night", .call .rulestring [.plain (.text "B3678/S34678")])]⟩

section Evaluation

variable (r : Registry) (build : String → Except BuildFault Value)

/-- The ruleset that a value names. -/
def getValue (name : Value) : Except BuildFault Value :=
  match name.keyFault?, name.text? with
  | some fault, _ => .error fault
  | none, some s => if r.has s then build s else .error (.unknownRuleset name r.names)
  | none, none => .error (.unknownRuleset name r.names)

/-- The ruleset that a value names, or else the rule that it denotes as a rulestring. -/
def ruleOfValue (name : Value) : Except BuildFault Value :=
  match name.keyFault?, name.text? with
  | some fault, _ => .error fault
  | none, some s =>
    if r.has s then build s
    else
      match Statement.ofRulestring s with
      | .ok statement => .ok (.rule (.statement statement))
      | .error cause => .error (.unknownRule s r.names cause)
  | none, none => .error name.notRulestring

/-- Carry out one operation; `build` builds a known ruleset. -/
def apply : Operation → List Value → Except BuildFault Value
  | .constant, [v] | .constantNode, [v] => v.asConstant.map (.rule ∘ .expr)
  | .alive, [] | .aliveNode, [] => .ok (.rule (.expr .alive))
  | .neighbors, [] | .neighborsNode, [] => .ok (.rule (.expr .neighbors))
  | .compare op, [a, b] => (Expr.ofComparison Value.asExpr op a b).map (.rule ∘ .expr)
  | .compareNode op, [a, b] =>
    (Expr.ofComparison (Value.exprOr .operandNotAnExpr) op a b).map (.rule ∘ .expr)
  | .connect op, [a, b] => (Expr.ofConnective Value.asExpr op a b).map (.rule ∘ .expr)
  | .connectNode op, [a, b] =>
    (Expr.ofConnective (Value.exprOr .operandNotAnExpr) op a b).map (.rule ∘ .expr)
  | .noop, [] | .noopNode, [] => .ok (.rule (.statement .noop))
  | .setResult, [v] => v.asExpr.map (.rule ∘ .statement ∘ .setResult)
  | .setResultNode, [v] =>
    (v.exprOr .resultNotAnExpr).map (.rule ∘ .statement ∘ .setResult)
  | .ifThenElse, [c, t, f] =>
    (Statement.ofBranch Value.asExpr Value.asStatement c t f).map (.rule ∘ .statement)
  | .ifThenElseNode, [c, t, f] =>
    (Statement.ofBranch (Value.exprOr .conditionNotAnExpr)
      (Value.statementOr .branchNotAStatement) c t f).map (.rule ∘ .statement)
  | .asExpr, [v] => v.asExpr.map (.rule ∘ .expr)
  | .asStatement, [v] => v.asStatement.map (.rule ∘ .statement)
  | .abstractNode node, vs =>
    if vs.length = (Operation.abstractNode node).parameters.length then .error (.abstractNode node)
    else .error ((Operation.abstractNode node).miscounted vs.length)
  | .conway, [] => .ok (.rule (.statement .conway))
  | .lifeLike, [birth, survival] =>
    (Statement.ofCounts birth survival).map (.rule ∘ .statement)
  | .countIn, [v] => do
    let vs ← v.items
    (Expr.ofCounts vs).map (.rule ∘ .expr)
  | .rulestring, [v] =>
    match v.text? with
    | some s => (Statement.ofRulestring s).map (.rule ∘ .statement)
    | none => .error v.notRulestring
  | .ruleset, [v] => r.getValue build v
  | .ruleNamed, [v] => r.ruleOfValue build v
  | op, vs => .error (op.miscounted vs.length)

mutual

/-- Carry out a recipe; `build` builds a known ruleset. -/
def evalWith : Term → Except BuildFault Value
  | .plain v => .ok v
  | .number t n => (Value.ofNumber t n).mapError .number
  | .spelled t s => (Value.ofSpelling t s).mapError .number
  | .list items => (evalAllWith items).map .list
  | .call op arguments => do
    let vs ← evalAllWith arguments
    r.apply build op vs

/-- Carry out recipes from left to right up to the first that fails. -/
def evalAllWith : List Term → Except BuildFault (List Value)
  | [] => .ok []
  | t :: ts => do
    let v ← evalWith t
    let vs ← evalAllWith ts
    return v :: vs

end

end Evaluation

/-- Build the ruleset called `name`, asking for no more than the given number of rulesets inside one
another. -/
def build (r : Registry) : Nat → String → Except BuildFault Value
  | 0, name => .error (.endlessRuleset name)
  | depth + 1, name =>
    match r.find? name with
    | some recipe => r.evalWith (r.build depth) recipe
    | none => .error (.unknownRuleset (.text name) r.names)

/-- As many rulesets as can be asked for inside one another without a repetition. -/
def depth (r : Registry) : Nat := r.entries.length + 1

/-- Carry out a recipe. -/
def eval (r : Registry) (recipe : Term) : Except BuildFault Value :=
  r.evalWith (r.build r.depth) recipe

/-- The ruleset called `name`. -/
def get (r : Registry) (name : String) : Except BuildFault Value :=
  r.getValue (r.build r.depth) (.text name)

/-- The ruleset called `text`, or else the rule that it denotes as a rulestring. -/
def ruleNamed (r : Registry) (text : String) : Except BuildFault Value :=
  r.ruleOfValue (r.build r.depth) (.text text)

end Registry

end CellShader
