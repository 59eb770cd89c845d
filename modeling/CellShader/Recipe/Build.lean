import CellShader.Recipe.Fault

/-!
# Building rules from plain values

There are two ways to make a node.  The wrapping way takes integers where expressions are wanted and
makes constants of them; the bare way takes finished parts only.  Either one checks its parts from
left to right and reports the first that does not fit, so nothing but well-formed trees comes out.
-/

namespace CellShader

namespace Value

/-- Why a value is no key that others are looked up by. -/
def keyFault? : Value → Option BuildFault
  | list vs => some (.unhashable (list vs))
  | machineSpan (some _) => some .unhashableSpan
  | machineBlock _ => some .unhashableBlock
  | _ => none

/-- The word that a value stands for: an integer that fits in 32 bits. -/
def asWord (v : Value) : Except BuildFault UInt32 :=
  if !v.isInteger then .error (.notAConstant v)
  else
    match v.integer? with
    | none => .error .noTime
    | some i =>
      if 0 ≤ i ∧ i < UInt32.size then .ok (UInt32.ofNat i.toNat)
      else .error (.constantOutOfRange v)

/-- The constant that a value stands for. -/
def asConstant (v : Value) : Except BuildFault Expr := v.asWord.map .const

/-- The expression that a value is or, for an integer, stands for. -/
def asExpr (v : Value) : Except BuildFault Expr :=
  match v with
  | rule (.expr e) => .ok e
  | _ => if v.isInteger then v.asConstant else .error (.notAnExpr v)

/-- The statement that a value is. -/
def asStatement : Value → Except BuildFault Statement
  | rule (.statement s) => .ok s
  | v => .error (.notAStatement v)

/-- The expression that a value is, or else the given fault. -/
def exprOr (fault : Value → BuildFault) : Value → Except BuildFault Expr
  | rule (.expr e) => .ok e
  | v => .error (fault v)

/-- The statement that a value is, or else the given fault. -/
def statementOr (fault : Value → BuildFault) : Value → Except BuildFault Statement
  | rule (.statement s) => .ok s
  | v => .error (fault v)

/-- The rule that a value is. -/
def asRule : Value → Except BuildFault Rule
  | rule r => .ok r
  | v => .error (.notATree v)

/-- The shader text of a value, if it is a rule. -/
def shader (v : Value) : Except BuildFault String :=
  v.asRule.map (fun r => String.ofList r.code)

end Value

/-- The values of two operands, the left one first. -/
def operands (read : Value → Except BuildFault Expr) (lhs rhs : Value) :
    Except BuildFault (Expr × Expr) := do
  let l ← read lhs
  let r ← read rhs
  return (l, r)

/-- A comparison of two operands, made the wrapping or the bare way. -/
def Expr.ofComparison (read : Value → Except BuildFault Expr) (op : Comparison)
    (lhs rhs : Value) : Except BuildFault Expr :=
  (operands read lhs rhs).map (fun p => .compare op p.1 p.2)

/-- A bitwise connection of two operands, made the wrapping or the bare way. -/
def Expr.ofConnective (read : Value → Except BuildFault Expr) (op : Connective)
    (lhs rhs : Value) : Except BuildFault Expr :=
  (operands read lhs rhs).map (fun p => .connect op p.1 p.2)

/-- A branch, its parts read from left to right. -/
def Statement.ofBranch (readCondition : Value → Except BuildFault Expr)
    (readBranch : Value → Except BuildFault Statement) (condition whenTrue whenFalse : Value) :
    Except BuildFault Statement := do
  let c ← readCondition condition
  let t ← readBranch whenTrue
  let f ← readBranch whenFalse
  return .ifThenElse c t f

end CellShader
