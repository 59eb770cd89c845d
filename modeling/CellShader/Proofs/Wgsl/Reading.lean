import CellShader.Rule.Wgsl
import CellShader.Text.Blank
import Mathlib.Algebra.Group.Nat.Defs

/-!
# Reading shader text

A reader of the part of WGSL that rules are written in.  A text is cut into words and marks; from
these an expression or a block is read by descent, an operator standing between two operands that
are names, literals, casts or groups.  What is read keeps casts and groups as they stand in the
text.
-/

namespace CellShader.Wgsl

/-! ## Words and marks -/

/-- A piece of shader text: a word, which is made of letters, digits and underscores, or a mark. -/
inductive Token
  | word (cs : List Char)
  | mark (cs : List Char)
  deriving DecidableEq, Repr

def isWordChar (c : Char) : Bool := c.isAlphanum || c == '_'

/-- Whether a mark goes on with a second character. -/
def isPair (c d : Char) : Bool := d == '=' && (c == '>' || c == '<' || c == '=')

/-- Put a character before the word that comes first. -/
def consWord (c : Char) : List Token → List Token
  | .word cs :: ts => .word (c :: cs) :: ts
  | ts => .word [c] :: ts

/-- The words and marks of a text, words being as long as they can be. -/
def tokens : List Char → List Token
  | [] => []
  | [c] =>
    if Text.isBlank c then [] else if isWordChar c then [.word [c]] else [.mark [c]]
  | c :: d :: cs =>
    if Text.isBlank c then tokens (d :: cs)
    else if isWordChar c then
      if isWordChar d then consWord c (tokens (d :: cs)) else .word [c] :: tokens (d :: cs)
    else if isPair c d then .mark [c, d] :: tokens cs
    else .mark [c] :: tokens (d :: cs)

/-! ## What is read -/

/-- The variables that a shader declares for a rule to read. -/
inductive Variable
  | isAlive
  | numNeighbors
  deriving DecidableEq, Repr

/-- An expression as it stands in shader text. -/
inductive Expression
  | literal (value : UInt32)
  | named (v : Variable)
  | cast (operand : Expression)
  | group (operand : Expression)
  | compare (op : Comparison) (lhs rhs : Expression)
  | connect (op : Connective) (lhs rhs : Expression)
  deriving DecidableEq, Repr

/-- What stands in shader text where a statement may stand. -/
inductive Block
  | empty
  | assign (value : Expression)
  | branch (condition : Expression) (whenTrue whenFalse : Block)
  deriving DecidableEq, Repr

/-! ## Reading by descent -/

/-- Whether a text is a number in decimal digits, without needless zeros. -/
def isNumber (digits : List Char) : Bool :=
  digits.all Char.isDigit && (digits == ['0'] || digits.head?.any (· != '0'))

/-- The literal that a word is: a number that fits in 32 bits, and the letter u behind it. -/
def literal? (w : List Char) : Option UInt32 :=
  let digits := w.dropLast
  let n := Nat.ofDigitChars 10 digits 0
  if w.getLast? = some 'u' ∧ isNumber digits = true ∧ n < 2 ^ 32 then some (.ofNat n) else none

/-- The literal or variable that a word is. -/
def leaf? (w : List Char) : Option Expression :=
  if w = "is_alive".toList then some (.named .isAlive)
  else if w = "num_neighbors".toList then some (.named .numNeighbors)
  else (literal? w).map .literal

/-- The operator that a mark is. -/
def operator? : List Char → Option (Expression → Expression → Expression)
  | ['>'] => some (.compare .greater)
  | ['>', '='] => some (.compare .greaterOrEqual)
  | ['<'] => some (.compare .less)
  | ['<', '='] => some (.compare .lessOrEqual)
  | ['=', '='] => some (.compare .equal)
  | ['&'] => some (.connect .and)
  | ['|'] => some (.connect .or)
  | _ => none

/-- What follows a token. -/
def after? (t : Token) : List Token → Option (List Token)
  | t' :: ts => if t' = t then some ts else none
  | [] => none

/-- Read what stands between two marks, and what follows them. -/
def between? {α : Type} (opening closing : List Char)
    (read? : List Token → Option (α × List Token)) (ts : List Token) : Option (α × List Token) := do
  let ts ← after? (.mark opening) ts
  let (x, ts) ← read? ts
  let ts ← after? (.mark closing) ts
  return (x, ts)

/-- Read an operand; `read?` reads what stands in parentheses. -/
def operand? (read? : List Token → Option (Expression × List Token)) :
    List Token → Option (Expression × List Token)
  | .word w :: ts =>
    if w = "u32".toList then (between? ['('] [')'] read? ts).map fun x => (.cast x.1, x.2)
    else (leaf? w).map fun e => (e, ts)
  | ts => (between? ['('] [')'] read? ts).map fun x => (.group x.1, x.2)

/-- Read an expression that begins with an operand, from what follows that. -/
def continued? (read? : List Token → Option (Expression × List Token)) (lhs : Expression)
    (ts : List Token) : Option (Expression × List Token) :=
  match ts with
  | .mark symbol :: ts' =>
    match operator? symbol with
    | some operator => (operand? read? ts').map fun x => (operator lhs x.1, x.2)
    | none => some (lhs, ts)
  | _ => some (lhs, ts)

/-- Read an expression with at most the given number of parentheses inside one another. -/
def expression? : Nat → List Token → Option (Expression × List Token)
  | 0, _ => none
  | depth + 1, ts => do
    let (lhs, ts) ← operand? (expression? depth) ts
    continued? (expression? depth) lhs ts

/-- Read a branch from behind its first word. -/
def branch? (readExpression? : List Token → Option (Expression × List Token))
    (readBlock? : List Token → Option (Block × List Token)) (ts : List Token) :
    Option (Block × List Token) := do
  let (condition, ts) ← between? ['('] [')'] readExpression? ts
  let (whenTrue, ts) ← between? ['\x7b'] ['\x7d'] readBlock? ts
  let ts ← after? (.word "else".toList) ts
  let (whenFalse, ts) ← between? ['\x7b'] ['\x7d'] readBlock? ts
  return (.branch condition whenTrue whenFalse, ts)

/-- Read a block with at most the given number of braces and parentheses inside one another. -/
def block? : Nat → List Token → Option (Block × List Token)
  | 0, _ => none
  | depth + 1, .word w :: ts =>
    if w = "result".toList then
      (between? ['='] [';'] (expression? depth) ts).map fun x => (.assign x.1, x.2)
    else if w = "if".toList then branch? (expression? depth) (block? depth) ts
    else some (.empty, .word w :: ts)
  | _ + 1, ts => some (.empty, ts)

/-- What is read if nothing is left behind it. -/
def whole? {α : Type} : Option (α × List Token) → Option α
  | some (x, []) => some x
  | _ => none

/-- The expression that a text is. -/
def Expression.ofText? (text : List Char) : Option Expression :=
  whole? (expression? ((tokens text).length + 1) (tokens text))

/-- The block that a text is. -/
def Block.ofText? (text : List Char) : Option Block :=
  whole? (block? ((tokens text).length + 1) (tokens text))

/-! ## Rules as they are read -/

/-- The expression of the rule language that a shader expression is the code of. -/
def Expression.expr? : Expression → Option Expr
  | literal value => some (.const value)
  | named .isAlive => some .alive
  | named .numNeighbors => some .neighbors
  | cast (compare op (group lhs) (group rhs)) => do return .compare op (← lhs.expr?) (← rhs.expr?)
  | group (connect op (group lhs) (group rhs)) => do return .connect op (← lhs.expr?) (← rhs.expr?)
  | _ => none

/-- The statement of the rule language that a block is the code of. -/
def Block.statement? : Block → Option Statement
  | empty => some .noop
  | assign value => value.expr?.map .setResult
  | branch condition whenTrue whenFalse => do
    return .ifThenElse (← condition.expr?) (← whenTrue.statement?) (← whenFalse.statement?)

end Wgsl

/-- The rule that a text is the code of, a statement if it can be one. -/
def Rule.ofText? (text : List Char) : Option Rule :=
  match Wgsl.Block.ofText? text with
  | some b => b.statement?.map .statement
  | none => ((Wgsl.Expression.ofText? text).bind Wgsl.Expression.expr?).map .expr

end CellShader
