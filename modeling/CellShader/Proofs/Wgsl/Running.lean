import CellShader.Proofs.Grid.CellByCell
import CellShader.Proofs.Wgsl.Compiled

/-!
# Running shader text

What shader text does at one cell, said of what is read from the text and without regard to the rule
that it was compiled from.  Running a rule on all cells of two arrays leaves at each cell what the
code of the rule leaves there (`runOn_and_evalOn_eq_text`).
-/

namespace CellShader

namespace Wgsl

/-- Whether a comparison of two numbers is true. -/
def isTrue : Comparison → Nat → Nat → Bool
  | .greater, x, y => decide (x > y)
  | .greaterOrEqual, x, y => decide (x ≥ y)
  | .less, x, y => decide (x < y)
  | .lessOrEqual, x, y => decide (x ≤ y)
  | .equal, x, y => decide (x = y)

/-- The value of an expression, given the values of the two variables. -/
def Expression.value (isAlive numNeighbors : UInt32) : Expression → UInt32
  | literal value => value
  | named .isAlive => isAlive
  | named .numNeighbors => numNeighbors
  | cast operand => operand.value isAlive numNeighbors
  | group operand => operand.value isAlive numNeighbors
  | compare op lhs rhs =>
    if isTrue op (lhs.value isAlive numNeighbors).toNat (rhs.value isAlive numNeighbors).toNat
    then 1 else 0
  | connect .and lhs rhs => lhs.value isAlive numNeighbors &&& rhs.value isAlive numNeighbors
  | connect .or lhs rhs => lhs.value isAlive numNeighbors ||| rhs.value isAlive numNeighbors

/-- The result that a block leaves, given the result before it. -/
def Block.run (isAlive numNeighbors : UInt32) : Block → UInt32 → UInt32
  | empty, result => result
  | assign value, _ => value.value isAlive numNeighbors
  | branch condition whenTrue whenFalse, result =>
    if condition.value isAlive numNeighbors = 0 then whenFalse.run isAlive numNeighbors result
    else whenTrue.run isAlive numNeighbors result

/-- The value of a text that is an expression. -/
def valueOf? (text : List Char) (isAlive numNeighbors : UInt32) : Option UInt32 :=
  (Expression.ofText? text).map fun e => e.value isAlive numNeighbors

/-- The result that a text leaves that is a block, the result being 0 to begin with. -/
def resultOf? (text : List Char) (isAlive numNeighbors : UInt32) : Option UInt32 :=
  (Block.ofText? text).map fun b => b.run isAlive numNeighbors 0

/-! ## The code of a rule does what the rule means -/

theorem isTrue_eq_holds (op : Comparison) (x y : UInt32) :
    isTrue op x.toNat y.toNat = op.holds x y := by
  cases op with
  | greater => simp [isTrue, Comparison.holds, UInt32.lt_iff_toNat_lt]
  | greaterOrEqual => simp [isTrue, Comparison.holds, UInt32.le_iff_toNat_le]
  | less => simp [isTrue, Comparison.holds, UInt32.lt_iff_toNat_lt]
  | lessOrEqual => simp [isTrue, Comparison.holds, UInt32.le_iff_toNat_le]
  | equal =>
    rw [isTrue, Comparison.holds, Bool.eq_iff_iff, decide_eq_true_iff, beq_iff_eq,
      UInt32.toNat_inj]

theorem value_ofExpr (a n : UInt32) (e : Expr) : (Expression.ofExpr e).value a n = e.value a n := by
  induction e with
  | const value => rfl
  | alive => rfl
  | neighbors => rfl
  | compare op lhs rhs ihl ihr =>
    rw [Expression.ofExpr, Expression.value, Expression.value, Expression.value, Expression.value,
      ihl, ihr, isTrue_eq_holds]
    rfl
  | connect op lhs rhs ihl ihr =>
    cases op <;>
      rw [Expression.ofExpr, Expression.value, Expression.value, Expression.value, Expression.value,
        ihl, ihr] <;>
      rfl

theorem run_ofStatement (a n : UInt32) (s : Statement) (r : UInt32) :
    (Block.ofStatement s).run a n r = s.run a n r := by
  induction s generalizing r with
  | noop => rfl
  | setResult value => exact value_ofExpr a n value
  | ifThenElse condition whenTrue whenFalse iht ihf =>
    rw [Block.ofStatement, Block.run, Statement.run, value_ofExpr, iht, ihf, ite_not]

theorem valueOf?_code (e : Expr) (a n : UInt32) : valueOf? e.code a n = some (e.value a n) := by
  rw [valueOf?, Expression.ofText?_code, Option.map_some, value_ofExpr]

theorem resultOf?_code (s : Statement) (a n : UInt32) :
    resultOf? s.code a n = some (s.outcome a n) := by
  rw [resultOf?, Block.ofText?_code, Option.map_some, run_ofStatement]
  rfl

end Wgsl

/-! ## All cells -/

section Arrays

variable {shape : List Nat} (alive neighbors : IntegerArray shape)

theorem Value.onFields_toArray (f : (a n : Field) → a.shape = n.shape → Except FieldFault Field) :
    onFields (.array alive.toArray) (.array neighbors.toArray) f =
      f alive.toField neighbors.toField rfl := by
  have halive : (Numbers.array alive.toArray).toField = .ok alive.toField := alive.toField_toArray
  have hneighbors : (Numbers.array neighbors.toArray).toField = .ok neighbors.toField :=
    neighbors.toField_toArray
  rw [onFields, halive, hneighbors]
  exact dif_pos rfl

/-- At each cell of two arrays of integers a rule comes to what its code comes to there. -/
theorem Value.runOn_and_evalOn_eq_text :
    (∀ s : Statement, ∃ f : Field,
      (rule (.statement s)).runOn (.array alive.toArray) (.array neighbors.toArray) = .ok f ∧
        f.shape = shape ∧
        ∀ i : Fin (boxSize shape), ∃ w, f.cells[i.val]? = some w ∧
          Wgsl.resultOf? s.code (wordOfInt (alive.value i)) (wordOfInt (neighbors.value i)) =
            some w) ∧
    ∀ e : Expr, ∃ f : Field,
      (rule (.expr e)).evalOn (.array alive.toArray) (.array neighbors.toArray) = .ok f ∧
        f.shape = shape ∧
        ∀ i : Fin (boxSize shape), ∃ w, f.cells[i.val]? = some w ∧
          Wgsl.valueOf? e.code (wordOfInt (alive.value i)) (wordOfInt (neighbors.value i)) =
            some w := by
  constructor
  · intro s
    refine ⟨.runStatement s alive.toField neighbors.toField,
      onFields_toArray alive neighbors _, rfl, fun i => ⟨_, ?_, Wgsl.resultOf?_code s _ _⟩⟩
    exact s.getElem?_outcomes (alive.getElem?_toField i) (neighbors.getElem?_toField i)
  · intro e
    refine ⟨.evalExpr e alive.toField neighbors.toField rfl,
      onFields_toArray alive neighbors _, rfl, fun i => ⟨_, ?_, Wgsl.valueOf?_code e _ _⟩⟩
    exact e.getElem?_onCells (alive.getElem?_toField i) (neighbors.getElem?_toField i)

end Arrays

end CellShader
