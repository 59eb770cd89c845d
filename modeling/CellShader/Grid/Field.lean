import CellShader.Grid.Box
import CellShader.Rule.Meaning

/-!
# Fields of words

A field holds a word for each cell of a box of any number of dimensions, in row-major order.  A rule
is run on all cells at once: an expression gives a field, and a statement changes the result under a
mask.  Both branches of a conditional are run, each under its part of the mask.
-/

namespace CellShader

/-- A word for each cell of a box. -/
structure Field where
  shape : List Nat
  cells : List UInt32
  size_eq : cells.length = boxSize shape

/-- The value of an expression at every cell. -/
def Expr.onCells (isAlive numNeighbors : List UInt32) : Expr → List UInt32
  | const c => List.replicate isAlive.length c
  | alive => isAlive
  | neighbors => numNeighbors
  | compare op lhs rhs =>
    List.zipWith op.apply (lhs.onCells isAlive numNeighbors) (rhs.onCells isAlive numNeighbors)
  | connect op lhs rhs =>
    List.zipWith op.apply (lhs.onCells isAlive numNeighbors) (rhs.onCells isAlive numNeighbors)

/-- The new words where the mask is set and the old ones elsewhere. -/
def overwrite : List Bool → List UInt32 → List UInt32 → List UInt32
  | m :: ms, new :: news, old :: olds => (if m then new else old) :: overwrite ms news olds
  | _, _, olds => olds

/-- What a statement makes of the results so far at the cells of a mask. -/
def Statement.onCells (isAlive numNeighbors : List UInt32) :
    Statement → List Bool → List UInt32 → List UInt32
  | noop, _, result => result
  | setResult e, mask, result => overwrite mask (e.onCells isAlive numNeighbors) result
  | ifThenElse condition whenTrue whenFalse, mask, result =>
    let holds := (condition.onCells isAlive numNeighbors).map (· != 0)
    let result := whenTrue.onCells isAlive numNeighbors (List.zipWith (· && ·) mask holds) result
    whenFalse.onCells isAlive numNeighbors (List.zipWith (fun m b => m && !b) mask holds) result

/-- The results that a statement leaves at all cells, each being 0 to begin with. -/
def Statement.outcomes (s : Statement) (isAlive numNeighbors : List UInt32) : List UInt32 :=
  s.onCells isAlive numNeighbors (List.replicate isAlive.length true)
    (List.replicate isAlive.length 0)

/-! ## Lengths -/

theorem Expr.length_onCells {isAlive numNeighbors : List UInt32}
    (h : isAlive.length = numNeighbors.length) (e : Expr) :
    (e.onCells isAlive numNeighbors).length = isAlive.length := by
  induction e with
  | const c => simp [onCells]
  | alive => rfl
  | neighbors => exact h.symm
  | compare op lhs rhs ihl ihr => simp [onCells, ihl, ihr]
  | connect op lhs rhs ihl ihr => simp [onCells, ihl, ihr]

theorem length_overwrite (mask : List Bool) (new old : List UInt32) :
    (overwrite mask new old).length = old.length := by
  induction mask generalizing new old with
  | nil => rfl
  | cons m ms ih =>
    cases new with
    | nil => rfl
    | cons n ns =>
      cases old with
      | nil => rfl
      | cons o os => simp [overwrite, ih]

theorem Statement.length_onCells (isAlive numNeighbors : List UInt32) (s : Statement)
    (mask : List Bool) (result : List UInt32) :
    (s.onCells isAlive numNeighbors mask result).length = result.length := by
  induction s generalizing mask result with
  | noop => rfl
  | setResult e => exact length_overwrite _ _ _
  | ifThenElse c t f iht ihf => simp [onCells, iht, ihf]

theorem Statement.length_outcomes (s : Statement) (isAlive numNeighbors : List UInt32) :
    (s.outcomes isAlive numNeighbors).length = isAlive.length := by
  simp [outcomes, length_onCells]

/-! ## Rules on fields -/

namespace Field

/-- The field of an expression's values, given which cells are alive and their numbers of live
neighbours. -/
def evalExpr (e : Expr) (isAlive numNeighbors : Field)
    (h : isAlive.shape = numNeighbors.shape) : Field where
  shape := isAlive.shape
  cells := e.onCells isAlive.cells numNeighbors.cells
  size_eq := by
    rw [e.length_onCells (by rw [isAlive.size_eq, numNeighbors.size_eq, h]), isAlive.size_eq]

/-- The field of the results that a statement leaves. -/
def runStatement (s : Statement) (isAlive numNeighbors : Field) : Field where
  shape := isAlive.shape
  cells := s.outcomes isAlive.cells numNeighbors.cells
  size_eq := by rw [s.length_outcomes, isAlive.size_eq]

end Field

end CellShader
