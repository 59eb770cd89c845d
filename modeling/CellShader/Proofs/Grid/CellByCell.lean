import CellShader.Grid.Numbers

/-!
# One cell of many

What running a rule on all cells at once does to one of them.  An expression has its value there
(`getElem?_onCells`), and a statement run under a mask does what it does to a single cell if the
mask is set there, and otherwise nothing (`Statement.getElem?_onCells`): of the two branches of a
conditional, which are run one after the other, one finds its part of the mask unset.  For arrays
that are given place by place this is one equation (`Statement.onCells_ofFn`).
-/

namespace CellShader

section Cell

variable {isAlive numNeighbors : List UInt32} {i : Nat} {a n : UInt32}
  (ha : isAlive[i]? = some a) (hn : numNeighbors[i]? = some n)

include ha hn

theorem Expr.getElem?_onCells (e : Expr) :
    (e.onCells isAlive numNeighbors)[i]? = some (e.value a n) := by
  induction e with
  | const c =>
    obtain ⟨hi, -⟩ := List.getElem?_eq_some_iff.1 ha
    rw [onCells, List.getElem?_replicate, if_pos hi]
    rfl
  | alive => exact ha
  | neighbors => exact hn
  | compare op lhs rhs ihl ihr =>
    rw [onCells, List.getElem?_zipWith, ihl, ihr]
    rfl
  | connect op lhs rhs ihl ihr =>
    rw [onCells, List.getElem?_zipWith, ihl, ihr]
    rfl

omit ha hn in
theorem getElem?_overwrite {mask : List Bool} {news olds : List UInt32} {m : Bool}
    {new old : UInt32} (hm : mask[i]? = some m) (hnew : news[i]? = some new)
    (hold : olds[i]? = some old) :
    (overwrite mask news olds)[i]? = some (if m then new else old) := by
  induction mask generalizing news olds i with
  | nil => simp at hm
  | cons m' mask ih =>
    obtain ⟨new', news, rfl⟩ : ∃ x xs, news = x :: xs := by
      refine List.exists_cons_of_ne_nil ?_
      rintro rfl
      simp at hnew
    obtain ⟨old', olds, rfl⟩ : ∃ x xs, olds = x :: xs := by
      refine List.exists_cons_of_ne_nil ?_
      rintro rfl
      simp at hold
    cases i with
    | zero =>
      obtain rfl : m' = m := by simpa using hm
      obtain rfl : new' = new := by simpa using hnew
      obtain rfl : old' = old := by simpa using hold
      rfl
    | succ i =>
      rw [List.getElem?_cons_succ] at hm hnew hold
      rw [overwrite, List.getElem?_cons_succ]
      exact ih hm hnew hold

/-- Where the mask is set a statement does what it does to a single cell, and elsewhere nothing. -/
theorem Statement.getElem?_onCells (s : Statement) {mask : List Bool} {result : List UInt32}
    {m : Bool} {r : UInt32} (hm : mask[i]? = some m) (hr : result[i]? = some r) :
    (s.onCells isAlive numNeighbors mask result)[i]? = some (if m then s.run a n r else r) := by
  induction s generalizing mask result m r with
  | noop =>
    rw [onCells, hr]
    simp [run]
  | setResult e => exact getElem?_overwrite hm (e.getElem?_onCells ha hn) hr
  | ifThenElse condition whenTrue whenFalse iht ihf =>
    have hholds : ((condition.onCells isAlive numNeighbors).map (· != 0))[i]? =
        some (condition.value a n != 0) := by
      rw [List.getElem?_map, condition.getElem?_onCells ha hn]
      rfl
    have htrue : (List.zipWith (· && ·) mask
        ((condition.onCells isAlive numNeighbors).map (· != 0)))[i]? =
          some (m && (condition.value a n != 0)) := by
      rw [List.getElem?_zipWith, hm, hholds]
    have hfalse : (List.zipWith (fun m b => m && !b) mask
        ((condition.onCells isAlive numNeighbors).map (· != 0)))[i]? =
          some (m && !(condition.value a n != 0)) := by
      rw [List.getElem?_zipWith, hm, hholds]
    rw [onCells, ihf hfalse (iht htrue hr), run]
    by_cases hc : condition.value a n = 0 <;> cases m <;> simp [hc]

/-- Run on all cells, a statement does to each what it does to a single cell. -/
theorem Statement.getElem?_outcomes (s : Statement) :
    (s.outcomes isAlive numNeighbors)[i]? = some (s.outcome a n) := by
  obtain ⟨hi, -⟩ := List.getElem?_eq_some_iff.1 ha
  have hm : (List.replicate isAlive.length true)[i]? = some true := by
    rw [List.getElem?_replicate, if_pos hi]
  have hr : (List.replicate isAlive.length (0 : UInt32))[i]? = some 0 := by
    rw [List.getElem?_replicate, if_pos hi]
  exact s.getElem?_onCells ha hn hm hr

end Cell

/-! ## All cells -/

section All

variable {k : Nat}

theorem eq_ofFn_of_getElem? {α : Type} {xs : List α} {f : Fin k → α} (hlength : xs.length = k)
    (h : ∀ i : Fin k, xs[i.val]? = some (f i)) : xs = List.ofFn f := by
  apply List.ext_getElem?
  intro i
  by_cases hi : i < k
  · rw [h ⟨i, hi⟩]
    simp [hi]
  · rw [List.getElem?_eq_none (by omega), List.getElem?_eq_none (by simp; omega)]

theorem getElem?_ofFn_val {α : Type} (f : Fin k → α) (i : Fin k) :
    (List.ofFn f)[i.val]? = some (f i) := by
  simp

variable (a n : Fin k → UInt32)

theorem Expr.onCells_ofFn (e : Expr) :
    e.onCells (List.ofFn a) (List.ofFn n) = List.ofFn fun i => e.value (a i) (n i) := by
  refine eq_ofFn_of_getElem? ?_ fun i => ?_
  · rw [e.length_onCells (by simp), List.length_ofFn]
  · exact e.getElem?_onCells (getElem?_ofFn_val a i) (getElem?_ofFn_val n i)

/-- Run under a mask, a statement leaves what it leaves at a single cell where the mask is set, and
otherwise what was there. -/
theorem Statement.onCells_ofFn (s : Statement) (mask : Fin k → Bool) (r : Fin k → UInt32) :
    s.onCells (List.ofFn a) (List.ofFn n) (List.ofFn mask) (List.ofFn r) =
      List.ofFn fun i => if mask i then s.run (a i) (n i) (r i) else r i := by
  refine eq_ofFn_of_getElem? ?_ fun i => ?_
  · rw [s.length_onCells, List.length_ofFn]
  · exact s.getElem?_onCells (getElem?_ofFn_val a i) (getElem?_ofFn_val n i)
      (getElem?_ofFn_val mask i) (getElem?_ofFn_val r i)

end All

/-! ## Arrays of machine integers -/

open Number

/-- Integers of one machine type, one for each place of a box. -/
structure IntegerArray (shape : List Nat) where
  type : IntegerType
  values : List Int
  size_eq : values.length = boxSize shape
  holds : ∀ v ∈ values, type.Holds v

namespace IntegerArray

variable {shape : List Nat}

/-- The array that holds the integers. -/
def toArray (x : IntegerArray shape) : NumberArray where
  elementType := .integer x.type
  shape := shape
  elements := x.values.map fun v => .number (.integer v)
  size_eq := by rw [List.length_map, x.size_eq]

/-- The integers modulo `2 ^ 32`. -/
def toField (x : IntegerArray shape) : Field where
  shape := shape
  cells := x.values.map wordOfInt
  size_eq := by rw [List.length_map, x.size_eq]

theorem mapM_word (t : IntegerType) (values : List Int) :
    (values.map fun v => Element.number (.integer v)).mapM (Element.word (.integer t)) =
      .ok (values.map wordOfInt) := by
  induction values with
  | nil => rfl
  | cons v values ih =>
    rw [List.map_cons, List.mapM_cons, ih]
    rfl

theorem toField_toArray (x : IntegerArray shape) : x.toArray.toField = .ok x.toField := by
  have hcells := mapM_word x.type x.values
  unfold NumberArray.toField
  split
  · rename_i cells h
    obtain rfl := Except.ok.inj (h.symm.trans hcells)
    rfl
  · rename_i fault h
    cases h.symm.trans hcells

/-- The integer at a place. -/
def value (x : IntegerArray shape) (i : Fin (boxSize shape)) : Int :=
  x.values.get (i.cast x.size_eq.symm)

theorem getElem?_toField (x : IntegerArray shape) (i : Fin (boxSize shape)) :
    x.toField.cells[i.val]? = some (wordOfInt (x.value i)) := by
  have hi : i.val < x.values.length := by
    rw [x.size_eq]
    exact i.isLt
  rw [toField, List.getElem?_map, List.getElem?_eq_getElem hi]
  rfl

theorem cells_toField (x : IntegerArray shape) :
    x.toField.cells = List.ofFn fun i => wordOfInt (x.value i) :=
  eq_ofFn_of_getElem? x.toField.size_eq x.getElem?_toField

end IntegerArray

end CellShader
