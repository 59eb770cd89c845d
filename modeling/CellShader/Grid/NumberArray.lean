import CellShader.Grid.Fault
import CellShader.Grid.Torus
import CellShader.Number.Machine

/-!
# Arrays of numbers

Cells come as numbers of any kind: integers, truth values or floating-point numbers, in a box of any
number of dimensions.  An array that does not say what its elements are gets the narrowest type that
holds them all.  Words are made of the elements modulo `2 ^ 32`, except of those kept as they are:
these have to be words already.
-/

namespace CellShader

open Number

/-- The word congruent to an integer. -/
def wordOfInt (i : Int) : UInt32 := UInt32.ofNat (i % UInt32.size).toNat

/-- The word for a floating-point number.  It is cut down to a signed integer of 64 bits first; for
what has none the word is 0. -/
def wordOfFloating (x : Floating) : UInt32 :=
  if IntegerType.long.Holds x.truncate then wordOfInt x.truncate else 0

/-- The word for a number that an array of the given type holds. -/
def Number.Numeral.word (t : NumberType) (n : Numeral) : Except NumberFault UInt32 :=
  match t, n with
  | .unbounded, n => (IntegerType.word.ofNumeral n).map wordOfInt
  | _, .integer i => .ok (wordOfInt i)
  | _, .truth b => .ok (wordOfInt b.toNat)
  | _, .real x => .ok (wordOfFloating x)

/-- An element of an array.  Uneven rows leave lists as elements if elements are kept as they are.
-/
inductive Element
  | number (n : Numeral)
  | list
  deriving DecidableEq, Repr

namespace Element

/-- Whether an element is other than zero, as every list is. -/
def isNonzero : Element → Bool
  | number n => n.isNonzero
  | list => true

/-- The word for an element that an array of the given type holds. -/
def word (t : NumberType) : Element → Except FieldFault UInt32
  | number n =>
    match n.word t with
    | .ok w => .ok w
    | .error fault => .error (.number fault)
  | list => .error .listElement

/-- A part of nested rows as an element. -/
def ofNested : Nested Numeral → Element
  | .item n => number n
  | .rows _ => list

end Element

/-- Elements in a box, in row-major order. -/
structure NumberArray where
  elementType : NumberType
  shape : List Nat
  elements : List Element
  size_eq : elements.length = boxSize shape

/-! ## Fields and grids from arrays -/

theorem length_of_mapM_ok {α β ε : Type} {f : α → Except ε β} {xs : List α} {ys : List β}
    (h : xs.mapM f = .ok ys) : ys.length = xs.length := by
  induction xs generalizing ys with
  | nil =>
    simp only [List.mapM_nil, pure, Except.pure, Except.ok.injEq] at h
    simp [← h]
  | cons x xs ih =>
    simp only [List.mapM_cons, bind, Except.bind, pure, Except.pure] at h
    split at h
    · simp at h
    · split at h
      · simp at h
      · rename_i zs hzs
        simp only [Except.ok.injEq] at h
        simp [← h, ih hzs]

namespace NumberArray

/-- The array of the parts of uneven rows at the depth down to which they are even. -/
def ofUneven (x : Nested Numeral) : Except FieldFault NumberArray :=
  let elements := (x.partsAt x.evenExtents.length).map Element.ofNested
  if h : elements.length = boxSize x.evenExtents then
    .ok ⟨.unbounded, x.evenExtents, elements, h⟩
  else .error (.uneven x.evenExtents)

/-- The array of the numbers in even rows, put into a type. -/
def ofNested (t : NumberType) (x : Nested Numeral) : Except FieldFault NumberArray :=
  match hx : x.box? with
  | none => if t = .unbounded then ofUneven x else .error (.uneven x.evenExtents)
  | some shape =>
    match h : x.leaves.mapM t.hold with
    | .ok ns =>
      .ok ⟨t, shape, ns.map .number, by
        rw [List.length_map, length_of_mapM_ok h,
          Nested.length_leaves (Nested.extents?_of_box? hx)]⟩
    | .error fault => .error (.number fault)

/-- The array of the numbers in even rows, put into the narrowest type that holds them all. -/
def ofRows (x : Nested Numeral) : Except FieldFault NumberArray :=
  if x.box?.isNone then .error (.uneven x.evenExtents)
  else ofNested (.ofNumerals x.leaves) x

/-- The field of words for an array. -/
def toField (a : NumberArray) : Except FieldFault Field :=
  match h : a.elements.mapM (Element.word a.elementType) with
  | .ok cells => .ok ⟨a.shape, cells, by rw [length_of_mapM_ok h, a.size_eq]⟩
  | .error fault => .error fault

end NumberArray

/-- A list cut into rows of one width. -/
def cutRows {α : Type} (width : Nat) : Nat → List α → List (List α)
  | 0, _ => []
  | height + 1, xs => xs.take width :: cutRows width height (xs.drop width)

theorem length_of_mem_cutRows {α : Type} {width height : Nat} {xs : List α}
    (h : xs.length = height * width) {row : List α} (hr : row ∈ cutRows width height xs) :
    row.length = width := by
  induction height generalizing xs with
  | zero => simp [cutRows] at hr
  | succ n ih =>
    have hx : xs.length = n * width + width := by rw [h, Nat.succ_mul]
    rcases List.mem_cons.1 hr with rfl | hr
    · rw [List.length_take]
      omega
    · exact ih (by rw [List.length_drop]; omega) hr

namespace NumberArray

/-- The cells of an array of two dimensions, 1 for each number other than zero. -/
def toGrid (a : NumberArray) : Except FieldFault Grid :=
  match h : a.shape with
  | [height, width] =>
    .ok {
      width := width
      rows := cutRows width height
        (a.elements.map (fun n => if n.isNonzero then (1 : UInt32) else 0))
      width_eq := fun _ hr => length_of_mem_cutRows
        (by rw [List.length_map, a.size_eq, h]; simp [boxSize]) hr }
  | shape => .error (.notTwoDimensional shape.length)

end NumberArray

end CellShader
