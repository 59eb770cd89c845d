/-!
# Boxes

Items in nested rows lie in a box if the rows of each depth have one length and are not nested too
deeply.  `Nested.box?` gives the lengths, and `length_leaves` says that the items are then as many
as the box has places.  Of other rows `Nested.evenExtents` tells how far they are even.
-/

namespace CellShader

/-- The number of places of a box. -/
def boxSize : List Nat → Nat
  | [] => 1
  | n :: ns => n * boxSize ns

/-- The greatest number of dimensions that a box has. -/
def maxDimensions : Nat := 64

/-- Items in nested rows. -/
inductive Nested (α : Type)
  | item (x : α)
  | rows (parts : List (Nested α))

namespace Nested

variable {α : Type}

mutual

/-- The items in nested rows, from left to right. -/
def leaves : Nested α → List α
  | item x => [x]
  | rows parts => leavesOfAll parts

/-- The items in several nested rows. -/
def leavesOfAll : List (Nested α) → List α
  | [] => []
  | part :: parts => part.leaves ++ leavesOfAll parts

end

/-- The parts at a depth, from left to right. -/
def partsAt : Nat → Nested α → List (Nested α)
  | depth + 1, rows parts => parts.flatMap (partsAt depth)
  | _, x => [x]

mutual

/-- The lengths of even rows, the outermost first. -/
def extents? : Nested α → Option (List Nat)
  | item _ => some []
  | rows [] => some [0]
  | rows (part :: parts) =>
    match part.extents? with
    | some shape => if haveExtents shape parts then some ((parts.length + 1) :: shape) else none
    | none => none

/-- Whether several rows are even and have the given lengths. -/
def haveExtents (shape : List Nat) : List (Nested α) → Bool
  | [] => true
  | part :: parts => part.extents? == some shape && haveExtents shape parts

end

mutual

theorem length_leaves {x : Nested α} {shape : List Nat} (h : x.extents? = some shape) :
    x.leaves.length = boxSize shape := by
  cases x with
  | item x =>
    obtain rfl : [] = shape := by simpa [extents?] using h
    rfl
  | rows parts =>
    cases parts with
    | nil =>
      obtain rfl : [0] = shape := by simpa [extents?] using h
      rfl
    | cons part parts =>
      cases hp : part.extents? with
      | none => simp [extents?, hp] at h
      | some inner =>
        simp only [extents?, hp, Option.ite_none_right_eq_some, Option.some.injEq] at h
        obtain ⟨hall, rfl⟩ := h
        simp only [leaves, leavesOfAll, List.length_append, boxSize, length_leaves hp,
          length_leavesOfAll hall, Nat.succ_mul]
        omega

theorem length_leavesOfAll {parts : List (Nested α)} {shape : List Nat}
    (h : haveExtents shape parts = true) :
    (leavesOfAll parts).length = parts.length * boxSize shape := by
  cases parts with
  | nil => simp [leavesOfAll]
  | cons part parts =>
    simp only [haveExtents, Bool.and_eq_true, beq_iff_eq] at h
    simp only [leavesOfAll, List.length_append, List.length_cons, length_leaves h.1,
      length_leavesOfAll h.2, Nat.succ_mul]
    omega

end

/-- The lengths of even rows that are not nested too deeply. -/
def box? (x : Nested α) : Option (List Nat) :=
  x.extents?.filter (fun shape => shape.length ≤ maxDimensions)

theorem extents?_of_box? {x : Nested α} {shape : List Nat} (h : x.box? = some shape) :
    x.extents? = some shape := by
  simp only [box?, Option.filter_eq_some_iff] at h
  exact h.1

/-- What is known of the lengths of rows while they are read from left to right: the lengths met on
the way down to the first item, how many of them hold for all rows so far, and whether that first
item has been met. -/
structure Survey where
  lengths : List Nat
  known : Nat
  settled : Bool

mutual

/-- Go on reading at a depth. -/
def survey (depth : Nat) : Nested α → Survey → Survey
  | item _, s => { s with known := depth, settled := true }
  | rows parts, s =>
    if s.known == depth then { s with settled := true }
    else if s.settled && s.lengths[depth]? != some parts.length then { s with known := depth }
    else
      let s := if s.settled then s else { s with lengths := s.lengths ++ [parts.length] }
      if parts.isEmpty then { s with known := depth + 1, settled := true }
      else surveyAll (depth + 1) parts s

/-- Go on reading several rows at a depth. -/
def surveyAll (depth : Nat) : List (Nested α) → Survey → Survey
  | [], s => s
  | part :: parts, s => surveyAll depth parts (part.survey depth s)

end

/-- The lengths of rows in the dimensions in which they are even, no more than a box has. -/
def evenExtents (x : Nested α) : List Nat :=
  let s := x.survey 0 ⟨[], maxDimensions, false⟩
  s.lengths.take s.known

end Nested

/-- The extents of a box as messages show them. -/
def shapeText : List Nat → String
  | [n] => "(" ++ toString n ++ ",)"
  | ns => "(" ++ ", ".intercalate (ns.map toString) ++ ")"

/-- The message for rows that are even in the given dimensions only.  In as many dimensions as a box
has they are nested too deeply. -/
def unevenMessage (shape : List Nat) : String :=
  "setting an array element with a sequence. " ++
    if shape.length = maxDimensions then
      "The requested array would exceed the maximum number of dimension of " ++
        toString maxDimensions ++ "."
    else
      "The requested array has an inhomogeneous shape after " ++ toString shape.length ++
        " dimensions. The detected shape was " ++ shapeText shape ++ " + inhomogeneous part."

end CellShader
