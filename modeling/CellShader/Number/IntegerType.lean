/-!
# Types of machine integers

A machine integer has a fixed width, with a sign or without, and lies between the bounds that these
give it.
-/

namespace CellShader.Number

/-- The widths of machine integers. -/
inductive IntegerWidth
  | eight
  | sixteen
  | thirtyTwo
  | sixtyFour
  deriving DecidableEq, Repr

/-- A type of machine integers. -/
inductive IntegerType
  | ofWidth (signed : Bool) (width : IntegerWidth)
  /-- a second type of 64 bits -/
  | longest (signed : Bool)
  deriving DecidableEq, Repr

namespace IntegerWidth

def bits : IntegerWidth → Nat
  | eight => 8
  | sixteen => 16
  | thirtyTwo => 32
  | sixtyFour => 64

end IntegerWidth

namespace IntegerType

/-- The signed integers of 64 bits. -/
def long : IntegerType := .ofWidth true .sixtyFour

/-- The unsigned integers of 64 bits. -/
def unsignedLong : IntegerType := .ofWidth false .sixtyFour

/-- The unsigned integers of 32 bits. -/
def word : IntegerType := .ofWidth false .thirtyTwo

def bits : IntegerType → Nat
  | ofWidth _ width => width.bits
  | longest _ => 64

def isSigned : IntegerType → Bool
  | ofWidth signed _ | longest signed => signed

/-- The least integer of a type. -/
def least (t : IntegerType) : Int := if t.isSigned then -(Nat.pow 2 (t.bits - 1) : Nat) else 0

/-- The greatest integer of a type. -/
def greatest (t : IntegerType) : Int :=
  (Nat.pow 2 (if t.isSigned then t.bits - 1 else t.bits) : Nat) - 1

/-- What kind of integers a type has, as the numbers themselves show it. -/
def sizeName (t : IntegerType) : String := (if t.isSigned then "int" else "uint") ++ toString t.bits

/-- The name of a type. -/
def name : IntegerType → String
  | longest signed => if signed then "longlong" else "ulonglong"
  | t => t.sizeName

/-- Whether an integer lies between the bounds of a type. -/
def Holds (t : IntegerType) (i : Int) : Prop := t.least ≤ i ∧ i ≤ t.greatest

instance (t : IntegerType) (i : Int) : Decidable (t.Holds i) :=
  inferInstanceAs (Decidable (_ ∧ _))

/-- Whether an integer is short enough to be looked at by a type: it has to fit in 64 bits, with a
sign or, for the unsigned types of 32 bits and more, without. -/
def IsShort (t : IntegerType) (i : Int) : Prop :=
  long.Holds i ∨ t.isSigned = false ∧ 32 ≤ t.bits ∧ unsignedLong.Holds i

instance (t : IntegerType) (i : Int) : Decidable (t.IsShort i) :=
  inferInstanceAs (Decidable (_ ∨ _))

end IntegerType

end CellShader.Number
