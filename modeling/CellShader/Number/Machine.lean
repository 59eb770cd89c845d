import CellShader.Number.Fault
import CellShader.Number.Reading

/-!
# Machine numbers

Machines hold truth values, integers of a fixed width and floating-point numbers of a fixed format.
A number of another kind is made into one of a type's own as far as that is possible: an integer
type drops what stands behind the point and refuses what lies outside its bounds, a floating-point
type rounds.  The main statement, `IntegerType.hold_eq_ok_iff`, says that a type holds an integer
unchanged or not at all.
-/

namespace CellShader.Number

/-- A number as it is written. -/
inductive Numeral
  | integer (i : Int)
  | truth (b : Bool)
  | real (x : Floating)
  deriving DecidableEq, Repr

/-- A type of machine floating-point numbers.  Those of a complex type have an imaginary part, which
is 0 whenever they are made of another number. -/
inductive RealType
  | half
  | single
  | double
  | extended
  | complexSingle
  | complexDouble
  | complexExtended
  deriving DecidableEq, Repr

/-- A type of numbers. -/
inductive NumberType
  | truth
  | integer (t : IntegerType)
  | real (t : RealType)
  /-- spans of time in a unit that is not said -/
  | span
  /-- instants, which no number is without a unit -/
  | instant
  /-- numbers written out as texts -/
  | text
  /-- as many zero bytes as a number says, or else the bytes of its text -/
  | bytes
  /-- blocks of as many zero bytes as a number says -/
  | block
  /-- numbers of any size and kind, each kept as it is -/
  | unbounded
  deriving DecidableEq, Repr

namespace IntegerType

/-- An integer as a type holds it.  One that is too long to be looked at is told from others that
the type does not hold. -/
def hold (t : IntegerType) (i : Int) : Except NumberFault Int :=
  if t.Holds i then .ok i
  else if t.IsShort i then .error (.integerOutOfRange t i)
  else .error (.integerTooLong t)

theorem hold_eq_ok_iff {t : IntegerType} {i j : Int} : t.hold i = .ok j ↔ t.Holds i ∧ i = j := by
  unfold hold
  split
  · simp [*]
  · split <;> simp [*]

end IntegerType

namespace RealType

/-- The format of the numbers of a type, or of their real parts. -/
def format : RealType → Format
  | half => .half
  | single | complexSingle => .single
  | double | complexDouble => .double
  | extended | complexExtended => .extended

def isComplex : RealType → Bool
  | half | single | double | extended => false
  | complexSingle | complexDouble | complexExtended => true

/-- The name of a type. -/
def name : RealType → String
  | half => "float16"
  | single => "float32"
  | double => "float64"
  | extended => "longdouble"
  | complexSingle => "complex64"
  | complexDouble => "complex128"
  | complexExtended => "clongdouble"

end RealType

namespace Numeral

/-- The floating-point number that a text spells. -/
def ofSpelling (s : String) : Except NumberFault Numeral :=
  match Floating.ofText? .double s.toList with
  | some x => .ok (.real x)
  | none => .error (.noNumber s)

/-- Whether a number is other than zero. -/
def isNonzero : Numeral → Bool
  | integer i => i != 0
  | truth b => b
  | real x => !x.isZero

/-- The integer that a number is or is cut down to. -/
def toInt : Numeral → Except NumberFault Int
  | integer i => .ok i
  | truth b => .ok b.toNat
  | real (.infinite _) => .error .infinityToInteger
  | real .nan => .error .nanToInteger
  | real x => .ok x.truncate

/-- The narrowest type of those that numbers have when they do not say it. -/
def type : Numeral → NumberType
  | truth _ => .truth
  | real _ => .real .double
  | integer i =>
    if IntegerType.long.Holds i then .integer .long
    else if IntegerType.unsignedLong.Holds i then .integer .unsignedLong
    else .unbounded

end Numeral

/-- A number as an integer type holds it. -/
def IntegerType.ofNumeral (t : IntegerType) (n : Numeral) : Except NumberFault Int := do
  t.hold (← n.toInt)

/-- The length of a span of time, an integer of 64 bits.  No floating-point number is one. -/
def Numeral.spanLength (n : Numeral) : Except NumberFault Int :=
  match n with
  | .real _ => .error .noSpan
  | n => (IntegerType.longest true).ofNumeral n

/-- The span of time of the given length.  The least integer stands for what is no time. -/
def span? (length : Int) : Option Int :=
  if length = IntegerType.long.least then none else some length

/-- An integer rounded to a type.  It is rounded to the double format first, which it must not
exceed; only the extended type takes it as it is. -/
def RealType.ofInt (t : RealType) (i : Int) : Except NumberFault Floating :=
  if t = .extended then .ok (.ofInt .extended i)
  else
    match Floating.ofInt .double i with
    | .infinite _ => .error .integerTooLongToRound
    | x => .ok (x.toFormat t.format)

/-- A number rounded to a type. -/
def RealType.ofNumeral (t : RealType) : Numeral → Except NumberFault Floating
  | .integer i => t.ofInt i
  | .truth b => .ok (.ofInt t.format b.toNat)
  | .real x => .ok (x.toFormat t.format)

/-- The size of a block that a number says, which is no less than one byte. -/
def Numeral.blockSize (n : Numeral) : Except NumberFault Nat :=
  match n with
  | .real _ => .error .noBytes
  | .truth _ => .ok 1
  | .integer i =>
    if 0 ≤ i ∧ i ≤ Int32.maxValue.toInt then .ok (max 1 i.toNat) else .error .noBlockSize

/-- Why a number is no instant. -/
def Numeral.instantFault : Numeral → NumberFault
  | .real _ => .noInstant
  | _ => .instantWithoutUnit

namespace NumberType

/-- A number as a type holds it. -/
def hold : NumberType → Numeral → Except NumberFault Numeral
  | truth, n => .ok (.truth n.isNonzero)
  | integer t, n => (t.ofNumeral n).map .integer
  | real t, n => (t.ofNumeral n).map .real
  | span, n => n.spanLength.map .integer
  | instant, n => .error n.instantFault
  | text, n | bytes, n | block, n | unbounded, n => .ok n

/-- The type that holds the numbers of two of the types that numbers have when they do not say it.
-/
def join (s t : NumberType) : NumberType :=
  if s = t then s
  else
    match s, t with
    | unbounded, _ | _, unbounded => unbounded
    | truth, t | t, truth => t
    | _, _ => real .double

/-- The type that holds all the given numbers; without any it is floating-point. -/
def ofNumerals : List Numeral → NumberType
  | [] => real .double
  | n :: ns => ns.foldl (fun t n => join t n.type) n.type

end NumberType

end CellShader.Number
