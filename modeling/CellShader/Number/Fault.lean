import CellShader.Number.IntegerType
import CellShader.Text.Quoted

/-!
# Why a number is not held

Each way in which a type of numbers can fail to hold a number, and the message for it.
-/

namespace CellShader

/-- What a fault is about: the type of a value, the value itself, its size, a name that is not
known, or a ruleset that leads back to itself. -/
inductive FaultKind
  | type
  | value
  | overflow
  | name
  | loop
  deriving DecidableEq, Repr

namespace Number

/-- Why a type does not hold a number. -/
inductive NumberFault
  | integerTooLong (t : IntegerType)
  | integerOutOfRange (t : IntegerType) (i : Int)
  | integerTooLongToRound
  | nanToInteger
  | infinityToInteger
  | noSpan
  | instantWithoutUnit
  | noInstant
  | noBlockSize
  | noBytes
  | noNumber (text : String)
  deriving DecidableEq, Repr

namespace NumberFault

/-- The message for a fault. -/
def message : NumberFault → String
  | integerTooLong (.ofWidth _ _) => "Python int too large to convert to C long"
  | integerTooLong _ => "int too big to convert"
  | integerOutOfRange t i =>
    "Python integer " ++ toString i ++ " out of bounds for " ++ t.sizeName
  | integerTooLongToRound => "int too large to convert to float"
  | nanToInteger => "cannot convert float NaN to integer"
  | infinityToInteger => "cannot convert float infinity to integer"
  | noSpan => "Could not convert object to NumPy timedelta"
  | instantWithoutUnit => "Converting an integer to a NumPy datetime requires a specified unit"
  | noInstant => "Could not convert object to NumPy datetime"
  | noBlockSize =>
    "size must be non-negative and not greater than " ++ toString (Int32.maxValue.toInt)
  | noBytes => "A bytes-like object is required, not 'float'"
  | noNumber text => "could not convert string to float: " ++ Text.quoted text

/-- What a fault is about. -/
def kind : NumberFault → FaultKind
  | integerTooLong _ | integerOutOfRange _ _ | integerTooLongToRound | infinityToInteger
  | noBlockSize => .overflow
  | nanToInteger | noSpan | instantWithoutUnit | noInstant | noNumber _ => .value
  | noBytes => .type

end NumberFault

end Number

end CellShader
