/-!
# Levels of the log

Messages have levels, from what is of use only when looking for a mistake up to what went wrong.
-/

namespace CellShader

/-- How much a message matters. -/
inductive Level
  | verbose
  | info
  | warning
  | error
  deriving DecidableEq, Repr

/-- A message with its level. -/
structure Record where
  level : Level
  message : String
  deriving DecidableEq, Repr

namespace Level

/-- The place of a level among the levels. -/
def rank : Level → Nat
  | verbose => 0
  | info => 1
  | warning => 2
  | error => 3

/-- Whether messages of level `l` are let through when the level in force is `threshold`. -/
def passes (threshold l : Level) : Bool := threshold.rank ≤ l.rank

/-- What a level is called in front of messages. -/
def label : Level → String
  | verbose => "DEBUG"
  | info => "INFO"
  | warning => "WARNING"
  | error => "ERROR"

end Level

namespace Record

/-- The line that a record takes on the console. -/
def line (r : Record) : String := "[" ++ r.level.label ++ "] " ++ r.message ++ "\n"

end Record

end CellShader
