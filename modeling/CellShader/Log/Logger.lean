import CellShader.Log.Level
import CellShader.Text.Blank

/-!
# The logger

Logging begins without a level.  The first call of any kind sets one, and from then on it is changed
only by setting it anew.  A message below the level in force is dropped.
-/

namespace CellShader

/-- The level in force, once there is one. -/
structure Logger where
  level? : Option Level := none
  deriving DecidableEq, Repr

/-- What can be asked of a logger. -/
inductive LogCall
  | start (level : Level)
  | setLevel (level : Level)
  | log (level : Level) (text ending : String)
  deriving DecidableEq, Repr

/-- The level that holds when none is given. -/
def defaultLevel : Level := .warning

/-- The text of a message: what is to be logged with its ending, less the line feeds at the end. -/
def messageText (text ending : String) : String :=
  String.ofList (Text.dropEndWhile (· = '\n') (text ++ ending).toList)

namespace Logger

/-- Whether logging has begun. -/
def isStarted (l : Logger) : Bool := l.level?.isSome

/-- Begin logging at a level, unless it has begun. -/
def start (l : Logger) (level : Level) : Logger := ⟨some (l.level?.getD level)⟩

/-- Log at a level from now on. -/
def setLevel (_ : Logger) (level : Level) : Logger := ⟨some level⟩

/-- The level in force. -/
def level (l : Logger) : Level := l.level?.getD defaultLevel

/-- Those of the records that pass the level in force. -/
def pass (l : Logger) (rs : List Record) : List Record :=
  rs.filter (fun r => l.level.passes r.level)

/-- The logger after a call, and what the call writes. -/
def call (l : Logger) : LogCall → Logger × List Record
  | .start level => (l.start level, [])
  | .setLevel level => (l.setLevel level, [])
  | .log level text ending =>
    let l := l.start defaultLevel
    (l, l.pass [⟨level, messageText text ending⟩])

theorem level_setLevel (l : Logger) (level : Level) : (l.setLevel level).level = level := rfl

theorem level_start (l : Logger) (level : Level) :
    (l.start level).level = l.level?.getD level := rfl

theorem start_eq_self {l : Logger} (h : l.isStarted = true) (level : Level) :
    l.start level = l := by
  obtain ⟨current, hl⟩ := Option.isSome_iff_exists.1 h
  cases l
  simp_all [start]

end Logger

end CellShader
