import CellShader.Files.Path
import CellShader.Log.Logger
import CellShader.Shader.Failure

/-!
# What happens during the assembly

The assembly tells what it does, step by step.  Most steps are worth a record in the log; the test
whether a file lies in the right place is not.
-/

namespace CellShader

/-- A step of the assembly. -/
inductive Event
  | testing (name : String)
  | reading (root name : String)
  | expanding (target file : String)
  | wroteCopy (path : String)
  | placeholderLeft (template placeholder : String)
  | templateOutside (template root : String)
  | templateUnreadable (template : String)
  | importOutside (target file root : String)
  | importUnreadable (target : String) (cause : FileError)
  | cycleFound (chain : List String)
  | pathDeclaredTwice (paths : DuplicatePath) (file? : Option String)
  | placeholderMiscounted (placeholder : String) (file? : Option String) (count : Nat)
  | copyUnwritable (path : String)
  deriving DecidableEq, Repr

namespace Event

/-- The name of a file in a log message that has to name one. -/
def fileName (file? : Option String) : String :=
  match file? with
  | none => "<string>"
  | some file => if file = "" then "<string>" else file

/-- The level of a step and what the log says of it. -/
def report? : Event → Option (Level × String)
  | testing _ => none
  | reading root name => some (.verbose, "Reading shader file " ++ Path.join root name)
  | expanding target file => some (.info, "Expanding import '" ++ target ++ "' in " ++ file)
  | wroteCopy path => some (.info, "Wrote resolved shader to " ++ path)
  | placeholderLeft template placeholder =>
    some (.warning, template ++ " still contains '" ++ placeholder ++ "' but no rule was given")
  | templateOutside template root =>
    some (.error, "Shader file " ++ template ++ " is outside the asset root " ++ root)
  | templateUnreadable template => some (.error, "Failed to read shader file: " ++ template)
  | importOutside target file root =>
    some (.error, "Import '" ++ target ++ "' in " ++ file ++ " is outside the asset root " ++ root)
  | importUnreadable target cause =>
    some (.error, "Failed to read import file: " ++ target ++ " " ++ cause.message)
  | cycleFound chain => some (.error, "Import cycle detected: " ++ chainText chain)
  | pathDeclaredTwice paths file? =>
    some (.error, fileName file? ++ " declares its import path twice: '" ++ paths.first ++
      "' and '" ++ paths.second ++ "'")
  | placeholderMiscounted placeholder file? count =>
    some (.error, "Expected exactly one '" ++ placeholder ++ "' in " ++ file?.getD "None" ++
      ", found " ++ toString count)
  | copyUnwritable path => some (.error, "Failed to write shader file: " ++ path)

/-- The record of a step. -/
def record? (e : Event) : Option Record :=
  e.report?.map (fun r => ⟨r.1, messageText r.2 "\n"⟩)

end Event

end CellShader
