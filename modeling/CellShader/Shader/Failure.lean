import CellShader.Files.Fault
import CellShader.Recipe.Fault
import CellShader.Shader.Directive
import CellShader.Text.Utf8

/-!
# Why no shader was assembled

Each way in which the assembly can fail, with the message for it.  Most of them are the assembly's
own; besides, a path may be refused because the character NUL stands in it, a file may hold bytes
that are no text, and what is handed in as a rule may be none.
-/

namespace CellShader

/-- What went wrong in the assembly. -/
inductive AssemblyError
  | missingTemplate (path : String) (cause? : Option FileError)
  | missingImport (importer target path : String) (cause? : Option FileError)
  | duplicatePath (paths : DuplicatePath) (file? : Option String)
  | importCycle (chain : List String)
  | placeholderCount (placeholder : String) (count : Nat) (file? : Option String)
  | unwritableCopy (path : String) (cause : FileError)
  deriving DecidableEq, Repr

/-- Why no shader was assembled. -/
inductive Failure
  | assembly (e : AssemblyError)
  | refused (refusal : NulInPath)
  | undecodable (fault : Text.Utf8Fault)
  | notARule (fault : BuildFault)

/-- The files of a cycle with arrows between them. -/
def chainText (chain : List String) : String := " -> ".intercalate chain

/-- Where a message says something happened, if it is known. -/
def inFile (file? : Option String) : String :=
  match file? with
  | none => ""
  | some file => " in " ++ file

namespace AssemblyError

/-- The message for an error. -/
def message : AssemblyError → String
  | missingTemplate path _ => "Failed to read shader file: " ++ path
  | missingImport importer target path _ =>
    "Failed to read import file: " ++ target ++ " (imported by " ++ importer ++ ", looked in " ++
      path ++ ")"
  | duplicatePath paths file? =>
    "Import path declared twice" ++ inFile file? ++ ": '" ++ paths.first ++ "' and '" ++
      paths.second ++ "'"
  | importCycle chain => "Import cycle detected: " ++ chainText chain
  | placeholderCount placeholder count file? =>
    "Expected exactly one '" ++ placeholder ++ "'" ++ inFile file? ++ ", found " ++ toString count
  | unwritableCopy path _ => "Failed to write shader file: " ++ path

/-- The fault of the file system behind an error. -/
def cause? : AssemblyError → Option FileError
  | missingTemplate _ cause? => cause?
  | missingImport _ _ _ cause? => cause?
  | unwritableCopy _ cause => some cause
  | _ => none

end AssemblyError

/-- Two lower-case hexadecimal digits for a byte. -/
def byteText (b : UInt8) : String :=
  String.ofList [Nat.digitChar (b.toNat / 16), Nat.digitChar (b.toNat % 16)]

/-- The message for bytes that are no text. -/
def Text.Utf8Fault.message (f : Text.Utf8Fault) : String :=
  let place :=
    if f.count = 1 then "byte 0x" ++ byteText f.lead ++ " in position " ++ toString f.position
    else
      "bytes in position " ++ toString f.position ++ "-" ++ toString (f.position + f.count - 1)
  "'utf-8' codec can't decode " ++ place ++ ": " ++ f.reason.message

namespace Failure

/-- The message for a failure. -/
def message : Failure → String
  | assembly e => e.message
  | refused refusal => refusal.message
  | undecodable fault => fault.message
  | notARule fault => fault.message

end Failure

end CellShader
