import CellShader.Text.Quoted

/-!
# Why a file could not be used

The faults of the file system, with their numbers and wording.  A path in which the character NUL
stands is refused before the system is asked about it, which is no fault of the file system.
-/

namespace CellShader

/-- Why a path does not lead to a file that can be read or written. -/
inductive FileFault
  | noSuchFile
  | notADirectory
  | isADirectory
  | nameTooLong
  | tooManyLinks
  deriving DecidableEq, Repr

/-- A fault with the path that was to be opened. -/
structure FileError where
  fault : FileFault
  path : String
  deriving DecidableEq, Repr

/-- The refusal of a path in which the character NUL stands. -/
inductive NulInPath
  | nulInPath
  deriving DecidableEq, Repr

instance : Subsingleton NulInPath := ⟨fun a b => by cases a; cases b; rfl⟩

/-- Why a path could not be opened: it was refused, or the system found a fault. -/
inductive OpenFault (ε : Type)
  | refused (refusal : NulInPath)
  | system (e : ε)
  deriving DecidableEq, Repr

namespace FileFault

/-- The number of a fault. -/
def code : FileFault → Nat
  | noSuchFile => 2
  | notADirectory => 20
  | isADirectory => 21
  | nameTooLong => 36
  | tooManyLinks => 40

/-- What a fault is called. -/
def text : FileFault → String
  | noSuchFile => "No such file or directory"
  | notADirectory => "Not a directory"
  | isADirectory => "Is a directory"
  | nameTooLong => "File name too long"
  | tooManyLinks => "Too many levels of symbolic links"

end FileFault

/-- The message for a fault and its path. -/
def FileError.message (e : FileError) : String :=
  "[Errno " ++ toString e.fault.code ++ "] " ++ e.fault.text ++ ": " ++ Text.quoted e.path

/-- The message for a path that was refused. -/
def NulInPath.message : NulInPath → String
  | nulInPath => "embedded null byte"

/-- The same with the path that was to be opened. -/
def OpenFault.withPath (path : String) : OpenFault FileFault → OpenFault FileError
  | refused refusal => .refused refusal
  | system fault => .system ⟨fault, path⟩

end CellShader
