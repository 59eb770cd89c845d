import CellShader.Files.RealPlace
import CellShader.Shader.Directive
import CellShader.Text.Line

/-!
# Sources of shader texts

The assembly sees files under normalised names.  It can ask whether a name lies inside the asset
root and what text is found under it, and nothing else.
-/

namespace CellShader

/-- Why no text could be read. -/
inductive ReadFault
  | refused (refusal : NulInPath)
  | file (e : FileError)
  | bytes (fault : Text.Utf8Fault)
  deriving DecidableEq, Repr

/-- What the assembly sees of the files. -/
structure Sources where
  root : String
  isInside : String → Except NulInPath Bool
  read : String → Except ReadFault (List Char)

/-- The text that bytes hold, each line of it ending in a line feed. -/
def textOfBytes (bytes : List UInt8) : Except Text.Utf8Fault (List Char) :=
  (Text.decode bytes).map Text.unifyNewlines

/-- The text of the file that a path leads to. -/
def FileTree.readText (t : FileTree) (path : String) : Except ReadFault (List Char) :=
  match t.read path with
  | .error (.refused refusal) => .error (.refused refusal)
  | .error (.system e) => .error (.file e)
  | .ok bytes =>
    match textOfBytes bytes with
    | .error fault => .error (.bytes fault)
    | .ok text => .ok text

/-- The name under which a target is looked for in a file with the given directives. -/
def Directives.nameOf (d : Directives) (target : String) : String :=
  Path.normalise (match d.importPath? with
    | some path => Path.join path target
    | none => target)

/-- The names of all that a text imports. -/
def importedNames (text : List Char) : List String :=
  match Directives.ofText text with
  | .ok d => d.targets.map d.nameOf
  | .error _ => []

namespace Sources

/-- The path of the file with a name. -/
def path (s : Sources) (name : String) : String := Path.join s.root name

/-- What the assembly sees of a tree of files under an asset root. -/
def ofTree (t : FileTree) (root : String) : Sources where
  root := root
  isInside name := t.isInside root (Path.join root name)
  read name := t.readText (Path.join root name)

end Sources

namespace FileTree

/-- The names that an entry imports. -/
def namesOfEntry : Entry → List String
  | .file bytes =>
    match textOfBytes bytes with
    | .ok text => importedNames text
    | .error _ => []
  | _ => []

/-- The names that are imported anywhere in the tree. -/
def allImportedNames (t : FileTree) : List String := t.entries.flatMap (fun x => namesOfEntry x.2)

end FileTree

end CellShader
