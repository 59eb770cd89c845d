import CellShader.Text.Line
import CellShader.Text.Blank

/-!
# Directives

A line of a shader file that begins with `#import` names a file whose text belongs in its place, and
one that begins with `#define_import_path` says where the files named are looked for.  White space
may stand before the hash sign, behind it, and has to stand behind the word; the rest of the line
without white space around it is what is named.
-/

namespace CellShader

/-- A line with a meaning for the assembly. -/
inductive Directive
  | importing (target : List Char)
  | importPath (path : List Char)
  deriving DecidableEq, Repr

/-- The directives of a file: what it imports, in order and with repetitions, and where its imports
are looked for. -/
structure Directives where
  imports : List String := []
  importPath? : Option String := none
  deriving DecidableEq, Repr

/-- A second import path in one file. -/
structure DuplicatePath where
  first : String
  second : String
  deriving DecidableEq, Repr

namespace Directive

/-- What a directive with the given word names, in the text behind the hash sign.  White space has
to follow the word, and one character more. -/
def named? (word : String) (cs : List Char) : Option (List Char) :=
  match Text.afterWord? word.toList cs with
  | some (c :: d :: rest) => if Text.isBlank c then some (Text.trim (d :: rest)) else none
  | _ => none

/-- The directive on a line. -/
def ofLine? (line : List Char) : Option Directive :=
  match line.dropWhile Text.isBlank with
  | '#' :: cs =>
    let cs := cs.dropWhile Text.isBlank
    match named? "import" cs with
    | some target => some (importing target)
    | none => (named? "define_import_path" cs).map importPath
  | _ => none

end Directive

namespace Directives

/-- The directives found so far and one more. -/
def add (d : Directives) : Directive → Except DuplicatePath Directives
  | .importing target => .ok { d with imports := d.imports ++ [String.ofList target] }
  | .importPath path =>
    match d.importPath? with
    | none => .ok { d with importPath? := some (String.ofList path) }
    | some first => .error ⟨first, String.ofList path⟩

/-- The directives of a text. -/
def ofText (cs : List Char) : Except DuplicatePath Directives :=
  ((Text.lines cs).filterMap Directive.ofLine?).foldlM add {}

/-- The items of a list, each where it first occurs. -/
def firstOccurrences : List String → List String
  | [] => []
  | s :: rest => s :: (firstOccurrences rest).filter (· != s)

/-- What is imported, without repetitions. -/
def targets (d : Directives) : List String := firstOccurrences d.imports

end Directives

end CellShader
