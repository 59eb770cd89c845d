import CellShader.Text.Blank
import CellShader.Text.Cut

/-!
# Paths

Paths are texts with slashes between their pieces.  They are joined and normalised by their spelling
alone, without regard to what lies at the places they name.
-/

namespace CellShader.Path

/-- The pieces between the slashes of a path.  A path that begins with a slash has an empty first
piece, and one that ends with a slash an empty last one. -/
def pieces (path : String) : List String := (Text.cut '/' path.toList).map String.ofList

/-- Whether a path begins with a slash, and so does not depend on where one stands. -/
def isAbsolute (path : String) : Bool := path.toList.head? == some '/'

/-- Whether the character NUL stands in a path.  The system cannot be asked about such a path. -/
def holdsNul (path : String) : Bool := path.toList.contains '\x00'

/-- `path` as seen from `base`. -/
def join (base path : String) : String :=
  if isAbsolute path then path
  else if base.toList = [] ∨ base.toList.getLast? = some '/' then base ++ path
  else base ++ "/" ++ path

/-- Follow one piece by its spelling, the names so far being held with the last one first.  At the
root a step up stays where it is, and without a root it is kept when there is no name to go back
over. -/
def descend (absolute : Bool) (names : List String) (piece : String) : List String :=
  if piece = "" ∨ piece = "." then names
  else if piece = ".." then
    match names with
    | [] => if absolute then [] else [".."]
    | name :: up => if name = ".." then ".." :: names else up
  else piece :: names

/-- The slashes that a normalised path begins with.  Two, and no more, are told apart from one. -/
def rootMark (path : String) : String :=
  match path.toList with
  | '/' :: '/' :: '/' :: _ => "/"
  | '/' :: '/' :: _ => "//"
  | '/' :: _ => "/"
  | _ => ""

/-- The names left of a path when it is followed by its spelling. -/
def names (path : String) : List String :=
  ((pieces path).foldl (descend (isAbsolute path)) []).reverse

/-- A path without needless pieces: no empty ones, no single dots, and no double dots after a
name. -/
def normalise (path : String) : String :=
  let spelled := rootMark path ++ "/".intercalate (names path)
  if spelled = "" then "." else spelled

/-- The last piece of a path. -/
def lastPiece (path : String) : List Char := ((Text.cut '/' path.toList).getLast?).getD []

/-- What follows the last dot in the last piece of a path, when something other than dots comes
before that dot. -/
def extension (path : String) : String :=
  match (lastPiece path).dropWhile (· = '.') with
  | [] => ""
  | stem => if '.' ∈ stem then String.ofList ((Text.cut '.' stem).getLast?.getD []) else ""

end CellShader.Path
