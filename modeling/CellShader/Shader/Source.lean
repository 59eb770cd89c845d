import CellShader.Rule.Wgsl
import CellShader.Text.Line

/-!
# Shader sources

An assembled shader: its text, the template it was made from, and a label that is passed along.  It
can be shown with its lines numbered.
-/

namespace CellShader

/-- The text of a shader, with the template that it was made from. -/
structure ShaderSource where
  name : String
  text : List Char
  label? : Option String := none
  deriving DecidableEq, Repr

/-- Characters put to the right end of a column that is `width` wide. -/
def alignRight (width : Nat) (cs : List Char) : List Char :=
  List.replicate (width - cs.length) ' ' ++ cs

/-- The number in front of a row. -/
def rowNumber (n : Nat) : List Char := alignRight 4 (decimal n) ++ [':', ' ']

/-- Rows with their numbers, counted on from `n`, each with a line feed behind it. -/
def numberedRows : Nat → List (List Char) → List Char
  | _, [] => []
  | n, row :: rows => rowNumber n ++ row ++ '\n' :: numberedRows (n + 1) rows

namespace ShaderSource

/-- The text with its rows numbered from 1 on. -/
def numbered (s : ShaderSource) : List Char := numberedRows 1 (Text.rows s.text)

end ShaderSource

end CellShader
