import CellShader.Text.Blank

/-!
# Settings

What the assembly of shaders depends on besides the files: the directory that templates are read
from, whether each assembled shader is written next to its template, and the token that a rule is
put in place of.  Settings can be taken from the environment.
-/

namespace CellShader

/-- The variables of an environment with their values. -/
abbrev Environment := List (String × String)

/-- The directory of the templates that come with the program. -/
def packagedRoot : String := "/usr/share/cellshader/assets"

/-- The token that a rule is put in place of, unless the settings say otherwise. -/
def defaultPlaceholder : String := "\x7bPLACEHOLDER\x7d"

/-- The settings of the assembly. -/
structure Config where
  assetRoot : String := packagedRoot
  debugShader : Bool := false
  placeholder : String := defaultPlaceholder
  deriving DecidableEq, Repr

/-- The variable that turns the debug copies on. -/
def debugVariable : String := "DEBUG_SHADER"

/-- The variable that names the directory of the templates. -/
def assetRootVariable : String := "LIFEDISPATCH_ASSET_ROOT"

/-- The spellings that turn a flag off. -/
def offSpellings : List String := ["", "0", "false", "no", "off"]

/-- Whether a value turns a flag on.  A missing one does not, nor does one that spells being off, be
it in either case and with white space around it. -/
def isFlagOn (value? : Option String) : Bool :=
  match value? with
  | none => false
  | some value => !offSpellings.contains (String.ofList ((Text.trim value.toList).map Char.toLower))

namespace Config

/-- The settings in an environment; a directory that is given counts for more than the one there. -/
def ofEnvironment (env : Environment) (assetRoot? : Option String) : Config where
  assetRoot := (assetRoot?.or (env.lookup assetRootVariable)).getD packagedRoot
  debugShader := isFlagOn (env.lookup debugVariable)

end Config

end CellShader
