/-!
# The switches of the command line

Each switch has spellings, a word for the value that it takes if it takes one, and a purpose.
-/

namespace CellShader

/-- A switch of the command line. -/
inductive Switch
  | rule
  | assetRoot
  | debug
  | lineNumbers
  | logInfo
  | verbose
  | listRules
  | version
  | help
  deriving DecidableEq, Repr

namespace Switch

/-- All switches in the order in which they are explained. -/
def all : List Switch :=
  [rule, assetRoot, debug, lineNumbers, logInfo, verbose, listRules, version, help]

/-- The spellings of a switch. -/
def spellings : Switch → List String
  | rule => ["--rule"]
  | assetRoot => ["--asset_root", "--asset-root"]
  | debug => ["--debug"]
  | lineNumbers => ["--line_numbers", "--line-numbers"]
  | logInfo => ["--log_info"]
  | verbose => ["--verbose"]
  | listRules => ["--list_rules", "--list-rules"]
  | version => ["--version"]
  | help => ["--help"]

/-- What the value of a switch is called, if it takes one. -/
def valueName? : Switch → Option String
  | rule => some "TEXT"
  | assetRoot => some "DIRECTORY"
  | _ => none

/-- Whether a switch takes a value. -/
def takesValue (s : Switch) : Bool := s.valueName?.isSome

/-- What a switch is for. -/
def purpose : Switch → String
  | rule => "Ruleset name or B/S rulestring (e.g. B36/S23) to splice into the template."
  | assetRoot => "Directory templates are read from."
  | debug => "Write the resolved shader next to the template and print info logs."
  | lineNumbers => "Prefix every line of the output with its line number."
  | logInfo => "Will print info messages."
  | verbose => "Will print verbose messages."
  | listRules => "Print the known rulesets and exit."
  | version => "Show the version and exit."
  | help => "Show this message and exit."

/-- All spellings with the switches that they stand for. -/
def bySpelling : List (String × Switch) := all.flatMap (fun s => s.spellings.map (·, s))

/-- The switch with a spelling. -/
def ofSpelling? (spelling : String) : Option Switch := bySpelling.lookup spelling

end Switch

end CellShader
