import CellShader.CommandLine.Switch
import CellShader.Files.Opening
import CellShader.Recipe.Fault
import CellShader.Text.Cut
import CellShader.Text.Resemblance

/-!
# The arguments of the command line

Arguments are switches, their values, and operands; switches may stand anywhere up to a double
dash.  A value stands behind its switch, or in the same argument after an equals sign.  What has
been given is then read as a request.
-/

namespace CellShader

/-- What was given on the command line: the switches with their values in order, and the operands.
-/
structure Arguments where
  switches : List (Switch × Option String) := []
  operands : List String := []
  deriving DecidableEq, Repr

/-- Why what was given is no request. -/
inductive UsageFault
  | unknownSwitch (spelling : String) (similar : List String)
  | missingValue (spelling : String)
  | unwantedValue (spelling : String)
  | rootIsAFile (path : String)
  | rootRefused (refusal : NulInPath)
  | extraOperands (operands : List String)
  | badRule (fault : BuildFault)

/-- What is to be done with a template. -/
structure Invocation where
  template : String
  rule? : Option String
  assetRoot? : Option String
  debug : Bool
  lineNumbers : Bool
  logInfo : Bool
  verbose : Bool
  listRules : Bool
  deriving DecidableEq, Repr

/-- What the program is asked for. -/
inductive Request
  | showHelp
  | showVersion
  | invoke (i : Invocation)
  deriving DecidableEq, Repr

/-- The template that is taken when none is given. -/
def defaultTemplate : String := "game_of_life.wgsl"

namespace Arguments

/-- Put a switch in front. -/
def addSwitch (s : Switch) (value? : Option String) (a : Arguments) : Arguments :=
  { a with switches := (s, value?) :: a.switches }

/-- Put an operand in front. -/
def addOperand (operand : String) (a : Arguments) : Arguments :=
  { a with operands := operand :: a.operands }

/-- An argument at its first equals sign: what stands before it, and what behind if there is one. -/
def splitValue (arg : String) : String × Option String :=
  match Text.cut '=' arg.toList with
  | [] | [_] => (arg, none)
  | spelling :: value => (String.ofList spelling, some (String.ofList (Text.glue '=' value)))

/-- Whether an argument is meant as a switch: it begins with a dash and goes on. -/
def isSwitch (arg : String) : Bool :=
  match arg.toList with
  | '-' :: _ :: _ => true
  | _ => false

/-- The fault of an argument that is meant as a switch and is none.  One with a single dash is named
by its first letter. -/
def unknown (arg : String) : UsageFault :=
  match arg.toList with
  | '-' :: '-' :: _ =>
    let spelling := (splitValue arg).1
    .unknownSwitch spelling (Text.closeMatches spelling (Switch.bySpelling.map (·.1)))
  | cs => .unknownSwitch (String.ofList (cs.take 2)) []

/-- Read arguments.  The value for a switch is the next argument unless it came with the switch. -/
def parse : List String → Except UsageFault Arguments
  | [] => .ok {}
  | "--" :: rest => .ok { operands := rest }
  | arg :: rest =>
    if isSwitch arg then
      let (spelling, value?) := splitValue arg
      match Switch.ofSpelling? spelling with
      | none => .error (unknown arg)
      | some s =>
        match s.takesValue, value? with
        | true, some value => (parse rest).map (addSwitch s (some value))
        | true, none =>
          match rest with
          | [] => .error (.missingValue spelling)
          | value :: rest => (parse rest).map (addSwitch s (some value))
        | false, some _ => .error (.unwantedValue spelling)
        | false, none => (parse rest).map (addSwitch s none)
    else (parse rest).map (addOperand arg)

/-- Whether a switch was given. -/
def has (a : Arguments) (s : Switch) : Bool := a.switches.any (fun x => x.1 == s)

/-- The value of a switch, the last one if it was given several times. -/
def value? (a : Arguments) (s : Switch) : Option String := (a.switches.reverse.lookup s).join

/-- Whether what was given asks for a page to be shown; the first such switch counts. -/
def page? (a : Arguments) : Option Request :=
  a.switches.findSome? (fun x =>
    match x.1 with
    | .version => some .showVersion
    | .help => some .showHelp
    | _ => none)

/-- What is to be done with the given template, or with the usual one. -/
def invocation (a : Arguments) : Invocation where
  template := a.operands.head?.getD defaultTemplate
  rule? := a.value? .rule
  assetRoot? := a.value? .assetRoot
  debug := a.has .debug
  lineNumbers := a.has .lineNumbers
  logInfo := a.has .logInfo
  verbose := a.has .verbose
  listRules := a.has .listRules

/-- Check the asset root if one is given.  A path that leads to a file is none. -/
def checkRoot (a : Arguments) (t : FileTree) : Except UsageFault Unit :=
  match a.value? .assetRoot with
  | none => .ok ()
  | some root =>
    match t.isFile root with
    | .error refusal => .error (.rootRefused refusal)
    | .ok true => .error (.rootIsAFile root)
    | .ok false => .ok ()

/-- The request in what was given.  Pages are shown first, and there is no more than one template.
-/
def request (a : Arguments) (t : FileTree) : Except UsageFault Request :=
  match a.page? with
  | some r => .ok r
  | none =>
    match a.checkRoot t with
    | .error fault => .error fault
    | .ok () =>
      match a.operands.tail with
      | [] => .ok (.invoke a.invocation)
      | extra => .error (.extraOperands extra)

end Arguments

namespace UsageFault

/-- What a message suggests instead of an unknown switch. -/
def suggestion : List String → String
  | [] => ""
  | [s] => " Did you mean " ++ s ++ "?"
  | similar =>
    " (Possible options: " ++ ", ".intercalate (similar.mergeSort (fun a b => a ≤ b)) ++ ")"

/-- The spellings of a switch as messages about its value show them. -/
def shownSpellings (s : Switch) : String :=
  " / ".intercalate (s.spellings.map (fun x => "'" ++ x ++ "'"))

/-- The message for a value that a switch does not allow. -/
def invalidValue (s : Switch) (message : String) : String :=
  "Invalid value for " ++ shownSpellings s ++ ": " ++ message

/-- The message for a fault. -/
def message : UsageFault → String
  | unknownSwitch spelling similar => "No such option: " ++ spelling ++ suggestion similar
  | missingValue spelling => "Option " ++ Text.quoted spelling ++ " requires an argument."
  | unwantedValue spelling => "Option " ++ Text.quoted spelling ++ " does not take a value."
  | rootIsAFile path => invalidValue .assetRoot ("Directory " ++ Text.quoted path ++ " is a file.")
  | rootRefused refusal => refusal.message
  | extraOperands [operand] => "Got unexpected extra argument (" ++ operand ++ ")"
  | extraOperands operands => "Got unexpected extra arguments (" ++ " ".intercalate operands ++ ")"
  | badRule fault => invalidValue .rule fault.message

/-- Whether the message comes after a reminder of how the program is called.  One about a value that
is missing or not wanted stands alone. -/
def showsUsage : UsageFault → Bool
  | missingValue _ | unwantedValue _ => false
  | _ => true

end UsageFault

end CellShader
