import CellShader.CommandLine.Arguments
import CellShader.CommandLine.Help
import CellShader.Packaged.Templates
import CellShader.Recipe.Registry
import CellShader.Shader.Assembly

/-!
# Running the program

The program reads its arguments, assembles a shader with the rule that is asked for, and shows it or
says what was wrong.  Control sequences that would change colours are left out of what is shown.
-/

namespace CellShader

/-- What a run of the program leaves: its exit code, what it showed and logged, what the assembly
did, the files, and the failure that it did not deal with if there was one. -/
structure RunResult where
  exitCode : Nat := 0
  shown : List Char := []
  logged : List Char := []
  events : List Event := []
  tree : FileTree
  escaped? : Option Failure := none

namespace Console

/-- Whether a character may stand inside a control sequence. -/
def isParameter (c : Char) : Bool := c.isDigit || c == ';' || c == '?'

/-- How long a control sequence at the front of a text is: the escape character, an opening bracket,
parameters and a letter. -/
def sequenceLength? : List Char → Option Nat
  | '\x1b' :: '[' :: cs =>
    match cs.dropWhile isParameter with
    | c :: _ => if c.isAlpha then some ((cs.takeWhile isParameter).length + 3) else none
    | [] => none
  | _ => none

/-- The text without control sequences, the next `skip` characters being part of the last one found.
-/
def plainFrom : Nat → List Char → List Char
  | _, [] => []
  | skip + 1, _ :: cs => plainFrom skip cs
  | 0, c :: cs =>
    match sequenceLength? (c :: cs) with
    | some n => plainFrom (n - 1) cs
    | none => c :: plainFrom 0 cs

/-- The text without control sequences. -/
def plain (cs : List Char) : List Char := plainFrom 0 cs

end Console

namespace UsageFault

/-- What is shown of a fault. -/
def page (f : UsageFault) : String :=
  (if f.showsUsage then
    usageLine ++ "Try '" ++ programName ++ " --help' for help.\n\n"
  else "") ++ "Error: " ++ f.message ++ "\n"

end UsageFault

namespace Invocation

/-- The level of the log. -/
def level (i : Invocation) : Level :=
  if i.verbose then .verbose else if i.logInfo || i.debug then .info else .warning

/-- The settings for the assembly. -/
def config (i : Invocation) (env : Environment) : Config :=
  let c := Config.ofEnvironment env i.assetRoot?
  { c with debugShader := i.debug || c.debugShader }

/-- The rule that is asked for, if one is. -/
def rule (i : Invocation) (r : Registry) : Except BuildFault Value :=
  match i.rule? with
  | none => .ok .nothing
  | some text => r.ruleNamed text

/-- What is shown of a shader. -/
def output (i : Invocation) (source : ShaderSource) : List Char :=
  if i.lineNumbers then source.numbered else source.text ++ ['\n']

end Invocation

/-- The result of a run that ends with a fault in what was given.  A root that is refused is not
dealt with. -/
def RunResult.ofFault (t : FileTree) : UsageFault → RunResult
  | .rootRefused refusal => { exitCode := 1, tree := t, escaped? := some (.refused refusal) }
  | fault => { exitCode := 2, logged := Console.plain fault.page.toList, tree := t }

/-- The lines of those records that pass a level. -/
def logLines (level : Level) (rs : List Record) : List Char :=
  (Logger.pass ⟨some level⟩ rs).flatMap (fun r => r.line.toList)

namespace Invocation

/-- Assemble the shader and show it. -/
def assemble (i : Invocation) (c : Config) (rule : Value) (t : FileTree) : RunResult :=
  let (told, t') := c.assemble t i.template rule none
  let log := logLines i.level told.records
  match told.outcome with
  | .ok source =>
    { shown := Console.plain (i.output source), logged := log, events := told.events, tree := t' }
  | .error (.assembly e) =>
    { exitCode := 1
      logged := log ++ Console.plain ("Error: " ++ e.message ++ "\n").toList
      events := told.events
      tree := t' }
  | .error f =>
    { exitCode := 1, logged := log, events := told.events, tree := t', escaped? := some f }

/-- Do what an invocation asks for. -/
def run (i : Invocation) (env : Environment) (r : Registry) (t : FileTree) : RunResult :=
  if i.listRules then
    { shown := Console.plain (r.names.flatMap (fun name => name.toList ++ ['\n'])), tree := t }
  else
    match i.rule r with
    | .error fault => .ofFault t (.badRule fault)
    | .ok rule => i.assemble (i.config env) rule t

end Invocation

/-- Run the program. -/
def runProgram (args : List String) (env : Environment) (r : Registry) (t : FileTree) : RunResult :=
  match Arguments.parse args >>= fun a => a.request t with
  | .error fault => .ofFault t fault
  | .ok .showHelp => { shown := helpPage.toList, tree := t }
  | .ok .showVersion => { shown := versionPage.toList, tree := t }
  | .ok (.invoke i) => i.run env r t

end CellShader
