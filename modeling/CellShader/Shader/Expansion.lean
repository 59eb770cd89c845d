import CellShader.Shader.Inlining
import CellShader.Shader.Sources
import CellShader.Shader.Told

/-!
# Expansion of imports

A file is expanded by putting, for each of its targets in turn, the expansion of the file that the
target names in place of the directives.  The files being expanded form a stack, on which no name
may come up twice; a file that has been expanded is kept, and not read again.
-/

namespace CellShader

/-- The expansions of the files that are done with, by name. -/
abbrev Expanded := List (String × List Char)

/-- An expansion with all the expansions that are known after it. -/
abbrev Expansion := Told Failure (List Char × Expanded)

/-- The directives of a text, which may be that of a file. -/
def scan (file? : Option String) (text : List Char) : Told Failure Directives :=
  match Directives.ofText text with
  | .ok d => pure d
  | .error paths =>
    .failWith (.pathDeclaredTwice paths file?) (.assembly (.duplicatePath paths file?))

namespace Sources

variable (s : Sources)

/-- The text of the file that a target names. -/
def readImport (file target name : String) : Told Failure (List Char) := do
  .tell (.reading s.root name)
  match s.read name with
  | .ok text => pure text
  | .error (.file e) =>
    .failWith (.importUnreadable target e)
      (.assembly (.missingImport file target (s.path name) (some e)))
  | .error (.refused refusal) => .fail (.refused refusal)
  | .error (.bytes fault) => .fail (.undecodable fault)

/-- The part of the stack from a name on it up to its top, and the name once more. -/
def cycleAt (stack : List String) (name : String) : List String :=
  stack.dropWhile (· != name) ++ [name]

/-- The expansion of the file that a target names, kept or made; `expandFile` expands a file that
was read, given the stack with this file on top. -/
def expandTarget (expandFile : List String → String → List Char → Expanded → Expansion)
    (file target name : String) (stack : List String) (known : Expanded) : Expansion :=
  match known.lookup name with
  | some contents => pure (contents, known)
  | none => do
    let text ← s.readImport file target name
    let (contents, known) ← expandFile (stack ++ [name]) name text known
    return (contents, (name, contents) :: known)

/-- Expand the targets of a file in its text. -/
def expandTargets (expandFile : List String → String → List Char → Expanded → Expansion)
    (file : String) (directives : Directives) (stack : List String) :
    List String → List Char → Expanded → Expansion
  | [], text, known => pure (text, known)
  | target :: targets, text, known => do
    let name := directives.nameOf target
    .tell (.testing name)
    match s.isInside name with
    | .error refusal => .fail (.refused refusal)
    | .ok false =>
      .failWith (.importOutside target file s.root)
        (.assembly (.missingImport file target (s.path name) none))
    | .ok true =>
      if name ∈ stack then
        .failWith (.cycleFound (cycleAt stack name))
          (.assembly (.importCycle (cycleAt stack name)))
      else do
        let (contents, known) ← s.expandTarget expandFile file target name stack known
        .tell (.expanding target file)
        expandTargets expandFile file directives stack targets
          (Inlining.replaceImport text target.toList contents) known

/-- Expand a file in its text, at most the given number of files inside one another.  The stack ends
with the file itself. -/
def expand : Nat → List String → String → List Char → Expanded → Expansion
  | 0, stack, _, _, _ => .failWith (.cycleFound stack) (.assembly (.importCycle stack))
  | depth + 1, stack, file, text, known => do
    let directives ← scan (some file) text
    s.expandTargets (expand depth) file directives stack directives.targets text known

/-- The text of a template with all imports expanded. -/
def resolve (depth : Nat) (template : String) : Told Failure (List Char) := do
  let name := Path.normalise template
  .tell (.testing name)
  match s.isInside name with
  | .error refusal => .fail (.refused refusal)
  | .ok false =>
    .failWith (.templateOutside template s.root) (.assembly (.missingTemplate (s.path name) none))
  | .ok true => do
    .tell (.reading s.root name)
    match s.read name with
    | .ok text => do
      let (contents, _) ← s.expand depth [name] name text []
      return contents
    | .error (.file e) =>
      .failWith (.templateUnreadable template)
        (.assembly (.missingTemplate (s.path name) (some e)))
    | .error (.refused refusal) => .fail (.refused refusal)
    | .error (.bytes fault) => .fail (.undecodable fault)

end Sources

end CellShader
