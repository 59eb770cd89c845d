import CellShader.Recipe.Build
import CellShader.Shader.Config
import CellShader.Shader.Expansion
import CellShader.Shader.Source
import CellShader.Text.Occurrence

/-!
# Assembly of shaders

A shader is assembled from a template by expanding its imports and putting the code of a rule in
place of the placeholder.  On demand a copy of it is written next to the template.  The result can
be handed to whatever makes a module of it.
-/

namespace CellShader

namespace Config

/-- What the assembly sees of a tree of files. -/
def sources (c : Config) (t : FileTree) : Sources := .ofTree t c.assetRoot

/-- The path of a file in the asset root. -/
def assetPath (c : Config) (name : String) : String := Path.join c.assetRoot name

/-- Whether a name leads to a place inside the asset root. -/
def isInside (c : Config) (t : FileTree) (name : String) : Except NulInPath Bool :=
  (c.sources t).isInside name

/-- The extension of the copy of a template. -/
def copyExtension (template : String) : String :=
  let extension := Path.extension template
  if extension = "" then "wgsl" else extension

/-- The path of the copy of what a template is assembled to. -/
def debugPath (c : Config) (template : String) : String :=
  c.assetPath (template ++ ".debug." ++ copyExtension template)

/-- The text of a template with all imports expanded.  The names imported anywhere in the tree bound
how deep files can be expanded inside one another. -/
def resolve (c : Config) (t : FileTree) (template : String) : Told Failure (List Char) :=
  (c.sources t).resolve (t.allImportedNames.length + 1) template

/-- The text with the code of a rule in place of the placeholder, which has to stand in it once. -/
def splice (c : Config) (text : List Char) (rule : Value) (file? : Option String) :
    Told Failure (List Char) :=
  let placeholder := c.placeholder.toList
  let count := Text.count placeholder text
  if count = 1 then
    match rule.asRule with
    | .ok r => pure (Text.replace placeholder r.code text)
    | .error fault => .fail (.notARule fault)
  else
    .failWith (.placeholderMiscounted c.placeholder file? count)
      (.assembly (.placeholderCount c.placeholder count file?))

/-- The text of a template with all imports expanded and a rule in its place. -/
def resolveWithRule (c : Config) (t : FileTree) (template : String) (rule : Value) :
    Told Failure (List Char) := do
  let text ← c.resolve t template
  c.splice text rule (some template)

/-- The text of a template with all imports expanded and a rule, if there is one, in its place. -/
def compose (c : Config) (t : FileTree) (template : String) (rule : Value) :
    Told Failure (List Char) :=
  match rule with
  | .nothing => do
    let text ← c.resolve t template
    if Text.occurs c.placeholder.toList text then
      .tell (.placeholderLeft template c.placeholder)
    return text
  | rule => c.resolveWithRule t template rule

/-- Write the copy of a text that a template was assembled to, and give its path. -/
def writeCopy (c : Config) (t : FileTree) (template : String) (text : List Char) :
    Told Failure String × FileTree :=
  let path := c.debugPath template
  match t.write path (Text.encode text) with
  | .ok t' => (⟨[.wroteCopy path], .ok path⟩, t')
  | .error (.system e) => (.failWith (.copyUnwritable path) (.assembly (.unwritableCopy path e)), t)
  | .error (.refused refusal) => (.fail (.refused refusal), t)

/-- Write the copy of a text if the settings ask for one. -/
def keepCopy (c : Config) (t : FileTree) (template : String) (text : List Char) :
    Told Failure Unit × FileTree :=
  if c.debugShader then
    let (written, t') := c.writeCopy t template text
    (written >>= fun _ => pure (), t')
  else (pure (), t)

/-- Assemble a shader. -/
def assemble (c : Config) (t : FileTree) (template : String) (rule : Value)
    (label? : Option String) : Told Failure ShaderSource × FileTree :=
  let composed := c.compose t template rule
  match composed.outcome with
  | .error e => (⟨composed.events, .error e⟩, t)
  | .ok text =>
    let (kept, t') := c.keepCopy t template text
    (composed >>= fun _ => kept >>= fun _ => pure ⟨template, text, label?⟩, t')

end Config

/-- Why no module was made: no shader was assembled, or making a module of it failed. -/
inductive LoadFailure (ε : Type)
  | assembly (f : Failure)
  | factory (e : ε)

/-- What came of loading a shader: the module, what is told of it, the files and the state of what
makes the modules. -/
structure Loading (σ ε α : Type) where
  events : List Event
  outcome : Except (LoadFailure ε) α
  tree : FileTree
  state : σ

/-- Assemble a shader and hand its text with the label to `makeModule`, which may change a state. -/
def Config.load {σ ε α : Type} (c : Config) (t : FileTree)
    (makeModule : List Char → Option String → σ → Except ε α × σ) (state : σ) (template : String)
    (rule : Value) (label? : Option String) : Loading σ ε α :=
  let (assembled, t') := c.assemble t template rule label?
  match assembled.outcome with
  | .error f => ⟨assembled.events, .error (.assembly f), t', state⟩
  | .ok source =>
    let (made, state') := makeModule source.text label? state
    ⟨assembled.events, made.mapError .factory, t', state'⟩

end CellShader
