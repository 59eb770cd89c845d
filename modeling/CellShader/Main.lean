import CellShader.CommandLine.Run

/-!
# The program

The program is run on a tree that holds what lies on the disk, taken in as far as the run asks for
it. What the run changes in the tree is then written to the disk, and what it shows is printed.
-/

namespace CellShader

/-- What lies at a path on the disk.  The target of a link is where it really leads. -/
def entryOnDisk (path : String) : IO (Option Entry) := do
  let file := (← IO.currentDir) / path
  try
    match (← file.symlinkMetadata).type with
    | .dir => return some .directory
    | .symlink => return some (.link (← IO.FS.realPath file).toString)
    | _ => return some (.file (← IO.FS.readBinFile file).toList)
  catch _ => return none

/-- Take into the tree what lies on the way along pieces from a place. -/
partial def takeInFrom (t : FileTree) (place : Place) : List String → IO FileTree
  | [] => return t
  | piece :: rest => do
    let next := Place.along place [piece]
    match ← entryOnDisk next.path with
    | none => takeInFrom t next rest
    | some (.link target) =>
      let t := t.insert next (.link target)
      if Path.names target = next then return t
      takeInFrom t [] (Path.pieces target ++ rest)
    | some entry =>
      let t := if (t.find? next).isSome then t else t.insert next entry
      takeInFrom t next rest

/-- Take into the tree what lies on the way along a path. -/
def takeIn (t : FileTree) (path : String) : IO FileTree :=
  takeInFrom t (FileTree.start t.here path) (Path.pieces path)

/-- The paths that the assembly looked at. -/
def pathsAskedFor (root : String) (events : List Event) : List String :=
  events.filterMap (fun
    | .testing name => some (Path.join root name)
    | .wroteCopy path => some path
    | .copyUnwritable path => some path
    | _ => none)

/-- Run the program, and again with more of the disk taken in, until it asks for nothing new. -/
partial def runOnDisk (args : List String) (env : Environment) (root : String) (known : List String)
    (t : FileTree) : IO (FileTree × RunResult) := do
  let result := runProgram args env Registry.builtin t
  let new := (pathsAskedFor root result.events).filter (!known.contains ·)
  if new.isEmpty then return (t, result)
  runOnDisk args env root (known ++ new) (← new.foldlM takeIn t)

/-- Write to the disk the files in which a tree differs from an earlier one. -/
def writeChanges (before after : FileTree) : IO Unit :=
  after.entries.forM (fun (place, entry) =>
    match entry with
    | .file bytes =>
      if before.find? place = some entry then return ()
      else IO.FS.writeBinFile place.path ⟨bytes.toArray⟩
    | _ => return ())

/-- The variables that the program looks at, with their values. -/
def environmentVariables : IO Environment :=
  [debugVariable, assetRootVariable].filterMapM (fun name =>
    return (← IO.getEnv name).map (name, ·))

end CellShader

open CellShader in
def main (args : List String) : IO UInt32 := do
  let env ← environmentVariables
  let root := match Arguments.parse args with
    | .ok given => (given.invocation.config env).assetRoot
    | .error _ => packagedRoot
  let here := Path.names (← IO.currentDir).toString
  let empty : FileTree := ⟨here, []⟩
  let start ← takeIn (empty.makeDirectories here).withPackaged root
  let (before, result) ← runOnDisk args env root [] start
  writeChanges before result.tree
  IO.print (String.ofList result.shown)
  IO.eprint (String.ofList result.logged)
  if let some failure := result.escaped? then IO.eprintln failure.message
  return result.exitCode.toUInt32
