import CellShader.Files.Fault
import CellShader.Files.Path
import CellShader.Files.Tree

/-!
# Opening files

A path is followed piece by piece.  What a piece is looked up in has to be a directory, a link is
replaced by its target when it is met, and a path that leads through too many links leads nowhere.
A path in which the character NUL stands is not followed at all.
-/

namespace CellShader

/-- How many links may be followed on one path. -/
def maxLinks : Nat := 40

/-- How many bytes a name may take. -/
def maxNameBytes : Nat := 255

/-- How many bytes a path may take. -/
def maxPathBytes : Nat := 4095

namespace FileTree

/-- Where to start following a path that is met at a place. -/
def start (place : Place) (path : String) : Place := if Path.isAbsolute path then [] else place

/-- Whether nothing but slashes is left of a path behind a name. -/
def areSlashes (left : List String) : Bool := !left.isEmpty && left.all (· == "")

/-- Follow pieces from a place.  At a link, `goOn` follows the pieces of its target and the
remaining ones.  If the file is to be made, slashes must not end the path.  No entry has a name in
which NUL stands. -/
def followWith (t : FileTree) (making : Bool)
    (goOn : Place → List String → Except FileFault Place) :
    Place → List String → Except FileFault Place
  | place, [] => .ok place
  | place, piece :: rest =>
    match t.find? place with
    | none => .error .noSuchFile
    | some (.file _) | some (.link _) => .error .notADirectory
    | some .directory =>
      if piece = "" ∨ piece = "." then t.followWith making goOn place rest
      else if piece = ".." then t.followWith making goOn place.dropLast rest
      else if Path.holdsNul piece then .error .noSuchFile
      else if making && areSlashes rest then .error .isADirectory
      else if maxNameBytes < Text.byteCount piece then .error .nameTooLong
      else
        match t.find? (place ++ [piece]) with
        | some (.link target) => goOn (start place target) (Path.pieces target ++ rest)
        | _ => t.followWith making goOn (place ++ [piece]) rest

/-- Follow pieces from a place, through no more than the given number of links. -/
def follow (t : FileTree) (making : Bool) : Nat → Place → List String → Except FileFault Place
  | 0 => t.followWith making (fun _ _ => .error .tooManyLinks)
  | links + 1 => t.followWith making (t.follow making links)

/-- The place that a path leads to.  All on the way there is a directory, and no link is at the
place itself; there may be nothing at it. -/
def locate (t : FileTree) (making : Bool) (path : String) : Except (OpenFault FileFault) Place :=
  if Path.holdsNul path then .error (.refused .nulInPath)
  else if path = "" then .error (.system .noSuchFile)
  else if maxPathBytes < Text.byteCount path then .error (.system .nameTooLong)
  else
    match t.follow making maxLinks (start t.here path) (Path.pieces path) with
    | .ok place => .ok place
    | .error fault => .error (.system fault)

theorem locate_eq_ok_iff {t : FileTree} {making : Bool} {path : String} {place : Place} :
    t.locate making path = .ok place ↔
      Path.holdsNul path = false ∧ path ≠ "" ∧ Text.byteCount path ≤ maxPathBytes ∧
        t.follow making maxLinks (start t.here path) (Path.pieces path) = .ok place := by
  unfold locate
  by_cases hnul : Path.holdsNul path = true
  · simp [hnul]
  rw [if_neg hnul]
  by_cases hempty : path = ""
  · simp [hempty]
  rw [if_neg hempty]
  by_cases hbytes : maxPathBytes < Text.byteCount path
  · simp [hbytes, Nat.not_le_of_gt hbytes]
  rw [if_neg hbytes]
  cases t.follow making maxLinks (start t.here path) (Path.pieces path) <;>
    simp [hnul, hempty, Nat.le_of_not_lt hbytes]

/-- A path is refused just when NUL stands in it. -/
theorem locate_eq_refused_iff {t : FileTree} {making : Bool} {path : String}
    {refusal : NulInPath} :
    t.locate making path = .error (.refused refusal) ↔ Path.holdsNul path = true := by
  unfold locate
  by_cases hnul : Path.holdsNul path = true
  · simp [hnul, Subsingleton.elim NulInPath.nulInPath refusal]
  rw [if_neg hnul]
  split
  · simp [hnul]
  split
  · simp [hnul]
  cases t.follow making maxLinks (start t.here path) (Path.pieces path) <;>
    simp [hnul]

/-- The bytes of the file that a path leads to. -/
def read (t : FileTree) (path : String) : Except (OpenFault FileError) (List UInt8) :=
  match t.locate false path with
  | .error fault => .error (fault.withPath path)
  | .ok place =>
    match t.find? place with
    | some (.file bytes) => .ok bytes
    | some .directory => .error (.system ⟨.isADirectory, path⟩)
    | some (.link _) => .error (.system ⟨.tooManyLinks, path⟩)
    | none => .error (.system ⟨.noSuchFile, path⟩)

theorem read_eq_ok_iff {t : FileTree} {path : String} {bytes : List UInt8} :
    t.read path = .ok bytes ↔
      ∃ place, t.locate false path = .ok place ∧ t.find? place = some (.file bytes) := by
  unfold read
  cases t.locate false path with
  | error fault => simp
  | ok place =>
    cases hentry : t.find? place with
    | none => simp [hentry]
    | some entry => cases entry <;> simp [hentry]

theorem read_eq_refused_iff {t : FileTree} {path : String} {refusal : NulInPath} :
    t.read path = .error (.refused refusal) ↔ Path.holdsNul path = true := by
  rw [← @locate_eq_refused_iff t false path refusal]
  unfold read
  cases t.locate false path with
  | error fault => cases fault <;> simp [OpenFault.withPath]
  | ok place =>
    cases hentry : t.find? place with
    | none => simp [hentry]
    | some entry => cases entry <;> simp [hentry]

/-- The tree with the given bytes in the file that a path leads to, which is made if it is missing.
-/
def write (t : FileTree) (path : String) (bytes : List UInt8) :
    Except (OpenFault FileError) FileTree :=
  match t.locate true path with
  | .error fault => .error (fault.withPath path)
  | .ok place =>
    match t.find? place with
    | some .directory => .error (.system ⟨.isADirectory, path⟩)
    | some (.link _) => .error (.system ⟨.tooManyLinks, path⟩)
    | some (.file _) | none => .ok (t.insert place (.file bytes))

theorem write_eq_refused_iff {t : FileTree} {path : String} {bytes : List UInt8}
    {refusal : NulInPath} :
    t.write path bytes = .error (.refused refusal) ↔ Path.holdsNul path = true := by
  rw [← @locate_eq_refused_iff t true path refusal]
  unfold write
  cases t.locate true path with
  | error fault => cases fault <;> simp [OpenFault.withPath]
  | ok place =>
    cases hentry : t.find? place with
    | none => simp [hentry]
    | some entry => cases entry <;> simp [hentry]

/-- What a path leads to, links followed. -/
def entryAt? (t : FileTree) (path : String) : Except NulInPath (Option Entry) :=
  match t.locate false path with
  | .ok place => .ok (t.find? place)
  | .error (.system _) => .ok none
  | .error (.refused refusal) => .error refusal

/-- Whether an entry is a file. -/
def isFileEntry : Option Entry → Bool
  | some (.file _) => true
  | _ => false

/-- Whether a path leads to a file. -/
def isFile (t : FileTree) (path : String) : Except NulInPath Bool :=
  (t.entryAt? path).map isFileEntry

/-- Whether a path leads to a directory. -/
def isDirectory (t : FileTree) (path : String) : Bool :=
  match t.entryAt? path with
  | .ok (some .directory) => true
  | _ => false

end FileTree

end CellShader
