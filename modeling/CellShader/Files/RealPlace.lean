import CellShader.Files.Opening

/-!
# Real places

The real place of a path is where it leads when all links are followed, whether or not anything is
there: what is missing, or is no directory, is gone through by its spelling.  On the way the path is
kept as a trail, which begins at the root or at the directory that relative paths start from.  A
link that is met under the same trail while it is being followed itself cannot be followed; its own
place then stands for it, and what is left of the path is put behind by its spelling.  A link that
has been followed is not followed again.  At a name in which the character NUL stands the search is
given up.
-/

namespace CellShader

/-- A path without needless pieces: from the root or from where one stands, and in that case with
steps up at its beginning only. -/
structure Trail where
  absolute : Bool
  names : List String
  deriving DecidableEq, Repr

namespace Place

/-- Where pieces lead from a place by their spelling. -/
def along (place : Place) (pieces : List String) : Place :=
  (pieces.foldl (Path.descend true) place.reverse).reverse

end Place

namespace Trail

/-- The trail that a path begins with. -/
def start (path : String) : Trail := ⟨Path.isAbsolute path, []⟩

/-- The trail at which following the target of a link begins, given the trail of the link. -/
def startOfTarget (link : Trail) (target : String) : Trail :=
  if Path.isAbsolute target then ⟨true, []⟩ else ⟨link.absolute, link.names.dropLast⟩

/-- One step down. -/
def down (t : Trail) (name : String) : Trail := ⟨t.absolute, t.names ++ [name]⟩

/-- One step up. -/
def up (t : Trail) : Trail :=
  match t.names.getLast? with
  | none => if t.absolute then t else t.down ".."
  | some name => if name = ".." then t.down ".." else ⟨t.absolute, t.names.dropLast⟩

/-- The path that goes along a trail. -/
def path (t : Trail) : String := (if t.absolute then "/" else "") ++ "/".intercalate t.names

/-- The place at the end of a trail, seen from a directory. -/
def place (t : Trail) (here : Place) : Place :=
  Place.along (if t.absolute then [] else here) t.names

end Trail

/-- Where a path really leads, or the place that stands for it when it leads into a loop.  That
place may be spelled with two slashes at its beginning. -/
inductive RealPlace
  | found (trail : Trail)
  | looping (doubled : Bool) (place : Place)
  deriving DecidableEq, Repr

namespace RealPlace

/-- The place, in either case. -/
def place (here : Place) : RealPlace → Place
  | found trail => trail.place here
  | looping _ place => place

/-- Whether the place is spelled with two slashes at its beginning. -/
def isDoubled : RealPlace → Bool
  | found _ => false
  | looping doubled _ => doubled

/-- The place that stands for a path into a loop when the given pieces of it are left.  What is left
is a path of its own, so that it leads from the root if it begins with a slash. -/
def behind (doubled : Bool) (place : Place) (left : List String) : RealPlace :=
  match left with
  | "" :: _ :: _ =>
    .looping (Path.rootMark ("/".intercalate left) == "//") (Place.along [] left)
  | _ => .looping doubled (Place.along place left)

end RealPlace

/-- Where links have been found to lead. -/
abbrev KnownLinks := List (Trail × Trail)

namespace FileTree

/-- The target of the link at the end of a trail.  One whose path is too long is not seen. -/
def linkAt? (t : FileTree) (trail : Trail) : Option String :=
  match t.find? (trail.place t.here) with
  | some (.link target) => if Text.byteCount trail.path ≤ maxPathBytes then some target else none
  | _ => none

/-- The real place of pieces from a trail on; `goOn` gives the real place of a link from its trail
and its target.  Where a link leads is kept, so that none is followed twice. -/
def realPlaceWith (t : FileTree)
    (goOn : KnownLinks → Trail → String → Except NulInPath (RealPlace × KnownLinks)) :
    KnownLinks → Trail → List String → Except NulInPath (RealPlace × KnownLinks)
  | known, trail, [] => .ok (.found trail, known)
  | known, trail, piece :: rest =>
    if piece = "" ∨ piece = "." then t.realPlaceWith goOn known trail rest
    else if piece = ".." then t.realPlaceWith goOn known trail.up rest
    else if Path.holdsNul piece then .error .nulInPath
    else
      match t.linkAt? (trail.down piece) with
      | some target =>
        match known.lookup (trail.down piece) with
        | some trail => t.realPlaceWith goOn known trail rest
        | none =>
          match goOn known (trail.down piece) target with
          | .error refusal => .error refusal
          | .ok (.found goal, known) =>
            t.realPlaceWith goOn ((trail.down piece, goal) :: known) goal rest
          | .ok (.looping doubled place, known) => .ok (.behind doubled place rest, known)
      | none => t.realPlaceWith goOn known (trail.down piece) rest

/-- The real place of pieces from a trail on while the links with the trails in `pending` are being
followed, at most the given number more of them inside one another. -/
def realPlaceUnder (t : FileTree) :
    Nat → List Trail → KnownLinks → Trail → List String →
      Except NulInPath (RealPlace × KnownLinks)
  | 0, _ => t.realPlaceWith (fun known link _ => .ok (.looping false (link.place t.here), known))
  | depth + 1, pending =>
    t.realPlaceWith (fun known link target =>
      if link ∈ pending then .ok (.looping false (link.place t.here), known)
      else t.realPlaceUnder depth (link :: pending) known (link.startOfTarget target)
        (Path.pieces target))

/-- How many links may be followed inside one another: each link of the tree under each trail that
there is to it, and as many again as may be followed on opening a file. -/
def linkDepth (t : FileTree) : Nat := t.linkCount * (t.here.length + 2) + maxLinks

/-- The real place of a path. -/
def realPlace (t : FileTree) (path : String) : Except NulInPath RealPlace :=
  (t.realPlaceUnder t.linkDepth [] [] (Trail.start path) (Path.pieces path)).map Prod.fst

/-- Whether the real place of `path` is that of `root` or below it.  Nothing is inside a root that
is spelled with two slashes. -/
def isInside (t : FileTree) (root path : String) : Except NulInPath Bool :=
  match t.realPlace root with
  | .error refusal => .error refusal
  | .ok r => (t.realPlace path).map fun p =>
    !r.isDoubled && (r.place t.here).isPrefixOf (p.place t.here)

theorem isInside_eq_ok_iff {t : FileTree} {root path : String} {inside : Bool} :
    t.isInside root path = .ok inside ↔
      ∃ r p, t.realPlace root = .ok r ∧ t.realPlace path = .ok p ∧
        (!r.isDoubled && (r.place t.here).isPrefixOf (p.place t.here)) = inside := by
  unfold isInside
  cases t.realPlace root with
  | error refusal => simp
  | ok r => cases t.realPlace path <;> simp [Except.map]

end FileTree

end CellShader
