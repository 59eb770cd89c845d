import CellShader.Text.Utf8

/-!
# Trees of files

A tree of files holds directories, files and symbolic links, each at a place: the names on the way
down to it from the root.  Relative paths start from one directory of the tree.  Operations on a
tree work on places; how a path leads to a place is not said here.
-/

namespace CellShader

/-- The names on the way from the root of a tree down to an entry. -/
abbrev Place := List String

/-- The path of a place from the root. -/
def Place.path (p : Place) : String := "/" ++ "/".intercalate p

/-- What lies at a place. -/
inductive Entry
  | directory
  | file (bytes : List UInt8)
  | link (target : String)
  deriving DecidableEq, Repr

/-- Whether an entry is a link. -/
def Entry.isLink : Entry → Bool
  | link _ => true
  | _ => false

/-- A tree of files, and the directory that relative paths start from. -/
structure FileTree where
  here : Place
  entries : List (Place × Entry)

namespace FileTree

/-- What lies at a place.  The root is a directory. -/
def find? (t : FileTree) (p : Place) : Option Entry :=
  if p = [] then some .directory else t.entries.lookup p

/-- Put an entry at a place, instead of what may have been there. -/
def insert (t : FileTree) (p : Place) (e : Entry) : FileTree :=
  { t with entries := (p, e) :: t.entries.filter (fun x => x.1 != p) }

/-- Take away what lies at a place. -/
def erase (t : FileTree) (p : Place) : FileTree :=
  { t with entries := t.entries.filter (fun x => x.1 != p) }

/-- Make a directory at a place where nothing is. -/
def makeDirectory (t : FileTree) (p : Place) : FileTree :=
  if (t.find? p).isSome then t else t.insert p .directory

/-- Make directories where nothing is at a place and on the way to it. -/
def makeDirectories (t : FileTree) (p : Place) : FileTree :=
  (List.range (p.length + 1)).foldl (fun t n => t.makeDirectory (p.take n)) t

/-- Put an entry at a place after making the directories on the way to it. -/
def insertDeep (t : FileTree) (p : Place) (e : Entry) : FileTree :=
  (t.makeDirectories p.dropLast).insert p e

/-- The number of links in a tree.  An entry that is hidden by another one at its place is none. -/
def linkCount (t : FileTree) : Nat := t.entries.countP (fun x => (t.find? x.1).any Entry.isLink)

theorem lookup_filter_ne {p q : Place} (hq : q ≠ p) (entries : List (Place × Entry)) :
    (entries.filter (fun x => x.1 != p)).lookup q = entries.lookup q := by
  induction entries with
  | nil => rfl
  | cons x xs ih =>
    by_cases hx : x.1 = p
    · have hqx : (q == x.1) = false := by simp [hx, hq]
      rw [List.filter_cons_of_neg (by simp [hx]), ih, List.lookup_cons, hqx]
    · rw [List.filter_cons_of_pos (by simp [hx]), List.lookup_cons, List.lookup_cons, ih]

theorem find?_insert (t : FileTree) {p : Place} (hp : p ≠ []) (e : Entry) (q : Place) :
    (t.insert p e).find? q = if q = p then some e else t.find? q := by
  by_cases hq : q = p
  · simp [find?, insert, hq, hp]
  · have hqp : (q == p) = false := by simp [hq]
    simp only [find?, insert, List.lookup_cons, hqp, lookup_filter_ne hq, if_neg hq]

end FileTree

end CellShader
