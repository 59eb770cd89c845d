import CellShader.Files.Opening

/-!
# Listing files

What a directory holds, at any depth: the paths of everything below it that is no directory and does
not lead to one, in order.
-/

namespace CellShader

namespace FileTree

/-- Whether an entry is a directory or leads to one. -/
def leadsToDirectory (t : FileTree) (p : Place) : Entry → Bool
  | .directory => true
  | .file _ => false
  | .link _ => t.isDirectory p.path

/-- The paths, seen from a directory, of all that is below it and is no directory. -/
def listing (t : FileTree) (base : Place) : List String :=
  (t.entries.filterMap (fun (p, e) =>
    if base.isPrefixOf p && !t.leadsToDirectory p e then
      some ("/".intercalate (p.drop base.length))
    else none)).mergeSort (fun a b => a ≤ b)

end FileTree

end CellShader
