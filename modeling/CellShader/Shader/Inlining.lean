import CellShader.Text.Blank

/-!
# Putting texts in place of directives

A directive is replaced when it makes up a whole row of the text.  Only spaces and tabs count as
blank here, and the row may end in a carriage return.  The new text is not looked at again.
-/

namespace CellShader.Inlining

/-- What is left from the end of the row on, if nothing but spaces and tabs and perhaps one carriage
return comes before that. -/
def fromRowEnd? (cs : List Char) : Option (List Char) :=
  match cs.dropWhile Text.isSpaceOrTab with
  | [] => some []
  | ['\r'] => some []
  | '\n' :: rest => some ('\n' :: rest)
  | '\r' :: '\n' :: rest => some ('\n' :: rest)
  | _ => none

/-- What is left behind `target` from the end of the row on, when spaces or tabs come before the
target at the front of `cs`, and nothing else comes before the end of the row.  As many of them as
possible are skipped; the target may begin with some. -/
def afterTarget? (target : List Char) : List Char → Option (List Char)
  | [] => none
  | c :: cs =>
    if Text.isSpaceOrTab c then
      (afterTarget? target cs).or ((Text.afterWord? target cs).bind fromRowEnd?)
    else none

/-- What follows a directive that imports `target`, from the end of the row on, if there is one at
the front of `cs`. -/
def afterDirective? (target cs : List Char) : Option (List Char) :=
  match cs.dropWhile Text.isSpaceOrTab with
  | '#' :: cs =>
    match Text.afterWord? "import".toList (cs.dropWhile Text.isSpaceOrTab) with
    | some cs => afterTarget? target cs
    | none => none
  | _ => none

/-- Replace the directives in a text, the next `skip` characters being part of the last one found.
`atStart` says whether a row begins here. -/
def replaceFrom (target contents : List Char) : Bool → Nat → List Char → List Char
  | _, _, [] => []
  | _, skip + 1, c :: cs => replaceFrom target contents (c == '\n') skip cs
  | false, 0, c :: cs => c :: replaceFrom target contents (c == '\n') 0 cs
  | true, 0, c :: cs =>
    match afterDirective? target (c :: cs) with
    | some rest => contents ++ replaceFrom target contents (c == '\n') (cs.length - rest.length) cs
    | none => c :: replaceFrom target contents (c == '\n') 0 cs

/-- The text with `contents` in place of each directive that imports `target`. -/
def replaceImport (text target contents : List Char) : List Char :=
  replaceFrom target contents true 0 text

end CellShader.Inlining
