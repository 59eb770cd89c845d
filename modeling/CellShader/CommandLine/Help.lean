import CellShader.CommandLine.Switch

/-!
# The help page

The usage line, and the switches in two columns.  The second column begins where the first one would
end at its greatest width; an entry wider than that has its explanation on the next line.
-/

namespace CellShader

namespace Help

/-- The width of the page. -/
def pageWidth : Nat := 80

/-- How far the entries are moved in. -/
def margin : Nat := 2

/-- The greatest width of the first column. -/
def firstColumn : Nat := 30

/-- The room between the columns. -/
def gap : Nat := 2

/-- The width of the second column. -/
def secondColumn : Nat := pageWidth - (firstColumn + gap) - margin

/-- A text of the given number of spaces. -/
def spaces (n : Nat) : String := String.ofList (List.replicate n ' ')

/-- Words put into lines of no more than the given width where that is possible; `line` is the line
begun. -/
def fill (width : Nat) (line : String) : List String → List String
  | [] => [line]
  | word :: words =>
    if line.length + 1 + word.length ≤ width then fill width (line ++ " " ++ word) words
    else line :: fill width word words

/-- A text broken into lines of no more than the given width where that is possible. -/
def wrap (width : Nat) (text : String) : List String :=
  match text.splitOn " " with
  | [] => []
  | word :: words => fill width word words

/-- The first column of an entry: the spellings of a switch and what its value is called. -/
def title (s : Switch) : String :=
  ", ".intercalate s.spellings ++
    match s.valueName? with
    | some name => " " ++ name
    | none => ""

/-- The lines of an entry. -/
def entry (s : Switch) : List String :=
  let lines := wrap secondColumn s.purpose
  let moved := lines.map (spaces (margin + firstColumn + gap) ++ ·)
  if (title s).length ≤ firstColumn then
    match lines with
    | [] => [spaces margin ++ title s]
    | line :: _ =>
      (spaces margin ++ title s ++ spaces (firstColumn + gap - (title s).length) ++ line) ::
        moved.tail
  else (spaces margin ++ title s) :: moved

end Help

/-- The name of the program. -/
def programName : String := "lifedispatch"

/-- The version of the program. -/
def programVersion : String := "0.1.0"

/-- How the program is called. -/
def usageLine : String := "Usage: " ++ programName ++ " [OPTIONS] [TEMPLATE]\n"

/-- The help page. -/
def helpPage : String :=
  usageLine ++ "\nOptions:\n" ++ String.join ((Switch.all.flatMap Help.entry).map (· ++ "\n"))

/-- What is shown of the version. -/
def versionPage : String := programName ++ ", version " ++ programVersion ++ "\n"

end CellShader
