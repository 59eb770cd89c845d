import CellShader.Number.Floating
import CellShader.Text.Blank
import CellShader.Text.Digit

/-!
# Reading floating-point numbers

A number is written with decimal digits, perhaps with a point among them and an exponent behind, or
by the name of an infinity or of the value that is no number; a sign may come first.  White space
may stand around it, underscores between two digits, and the digits of all scripts will do.
-/

namespace CellShader.Number

/-- The number that decimal digits spell. -/
def natOfDigits (cs : List Char) : Nat := cs.foldl (fun n c => n * 10 + (c.toNat - '0'.toNat)) 0

/-- A character as a number is read: a digit of any script is the one of ASCII, and white space
beyond ASCII is a space. -/
def plainCharacter (c : Char) : Char :=
  if c.toNat < 128 then c
  else if Text.isBlank c then ' '
  else
    match Text.digit? c with
    | some d => Nat.digitChar d
    | none => c

/-- The white space that may stand around a number. -/
def isPadding (c : Char) : Bool := c == ' ' || (9 ≤ c.toNat && c.toNat ≤ 13)

/-- A text without the underscores between digits, of which each is to stand alone; `last` is the
character before. -/
def dropUnderscores? (last : Char) : List Char → Option (List Char)
  | [] => if last = '_' then none else some []
  | c :: cs =>
    if c = '_' then if last.isDigit then dropUnderscores? c cs else none
    else if last = '_' ∧ !c.isDigit then none
    else (dropUnderscores? c cs).map (c :: ·)

/-- Split off a sign; whether it is a minus, and what follows. -/
def splitSign : List Char → Bool × List Char
  | '-' :: cs => (true, cs)
  | '+' :: cs => (false, cs)
  | cs => (false, cs)

/-- The exponent written behind a number; without one it is 0. -/
def exponent? : List Char → Option Int
  | [] => some 0
  | c :: cs =>
    if c = 'e' ∨ c = 'E' then
      let (negative, digits) := splitSign cs
      if digits.isEmpty || !digits.all Char.isDigit then none
      else some (if negative then -(natOfDigits digits : Int) else natOfDigits digits)
    else none

/-- Digits with a point perhaps, and what follows: all digits and how many stand behind the point.
-/
def splitDecimal (cs : List Char) : List Char × Nat × List Char :=
  let whole := cs.takeWhile Char.isDigit
  match cs.dropWhile Char.isDigit with
  | '.' :: rest =>
    let part := rest.takeWhile Char.isDigit
    (whole ++ part, part.length, rest.dropWhile Char.isDigit)
  | rest => (whole, 0, rest)

/-- The number of the format nearest to what a text without white space and underscores spells. -/
def Floating.ofBareText? (f : Format) (cs : List Char) : Option Floating :=
  let (negative, cs) := splitSign cs
  let word := String.ofList (cs.map Char.toLower)
  if word = "inf" ∨ word = "infinity" then some (.infinite negative)
  else if word = "nan" then some .nan
  else
    let (digits, places, rest) := splitDecimal cs
    if digits.isEmpty then none
    else (exponent? rest).map (fun e => .ofDecimal f negative (natOfDigits digits) (e - places))

/-- The number of the format nearest to what a text spells. -/
def Floating.ofText? (f : Format) (cs : List Char) : Option Floating :=
  let cs := Text.dropEndWhile isPadding ((cs.map plainCharacter).dropWhile isPadding)
  (dropUnderscores? ' ' cs).bind (Floating.ofBareText? f)

end CellShader.Number
