import CellShader.Number.Floating

/-!
# The shortest text of a floating-point number

Of the decimals that a format rounds to a given number, `shortest` picks one with the fewest digits
and, of these, the nearest.  It tries one digit, two digits and so on, and looks each time at the
two decimals of that length next to the number.
-/

namespace CellShader.Number

/-- The number of decimal digits before the point, or minus the number of zeros after it: the least
`k` with `num / den < 10 ^ k`. -/
def decimalPoint (num den : Nat) : Int :=
  if den ≤ num then (Nat.toDigits 10 (num / den)).length
  else
    let zeros := ((List.range 400).find? (fun j => den ≤ num * Nat.pow 10 (j + 1))).getD 0
    Int.negOfNat zeros

/-- A fraction times a power of ten. -/
def timesTenPow (num den : Nat) (k : Int) : Nat × Nat :=
  match k with
  | .ofNat k => (num * Nat.pow 10 k, den)
  | .negSucc k => (num, den * Nat.pow 10 (k + 1))

/-- The rounding interval of `m * 2 ^ e` in quarters of `2 ^ e`: its ends, and whether they belong
to it. -/
def interval (f : Format) (m : Nat) (e : Int) : Nat × Nat × Bool :=
  let low := if m = Nat.pow 2 (f.precision - 1) ∧ f.minExponent < e then 4 * m - 1 else 4 * m - 2
  (low, 4 * m + 2, m % 2 == 0)

/-- Whether the decimal `c * 10 ^ k` lies in the rounding interval of `m * 2 ^ e`. -/
def readsBack (f : Format) (m : Nat) (e : Int) (c : Nat) (k : Int) : Bool :=
  let (low, high, closed) := interval f m e
  let (num, den) := timesTenPow c 1 k
  let (num, den) := scaleDown num den (e - 2)
  if closed then low * den ≤ num && num ≤ high * den else low * den < num && num < high * den

/-- The decimal of `digits` digits nearest to a fraction that reads back, with its power of ten. -/
def ofLength? (f : Format) (m : Nat) (e : Int) (point : Int) (digits : Nat) :
    Option (Nat × Int) :=
  let k := point - digits
  let (num, den) := Floating.fraction m e
  let (num, den) := timesTenPow num den (-k)
  let c := num / den
  let r := num % den
  let lower := readsBack f m e c k
  let upper := readsBack f m e (c + 1) k
  if lower && (!upper || 2 * r < den || (2 * r == den && c % 2 == 0)) then some (c, k)
  else if upper then some (c + 1, k)
  else none

/-- How many decimal digits tell any two numbers of a format apart: one more than a significand has
when it is written in decimal, a bit making up 0.30103 of a digit. -/
def Format.maxDigits (f : Format) : Nat := f.precision * 30103 / 100000 + 2

/-- The shortest decimal that a format rounds to the positive number `m * 2 ^ e`. -/
def shortest (f : Format) (m : Nat) (e : Int) : Nat × Int :=
  let (num, den) := Floating.fraction m e
  let point := decimalPoint num den
  ((List.range f.maxDigits).findSome? (fun n => ofLength? f m e point (n + 1))).getD (0, 0)

/-- Whether a positive number is written without an exponent. -/
def isPositional (m : Nat) (e : Int) : Bool :=
  let (num, den) := Floating.fraction m e
  den ≤ num * Nat.pow 10 4 && num < den * Nat.pow 10 16

/-- Digits without the zeros that end them, each of which moves to the power of ten. -/
def dropZeros : List Char → Int → List Char × Int
  | '0' :: ds, k => dropZeros ds (k + 1)
  | ds, k => (ds, k)

/-- The texts of floating-point numbers: positional from `0.0001` up to, but without, the sixteenth
power of ten and always with a digit after the point, else with a signed exponent of at least two
digits.  The number itself decides, not the decimal that is written for it. -/
def Floating.text (f : Format) : Floating → String
  | .nan => "nan"
  | .infinite negative => if negative then "-inf" else "inf"
  | .finite negative m e =>
    let body :=
      if m = 0 then "0.0".toList
      else
        let (c, k) := shortest f m e
        let (reversed, k) := dropZeros (Nat.toDigits 10 c).reverse k
        let ds := reversed.reverse
        let point : Int := ds.length + k
        if isPositional m e then
          if point ≤ 0 then "0.".toList ++ List.replicate (-point).toNat '0' ++ ds
          else if (ds.length : Int) ≤ point then
            ds ++ List.replicate (point.toNat - ds.length) '0' ++ ".0".toList
          else ds.take point.toNat ++ '.' :: ds.drop point.toNat
        else
          let x := point - 1
          let digits := Nat.toDigits 10 x.natAbs
          ds.take 1 ++ (if ds.length = 1 then [] else '.' :: ds.drop 1) ++
            ['e', if x < 0 then '-' else '+'] ++ List.replicate (2 - digits.length) '0' ++ digits
    String.ofList (if negative then '-' :: body else body)

/-- The text of a floating-point number without a zero that stands alone after the point. -/
def Floating.briefText (f : Format) (x : Floating) : String :=
  match (x.text f).toList.reverse with
  | '0' :: '.' :: ds => String.ofList ds.reverse
  | ds => String.ofList ds.reverse

/-- The text of a floating-point number as the real part of a complex one. -/
def Floating.complexText (f : Format) : Floating → String
  | .finite false 0 _ => "0j"
  | x => x.briefText f ++ "+0j"

end CellShader.Number
