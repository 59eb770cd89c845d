/-!
# Floating-point numbers

A number is kept exactly, as a signed integer times a power of two, together with the infinities and
the one value that is no number.  A `Format` says which of these a machine type can hold; `round`
takes any fraction to the nearest of them, a tie going to the even significand.
-/

namespace CellShader.Number

/-- A binary format: the number of bits of a significand, and the least and greatest power of two
that it is multiplied by. -/
structure Format where
  precision : Nat
  minExponent : Int
  maxExponent : Int
  deriving DecidableEq, Repr

namespace Format

/-- The sixteen-bit format. -/
def half : Format := ⟨11, -24, 5⟩

/-- The thirty-two-bit format. -/
def single : Format := ⟨24, -149, 104⟩

/-- The sixty-four-bit format. -/
def double : Format := ⟨53, -1074, 971⟩

/-- The eighty-bit format. -/
def extended : Format := ⟨64, -16445, 16320⟩

end Format

/-- A floating-point number. -/
inductive Floating
  | finite (negative : Bool) (significand : Nat) (exponent : Int)
  | infinite (negative : Bool)
  | nan
  deriving DecidableEq, Repr

/-- The whole multiple of `den` nearest to `num`, as a factor; of two equally near the even one. -/
def roundQuotient (num den : Nat) : Nat :=
  let q := num / den
  let r := num % den
  if 2 * r < den then q else if 2 * r = den then q + q % 2 else q + 1

/-- The fraction `num / den` divided by `2 ^ exponent`. -/
def scaleDown (num den : Nat) (exponent : Int) : Nat × Nat :=
  match exponent with
  | .ofNat k => (num, den * Nat.pow 2 k)
  | .negSucc k => (num * Nat.pow 2 (k + 1), den)

namespace Format

/-- The exponent at which a positive fraction has a significand of full precision, or the least one
when the fraction is too small for that. -/
def exponentOf (f : Format) (num den : Nat) : Int :=
  let guess := max ((Nat.log2 num : Int) - Nat.log2 den - f.precision) f.minExponent
  let (n, d) := scaleDown num den guess
  if n / d < Nat.pow 2 f.precision then guess else guess + 1

/-- The number of the format nearest to `num / den`. -/
def round (f : Format) (negative : Bool) (num den : Nat) : Floating :=
  if num = 0 then .finite negative 0 f.minExponent
  else
    let e := f.exponentOf num den
    let (n, d) := scaleDown num den e
    let m := roundQuotient n d
    let (m, e) := if m = Nat.pow 2 f.precision then (m / 2, e + 1) else (m, e)
    if e > f.maxExponent then .infinite negative else .finite negative m e

end Format

namespace Floating

/-- The fraction that a finite number is, without its sign. -/
def fraction (m : Nat) (e : Int) : Nat × Nat := scaleDown m 1 (-e)

/-- The nearest number of a format. -/
def toFormat (f : Format) : Floating → Floating
  | finite negative m e => let (num, den) := fraction m e; f.round negative num den
  | infinite negative => infinite negative
  | nan => nan

/-- The number of a format nearest to an integer. -/
def ofInt (f : Format) (i : Int) : Floating := f.round (i < 0) i.natAbs 1

/-- The number of a format nearest to `digits * 10 ^ exponent`.  A power of ten beyond all powers of
two of the format leads to an infinity or to zero. -/
def ofDecimal (f : Format) (negative : Bool) (digits : Nat) (exponent : Int) : Floating :=
  if digits = 0 then .finite negative 0 f.minExponent
  else if f.precision + f.maxExponent < exponent then .infinite negative
  else if exponent + (Nat.log2 digits + 1 : Nat) < f.minExponent - 1 then
    .finite negative 0 f.minExponent
  else
    match exponent with
    | .ofNat k => f.round negative (digits * Nat.pow 10 k) 1
    | .negSucc k => f.round negative digits (Nat.pow 10 (k + 1))

/-- The integer reached by dropping the part after the point; what has none is taken to 0. -/
def truncate : Floating → Int
  | finite negative m e =>
    let (num, den) := fraction m e
    if negative then -((num / den : Nat) : Int) else (num / den : Nat)
  | infinite _ => 0
  | nan => 0

/-- Whether a number is zero, of either sign. -/
def isZero : Floating → Bool
  | finite _ m _ => m == 0
  | _ => false

end Floating

/-- A number on the extended line, for comparisons: a fraction, an infinity or no number. -/
inductive Position
  | below
  | fraction (num : Int) (den : Nat)
  | above
  | nowhere
  deriving DecidableEq, Repr

namespace Position

def ofInt (i : Int) : Position := .fraction i 1

def ofFloating : Floating → Position
  | .finite negative m e =>
    let (num, den) := Floating.fraction m e
    .fraction (if negative then -(num : Int) else num) den
  | .infinite negative => if negative then .below else .above
  | .nan => .nowhere

/-- Strictly to the left of; nothing lies left or right of what is no number. -/
def less : Position → Position → Bool
  | nowhere, _ | _, nowhere => false
  | _, below | above, _ => false
  | below, _ | _, above => true
  | fraction n d, fraction n' d' => n * d' < n' * d

/-- At the same place; what is no number is not even where it is itself. -/
def same : Position → Position → Bool
  | nowhere, _ | _, nowhere => false
  | below, below | above, above => true
  | fraction n d, fraction n' d' => n * d' == n' * d
  | _, _ => false

end Position

end CellShader.Number
