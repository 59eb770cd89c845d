/-!
# Occurrences of one text in another

Occurrences are counted and replaced from the left, and never overlap.  The empty pattern occurs
before each character and once more at the end.
-/

namespace CellShader.Text

/-- Occurrences of a pattern that is not empty, the next `skip` characters being part of the last
one found. -/
def countFrom (pattern : List Char) : Nat → List Char → Nat
  | _, [] => 0
  | skip + 1, _ :: cs => countFrom pattern skip cs
  | 0, c :: cs =>
    if pattern.isPrefixOf (c :: cs) then countFrom pattern (pattern.length - 1) cs + 1
    else countFrom pattern 0 cs

/-- How often `pattern` occurs in `cs`. -/
def count (pattern cs : List Char) : Nat :=
  if pattern.isEmpty then cs.length + 1 else countFrom pattern 0 cs

/-- The text with `new` for each occurrence of a pattern that is not empty, the next `skip`
characters being part of the last one found. -/
def replaceFrom (pattern new : List Char) : Nat → List Char → List Char
  | _, [] => []
  | skip + 1, _ :: cs => replaceFrom pattern new skip cs
  | 0, c :: cs =>
    if pattern.isPrefixOf (c :: cs) then new ++ replaceFrom pattern new (pattern.length - 1) cs
    else c :: replaceFrom pattern new 0 cs

/-- The text with `new` put in place of every occurrence of `pattern`. -/
def replace (pattern new cs : List Char) : List Char :=
  if pattern.isEmpty then new ++ cs.flatMap (fun c => c :: new) else replaceFrom pattern new 0 cs

/-- Whether `pattern` occurs in `cs`. -/
def occurs (pattern cs : List Char) : Bool := count pattern cs != 0

theorem countFrom_ne_zero_iff {pattern cs : List Char} (hpattern : pattern ≠ []) :
    countFrom pattern 0 cs ≠ 0 ↔ pattern <:+: cs := by
  induction cs with
  | nil => simpa [countFrom] using hpattern
  | cons c cs ih =>
    rw [List.infix_cons_iff, ← List.isPrefixOf_iff_prefix, countFrom]
    by_cases hfront : pattern.isPrefixOf (c :: cs) = true
    · simp [hfront]
    · simp [hfront, ih]

theorem occurs_iff {pattern cs : List Char} : occurs pattern cs = true ↔ pattern <:+: cs := by
  rw [occurs, bne_iff_ne, count]
  cases pattern with
  | nil => simp
  | cons c pattern => exact countFrom_ne_zero_iff (List.cons_ne_nil c pattern)

end CellShader.Text
