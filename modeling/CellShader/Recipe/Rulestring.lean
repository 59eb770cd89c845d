import CellShader.Recipe.Counts
import CellShader.Text.Blank

/-!
# Rulestrings

The notation `B3/S23` for life-like rules: a letter and the digits of the counts for each half, with
a slash between.  Either half may come first and either case of the letters will do, the long s
being a spelling of the letter S; white space may stand around the halves but not inside them.
-/

namespace CellShader

namespace Rulestring

/-- The half that a letter introduces. -/
def half? (c : Char) : Option Half :=
  if c = 'B' || c = 'b' then some .birth
  else if c = 'S' || c = 's' || c = '\u017f' then some .survival
  else none

/-- One half: its kind and its counts. -/
structure Part where
  half : Half
  counts : List Nat

/-- Read a half from the front of a text, white space before it included. -/
def part? (cs : List Char) : Option (Part × List Char) :=
  match cs.dropWhile Text.isBlank with
  | [] => none
  | c :: rest =>
    (half? c).map (fun half =>
      (⟨half, (rest.takeWhile Char.isDigit).map (fun d => d.toNat - '0'.toNat)⟩,
        rest.dropWhile Char.isDigit))

/-- The two halves of a rulestring, in the order in which they are written. -/
def parts? (cs : List Char) : Option (Part × Part) :=
  match part? cs with
  | none => none
  | some (first, rest) =>
    match rest.dropWhile Text.isBlank with
    | '/' :: rest =>
      match part? rest with
      | none => none
      | some (second, rest) => if rest.all Text.isBlank then some (first, second) else none
    | _ => none

/-- The counts of a part as plain values. -/
def Part.value (p : Part) : Value := .list (p.counts.map (fun n => .integer (Int.ofNat n)))

end Rulestring

/-- Why a value that is no text is no rulestring.  What is kept in a machine type passes for a row
of bytes. -/
def Value.notRulestring : Value → BuildFault
  | .machineTruth _ | .machineInteger _ _ | .machineReal _ _ | .machineBytes _ _
  | .machineBlock _ | .machineSpan _ => .bytesForText
  | v => .notText v

/-- The life-like rule that a rulestring denotes. -/
def Statement.ofRulestring (s : String) : Except BuildFault Statement :=
  match Rulestring.parts? s.toList with
  | none => .error (.notARulestring s)
  | some (first, second) =>
    match first.half, second.half with
    | .birth, .survival => Statement.ofCounts first.value second.value
    | .survival, .birth => Statement.ofCounts second.value first.value
    | _, _ => .error (.rulestringHalves s)

end CellShader
