import CellShader.Number.Machine
import CellShader.Number.Shortest
import CellShader.Rule.Display
import CellShader.Text.Quoted

/-!
# Plain values

What can be handed to the functions that build rules: besides rule trees themselves these are
integers of any size, truth values, floating-point numbers, texts, lists, what is kept in a machine
type (numbers of a fixed width, texts, bytes and spans of time), and nothing.  Each has a type with
a name and a form in which messages show it, and those that are numbers have a place on the line.
-/

namespace CellShader

open Number

/-- A value that may be handed to a function building rules. -/
inductive Value
  | nothing
  | truth (b : Bool)
  | integer (i : Int)
  | real (x : Floating)
  | text (s : String)
  | machineTruth (b : Bool)
  | machineInteger (t : IntegerType) (i : Int)
  | machineReal (t : RealType) (x : Floating)
  | machineText (s : String)
  /-- a byte for each character of an ASCII text, and zeros behind -/
  | machineBytes (s : String) (zeros : Nat)
  /-- as many zero bytes as said -/
  | machineBlock (size : Nat)
  /-- a span of time in a unit that is not said, or what is no time -/
  | machineSpan (length? : Option Int)
  | list (items : List Value)
  | rule (r : Rule)

namespace Value

/-- The plain value that a number is. -/
def ofNumeral : Numeral → Value
  | .integer i => integer i
  | .truth b => truth b
  | .real x => real x

def truthText (b : Bool) : String := if b then "True" else "False"

/-- A number written out. -/
def digits : Numeral → String
  | .integer i => toString i
  | .truth b => truthText b
  | .real x => x.text .double

/-- How many bytes there is room for. -/
def maxBytes : Nat := Nat.pow 2 40

/-- As many zero bytes as a number says, or the bytes of its text if there is no room for them. -/
def bytesOf (n : Numeral) : Value :=
  match n with
  | .integer (.ofNat zeros) =>
    if zeros ≤ maxBytes then machineBytes "" zeros else machineBytes (digits n) 0
  | .truth b => machineBytes "" b.toNat
  | n => machineBytes (digits n) 0

/-- A number put into a type. -/
def ofNumber : NumberType → Numeral → Except NumberFault Value
  | .truth, n => .ok (machineTruth n.isNonzero)
  | .integer t, n => (t.ofNumeral n).map (machineInteger t)
  | .real t, n => (t.ofNumeral n).map (machineReal t)
  | .span, n => n.spanLength.map (machineSpan ∘ span?)
  | .instant, n => .error n.instantFault
  | .text, n => .ok (machineText (digits n))
  | .bytes, n => .ok (bytesOf n)
  | .block, n => n.blockSize.map machineBlock
  | .unbounded, n => .ok (ofNumeral n)

/-- The floating-point number that a text spells, put into a type. -/
def ofSpelling (t : NumberType) (s : String) : Except NumberFault Value :=
  match Numeral.ofSpelling s with
  | .ok n => ofNumber t n
  | .error fault => .error fault

/-- The name of a value's type, without the module that a rule's type is declared in. -/
def shortType : Value → String
  | nothing => "NoneType"
  | truth _ => "bool"
  | integer _ => "int"
  | real _ => "float"
  | text _ => "str"
  | machineTruth _ => "numpy.bool"
  | machineInteger t _ => "numpy." ++ t.name
  | machineReal t _ => "numpy." ++ t.name
  | machineText _ => "numpy.str_"
  | machineBytes _ _ => "numpy.bytes_"
  | machineBlock _ => "numpy.void"
  | machineSpan _ => "numpy.timedelta64"
  | list _ => "list"
  | rule r => r.kind

/-- The full name of a value's type. -/
def fullType : Value → String
  | rule (.expr e) => "lifedispatch.codegen.expressions." ++ e.kind
  | rule (.statement s) => "lifedispatch.codegen.statements." ++ s.kind
  | v => v.shortType

/-- A value's type as messages show it. -/
def typeText (v : Value) : String := "<class '" ++ v.fullType ++ "'>"

/-- Whether a value counts as an integer.  Spans of time do, truth values do not. -/
def isInteger : Value → Bool
  | integer _ | machineInteger _ _ | machineSpan _ => true
  | _ => false

/-- The integer that a value is. -/
def integer? : Value → Option Int
  | integer i => some i
  | machineInteger _ i => some i
  | machineSpan length? => length?
  | _ => none

/-- A block of zero bytes as messages show it. -/
def blockText (size : Nat) : String := "b'" ++ String.join (List.replicate size "\\x00") ++ "'"

mutual

/-- A value as messages show it. -/
def display : Value → String
  | nothing => "None"
  | truth b => truthText b
  | integer i => toString i
  | real x => x.text .double
  | text s => Text.quoted s
  | machineTruth b => "np." ++ truthText b ++ "_"
  | machineInteger t i => "np." ++ t.sizeName ++ "(" ++ toString i ++ ")"
  | machineReal t x =>
    let body := if t.isComplex then x.complexText t.format else x.text t.format
    "np." ++ t.name ++ "(" ++ (if t.format = .extended then "'" ++ body ++ "'" else body) ++ ")"
  | machineText s => "np.str_(" ++ Text.quoted s ++ ")"
  | machineBytes s _ => "np.bytes_(b" ++ Text.quoted s ++ ")"
  | machineBlock size => "np.void(" ++ blockText size ++ ")"
  | machineSpan (some i) => "np.timedelta64(" ++ toString i ++ ")"
  | machineSpan none => "np.timedelta64('NaT')"
  | list items => "[" ++ displayAll items ++ "]"
  | rule (.expr e) => e.display
  | rule (.statement s) => s.display

/-- Values as messages show them, with commas between. -/
def displayAll : List Value → String
  | [] => ""
  | [v] => v.display
  | v :: vs => v.display ++ ", " ++ displayAll vs

end

/-- Whether a value is compared with lists item by item. -/
def isItemwise : Value → Bool
  | machineTruth _ | machineInteger _ _ | machineReal _ _ | machineSpan _ | machineBlock _ => true
  | _ => false

/-- A value in running text, where texts and machine numbers stand for themselves.  Floating-point
numbers have the digits of the double width there, whatever their own. -/
def plain : Value → String
  | text s | machineText s => s
  | machineTruth b => truthText b
  | machineInteger _ i => toString i
  | machineBytes s _ => "b" ++ Text.quoted s
  | machineBlock size => blockText size
  | machineSpan (some i) => toString i ++ " generic time units"
  | machineSpan none => "NaT"
  | machineReal t x =>
    if t.isComplex then
      match (x.toFormat .double).complexText .double with
      | "0j" => "0j"
      | body => "(" ++ body ++ ")"
    else (x.toFormat .double).text .double
  | v => v.display

/-- The text that a value is. -/
def text? : Value → Option String
  | text s | machineText s => some s
  | _ => none

/-- Where a number lies on the line. -/
def position? : Value → Option Position
  | truth b => some (.ofInt b.toNat)
  | integer i => some (.ofInt i)
  | real x => some (.ofFloating x)
  | machineTruth b => some (.ofInt b.toNat)
  | machineInteger _ i => some (.ofInt i)
  | machineReal _ x => some (.ofFloating x)
  | machineSpan (some i) => some (.ofInt i)
  | machineSpan none => some .nowhere
  | _ => none

/-- Whether two values are the same and neither numbers nor lists. -/
def alike : Value → Value → Bool
  | nothing, nothing => true
  | rule r, rule r' => r == r'
  | machineBytes s m, machineBytes t n => s == t && m == n
  | machineBlock _, machineBlock _ => true
  | a, b =>
    match a.text?, b.text? with
    | some s, some t => s == t
    | _, _ => false

/-- Whether two values other than lists are the same.  Numbers are when they lie at the same place,
whatever their types. -/
def same (a b : Value) : Bool :=
  match a.position?, b.position? with
  | some p, some q => p.same q
  | _, _ => a.alike b

/-- A value as it is told from others in a set: extended numbers are by what they are as doubles. -/
def keyed : Value → Value
  | machineReal t x =>
    if t.format = .extended then machineReal .double (x.toFormat .double) else machineReal t x
  | v => v

/-- Whether two values other than lists count as one in a set. -/
def coincides (a b : Value) : Bool := a.keyed.same b.keyed && a.same b

end Value

end CellShader
