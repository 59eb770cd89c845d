import CellShader.Recipe.Fault

/-!
# Comparing values

Numbers are compared by their places on the line.  Plain numbers among themselves, and machine
integers, are compared exactly; before a machine floating-point number a plain number is rounded to
its width, and a machine integer to the double width.  Spans of time are compared with integers
only.  A machine number compared with a list is compared with each of its items, which gives one
answer only if there is one item, and the items are machine numbers too as far as one array can hold
them all.
-/

namespace CellShader

open Number

namespace Value

/-- Where an integer lies when it is compared with a number of a floating-point type.  It is rounded
to the type, but an extended one takes integers of 64 bits as they are. -/
def placeOfInt (t : RealType) (i : Int) : Except NumberFault Position :=
  if t.format = .extended ∧ IntegerType.long.Holds i then .ok (.ofInt i)
  else (t.ofInt i).map .ofFloating

/-- Whether a value is a number that no span of time is compared with. -/
def isNoSpan : Value → Bool
  | real _ | machineReal _ _ => true
  | machineInteger t _ => t.bits == 64 && !t.isSigned
  | _ => false

/-- Where a number lies when it is compared with `other`. -/
def placeBeside (other : Value) : Value → Except NumberFault (Option Position)
  | integer i =>
    match other with
    | machineReal t _ => (placeOfInt t i).map some
    | machineTruth _ => (IntegerType.long.hold i).map (fun i => some (.ofInt i))
    | machineSpan _ =>
      (Numeral.integer i).spanLength.map (fun i => (machineSpan (span? i)).position?)
    | _ => .ok (some (.ofInt i))
  | real x =>
    match other with
    | machineReal t _ => .ok (some (.ofFloating (x.toFormat t.format)))
    | machineSpan _ => .ok none
    | _ => .ok (some (.ofFloating x))
  | machineInteger t i =>
    match other with
    | machineReal .extended _ | machineReal .complexExtended _ => .ok (some (.ofInt i))
    | machineReal _ _ | real _ => .ok (some (.ofFloating (.ofInt .double i)))
    | machineSpan _ =>
      .ok (if (machineInteger t i).isNoSpan then none else (machineSpan (span? i)).position?)
    | _ => .ok (some (.ofInt i))
  | machineSpan length? => .ok (if other.isNoSpan then none else (machineSpan length?).position?)
  | v =>
    match other with
    | machineSpan _ => .ok (if v.isNoSpan then none else v.position?)
    | _ => .ok v.position?

/-- The places of two numbers as they are compared with one another. -/
def places? (a b : Value) : Except BuildFault (Option (Position × Position)) :=
  match placeBeside b a, placeBeside a b with
  | .ok (some p), .ok (some q) => .ok (some (p, q))
  | .ok _, .ok _ => .ok none
  | .error fault, _ | _, .error fault => .error (.number fault)

/-- Whether a value lies before another in order.  Numbers are ordered among themselves, and so are
texts and bytes. -/
def less (a b : Value) : Except BuildFault Bool :=
  match a, b with
  | machineBytes s m, machineBytes t n => .ok (s < t || s == t && m < n)
  | a, b =>
    match a.text?, b.text? with
    | some s, some t => .ok (s < t)
    | _, _ => do
      match ← a.places? b with
      | some (p, q) => return p.less q
      | none => throw (.notOrdered a b)

/-- Whether two values other than lists are equal as they are compared with one another. -/
def equalsSingle (a b : Value) : Except BuildFault Bool := do
  match ← a.places? b with
  | some (p, q) => return p.same q
  | none => return a.alike b

mutual

/-- A value with the items of its lists in nested rows. -/
def nested : Value → Nested Value
  | list items => .rows (nestedAll items)
  | v => .item v

/-- Values with the items of their lists in nested rows. -/
def nestedAll : List Value → List (Nested Value)
  | [] => []
  | v :: vs => v.nested :: nestedAll vs

end

/-- The machine number that a plain number is in an array, unless it is too long for any. -/
def element : Value → Value
  | truth b => machineTruth b
  | integer i =>
    match (Numeral.integer i).type with
    | .integer t => machineInteger t i
    | _ => integer i
  | real x => machineReal .double x
  | v => v

/-- Whether an array holds a value only by keeping all of its items as they are. -/
def isKept (v : Value) : Bool :=
  match v.element with
  | nothing | integer _ | rule _ => true
  | _ => false

/-- Whether an array of the given items keeps them as they are: because of one of them, or because
there are spans of time among numbers that are none. -/
def areKept (items : List Value) : Bool :=
  items.any isKept ||
    items.any (fun v => match v with | machineSpan _ => true | _ => false) &&
      items.any (fun v => v.element.isNoSpan)

/-- A machine number as the plain number that is compared with items kept as they are.  An extended
number stays what it is, and what is no time is nothing. -/
def unboxed : Value → Value
  | machineTruth b => truth b
  | machineInteger _ i => integer i
  | machineReal t x => if t.format = .extended then machineReal t x else real x
  | machineSpan (some i) => integer i
  | machineSpan none => nothing
  | v => v

/-- Whether a machine number is equal to each of the items of an array. -/
def equalsEach (v : Value) (items : List Value) : Except BuildFault (List Bool) :=
  if areKept items then items.mapM v.unboxed.equalsSingle
  else items.mapM (fun item => v.equalsSingle item.element)

/-- Whether a machine number is equal to the one item of nested rows. -/
def equalsRows (v : Value) (rows : Nested Value) : Except BuildFault Bool := do
  if rows.box?.isNone then throw (.unevenList rows.evenExtents)
  match ← v.equalsEach rows.leaves with
  | [] => throw .noTruths
  | [equal] => return equal
  | _ => throw .severalTruths

mutual

/-- Whether two values are equal as they are compared with one another. -/
def equals : Value → Value → Except BuildFault Bool
  | list xs, list ys => if xs.length = ys.length then allEqual xs ys else .ok false
  | list xs, b => if b.isItemwise then b.equalsRows (nested (list xs)) else .ok false
  | a, list ys => if a.isItemwise then a.equalsRows (nested (list ys)) else .ok false
  | a, b => a.equalsSingle b

/-- Whether the values of two lists are equal each to each, up to the first that are not. -/
def allEqual : List Value → List Value → Except BuildFault Bool
  | x :: xs, y :: ys => do
    if ← x.equals y then allEqual xs ys else return false
  | _, _ => .ok true

end

end Value

end CellShader
