import CellShader.Recipe.Build
import CellShader.Recipe.Order

/-!
# Life-like rules from plain values

The neighbour counts of a life-like rule come as a list, or as a text whose characters are the
items. They are put in order without repetitions and have to lie between 0 and 8.
-/

namespace CellShader

namespace Value

/-- The items of a list, the characters of a text or the bytes that there are; a block has none. -/
def items : Value → Except BuildFault (List Value)
  | list vs => .ok vs
  | text s | machineText s => .ok (s.toList.map (fun c => text (String.singleton c)))
  | machineBytes s zeros =>
    .ok (s.toList.map (fun c => integer c.toNat) ++ List.replicate zeros (integer 0))
  | machineBlock _ => .ok []
  | v => .error (.notIterable v)

/-- The values that do not count as one with an earlier one, put after those in `kept`.  Lists and
spans of time cannot be told apart this way. -/
def distinctFrom (kept : List Value) : List Value → Except BuildFault (List Value)
  | [] => .ok kept
  | v :: vs =>
    match v.keyFault? with
    | some fault => .error fault
    | none =>
      if kept.any v.coincides then distinctFrom kept vs else distinctFrom (kept ++ [v]) vs

/-- A value put into a list in order, behind what is not greater. -/
def insertSorted (v : Value) : List Value → Except BuildFault (List Value)
  | [] => .ok [v]
  | w :: ws => do
    if ← v.less w then return v :: w :: ws
    let rest ← insertSorted v ws
    return w :: rest

/-- Values put in order. -/
def sort (vs : List Value) : Except BuildFault (List Value) :=
  vs.foldlM (fun sorted v => insertSorted v sorted) []

/-- Pass a count between 0 and 8. -/
def checkCount (half : Half) (v : Value) : Except BuildFault Unit := do
  if ← v.less (integer 0) then throw (.countOutOfRange half v)
  if ← (integer maxNeighbors).less v then throw (.countOutOfRange half v)

/-- The counts of one half of a rule: in order, each once, and all between 0 and 8. -/
def counts (half : Half) (v : Value) : Except BuildFault (List Value) := do
  let vs ← v.items
  let vs ← distinctFrom [] vs
  let vs ← sort vs
  vs.forM (checkCount half)
  return vs

end Value

/-- The test that the number of live neighbours is among the given counts. -/
def Expr.ofCounts (vs : List Value) : Except BuildFault Expr :=
  (vs.mapM Value.asWord).map Expr.countIn

/-- The life-like rule with the given counts for birth and survival. -/
def Statement.ofCounts (birth survival : Value) : Except BuildFault Statement := do
  let b ← birth.counts .birth
  let s ← survival.counts .survival
  let stay ← Expr.ofCounts s
  let start ← Expr.ofCounts b
  return .ifThenElse .alive (.setResult stay) (.setResult start)

end CellShader
