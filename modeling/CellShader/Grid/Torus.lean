import CellShader.Grid.Field

/-!
# Automata on a torus

A grid of cells wraps around at its edges.  The live neighbours of all cells are counted at once, by
adding up the eight copies of the grid that are shifted by one cell along the rows, the columns or
both.  One generation runs a rule with these counts.
-/

namespace CellShader

/-- A list shifted by `k` places towards its end, what falls off coming in at the front. -/
def roll {α : Type} (k : Int) (xs : List α) : List α :=
  let n := ((-k) % (xs.length : Int)).toNat
  xs.drop n ++ xs.take n

theorem length_roll {α : Type} (k : Int) (xs : List α) : (roll k xs).length = xs.length := by
  simp only [roll, List.length_append, List.length_drop, List.length_take]
  omega

theorem mem_roll {α : Type} {k : Int} {xs : List α} {x : α} : x ∈ roll k xs ↔ x ∈ xs := by
  unfold roll
  rw [List.mem_append, or_comm, ← List.mem_append, List.take_append_drop]

/-- Rows of cells, all of one width. -/
structure Grid where
  width : Nat
  rows : List (List UInt32)
  width_eq : ∀ row ∈ rows, row.length = width

namespace Grid

/-- The number of rows. -/
def height (g : Grid) : Nat := g.rows.length

/-- The grid shifted by `dy` rows down and `dx` columns to the right, around its edges. -/
def shift (g : Grid) (dy dx : Int) : Grid where
  width := g.width
  rows := (roll dy g.rows).map (roll dx)
  width_eq := by
    intro row h
    obtain ⟨r, hr, rfl⟩ := List.mem_map.1 h
    rw [length_roll]
    exact g.width_eq r (mem_roll.1 hr)

/-- Two grids combined cell by cell where they overlap. -/
def zipWith (f : UInt32 → UInt32 → UInt32) (a b : Grid) : Grid where
  width := min a.width b.width
  rows := List.zipWith (List.zipWith f) a.rows b.rows
  width_eq := by
    intro row h
    obtain ⟨i, hi, rfl⟩ := List.mem_iff_getElem.1 h
    simp only [List.length_zipWith] at hi
    rw [List.getElem_zipWith, List.length_zipWith, a.width_eq _ (List.getElem_mem ..),
      b.width_eq _ (List.getElem_mem ..)]

/-- The grid with `f` applied to every cell. -/
def map (f : UInt32 → UInt32) (g : Grid) : Grid where
  width := g.width
  rows := g.rows.map (List.map f)
  width_eq := by
    intro row h
    obtain ⟨r, hr, rfl⟩ := List.mem_map.1 h
    rw [List.length_map]
    exact g.width_eq r hr

/-- The offsets of the eight neighbours of a cell. -/
def offsets : List (Int × Int) :=
  [(-1, -1), (-1, 0), (-1, 1), (0, -1), (0, 1), (1, -1), (1, 0), (1, 1)]

/-- The word for whether a cell is alive. -/
def mark (x : UInt32) : UInt32 := if x ≠ 0 then 1 else 0

/-- The number of live neighbours of every cell. -/
def countNeighbors (g : Grid) : Grid :=
  let live := g.map mark
  offsets.foldl (fun sum d => sum.zipWith (· + ·) (live.shift d.1 d.2)) (live.map (fun _ => 0))

/-- The next generation: a cell is alive in it when the rule leaves a result other than 0. -/
def step (g : Grid) (s : Statement) : Grid :=
  let live := g.map mark
  let counts := g.countNeighbors
  { width := g.width
    rows := List.zipWith (fun isAlive numNeighbors => (s.outcomes isAlive numNeighbors).map mark)
      live.rows counts.rows
    width_eq := by
      intro row h
      obtain ⟨i, hi, rfl⟩ := List.mem_iff_getElem.1 h
      simp only [List.length_zipWith] at hi
      rw [List.getElem_zipWith, List.length_map, Statement.length_outcomes]
      exact live.width_eq _ (List.getElem_mem ..) }

/-- The generations after the given one, as many as asked for. -/
def generations (s : Statement) : Nat → Grid → List Grid
  | 0, _ => []
  | n + 1, g => g.step s :: generations s n (g.step s)

end Grid

end CellShader
