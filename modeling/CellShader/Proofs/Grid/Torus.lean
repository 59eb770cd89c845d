import CellShader.Proofs.Grid.CellByCell
import CellShader.Rule.LifeLike
import Mathlib.Data.List.OfFn
import Mathlib.Data.List.Rotate

/-!
# Cells on a torus

A grid is a table of cells with rows and columns counted around (`wrap`).  Shifted copies of it read
the table at other places (`Grid.shift_ofFn`), so that adding the eight of them up counts the live
cells around each (`Cells.countNeighbors_grid`).  One generation then is `Cells.next`
(`Cells.step_grid`), and the generations are what comes of going on with it
(`Cells.generations_grid`).
-/

namespace CellShader

variable {α : Type} {n h w : Nat}

/-! ## Around the edges -/

theorem toNat_emod_lt (i : Fin n) (d : Int) : ((i.val + d) % n).toNat < n := by
  have hn : (0 : Int) < n := by
    have := i.isLt
    omega
  have hnonneg := Int.emod_nonneg (i.val + d) (Int.ne_of_gt hn)
  have hlt := Int.emod_lt_of_pos (i.val + d) hn
  omega

/-- The place that lies `d` further on around a ring. -/
def wrap (i : Fin n) (d : Int) : Fin n := ⟨((i.val + d) % n).toNat, toNat_emod_lt i d⟩

/-- A shifted list is read as many places back around the ring. -/
theorem roll_ofFn (k : Int) (f : Fin n → α) :
    roll k (List.ofFn f) = List.ofFn fun i => f (wrap i (-k)) := by
  apply List.ext_getElem
  · rw [length_roll, List.length_ofFn, List.length_ofFn]
  · intro i hi hi'
    rw [List.length_ofFn] at hi'
    have hn : (0 : Int) < n := by omega
    have hnonneg := Int.emod_nonneg (-k) (Int.ne_of_gt hn)
    have hlt := Int.emod_lt_of_pos (-k) hn
    have hrotate : roll k (List.ofFn f) = (List.ofFn f).rotate ((-k) % (n : Int)).toNat := by
      rw [List.rotate_eq_drop_append_take (by rw [List.length_ofFn]; omega), roll, List.length_ofFn]
    simp only [hrotate, List.getElem_rotate, List.getElem_ofFn, List.length_ofFn]
    congr 1
    apply Fin.ext
    show (i + ((-k) % (n : Int)).toNat) % n = ((i + -k) % (n : Int)).toNat
    rw [← Int.toNat_natCast ((i + ((-k) % (n : Int)).toNat) % n), Int.natCast_emod,
      Int.natCast_add, Int.toNat_of_nonneg hnonneg, Int.add_emod_emod]

/-! ## Tables of words -/

namespace Grid

theorem eq_of_rows {a b : Grid} (hwidth : a.width = b.width) (hrows : a.rows = b.rows) : a = b := by
  cases a
  cases b
  simp only [Grid.mk.injEq]
  exact ⟨hwidth, hrows⟩

/-- The grid with the given table of words. -/
def ofFn (f : Fin h → Fin w → UInt32) : Grid where
  width := w
  rows := List.ofFn fun y => List.ofFn (f y)
  width_eq := by
    intro row hrow
    obtain ⟨y, rfl⟩ := List.mem_ofFn.1 hrow
    exact List.length_ofFn

variable (f g : Fin h → Fin w → UInt32)

theorem shift_ofFn (dy dx : Int) :
    (ofFn f).shift dy dx = ofFn fun y x => f (wrap y (-dy)) (wrap x (-dx)) := by
  refine eq_of_rows rfl ?_
  show (roll dy (List.ofFn fun y => List.ofFn (f y))).map (roll dx) = _
  rw [roll_ofFn, List.map_ofFn]
  exact congrArg List.ofFn (funext fun y => roll_ofFn dx _)

theorem map_ofFn (u : UInt32 → UInt32) : (ofFn f).map u = ofFn fun y x => u (f y x) := by
  refine eq_of_rows rfl ?_
  show (List.ofFn fun y => List.ofFn (f y)).map (List.map u) = _
  rw [List.map_ofFn]
  exact congrArg List.ofFn (funext fun y => List.map_ofFn)

theorem zipWith_ofFn (u : UInt32 → UInt32 → UInt32) :
    (ofFn f).zipWith u (ofFn g) = ofFn fun y x => u (f y x) (g y x) := by
  apply eq_of_rows (Nat.min_self w)
  apply List.ext_getElem
  · simp [Grid.zipWith, ofFn]
  · intro y hy hy'
    simp only [Grid.zipWith, ofFn, List.getElem_zipWith, List.getElem_ofFn]
    apply List.ext_getElem <;> simp

/-- Shifted copies added up word by word. -/
theorem foldl_shift_ofFn (ds : List (Int × Int)) :
    ds.foldl (fun sum d => sum.zipWith (· + ·) ((ofFn f).shift d.1 d.2)) (ofFn g) =
      ofFn fun y x =>
        ds.foldl (fun sum d => sum + f (wrap y (-d.1)) (wrap x (-d.2))) (g y x) := by
  induction ds generalizing g with
  | nil => rfl
  | cons d ds ih =>
    rw [List.foldl_cons, shift_ofFn, zipWith_ofFn, ih]
    rfl

end Grid

theorem Statement.outcomes_ofFn (s : Statement) (a m : Fin n → UInt32) :
    s.outcomes (List.ofFn a) (List.ofFn m) = List.ofFn fun i => s.outcome (a i) (m i) := by
  rw [outcomes, List.length_ofFn, ← List.ofFn_const, ← List.ofFn_const, onCells_ofFn]
  rfl

/-! ## Cells -/

/-- Which cells of a torus are alive. -/
abbrev Cells (h w : Nat) : Type := Fin h → Fin w → Bool

namespace Cells

/-- The steps from a cell to those around it: up to one along the rows and up to one along the
columns, but not none along both. -/
def directions : List (Int × Int) :=
  [-1, 0, 1].flatMap fun dy =>
    ([-1, 0, 1].filter fun dx => dy ≠ 0 ∨ dx ≠ 0).map fun dx => (dy, dx)

theorem length_directions : directions.length = maxNeighbors := by decide

/-- How many of the steps from a cell lead to a live one.  On a narrow torus several of them may
lead to the same cell, or back to the cell itself. -/
def liveAround (c : Cells h w) (y : Fin h) (x : Fin w) : Nat :=
  directions.countP fun d => c (wrap y d.1) (wrap x d.2)

/-- The cells as a grid, 1 for each live cell. -/
def grid (c : Cells h w) : Grid := .ofFn fun y x => if c y x then 1 else 0

/-- The cells in which a statement leaves a result other than 0. -/
def next (s : Statement) (c : Cells h w) : Cells h w := fun y x =>
  s.outcome (if c y x then 1 else 0) (UInt32.ofNat (c.liveAround y x)) != 0

variable (c : Cells h w) (s : Statement)

theorem liveAround_le (y : Fin h) (x : Fin w) : c.liveAround y x ≤ maxNeighbors := by
  rw [← length_directions]
  exact List.countP_le_length

theorem toNat_liveAround (y : Fin h) (x : Fin w) :
    (UInt32.ofNat (c.liveAround y x)).toNat = c.liveAround y x :=
  UInt32.toNat_ofNat_of_lt' (Nat.lt_of_le_of_lt (c.liveAround_le y x) (by decide))

theorem foldl_count {β : Type} (p : β → Bool) (ds : List β) (sum : UInt32) :
    ds.foldl (fun sum d => sum + if p d then 1 else 0) sum =
      sum + UInt32.ofNat (ds.countP p) := by
  induction ds generalizing sum with
  | nil => simp
  | cons d ds ih =>
    rw [List.foldl_cons, ih, List.countP_cons]
    cases p d <;> simp [UInt32.ofNat_add, UInt32.add_assoc, UInt32.add_comm]

theorem map_mark_grid : c.grid.map Grid.mark = c.grid := by
  rw [grid, Grid.map_ofFn]
  congr 1
  funext y x
  cases c y x <;> rfl

/-- The steps back from a cell are the steps from it in the opposite order. -/
theorem countP_back (p : Int × Int → Bool) :
    Grid.offsets.countP (fun d => p (-d.1, -d.2)) = directions.countP p := by
  have hback : directions = (Grid.offsets.map fun d => (-d.1, -d.2)).reverse := by decide
  rw [hback, List.countP_reverse, List.countP_map]
  rfl

theorem countNeighbors_grid :
    c.grid.countNeighbors = .ofFn fun y x => UInt32.ofNat (c.liveAround y x) := by
  unfold Grid.countNeighbors
  dsimp only
  rw [map_mark_grid, grid, Grid.map_ofFn, Grid.foldl_shift_ofFn]
  congr 1
  funext y x
  rw [foldl_count, UInt32.zero_add, countP_back fun d => c (wrap y d.1) (wrap x d.2)]
  rfl

theorem step_grid : c.grid.step s = (c.next s).grid := by
  refine Grid.eq_of_rows rfl ?_
  unfold Grid.step
  simp only [map_mark_grid, countNeighbors_grid]
  apply List.ext_getElem
  · simp [grid, Grid.ofFn]
  · intro y hy hy'
    simp only [grid, Grid.ofFn, List.getElem_zipWith, List.getElem_ofFn, Statement.outcomes_ofFn,
      List.map_ofFn]
    congr 1
    funext x
    simp [Grid.mark, next]

/-- The generations of a grid of cells. -/
theorem generations_grid (count : Nat) :
    c.grid.generations s count = (List.range count).map fun n => ((next s)^[n + 1] c).grid := by
  induction count generalizing c with
  | zero => rfl
  | succ count ih =>
    rw [Grid.generations, step_grid, ih, List.range_succ_eq_map, List.map_cons, List.map_map]
    rfl

end Cells

end CellShader
