import CellShader.Proofs.Grid.Integers
import Mathlib.Data.List.OfFn
import Mathlib.Logic.Function.Iterate

/-!
# Symmetries of the torus

Shifting a torus, turning it over along its rows or columns, and exchanging rows and columns are
ways to read its cells at other places, by which the eight steps from a cell become the eight steps
from another one (`IsSymmetry`).  The number of live cells around a cell is then that around the
cell where it is read (`Cells.liveAround_moved`), and so are the next generation and all others
(`Cells.iterate_next_moved`).
-/

namespace CellShader

open Number

variable {α : Type} {n h w h' w' : Nat}

/-! ## Around the edges -/

theorem wrap_wrap (i : Fin n) (d e : Int) : wrap (wrap i d) e = wrap i (d + e) := by
  apply Fin.ext
  have hn : (n : Int) ≠ 0 := by
    have := i.isLt
    omega
  show ((((i.val + d) % n).toNat + e) % (n : Int)).toNat = ((i.val + (d + e)) % (n : Int)).toNat
  rw [Int.toNat_of_nonneg (Int.emod_nonneg _ hn), Int.emod_add_emod, Int.add_assoc]

theorem wrap_comm (i : Fin n) (d e : Int) : wrap (wrap i d) e = wrap (wrap i e) d := by
  rw [wrap_wrap, wrap_wrap, Int.add_comm]

/-- Seen from the other end, one goes around a ring the other way. -/
theorem rev_wrap (i : Fin n) (d : Int) : (wrap i d).rev = wrap i.rev (-d) := by
  apply Fin.ext
  have hi := i.isLt
  have hn : (0 : Int) < n := by omega
  have hnonneg := Int.emod_nonneg (i.val + d) (Int.ne_of_gt hn)
  have hlt := Int.emod_lt_of_pos (i.val + d) hn
  have hdiv := Int.emod_add_mul_ediv (i.val + d) n
  have hsum : (i.rev.val : Int) + -d =
      (n - 1 - (i.val + d) % n) + n * -((i.val + d) / n) := by
    rw [Fin.val_rev, Int.mul_neg]
    omega
  have hrev : ((i.rev.val : Int) + -d) % n = n - 1 - (i.val + d) % n := by
    rw [hsum, Int.add_mul_emod_self_left, Int.emod_eq_of_lt (by omega) (by omega)]
  show n - (((i.val + d) % (n : Int)).toNat + 1) = (((i.rev.val : Int) + -d) % (n : Int)).toNat
  rw [hrev]
  omega

theorem reverse_ofFn (f : Fin n → α) : (List.ofFn f).reverse = List.ofFn fun i => f i.rev := by
  apply List.ext_getElem
  · simp
  · intro i hi hi'
    simp only [List.getElem_reverse, List.getElem_ofFn, List.length_ofFn]
    congr 1
    apply Fin.ext
    rw [Fin.val_rev]
    show n - 1 - i = n - (i + 1)
    omega

/-! ## Grids turned over -/

namespace Grid

/-- The grid with its rows in the opposite order. -/
def flipRows (g : Grid) : Grid where
  width := g.width
  rows := g.rows.reverse
  width_eq := fun row hrow => g.width_eq row (List.mem_reverse.1 hrow)

/-- The grid with its columns in the opposite order. -/
def flipColumns (g : Grid) : Grid where
  width := g.width
  rows := g.rows.map List.reverse
  width_eq := by
    intro row hrow
    obtain ⟨r, hr, rfl⟩ := List.mem_map.1 hrow
    rw [List.length_reverse, g.width_eq r hr]

/-- The grid with its columns for rows. -/
def transpose (g : Grid) : Grid where
  width := g.height
  rows := List.ofFn fun x : Fin g.width => g.rows.map fun row => row.getD x 0
  width_eq := by
    intro row hrow
    obtain ⟨x, rfl⟩ := List.mem_ofFn.1 hrow
    exact List.length_map _

variable (f : Fin h → Fin w → UInt32)

theorem flipRows_ofFn : (ofFn f).flipRows = ofFn fun y x => f y.rev x :=
  eq_of_rows rfl (reverse_ofFn _)

theorem flipColumns_ofFn : (ofFn f).flipColumns = ofFn fun y x => f y x.rev := by
  refine eq_of_rows rfl ?_
  show (List.ofFn fun y => List.ofFn (f y)).map List.reverse = _
  rw [List.map_ofFn]
  exact congrArg List.ofFn (funext fun y => reverse_ofFn (f y))

theorem transpose_ofFn : (ofFn f).transpose = ofFn fun x y => f y x := by
  refine eq_of_rows List.length_ofFn ?_
  show (List.ofFn fun x : Fin w =>
    (List.ofFn fun y => List.ofFn (f y)).map fun row => row.getD x 0) = _
  refine congrArg List.ofFn (funext fun x => ?_)
  rw [List.map_ofFn]
  refine congrArg List.ofFn (funext fun y => ?_)
  simp

end Grid

/-! ## Symmetries -/

/-- Whether reading the cells of a torus at other places turns the steps from a cell into the steps
from the place where it is read, each of them into the step that `turn` makes of it. -/
structure IsSymmetry (place : Fin h' → Fin w' → Fin h × Fin w) (turn : Int × Int → Int × Int) :
    Prop where
  directions_perm : (Cells.directions.map turn).Perm Cells.directions
  place_wrap : ∀ y x d, place (wrap y d.1) (wrap x d.2) =
    (wrap (place y x).1 (turn d).1, wrap (place y x).2 (turn d).2)

theorem isSymmetry_shift (dy dx : Int) :
    IsSymmetry (fun (y : Fin h) (x : Fin w) => (wrap y dy, wrap x dx)) id where
  directions_perm := by rw [List.map_id]
  place_wrap := fun y x d => by rw [wrap_comm y, wrap_comm x, id]

theorem isSymmetry_flipRows :
    IsSymmetry (fun (y : Fin h) (x : Fin w) => (y.rev, x)) fun d => (-d.1, d.2) where
  directions_perm := by decide
  place_wrap := fun y x d => by rw [rev_wrap]

theorem isSymmetry_flipColumns :
    IsSymmetry (fun (y : Fin h) (x : Fin w) => (y, x.rev)) fun d => (d.1, -d.2) where
  directions_perm := by decide
  place_wrap := fun y x d => by rw [rev_wrap]

theorem isSymmetry_transpose :
    IsSymmetry (fun (x : Fin w) (y : Fin h) => (y, x)) Prod.swap where
  directions_perm := by decide
  place_wrap := fun _ _ _ => rfl

namespace Cells

/-- The cells that are read at other places of a torus. -/
def moved (place : Fin h' → Fin w' → Fin h × Fin w) (c : Cells h w) : Cells h' w' := fun y x =>
  c (place y x).1 (place y x).2

section Symmetry

variable {place : Fin h' → Fin w' → Fin h × Fin w} {turn : Int × Int → Int × Int}
  (hplace : IsSymmetry place turn)

include hplace

theorem liveAround_moved (c : Cells h w) (y : Fin h') (x : Fin w') :
    (c.moved place).liveAround y x = c.liveAround (place y x).1 (place y x).2 := by
  have hturned : (c.moved place).liveAround y x = (directions.map turn).countP fun d =>
      c (wrap (place y x).1 d.1) (wrap (place y x).2 d.2) := by
    rw [List.countP_map, liveAround]
    refine List.countP_congr fun d _ => ?_
    rw [moved, hplace.place_wrap y x d]
    rfl
  rw [hturned, hplace.directions_perm.countP_eq]
  rfl

theorem next_moved (s : Statement) (c : Cells h w) :
    (c.moved place).next s = (c.next s).moved place := by
  funext y x
  rw [next, liveAround_moved hplace]
  rfl

theorem iterate_next_moved (s : Statement) (count : Nat) (c : Cells h w) :
    (next s)^[count] (c.moved place) = ((next s)^[count] c).moved place :=
  (Function.Semiconj.iterate_right (fun c => (next_moved hplace s c).symm) count).eq c |>.symm

/-- The generations of cells that are read at other places are the generations of the cells, moved
in the same way. -/
theorem generations_moved {move : Grid → Grid}
    (hmove : ∀ c : Cells h w, move c.grid = (c.moved place).grid) (s : Statement) (count : Nat)
    (c : Cells h w) :
    (c.moved place).grid.generations s count = (c.grid.generations s count).map move := by
  rw [generations_grid, generations_grid, List.map_map]
  refine List.map_congr_left fun k _ => ?_
  rw [iterate_next_moved hplace, Function.comp_apply, hmove]

end Symmetry

end Cells

/-! ## Tables of numbers of any kind -/

namespace NumberArray

/-- The array of two dimensions with the given table of elements. -/
def ofFn (t : NumberType) (e : Fin h → Fin w → Element) : NumberArray where
  elementType := t
  shape := [h, w]
  elements := (List.ofFn fun y => List.ofFn (e y)).flatten
  size_eq := by
    rw [List.length_flatten, List.map_ofFn]
    simp [Function.comp_def, List.ofFn_const, boxSize]

theorem toGrid_ofFn (t : NumberType) (e : Fin h → Fin w → Element) :
    (ofFn t e).toGrid = .ok (Cells.grid fun y x => (e y x).isNonzero) := by
  have hcells : (fun y x => (e y x).isNonzero) =
      Cells.ofTable fun y x => if (e y x).isNonzero then 1 else 0 := by
    funext y x
    rw [Cells.ofTable]
    cases (e y x).isNonzero <;> rfl
  rw [hcells]
  refine toGrid_eq _ _ rfl ?_
  show (List.ofFn fun y => List.ofFn (e y)).flatten.map Element.isNonzero = _
  rw [table, List.map_flatten, List.map_flatten, List.map_ofFn, List.map_ofFn]
  refine congrArg _ (congrArg List.ofFn (funext fun y => ?_))
  rw [Function.comp_apply, Function.comp_apply, List.map_ofFn, List.map_ofFn]
  refine congrArg List.ofFn (funext fun x => ?_)
  rw [Function.comp_apply, Function.comp_apply]
  cases (e y x).isNonzero <;> rfl

theorem index_lt_length {a : NumberArray} (hshape : a.shape = [h, w]) (y : Fin h) (x : Fin w) :
    y * w + x < a.elements.length := by
  rw [a.size_eq, hshape]
  show y * w + x < h * (w * 1)
  rw [Nat.mul_one]
  calc y * w + x < y * w + w := Nat.add_lt_add_left x.isLt _
    _ = (y + 1) * w := (Nat.succ_mul _ _).symm
    _ ≤ h * w := Nat.mul_le_mul_right w y.isLt

/-- The element of an array of two dimensions in a row and a column. -/
def entry (a : NumberArray) (hshape : a.shape = [h, w]) (y : Fin h) (x : Fin w) : Element :=
  a.elements.get ⟨y * w + x, index_lt_length hshape y x⟩

/-- An array of two dimensions is given by its table of elements. -/
theorem eq_ofFn_entry (a : NumberArray) (hshape : a.shape = [h, w]) :
    a = ofFn a.elementType (a.entry hshape) := by
  obtain ⟨t, shape, elements, hsize⟩ := a
  obtain rfl : shape = [h, w] := hshape
  have hlength : elements.length = h * w := by rw [hsize, boxSize, boxSize, boxSize, Nat.mul_one]
  simp only [ofFn, mk.injEq, true_and]
  calc elements = List.ofFn elements.get := (List.ofFn_get elements).symm
    _ = List.ofFn fun i : Fin (h * w) => elements.get (i.cast hlength.symm) :=
      List.ofFn_congr hlength _
    _ = _ := List.ofFn_mul _

end NumberArray

namespace Value

theorem generations_of_toArray {cells : Numbers} {t : NumberType} {e : Fin h → Fin w → Element}
    (hcells : cells.toArray = .ok (.ofFn t e)) (s : Statement) (count : Nat) :
    (rule (.statement s)).generations count cells =
      .ok ((Cells.grid fun y x => (e y x).isNonzero).generations s count) := by
  have hgrid : cells.toGrid = .ok (Cells.grid fun y x => (e y x).isNonzero) := by
    rw [Numbers.toGrid, hcells]
    exact NumberArray.toGrid_ofFn t e
  rw [generations]
  split
  · rename_i hcount
    rw [hcount]
    rfl
  · rw [hgrid]

/-- The generations of an array that is read at other places are those of the array, moved in the
same way. -/
theorem generations_ofFn_moved {place : Fin h' → Fin w' → Fin h × Fin w}
    {turn : Int × Int → Int × Int} (hplace : IsSymmetry place turn) {move : Grid → Grid}
    (hmove : ∀ c : Cells h w, move c.grid = (c.moved place).grid) (t : NumberType)
    (e : Fin h → Fin w → Element) (s : Statement) (count : Nat) :
    (rule (.statement s)).generations count
        (.array (.ofFn t fun y x => e (place y x).1 (place y x).2)) =
      .ok (((Cells.grid fun y x => (e y x).isNonzero).generations s count).map move) := by
  rw [generations_of_toArray rfl]
  exact congrArg Except.ok
    (Cells.generations_moved hplace hmove s count fun y x => (e y x).isNonzero)

/-- The generations of a table of numbers of any kind, of any height and width, keep its symmetries:
those of the table shifted around its edges by any numbers of rows and columns, with its rows or its
columns in the opposite order, or with its columns for rows are its own generations, changed in the
same way. -/
theorem generations_symmetries (t : NumberType) (e : Fin h → Fin w → Element) (s : Statement)
    (count : Nat) :
    ∃ gs : List Grid, gs.length = count ∧
      (∀ cells : Numbers, cells.toArray = .ok (.ofFn t e) →
        (rule (.statement s)).generations count cells = .ok gs) ∧
      (∀ dy dx : Int, (rule (.statement s)).generations count
          (.array (.ofFn t fun y x => e (wrap y (-dy)) (wrap x (-dx)))) =
        .ok (gs.map fun g => g.shift dy dx)) ∧
      (rule (.statement s)).generations count (.array (.ofFn t fun y x => e y.rev x)) =
        .ok (gs.map Grid.flipRows) ∧
      (rule (.statement s)).generations count (.array (.ofFn t fun y x => e y x.rev)) =
        .ok (gs.map Grid.flipColumns) ∧
      (rule (.statement s)).generations count (.array (.ofFn t fun x y => e y x)) =
        .ok (gs.map Grid.transpose) := by
  refine ⟨(Cells.grid fun y x => (e y x).isNonzero).generations s count, ?_,
    fun cells hcells => generations_of_toArray hcells s count, fun dy dx => ?_, ?_, ?_, ?_⟩
  · rw [Cells.generations_grid, List.length_map, List.length_range]
  · exact generations_ofFn_moved (isSymmetry_shift (-dy) (-dx))
      (fun c => Grid.shift_ofFn _ dy dx) t e s count
  · exact generations_ofFn_moved isSymmetry_flipRows (fun c => Grid.flipRows_ofFn _) t e s count
  · exact generations_ofFn_moved isSymmetry_flipColumns (fun c => Grid.flipColumns_ofFn _) t e s
      count
  · exact generations_ofFn_moved isSymmetry_transpose (fun c => Grid.transpose_ofFn _) t e s count

end Value

end CellShader
