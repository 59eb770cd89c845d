import CellShader.Proofs.Grid.Symmetry
import Mathlib.Algebra.BigOperators.Fin
import Mathlib.Algebra.BigOperators.Ring.Finset
import Mathlib.Data.Finset.Prod

/-!
# Numbers of neighbours

The number of live cells around a cell is a sum over the eight steps from it
(`Cells.liveAround_eq_sum`).  A step in one direction goes from the cells of a torus to all of its
cells, each once (`wrapEquiv`).  So each live cell is counted once for each direction, and the
numbers add up to eight times that of the live cells (`Cells.sum_liveAround`), however narrow the
torus is.
-/

namespace CellShader

open Number

variable {n h w : Nat}

/-! ## Steps in one direction -/

theorem wrap_zero (i : Fin n) : wrap i 0 = i := by
  apply Fin.ext
  have hi := i.isLt
  show (((i.val : Int) + 0) % (n : Int)).toNat = i.val
  rw [Int.add_zero, Int.emod_eq_of_lt (by omega) (by omega), Int.toNat_natCast]

/-- Going around a ring by a number of places, which going back undoes. -/
def wrapEquiv (n : Nat) (d : Int) : Fin n ≃ Fin n where
  toFun i := wrap i d
  invFun i := wrap i (-d)
  left_inv i := by
    dsimp only
    rw [wrap_wrap, Int.add_right_neg, wrap_zero]
  right_inv i := by
    dsimp only
    rw [wrap_wrap, Int.add_left_neg, wrap_zero]

theorem sum_wrap (f : Fin n → Nat) (d : Int) : ∑ i, f (wrap i d) = ∑ i, f i :=
  (wrapEquiv n d).sum_comp f

/-! ## Sums over the steps -/

theorem countP_eq_sum {α : Type} (p : α → Bool) (xs : List α) :
    xs.countP p = (xs.map fun x => (p x).toNat).sum := by
  induction xs with
  | nil => rfl
  | cons x xs ih =>
    rw [List.countP_cons, List.map_cons, List.sum_cons, ih, Nat.add_comm]
    cases p x <;> rfl

theorem countP_ofFn {α : Type} (p : α → Bool) (f : Fin n → α) :
    (List.ofFn f).countP p = ∑ i, (p (f i)).toNat := by
  rw [countP_eq_sum, List.map_ofFn, List.sum_ofFn]
  rfl

namespace Cells

/-- The offsets of the eight cells around a cell. -/
def around : Finset (Int × Int) := (({-1, 0, 1} : Finset Int) ×ˢ {-1, 0, 1}).erase (0, 0)

theorem toFinset_directions : directions.toFinset = around := by decide

theorem card_around : around.card = maxNeighbors := by decide

variable (c : Cells h w)

theorem liveAround_eq_sum (y : Fin h) (x : Fin w) :
    c.liveAround y x = ∑ d ∈ around, (c (wrap y d.1) (wrap x d.2)).toNat := by
  have hnodup : directions.Nodup := by decide
  rw [liveAround, countP_eq_sum, ← toFinset_directions, List.sum_toFinset _ hnodup]

/-- Seen from all cells, as many cells are alive in one direction as there are live cells. -/
theorem sum_wrap_wrap (d : Int × Int) :
    ∑ y, ∑ x, (c (wrap y d.1) (wrap x d.2)).toNat = ∑ y, ∑ x, (c y x).toNat :=
  calc ∑ y, ∑ x, (c (wrap y d.1) (wrap x d.2)).toNat
      = ∑ y, ∑ x, (c (wrap y d.1) x).toNat :=
        Finset.sum_congr rfl fun y _ => sum_wrap (fun x => (c (wrap y d.1) x).toNat) d.2
    _ = ∑ y, ∑ x, (c y x).toNat := sum_wrap (fun y => ∑ x, (c y x).toNat) d.1

/-- Each live cell is counted once for each of the eight directions. -/
theorem sum_liveAround :
    ∑ y, ∑ x, c.liveAround y x = maxNeighbors * ∑ y, ∑ x, (c y x).toNat :=
  calc ∑ y, ∑ x, c.liveAround y x
      = ∑ y, ∑ x, ∑ d ∈ around, (c (wrap y d.1) (wrap x d.2)).toNat := by
        simp only [liveAround_eq_sum]
    _ = ∑ y, ∑ d ∈ around, ∑ x, (c (wrap y d.1) (wrap x d.2)).toNat :=
        Finset.sum_congr rfl fun _ _ => Finset.sum_comm
    _ = ∑ d ∈ around, ∑ y, ∑ x, (c (wrap y d.1) (wrap x d.2)).toNat := Finset.sum_comm
    _ = maxNeighbors * ∑ y, ∑ x, (c y x).toNat := by
        simp only [sum_wrap_wrap, Finset.sum_const, card_around, smul_eq_mul]

end Cells

/-! ## Arrays of numbers of any kind -/

namespace NumberArray

variable {a : NumberArray} (hshape : a.shape = [h, w])

theorem toGrid_of_shape :
    a.toGrid = .ok (Cells.grid fun y x => (a.entry hshape y x).isNonzero) := by
  conv_lhs => rw [a.eq_ofFn_entry hshape]
  exact toGrid_ofFn a.elementType (a.entry hshape)

theorem countP_elements (p : Element → Bool) :
    a.elements.countP p = ∑ y, ∑ x, (p (a.entry hshape y x)).toNat := by
  conv_lhs => rw [a.eq_ofFn_entry hshape]
  show (List.ofFn fun y => List.ofFn (a.entry hshape y)).flatten.countP p = _
  rw [List.countP_flatten, List.map_ofFn, List.sum_ofFn]
  exact Finset.sum_congr rfl fun y _ => countP_ofFn p (a.entry hshape y)

end NumberArray

namespace Numbers

theorem toGrid_of_shape {cells : Numbers} {a : NumberArray} (ha : cells.toArray = .ok a)
    (hshape : a.shape = [h, w]) :
    cells.toGrid = .ok (Cells.grid fun y x => (a.entry hshape y x).isNonzero) := by
  rw [toGrid, ha]
  exact NumberArray.toGrid_of_shape hshape

/-- The numbers of live neighbours that are counted for an array of two dimensions, be it empty or
narrower than the neighbourhood of a cell: each is the sum over the eight offsets of whether the
element there, around the edges, is other than zero.  It is 8 at most, so that no sum of words
wraps, and all of them add up to eight times the number of such elements. -/
theorem countNeighbors_eq_sum {cells : Numbers} {a : NumberArray} (ha : cells.toArray = .ok a)
    (hshape : a.shape = [h, w]) :
    ∃ counts : Fin h → Fin w → UInt32,
      cells.toGrid.map Grid.countNeighbors = .ok (.ofFn counts) ∧
      (∀ y x, (counts y x).toNat =
        ∑ d ∈ Cells.around, (a.entry hshape (wrap y d.1) (wrap x d.2)).isNonzero.toNat) ∧
      (∀ y x, (counts y x).toNat ≤ 8) ∧
      ∑ y, ∑ x, (counts y x).toNat = 8 * a.elements.countP Element.isNonzero := by
  let live : Cells h w := fun y x => (a.entry hshape y x).isNonzero
  refine ⟨fun y x => UInt32.ofNat (live.liveAround y x), ?_, fun y x => ?_, fun y x => ?_, ?_⟩
  · rw [toGrid_of_shape ha hshape, ← live.countNeighbors_grid]
    rfl
  · rw [live.toNat_liveAround, live.liveAround_eq_sum]
  · rw [live.toNat_liveAround]
    exact live.liveAround_le y x
  · simp only [live.toNat_liveAround]
    rw [live.sum_liveAround, NumberArray.countP_elements hshape]
    rfl

end Numbers

/-- One row of two cells, of which the first is alive. -/
def NumberArray.narrow : NumberArray :=
  ⟨.integer .word, [1, 2], [.number (.integer 3), .number (.integer 0)], rfl⟩

/-- On this torus a live cell is its own neighbour twice and that of the other cell six times. -/
theorem Numbers.countNeighbors_eq_sum_narrow :
    (array .narrow).toArray = .ok .narrow ∧ NumberArray.narrow.shape = [1, 2] ∧
      ∃ counts : Fin 1 → Fin 2 → UInt32,
        (array .narrow).toGrid.map Grid.countNeighbors = .ok (.ofFn counts) ∧
          (counts 0 0).toNat = 2 ∧ (counts 0 1).toNat = 6 ∧ ∑ y, ∑ x, (counts y x).toNat = 8 := by
  have harray : (array .narrow).toArray = .ok .narrow := rfl
  obtain ⟨counts, hcounts, hsum, -, htotal⟩ := countNeighbors_eq_sum (h := 1) (w := 2) harray rfl
  refine ⟨harray, rfl, counts, hcounts, ?_, ?_, ?_⟩
  · rw [hsum]
    decide
  · rw [hsum]
    decide
  · rw [htotal]
    decide

end CellShader
