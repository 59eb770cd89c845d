import CellShader.Proofs.Grid.NeighborCounts

/-!
# How far cells act

Two places of a ring are as far apart as the fewest steps that lead from one to the other
(`ringDistance_le_iff`), and cells of a torus as far as their rows or their columns, whichever are
farther.  What becomes of a cell depends on itself and the cells one step away, so that cells which
agree within `k + 1` steps of a cell agree within `k` steps of it one generation later
(`Cells.AgreeWithin.next`).  What acts on a cell thus comes nearer by one step in each generation
(`Cells.AgreeWithin.iterate`).
-/

namespace CellShader

open Number

variable {n h w k : Nat}

/-! ## Distances -/

/-- How far two places of a ring lie apart, going around it the shorter way. -/
def ringDistance (i j : Fin n) : Nat :=
  min ((i.val : Int) - j.val).natAbs (n - ((i.val : Int) - j.val).natAbs)

/-- How far two cells of a torus lie apart, a step leading along the rows, the columns or both. -/
def torusDistance (p q : Fin h × Fin w) : Nat := max (ringDistance p.1 q.1) (ringDistance p.2 q.2)

theorem wrap_eq_iff {i j : Fin n} {d : Int} :
    wrap i d = j ↔ ∃ turns : Int, (i.val : Int) + d = j.val + n * turns := by
  have hj := j.isLt
  constructor
  · rintro rfl
    refine ⟨(i.val + d) / n, ?_⟩
    show (i.val : Int) + d = (((i.val + d) % (n : Int)).toNat : Int) + n * ((i.val + d) / n)
    rw [Int.toNat_of_nonneg (Int.emod_nonneg _ (by omega)), Int.emod_add_mul_ediv]
  · rintro ⟨turns, hturns⟩
    apply Fin.ext
    show ((i.val + d) % (n : Int)).toNat = j.val
    rw [hturns, Int.add_mul_emod_self_left, Int.emod_eq_of_lt (by omega) (by omega),
      Int.toNat_natCast]

/-- Places are at most so far apart as there are steps that lead from one to the other. -/
theorem ringDistance_le_iff {i j : Fin n} :
    ringDistance i j ≤ k ↔ ∃ d : Int, d.natAbs ≤ k ∧ wrap i d = j := by
  have hi := i.isLt
  have hj := j.isLt
  simp only [ringDistance, min_le_iff, wrap_eq_iff]
  constructor
  · rintro (hk | hk)
    · exact ⟨j.val - i.val, by omega, 0, by omega⟩
    · -- the shorter way leads over the edge
      rcases Nat.le_total i.val j.val with hij | hij
      · exact ⟨j.val - i.val - n, by omega, -1, by omega⟩
      · exact ⟨j.val - i.val + n, by omega, 1, by omega⟩
  · rintro ⟨d, hd, turns, hturns⟩
    rcases Int.lt_trichotomy turns 0 with hneg | rfl | hpos
    · have hle : (n : Int) * turns ≤ n * (-1) := Int.mul_le_mul_of_nonneg_left (by omega) (by omega)
      omega
    · omega
    · have hle : (n : Int) * 1 ≤ n * turns := Int.mul_le_mul_of_nonneg_left (by omega) (by omega)
      omega

theorem ringDistance_wrap_le (i j : Fin n) {d : Int} (hd : d.natAbs ≤ 1) :
    ringDistance i (wrap j d) ≤ ringDistance i j + 1 := by
  obtain ⟨e, he, rfl⟩ := ringDistance_le_iff.1 (Nat.le_refl (ringDistance i j))
  refine ringDistance_le_iff.2 ⟨e + d, ?_, (wrap_wrap i e d).symm⟩
  exact (Int.natAbs_add_le e d).trans (Nat.add_le_add he hd)

theorem torusDistance_wrap_le (p : Fin h × Fin w) (y : Fin h) (x : Fin w) {d : Int × Int}
    (hd : d ∈ Cells.directions) :
    torusDistance p (wrap y d.1, wrap x d.2) ≤ torusDistance p (y, x) + 1 := by
  have hshort : ∀ d ∈ Cells.directions, d.1.natAbs ≤ 1 ∧ d.2.natAbs ≤ 1 := by decide
  have hrow := ringDistance_wrap_le p.1 y (hshort d hd).1
  have hcolumn := ringDistance_wrap_le p.2 x (hshort d hd).2
  simp only [torusDistance]
  omega

/-! ## One generation and many -/

namespace Cells

/-- Whether the same cells are alive within some distance of a cell. -/
def AgreeWithin (k : Nat) (p : Fin h × Fin w) (c c' : Cells h w) : Prop :=
  ∀ y x, torusDistance p (y, x) ≤ k → c y x = c' y x

namespace AgreeWithin

variable {p : Fin h × Fin w} {c c' : Cells h w}

theorem next (hagree : AgreeWithin (k + 1) p c c') (s : Statement) :
    AgreeWithin k p (c.next s) (c'.next s) := by
  intro y x hnear
  have hcell : c y x = c' y x := hagree y x (by omega)
  have haround : c.liveAround y x = c'.liveAround y x := by
    refine List.countP_congr fun d hd => ?_
    have hstep := torusDistance_wrap_le p y x hd
    rw [hagree (wrap y d.1) (wrap x d.2) (by omega)]
  rw [Cells.next, Cells.next, hcell, haround]

theorem iterate (s : Statement) (count : Nat) (hagree : AgreeWithin (k + count) p c c') :
    AgreeWithin k p ((Cells.next s)^[count] c) ((Cells.next s)^[count] c') := by
  induction count generalizing c c' with
  | zero => exact hagree
  | succ count ih =>
    rw [Function.iterate_succ_apply, Function.iterate_succ_apply]
    exact ih (hagree.next s)

end AgreeWithin

end Cells

/-! ## Grids after some generations -/

namespace Grid

/-- The word in a row and a column. -/
def cell? (g : Grid) (y x : Nat) : Option UInt32 := g.rows[y]?.bind fun row => row[x]?

/-- The grid some generations later. -/
def after (s : Statement) (count : Nat) (g : Grid) : Grid := (fun g => g.step s)^[count] g

theorem cell?_grid (c : Cells h w) (y : Fin h) (x : Fin w) :
    c.grid.cell? y x = some (if c y x then 1 else 0) := by
  simp [cell?, Cells.grid, ofFn]

theorem after_grid (s : Statement) (count : Nat) (c : Cells h w) :
    c.grid.after s count = ((Cells.next s)^[count] c).grid :=
  (Function.Semiconj.iterate_right (fun c => (c.step_grid s).symm) count).eq c |>.symm

theorem generations_eq_map_after (s : Statement) (count : Nat) (g : Grid) :
    g.generations s count = (List.range count).map fun n => g.after s (n + 1) := by
  induction count generalizing g with
  | zero => rfl
  | succ count ih =>
    rw [generations, ih, List.range_succ_eq_map, List.map_cons, List.map_map]
    rfl

end Grid

namespace Value

theorem generations_of_shape {cells : Numbers} {a : NumberArray} (ha : cells.toArray = .ok a)
    (hshape : a.shape = [h, w]) (s : Statement) (count : Nat) :
    (rule (.statement s)).generations count cells = .ok ((List.range count).map fun n =>
      (Cells.grid fun y x => (a.entry hshape y x).isNonzero).after s (n + 1)) := by
  rw [← Grid.generations_eq_map_after]
  exact generations_of_toArray (ha.trans (congrArg _ (a.eq_ofFn_entry hshape))) s count

/-- Of two arrays of one height and width, grids are made with 1 for each element other than zero,
and the generations that are asked for are these grids one, two and more generations later.  If the
arrays have elements other than zero in the same places within a distance of `n` from a cell, around
the edges, then after `n` generations the two grids have the same word in that cell. -/
theorem generations_of_agreeWithin {cells cells' : Numbers} {a a' : NumberArray}
    (ha : cells.toArray = .ok a) (ha' : cells'.toArray = .ok a') (hshape : a.shape = [h, w])
    (hshape' : a'.shape = [h, w]) (s : Statement) :
    ∃ g g' : Grid, cells.toGrid = .ok g ∧ cells'.toGrid = .ok g' ∧
      (∀ count,
        (rule (.statement s)).generations count cells =
            .ok ((List.range count).map fun n => g.after s (n + 1)) ∧
          (rule (.statement s)).generations count cells' =
            .ok ((List.range count).map fun n => g'.after s (n + 1))) ∧
      ∀ (n : Nat) (y : Fin h) (x : Fin w),
        (∀ y' x', torusDistance (y, x) (y', x') ≤ n →
          (a.entry hshape y' x').isNonzero = (a'.entry hshape' y' x').isNonzero) →
        ∃ word, (g.after s n).cell? y x = some word ∧ (g'.after s n).cell? y x = some word := by
  refine ⟨_, _, Numbers.toGrid_of_shape ha hshape, Numbers.toGrid_of_shape ha' hshape',
    fun count => ⟨generations_of_shape ha hshape s count, generations_of_shape ha' hshape' s count⟩,
    fun n y x hagree => ?_⟩
  have hfirst : Cells.AgreeWithin (0 + n) (y, x) (fun y x => (a.entry hshape y x).isNonzero)
      fun y x => (a'.entry hshape' y x).isNonzero := by
    rw [Nat.zero_add]
    exact hagree
  have hself : torusDistance (y, x) (y, x) ≤ 0 := by simp [torusDistance, ringDistance]
  have hlast := hfirst.iterate s n y x hself
  rw [Grid.after_grid, Grid.after_grid, Grid.cell?_grid, Grid.cell?_grid, hlast]
  exact ⟨_, rfl, rfl⟩

end Value

/-- A row of seven truth values, the first one true, and the one three places further on as said. -/
def NumberArray.row (far : Bool) : NumberArray where
  elementType := .truth
  shape := [1, 7]
  elements := [true, false, false, far, false, false, false].map fun b => .number (.truth b)
  size_eq := rfl

/-- What differs three places away does not act on a cell within two generations. -/
theorem Value.generations_of_agreeWithin_row :
    (Numbers.array (.row false)).toArray = .ok (.row false) ∧
      (Numbers.array (.row true)).toArray = .ok (.row true) ∧
      (NumberArray.row false).shape = [1, 7] ∧ (NumberArray.row true).shape = [1, 7] ∧
      (∀ (y : Fin 1) (x : Fin 7), torusDistance (0, 0) (y, x) ≤ 2 →
        ((NumberArray.row false).entry rfl y x).isNonzero =
          ((NumberArray.row true).entry rfl y x).isNonzero) ∧
      ∃ g g' : Grid, (Numbers.array (.row false)).toGrid = .ok g ∧
        (Numbers.array (.row true)).toGrid = .ok g' ∧ g ≠ g' ∧
          ∃ word, (g.after .conway 2).cell? 0 0 = some word ∧
            (g'.after .conway 2).cell? 0 0 = some word := by
  have hagree : ∀ (y : Fin 1) (x : Fin 7), torusDistance (0, 0) (y, x) ≤ 2 →
      ((NumberArray.row false).entry rfl y x).isNonzero =
        ((NumberArray.row true).entry rfl y x).isNonzero := by decide
  have harray : ∀ far, (Numbers.array (.row far)).toArray = .ok (.row far) := fun _ => rfl
  have hshape : ∀ far, (NumberArray.row far).shape = [1, 7] := fun _ => rfl
  obtain ⟨g, g', hg, hg', -, hword⟩ := generations_of_agreeWithin (harray false) (harray true)
    (hshape false) (hshape true) .conway
  refine ⟨harray false, harray true, hshape false, hshape true, hagree, g, g', hg, hg', ?_,
    hword 2 0 0 hagree⟩
  rintro rfl
  have hsame := congrArg (fun g => g.toOption.map Grid.rows) (hg.trans hg'.symm)
  revert hsame
  decide

end CellShader
