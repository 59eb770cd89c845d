import CellShader.Grid.Numbers
import CellShader.Proofs.Grid.Torus
import CellShader.Proofs.Number.Rounding

/-!
# Tables of integers

A table of integers comes as an array of its shape, or as nested rows of which an array is made.
Either way the cells are alive in which the integer is other than zero (`IsGivenBy.toGrid`): the
array of the rows may have rounded the integers, but none to zero.
-/

namespace CellShader

open Number

variable {h w : Nat}

/-! ## Nested rows -/

namespace Nested

/-- Rows of integers. -/
def ofRows (rows : List (List Int)) : Nested Numeral :=
  .rows (rows.map fun row => .rows (row.map fun i => .item (.integer i)))

theorem leavesOfAll_items (row : List Int) :
    leavesOfAll (row.map fun i => .item (.integer i)) = row.map Numeral.integer := by
  induction row with
  | nil => rfl
  | cons i row ih =>
    rw [List.map_cons, leavesOfAll, ih]
    rfl

theorem leaves_ofRows (rows : List (List Int)) :
    (ofRows rows).leaves = rows.flatten.map Numeral.integer := by
  rw [ofRows, leaves]
  induction rows with
  | nil => rfl
  | cons row rows ih =>
    rw [List.map_cons, leavesOfAll, ih, leaves, leavesOfAll_items, List.flatten_cons,
      List.map_append]

theorem haveExtents_of_forall {α : Type} {shape : List Nat} {parts : List (Nested α)}
    (hparts : ∀ part ∈ parts, part.extents? = some shape) : haveExtents shape parts = true := by
  induction parts with
  | nil => rfl
  | cons part parts ih =>
    obtain ⟨hpart, hparts⟩ := List.forall_mem_cons.1 hparts
    rw [haveExtents, hpart, ih hparts]
    simp

theorem extents?_rows {α : Type} (shape : List Nat) {parts : List (Nested α)} (hne : parts ≠ [])
    (hparts : ∀ part ∈ parts, part.extents? = some shape) :
    (rows parts).extents? = some (parts.length :: shape) := by
  obtain ⟨part, parts, rfl⟩ := List.exists_cons_of_ne_nil hne
  obtain ⟨hpart, hparts⟩ := List.forall_mem_cons.1 hparts
  rw [extents?, hpart]
  dsimp only
  rw [if_pos (haveExtents_of_forall hparts)]
  rfl

theorem extents?_items (row : List Int) :
    (rows (row.map fun i => .item (Numeral.integer i))).extents? = some [row.length] := by
  cases row with
  | nil => rfl
  | cons i row =>
    rw [extents?_rows [] (by simp) (by simp [extents?]), List.length_map]

theorem box?_ofRows {rows : List (List Int)} (hne : rows ≠ [])
    (hwidth : ∀ row ∈ rows, row.length = w) : (ofRows rows).box? = some [rows.length, w] := by
  have hextents : (ofRows rows).extents? = some [rows.length, w] := by
    rw [ofRows, extents?_rows [w] (by simpa using hne), List.length_map]
    intro part hpart
    obtain ⟨row, hrow, rfl⟩ := List.mem_map.1 hpart
    rw [extents?_items, hwidth row hrow]
  rw [box?, hextents]
  rfl

end Nested

/-! ## Arrays -/

theorem cutRows_flatten {α : Type} {rows : List (List α)} (hheight : rows.length = h)
    (hwidth : ∀ row ∈ rows, row.length = w) : cutRows w h rows.flatten = rows := by
  induction rows generalizing h with
  | nil =>
    subst hheight
    rfl
  | cons row rows ih =>
    subst hheight
    obtain ⟨hrow, hrows⟩ := List.forall_mem_cons.1 hwidth
    rw [List.length_cons, cutRows, List.flatten_cons, List.take_left' hrow, List.drop_left' hrow,
      ih rfl hrows]

/-- A table of integers as rows. -/
def table (z : Fin h → Fin w → Int) : List (List Int) := List.ofFn fun y => List.ofFn (z y)

/-- The cells in which a table has integers other than zero. -/
def Cells.ofTable (z : Fin h → Fin w → Int) : Cells h w := fun y x => z y x != 0

section Table

variable (z : Fin h → Fin w → Int)

theorem length_table : (table z).length = h := List.length_ofFn

theorem length_of_mem_table : ∀ row ∈ table z, row.length = w := by
  intro row hrow
  obtain ⟨y, rfl⟩ := List.mem_ofFn.1 hrow
  exact List.length_ofFn

theorem rows_grid_ofTable : (Cells.ofTable z).grid.rows =
    (table z).map (List.map fun i => if i != 0 then (1 : UInt32) else 0) := by
  rw [table, List.map_ofFn]
  refine congrArg List.ofFn (funext fun y => ?_)
  rw [Function.comp_apply, List.map_ofFn]
  rfl

/-- An array with zeros where a table has them makes the grid of the other cells. -/
theorem NumberArray.toGrid_eq (a : NumberArray) (hshape : a.shape = [h, w])
    (helements : a.elements.map Element.isNonzero = (table z).flatten.map (· != 0)) :
    a.toGrid = .ok (Cells.ofTable z).grid := by
  obtain ⟨t, shape, elements, hsize⟩ := a
  dsimp only at hshape helements
  subst hshape
  have hwords : elements.map (fun n => if n.isNonzero then (1 : UInt32) else 0) =
      (Cells.ofTable z).grid.rows.flatten := by
    have hmark := congrArg (List.map fun b : Bool => if b then (1 : UInt32) else 0) helements
    rw [List.map_map, List.map_map] at hmark
    rw [rows_grid_ofTable, ← List.map_flatten]
    exact hmark
  refine congrArg Except.ok (Grid.eq_of_rows rfl ?_)
  show cutRows w h (elements.map fun n => if n.isNonzero then (1 : UInt32) else 0) = _
  rw [hwords]
  exact cutRows_flatten List.length_ofFn (Cells.ofTable z).grid.width_eq

/-- The numbers of a list, as an array holds them, are zero where the integers are. -/
theorem exists_mapM_hold {t : NumberType} {is : List Int} (h : ∀ i ∈ is, t.Fits i) :
    ∃ ns, (is.map Numeral.integer).mapM t.hold = .ok ns ∧
      ns.map Numeral.isNonzero = is.map (· != 0) := by
  induction is with
  | nil => exact ⟨[], rfl, rfl⟩
  | cons i is ih =>
    obtain ⟨hi, his⟩ := List.forall_mem_cons.1 h
    obtain ⟨n, hn, hzero⟩ := hi.exists_hold
    obtain ⟨ns, hns, hzeros⟩ := ih his
    refine ⟨n :: ns, ?_, ?_⟩
    · rw [List.map_cons, List.mapM_cons, hn, hns]
      rfl
    · rw [List.map_cons, List.map_cons, hzero, hzeros]

theorem NumberArray.ofNested_eq {t : NumberType} {x : Nested Numeral} {shape : List Nat}
    {ns : List Numeral} (hbox : x.box? = some shape) (hns : x.leaves.mapM t.hold = .ok ns) :
    ∃ a, ofNested t x = .ok a ∧ a.shape = shape ∧ a.elements = ns.map .number := by
  unfold ofNested
  split
  · rename_i hx
    cases hx.symm.trans hbox
  · rename_i shape' hx
    obtain rfl := Option.some.inj (hx.symm.trans hbox)
    split
    · rename_i ns' h
      obtain rfl := Except.ok.inj (h.symm.trans hns)
      exact ⟨_, rfl, rfl, rfl⟩
    · rename_i fault h
      cases h.symm.trans hns

/-- Of a table of integers in rows an array is made that has zeros where the table has. -/
theorem NumberArray.exists_ofRows (hpos : 0 < h) :
    ∃ a, ofRows (Nested.ofRows (table z)) = .ok a ∧ a.shape = [h, w] ∧
      a.elements.map Element.isNonzero = (table z).flatten.map (· != 0) := by
  have hne : table z ≠ [] := List.ne_nil_of_length_pos (by rwa [length_table])
  have hbox : (Nested.ofRows (table z)).box? = some [h, w] := by
    rw [Nested.box?_ofRows hne (length_of_mem_table z), length_table]
  obtain ⟨ns, hns, hzeros⟩ := exists_mapM_hold (NumberType.fits_ofNumerals (table z).flatten)
  rw [← Nested.leaves_ofRows] at hns
  obtain ⟨a, ha, hshape, helements⟩ := ofNested_eq hbox hns
  refine ⟨a, ?_, hshape, ?_⟩
  · rw [ofRows, hbox]
    exact ha
  · rw [helements, List.map_map]
    exact hzeros

end Table

/-! ## Numbers as they are handed over -/

/-- The ways in which a table of integers is handed over: as an array of any type, or, unless there
are no rows, as rows. -/
inductive IsGivenBy (z : Fin h → Fin w → Int) : Numbers → Prop
  | array (a : NumberArray) (hshape : a.shape = [h, w])
    (helements : a.elements = (table z).flatten.map fun i => .number (.integer i)) :
    IsGivenBy z (.array a)
  | rows (hpos : 0 < h) : IsGivenBy z (.rows (Nested.ofRows (table z)))

theorem IsGivenBy.toGrid {z : Fin h → Fin w → Int} {cells : Numbers} (hcells : IsGivenBy z cells) :
    cells.toGrid = .ok (Cells.ofTable z).grid := by
  cases hcells with
  | array a hshape helements =>
    refine a.toGrid_eq z hshape ?_
    rw [helements, List.map_map]
    rfl
  | rows hpos =>
    obtain ⟨a, ha, hshape, helements⟩ := NumberArray.exists_ofRows z hpos
    rw [Numbers.toGrid, Numbers.toArray, ha]
    exact a.toGrid_eq z hshape helements

end CellShader
