import CellShader.Proofs.Grid.LifeLike
import CellShader.Proofs.Recipe.Canonical
import CellShader.Proofs.Wgsl.Running

/-!
# The test for several counts on all cells

The values of an expression on two arrays of integers are its values at each cell
(`Value.evalOn_eq_ofCells`).  So the test for several counts marks the cells at which the number of
live neighbours, as a word, is among the counts, whatever else is known of them
(`Value.evalOn_countIn`).  Counts in another order or with other repetitions make another tree,
which marks the same cells (`Value.evalOn_ofCounts`).
-/

namespace CellShader

variable {shape : List Nat}

/-- The field with a given word for each cell. -/
def Field.ofCells (f : Fin (boxSize shape) → UInt32) : Field where
  shape := shape
  cells := List.ofFn f
  size_eq := List.length_ofFn

/-! ## Words for integers -/

theorem toNat_wordOfInt (z : Int) : ((wordOfInt z).toNat : Int) = z % 2 ^ 32 := by
  have hword : Value.IsWord (z % 2 ^ 32) :=
    ⟨Int.emod_nonneg z (by decide), Int.emod_lt_of_pos z (by decide)⟩
  exact Value.toNat_word hword

namespace Value

theorem wordOfInt_mem_map_word_iff {zs : List Int} (h : ∀ z ∈ zs, IsWord z) (z : Int) :
    wordOfInt z ∈ zs.map word ↔ z % 2 ^ 32 ∈ zs := by
  rw [mem_map_word_iff h, toNat_wordOfInt]

/-! ## All cells -/

section Arrays

variable (alive neighbors : IntegerArray shape)

theorem evalOn_eq_ofCells (e : Expr) :
    (rule (.expr e)).evalOn (.array alive.toArray) (.array neighbors.toArray) =
      .ok (.ofCells fun i =>
        e.value (wordOfInt (alive.value i)) (wordOfInt (neighbors.value i))) := by
  have hcells : Field.evalExpr e alive.toField neighbors.toField rfl =
      .ofCells fun i => e.value (wordOfInt (alive.value i)) (wordOfInt (neighbors.value i)) := by
    simp only [Field.evalExpr, Field.ofCells, Field.mk.injEq]
    rw [alive.cells_toField, neighbors.cells_toField, e.onCells_ofFn]
    exact ⟨rfl, rfl⟩
  rw [← hcells]
  exact onFields_toArray alive neighbors _

theorem evalOn_countIn {zs : List Int} (h : ∀ z ∈ zs, IsWord z) :
    (rule (.expr (.countIn (zs.map word)))).evalOn (.array alive.toArray)
        (.array neighbors.toArray) =
      .ok (.ofCells fun i => if neighbors.value i % 2 ^ 32 ∈ zs then 1 else 0) := by
  simp only [evalOn_eq_ofCells, Expr.value_countIn, wordOfInt_mem_map_word_iff h]

end Arrays

/-- Any list of integers from 0 to `2 ^ 32 - 1` makes a test that is 1 at the cells whose number of
live neighbours modulo `2 ^ 32` is in the list and 0 at all others, whichever cells are alive.  A
list of the same integers in another order or with other repetitions makes a test of the same value,
though no two lists make the same tree. -/
theorem evalOn_ofCounts {counts : List Value} (hcounts : AreNumbers counts)
    (hwords : ∀ z ∈ counts.map number, 0 ≤ z ∧ z < 2 ^ 32) :
    ∃ e, Expr.ofCounts counts = .ok e ∧
      (∀ (shape : List Nat) (alive neighbors : IntegerArray shape),
        (rule (.expr e)).evalOn (.array alive.toArray) (.array neighbors.toArray) =
          .ok (.ofCells fun i =>
            if neighbors.value i % 2 ^ 32 ∈ counts.map number then 1 else 0)) ∧
      ∀ counts', AreNumbers counts' → (∀ z ∈ counts'.map number, 0 ≤ z ∧ z < 2 ^ 32) →
        ∃ e', Expr.ofCounts counts' = .ok e' ∧
          (e = e' ↔ counts.map number = counts'.map number) ∧
          (SameNumbers counts counts' →
            ∀ (shape : List Nat) (alive alive' neighbors : IntegerArray shape),
              (rule (.expr e)).evalOn (.array alive.toArray) (.array neighbors.toArray) =
                (rule (.expr e')).evalOn (.array alive'.toArray) (.array neighbors.toArray)) := by
  refine ⟨_, Expr.ofCounts_eq_countIn hcounts hwords,
    fun shape alive neighbors => evalOn_countIn alive neighbors hwords,
    fun counts' hcounts' hwords' => ⟨_, Expr.ofCounts_eq_countIn hcounts' hwords', ?_, ?_⟩⟩
  · rw [Expr.countIn_inj, map_word_inj hwords hwords']
  · intro hsame shape alive alive' neighbors
    rw [evalOn_countIn alive neighbors hwords, evalOn_countIn alive' neighbors hwords']
    simp only [hsame _]

/-- Counts beyond 8 and a negative number of live neighbours. -/
theorem evalOn_ofCounts_wrapped :
    AreNumbers [integer 300, machineInteger .word 3, integer 3, integer 4294967295] ∧
      (∀ z ∈ [integer 300, machineInteger .word 3, integer 3, integer 4294967295].map number,
        0 ≤ z ∧ z < 2 ^ 32) ∧
      AreNumbers [integer 4294967295, integer 3, integer 300] ∧
      (∀ z ∈ [integer 4294967295, integer 3, integer 300].map number, 0 ≤ z ∧ z < 2 ^ 32) ∧
      ∃ e e', Expr.ofCounts [integer 300, machineInteger .word 3, integer 3, integer 4294967295] =
          .ok e ∧
        Expr.ofCounts [integer 4294967295, integer 3, integer 300] = .ok e' ∧ e ≠ e' ∧
        ∃ neighbors : IntegerArray [3], neighbors.values = [-1, 3, 4] ∧
          ∀ alive alive' : IntegerArray [3], ∃ f, f.cells = [1, 1, 0] ∧
            (rule (.expr e)).evalOn (.array alive.toArray) (.array neighbors.toArray) = .ok f ∧
            (rule (.expr e')).evalOn (.array alive'.toArray) (.array neighbors.toArray) =
              .ok f := by
  have hcounts : AreNumbers [integer 300, machineInteger .word 3, integer 3, integer 4294967295] := by
    simp [AreNumbers, isNumber_integer, isNumber_machineInteger]
  have hcounts' : AreNumbers [integer 4294967295, integer 3, integer 300] := by
    simp [AreNumbers, isNumber_integer]
  have hwords : ∀ z ∈ [integer 300, machineInteger .word 3, integer 3, integer 4294967295].map
      number, 0 ≤ z ∧ z < 2 ^ 32 := by
    decide
  have hwords' : ∀ z ∈ [integer 4294967295, integer 3, integer 300].map number,
      0 ≤ z ∧ z < 2 ^ 32 := by
    decide
  have hsame : SameNumbers [integer 300, machineInteger .word 3, integer 3, integer 4294967295]
      [integer 4294967295, integer 3, integer 300] := by
    intro z
    show z ∈ [(300 : Int), 3, 3, 4294967295] ↔ z ∈ [(4294967295 : Int), 3, 300]
    simp only [List.mem_cons, List.not_mem_nil, or_false]
    omega
  obtain ⟨e, he, hvalue, hother⟩ := evalOn_ofCounts hcounts hwords
  obtain ⟨e', he', htree, heq⟩ := hother _ hcounts' hwords'
  refine ⟨hcounts, hwords, hcounts', hwords', e, e', he, he', mt htree.1 (by decide),
    ⟨.long, [-1, 3, 4], rfl, by decide⟩, rfl, fun alive alive' => ?_⟩
  refine ⟨_, ?_, hvalue [3] alive _, ?_⟩
  · rfl
  · rw [← heq hsame [3] alive alive' _]
    exact hvalue [3] alive _

end Value

end CellShader
