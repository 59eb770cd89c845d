import CellShader.Proofs.Grid.CellByCell
import Mathlib.Data.Set.Lattice
import Mathlib.Order.CompletePartialOrder

/-!
# What runs under which mask

A statement comes down to its leaves, run one after the other under masks of their own
(`Statement.onCells_eq_foldl_leafRuns`).  The condition of a branch cuts the cells of a mask in two,
so that the masks of the leaves cut up the mask of the whole statement: no cell is in two of them
(`Statement.pairwise_leafRuns`), and the cells in any of them are those in that mask
(`Statement.biUnion_marked_leafRuns`).  A later leaf never writes where an earlier one has written,
and a cell outside the mask keeps its word (`Statement.onCells_within_mask`).
-/

namespace CellShader

/-! ## Masks as sets of cells -/

/-- The cells at which a mask is set. -/
def marked (mask : List Bool) : Set Nat := {i | mask[i]? = some true}

theorem mem_marked {mask : List Bool} {i : Nat} : i ∈ marked mask ↔ mask[i]? = some true := .rfl

/-- The part of a mask where a condition holds. -/
def partWhere (mask holds : List Bool) : List Bool := List.zipWith (· && ·) mask holds

/-- The part of a mask where a condition does not hold. -/
def partElse (mask holds : List Bool) : List Bool := List.zipWith (fun m b => m && !b) mask holds

theorem marked_partWhere (mask holds : List Bool) :
    marked (partWhere mask holds) = marked mask ∩ marked holds := by
  ext i
  simp only [partWhere, Set.mem_inter_iff, mem_marked, List.getElem?_zipWith]
  cases mask[i]? <;> cases holds[i]? <;> simp

section Cut

variable {mask holds : List Bool} (h : holds.length = mask.length)

include h

theorem length_partWhere : (partWhere mask holds).length = mask.length := by
  rw [partWhere, List.length_zipWith, h, Nat.min_self]

theorem length_partElse : (partElse mask holds).length = mask.length := by
  rw [partElse, List.length_zipWith, h, Nat.min_self]

theorem marked_partElse : marked (partElse mask holds) = marked mask \ marked holds := by
  ext i
  simp only [partElse, Set.mem_sdiff, mem_marked, List.getElem?_zipWith]
  by_cases hi : i < mask.length
  · simp [hi, h]
  · simp [hi]

theorem marked_partWhere_union_partElse :
    marked (partWhere mask holds) ∪ marked (partElse mask holds) = marked mask := by
  rw [marked_partWhere, marked_partElse h, Set.inter_union_sdiff]

theorem disjoint_marked_parts :
    Disjoint (marked (partWhere mask holds)) (marked (partElse mask holds)) := by
  rw [marked_partWhere, marked_partElse h]
  exact Set.disjoint_sdiff_inter.symm

end Cut

/-! ## Leaves -/

namespace Statement

/-- The leaves of a statement, from left to right. -/
def leaves : Statement → List Statement
  | ifThenElse _ whenTrue whenFalse => whenTrue.leaves ++ whenFalse.leaves
  | leaf => [leaf]

theorem eq_noop_or_setResult_of_mem_leaves {s leaf : Statement} (h : leaf ∈ s.leaves) :
    leaf = noop ∨ ∃ e, leaf = setResult e := by
  induction s with
  | noop => exact .inl (List.mem_singleton.1 h)
  | setResult e => exact .inr ⟨e, List.mem_singleton.1 h⟩
  | ifThenElse condition whenTrue whenFalse iht ihf => exact (List.mem_append.1 h).elim iht ihf

variable (isAlive numNeighbors : List UInt32)

/-- The leaves of a statement in the order in which they are run, each with the mask that it is run
under. -/
def leafRuns : Statement → List Bool → List (Statement × List Bool)
  | ifThenElse condition whenTrue whenFalse, mask =>
    let holds := (condition.onCells isAlive numNeighbors).map (· != 0)
    whenTrue.leafRuns (partWhere mask holds) ++ whenFalse.leafRuns (partElse mask holds)
  | leaf, mask => [(leaf, mask)]

theorem map_fst_leafRuns (s : Statement) (mask : List Bool) :
    (s.leafRuns isAlive numNeighbors mask).map Prod.fst = s.leaves := by
  induction s generalizing mask with
  | noop => rfl
  | setResult e => rfl
  | ifThenElse condition whenTrue whenFalse iht ihf =>
    rw [leafRuns, leaves, List.map_append, iht, ihf]

/-- To run a statement is to run its leaves one after the other. -/
theorem onCells_eq_foldl_leafRuns (s : Statement) (mask : List Bool) (result : List UInt32) :
    s.onCells isAlive numNeighbors mask result =
      (s.leafRuns isAlive numNeighbors mask).foldl
        (fun result run => run.1.onCells isAlive numNeighbors run.2 result) result := by
  induction s generalizing mask result with
  | noop => rfl
  | setResult e => rfl
  | ifThenElse condition whenTrue whenFalse iht ihf =>
    rw [leafRuns, List.foldl_append, ← iht, ← ihf]
    rfl

example :
    (ifThenElse .alive noop (ifThenElse .neighbors (setResult (.const 5)) noop)).leafRuns
        [1, 0, 0, 1] [3, 3, 0, 0] [true, true, true, false] =
      [(noop, [true, false, false, false]), (setResult (.const 5), [false, true, false, false]),
        (noop, [false, false, true, false])] := by
  decide

section Parts

variable {isAlive numNeighbors} {mask : List Bool}
  (hneighbors : isAlive.length = numNeighbors.length) (hmask : mask.length = isAlive.length)

include hneighbors hmask

theorem length_holds (condition : Expr) :
    ((condition.onCells isAlive numNeighbors).map (· != 0)).length = mask.length := by
  rw [List.length_map, condition.length_onCells hneighbors, hmask]

theorem length_of_mem_leafRuns (s : Statement) {run : Statement × List Bool}
    (h : run ∈ s.leafRuns isAlive numNeighbors mask) : run.2.length = isAlive.length := by
  induction s generalizing mask with
  | noop => rwa [List.mem_singleton.1 h]
  | setResult e => rwa [List.mem_singleton.1 h]
  | ifThenElse condition whenTrue whenFalse iht ihf =>
    have hholds := length_holds hneighbors hmask condition
    rcases List.mem_append.1 h with h | h
    · exact iht ((length_partWhere hholds).trans hmask) h
    · exact ihf ((length_partElse hholds).trans hmask) h

/-- The cells of the leaves' masks are those of the mask of the statement. -/
theorem biUnion_marked_leafRuns (s : Statement) :
    ⋃ run ∈ s.leafRuns isAlive numNeighbors mask, marked run.2 = marked mask := by
  induction s generalizing mask with
  | noop => simp [leafRuns]
  | setResult e => simp [leafRuns]
  | ifThenElse condition whenTrue whenFalse iht ihf =>
    have hholds := length_holds hneighbors hmask condition
    simp only [leafRuns, List.mem_append, Set.iUnion_or, Set.iUnion_union_distrib]
    rw [iht ((length_partWhere hholds).trans hmask), ihf ((length_partElse hholds).trans hmask),
      marked_partWhere_union_partElse hholds]

theorem marked_subset_of_mem_leafRuns {s : Statement} {run : Statement × List Bool}
    (h : run ∈ s.leafRuns isAlive numNeighbors mask) : marked run.2 ⊆ marked mask := by
  rw [← biUnion_marked_leafRuns hneighbors hmask s]
  exact Set.subset_biUnion_of_mem (u := fun run : Statement × List Bool => marked run.2) h

/-- No cell is in the masks of two leaves. -/
theorem pairwise_leafRuns (s : Statement) :
    (s.leafRuns isAlive numNeighbors mask).Pairwise
      fun run run' => Disjoint (marked run.2) (marked run'.2) := by
  induction s generalizing mask with
  | noop => exact List.pairwise_singleton _ _
  | setResult e => exact List.pairwise_singleton _ _
  | ifThenElse condition whenTrue whenFalse iht ihf =>
    have hholds := length_holds hneighbors hmask condition
    have hwhere := (length_partWhere hholds).trans hmask
    have helse := (length_partElse hholds).trans hmask
    -- a leaf of the one branch and a leaf of the other keep to the two parts of the mask
    refine List.pairwise_append.2 ⟨iht hwhere, ihf helse, fun run hrun run' hrun' => ?_⟩
    exact (disjoint_marked_parts hholds).mono
      (marked_subset_of_mem_leafRuns hneighbors hwhere hrun)
      (marked_subset_of_mem_leafRuns hneighbors helse hrun')

end Parts

/-- Run under a mask, a statement leaves every cell outside the mask as it was, and at a cell in the
mask it does what it does to a single cell with the result that was there.  It runs each of its
leaves once, under masks that have no cell in common and together make up the mask. -/
theorem onCells_within_mask (s : Statement) {shape : List Nat}
    (alive neighbors result : Fin (boxSize shape) → UInt32) (mask : Fin (boxSize shape) → Bool) :
    s.onCells (.ofFn alive) (.ofFn neighbors) (.ofFn mask) (.ofFn result) =
      .ofFn (fun i => if mask i then s.run (alive i) (neighbors i) (result i) else result i) ∧
    ∃ runs, s.leafRuns (.ofFn alive) (.ofFn neighbors) (.ofFn mask) = runs ∧
      s.onCells (.ofFn alive) (.ofFn neighbors) (.ofFn mask) (.ofFn result) =
        runs.foldl (fun result run => run.1.onCells (.ofFn alive) (.ofFn neighbors) run.2 result)
          (.ofFn result) ∧
      runs.map Prod.fst = s.leaves ∧
      (∀ run ∈ runs, (run.1 = noop ∨ ∃ e, run.1 = setResult e) ∧ run.2.length = boxSize shape) ∧
      runs.Pairwise (fun run run' => Disjoint (marked run.2) (marked run'.2)) ∧
      ⋃ run ∈ runs, marked run.2 = marked (.ofFn mask) := by
  have hneighbors : (List.ofFn alive).length = (List.ofFn neighbors).length := by simp
  have hmask : (List.ofFn mask).length = (List.ofFn alive).length := by simp
  have hleaves := s.map_fst_leafRuns (.ofFn alive) (.ofFn neighbors) (.ofFn mask)
  refine ⟨s.onCells_ofFn alive neighbors mask result, _, rfl,
    s.onCells_eq_foldl_leafRuns _ _ _ _, hleaves, fun run hrun => ⟨?_, ?_⟩,
    pairwise_leafRuns hneighbors hmask s, biUnion_marked_leafRuns hneighbors hmask s⟩
  · refine eq_noop_or_setResult_of_mem_leaves (s := s) ?_
    rw [← hleaves]
    exact List.mem_map_of_mem hrun
  · rw [length_of_mem_leafRuns hneighbors hmask s hrun, List.length_ofFn]

end Statement

end CellShader
