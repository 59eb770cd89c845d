import CellShader.Proofs.Grid.Integers
import CellShader.Proofs.Recipe.Counts

/-!
# Generations of life-like rules

The test for several counts is 1 at one of them and 0 elsewhere (`Expr.value_countIn`), so that the
cells after a step of a life-like rule are those that the counts of the rule call for
(`Cells.next_lifeLike_iff`).  With counts and cells as they are handed over, the same holds for all
generations (`Value.generations_lifeLike`).
-/

namespace CellShader

variable {h w : Nat} {a n : UInt32} {birth survival : List UInt32}

/-! ## One cell -/

theorem Expr.value_countIs (count : UInt32) :
    (Expr.countIs count).value a n = if n = count then 1 else 0 := by
  show (if n == count then (1 : UInt32) else 0) = if n = count then 1 else 0
  simp only [beq_iff_eq]

/-- The words for two conditions, joined bit by bit, are the word for either of them. -/
theorem ite_or_ite (p q : Prop) [Decidable p] [Decidable q] :
    (if p then (1 : UInt32) else 0) ||| (if q then 1 else 0) = if p ∨ q then 1 else 0 := by
  by_cases hp : p <;> by_cases hq : q <;> simp [hp, hq]

/-- A chain that goes on from an expression joins to its value the word for being among the counts
put on. -/
theorem Expr.value_foldl_or (counts : List UInt32) (e : Expr) :
    (counts.foldl (fun e c => Expr.connect .or e (.countIs c)) e).value a n =
      e.value a n ||| if n ∈ counts then 1 else 0 := by
  induction counts generalizing e with
  | nil => simp
  | cons count counts ih =>
    have hor : (Expr.connect .or e (.countIs count)).value a n =
        e.value a n ||| (Expr.countIs count).value a n := rfl
    rw [List.foldl_cons, ih, hor, value_countIs, UInt32.or_assoc, ite_or_ite]
    simp only [List.mem_cons]

/-- The test for several counts is 1 at each of them and 0 elsewhere. -/
theorem Expr.value_countIn (counts : List UInt32) :
    (Expr.countIn counts).value a n = if n ∈ counts then 1 else 0 := by
  cases counts with
  | nil => simp [countIn, value]
  | cons count counts =>
    rw [countIn, value_foldl_or, value_countIs, ite_or_ite]
    simp only [List.mem_cons]

theorem Expr.value_countIn_ne_zero_iff (counts : List UInt32) :
    (Expr.countIn counts).value a n ≠ 0 ↔ n ∈ counts := by
  rw [value_countIn]
  split <;> simp [*]

theorem Statement.outcome_lifeLike_ne_zero_iff :
    (Statement.lifeLike birth survival).outcome a n ≠ 0 ↔
      a ≠ 0 ∧ n ∈ survival ∨ a = 0 ∧ n ∈ birth := by
  rw [← Expr.value_countIn_ne_zero_iff (a := a), ← Expr.value_countIn_ne_zero_iff (a := a)]
  unfold Statement.lifeLike Statement.outcome Statement.run
  by_cases ha : a = 0 <;> simp [Statement.run, Expr.value, ha]

/-! ## All cells -/

/-- A cell is alive after a step when the counts for what it was have that of its neighbours. -/
theorem Cells.next_lifeLike_iff (c : Cells h w) (y : Fin h) (x : Fin w) :
    c.next (.lifeLike birth survival) y x = true ↔
      c y x = true ∧ UInt32.ofNat (c.liveAround y x) ∈ survival ∨
        c y x = false ∧ UInt32.ofNat (c.liveAround y x) ∈ birth := by
  rw [next, bne_iff_ne, Statement.outcome_lifeLike_ne_zero_iff]
  cases c y x <;> simp

/-! ## All generations -/

namespace Value

/-- Lists of counts from 0 to 8, in any order and with any repetitions, make a rule.  From a table
of integers it makes generations in which a cell is alive when it was and the number of live cells
around it is a count for survival, or when it was not and that number is a count for birth. -/
theorem generations_lifeLike {birth survival : List Value} {z : Fin h → Fin w → Int}
    {cells : Numbers} (hbirth : ∀ v ∈ birth, ∃ n ≤ 8, v.IsCount n)
    (hsurvival : ∀ v ∈ survival, ∃ n ≤ 8, v.IsCount n) (hcells : IsGivenBy z cells) :
    ∃ s, Statement.ofCounts (.list birth) (.list survival) = .ok s ∧
      ∃ live : Nat → Cells h w, (∀ y x, live 0 y x = true ↔ z y x ≠ 0) ∧
        (∀ count, (rule (.statement s)).generations count cells =
          .ok ((List.range count).map fun n => (live (n + 1)).grid)) ∧
        ∀ n y x, live (n + 1) y x = true ↔
          live n y x = true ∧ HasCount survival ((live n).liveAround y x) ∨
            live n y x = false ∧ HasCount birth ((live n).liveAround y x) := by
  obtain ⟨bs, ss, hrule, hbs, hss⟩ := Statement.exists_ofCounts (.of_le hbirth)
    (.of_le hsurvival) (fun n hn => hn.le hbirth) fun n hn => hn.le hsurvival
  refine ⟨_, hrule, fun n => (Cells.next (.lifeLike bs ss))^[n] (Cells.ofTable z), ?_, ?_, ?_⟩
  · intro y x
    exact bne_iff_ne
  · intro count
    cases count with
    | zero => rfl
    | succ count =>
      rw [generations, if_neg (Nat.succ_ne_zero count), hcells.toGrid]
      dsimp only
      rw [Cells.generations_grid]
  · intro n y x
    dsimp only
    rw [Function.iterate_succ_apply', Cells.next_lifeLike_iff, hbs, hss, Cells.toNat_liveAround]

/-- On a torus of one cell all eight steps lead back to it, so that it goes on living by the count
of 8. -/
theorem generations_lifeLike_single :
    (∀ v ∈ ([] : List Value), ∃ n ≤ 8, v.IsCount n) ∧
      (∀ v ∈ [integer 8, machineInteger .word 8], ∃ n ≤ 8, v.IsCount n) ∧
      IsGivenBy (fun _ _ : Fin 1 => -5) (.rows (.rows [.rows [.item (.integer (-5))]])) ∧
      ∃ s, Statement.ofCounts (.list []) (.list [integer 8, machineInteger .word 8]) = .ok s ∧
        ∀ count, (rule (.statement s)).generations count
            (.rows (.rows [.rows [.item (.integer (-5))]])) =
          .ok (List.replicate count (Cells.grid fun _ _ : Fin 1 => true)) := by
  have hbirth : ∀ v ∈ ([] : List Value), ∃ n ≤ 8, v.IsCount n := by simp
  have hsurvival : ∀ v ∈ [integer 8, machineInteger .word 8], ∃ n ≤ 8, v.IsCount n :=
    List.forall_mem_cons.2 ⟨⟨8, Nat.le_refl 8, .inl rfl⟩,
      List.forall_mem_singleton.2 ⟨8, Nat.le_refl 8, .inr ⟨.word, rfl⟩⟩⟩
  have hcells : IsGivenBy (fun _ _ : Fin 1 => -5) (.rows (.rows [.rows [.item (.integer (-5))]])) :=
    .rows Nat.one_pos
  refine ⟨hbirth, hsurvival, hcells, ?_⟩
  obtain ⟨s, hs, live, hstart, hgenerations, hlive⟩ :=
    generations_lifeLike hbirth hsurvival hcells
  refine ⟨s, hs, fun count => ?_⟩
  have hall : ∀ n, live n = fun _ _ => true := by
    intro n
    induction n with
    | zero =>
      funext y x
      exact (hstart y x).2 (by decide)
    | succ n ih =>
      funext y x
      have hcount : (live n).liveAround y x = 8 := by
        rw [ih]
        rfl
      rw [hlive, hcount, ih]
      exact .inl ⟨rfl, integer 8, List.mem_cons_self, .inl rfl⟩
  rw [hgenerations]
  congr 1
  apply List.ext_getElem
  · simp
  · intro i hi hi'
    simp [hall]

end Value

end CellShader
