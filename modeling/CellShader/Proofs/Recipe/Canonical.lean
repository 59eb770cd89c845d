import CellShader.Proofs.Recipe.Counts
import CellShader.Proofs.Wgsl.Compiled
import Mathlib.Data.List.Sort

/-!
# Life-like rules as trees

A chain of disjunctions is built from a list of words that can be read off it again
(`Expr.wordsOf_countIn`), the chain of no words being a constant and no test.  Since the words of a
life-like rule are those of increasing integers, there is one tree for each pair of sets of integers
(`Statement.ofCounts_canonical`).
-/

namespace CellShader

/-! ## Reading words off a chain -/

/-- The words of a chain of tests, in order. -/
def Expr.wordsOf : Expr → List UInt32
  | .compare .equal .neighbors (.const w) => [w]
  | .connect .or e (.compare .equal .neighbors (.const w)) => wordsOf e ++ [w]
  | _ => []

theorem Expr.wordsOf_foldl (e : Expr) (ws : List UInt32) :
    wordsOf (ws.foldl (fun e w => .connect .or e (.countIs w)) e) = wordsOf e ++ ws := by
  induction ws generalizing e with
  | nil => exact (List.append_nil _).symm
  | cons w ws ih =>
    have hw : wordsOf (.connect .or e (.countIs w)) = wordsOf e ++ [w] := by
      rw [countIs, wordsOf]
    rw [List.foldl_cons, ih, hw, List.append_assoc]
    rfl

theorem Expr.wordsOf_countIn (ws : List UInt32) : wordsOf (countIn ws) = ws := by
  cases ws with
  | nil => rfl
  | cons w ws =>
    rw [countIn, wordsOf_foldl]
    rfl

theorem Expr.countIn_inj {ws ws' : List UInt32} : countIn ws = countIn ws' ↔ ws = ws' :=
  (Function.LeftInverse.injective wordsOf_countIn).eq_iff

theorem Statement.lifeLike_inj {bs ss bs' ss' : List UInt32} :
    lifeLike bs ss = lifeLike bs' ss' ↔ bs = bs' ∧ ss = ss' := by
  simp only [lifeLike, ifThenElse.injEq, setResult.injEq, true_and, Expr.countIn_inj]
  exact and_comm

/-! ## One tree for each pair of sets -/

namespace Value

/-- Whether two lists hold the same integers, in whatever order and with whatever repetitions. -/
def SameNumbers (vs ws : List Value) : Prop := ∀ z, z ∈ vs.map number ↔ z ∈ ws.map number

theorem map_word_inj {zs zs' : List Int} (h : ∀ z ∈ zs, IsWord z) (h' : ∀ z ∈ zs', IsWord z) :
    zs.map word = zs'.map word ↔ zs = zs' := by
  have hback : ∀ zs : List Int, (∀ z ∈ zs, IsWord z) →
      (zs.map word).map (fun w => (w.toNat : Int)) = zs := by
    intro zs h
    rw [List.map_map]
    exact (List.map_congr_left fun z hz => toNat_word (h z hz)).trans (List.map_id zs)
  refine ⟨fun heq => ?_, congrArg _⟩
  rw [← hback zs h, heq, hback zs' h']

theorem eq_iff_sameNumbers {vs ws : List Value} {zs zs' : List Int}
    (hmem : ∀ z, z ∈ zs ↔ z ∈ vs.map number) (hsorted : zs.Pairwise (· < ·))
    (hmem' : ∀ z, z ∈ zs' ↔ z ∈ ws.map number) (hsorted' : zs'.Pairwise (· < ·)) :
    zs = zs' ↔ SameNumbers vs ws := by
  constructor
  · rintro rfl z
    rw [← hmem, hmem']
  · intro hsame
    exact hsorted.eq_of_mem_iff hsorted' fun z => by rw [hmem, hmem', hsame z]

end Value

open Value

theorem Rule.equals_and_code_eq_iff (s s' : Statement) :
    ((Value.rule (.statement s)).equals (Value.rule (.statement s')) = .ok true ↔ s = s') ∧
      (s.code = s'.code ↔ s = s') := by
  have hcode : (Rule.statement s).code = (Rule.statement s').code ↔ s = s' :=
    ⟨fun h => Rule.statement.inj (Rule.code_injective h), fun h => h ▸ rfl⟩
  refine ⟨?_, hcode⟩
  rw [equals_rule, Except.ok.injEq, beq_iff_eq, Rule.statement.injEq]

section Canonical

variable {birth survival birth' survival' : List Value} (hbirth : AreNumbers birth)
  (hsurvival : AreNumbers survival)

include hbirth hsurvival

theorem Statement.exists_ofCounts_eq_ok_iff :
    (∃ s, Statement.ofCounts (.list birth) (.list survival) = .ok s) ↔
      ∀ z ∈ (birth ++ survival).map number, InRange z := by
  rw [List.map_append]
  constructor
  · rintro ⟨s, hs⟩ z hz
    by_contra hout
    obtain ⟨half, v, hfault⟩ := ofCounts_eq_error_of_not_inRange hbirth hsurvival
      ⟨z, List.mem_append.1 hz, hout⟩
    cases hs.symm.trans hfault
  · intro hrange
    obtain ⟨hb, hs⟩ := List.forall_mem_append.1 hrange
    obtain ⟨bs, ss, -, -, -, -, hrule⟩ := exists_ofCounts_sorted hbirth hsurvival hb hs
    exact ⟨_, hrule⟩

variable (hbirth' : AreNumbers birth') (hsurvival' : AreNumbers survival')

include hbirth' hsurvival'

/-- Rules are equal if they are made from the same integers in both halves. -/
theorem Statement.eq_iff_sameNumbers {s s' : Statement}
    (hs : Statement.ofCounts (.list birth) (.list survival) = .ok s)
    (hs' : Statement.ofCounts (.list birth') (.list survival') = .ok s') :
    s = s' ↔ SameNumbers birth birth' ∧ SameNumbers survival survival' := by
  have hrange := (exists_ofCounts_eq_ok_iff hbirth hsurvival).1 ⟨s, hs⟩
  have hrange' := (exists_ofCounts_eq_ok_iff hbirth' hsurvival').1 ⟨s', hs'⟩
  rw [List.map_append, List.forall_mem_append] at hrange hrange'
  obtain ⟨bs, ss, hbs, hbsorted, hss, hssorted, hrule⟩ :=
    exists_ofCounts_sorted hbirth hsurvival hrange.1 hrange.2
  obtain ⟨bs', ss', hbs', hbsorted', hss', hssorted', hrule'⟩ :=
    exists_ofCounts_sorted hbirth' hsurvival' hrange'.1 hrange'.2
  obtain rfl := Except.ok.inj (hs.symm.trans hrule)
  obtain rfl := Except.ok.inj (hs'.symm.trans hrule')
  rw [lifeLike_inj,
    map_word_inj (fun z hz => (hrange.1 z ((hbs z).1 hz)).isWord)
      fun z hz => (hrange'.1 z ((hbs' z).1 hz)).isWord,
    map_word_inj (fun z hz => (hrange.2 z ((hss z).1 hz)).isWord)
      fun z hz => (hrange'.2 z ((hss' z).1 hz)).isWord,
    Value.eq_iff_sameNumbers hbs hbsorted hbs' hbsorted',
    Value.eq_iff_sameNumbers hss hssorted hss' hssorted']

/-- Lists of integers make a life-like rule exactly if all of them lie between 0 and 8, and
otherwise a value is at fault.  Two rules are equal, and so are their codes, exactly if they are made from the
same integers for birth and the same for survival. -/
theorem Statement.ofCounts_canonical :
    ((∃ s, Statement.ofCounts (.list birth) (.list survival) = .ok s) ↔
      ∀ z ∈ (birth ++ survival).map number, 0 ≤ z ∧ z ≤ 8) ∧
    ((¬∀ z ∈ (birth ++ survival).map number, 0 ≤ z ∧ z ≤ 8) →
      ∃ fault, Statement.ofCounts (.list birth) (.list survival) = .error fault ∧
        fault.kind = .value) ∧
    ∀ s s', Statement.ofCounts (.list birth) (.list survival) = .ok s →
      Statement.ofCounts (.list birth') (.list survival') = .ok s' →
        ((rule (.statement s)).equals (rule (.statement s')) = .ok true ↔
          SameNumbers birth birth' ∧ SameNumbers survival survival') ∧
        (s.code = s'.code ↔ SameNumbers birth birth' ∧ SameNumbers survival survival') := by
  refine ⟨exists_ofCounts_eq_ok_iff hbirth hsurvival, fun hout => ?_, fun s s' hs hs' => ?_⟩
  · rw [not_forall] at hout
    obtain ⟨z, hz⟩ := hout
    rw [Classical.not_imp, List.map_append, List.mem_append] at hz
    obtain ⟨half, v, hfault⟩ := ofCounts_eq_error_of_not_inRange hbirth hsurvival ⟨z, hz⟩
    exact ⟨_, hfault, rfl⟩
  · obtain ⟨hequals, hcode⟩ := Rule.equals_and_code_eq_iff s s'
    have hsame := eq_iff_sameNumbers hbirth hsurvival hbirth' hsurvival' hs hs'
    exact ⟨hequals.trans hsame, hcode.trans hsame⟩

end Canonical

/-- Two spellings of the counts of Conway's game of life. -/
theorem Statement.ofCounts_canonical_conway :
    AreNumbers [.integer 3] ∧ AreNumbers [.integer 2, .integer 3] ∧
    AreNumbers [.integer 3, .machineInteger .word 3, .integer 3] ∧
    AreNumbers [.machineInteger .word 3, .integer 2, .integer 3] ∧
    ∃ s s', Statement.ofCounts (.list [.integer 3]) (.list [.integer 2, .integer 3]) = .ok s ∧
      Statement.ofCounts (.list [.integer 3, .machineInteger .word 3, .integer 3])
        (.list [.machineInteger .word 3, .integer 2, .integer 3]) = .ok s' ∧
      (rule (.statement s)).equals (rule (.statement s')) = .ok true ∧ s.code = s'.code := by
  have hnumber : ∀ t z, (integer z).IsNumber ∧ (machineInteger t z).IsNumber :=
    fun t z => ⟨⟨z, .inl rfl⟩, ⟨z, .inr ⟨t, rfl⟩⟩⟩
  have hbirth : AreNumbers [.integer 3] := by simp [AreNumbers, hnumber .word]
  have hsurvival : AreNumbers [.integer 2, .integer 3] := by simp [AreNumbers, hnumber .word]
  have hbirth' : AreNumbers [.integer 3, .machineInteger .word 3, .integer 3] := by
    simp [AreNumbers, hnumber .word]
  have hsurvival' : AreNumbers [.machineInteger .word 3, .integer 2, .integer 3] := by
    simp [AreNumbers, hnumber .word]
  have hsame : SameNumbers [.integer 3] [.integer 3, .machineInteger .word 3, .integer 3] ∧
      SameNumbers [.integer 2, .integer 3] [.machineInteger .word 3, .integer 2, .integer 3] := by
    constructor
    · intro z
      show z ∈ [(3 : Int)] ↔ z ∈ [(3 : Int), 3, 3]
      simp
    · intro z
      show z ∈ [(2 : Int), 3] ↔ z ∈ [(3 : Int), 2, 3]
      simp only [List.mem_cons, List.not_mem_nil, or_false]
      omega
  obtain ⟨hok, -, heq⟩ := ofCounts_canonical hbirth hsurvival hbirth' hsurvival'
  obtain ⟨hok', -, -⟩ := ofCounts_canonical hbirth' hsurvival' hbirth hsurvival
  obtain ⟨s, hs⟩ := hok.2 (by decide)
  obtain ⟨s', hs'⟩ := hok'.2 (by decide)
  obtain ⟨hequals, hcode⟩ := heq s s' hs hs'
  exact ⟨hbirth, hsurvival, hbirth', hsurvival', s, s', hs, hs', hequals.2 hsame, hcode.2 hsame⟩

end CellShader
