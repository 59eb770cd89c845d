import CellShader.Number.Machine
import Mathlib.Data.Nat.Log

/-!
# Integers in arrays

An array of integers that does not say its type gets one that may round them
(`NumberType.Fits.ofNumerals`).  Rounding leaves what is other than zero other than zero, unless it
is too small for the format (`Format.isZero_round`), so that each integer is held as a number that
is zero where the integer is (`NumberType.Fits.exists_hold`).
-/

namespace CellShader.Number

/-! ## Rounding -/

section Rounding

variable {f : Format} {negative : Bool} {num den m : Nat} {e : Int}

theorem scaleDown_pos (hnum : num ≠ 0) (hden : den ≠ 0)
    (he : (Nat.log2 den : Int) + 1 + e ≤ Nat.log2 num) :
    0 < (scaleDown num den e).1 / (scaleDown num den e).2 := by
  have hlow : 2 ^ num.log2 ≤ num := Nat.log2_self_le hnum
  have hhigh : den < 2 ^ (den.log2 + 1) := Nat.lt_log2_self
  cases e with
  | ofNat k =>
    have hk : den.log2 + 1 + k ≤ num.log2 := by
      have : ((k : Nat) : Int) = Int.ofNat k := rfl
      omega
    show 0 < num / (den * 2 ^ k)
    have hpow : 0 < 2 ^ k := Nat.two_pow_pos k
    apply Nat.div_pos
    · calc den * 2 ^ k ≤ 2 ^ (den.log2 + 1) * 2 ^ k := Nat.mul_le_mul_right _ (Nat.le_of_lt hhigh)
        _ = 2 ^ (den.log2 + 1 + k) := (Nat.pow_add ..).symm
        _ ≤ 2 ^ num.log2 := Nat.pow_le_pow_right (by decide) hk
        _ ≤ num := hlow
    · exact Nat.mul_pos (Nat.pos_of_ne_zero hden) hpow
  | negSucc k =>
    have hk : den.log2 + 1 ≤ num.log2 + (k + 1) := by
      have : Int.negSucc k = -((k : Int) + 1) := Int.negSucc_eq k
      omega
    show 0 < num * 2 ^ (k + 1) / den
    apply Nat.div_pos
    · calc den ≤ 2 ^ (den.log2 + 1) := Nat.le_of_lt hhigh
        _ ≤ 2 ^ (num.log2 + (k + 1)) := Nat.pow_le_pow_right (by decide) hk
        _ = 2 ^ num.log2 * 2 ^ (k + 1) := Nat.pow_add ..
        _ ≤ num * 2 ^ (k + 1) := Nat.mul_le_mul_right _ hlow
    · exact Nat.pos_of_ne_zero hden

theorem le_roundQuotient (num den : Nat) : num / den ≤ roundQuotient num den := by
  unfold roundQuotient
  dsimp only
  split
  · exact Nat.le_refl _
  · split <;> omega

/-- The exponent at which a fraction is rounded, where the least one of the format is no bound. -/
theorem exponentOf_bounds (hmin : f.minExponent ≤ (num.log2 : Int) - den.log2 - f.precision) :
    (num.log2 : Int) - den.log2 - f.precision ≤ f.exponentOf num den ∧
      f.exponentOf num den ≤ (num.log2 : Int) - den.log2 - f.precision + 1 := by
  unfold Format.exponentOf
  rw [max_eq_left hmin]
  dsimp only
  split <;> omega

/-- A fraction that is other than zero, and not too small for a format, is rounded to an infinity or
to a number other than zero. -/
theorem Format.round_cases (f : Format) (negative : Bool) (hnum : num ≠ 0) (hden : den ≠ 0)
    (hprecision : 2 ≤ f.precision)
    (hmin : f.minExponent ≤ (num.log2 : Int) - den.log2 - f.precision) :
    f.round negative num den = .infinite negative ∧
        f.maxExponent < (num.log2 : Int) - den.log2 - f.precision + 2 ∨
      ∃ m e, f.round negative num den = .finite negative m e ∧ m ≠ 0 ∧
        (num.log2 : Int) - den.log2 - f.precision ≤ e := by
  obtain ⟨hlow, hhigh⟩ := exponentOf_bounds hmin
  have hpos := scaleDown_pos (e := f.exponentOf num den) hnum hden (by omega)
  have hround := Nat.lt_of_lt_of_le hpos (le_roundQuotient _ _)
  unfold Format.round
  rw [if_neg hnum]
  dsimp only
  generalize scaleDown num den (f.exponentOf num den) = scaled at hround
  generalize f.exponentOf num den = e at hlow hhigh
  obtain ⟨n, d⟩ := scaled
  dsimp only at hround ⊢
  by_cases hfull : roundQuotient n d = Nat.pow 2 f.precision
  · -- the significand has become too long and is halved
    have hhalf : roundQuotient n d / 2 ≠ 0 := by
      have : 2 ^ 2 ≤ 2 ^ f.precision := Nat.pow_le_pow_right (by decide) hprecision
      have : Nat.pow 2 f.precision = 2 ^ f.precision := rfl
      omega
    rw [if_pos hfull]
    dsimp only
    split
    · exact .inl ⟨rfl, by omega⟩
    · exact .inr ⟨_, _, rfl, hhalf, by omega⟩
  · rw [if_neg hfull]
    dsimp only
    split
    · exact .inl ⟨rfl, by omega⟩
    · exact .inr ⟨_, _, rfl, by omega, hlow⟩

theorem Format.isZero_round (hnum : num ≠ 0) (hden : den ≠ 0) (hprecision : 2 ≤ f.precision)
    (hmin : f.minExponent ≤ (num.log2 : Int) - den.log2 - f.precision) :
    (f.round negative num den).isZero = false := by
  rcases round_cases f negative hnum hden hprecision hmin with ⟨h, -⟩ | ⟨m, e, h, hm, -⟩
  · rw [h]
    rfl
  · rw [h]
    exact beq_eq_false_iff_ne.2 hm

theorem Floating.isZero_toFormat_double (hm : m ≠ 0) (he : -53 ≤ e) :
    ((finite negative m e).toFormat .double).isZero = false := by
  have hfraction : ∃ num den, fraction m e = (num, den) ∧ num ≠ 0 ∧ den ≠ 0 ∧ den.log2 ≤ 53 := by
    unfold fraction
    cases hk : -e with
    | ofNat k =>
      have : ((k : Nat) : Int) = Int.ofNat k := rfl
      refine ⟨m, 1 * 2 ^ k, rfl, hm, by simp, ?_⟩
      rw [Nat.one_mul, Nat.log2_two_pow]
      omega
    | negSucc k =>
      have hpow : 2 ^ (k + 1) ≠ 0 := Nat.ne_of_gt (Nat.two_pow_pos _)
      exact ⟨m * 2 ^ (k + 1), 1, rfl, Nat.mul_ne_zero hm hpow, Nat.one_ne_zero, by decide⟩
  obtain ⟨num, den, hfraction, hnum, hden, hlog⟩ := hfraction
  have hround : (finite negative m e).toFormat .double = Format.double.round negative num den := by
    rw [toFormat, hfraction]
  rw [hround]
  apply Format.isZero_round hnum hden (by decide)
  show (-1074 : Int) ≤ num.log2 - den.log2 - 53
  omega

/-- An integer of up to 64 bits is rounded to the double width, and to 0 if it is 0 only. -/
theorem RealType.exists_ofInt_double {i : Int}
    (h : IntegerType.long.Holds i ∨ IntegerType.unsignedLong.Holds i) :
    ∃ x, RealType.double.ofInt i = .ok x ∧ x.isZero = (i == 0) := by
  have hlong : IntegerType.long.least = -2 ^ 63 ∧ IntegerType.long.greatest = 2 ^ 63 - 1 := by
    decide
  have hunsigned :
      IntegerType.unsignedLong.least = 0 ∧ IntegerType.unsignedLong.greatest = 2 ^ 64 - 1 := by
    decide
  have hi : i.natAbs < 2 ^ 65 := by
    unfold IntegerType.Holds at h
    omega
  by_cases hzero : i = 0
  · subst hzero
    exact ⟨_, rfl, rfl⟩
  have hnum : i.natAbs ≠ 0 := Int.natAbs_ne_zero.2 hzero
  have hlog : i.natAbs.log2 < 65 := (Nat.log2_lt hnum).2 hi
  have hone : Nat.log2 1 = 0 := by decide
  have hmin : (-1074 : Int) ≤ i.natAbs.log2 - Nat.log2 1 - 53 := by omega
  rcases Format.double.round_cases (i < 0) hnum Nat.one_ne_zero (by decide) hmin with
    ⟨-, hlt⟩ | ⟨m, e, h, hm, he⟩
  · have hlt : (971 : Int) < i.natAbs.log2 - Nat.log2 1 - 53 + 2 := hlt
    omega
  · have he : (i.natAbs.log2 : Int) - Nat.log2 1 - 53 ≤ e := he
    have hx : Floating.ofInt .double i = .finite (i < 0) m e := h
    refine ⟨(Floating.finite (i < 0) m e).toFormat .double, ?_, ?_⟩
    · rw [RealType.ofInt, if_neg (by decide), hx]
      rfl
    · rw [Floating.isZero_toFormat_double hm (by omega)]
      simp [hzero]

end Rounding

/-! ## Types of arrays -/

namespace NumberType

/-- Whether a type is one that arrays of integers get and takes the integer, if only to round it. -/
inductive Fits (i : Int) : NumberType → Prop
  | long (h : IntegerType.long.Holds i) : Fits i (.integer .long)
  | unsignedLong (h : IntegerType.unsignedLong.Holds i) : Fits i (.integer .unsignedLong)
  | double (h : IntegerType.long.Holds i ∨ IntegerType.unsignedLong.Holds i) :
    Fits i (.real .double)
  | unbounded : Fits i .unbounded

variable {i j : Int} {s t : NumberType}

theorem fits_type (i : Int) : Fits i (Numeral.integer i).type := by
  simp only [Numeral.type]
  split
  · exact .long ‹_›
  · split
    · exact .unsignedLong ‹_›
    · exact .unbounded

theorem Fits.join_left (hi : Fits i s) (hj : Fits j t) : Fits i (join s t) := by
  cases hi with
  | long h => cases hj <;> first | exact .long h | exact .double (.inl h) | exact .unbounded
  | unsignedLong h =>
    cases hj <;> first | exact .unsignedLong h | exact .double (.inr h) | exact .unbounded
  | double h => cases hj <;> first | exact .double h | exact .unbounded
  | unbounded => cases hj <;> exact .unbounded

theorem Fits.join_comm (hi : Fits i s) (hj : Fits j t) : join s t = join t s := by
  cases hi <;> cases hj <;> rfl

theorem Fits.foldl (hi : Fits i t) (js : List Int) :
    Fits i (js.foldl (fun t j => join t (Numeral.integer j).type) t) ∧
      ∀ j ∈ js, Fits j (js.foldl (fun t j => join t (Numeral.integer j).type) t) := by
  induction js generalizing i t with
  | nil => exact ⟨hi, fun j hj => by cases hj⟩
  | cons j js ih =>
    have hj := fits_type j
    have hjoin : Fits j (join t (Numeral.integer j).type) := by
      rw [hi.join_comm hj]
      exact hj.join_left hi
    obtain ⟨hi, hjs⟩ := ih (hi.join_left hj)
    exact ⟨hi, List.forall_mem_cons.2 ⟨(ih hjoin).1, hjs⟩⟩

/-- The type of an array of integers takes each of them. -/
theorem fits_ofNumerals (is : List Int) : ∀ i ∈ is, Fits i (ofNumerals (is.map .integer)) := by
  cases is with
  | nil => exact fun i hi => by cases hi
  | cons i is =>
    obtain ⟨hi, his⟩ := (fits_type i).foldl is
    rw [List.map_cons, ofNumerals, List.foldl_map]
    exact List.forall_mem_cons.2 ⟨hi, his⟩

theorem Fits.exists_hold (h : Fits i t) :
    ∃ n, t.hold (.integer i) = .ok n ∧ n.isNonzero = (i != 0) := by
  have hinteger : ∀ u : IntegerType, u.Holds i →
      (NumberType.integer u).hold (.integer i) = .ok (.integer i) := by
    intro u hu
    have hhold : u.ofNumeral (.integer i) = .ok i := IntegerType.hold_eq_ok_iff.2 ⟨hu, rfl⟩
    rw [hold, hhold]
    rfl
  cases h with
  | long h => exact ⟨_, hinteger _ h, rfl⟩
  | unsignedLong h => exact ⟨_, hinteger _ h, rfl⟩
  | unbounded => exact ⟨_, rfl, rfl⟩
  | double h =>
    obtain ⟨x, hx, hzero⟩ := RealType.exists_ofInt_double h
    refine ⟨.real x, ?_, ?_⟩
    · show (RealType.double.ofInt i).map Numeral.real = _
      rw [hx]
      rfl
    · show (!x.isZero) = (i != 0)
      rw [hzero]
      rfl

end NumberType

end CellShader.Number
