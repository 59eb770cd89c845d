import CellShader.Recipe.Counts
import Mathlib.Data.Int.CharZero
import Mathlib.Data.List.Perm.Basic

/-!
# Life-like rules from counts

Integers are compared as what they are, plain or of a machine type (`Value.less_of_isNumber`,
`Value.coincides_of_isNumber`), so that leaving out repetitions and putting in order leave the
integers that there are, in increasing order (`Value.exists_counts_eq`).  A list of integers makes
one half of a life-like rule unless one of them is out of range (`Value.forM_checkCount`); the rule
then has a word for each integer (`Statement.exists_ofCounts_sorted`).
-/

namespace CellShader

open Number

namespace Value

/-- Whether a value is the given number, as a plain integer or one of a machine type. -/
def IsCount (v : Value) (n : Nat) : Prop := v = .integer n ∨ ∃ t, v = .machineInteger t n

/-- Whether a number is among the values. -/
def HasCount (vs : List Value) (n : Nat) : Prop := ∃ v ∈ vs, v.IsCount n

/-- Whether all values are numbers. -/
def AreCounts (vs : List Value) : Prop := ∀ v ∈ vs, ∃ n, v.IsCount n

variable {a b v : Value} {m n : Nat} {vs ws kept : List Value}

theorem IsCount.unique (hm : v.IsCount m) (hn : v.IsCount n) : m = n := by
  rcases hm with rfl | ⟨t, rfl⟩ <;> rcases hn with h | ⟨t', h⟩ <;> cases h <;> rfl

theorem AreCounts.of_le (h : ∀ v ∈ vs, ∃ n ≤ m, v.IsCount n) : AreCounts vs := by
  intro v hv
  obtain ⟨n, -, hn⟩ := h v hv
  exact ⟨n, hn⟩

theorem HasCount.le (h : ∀ v ∈ vs, ∃ n ≤ m, v.IsCount n) (hn : HasCount vs n) : n ≤ m := by
  obtain ⟨v, hv, hn⟩ := hn
  obtain ⟨k, hle, hk⟩ := h v hv
  rw [hn.unique hk]
  exact hle

/-! ## Integers -/

/-- The integer that a value is, and 0 for what is none. -/
def number (v : Value) : Int := v.integer?.getD 0

/-- Whether a value is an integer, plain or of a machine type. -/
def IsNumber (v : Value) : Prop := ∃ z, v = .integer z ∨ ∃ t, v = .machineInteger t z

/-- Whether all values are integers. -/
def AreNumbers (vs : List Value) : Prop := ∀ v ∈ vs, v.IsNumber

theorem isNumber_integer (z : Int) : (integer z).IsNumber := ⟨z, .inl rfl⟩

theorem isNumber_machineInteger (t : IntegerType) (z : Int) : (machineInteger t z).IsNumber :=
  ⟨z, .inr ⟨t, rfl⟩⟩

theorem areNumbers_nil : AreNumbers [] := fun _ hv => nomatch hv

theorem AreNumbers.tail (h : AreNumbers (v :: vs)) : AreNumbers vs :=
  fun w hw => h w (List.mem_cons_of_mem _ hw)

theorem isCount_iff : v.IsCount n ↔ v.IsNumber ∧ v.number = n := by
  constructor
  · rintro (rfl | ⟨t, rfl⟩)
    · exact ⟨⟨n, .inl rfl⟩, rfl⟩
    · exact ⟨⟨n, .inr ⟨t, rfl⟩⟩, rfl⟩
  · rintro ⟨⟨z, rfl | ⟨t, rfl⟩⟩, rfl : z = n⟩
    · exact .inl rfl
    · exact .inr ⟨t, rfl⟩

theorem AreCounts.areNumbers (h : AreCounts vs) : AreNumbers vs := by
  intro v hv
  obtain ⟨n, hn⟩ := h v hv
  exact (isCount_iff.1 hn).1

theorem hasCount_iff (h : AreNumbers vs) : HasCount vs n ↔ (n : Int) ∈ vs.map number := by
  rw [HasCount, List.mem_map]
  refine exists_congr fun v => and_congr_right fun hv => ?_
  rw [isCount_iff, and_iff_right (h v hv)]

/-- Whether an integer can be a number of live neighbours. -/
def InRange (z : Int) : Prop := 0 ≤ z ∧ z ≤ maxNeighbors

instance (z : Int) : Decidable (InRange z) := inferInstanceAs (Decidable (_ ∧ _))

/-- No integer but those that counts are is in a list of counts. -/
theorem AreCounts.inRange (h : AreCounts vs) (hle : ∀ n, HasCount vs n → n ≤ maxNeighbors) :
    ∀ z ∈ vs.map number, InRange z := by
  intro z hz
  obtain ⟨v, hv, rfl⟩ := List.mem_map.1 hz
  obtain ⟨n, hn⟩ := h v hv
  have hmax := hle n ⟨v, hv, hn⟩
  rw [InRange, (isCount_iff.1 hn).2]
  omega

/-- Whether an integer fits in a word. -/
def IsWord (z : Int) : Prop := 0 ≤ z ∧ z < 2 ^ 32

theorem InRange.isWord {z : Int} (h : InRange z) : IsWord z := by
  obtain ⟨hzero, hmax⟩ := h
  rw [maxNeighbors] at hmax
  exact ⟨hzero, by omega⟩

/-- The word for an integer that is not negative. -/
def word (z : Int) : UInt32 := UInt32.ofNat z.toNat

theorem toNat_word {z : Int} (h : IsWord z) : ((word z).toNat : Int) = z := by
  obtain ⟨hzero, hlt⟩ := h
  have hsize : z.toNat < UInt32.size := by
    rw [UInt32.size]
    omega
  rw [word, UInt32.toNat_ofNat_of_lt' hsize]
  omega

theorem mem_map_word_iff {zs : List Int} (h : ∀ z ∈ zs, IsWord z) {w : UInt32} :
    w ∈ zs.map word ↔ (w.toNat : Int) ∈ zs := by
  rw [List.mem_map]
  constructor
  · rintro ⟨z, hz, rfl⟩
    rwa [toNat_word (h z hz)]
  · intro hw
    exact ⟨_, hw, by rw [word, Int.toNat_natCast, UInt32.ofNat_toNat]⟩

section One

variable (ha : a.IsNumber) (hb : b.IsNumber)

include ha

theorem keyFault?_of_isNumber : a.keyFault? = none := by
  obtain ⟨m, rfl | ⟨t, rfl⟩⟩ := ha <;> rfl

theorem asWord_of_isNumber (h : IsWord a.number) : a.asWord = .ok (word a.number) := by
  have hinteger : a.isInteger = true ∧ a.integer? = some a.number := by
    obtain ⟨m, rfl | ⟨t, rfl⟩⟩ := ha <;> exact ⟨rfl, rfl⟩
  have hrange : 0 ≤ a.number ∧ a.number < UInt32.size := h
  rw [asWord, hinteger.1, hinteger.2, if_neg (by decide)]
  dsimp only
  rw [if_pos hrange, word]

include hb

theorem places?_of_isNumber :
    a.places? b = .ok (some (.ofInt a.number, .ofInt b.number)) := by
  obtain ⟨m, rfl | ⟨t, rfl⟩⟩ := ha <;> obtain ⟨n, rfl | ⟨t', rfl⟩⟩ := hb <;> rfl

theorem less_of_isNumber : a.less b = .ok (decide (a.number < b.number)) := by
  have hplaces := places?_of_isNumber ha hb
  have hless : (Position.ofInt a.number).less (.ofInt b.number) =
      decide (a.number < b.number) := by
    simp [Position.ofInt, Position.less]
  obtain ⟨m, rfl | ⟨t, rfl⟩⟩ := ha <;> obtain ⟨n, rfl | ⟨t', rfl⟩⟩ := hb <;>
    simp [less, text?, hplaces, hless, bind, Except.bind, pure, Except.pure]

theorem coincides_of_isNumber : a.coincides b = decide (a.number = b.number) := by
  have hsame : (Position.ofInt a.number).same (.ofInt b.number) =
      decide (a.number = b.number) := by
    simp [Position.ofInt, Position.same, Bool.beq_eq_decide_eq]
  rw [← hsame]
  obtain ⟨m, rfl | ⟨t, rfl⟩⟩ := ha <;> obtain ⟨n, rfl | ⟨t', rfl⟩⟩ := hb <;>
    simp [coincides, keyed, same, position?, number, integer?]

omit hb

theorem checkCount_of_isNumber (half : Half) :
    checkCount half a =
      if InRange a.number then .ok () else .error (.countOutOfRange half a) := by
  have hzero : a.less (integer 0) = .ok (decide (a.number < 0)) :=
    less_of_isNumber ha (isNumber_integer 0)
  have hmax : (integer maxNeighbors).less a = .ok (decide ((maxNeighbors : Int) < a.number)) :=
    less_of_isNumber (isNumber_integer maxNeighbors) ha
  rw [checkCount, hzero, hmax]
  by_cases hneg : a.number < 0
  · have hrange : ¬InRange a.number := fun h => absurd h.1 (by omega)
    simp [hneg, hrange, bind, Except.bind, throw, throwThe, MonadExceptOf.throw]
  · by_cases hgreat : (maxNeighbors : Int) < a.number
    · have hrange : ¬InRange a.number := fun h => absurd h.2 (by omega)
      simp [hneg, hgreat, hrange, bind, Except.bind, throw, throwThe, MonadExceptOf.throw]
    · have hrange : InRange a.number := ⟨by omega, by omega⟩
      simp [hneg, hgreat, hrange, bind, Except.bind, pure, Except.pure]

end One

/-! ## All of a list -/

/-- Leaving out repetitions leaves the integers that there are, each of them once. -/
theorem exists_distinctFrom (hkept : AreNumbers kept) (hvs : AreNumbers vs)
    (hnodup : (kept.map number).Nodup) :
    ∃ ws, distinctFrom kept vs = .ok ws ∧ ws ⊆ kept ++ vs ∧
      (∀ z, z ∈ ws.map number ↔ z ∈ (kept ++ vs).map number) ∧ (ws.map number).Nodup := by
  induction vs generalizing kept with
  | nil => exact ⟨kept, rfl, by simp, by simp, hnodup⟩
  | cons v vs ih =>
    have hv := hvs v List.mem_cons_self
    have hany : kept.any v.coincides = true ↔ v.number ∈ kept.map number := by
      rw [List.any_eq_true, List.mem_map]
      refine exists_congr fun w => and_congr_right fun hw => ?_
      rw [coincides_of_isNumber hv (hkept w hw), decide_eq_true_iff, eq_comm]
    rw [distinctFrom, keyFault?_of_isNumber hv]
    dsimp only
    split
    · rename_i hold
      obtain ⟨ws, hws, hsub, hmem, hnodup'⟩ := ih hkept hvs.tail hnodup
      refine ⟨ws, hws, fun w hw => ?_, fun z => ?_, hnodup'⟩
      · rcases List.mem_append.1 (hsub hw) with h | h
        · exact List.mem_append_left _ h
        · exact List.mem_append_right _ (List.mem_cons_of_mem _ h)
      · -- the integer that is left out is one which is kept
        have hold' := hany.1 hold
        rw [hmem, List.map_append, List.map_append, List.map_cons, List.mem_append,
          List.mem_append, List.mem_cons]
        refine ⟨fun h => h.imp_right .inr, fun h => ?_⟩
        rcases h with h | rfl | h
        · exact .inl h
        · exact .inl hold'
        · exact .inr h
    · rename_i hnew
      have hkept' : AreNumbers (kept ++ [v]) :=
        List.forall_mem_append.2 ⟨hkept, List.forall_mem_singleton.2 hv⟩
      have hnodup' : ((kept ++ [v]).map number).Nodup := by
        rw [List.map_append, List.map_singleton, List.nodup_append]
        refine ⟨hnodup, List.pairwise_singleton _ _, fun z hz y hy => ?_⟩
        rw [List.mem_singleton.1 hy]
        rintro rfl
        exact hnew (hany.2 hz)
      obtain ⟨ws, hws, hsub, hmem, hnodup''⟩ := ih hkept' hvs.tail hnodup'
      rw [List.append_assoc] at hsub hmem
      exact ⟨ws, hws, hsub, hmem, hnodup''⟩

theorem exists_insertSorted (hv : v.IsNumber) (hws : AreNumbers ws)
    (hsorted : (ws.map number).Pairwise (· ≤ ·)) :
    ∃ ws', insertSorted v ws = .ok ws' ∧ ws'.Perm (v :: ws) ∧
      (ws'.map number).Pairwise (· ≤ ·) := by
  induction ws with
  | nil => exact ⟨[v], rfl, .refl _, List.pairwise_singleton _ _⟩
  | cons w ws ih =>
    rw [List.map_cons, List.pairwise_cons] at hsorted
    obtain ⟨hleast, hsorted⟩ := hsorted
    obtain ⟨ws', hinsert, hperm, hsorted'⟩ := ih hws.tail hsorted
    rw [insertSorted, less_of_isNumber hv (hws w List.mem_cons_self), hinsert]
    by_cases hlt : v.number < w.number
    · refine ⟨v :: w :: ws, by simp [hlt, bind, Except.bind, pure, Except.pure], .refl _, ?_⟩
      rw [List.map_cons, List.map_cons, List.pairwise_cons, List.pairwise_cons]
      refine ⟨List.forall_mem_cons.2 ⟨hlt.le, fun z hz => ?_⟩, hleast, hsorted⟩
      exact hlt.le.trans (hleast z hz)
    · refine ⟨w :: ws', by simp [hlt, bind, Except.bind, pure, Except.pure],
        (hperm.cons w).trans (.swap v w ws), ?_⟩
      rw [List.map_cons, List.pairwise_cons]
      refine ⟨fun z hz => ?_, hsorted'⟩
      rcases List.mem_cons.1 ((hperm.map number).mem_iff.1 hz) with rfl | hz
      · exact not_lt.1 hlt
      · exact hleast z hz

theorem exists_foldlM_insertSorted (hws : AreNumbers ws) (hvs : AreNumbers vs)
    (hsorted : (ws.map number).Pairwise (· ≤ ·)) :
    ∃ ws', vs.foldlM (fun sorted v => insertSorted v sorted) ws = .ok ws' ∧
      ws'.Perm (vs ++ ws) ∧ (ws'.map number).Pairwise (· ≤ ·) := by
  induction vs generalizing ws with
  | nil => exact ⟨ws, rfl, .refl _, hsorted⟩
  | cons v vs ih =>
    have hv := hvs v List.mem_cons_self
    obtain ⟨ws', hinsert, hperm, hsorted'⟩ := exists_insertSorted hv hws hsorted
    have hws' : AreNumbers ws' := fun w hw => by
      rcases List.mem_cons.1 (hperm.mem_iff.1 hw) with rfl | hw
      · exact hv
      · exact hws w hw
    obtain ⟨ws'', hfold, hperm', hsorted''⟩ := ih hws' hvs.tail hsorted'
    refine ⟨ws'', ?_, hperm'.trans ?_, hsorted''⟩
    · rw [List.foldlM_cons, hinsert]
      exact hfold
    · exact (hperm.append_left vs).trans List.perm_middle

theorem exists_sort (hvs : AreNumbers vs) (hnodup : (vs.map number).Nodup) :
    ∃ ws, sort vs = .ok ws ∧ ws.Perm vs ∧ (ws.map number).Pairwise (· < ·) := by
  obtain ⟨ws, hsort, hperm, hsorted⟩ :=
    exists_foldlM_insertSorted areNumbers_nil hvs .nil
  rw [List.append_nil] at hperm
  have hnodup' : (ws.map number).Nodup := (hperm.map number).nodup_iff.2 hnodup
  exact ⟨ws, hsort, hperm, (hsorted.and hnodup').imp fun h => lt_of_le_of_ne h.1 h.2⟩

theorem forM_checkCount (half : Half) (h : AreNumbers vs) :
    ((∀ z ∈ vs.map number, InRange z) → vs.forM (checkCount half) = .ok ()) ∧
      ((∃ z ∈ vs.map number, ¬InRange z) →
        ∃ v, vs.forM (checkCount half) = .error (.countOutOfRange half v)) := by
  induction vs with
  | nil => exact ⟨fun _ => rfl, fun ⟨z, hz, _⟩ => by cases hz⟩
  | cons v vs ih =>
    obtain ⟨hok, herror⟩ := ih h.tail
    simp only [List.map_cons, List.forall_mem_cons, List.exists_mem_cons_iff, List.forM_cons,
      List.forM_eq_forM, checkCount_of_isNumber (h v List.mem_cons_self)]
    by_cases hrange : InRange v.number
    · rw [if_pos hrange]
      exact ⟨fun hall => hok hall.2, fun hsome => herror (hsome.resolve_left fun h => h hrange)⟩
    · rw [if_neg hrange]
      exact ⟨fun hall => absurd hall.1 hrange, fun _ => ⟨v, rfl⟩⟩

/-- One half of a rule is made of the integers that there are, in order and each once, when they
have passed the check. -/
theorem exists_counts_eq (half : Half) (hvs : AreNumbers vs) :
    ∃ ws, AreNumbers ws ∧ (∀ z, z ∈ ws.map number ↔ z ∈ vs.map number) ∧
      (ws.map number).Pairwise (· < ·) ∧
        (list vs).counts half = (ws.forM (checkCount half)).map fun _ => ws := by
  obtain ⟨kept, hdistinct, hsub, hmem, hnodup⟩ :=
    exists_distinctFrom areNumbers_nil hvs .nil
  rw [List.nil_append] at hsub hmem
  obtain ⟨ws, hsort, hperm, hsorted⟩ := exists_sort (fun v hv => hvs v (hsub hv)) hnodup
  refine ⟨ws, fun w hw => hvs w (hsub (hperm.mem_iff.1 hw)), fun z => ?_, hsorted, ?_⟩
  · rw [← hmem, (hperm.map number).mem_iff]
  · simp only [counts, items, bind, Except.bind, hdistinct, hsort]
    cases ws.forM (checkCount half) <;> rfl

theorem mapM_asWord (hvs : AreNumbers vs) (hwords : ∀ z ∈ vs.map number, IsWord z) :
    vs.mapM asWord = .ok ((vs.map number).map word) := by
  induction vs with
  | nil => rfl
  | cons v vs ih =>
    rw [List.map_cons, List.forall_mem_cons] at hwords
    rw [List.mapM_cons, asWord_of_isNumber (hvs v List.mem_cons_self) hwords.1,
      ih hvs.tail hwords.2]
    rfl

end Value

open Value

variable {counts birth survival : List Value}

/-- Integers that fit in words make a test, with a word for each of them. -/
theorem Expr.ofCounts_eq_countIn (hcounts : AreNumbers counts)
    (hwords : ∀ z ∈ counts.map number, IsWord z) :
    Expr.ofCounts counts = .ok (.countIn ((counts.map number).map word)) := by
  rw [Expr.ofCounts, mapM_asWord hcounts hwords]
  rfl

/-- Lists of integers make a life-like rule if all of them can be numbers of live neighbours.  It
has the words for the integers that there are, in order and each once. -/
theorem Statement.exists_ofCounts_sorted (hbirth : AreNumbers birth)
    (hsurvival : AreNumbers survival) (hb : ∀ z ∈ birth.map number, InRange z)
    (hs : ∀ z ∈ survival.map number, InRange z) :
    ∃ bs ss : List Int, (∀ z, z ∈ bs ↔ z ∈ birth.map number) ∧ bs.Pairwise (· < ·) ∧
      (∀ z, z ∈ ss ↔ z ∈ survival.map number) ∧ ss.Pairwise (· < ·) ∧
        Statement.ofCounts (.list birth) (.list survival) =
          .ok (.lifeLike (bs.map word) (ss.map word)) := by
  obtain ⟨b, hb', hbmem, hbsorted, hbeq⟩ := exists_counts_eq .birth hbirth
  obtain ⟨s, hs', hsmem, hssorted, hseq⟩ := exists_counts_eq .survival hsurvival
  have hb : ∀ z ∈ b.map number, InRange z := fun z hz => hb z ((hbmem z).1 hz)
  have hs : ∀ z ∈ s.map number, InRange z := fun z hz => hs z ((hsmem z).1 hz)
  rw [(forM_checkCount .birth hb').1 hb] at hbeq
  rw [(forM_checkCount .survival hs').1 hs] at hseq
  refine ⟨b.map number, s.map number, hbmem, hbsorted, hsmem, hssorted, ?_⟩
  rw [Statement.ofCounts, hbeq, hseq]
  simp only [bind, Except.bind, Except.map,
    Expr.ofCounts_eq_countIn hb' fun z hz => (hb z hz).isWord,
    Expr.ofCounts_eq_countIn hs' fun z hz => (hs z hz).isWord]
  rfl

/-- Integers make no life-like rule if one of them is no number of live neighbours. -/
theorem Statement.ofCounts_eq_error_of_not_inRange (hbirth : AreNumbers birth)
    (hsurvival : AreNumbers survival)
    (hout : ∃ z, (z ∈ birth.map number ∨ z ∈ survival.map number) ∧ ¬InRange z) :
    ∃ half v, Statement.ofCounts (.list birth) (.list survival) =
      .error (.countOutOfRange half v) := by
  obtain ⟨b, hb', hbmem, -, hbeq⟩ := exists_counts_eq .birth hbirth
  obtain ⟨s, hs', hsmem, -, hseq⟩ := exists_counts_eq .survival hsurvival
  by_cases hb : ∃ z ∈ b.map number, ¬InRange z
  · obtain ⟨v, hv⟩ := (forM_checkCount .birth hb').2 hb
    refine ⟨.birth, v, ?_⟩
    rw [Statement.ofCounts, hbeq, hv]
    rfl
  · have hall : ∀ z ∈ b.map number, InRange z := fun z hz =>
      by_contra fun hz' => hb ⟨z, hz, hz'⟩
    obtain ⟨z, hz | hz, hz'⟩ := hout
    · exact absurd ⟨z, (hbmem z).2 hz, hz'⟩ hb
    · obtain ⟨v, hv⟩ := (forM_checkCount .survival hs').2 ⟨z, (hsmem z).2 hz, hz'⟩
      refine ⟨.survival, v, ?_⟩
      rw [Statement.ofCounts, hbeq, hseq, (forM_checkCount .birth hb').1 hall, hv]
      rfl

/-- Lists of counts make a life-like rule, with a word for each number. -/
theorem Statement.exists_ofCounts (hbirth : AreCounts birth) (hsurvival : AreCounts survival)
    (hb : ∀ n, HasCount birth n → n ≤ maxNeighbors)
    (hs : ∀ n, HasCount survival n → n ≤ maxNeighbors) :
    ∃ bs ss, Statement.ofCounts (.list birth) (.list survival) = .ok (.lifeLike bs ss) ∧
      (∀ w, w ∈ bs ↔ HasCount birth w.toNat) ∧ ∀ w, w ∈ ss ↔ HasCount survival w.toNat := by
  have hb' := hbirth.inRange hb
  have hs' := hsurvival.inRange hs
  obtain ⟨bs, ss, hbmem, -, hsmem, -, hrule⟩ :=
    exists_ofCounts_sorted hbirth.areNumbers hsurvival.areNumbers hb' hs'
  refine ⟨_, _, hrule, fun w => ?_, fun w => ?_⟩
  · rw [hasCount_iff hbirth.areNumbers, ← hbmem]
    exact mem_map_word_iff fun z hz => (hb' z ((hbmem z).1 hz)).isWord
  · rw [hasCount_iff hsurvival.areNumbers, ← hsmem]
    exact mem_map_word_iff fun z hz => (hs' z ((hsmem z).1 hz)).isWord

/-- Counts make no life-like rule if one of them is too great. -/
theorem Statement.ofCounts_eq_error (hbirth : AreCounts birth) (hsurvival : AreCounts survival)
    (hgreat : ∃ n, (HasCount birth n ∨ HasCount survival n) ∧ maxNeighbors < n) :
    ∃ half v, Statement.ofCounts (.list birth) (.list survival) =
      .error (.countOutOfRange half v) := by
  obtain ⟨n, hn, hlt⟩ := hgreat
  rw [hasCount_iff hbirth.areNumbers, hasCount_iff hsurvival.areNumbers] at hn
  refine ofCounts_eq_error_of_not_inRange hbirth.areNumbers hsurvival.areNumbers
    ⟨n, hn, fun hrange => ?_⟩
  have hle := hrange.2
  omega

end CellShader
