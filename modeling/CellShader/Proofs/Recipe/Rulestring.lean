import CellShader.Proofs.Recipe.Counts
import CellShader.Proofs.Text.Rows
import CellShader.Recipe.Rulestring

/-!
# What rulestrings spell

A rulestring is read as two parts with a slash between (`Rulestring.parts?_eq_some_iff`), and the
digits of the parts make a rule unless one of them is a nine.  So rules come from the texts of the
notation and from no others (`Statement.ofRulestring_spells`).
-/

namespace CellShader

open Text

/-- The letter for a half of a rule. -/
def Half.letter : Half → Char
  | birth => 'B'
  | survival => 'S'

namespace Rulestring

/-! ## The notation -/

/-- The capital of a letter, as far as it is one of ASCII: that of the long s and of the dotless i
is, too. -/
def capital (c : Char) : Char :=
  if c = '\u017f' then 'S' else if c = '\u0131' then 'I' else c.toUpper

/-- Whether a text is a letter for the half and the digits, with blanks before and behind. -/
def IsPart (half : Half) (digits cs : List Char) : Prop :=
  ∃ before k after, cs = before ++ k :: (digits ++ after) ∧ (∀ c ∈ before, isBlank c = true) ∧
    capital k = half.letter ∧ (∀ d ∈ digits, d.isDigit = true) ∧ ∀ c ∈ after, isBlank c = true

/-- Whether a text spells a rule with the digits for birth and those for survival. -/
def Spells (cs birth survival : List Char) : Prop :=
  (∀ d ∈ birth ++ survival, d ≤ '8') ∧ ∃ first second, cs = first ++ '/' :: second ∧
    (IsPart .birth birth first ∧ IsPart .survival survival second ∨
      IsPart .survival survival first ∧ IsPart .birth birth second)

/-- The number that a digit stands for. -/
def digitNumber (d : Char) : Nat := d.toNat - '0'.toNat

/-- The numbers that digits stand for, as a list of plain values. -/
def digitValues (digits : List Char) : Value :=
  .list (digits.map fun d => .integer (digitNumber d))

variable {half : Half} {k : Char} {digits rest cs : List Char} {p first second : Part}

/-! ## Letters -/

theorem toNat_toUpper (c : Char) :
    c.toUpper.toNat = if 97 ≤ c.toNat ∧ c.toNat ≤ 122 then c.toNat - 32 else c.toNat := by
  have hsmall : 'a'.val ≤ c.val ∧ c.val ≤ 'z'.val ↔ 97 ≤ c.toNat ∧ c.toNat ≤ 122 := Iff.rfl
  have hstep : ('A'.val - 'a'.val).toNat = 2 ^ 32 - 32 := by decide
  unfold Char.toUpper
  split
  · rename_i h
    have hc := hsmall.1 h
    rw [if_pos hc]
    show (c.val + ('A'.val - 'a'.val)).toNat = c.toNat - 32
    have hval : c.val.toNat = c.toNat := rfl
    rw [UInt32.toNat_add]
    omega
  · rename_i h
    rw [if_neg fun hc => h (hsmall.2 hc)]

/-- A capital letter is that of itself and of the small letter. -/
theorem toUpper_eq_iff {u : Char} (hu : 65 ≤ u.toNat ∧ u.toNat ≤ 90) :
    k.toUpper = u ↔ k.toNat = u.toNat ∨ k.toNat = u.toNat + 32 := by
  rw [← Char.toNat_inj, toNat_toUpper]
  split <;> omega

theorem half?_eq_birth_iff : half? k = some .birth ↔ k = 'B' ∨ k = 'b' := by
  simp [half?, or_iff_not_imp_left]

theorem half?_eq_survival_iff :
    half? k = some .survival ↔ k = 'S' ∨ k = 's' ∨ k = '\u017f' := by
  by_cases hk : k = 'B' ∨ k = 'b'
  · rcases hk with rfl | rfl <;> decide
  · rw [not_or] at hk
    simp [half?, hk, or_iff_not_imp_left]

theorem half?_eq_some_iff : half? k = some half ↔ capital k = half.letter := by
  by_cases hlong : k = '\u017f'
  · subst hlong
    cases half <;> decide
  by_cases hdotless : k = '\u0131'
  · subst hdotless
    cases half <;> decide
  rw [capital, if_neg hlong, if_neg hdotless]
  cases half with
  | birth =>
    rw [half?_eq_birth_iff, Half.letter, toUpper_eq_iff (by decide), ← Char.toNat_inj,
      ← Char.toNat_inj]
    rfl
  | survival =>
    rw [half?_eq_survival_iff, Half.letter, toUpper_eq_iff (by decide), ← Char.toNat_inj,
      ← Char.toNat_inj, or_iff_left hlong]
    rfl

theorem isBlank_eq_false_of_half? (h : half? k = some half) : isBlank k = false := by
  cases half with
  | birth => rcases half?_eq_birth_iff.1 h with rfl | rfl <;> decide
  | survival => rcases half?_eq_survival_iff.1 h with rfl | rfl | rfl <;> decide

theorem isDigit_eq_false_of_isBlank {c : Char} (h : isBlank c = true) : c.isDigit = false := by
  rw [Bool.eq_false_iff]
  intro hdigit
  have hc : 48 ≤ c.toNat ∧ c.toNat ≤ 57 := by
    simpa [Char.isDigit, Char.le_def, UInt32.le_iff_toNat_le] using hdigit
  simp only [isBlank, Bool.or_eq_true, Bool.and_eq_true, decide_eq_true_eq, beq_iff_eq] at h
  omega

/-! ## Parts -/

theorem IsPart.append {blanks : List Char} (h : IsPart half digits cs)
    (hblanks : ∀ c ∈ blanks, isBlank c = true) : IsPart half digits (cs ++ blanks) := by
  obtain ⟨before, k, after, rfl, hbefore, hk, hdigits, hafter⟩ := h
  exact ⟨before, k, after ++ blanks, by simp, hbefore, hk, hdigits,
    List.forall_mem_append.2 ⟨hafter, hblanks⟩⟩

/-- What is read from the front of a text is a part. -/
theorem exists_isPart_of_part? (h : part? cs = some (p, rest)) :
    ∃ part digits, cs = part ++ rest ∧ IsPart p.half digits part ∧
      p.counts = digits.map digitNumber := by
  have hsplit := List.takeWhile_append_dropWhile (p := isBlank) (l := cs)
  unfold part? at h
  split at h
  · cases h
  · rename_i k tail htail
    obtain ⟨half, hhalf, h⟩ := Option.map_eq_some_iff.1 h
    obtain ⟨rfl, rfl⟩ := Prod.mk.inj h
    refine ⟨cs.takeWhile isBlank ++ k :: (tail.takeWhile Char.isDigit ++ []), _, ?_,
      ⟨_, k, [], rfl, fun c hc => List.mem_takeWhile_imp hc, half?_eq_some_iff.1 hhalf,
        fun d hd => List.mem_takeWhile_imp hd, by simp⟩, rfl⟩
    rw [List.append_nil, List.append_assoc, List.cons_append, List.takeWhile_append_dropWhile,
      ← htail, hsplit]

/-- A part is read from the front of a text up to the blanks at its end. -/
theorem IsPart.exists_part?_append (h : IsPart p.half digits cs)
    (hcounts : p.counts = digits.map digitNumber) (hrest : ∀ c ∈ rest.head?, c.isDigit = false) :
    ∃ after, (∀ c ∈ after, isBlank c = true) ∧ part? (cs ++ rest) = some (p, after ++ rest) := by
  obtain ⟨before, k, after, rfl, hbefore, hk, hdigits, hafter⟩ := h
  refine ⟨after, hafter, ?_⟩
  have hhalf := half?_eq_some_iff.2 hk
  have hhead : ∀ c ∈ (k :: (digits ++ (after ++ rest))).head?, isBlank c = false := by
    simpa using isBlank_eq_false_of_half? hhalf
  have hbehind : ∀ c ∈ (after ++ rest).head?, c.isDigit = false := by
    cases after with
    | nil => exact hrest
    | cons c after => simpa using isDigit_eq_false_of_isBlank (hafter c List.mem_cons_self)
  have hdrop : (digits ++ (after ++ rest)).dropWhile Char.isDigit = after ++ rest :=
    dropWhile_append_of_bare hdigits hbehind
  have htake : (digits ++ (after ++ rest)).takeWhile Char.isDigit = digits := by
    have hsplit :=
      List.takeWhile_append_dropWhile (p := Char.isDigit) (l := digits ++ (after ++ rest))
    rw [hdrop] at hsplit
    exact List.append_cancel_right hsplit
  rw [List.append_assoc, List.cons_append, List.append_assoc, part?,
    dropWhile_append_of_bare hbefore hhead]
  simp only [hhalf, Option.map_some, hdrop, htake]
  rw [show digits.map (fun d => d.toNat - '0'.toNat) = p.counts from hcounts.symm]

/-- The parts that are read are those with a slash between. -/
theorem parts?_eq_some_iff : parts? cs = some (first, second) ↔ ∃ l r ds es,
    cs = l ++ '/' :: r ∧ IsPart first.half ds l ∧ IsPart second.half es r ∧
      first.counts = ds.map digitNumber ∧ second.counts = es.map digitNumber := by
  constructor
  · intro h
    unfold parts? at h
    split at h
    · cases h
    rename_i p rest hfirst
    split at h
    case h_2 => cases h
    rename_i tail htail
    split at h
    · cases h
    rename_i q rest' hsecond
    split at h
    case isFalse => cases h
    rename_i hall
    obtain ⟨rfl, rfl⟩ := Prod.mk.inj (Option.some.inj h)
    obtain ⟨l, ds, rfl, hl, hcounts⟩ := exists_isPart_of_part? hfirst
    obtain ⟨r, es, rfl, hr, hcounts'⟩ := exists_isPart_of_part? hsecond
    have hrest : rest = rest.takeWhile isBlank ++ '/' :: (r ++ rest') := by
      rw [← htail, List.takeWhile_append_dropWhile]
    refine ⟨l ++ rest.takeWhile isBlank, r ++ rest', ds, es, ?_,
      hl.append fun c hc => List.mem_takeWhile_imp hc, hr.append (List.all_eq_true.1 hall),
      hcounts, hcounts'⟩
    rw [List.append_assoc, ← hrest]
  · rintro ⟨l, r, ds, es, rfl, hl, hr, hcounts, hcounts'⟩
    have hslash : ∀ c ∈ ('/' :: r).head?, c.isDigit = false ∧ isBlank c = false := by simp; decide
    have hnone : ∀ c ∈ ([] : List Char).head?, c.isDigit = false := by simp
    obtain ⟨after, hafter, hfirst⟩ :=
      hl.exists_part?_append hcounts fun c hc => (hslash c hc).1
    obtain ⟨after', hafter', hsecond⟩ := hr.exists_part?_append hcounts' hnone
    rw [List.append_nil, List.append_nil] at hsecond
    rw [parts?, hfirst]
    dsimp only
    rw [dropWhile_append_of_bare hafter fun c hc => (hslash c hc).2]
    simp only [hsecond]
    exact if_pos (List.all_eq_true.2 hafter')

/-! ## Digits -/

theorem areCounts_digits (digits : List Char) :
    Value.AreCounts (digits.map fun d => .integer (digitNumber d)) := by
  intro v hv
  obtain ⟨d, -, rfl⟩ := List.mem_map.1 hv
  exact ⟨digitNumber d, .inl rfl⟩

theorem hasCount_digits_iff {n : Nat} :
    Value.HasCount (digits.map fun d => .integer (digitNumber d)) n ↔
      ∃ d ∈ digits, digitNumber d = n := by
  simp [Value.HasCount, Value.IsCount]

theorem digitNumber_le_iff {d : Char} : digitNumber d ≤ maxNeighbors ↔ d ≤ '8' := by
  have hd : d ≤ '8' ↔ d.toNat ≤ 56 := Char.le_def.trans UInt32.le_iff_toNat_le
  rw [hd]
  show d.toNat - 48 ≤ 8 ↔ d.toNat ≤ 56
  omega

variable {birth survival : List Char}

theorem exists_ofCounts_digitValues (h : ∀ d ∈ birth ++ survival, d ≤ '8') :
    ∃ tree, Statement.ofCounts (digitValues birth) (digitValues survival) = .ok tree := by
  have hle : ∀ digits : List Char, (∀ d ∈ digits, d ≤ '8') → ∀ n,
      Value.HasCount (digits.map fun d => .integer (digitNumber d)) n → n ≤ maxNeighbors := by
    intro digits hdigits n hn
    obtain ⟨d, hd, rfl⟩ := hasCount_digits_iff.1 hn
    exact digitNumber_le_iff.2 (hdigits d hd)
  obtain ⟨hbirth, hsurvival⟩ := List.forall_mem_append.1 h
  obtain ⟨bs, ss, hrule, -, -⟩ := Statement.exists_ofCounts (areCounts_digits birth)
    (areCounts_digits survival) (hle birth hbirth) (hle survival hsurvival)
  exact ⟨_, hrule⟩

theorem ofCounts_digitValues_eq_error (h : ¬∀ d ∈ birth ++ survival, d ≤ '8') :
    ∃ fault, Statement.ofCounts (digitValues birth) (digitValues survival) = .error fault ∧
      fault.kind = .value := by
  obtain ⟨d, h⟩ := not_forall.1 h
  obtain ⟨hd, hgreat⟩ := Classical.not_imp.1 h
  have hlt : maxNeighbors < digitNumber d :=
    Nat.lt_of_not_le fun hle => hgreat (digitNumber_le_iff.1 hle)
  obtain ⟨half, v, hfault⟩ := Statement.ofCounts_eq_error (areCounts_digits birth)
    (areCounts_digits survival) ⟨digitNumber d, (List.mem_append.1 hd).imp
      (fun hd => hasCount_digits_iff.2 ⟨d, hd, rfl⟩)
      (fun hd => hasCount_digits_iff.2 ⟨d, hd, rfl⟩), hlt⟩
  exact ⟨_, hfault, rfl⟩

end Rulestring

open Rulestring

/-! ## Rules -/

section Rule

variable {s : String} {half half' : Half} {l r ds es : List Char}

theorem Rulestring.value_part (half : Half) (digits : List Char) :
    Part.value ⟨half, digits.map digitNumber⟩ = digitValues digits := by
  rw [Part.value, List.map_map]
  rfl

theorem Statement.ofRulestring_of_isPart (hs : s.toList = l ++ '/' :: r) (hl : IsPart half ds l)
    (hr : IsPart half' es r) :
    Statement.ofRulestring s =
      match half, half' with
      | .birth, .survival => Statement.ofCounts (digitValues ds) (digitValues es)
      | .survival, .birth => Statement.ofCounts (digitValues es) (digitValues ds)
      | _, _ => .error (.rulestringHalves s) := by
  have hparts : parts? s.toList =
      some (⟨half, ds.map digitNumber⟩, ⟨half', es.map digitNumber⟩) :=
    parts?_eq_some_iff.2 ⟨l, r, ds, es, hs, hl, hr, rfl, rfl⟩
  rw [Statement.ofRulestring, hparts]
  cases half <;> cases half' <;> simp only [value_part]

/-- Whatever is wrong with a rulestring is a fault of value. -/
theorem Statement.kind_of_ofRulestring_eq_error {fault : BuildFault}
    (h : Statement.ofRulestring s = .error fault) : fault.kind = .value := by
  cases hparts : parts? s.toList with
  | none =>
    rw [Statement.ofRulestring, hparts] at h
    obtain rfl := Except.error.inj h
    rfl
  | some parts =>
    obtain ⟨⟨half, _⟩, half', _⟩ := parts
    obtain ⟨l, r, ds, es, hs, hl, hr, -, -⟩ := parts?_eq_some_iff.1 hparts
    have hcounts : ∀ birth survival,
        Statement.ofCounts (digitValues birth) (digitValues survival) = .error fault →
          fault.kind = .value := by
      intro birth survival hfault
      by_cases hle : ∀ d ∈ birth ++ survival, d ≤ '8'
      · obtain ⟨tree, htree⟩ := exists_ofCounts_digitValues hle
        cases htree.symm.trans hfault
      · obtain ⟨fault', hfault', hkind⟩ := ofCounts_digitValues_eq_error hle
        obtain rfl := Except.error.inj (hfault'.symm.trans hfault)
        exact hkind
    rw [ofRulestring_of_isPart hs hl hr] at h
    cases half <;> cases half'
    case birth.survival | survival.birth => exact hcounts _ _ h
    all_goals
      obtain rfl := Except.error.inj h
      rfl

end Rule

/-- A text denotes a rule if it spells one, and then the rule with these digits for its counts.
For any other text there is a fault of value. -/
theorem Statement.ofRulestring_spells (s : String) :
    ((∃ tree, Statement.ofRulestring s = .ok tree) ↔
        ∃ birth survival, Spells s.toList birth survival) ∧
      (∀ birth survival, Spells s.toList birth survival →
        ∃ tree, Statement.ofRulestring s = .ok tree ∧
          Statement.ofCounts (digitValues birth) (digitValues survival) = .ok tree) ∧
      ((¬∃ birth survival, Spells s.toList birth survival) →
        ∃ fault, Statement.ofRulestring s = .error fault ∧ fault.kind = .value) := by
  have hspells : ∀ birth survival, Spells s.toList birth survival →
      ∃ tree, Statement.ofRulestring s = .ok tree ∧
        Statement.ofCounts (digitValues birth) (digitValues survival) = .ok tree := by
    rintro birth survival ⟨hle, l, r, hs, h⟩
    obtain ⟨tree, htree⟩ := exists_ofCounts_digitValues hle
    refine ⟨tree, ?_, htree⟩
    rcases h with ⟨hl, hr⟩ | ⟨hl, hr⟩ <;> rw [ofRulestring_of_isPart hs hl hr] <;> exact htree
  have hother : (¬∃ birth survival, Spells s.toList birth survival) →
      ∃ fault, Statement.ofRulestring s = .error fault ∧ fault.kind = .value := by
    intro hnot
    cases hparts : parts? s.toList with
    | none => exact ⟨_, by rw [Statement.ofRulestring, hparts], rfl⟩
    | some parts =>
      obtain ⟨⟨half, _⟩, half', _⟩ := parts
      obtain ⟨l, r, ds, es, hs, hl, hr, -, -⟩ := parts?_eq_some_iff.1 hparts
      rw [ofRulestring_of_isPart hs hl hr]
      -- with one half of each kind only the digits are left to be at fault
      cases half <;> cases half'
      case birth.survival =>
        exact ofCounts_digitValues_eq_error fun hle =>
          hnot ⟨ds, es, hle, l, r, hs, .inl ⟨hl, hr⟩⟩
      case survival.birth =>
        exact ofCounts_digitValues_eq_error fun hle =>
          hnot ⟨es, ds, hle, l, r, hs, .inr ⟨hl, hr⟩⟩
      all_goals exact ⟨_, rfl, rfl⟩
  refine ⟨⟨fun ⟨tree, htree⟩ => ?_, fun ⟨birth, survival, h⟩ => ?_⟩, hspells, hother⟩
  · by_contra hnot
    obtain ⟨fault, hfault, -⟩ := hother hnot
    rw [htree] at hfault
    cases hfault
  · obtain ⟨tree, htree, -⟩ := hspells birth survival h
    exact ⟨tree, htree⟩

example : (Statement.ofRulestring "s23 / B3").toOption = some .conway := by rfl

end CellShader
