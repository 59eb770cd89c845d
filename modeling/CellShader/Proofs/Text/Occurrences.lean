import CellShader.Proofs.Text.Rows
import CellShader.Text.Occurrence
import Mathlib.Algebra.Ring.Nat

/-!
# Where a pattern occurs

A pattern does not reach across a character that it does not hold (`infix_append_cons_iff`).  So its
occurrences are counted on either side of such a character (`count_append_cons`), and in a text
that is put together from rows in each of them (`count_joinRows`).  A pattern that does not overlap
with itself (`IsUnbordered`) is counted once exactly if a text can be parted around it in one way
(`count_eq_one_iff`), and what is put in its place then comes between the parts
(`PartsOnce.count_eq_one_and_replace_eq`).
-/

namespace CellShader.Text

variable {pattern : List Char} {c : Char}

/-! ## Across a character -/

theorem prefix_append_cons_iff (hc : c ∉ pattern) (a b : List Char) :
    pattern <+: a ++ c :: b ↔ pattern <+: a := by
  refine ⟨fun h => ?_, List.prefix_append_of_prefix⟩
  rcases Nat.lt_or_ge a.length pattern.length with hlength | hlength
  · have hfront : a ++ [c] <+: pattern := by
      refine List.prefix_of_prefix_length_le ⟨b, by simp⟩ h ?_
      rwa [List.length_append, List.length_singleton]
    exact absurd (hfront.subset (by simp)) hc
  · exact List.prefix_of_prefix_length_le h (List.prefix_append a (c :: b)) hlength

theorem infix_append_cons_iff (hc : c ∉ pattern) (a b : List Char) :
    pattern <:+: a ++ c :: b ↔ pattern <:+: a ∨ pattern <:+: b := by
  constructor
  · intro h
    rcases List.infix_append_iff.1 h with h | h | ⟨left, right, rfl, hleft, hright⟩
    · exact .inl h
    · rcases List.infix_cons_iff.1 h with h | h
      · rw [← List.nil_append (c :: b), prefix_append_cons_iff hc, List.prefix_nil] at h
        exact .inl (h ▸ List.nil_infix)
      · exact .inr h
    · have hcright : c ∉ right := fun hm => hc (List.mem_append_right left hm)
      rw [← List.nil_append (c :: b), prefix_append_cons_iff hcright, List.prefix_nil] at hright
      rw [hright, List.append_nil]
      exact .inl hleft.isInfix
  · rintro (h | h)
    · exact h.trans (List.prefix_append _ _).isInfix
    · exact h.trans ((List.suffix_cons c b).isInfix.trans (List.suffix_append _ _).isInfix)

/-! ## Counting on either side -/

theorem count_of_ne_nil (hne : pattern ≠ []) (cs : List Char) :
    count pattern cs = countFrom pattern 0 cs := by
  rw [count, if_neg (by simpa using hne)]

theorem countFrom_append_cons (hne : pattern ≠ []) (hc : c ∉ pattern) {skip : Nat} {a : List Char}
    (hskip : skip ≤ a.length) (b : List Char) :
    countFrom pattern skip (a ++ c :: b) = countFrom pattern skip a + countFrom pattern 0 b := by
  induction a generalizing skip with
  | nil =>
    obtain rfl : skip = 0 := by simpa using hskip
    have hfront : pattern.isPrefixOf (c :: b) = false := by
      rw [Bool.eq_false_iff, ne_eq, List.isPrefixOf_iff_prefix, ← List.nil_append (c :: b),
        prefix_append_cons_iff hc, List.prefix_nil]
      exact hne
    simp [countFrom, hfront]
  | cons d a ih =>
    cases skip with
    | succ skip => exact ih (by simpa using hskip)
    | zero =>
      have hsame : pattern.isPrefixOf (d :: (a ++ c :: b)) = pattern.isPrefixOf (d :: a) := by
        rw [Bool.eq_iff_iff, List.isPrefixOf_iff_prefix, List.isPrefixOf_iff_prefix,
          ← List.cons_append, prefix_append_cons_iff hc]
      rw [List.cons_append, countFrom, countFrom, hsame]
      split
      · rename_i hfront
        have hlength := (List.isPrefixOf_iff_prefix.1 hfront).length_le
        rw [List.length_cons] at hlength
        rw [ih (by omega)]
        omega
      · exact ih (Nat.zero_le _)

theorem count_append_cons (hne : pattern ≠ []) (hc : c ∉ pattern) (a b : List Char) :
    count pattern (a ++ c :: b) = count pattern a + count pattern b := by
  simp only [count_of_ne_nil hne]
  exact countFrom_append_cons hne hc (Nat.zero_le _) b

theorem count_nil (hne : pattern ≠ []) : count pattern [] = 0 := count_of_ne_nil hne []

/-- A pattern without line feeds is counted in each of the texts that are put together with line
feeds. -/
theorem count_joinRows (hne : pattern ≠ []) (hc : '\n' ∉ pattern) (ps : List (List Char)) :
    count pattern (joinRows ps) = (ps.map (count pattern)).sum := by
  induction ps with
  | nil => exact count_nil hne
  | cons p ps ih =>
    cases ps with
    | nil => simp [joinRows, glue]
    | cons q qs =>
      rw [show joinRows (p :: q :: qs) = p ++ '\n' :: joinRows (q :: qs) from rfl,
        count_append_cons hne hc, ih]
      rfl

theorem count_mapRows (hne : pattern ≠ []) (hc : '\n' ∉ pattern) (f : List Char → List Char)
    (cs : List Char) :
    count pattern (mapRows f cs) = ((rows cs).map fun row => count pattern (f row)).sum := by
  rw [mapRows, count_joinRows hne hc, List.map_map]
  rfl

/-! ## The first occurrence -/

theorem replace_of_ne_nil (hne : pattern ≠ []) (new cs : List Char) :
    replace pattern new cs = replaceFrom pattern new 0 cs := by
  rw [replace, if_neg (by simpa using hne)]

theorem count_eq_zero_iff (hne : pattern ≠ []) {cs : List Char} :
    count pattern cs = 0 ↔ ¬ pattern <:+: cs := by
  rw [count_of_ne_nil hne, ← countFrom_ne_zero_iff hne, not_not]

theorem countFrom_length_append (a b : List Char) :
    countFrom pattern a.length (a ++ b) = countFrom pattern 0 b := by
  induction a with
  | nil => rfl
  | cons c a ih => exact ih

theorem replaceFrom_length_append (new a b : List Char) :
    replaceFrom pattern new a.length (a ++ b) = replaceFrom pattern new 0 b := by
  induction a with
  | nil => rfl
  | cons c a ih => exact ih

theorem replace_eq_self (hne : pattern ≠ []) {cs : List Char} (h : count pattern cs = 0)
    (new : List Char) : replace pattern new cs = cs := by
  rw [count_of_ne_nil hne] at h
  rw [replace_of_ne_nil hne]
  induction cs with
  | nil => rfl
  | cons c cs ih =>
    rw [countFrom] at h
    rw [replaceFrom]
    split
    · rename_i hfront
      simp [hfront] at h
    · rename_i hfront
      rw [if_neg hfront] at h
      rw [ih h]

theorem mem_or_mem_of_mem_replaceFrom {new cs : List Char} {x : Char} {skip : Nat}
    (h : x ∈ replaceFrom pattern new skip cs) : x ∈ new ∨ x ∈ cs := by
  fun_induction replaceFrom pattern new skip cs with
  | case1 => simp at h
  | case2 skip c cs ih => exact (ih h).imp_right (List.mem_cons_of_mem c)
  | case3 c cs _ ih =>
    rcases List.mem_append.1 h with hnew | hrest
    · exact .inl hnew
    · exact (ih hrest).imp_right (List.mem_cons_of_mem c)
  | case4 c cs _ ih =>
    rcases List.mem_cons.1 h with rfl | hrest
    · exact .inr List.mem_cons_self
    · exact (ih hrest).imp_right (List.mem_cons_of_mem c)

/-- What is replaced brings in no characters but those of the new text. -/
theorem mem_or_mem_of_mem_replace {new cs : List Char} {x : Char}
    (h : x ∈ replace pattern new cs) : x ∈ new ∨ x ∈ cs := by
  unfold replace at h
  split at h
  · rw [List.mem_append, List.mem_flatMap] at h
    rcases h with hnew | ⟨c, hc, hx⟩
    · exact .inl hnew
    · rcases List.mem_cons.1 hx with rfl | hnew
      · exact .inr hc
      · exact .inl hnew
  · exact mem_or_mem_of_mem_replaceFrom h

theorem count_eq_zero_of_not_mem {cs : List Char} (hpattern : c ∈ pattern) (hcs : c ∉ cs) :
    count pattern cs = 0 :=
  (count_eq_zero_iff (List.ne_nil_of_mem hpattern)).2 fun h => hcs (h.subset hpattern)

theorem count_cons_of_not_prefix (hne : pattern ≠ []) {cs : List Char}
    (h : ¬ pattern <+: c :: cs) : count pattern (c :: cs) = count pattern cs := by
  rw [count_of_ne_nil hne, count_of_ne_nil hne, countFrom,
    if_neg (by rwa [List.isPrefixOf_iff_prefix])]

theorem count_self_append (hne : pattern ≠ []) (cs : List Char) :
    count pattern (pattern ++ cs) = count pattern cs + 1 := by
  obtain ⟨d, rest, rfl⟩ := List.exists_cons_of_ne_nil hne
  have hfront : (d :: rest).isPrefixOf (d :: (rest ++ cs)) = true :=
    List.isPrefixOf_iff_prefix.2 (List.prefix_append (d :: rest) cs)
  rw [count_of_ne_nil hne, count_of_ne_nil hne, List.cons_append, countFrom, if_pos hfront]
  exact congrArg (· + 1) (countFrom_length_append rest cs)

/-- Counting and replacing begin with the first occurrence and go on behind it. -/
theorem exists_first_occurrence (hne : pattern ≠ []) {cs : List Char} (h : count pattern cs ≠ 0) :
    ∃ pre post, cs = pre ++ pattern ++ post ∧
      (∀ pre' post', cs = pre' ++ pattern ++ post' → pre.length ≤ pre'.length) ∧
      count pattern cs = count pattern post + 1 ∧
      ∀ new, replace pattern new cs = pre ++ new ++ replace pattern new post := by
  simp only [count_of_ne_nil hne, replace_of_ne_nil hne] at h ⊢
  induction cs with
  | nil => exact absurd rfl h
  | cons c cs ih =>
    by_cases hfront : pattern.isPrefixOf (c :: cs) = true
    · obtain ⟨post, hpost⟩ := List.isPrefixOf_iff_prefix.1 hfront
      obtain ⟨d, rest, rfl⟩ := List.exists_cons_of_ne_nil hne
      obtain ⟨rfl, rfl⟩ := List.cons.inj hpost
      refine ⟨[], post, rfl, fun _ _ _ => Nat.zero_le _, ?_, fun new => ?_⟩
      · rw [countFrom, if_pos hfront]
        exact congrArg (· + 1) (countFrom_length_append rest post)
      · rw [replaceFrom, if_pos hfront]
        exact congrArg (new ++ ·) (replaceFrom_length_append new rest post)
    · rw [countFrom, if_neg hfront] at h ⊢
      obtain ⟨pre, post, rfl, hfirst, hcount, hreplace⟩ := ih h
      refine ⟨c :: pre, post, rfl, fun pre' post' hcs => ?_, hcount, fun new => ?_⟩
      · cases pre' with
        | nil =>
          have hprefix : pattern <+: c :: (pre ++ pattern ++ post) := ⟨post', hcs.symm⟩
          exact absurd (List.isPrefixOf_iff_prefix.2 hprefix) hfront
        | cons d pre' => exact Nat.succ_le_succ (hfirst pre' post' (List.cons.inj hcs).2)
      · rw [replaceFrom, if_neg hfront, hreplace]
        rfl

/-! ## The only occurrence -/

/-- Whether nothing but the whole of a pattern, or nothing at all, both begins and ends it. -/
def IsUnbordered (pattern : List Char) : Prop :=
  ∀ part, part <+: pattern → part <:+ pattern → part = [] ∨ part = pattern

/-- It is enough that the first character does not come again. -/
theorem isUnbordered_cons (hc : c ∉ pattern) : IsUnbordered (c :: pattern) := by
  intro part hprefix hsuffix
  cases part with
  | nil => exact .inl rfl
  | cons d part =>
    obtain rfl := (List.cons_prefix_cons.1 hprefix).1
    rcases List.suffix_cons_iff.1 hsuffix with h | h
    · exact .inr h
    · exact absurd (h.subset List.mem_cons_self) hc

/-- Another occurrence lies behind the first altogether. -/
theorem IsUnbordered.eq_or_infix (h : IsUnbordered pattern) {pre post pre' post' : List Char}
    (hcs : pre ++ pattern ++ post = pre' ++ pattern ++ post') (hle : pre.length ≤ pre'.length) :
    pre = pre' ∨ pattern <:+: post := by
  obtain ⟨between, rfl⟩ : pre <+: pre' := by
    refine List.prefix_of_prefix_length_le ?_ (List.prefix_append pre' (pattern ++ post')) hle
    exact ⟨pattern ++ post, by rw [← List.append_assoc, hcs, List.append_assoc]⟩
  simp only [List.append_assoc] at hcs
  rcases List.append_eq_append_iff.1 (List.append_cancel_left hcs) with
    ⟨gap, -, rfl⟩ | ⟨part, hpattern, hpart⟩
  · exact .inr ⟨gap, post', by simp⟩
  · have hsuffix : part <:+ pattern := ⟨between, hpattern.symm⟩
    have hprefix : part <+: pattern :=
      List.prefix_of_prefix_length_le ⟨post, hpart.symm⟩ (List.prefix_append pattern post')
        hsuffix.length_le
    rcases h part hprefix hsuffix with rfl | rfl
    · exact .inr ⟨[], post', by simpa using hpart⟩
    · have hbetween : between = [] := List.append_left_eq_self.1 hpattern.symm
      exact .inl (by rw [hbetween, List.append_nil])

/-- Whether a text can be parted around a pattern in one way: into these two parts. -/
structure PartsOnce (pattern cs pre post : List Char) : Prop where
  eq : cs = pre ++ pattern ++ post
  only : ∀ pre' post', cs = pre' ++ pattern ++ post' → pre' = pre ∧ post' = post

/-- The pattern is in neither part. -/
theorem PartsOnce.not_infix (hne : pattern ≠ []) {cs pre post : List Char}
    (h : PartsOnce pattern cs pre post) : ¬ pattern <:+: pre ∧ ¬ pattern <:+: post := by
  obtain ⟨hcs, honly⟩ := h
  have hpos := List.length_pos_iff.2 hne
  constructor
  · rintro ⟨front, between, rfl⟩
    have hfront := (honly front (between ++ pattern ++ post) (by simp [hcs])).1
    have hlength := congrArg List.length hfront
    simp only [List.length_append] at hlength
    omega
  · rintro ⟨between, behind, rfl⟩
    have hfront := (honly (pre ++ pattern ++ between) behind (by simp [hcs])).1
    have hlength := congrArg List.length hfront
    simp only [List.length_append] at hlength
    omega

/-- What is counted is what stands between the parts, and so is what is replaced. -/
theorem PartsOnce.count_eq_one_and_replace_eq (hne : pattern ≠ []) {cs pre post : List Char}
    (h : PartsOnce pattern cs pre post) :
    count pattern cs = 1 ∧ ∀ new, replace pattern new cs = pre ++ new ++ post := by
  have hsome : count pattern cs ≠ 0 := by
    rw [ne_eq, count_eq_zero_iff hne, not_not]
    exact ⟨pre, post, h.eq.symm⟩
  obtain ⟨first, rest, hfirst, -, hcount, hreplace⟩ := exists_first_occurrence hne hsome
  obtain ⟨rfl, rfl⟩ := h.only first rest hfirst
  have hrest : count pattern rest = 0 := (count_eq_zero_iff hne).2 (h.not_infix hne).2
  exact ⟨by rw [hcount, hrest], fun new => by rw [hreplace, replace_eq_self hne hrest]⟩

/-- A pattern that does not overlap with itself is counted once exactly if a text can be parted
around it in one way. -/
theorem count_eq_one_iff (hne : pattern ≠ []) (h : IsUnbordered pattern) {cs : List Char} :
    count pattern cs = 1 ↔ ∃ pre post, PartsOnce pattern cs pre post := by
  refine ⟨fun hone => ?_, fun ⟨_, _, hparts⟩ => (hparts.count_eq_one_and_replace_eq hne).1⟩
  obtain ⟨pre, post, hcs, hfirst, hcount, -⟩ :=
    exists_first_occurrence hne (Nat.ne_of_gt (hone ▸ Nat.one_pos))
  have hpost : ¬ pattern <:+: post := (count_eq_zero_iff hne).1 (by omega)
  refine ⟨pre, post, hcs, fun pre' post' hcs' => ?_⟩
  obtain rfl : pre = pre' :=
    (h.eq_or_infix (hcs.symm.trans hcs') (hfirst pre' post' hcs')).resolve_right hpost
  exact ⟨rfl, (List.append_cancel_left (hcs.symm.trans hcs')).symm⟩

end CellShader.Text
