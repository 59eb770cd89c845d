import CellShader.Proofs.CommandLine.Outcome

/-!
# Numbered rows

The number in front of a row can be taken away again, whatever the row looks like, since it is known
how long it is (`unnumbered_numbered`).  Control sequences are left out of what is shown, but none
goes across a line feed or begins in a number (`Console.plain_append_lineFeed`,
`Console.plain_append`).  So they are left out row by row, and numbering the rows makes no
difference to what else is shown of them (`Console.plain_numbered`).
-/

namespace CellShader

open Text

/-! ## Taking the numbers away -/

/-- Rows without the numbers in front, which are counted on from `n`.  The last row, behind the last
line feed, has none. -/
def unnumberedRows : Nat → List (List Char) → List (List Char)
  | n, row :: next :: rows => row.drop (rowNumber n).length :: unnumberedRows (n + 1) (next :: rows)
  | _, rows => rows

/-- A text without the numbers in front of its rows, the first of which is 1. -/
def unnumbered (cs : List Char) : List Char := joinRows (unnumberedRows 1 (rows cs))

theorem lineFeed_not_mem_rowNumber (n : Nat) : '\n' ∉ rowNumber n :=
  not_mem_rowNumber (by decide) (by decide) n

/-- There is a line feed behind each row, and nothing behind the last of them. -/
theorem rows_numberedRows {rs : List (List Char)} (h : ∀ row ∈ rs, '\n' ∉ row) (n : Nat) :
    rows (numberedRows n rs) = rs.mapIdx (fun k row => rowNumber (n + k) ++ row) ++ [[]] := by
  induction rs generalizing n with
  | nil => rfl
  | cons row rs ih =>
    obtain ⟨hrow, hrs⟩ := List.forall_mem_cons.1 h
    have hfirst : '\n' ∉ rowNumber n ++ row := by
      simp [lineFeed_not_mem_rowNumber, hrow]
    have hrest := ih hrs (n + 1)
    rw [rows] at hrest ⊢
    rw [numberedRows, cut_append, cut_of_not_mem hfirst, hrest, List.mapIdx_cons]
    simp [Nat.add_comm, Nat.add_left_comm]

theorem unnumberedRows_cons {rest : List (List Char)} (h : rest ≠ []) (n : Nat)
    (row : List Char) :
    unnumberedRows n (row :: rest) =
      row.drop (rowNumber n).length :: unnumberedRows (n + 1) rest := by
  obtain ⟨next, rows, rfl⟩ := List.exists_cons_of_ne_nil h
  rfl

theorem unnumberedRows_numbered (n : Nat) (rs : List (List Char)) :
    unnumberedRows n (rs.mapIdx (fun k row => rowNumber (n + k) ++ row) ++ [[]]) = rs ++ [[]] := by
  induction rs generalizing n with
  | nil => rfl
  | cons row rs ih =>
    have hshift : rs.mapIdx (fun k row => rowNumber (n + (k + 1)) ++ row) =
        rs.mapIdx (fun k row => rowNumber (n + 1 + k) ++ row) := by
      simp only [Nat.add_comm, Nat.add_left_comm]
    rw [List.mapIdx_cons, hshift, List.cons_append, unnumberedRows_cons (by simp), ih]
    simp

namespace ShaderSource

theorem rows_numbered (s : ShaderSource) :
    rows s.numbered = (rows s.text).mapIdx (fun k row => rowNumber (1 + k) ++ row) ++ [[]] :=
  rows_numberedRows (fun _ => lineFeed_not_mem_of_mem_rows) 1

theorem unnumbered_numbered (s : ShaderSource) : unnumbered s.numbered = s.text ++ ['\n'] := by
  rw [unnumbered, rows_numbered, unnumberedRows_numbered, joinRows,
    glue_append '\n' (rows_ne_nil s.text) (by simp)]
  exact congrArg (· ++ ['\n']) (joinRows_rows s.text)

theorem numbered_inj {s s' : ShaderSource} : s.numbered = s'.numbered ↔ s.text = s'.text := by
  constructor
  · intro h
    have htext := congrArg unnumbered h
    rw [unnumbered_numbered, unnumbered_numbered] at htext
    exact List.append_cancel_right htext
  · intro h
    rw [numbered, numbered, h]

end ShaderSource

/-! ## Control sequences -/

namespace Console

/-- Whether a control sequence stands in a text. -/
def HasSequence (cs : List Char) : Prop := ∃ rest n, rest <:+ cs ∧ sequenceLength? rest = some n

theorem hasSequence_cons_iff {c : Char} {cs : List Char} :
    HasSequence (c :: cs) ↔ (∃ n, sequenceLength? (c :: cs) = some n) ∨ HasSequence cs := by
  constructor
  · rintro ⟨rest, n, hrest, hn⟩
    rcases List.suffix_cons_iff.1 hrest with rfl | hrest
    · exact .inl ⟨n, hn⟩
    · exact .inr ⟨rest, n, hrest, hn⟩
  · rintro (⟨n, hn⟩ | ⟨rest, n, hrest, hn⟩)
    · exact ⟨_, n, List.suffix_rfl, hn⟩
    · exact ⟨rest, n, hrest.trans (List.suffix_cons c cs), hn⟩

theorem length_plainFrom_le (skip : Nat) (cs : List Char) :
    (plainFrom skip cs).length ≤ cs.length := by
  fun_induction plainFrom skip cs with
  | case1 => simp
  | case2 skip c cs ih => exact Nat.le_succ_of_le ih
  | case3 c cs n _ ih => exact Nat.le_succ_of_le ih
  | case4 c cs _ ih => exact Nat.succ_le_succ ih

/-- A text is shown as it is exactly if it has no control sequence. -/
theorem plain_eq_self_iff {cs : List Char} : plain cs = cs ↔ ¬ HasSequence cs := by
  induction cs with
  | nil =>
    refine iff_of_true rfl ?_
    rintro ⟨rest, n, hrest, hn⟩
    rw [List.suffix_nil.1 hrest] at hn
    cases hn
  | cons c cs ih =>
    rw [hasSequence_cons_iff, plain, plainFrom]
    cases hn : sequenceLength? (c :: cs) with
    | none =>
      rw [plain] at ih
      simp [ih]
    | some n =>
      refine iff_of_false (fun heq => ?_) (not_not_intro (.inl ⟨n, rfl⟩))
      have hle : (c :: cs).length ≤ cs.length := heq ▸ length_plainFrom_le (n - 1) cs
      exact Nat.not_succ_le_self _ hle

theorem plain_append {a : List Char} (ha : escapeChar ∉ a) (b : List Char) :
    plain (a ++ b) = a ++ plain b := by
  induction a with
  | nil => rfl
  | cons c a ih =>
    rw [List.mem_cons, not_or] at ha
    rw [List.cons_append, plain, plainFrom, sequenceLength?_of_ne (Ne.symm ha.1)]
    exact congrArg (c :: ·) (ih ha.2)

theorem length_eq_of_dropWhile {p : Char → Bool} {cs rest : List Char} {c : Char}
    (h : cs.dropWhile p = c :: rest) :
    cs.length = (cs.takeWhile p).length + (rest.length + 1) := by
  calc cs.length = (cs.takeWhile p ++ cs.dropWhile p).length := by
        rw [List.takeWhile_append_dropWhile]
    _ = (cs.takeWhile p).length + (rest.length + 1) := by
        rw [List.length_append, h, List.length_cons]

/-- A control sequence ends before the end of the row that it begins in. -/
theorem sequenceLength?_append_lineFeed {a : List Char} (ha : a ≠ []) (b : List Char) :
    sequenceLength? (a ++ '\n' :: b) = sequenceLength? a := by
  obtain ⟨c, a, rfl⟩ := List.exists_cons_of_ne_nil ha
  by_cases hc : c = escapeChar
  · subst hc
    cases a with
    | nil => rfl
    | cons d cs =>
      by_cases hd : d = '['
      · subst hd
        have hfeed : isParameter '\n' = false := by decide
        simp only [List.cons_append, sequenceLength?, escapeChar, List.dropWhile_append,
          List.takeWhile_append]
        cases hdrop : cs.dropWhile isParameter with
        | nil => simp [hfeed]
        | cons e es =>
          have hshort : (cs.takeWhile isParameter).length ≠ cs.length := by
            rw [length_eq_of_dropWhile hdrop]
            omega
          simp [hshort]
      · simp [sequenceLength?, hd, escapeChar]
  · rw [List.cons_append, sequenceLength?_of_ne hc, sequenceLength?_of_ne hc]

theorem sequenceLength?_le {cs : List Char} {n : Nat} (h : sequenceLength? cs = some n) :
    n ≤ cs.length := by
  unfold sequenceLength? at h
  split at h
  · rename_i cs
    split at h
    · rename_i c rest hdrop
      split at h
      · obtain rfl := Option.some.inj h
        rw [List.length_cons, List.length_cons, length_eq_of_dropWhile hdrop]
        omega
      · cases h
    · cases h
  · cases h

theorem plainFrom_append_lineFeed {skip : Nat} {a : List Char} (hskip : skip ≤ a.length)
    (b : List Char) : plainFrom skip (a ++ '\n' :: b) = plainFrom skip a ++ '\n' :: plain b := by
  induction a generalizing skip with
  | nil =>
    obtain rfl := Nat.le_zero.1 hskip
    have hfeed : '\n' ≠ escapeChar := by decide
    show plainFrom 0 ('\n' :: b) = '\n' :: plain b
    rw [plainFrom, sequenceLength?_of_ne hfeed]
    rfl
  | cons c a ih =>
    cases skip with
    | succ skip => exact ih (Nat.le_of_succ_le_succ hskip)
    | zero =>
      have hlength := sequenceLength?_append_lineFeed (List.cons_ne_nil c a) b
      rw [List.cons_append] at hlength ⊢
      rw [plainFrom, plainFrom, hlength]
      cases hn : sequenceLength? (c :: a) with
      | none => exact congrArg (c :: ·) (ih (Nat.zero_le _))
      | some n => exact ih (Nat.sub_le_of_le_add (sequenceLength?_le hn))

theorem plain_append_lineFeed (a b : List Char) :
    plain (a ++ '\n' :: b) = plain a ++ '\n' :: plain b :=
  plainFrom_append_lineFeed (Nat.zero_le _) b

theorem plain_numberedRows (n : Nat) (rs : List (List Char)) :
    plain (numberedRows n rs) = numberedRows n (rs.map plain) := by
  induction rs generalizing n with
  | nil => rfl
  | cons row rs ih =>
    rw [numberedRows, List.append_assoc, plain_append (escapeChar_not_mem_rowNumber n),
      plain_append_lineFeed, ih, List.map_cons, numberedRows, List.append_assoc]

theorem mem_of_mem_plainFrom {skip : Nat} {cs : List Char} {c : Char}
    (h : c ∈ plainFrom skip cs) : c ∈ cs := by
  fun_induction plainFrom skip cs with
  | case1 => exact h
  | case2 skip d cs ih => exact List.mem_cons_of_mem d (ih h)
  | case3 d cs n _ ih => exact List.mem_cons_of_mem d (ih h)
  | case4 d cs _ ih =>
    rcases List.mem_cons.1 h with rfl | h
    · exact List.mem_cons_self
    · exact List.mem_cons_of_mem d (ih h)

theorem plain_joinRows (rs : List (List Char)) : plain (joinRows rs) = joinRows (rs.map plain) := by
  induction rs with
  | nil => rfl
  | cons row rs ih =>
    cases rs with
    | nil => rfl
    | cons next rs =>
      show plain (row ++ '\n' :: joinRows (next :: rs)) = _
      rw [plain_append_lineFeed, ih]
      rfl

theorem rows_plain (cs : List Char) : rows (plain cs) = (rows cs).map plain := by
  have hne : (rows cs).map plain ≠ [] := by simp [rows_ne_nil]
  have hfeed : ∀ row ∈ (rows cs).map plain, '\n' ∉ row := by
    intro row hrow hmem
    obtain ⟨old, hold, rfl⟩ := List.mem_map.1 hrow
    exact lineFeed_not_mem_of_mem_rows hold (mem_of_mem_plainFrom hmem)
  calc rows (plain cs) = rows (joinRows ((rows cs).map plain)) := by
        rw [← plain_joinRows, joinRows_rows]
    _ = (rows cs).map plain := cut_glue hne hfeed

theorem plain_numbered (s : ShaderSource) :
    plain s.numbered = { s with text := plain s.text }.numbered := by
  rw [ShaderSource.numbered, plain_numberedRows, ← rows_plain]
  rfl

/-- Without the numbers, what is shown with them is what is shown without them. -/
theorem unnumbered_plain_numbered (s : ShaderSource) :
    unnumbered (plain s.numbered) = plain (s.text ++ ['\n']) := by
  rw [plain_numbered, ShaderSource.unnumbered_numbered, plain_append_lineFeed]
  rfl

end Console

/-! ## What is shown -/

namespace Invocation

variable {i : Invocation} {env : Environment} {r : Registry} {t : FileTree} {rule : Value}
  {source : ShaderSource}

theorem shown_of_source (hlist : i.listRules = false) (hrule : i.rule r = .ok rule)
    (h : ((i.config env).assemble t i.template rule none).1.outcome = .ok source) :
    (i.run env r t).shown = Console.plain (i.output source) := by
  rw [run_of_rule_ok hlist hrule, assemble_of_ok h]

end Invocation

/-- Numbering loses nothing.  There is one numbered row more than there are line feeds, and without
the numbers they are the text and one line feed, so that the text can be told from them.  Without
the numbers, what the program shows with them is what it shows without them, which is the text but
for its control sequences, and one line feed. -/
theorem ShaderSource.numbered_faithful :
    (∀ s : ShaderSource,
      rows s.numbered = (rows s.text).mapIdx (fun k row => rowNumber (1 + k) ++ row) ++ [[]] ∧
      (rows s.text).length = s.text.count '\n' + 1 ∧
      unnumbered s.numbered = s.text ++ ['\n']) ∧
    (∀ s s' : ShaderSource, s.numbered = s'.numbered ↔ s.text = s'.text) ∧
    ∀ (i : Invocation) env r t rule source, i.listRules = false → i.rule r = .ok rule →
      ((i.config env).assemble t i.template rule none).1.outcome = .ok source →
        unnumbered (({ i with lineNumbers := true } : Invocation).run env r t).shown =
          (({ i with lineNumbers := false } : Invocation).run env r t).shown ∧
        (({ i with lineNumbers := false } : Invocation).run env r t).shown =
          Console.plain source.text ++ ['\n'] ∧
        (Console.plain source.text = source.text ↔ ¬ Console.HasSequence source.text) := by
  refine ⟨fun s => ⟨s.rows_numbered, length_cut '\n' s.text, s.unnumbered_numbered⟩,
    fun s s' => numbered_inj, fun i env r t rule source hlist hrule hok => ?_⟩
  have hnumbered : (({ i with lineNumbers := true } : Invocation).run env r t).shown =
      Console.plain source.numbered := Invocation.shown_of_source hlist hrule hok
  have hshown : (({ i with lineNumbers := false } : Invocation).run env r t).shown =
      Console.plain (source.text ++ ['\n']) := Invocation.shown_of_source hlist hrule hok
  rw [hnumbered, hshown]
  exact ⟨Console.unnumbered_plain_numbered source, Console.plain_append_lineFeed source.text [],
    Console.plain_eq_self_iff⟩

/-- Two rows, of which one is coloured and the other looks like a numbered one. -/
def FileTree.coloured : FileTree :=
  ⟨[], [(["main"], .file (Text.encode "\x1b[31mx\n   2: y".toList))]⟩

/-- What the program is asked for to show that text. -/
def Invocation.showColoured (lineNumbers : Bool) : Invocation :=
  ⟨"main", none, some "/", false, lineNumbers, false, false, false⟩

theorem outcome_assemble_coloured :
    (((Invocation.showColoured true).config []).assemble .coloured "main" .nothing
      none).1.outcome = .ok ⟨"main", "\x1b[31mx\n   2: y".toList, none⟩ :=
  eq_ok_of_toOption (by decide +kernel)

theorem ShaderSource.numbered_coloured :
    ((Invocation.showColoured true).run [] .builtin .coloured).shown =
      "   1: x\n   2:    2: y\n".toList ∧
    unnumbered ((Invocation.showColoured true).run [] .builtin .coloured).shown =
      ((Invocation.showColoured false).run [] .builtin .coloured).shown := by
  refine ⟨by decide +kernel, ?_⟩
  exact (numbered_faithful.2.2 (Invocation.showColoured true) [] .builtin .coloured .nothing _ rfl
    rfl outcome_assemble_coloured).1

/-- Without numbers, too, a coloured text is not shown as it is. -/
theorem Invocation.run_coloured :
    (((Invocation.showColoured true).config []).assemble .coloured "main" .nothing
      none).1.outcome = .ok ⟨"main", "\x1b[31mx\n   2: y".toList, none⟩ ∧
    ((Invocation.showColoured false).run [] .builtin .coloured).shown = "x\n   2: y\n".toList ∧
    ((Invocation.showColoured false).run [] .builtin .coloured).shown ≠
      unnumbered (ShaderSource.mk "main" "\x1b[31mx\n   2: y".toList none).numbered := by
  refine ⟨outcome_assemble_coloured, by decide +kernel, by decide +kernel⟩

end CellShader
