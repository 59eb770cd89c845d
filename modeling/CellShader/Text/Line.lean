import CellShader.Text.Cut

/-!
# Lines of a text

Two ways to cut a text are in use.  `lines` cuts at every Unicode line break and is how directives
are looked for; `rows` cuts at line feeds alone and is how directives are replaced and lines are
numbered.  `unifyNewlines` turns the three usual line ends into the line feed.
-/

namespace CellShader.Text

/-- The characters that end a line: line feed, vertical tab, form feed, carriage return, the file,
group and record separators, next line, and the Unicode line and paragraph separators. -/
def isLineBreak (c : Char) : Bool :=
  let n := c.toNat
  (10 ≤ n && n ≤ 13) || (28 ≤ n && n ≤ 30) || n == 0x85 || n == 0x2028 || n == 0x2029

/-- The lines of a text.  A carriage return followed by a line feed is one break, and a break at
the very end starts no further line. -/
def lines : List Char → List (List Char)
  | [] => []
  | '\r' :: '\n' :: cs => [] :: lines cs
  | c :: cs => if isLineBreak c then [] :: lines cs else consFirst c (lines cs)

/-- The stretches between line feeds; there is one more of them than there are line feeds. -/
def rows (cs : List Char) : List (List Char) := cut '\n' cs

/-- Rows put together again with line feeds between them. -/
def joinRows (rs : List (List Char)) : List Char := glue '\n' rs

theorem joinRows_rows (cs : List Char) : joinRows (rows cs) = cs := glue_cut _ cs

/-- The text with every line end, be it a carriage return, a line feed or both in this order,
written as one line feed. -/
def unifyNewlines : List Char → List Char
  | [] => []
  | '\r' :: '\n' :: cs => '\n' :: unifyNewlines cs
  | c :: cs => (if c = '\r' then '\n' else c) :: unifyNewlines cs

theorem carriageReturn_not_mem_unifyNewlines (cs : List Char) : '\r' ∉ unifyNewlines cs := by
  fun_induction unifyNewlines cs with
  | case1 => simp
  | case2 cs ih => simp [ih]
  | case3 c cs _ ih =>
    by_cases h : c = '\r'
    · simp [h, ih]
    · simp [h, ih, Ne.symm h]

theorem unifyNewlines_eq_self {cs : List Char} (h : '\r' ∉ cs) : unifyNewlines cs = cs := by
  fun_induction unifyNewlines cs with
  | case1 => rfl
  | case2 cs ih => simp at h
  | case3 c cs _ ih =>
    have hc : c ≠ '\r' := fun hc => h (by simp [hc])
    simp [hc, ih (fun hm => h (List.mem_cons_of_mem _ hm))]

end CellShader.Text
