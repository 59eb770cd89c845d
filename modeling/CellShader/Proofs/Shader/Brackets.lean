import CellShader.Proofs.Shader.Splicing

/-!
# Brackets in the code of a rule

The code of a rule leaves no bracket open and closes none that it has not opened
(`Statement.isBalanced_code`), and neither does the default placeholder.  So the brackets that are
open behind the placeholder are the same when a rule takes its place (`depth_around_congr`).  What
else matters where the code stands: an operator never meets another of its kind
(`Statement.not_doubled_code`), and there is one `else` between braces for each branching
(`Rule.count_code`).
-/

namespace CellShader

/-- Whether none of the marks occurs in a text. -/
def avoids (marks cs : List Char) : Bool := marks.all fun c => !cs.contains c

theorem avoids_iff {marks cs : List Char} : avoids marks cs = true ↔ ∀ c ∈ marks, c ∉ cs := by
  simp [avoids]

/-! ## Depth -/

/-- The pairs of brackets in the code of a rule. -/
inductive BracketPair
  | round
  | curly
  deriving DecidableEq, Repr

namespace BracketPair

def opening : BracketPair → Char
  | round => '('
  | curly => '\x7b'

def closing : BracketPair → Char
  | round => ')'
  | curly => '\x7d'

/-- A text in brackets. -/
def around (b : BracketPair) (cs : List Char) : List Char := b.opening :: (cs ++ [b.closing])

/-- How many brackets are open at the end of a text. -/
def depth (b : BracketPair) (cs : List Char) : Int := cs.count b.opening - cs.count b.closing

/-- Whether a text closes the brackets that it opens and no others. -/
structure IsBalanced (b : BracketPair) (cs : List Char) : Prop where
  depth_eq : b.depth cs = 0
  depth_nonneg : ∀ front, front <+: cs → 0 ≤ b.depth front

variable {b : BracketPair} {cs ds : List Char}

theorem depth_append (b : BracketPair) (cs ds : List Char) :
    b.depth (cs ++ ds) = b.depth cs + b.depth ds := by
  simp only [depth, List.count_append]
  omega

theorem depth_cons (b : BracketPair) (c : Char) (cs : List Char) :
    b.depth (c :: cs) = b.depth [c] + b.depth cs := depth_append b [c] cs

theorem depth_around (b other : BracketPair) (cs : List Char) :
    b.depth (other.around cs) = b.depth cs := by
  have hboth : b.depth [other.opening] + b.depth [other.closing] = 0 := by
    cases b <;> cases other <;> decide
  rw [around, depth_cons, depth_append]
  omega

/-- A text without brackets is balanced. -/
theorem isBalanced_of_avoids (h : avoids "()\x7b\x7d".toList cs = true) (b : BracketPair) :
    b.IsBalanced cs := by
  have hopening : b.opening ∉ cs := avoids_iff.1 h _ (by cases b <;> decide)
  have hclosing : b.closing ∉ cs := avoids_iff.1 h _ (by cases b <;> decide)
  have hdepth : ∀ front, front <+: cs → b.depth front = 0 := by
    intro front hfront
    rw [depth, List.count_eq_zero_of_not_mem fun hmem => hopening (hfront.subset hmem),
      List.count_eq_zero_of_not_mem fun hmem => hclosing (hfront.subset hmem)]
    rfl
  exact ⟨hdepth cs List.prefix_rfl, fun front hfront => Int.le_of_eq (hdepth front hfront).symm⟩

theorem IsBalanced.append (hcs : b.IsBalanced cs) (hds : b.IsBalanced ds) :
    b.IsBalanced (cs ++ ds) := by
  refine ⟨by rw [depth_append, hcs.depth_eq, hds.depth_eq]; rfl, ?_⟩
  rintro front ⟨rest, hrest⟩
  rcases List.append_eq_append_iff.1 hrest with ⟨left, rfl, -⟩ | ⟨left, rfl, rfl⟩
  · exact hcs.depth_nonneg front (List.prefix_append front left)
  · rw [depth_append, hcs.depth_eq, Int.zero_add]
    exact hds.depth_nonneg left (List.prefix_append left rest)

/-- Brackets of either kind around a balanced text make a balanced text. -/
theorem IsBalanced.around (h : b.IsBalanced cs) (other : BracketPair) :
    b.IsBalanced (other.around cs) := by
  have hdepth := (depth_around b other cs).trans h.depth_eq
  refine ⟨hdepth, fun front hfront => ?_⟩
  rcases List.prefix_cons_iff.1 hfront with rfl | ⟨inside, rfl, hinside⟩
  · exact Int.le_refl 0
  rcases List.prefix_concat_iff.1 hinside with rfl | hinside
  · exact Int.le_of_eq hdepth.symm
  · have hopening : 0 ≤ b.depth [other.opening] := by
      cases b <;> cases other <;> decide
    have hdeep := h.depth_nonneg inside hinside
    rw [depth_cons]
    omega

/-- The brackets that are open behind a balanced text do not depend on it. -/
theorem depth_around_congr {cs ds : List Char} (hcs : b.IsBalanced cs) (hds : b.IsBalanced ds)
    (pre post : List Char) : b.depth (pre ++ cs ++ post) = b.depth (pre ++ ds ++ post) := by
  simp only [depth_append, hcs.depth_eq, hds.depth_eq]

end BracketPair

open BracketPair

/-! ## Code as texts in brackets -/

theorem infixCode_eq (symbol lhs rhs : List Char) :
    infixCode symbol lhs rhs =
      round.around lhs ++ (' ' :: (symbol ++ ' ' :: round.around rhs)) := by
  simp [infixCode, around, opening, closing]

theorem Expr.code_compare_eq (op : Comparison) (lhs rhs : Expr) :
    (compare op lhs rhs).code =
      "u32".toList ++ round.around (infixCode op.symbol lhs.code rhs.code) := by
  have hname : "u32(".toList = "u32".toList ++ ['('] := by decide
  rw [code_compare, hname]
  simp [around, opening, closing]

theorem Expr.code_connect_eq (op : Connective) (lhs rhs : Expr) :
    (connect op lhs rhs).code = round.around (infixCode op.symbol lhs.code rhs.code) := rfl

theorem Statement.code_ifThenElse_eq (condition : Expr) (whenTrue whenFalse : Statement) :
    (ifThenElse condition whenTrue whenFalse).code =
      "if ".toList ++ (round.around condition.code ++ (' ' ::
        (curly.around (' ' :: (whenTrue.code ++ [' '])) ++ (" else ".toList ++
          curly.around (' ' :: (whenFalse.code ++ [' '])))))) := by
  have hif : "if (".toList = "if ".toList ++ ['('] := by decide
  have hthen : ") \x7b ".toList = [')', ' ', '\x7b', ' '] := by decide
  have helse : " \x7d else \x7b ".toList = ' ' :: '\x7d' :: (" else ".toList ++ ['\x7b', ' ']) := by
    decide
  have hend : " \x7d".toList = [' ', '\x7d'] := by decide
  rw [code_ifThenElse, hif, hthen, helse, hend]
  simp [around, opening, closing]

theorem Expr.avoids_code_const {marks : List Char}
    (h : (marks.all fun c => !c.isDigit && c != 'u') = true) (value : UInt32) :
    avoids marks (const value).code = true := by
  refine avoids_iff.2 fun c hc hmem => ?_
  obtain ⟨hdigit, hu⟩ : c.isDigit = false ∧ c ≠ 'u' := by
    simpa using List.all_eq_true.1 h c hc
  rcases List.mem_append.1 hmem with hmem | hmem
  · rw [Nat.isDigit_of_mem_toDigits (by decide) (by decide) hmem] at hdigit
    cases hdigit
  · exact hu (List.mem_singleton.1 hmem)

/-! ## Balance -/

theorem isBalanced_infixCode {b : BracketPair} {symbol lhs rhs : List Char}
    (hsymbol : b.IsBalanced symbol) (hlhs : b.IsBalanced lhs) (hrhs : b.IsBalanced rhs) :
    b.IsBalanced (infixCode symbol lhs rhs) := by
  have hspace : b.IsBalanced [' '] := isBalanced_of_avoids (by decide) b
  rw [infixCode_eq]
  exact (hlhs.around round).append
    (hspace.append (hsymbol.append (hspace.append (hrhs.around round))))

theorem Expr.isBalanced_code (b : BracketPair) (e : Expr) : b.IsBalanced e.code := by
  induction e with
  | const value => exact isBalanced_of_avoids (avoids_code_const (by decide) value) b
  | alive => exact isBalanced_of_avoids (by decide) b
  | neighbors => exact isBalanced_of_avoids (by decide) b
  | compare op lhs rhs ihl ihr =>
    have hname : b.IsBalanced "u32".toList := isBalanced_of_avoids (by decide) b
    have hsymbol : b.IsBalanced op.symbol := isBalanced_of_avoids (by cases op <;> decide) b
    rw [code_compare_eq]
    exact hname.append ((isBalanced_infixCode hsymbol ihl ihr).around round)
  | connect op lhs rhs ihl ihr =>
    have hsymbol : b.IsBalanced op.symbol := isBalanced_of_avoids (by cases op <;> decide) b
    rw [code_connect_eq]
    exact (isBalanced_infixCode hsymbol ihl ihr).around round

theorem Statement.isBalanced_code (b : BracketPair) (s : Statement) : b.IsBalanced s.code := by
  induction s with
  | noop => exact isBalanced_of_avoids (by decide) b
  | setResult value =>
    have hstart : b.IsBalanced (resultName ++ " = ".toList) := isBalanced_of_avoids (by decide) b
    have hend : b.IsBalanced [';'] := isBalanced_of_avoids (by decide) b
    rw [code_setResult]
    exact (hstart.append (value.isBalanced_code b)).append hend
  | ifThenElse condition whenTrue whenFalse iht ihf =>
    have hspace : b.IsBalanced [' '] := isBalanced_of_avoids (by decide) b
    have hif : b.IsBalanced "if ".toList := isBalanced_of_avoids (by decide) b
    have helse : b.IsBalanced " else ".toList := isBalanced_of_avoids (by decide) b
    have hthen := (hspace.append (iht.append hspace)).around curly
    have hotherwise := (hspace.append (ihf.append hspace)).around curly
    rw [code_ifThenElse_eq]
    exact hif.append (((condition.isBalanced_code b).around round).append
      (hspace.append (hthen.append (helse.append hotherwise))))

theorem isBalanced_defaultPlaceholder (b : BracketPair) :
    b.IsBalanced defaultPlaceholder.toList := by
  have hword : b.IsBalanced "PLACEHOLDER".toList := isBalanced_of_avoids (by decide) b
  have hparts : defaultPlaceholder.toList = curly.around "PLACEHOLDER".toList := by decide
  rw [hparts]
  exact hword.around curly

/-! ## Operators -/

/-- The operator of a connective next to another of its kind. -/
def Connective.doubled (op : Connective) : List Char := op.symbol ++ op.symbol

section Doubled

variable {op : Connective} {pre cs post : List Char}

theorem not_doubled_of_avoids (h : avoids "&|".toList cs = true) : ¬ op.doubled <:+: cs := by
  intro hocc
  cases op with
  | and => exact avoids_iff.1 h '&' (by decide) (hocc.subset (by decide))
  | or => exact avoids_iff.1 h '|' (by decide) (hocc.subset (by decide))

theorem not_doubled_nil : ¬ op.doubled <:+: [] := not_doubled_of_avoids (by decide)

/-- No operator is doubled where texts meet at another character. -/
theorem not_doubled_append_cons {c : Char} (hc : c ∉ "&|".toList) (hpre : ¬ op.doubled <:+: pre)
    (hpost : ¬ op.doubled <:+: post) : ¬ op.doubled <:+: pre ++ c :: post := by
  have hsub : op.doubled ⊆ "&|".toList := by
    cases op <;> simp [Connective.doubled, Connective.symbol]
  rw [Text.infix_append_cons_iff fun h => hc (hsub h)]
  exact not_or.2 ⟨hpre, hpost⟩

theorem not_doubled_append_around (b : BracketPair) (hpre : ¬ op.doubled <:+: pre)
    (hcs : ¬ op.doubled <:+: cs) (hpost : ¬ op.doubled <:+: post) :
    ¬ op.doubled <:+: pre ++ (b.around cs ++ post) := by
  have hparts : pre ++ (b.around cs ++ post) = pre ++ b.opening :: (cs ++ b.closing :: post) := by
    simp [around]
  have hopening : b.opening ∉ "&|".toList := by cases b <;> decide
  have hclosing : b.closing ∉ "&|".toList := by cases b <;> decide
  rw [hparts]
  exact not_doubled_append_cons hopening hpre (not_doubled_append_cons hclosing hcs hpost)

theorem not_doubled_around (b : BracketPair) (h : ¬ op.doubled <:+: cs) :
    ¬ op.doubled <:+: b.around cs := by
  have haround := not_doubled_append_around b not_doubled_nil h not_doubled_nil
  rwa [List.nil_append, List.append_nil] at haround

theorem not_doubled_infixCode {symbol lhs rhs : List Char} (hsymbol : ¬ op.doubled <:+: symbol)
    (hlhs : ¬ op.doubled <:+: lhs) (hrhs : ¬ op.doubled <:+: rhs) :
    ¬ op.doubled <:+: infixCode symbol lhs rhs := by
  have hspace : ' ' ∉ "&|".toList := by decide
  rw [infixCode_eq]
  exact not_doubled_append_cons hspace (not_doubled_around round hlhs)
    (not_doubled_append_cons hspace hsymbol (not_doubled_around round hrhs))

end Doubled

theorem Expr.not_doubled_code (op : Connective) (e : Expr) : ¬ op.doubled <:+: e.code := by
  induction e with
  | const value => exact not_doubled_of_avoids (avoids_code_const (by decide) value)
  | alive => exact not_doubled_of_avoids (by decide)
  | neighbors => exact not_doubled_of_avoids (by decide)
  | compare comparison lhs rhs ihl ihr =>
    have hname : ¬ op.doubled <:+: "u32".toList := not_doubled_of_avoids (by decide)
    have hsymbol : ¬ op.doubled <:+: comparison.symbol :=
      not_doubled_of_avoids (by cases comparison <;> decide)
    have hround := not_doubled_append_around round hname (not_doubled_infixCode hsymbol ihl ihr)
      not_doubled_nil
    rwa [List.append_nil, ← code_compare_eq] at hround
  | connect connective lhs rhs ihl ihr =>
    have hsymbol : ¬ op.doubled <:+: connective.symbol := by
      cases op <;> cases connective <;> decide
    rw [code_connect_eq]
    exact not_doubled_around round (not_doubled_infixCode hsymbol ihl ihr)

theorem Statement.not_doubled_code (op : Connective) (s : Statement) :
    ¬ op.doubled <:+: s.code := by
  have hspace : ' ' ∉ "&|".toList := by decide
  induction s with
  | noop => exact not_doubled_nil
  | setResult value =>
    have hstart : ¬ op.doubled <:+: "result =".toList := not_doubled_of_avoids (by decide)
    have hparts : resultName ++ " = ".toList = "result =".toList ++ [' '] := by decide
    have hend : ';' ∉ "&|".toList := by decide
    rw [code_setResult, hparts, List.append_assoc, List.append_assoc]
    exact not_doubled_append_cons hspace hstart
      (not_doubled_append_cons hend (value.not_doubled_code op) not_doubled_nil)
  | ifThenElse condition whenTrue whenFalse iht ihf =>
    have hif : ¬ op.doubled <:+: "if ".toList := not_doubled_of_avoids (by decide)
    have hgap : ¬ op.doubled <:+: [' '] := not_doubled_of_avoids (by decide)
    have helse : ¬ op.doubled <:+: " else ".toList := not_doubled_of_avoids (by decide)
    have hbranch {cs : List Char} (h : ¬ op.doubled <:+: cs) :
        ¬ op.doubled <:+: ' ' :: (cs ++ [' ']) :=
      not_doubled_append_cons hspace not_doubled_nil
        (not_doubled_append_cons hspace h not_doubled_nil)
    have hotherwise := not_doubled_append_around curly helse (hbranch ihf) not_doubled_nil
    rw [List.append_nil] at hotherwise
    rw [code_ifThenElse_eq]
    exact not_doubled_append_around round hif (condition.not_doubled_code op)
      (not_doubled_append_around curly hgap (hbranch iht) hotherwise)

/-! ## Branchings -/

/-- How many branchings a statement has, at any depth. -/
def Statement.branchings : Statement → Nat
  | noop => 0
  | setResult _ => 0
  | ifThenElse _ whenTrue whenFalse => whenTrue.branchings + whenFalse.branchings + 1

/-- How many branchings a rule has. -/
def Rule.branchings : Rule → Nat
  | expr _ => 0
  | statement s => s.branchings

/-- What stands between the two branches of a branching. -/
def elseText : List Char := "\x7d else \x7b".toList

theorem elseText_ne_nil : elseText ≠ [] := by decide

theorem Expr.brace_not_mem_code (e : Expr) : '\x7d' ∉ e.code := by
  induction e with
  | const value =>
    exact avoids_iff.1 (avoids_code_const (by decide) value) _ (List.mem_singleton_self '\x7d')
  | alive => decide
  | neighbors => decide
  | compare op lhs rhs ihl ihr =>
    have hsymbol : '\x7d' ∉ op.symbol := by cases op <;> decide
    simp [code_compare, infixCode, ihl, hsymbol, ihr]
  | connect op lhs rhs ihl ihr =>
    have hsymbol : '\x7d' ∉ op.symbol := by cases op <;> decide
    simp [code_connect, infixCode, ihl, hsymbol, ihr]

theorem count_elseText_cons_of_ne {c : Char} (hc : c ≠ '\x7d') (cs : List Char) :
    Text.count elseText (c :: cs) = Text.count elseText cs := by
  refine Text.count_cons_of_not_prefix elseText_ne_nil fun h => hc ?_
  exact (List.cons_prefix_cons.1 h).1.symm

/-- Whether nothing follows, or a closing brace behind a space. -/
def IsBranchEnd (cs : List Char) : Prop := cs = [] ∨ ∃ ds, cs = ' ' :: '\x7d' :: ds

theorem count_elseText_brace_cons {cs : List Char} (h : IsBranchEnd cs) :
    Text.count elseText ('\x7d' :: cs) = Text.count elseText cs := by
  have htext : elseText = '\x7d' :: ' ' :: 'e' :: "lse \x7b".toList := by decide
  refine Text.count_cons_of_not_prefix elseText_ne_nil fun hprefix => ?_
  rw [htext] at hprefix
  obtain rfl | ⟨ds, rfl⟩ := h
  · simp at hprefix
  · simp at hprefix

/-- In the code of a statement each branching is counted, apart from what is counted behind it. -/
theorem Statement.count_code_append (s : Statement) {rest : List Char} (hrest : IsBranchEnd rest) :
    Text.count elseText (s.code ++ rest) = s.branchings + Text.count elseText rest := by
  induction s generalizing rest with
  | noop =>
    rw [branchings, Nat.zero_add]
    rfl
  | setResult value =>
    have hnone : Text.count elseText (resultName ++ " = ".toList ++ value.code) = 0 := by
      have hstart : '\x7d' ∉ resultName ++ " = ".toList := by decide
      have hbrace : '\x7d' ∉ resultName ++ " = ".toList ++ value.code :=
        fun h => (List.mem_append.1 h).elim hstart value.brace_not_mem_code
      exact Text.count_eq_zero_of_not_mem (by decide) hbrace
    have hend : ';' ∉ elseText := by decide
    rw [code_setResult, List.append_assoc, List.singleton_append,
      Text.count_append_cons elseText_ne_nil hend, hnone, branchings]
  | ifThenElse condition whenTrue whenFalse iht ihf =>
    have hparts : (ifThenElse condition whenTrue whenFalse).code ++ rest =
        ("if (".toList ++ condition.code) ++ ')' :: ' ' :: '\x7b' :: ' ' :: (whenTrue.code ++
          ' ' :: (elseText ++ ' ' :: (whenFalse.code ++ ' ' :: '\x7d' :: rest))) := by
      have hthen : ") \x7b ".toList = [')', ' ', '\x7b', ' '] := by decide
      have helse : " \x7d else \x7b ".toList = ' ' :: (elseText ++ [' ']) := by decide
      have hend : " \x7d".toList = [' ', '\x7d'] := by decide
      rw [code_ifThenElse, hthen, helse, hend]
      simp only [List.append_assoc, List.cons_append, List.nil_append]
    have hnone : Text.count elseText ("if (".toList ++ condition.code) = 0 := by
      have hstart : '\x7d' ∉ "if (".toList := by decide
      have hbrace : '\x7d' ∉ "if (".toList ++ condition.code :=
        fun h => (List.mem_append.1 h).elim hstart condition.brace_not_mem_code
      exact Text.count_eq_zero_of_not_mem (by decide) hbrace
    have hclosing : ')' ∉ elseText := by decide
    have htrue : IsBranchEnd
        (' ' :: (elseText ++ ' ' :: (whenFalse.code ++ ' ' :: '\x7d' :: rest))) := .inr ⟨_, rfl⟩
    have hfalse : IsBranchEnd (' ' :: '\x7d' :: rest) := .inr ⟨rest, rfl⟩
    have hspace : ' ' ≠ '\x7d' := by decide
    have hbrace : '\x7b' ≠ '\x7d' := by decide
    calc Text.count elseText ((ifThenElse condition whenTrue whenFalse).code ++ rest)
        = Text.count elseText (whenTrue.code ++
            ' ' :: (elseText ++ ' ' :: (whenFalse.code ++ ' ' :: '\x7d' :: rest))) := by
          rw [hparts, Text.count_append_cons elseText_ne_nil hclosing, hnone, Nat.zero_add,
            count_elseText_cons_of_ne hspace, count_elseText_cons_of_ne hbrace,
            count_elseText_cons_of_ne hspace]
      _ = whenTrue.branchings +
            (Text.count elseText (whenFalse.code ++ ' ' :: '\x7d' :: rest) + 1) := by
          rw [iht htrue, count_elseText_cons_of_ne hspace, Text.count_self_append elseText_ne_nil,
            count_elseText_cons_of_ne hspace]
      _ = whenTrue.branchings + (whenFalse.branchings + Text.count elseText rest + 1) := by
          rw [ihf hfalse, count_elseText_cons_of_ne hspace, count_elseText_brace_cons hrest]
      _ = (ifThenElse condition whenTrue whenFalse).branchings + Text.count elseText rest := by
          rw [branchings]
          omega

theorem Rule.count_code (r : Rule) : Text.count elseText r.code = r.branchings := by
  cases r with
  | expr e => exact Text.count_eq_zero_of_not_mem (by decide) e.brace_not_mem_code
  | statement s =>
    have h := s.count_code_append (.inl rfl)
    rwa [List.append_nil, Text.count_nil elseText_ne_nil] at h

/-! ## Characters -/

/-- None of the characters of a rule ends a line. -/
theorem isLineBreak_of_isCodeChar {c : Char} (h : isCodeChar c = true) :
    Text.isLineBreak c = false := by
  have hmarks : (" _()<>=&|;\x7b\x7d".toList.all fun d => !Text.isLineBreak d) = true := by decide
  rw [isCodeChar, Bool.or_eq_true, List.contains_iff_mem] at h
  rcases h with h | h
  · have hword : Wgsl.isWordChar c = true := by
      show (c.isUpper || c.isLower || c.isDigit || c == '_') = true
      rcases Bool.or_eq_true_iff.1 h with h | h <;> simp [h]
    have hbounds := Wgsl.toNat_of_isWordChar hword
    simp only [Text.isLineBreak, Bool.or_eq_false_iff, Bool.and_eq_false_iff,
      decide_eq_false_iff_not, beq_eq_false_iff_ne]
    omega
  · exact by simpa using List.all_eq_true.1 hmarks c h

namespace Rule

variable (r : Rule)

theorem isUnbroken_code : Text.IsUnbroken r.code :=
  fun c hc => isLineBreak_of_isCodeChar (List.all_eq_true.1 r.all_code c hc)

theorem isBalanced_code (b : BracketPair) : b.IsBalanced r.code := by
  cases r with
  | expr e => exact e.isBalanced_code b
  | statement s => exact s.isBalanced_code b

theorem not_doubled_code (op : Connective) : ¬ op.doubled <:+: r.code := by
  cases r with
  | expr e => exact e.not_doubled_code op
  | statement s => exact s.not_doubled_code op

end Rule

/-! ## In place of the placeholder -/

/-- The code of a rule can be put in place of the default placeholder without harm: no operator is
doubled in it, nothing in it is taken for a directive, a line end or the placeholder, there is one
`else` between braces for each branching, and behind it the same brackets are open as behind the
placeholder. -/
theorem Rule.code_fits_in_place (r : Rule) :
    (¬ "&&".toList <:+: r.code ∧ ¬ "||".toList <:+: r.code ∧ '#' ∉ r.code ∧
      Text.IsUnbroken r.code ∧ ¬ defaultPlaceholder.toList <:+: r.code) ∧
    Text.count "\x7d else \x7b".toList r.code = r.branchings ∧
    (∀ b : BracketPair, b.IsBalanced r.code ∧ b.IsBalanced defaultPlaceholder.toList) ∧
    ∀ (c : Config) (text out : List Char) (file? : Option String),
      c.placeholder = defaultPlaceholder → (c.splice text (.rule r) file?).outcome = .ok out →
        ∃ pre post, Text.PartsOnce defaultPlaceholder.toList text pre post ∧
          out = pre ++ r.code ++ post ∧
          ∀ (b : BracketPair) (front : List Char), front <+: post →
            b.depth (pre ++ r.code ++ front) =
              b.depth (pre ++ defaultPlaceholder.toList ++ front) := by
  have hand : "&&".toList = Connective.and.doubled := by decide
  have hor : "||".toList = Connective.or.doubled := by decide
  refine ⟨⟨hand ▸ r.not_doubled_code .and, hor ▸ r.not_doubled_code .or,
    r.not_mem_code (by decide), r.isUnbroken_code, r.not_infix_code⟩,
    r.count_code, fun b => ⟨r.isBalanced_code b, isBalanced_defaultPlaceholder b⟩,
    fun c text out file? hplaceholder hsplice => ?_⟩
  obtain ⟨hone, rfl⟩ := c.splice_rule_eq_ok_iff.1 hsplice
  rw [hplaceholder] at hone ⊢
  obtain ⟨pre, post, hparts⟩ :=
    (Text.count_eq_one_iff defaultPlaceholder_ne_nil isUnbordered_defaultPlaceholder).1 hone
  have hreplace := (hparts.count_eq_one_and_replace_eq defaultPlaceholder_ne_nil).2 r.code
  exact ⟨pre, post, hparts, hreplace, fun b front _ =>
    depth_around_congr (r.isBalanced_code b) (isBalanced_defaultPlaceholder b) pre front⟩

/-- A branching in a branch, with nothing to do anywhere. -/
def Rule.nested : Rule := .statement (.ifThenElse .alive (.ifThenElse .neighbors .noop .noop) .noop)

theorem Rule.code_fits_in_place_nested :
    (Config.mk "/" false defaultPlaceholder).placeholder = defaultPlaceholder ∧
      ((Config.mk "/" false defaultPlaceholder).splice "a \x7b\x7bPLACEHOLDER\x7d\x7d".toList
        (.rule nested) none).outcome = .ok ("a \x7b".toList ++ nested.code ++ ['\x7d']) ∧
      nested.branchings = 2 ∧
      ∃ pre post, Text.PartsOnce defaultPlaceholder.toList
          "a \x7b\x7bPLACEHOLDER\x7d\x7d".toList pre post ∧
        ∀ (b : BracketPair) (front : List Char), front <+: post →
          b.depth (pre ++ nested.code ++ front) =
            b.depth (pre ++ defaultPlaceholder.toList ++ front) := by
  have hok : ((Config.mk "/" false defaultPlaceholder).splice
      "a \x7b\x7bPLACEHOLDER\x7d\x7d".toList (.rule nested) none).outcome =
        .ok ("a \x7b".toList ++ nested.code ++ ['\x7d']) := by rfl
  obtain ⟨-, -, -, hsplice⟩ := Rule.code_fits_in_place nested
  obtain ⟨pre, post, hparts, -, hdepth⟩ := hsplice _ _ _ _ rfl hok
  exact ⟨rfl, hok, rfl, pre, post, hparts, hdepth⟩

end CellShader
