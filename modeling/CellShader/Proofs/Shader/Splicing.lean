import CellShader.Proofs.Text.Occurrences
import CellShader.Proofs.Wgsl.Compiled
import CellShader.Shader.Assembly

/-!
# Putting a rule in its place

The code of a rule is written in few characters (`Expr.all_code`, `Statement.all_code`), so the
default placeholder is not in it.  Near either end it has a character that the placeholder does not
have (`Statement.exists_code_eq`), so the placeholder cannot arise where the code meets the text
around it (`not_infix_splice`).  Hence a rule takes the place of the placeholder, and none is left
(`Config.splice_statement`).
-/

namespace CellShader

/-! ## The characters of a rule -/

/-- The characters that rules are written in. -/
def isCodeChar (c : Char) : Bool :=
  c.isLower || c.isDigit || " _()<>=&|;\x7b\x7d".toList.contains c

theorem isCodeChar_of_mem_decimal {n : Nat} {c : Char} (h : c ∈ decimal n) :
    isCodeChar c = true := by
  have hdigit := Nat.isDigit_of_mem_toDigits (by decide) (by decide) h
  simp [isCodeChar, hdigit]

theorem all_infixCode {symbol lhs rhs : List Char} (hsymbol : symbol.all isCodeChar = true)
    (hlhs : lhs.all isCodeChar = true) (hrhs : rhs.all isCodeChar = true) :
    (infixCode symbol lhs rhs).all isCodeChar = true := by
  simp only [infixCode, List.all_append, List.all_cons, List.all_nil, hsymbol, hlhs, hrhs]
  decide

theorem Expr.all_code (e : Expr) : e.code.all isCodeChar = true := by
  induction e with
  | const value =>
    have hdigits : (decimal value.toNat).all isCodeChar = true :=
      List.all_eq_true.2 fun c hc => isCodeChar_of_mem_decimal hc
    show (decimal value.toNat ++ ['u']).all isCodeChar = true
    rw [List.all_append, hdigits]
    decide
  | alive => decide
  | neighbors => decide
  | compare op lhs rhs ihl ihr =>
    have hsymbol : op.symbol.all isCodeChar = true := by cases op <;> decide
    simp only [code_compare, List.all_append, all_infixCode hsymbol ihl ihr]
    decide
  | connect op lhs rhs ihl ihr =>
    have hsymbol : op.symbol.all isCodeChar = true := by cases op <;> decide
    simp only [code_connect, List.all_append, List.all_cons, all_infixCode hsymbol ihl ihr]
    decide

theorem Statement.all_code (s : Statement) : s.code.all isCodeChar = true := by
  induction s with
  | noop => rfl
  | setResult value =>
    simp only [code_setResult, List.all_append, value.all_code]
    decide
  | ifThenElse condition whenTrue whenFalse iht ihf =>
    simp only [code_ifThenElse, List.all_append, condition.all_code, iht, ihf]
    decide

namespace Rule

variable (r : Rule)

theorem all_code : r.code.all isCodeChar = true := by
  cases r with
  | expr e => exact e.all_code
  | statement s => exact s.all_code

theorem not_mem_code {c : Char} (h : isCodeChar c = false) : c ∉ r.code := by
  intro hmem
  rw [List.all_eq_true.1 r.all_code c hmem] at h
  cases h

theorem not_infix_code : ¬ defaultPlaceholder.toList <:+: r.code := by
  intro h
  have hletter : isCodeChar 'P' = false := by decide
  exact r.not_mem_code hletter (h.subset (by decide))

end Rule

theorem Statement.not_infix_code (s : Statement) : ¬ defaultPlaceholder.toList <:+: s.code :=
  (Rule.statement s).not_infix_code

/-- The code of a statement that does something has a character at its start that is not in the
placeholder, and one at its end, with at most a brace behind it. -/
theorem Statement.exists_code_eq {s : Statement} (hs : s ≠ .noop) :
    ∃ first middle last ending, s.code = first :: (middle ++ last :: ending) ∧
      first ∉ defaultPlaceholder.toList ∧ last ∉ defaultPlaceholder.toList ∧
      (ending = [] ∨ ending = ['\x7d']) := by
  cases s with
  | noop => exact absurd rfl hs
  | setResult value =>
    have hstart : resultName ++ " = ".toList = 'r' :: "esult = ".toList := by decide
    refine ⟨'r', "esult = ".toList ++ value.code, ';', [], ?_, by decide, by decide, .inl rfl⟩
    rw [code_setResult, hstart]
    rfl
  | ifThenElse condition whenTrue whenFalse =>
    have hstart : "if (".toList = 'i' :: "f (".toList := by decide
    have hend : " \x7d".toList = [' ', '\x7d'] := by decide
    refine ⟨'i', "f (".toList ++ condition.code ++ ") \x7b ".toList ++ whenTrue.code ++
      " \x7d else \x7b ".toList ++ whenFalse.code, ' ', ['\x7d'], ?_, by decide, by decide,
      .inr rfl⟩
    rw [code_ifThenElse, hstart, hend]
    rfl

/-! ## The placeholder -/

theorem defaultPlaceholder_ne_nil : defaultPlaceholder.toList ≠ [] := by decide

theorem isUnbordered_defaultPlaceholder : Text.IsUnbordered defaultPlaceholder.toList := by
  have hopening : '\x7b' ∉ "PLACEHOLDER\x7d".toList := by decide
  exact Text.isUnbordered_cons hopening

/-- The placeholder does not arise around the code of a statement. -/
theorem not_infix_splice {s : Statement} (hs : s ≠ .noop) {pre post : List Char}
    (hpre : ¬ defaultPlaceholder.toList <:+: pre) (hpost : ¬ defaultPlaceholder.toList <:+: post) :
    ¬ defaultPlaceholder.toList <:+: pre ++ s.code ++ post := by
  obtain ⟨first, middle, last, ending, hcode, hfirst, hlast, hending⟩ :=
    Statement.exists_code_eq hs
  have hmiddle : ¬ defaultPlaceholder.toList <:+: middle := by
    refine fun h => s.not_infix_code (h.trans ?_)
    exact ⟨[first], last :: ending, by rw [hcode, List.append_assoc]; rfl⟩
  have hbehind : ¬ defaultPlaceholder.toList <:+: ending ++ post := by
    rcases hending with rfl | rfl
    · exact hpost
    · rw [List.singleton_append, List.infix_cons_iff]
      rintro (h | h)
      · have hopening := h.head (by decide)
        simp [defaultPlaceholder] at hopening
      · exact hpost h
  have hparts : pre ++ s.code ++ post = pre ++ first :: (middle ++ last :: (ending ++ post)) := by
    simp [hcode]
  rw [hparts, Text.infix_append_cons_iff hfirst, Text.infix_append_cons_iff hlast]
  rintro (h | h | h)
  · exact hpre h
  · exact hmiddle h
  · exact hbehind h

namespace Config

theorem splice_rule_eq_ok_iff (c : Config) {text out : List Char} {r : Rule}
    {file? : Option String} :
    (c.splice text (.rule r) file?).outcome = .ok out ↔
      Text.count c.placeholder.toList text = 1 ∧
        Text.replace c.placeholder.toList r.code text = out := by
  rw [splice]
  by_cases hcount : Text.count c.placeholder.toList text = 1
  · simp [hcount, Value.asRule, pure]
  · simp [hcount, Told.failWith]

/-- Nothing but a rule is put in place of the placeholder. -/
theorem exists_rule_of_splice (c : Config) {text out : List Char} {v : Value}
    {file? : Option String} (h : (c.splice text v file?).outcome = .ok out) :
    ∃ r, v = .rule r := by
  cases v with
  | rule r => exact ⟨r, rfl⟩
  | _ =>
    rw [splice] at h
    split at h
    · cases h
    · cases h

theorem splice_statement_eq_ok_iff (c : Config) {text out : List Char} {s : Statement}
    {file? : Option String} :
    (c.splice text (.rule (.statement s)) file?).outcome = .ok out ↔
      Text.count c.placeholder.toList text = 1 ∧
        Text.replace c.placeholder.toList s.code text = out := c.splice_rule_eq_ok_iff

/-- A statement that does something can be put in place of the default placeholder exactly if the
text can be parted around the placeholder in one way.  The code then stands between the parts, and
the placeholder is nowhere in what comes out. -/
theorem splice_statement (c : Config) (hplaceholder : c.placeholder = defaultPlaceholder)
    {s : Statement} (hs : s ≠ .noop) (text out : List Char) (file? : Option String) :
    ((c.splice text (.rule (.statement s)) file?).outcome = .ok out ↔
      ∃ pre post, Text.PartsOnce defaultPlaceholder.toList text pre post ∧
        out = pre ++ s.code ++ post) ∧
    ((c.splice text (.rule (.statement s)) file?).outcome = .ok out →
      ¬ defaultPlaceholder.toList <:+: out) := by
  have hiff : (c.splice text (.rule (.statement s)) file?).outcome = .ok out ↔
      ∃ pre post, Text.PartsOnce defaultPlaceholder.toList text pre post ∧
        out = pre ++ s.code ++ post := by
    rw [splice_statement_eq_ok_iff, hplaceholder]
    constructor
    · rintro ⟨hone, rfl⟩
      obtain ⟨pre, post, hparts⟩ :=
        (Text.count_eq_one_iff defaultPlaceholder_ne_nil isUnbordered_defaultPlaceholder).1 hone
      exact ⟨pre, post, hparts,
        (hparts.count_eq_one_and_replace_eq defaultPlaceholder_ne_nil).2 s.code⟩
    · rintro ⟨pre, post, hparts, rfl⟩
      obtain ⟨hone, hreplace⟩ := hparts.count_eq_one_and_replace_eq defaultPlaceholder_ne_nil
      exact ⟨hone, hreplace s.code⟩
  refine ⟨hiff, fun hok => ?_⟩
  obtain ⟨pre, post, hparts, rfl⟩ := hiff.1 hok
  obtain ⟨hpre, hpost⟩ := hparts.not_infix defaultPlaceholder_ne_nil
  exact not_infix_splice hs hpre hpost

/-- The pieces of another placeholder do not come together around the code. -/
theorem splice_statement_between_pieces :
    (Config.mk "/" false defaultPlaceholder).placeholder = defaultPlaceholder ∧
      Statement.setResult .alive ≠ .noop ∧
      ((Config.mk "/" false defaultPlaceholder).splice
        "\x7bPLACE\x7bPLACEHOLDER\x7dHOLDER\x7d".toList (.rule (.statement (.setResult .alive)))
        none).outcome = .ok "\x7bPLACEresult = is_alive;HOLDER\x7d".toList ∧
      ¬ defaultPlaceholder.toList <:+: "\x7bPLACEresult = is_alive;HOLDER\x7d".toList := by
  have hok : ((Config.mk "/" false defaultPlaceholder).splice
      "\x7bPLACE\x7bPLACEHOLDER\x7dHOLDER\x7d".toList (.rule (.statement (.setResult .alive)))
      none).outcome = .ok "\x7bPLACEresult = is_alive;HOLDER\x7d".toList := by rfl
  exact ⟨rfl, by decide, hok, (splice_statement (.mk "/" false defaultPlaceholder) rfl (by decide) _
    _ none).2 hok⟩

/-- Doing nothing has no code, and they do. -/
example : ((Config.mk "/" false defaultPlaceholder).splice
    "\x7bPLACE\x7bPLACEHOLDER\x7dHOLDER\x7d".toList (.rule (.statement .noop)) none).outcome =
      .ok defaultPlaceholder.toList := by rfl

end Config

end CellShader
