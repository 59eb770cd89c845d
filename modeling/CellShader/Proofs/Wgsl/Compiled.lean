import CellShader.Proofs.Wgsl.Reading
import CellShader.Recipe.Order

/-!
# Reading what rules are compiled to

The code of a rule is cut into the words and marks that it was put together from
(`tokens_exprCode`, `tokens_statementCode`), these are read as what was meant
(`expression?_tokens`, `block?_tokens`), and what was meant is turned back into the rule.  So a rule
can be read off its code (`ofText?_code`), and no two rules have the same code.
-/

namespace CellShader

theorem Expr.code_compare (op : Comparison) (lhs rhs : Expr) :
    (compare op lhs rhs).code =
      "u32(".toList ++ infixCode op.symbol lhs.code rhs.code ++ [')'] := rfl

theorem Expr.code_connect (op : Connective) (lhs rhs : Expr) :
    (connect op lhs rhs).code = '(' :: infixCode op.symbol lhs.code rhs.code ++ [')'] := rfl

theorem Statement.code_setResult (value : Expr) :
    (setResult value).code = resultName ++ " = ".toList ++ value.code ++ [';'] := rfl

theorem Statement.code_ifThenElse (condition : Expr) (whenTrue whenFalse : Statement) :
    (ifThenElse condition whenTrue whenFalse).code =
      "if (".toList ++ condition.code ++ ") \x7b ".toList ++ whenTrue.code ++
        " \x7d else \x7b ".toList ++ whenFalse.code ++ " \x7d".toList := rfl

namespace Wgsl

/-! ## Cutting -/

/-- Whether a word that ends before a text does not go on in it. -/
def IsWordEnd (cs : List Char) : Prop := ∀ c ∈ cs.head?, isWordChar c = false

theorem toNat_of_isWordChar {c : Char} (h : isWordChar c = true) :
    48 ≤ c.toNat ∧ c.toNat ≤ 122 := by
  change (((decide (65 ≤ c.toNat ∧ c.toNat ≤ 90) ||
    (decide (97 ≤ c.toNat) && decide (c.toNat ≤ 122))) ||
      (decide (48 ≤ c.toNat) && decide (c.toNat ≤ 57))) || c == '_') = true at h
  simp only [Bool.or_eq_true, Bool.and_eq_true, decide_eq_true_eq, beq_iff_eq] at h
  rcases h with h | rfl
  · omega
  · decide

theorem isBlank_eq_false_of_isWordChar {c : Char} (h : isWordChar c = true) :
    Text.isBlank c = false := by
  have hc := toNat_of_isWordChar h
  simp only [Text.isBlank, Bool.or_eq_false_iff, Bool.and_eq_false_iff, decide_eq_false_iff_not,
    beq_eq_false_iff_ne]
  omega

theorem tokens_blank {c : Char} (h : Text.isBlank c = true) (cs : List Char) :
    tokens (c :: cs) = tokens cs := by
  cases cs <;> simp [tokens, h]

theorem tokens_mark {c : Char} (hb : Text.isBlank c = false) (hw : isWordChar c = false)
    {cs : List Char} (hp : ∀ d ∈ cs.head?, isPair c d = false) :
    tokens (c :: cs) = .mark [c] :: tokens cs := by
  cases cs with
  | nil => simp [tokens, hb, hw]
  | cons d cs =>
    have hd := hp d rfl
    simp [tokens, hb, hw, hd]

theorem tokens_pair {c d : Char} (hb : Text.isBlank c = false) (hw : isWordChar c = false)
    (hp : isPair c d = true) (cs : List Char) :
    tokens (c :: d :: cs) = .mark [c, d] :: tokens cs := by
  simp [tokens, hb, hw, hp]

theorem tokens_word {w rest : List Char} (hne : w ≠ []) (hw : w.all isWordChar = true)
    (hrest : IsWordEnd rest) : tokens (w ++ rest) = .word w :: tokens rest := by
  induction w with
  | nil => exact absurd rfl hne
  | cons c w ih =>
    obtain ⟨hc, hw⟩ := Bool.and_eq_true_iff.1 hw
    have hb : Text.isBlank c = false := isBlank_eq_false_of_isWordChar hc
    cases w with
    | nil =>
      cases rest with
      | nil => simp [tokens, hb, hc]
      | cons d rest =>
        have hd : isWordChar d = false := hrest d rfl
        simp [tokens, hb, hc, hd]
    | cons d w =>
      have hd : isWordChar d = true := (Bool.and_eq_true_iff.1 hw).1
      have h := ih (by simp) hw
      rw [List.cons_append] at h
      simp [tokens, hb, hc, hd, h, consWord]

/-- Whether a character is a mark by itself, whatever follows it. -/
def isSingle (c : Char) : Bool := !Text.isBlank c && !isWordChar c && !isPair c '='

theorem tokens_single (c : Char) (h : isSingle c = true) (cs : List Char) :
    tokens (c :: cs) = .mark [c] :: tokens cs := by
  simp only [isSingle, Bool.and_eq_true, Bool.not_eq_true'] at h
  obtain ⟨⟨hb, hw⟩, hp⟩ := h
  refine tokens_mark hb hw fun d _ => ?_
  by_cases hd : d = '='
  · rw [hd, hp]
  · simp [isPair, hd]

theorem isWordEnd_single (c : Char) (h : isSingle c = true) (cs : List Char) :
    IsWordEnd (c :: cs) := by
  intro d hd
  obtain rfl := Option.some.inj hd
  simp only [isSingle, Bool.and_eq_true, Bool.not_eq_true'] at h
  exact h.1.2

theorem tokens_space (cs : List Char) : tokens (' ' :: cs) = tokens cs :=
  tokens_blank (by decide) cs

theorem isWordEnd_space (cs : List Char) : IsWordEnd (' ' :: cs) := by
  intro d hd
  obtain rfl := Option.some.inj hd
  decide

theorem tokens_symbol_of_comparison (op : Comparison) (cs : List Char) :
    tokens (op.symbol ++ ' ' :: cs) = .mark op.symbol :: tokens cs := by
  rw [← tokens_space cs]
  cases op with
  | greater | less => exact tokens_mark (by decide) (by decide) (by simp [isPair])
  | greaterOrEqual | lessOrEqual | equal => exact tokens_pair (by decide) (by decide) (by decide) _

theorem tokens_symbol_of_connective (op : Connective) (cs : List Char) :
    tokens (op.symbol ++ ' ' :: cs) = .mark op.symbol :: tokens cs := by
  rw [← tokens_space cs]
  cases op <;> exact tokens_mark (by decide) (by decide) (by simp [isPair])

/-! ## The words and marks of a rule -/

/-- Two operands in parentheses around a mark. -/
def infixTokens (symbol : List Char) (lhs rhs : List Token) : List Token :=
  .mark ['('] :: lhs ++ [.mark [')'], .mark symbol, .mark ['(']] ++ rhs ++ [.mark [')']]

/-- The words and marks that an expression is put together from. -/
def exprTokens : Expr → List Token
  | .const value => [.word (decimal value.toNat ++ ['u'])]
  | .alive => [.word aliveName]
  | .neighbors => [.word neighborsName]
  | .compare op lhs rhs =>
    [.word "u32".toList, .mark ['(']] ++ infixTokens op.symbol (exprTokens lhs) (exprTokens rhs) ++
      [.mark [')']]
  | .connect op lhs rhs =>
    .mark ['('] :: infixTokens op.symbol (exprTokens lhs) (exprTokens rhs) ++ [.mark [')']]

/-- The words and marks that a statement is put together from. -/
def statementTokens : Statement → List Token
  | .noop => []
  | .setResult value => [.word resultName, .mark ['=']] ++ exprTokens value ++ [.mark [';']]
  | .ifThenElse condition whenTrue whenFalse =>
    [.word "if".toList, .mark ['(']] ++ exprTokens condition ++ [.mark [')'], .mark ['\x7b']] ++
      statementTokens whenTrue ++ [.mark ['\x7d'], .word "else".toList, .mark ['\x7b']] ++
      statementTokens whenFalse ++ [.mark ['\x7d']]

theorem tokens_infixCode {symbol lhs rhs : List Char} {left right : List Token}
    (hsymbol : ∀ cs, tokens (symbol ++ ' ' :: cs) = .mark symbol :: tokens cs)
    (hlhs : ∀ cs, IsWordEnd cs → tokens (lhs ++ cs) = left ++ tokens cs)
    (hrhs : ∀ cs, IsWordEnd cs → tokens (rhs ++ cs) = right ++ tokens cs) (cs : List Char) :
    tokens (infixCode symbol lhs rhs ++ cs) = infixTokens symbol left right ++ tokens cs := by
  have hclosing : ∀ cs, IsWordEnd (')' :: cs) := isWordEnd_single ')' (by decide)
  simp only [infixCode, infixTokens, List.cons_append, List.append_assoc, List.nil_append]
  rw [tokens_single '(' (by decide), hlhs _ (hclosing _), tokens_single ')' (by decide),
    tokens_space, hsymbol, tokens_single '(' (by decide), hrhs _ (hclosing _),
    tokens_single ')' (by decide)]

theorem isWordChar_of_mem_decimal {n : Nat} {c : Char} (h : c ∈ decimal n) :
    isWordChar c = true := by
  have hdigit := Nat.isDigit_of_mem_toDigits (by decide) (by decide) h
  simp [isWordChar, Char.isAlphanum, hdigit]

/-- The code of an expression is cut into the words and marks that it is put together from. -/
theorem tokens_exprCode (e : Expr) {cs : List Char} (hcs : IsWordEnd cs) :
    tokens (e.code ++ cs) = exprTokens e ++ tokens cs := by
  induction e generalizing cs with
  | const value =>
    have hne : decimal value.toNat ++ ['u'] ≠ [] := by simp
    refine tokens_word hne (List.all_eq_true.2 fun c hc => ?_) hcs
    rcases List.mem_append.1 hc with hc | hc
    · exact isWordChar_of_mem_decimal hc
    · obtain rfl := List.mem_singleton.1 hc
      decide
  | alive => exact tokens_word (by decide) (by decide) hcs
  | neighbors => exact tokens_word (by decide) (by decide) hcs
  | compare op lhs rhs ihl ihr =>
    have hbinary := tokens_infixCode (tokens_symbol_of_comparison op) (fun _ => ihl) (fun _ => ihr)
    have hword : ∀ cs,
        tokens ("u32".toList ++ '(' :: cs) = .word "u32".toList :: tokens ('(' :: cs) :=
      fun cs => tokens_word (by decide) (by decide) (isWordEnd_single '(' (by decide) cs)
    have hcode : (Expr.compare op lhs rhs).code ++ cs =
        "u32".toList ++ '(' :: (infixCode op.symbol lhs.code rhs.code ++ ')' :: cs) := by
      simp [Expr.code_compare]
    rw [hcode, hword, tokens_single '(' (by decide), hbinary, tokens_single ')' (by decide)]
    simp [exprTokens]
  | connect op lhs rhs ihl ihr =>
    have hbinary := tokens_infixCode (tokens_symbol_of_connective op) (fun _ => ihl) (fun _ => ihr)
    simp only [Expr.code_connect, exprTokens, List.cons_append, List.append_assoc, List.nil_append]
    rw [tokens_single '(' (by decide), hbinary, tokens_single ')' (by decide)]

/-- The code of a statement is cut into the words and marks that it is put together from. -/
theorem tokens_statementCode (s : Statement) (cs : List Char) :
    tokens (s.code ++ cs) = statementTokens s ++ tokens cs := by
  have hclosing : ∀ cs, IsWordEnd (')' :: cs) := isWordEnd_single ')' (by decide)
  have hsemicolon : ∀ cs, IsWordEnd (';' :: cs) := isWordEnd_single ';' (by decide)
  have hequals : ∀ cs, tokens ('=' :: ' ' :: cs) = .mark ['='] :: tokens cs := by
    intro cs
    rw [tokens_mark (by decide) (by decide) (by simp [isPair]), tokens_space]
  have hresult : ∀ cs, tokens (resultName ++ ' ' :: cs) = .word resultName :: tokens (' ' :: cs) :=
    fun cs => tokens_word (by decide) (by decide) (isWordEnd_space cs)
  have hif : ∀ cs, tokens ("if".toList ++ ' ' :: cs) = .word "if".toList :: tokens (' ' :: cs) :=
    fun cs => tokens_word (by decide) (by decide) (isWordEnd_space cs)
  have helse : ∀ cs,
      tokens ("else".toList ++ ' ' :: cs) = .word "else".toList :: tokens (' ' :: cs) :=
    fun cs => tokens_word (by decide) (by decide) (isWordEnd_space cs)
  induction s generalizing cs with
  | noop => rfl
  | setResult value =>
    have hcode : (Statement.setResult value).code ++ cs =
        resultName ++ ' ' :: '=' :: ' ' :: (value.code ++ ';' :: cs) := by
      simp [Statement.code_setResult]
    rw [hcode, hresult, tokens_space, hequals, tokens_exprCode value (hsemicolon cs),
      tokens_single ';' (by decide)]
    simp [statementTokens]
  | ifThenElse condition whenTrue whenFalse iht ihf =>
    have hcode : (Statement.ifThenElse condition whenTrue whenFalse).code ++ cs =
        "if".toList ++ ' ' :: '(' :: (condition.code ++ ')' :: ' ' :: '\x7b' :: ' ' ::
          (whenTrue.code ++ ' ' :: '\x7d' :: ' ' :: ("else".toList ++ ' ' :: '\x7b' :: ' ' ::
            (whenFalse.code ++ ' ' :: '\x7d' :: cs)))) := by
      simp [Statement.code_ifThenElse]
    rw [hcode, hif, tokens_space, tokens_single '(' (by decide),
      tokens_exprCode condition (hclosing _), tokens_single ')' (by decide), tokens_space,
      tokens_single '\x7b' (by decide), tokens_space, iht, tokens_space,
      tokens_single '\x7d' (by decide), tokens_space, helse, tokens_space,
      tokens_single '\x7b' (by decide), tokens_space, ihf, tokens_space,
      tokens_single '\x7d' (by decide)]
    simp [statementTokens]

/-! ## Literals -/

/-- A number begins with a zero only if it is zero. -/
theorem decimal_of_head?_eq_zero {n : Nat} (h : (decimal n).head? = some '0') :
    decimal n = ['0'] := by
  induction n using Nat.strongRecOn with
  | _ n ih =>
    rcases Nat.lt_or_ge n 10 with hn | hn
    · rw [decimal, Nat.toDigits_of_lt_base hn] at h ⊢
      rw [Option.some.inj h]
    · have hdigits : decimal n = decimal (n / 10) ++ [Nat.digitChar (n % 10)] :=
        Nat.toDigits_of_base_le (by decide) hn
      have hne : decimal (n / 10) ≠ [] := Nat.toDigits_ne_nil
      have hhead : (decimal (n / 10)).head? = some '0' := by
        obtain ⟨c, cs, hcs⟩ := List.exists_cons_of_ne_nil hne
        rw [hdigits, hcs] at h
        rwa [hcs]
      have hzero := ih (n / 10) (by omega) hhead
      have hvalue : Nat.ofDigitChars 10 (decimal (n / 10)) 0 = n / 10 :=
        Nat.ofDigitChars_ten_toDigits
      rw [hzero] at hvalue
      have hval : Nat.ofDigitChars 10 ['0'] 0 = 0 := by decide
      omega

theorem isNumber_decimal (n : Nat) : isNumber (decimal n) = true := by
  have hall : (decimal n).all Char.isDigit = true :=
    List.all_eq_true.2 fun c hc => Nat.isDigit_of_mem_toDigits (by decide) (by decide) hc
  obtain ⟨c, cs, hcs⟩ := List.exists_cons_of_ne_nil (Nat.toDigits_ne_nil (n := n) (b := 10))
  have hdecimal : decimal n = c :: cs := hcs
  rw [isNumber, hall, Bool.true_and, Bool.or_eq_true]
  by_cases hc : c = '0'
  · left
    rw [decimal_of_head?_eq_zero (by rw [hdecimal, hc]; rfl)]
    rfl
  · right
    rw [hdecimal]
    simpa using hc

theorem literal?_decimal (value : UInt32) :
    literal? (decimal value.toNat ++ ['u']) = some value := by
  have hdigits : Nat.ofDigitChars 10 (decimal value.toNat) 0 = value.toNat :=
    Nat.ofDigitChars_ten_toDigits
  have hlt : value.toNat < 2 ^ 32 := value.toNat_lt
  rw [literal?, List.dropLast_concat, hdigits,
    if_pos ⟨List.getLast?_concat, isNumber_decimal value.toNat, hlt⟩, UInt32.ofNat_toNat]

/-- A literal is told from every word that ends with another letter. -/
theorem literal_ne {digits w : List Char} (hw : w.getLast? ≠ some 'u') : digits ++ ['u'] ≠ w := by
  rintro rfl
  exact hw List.getLast?_concat

/-! ## Reading -/

/-- What the code of an expression says. -/
def Expression.ofExpr : Expr → Expression
  | .const value => .literal value
  | .alive => .named .isAlive
  | .neighbors => .named .numNeighbors
  | .compare op lhs rhs => .cast (.compare op (.group (ofExpr lhs)) (.group (ofExpr rhs)))
  | .connect op lhs rhs => .group (.connect op (.group (ofExpr lhs)) (.group (ofExpr rhs)))

/-- What the code of a statement says. -/
def Block.ofStatement : Statement → Block
  | .noop => .empty
  | .setResult value => .assign (.ofExpr value)
  | .ifThenElse condition whenTrue whenFalse =>
    .branch (.ofExpr condition) (ofStatement whenTrue) (ofStatement whenFalse)

/-- Whether an expression that ends before some pieces does not go on in them. -/
def IsExpressionEnd (ts : List Token) : Prop :=
  ∀ symbol, ts.head? = some (.mark symbol) → operator? symbol = none

theorem isExpressionEnd_of_mark {symbol : List Char} (h : operator? symbol = none)
    (ts : List Token) : IsExpressionEnd (.mark symbol :: ts) := by
  intro symbol' h'
  obtain rfl := Token.mark.inj (Option.some.inj h')
  exact h

theorem continued?_of_end {ts : List Token} (h : IsExpressionEnd ts)
    (read? : List Token → Option (Expression × List Token)) (e : Expression) :
    continued? read? e ts = some (e, ts) := by
  unfold continued?
  split
  · rename_i symbol ts'
    rw [h symbol rfl]
  · rfl

theorem between?_of_read {α : Type} (opening : List Char) {closing : List Char}
    {read? : List Token → Option (α × List Token)} {inner ts : List Token} {x : α}
    (h : read? (inner ++ .mark closing :: ts) = some (x, .mark closing :: ts)) :
    between? opening closing read? (.mark opening :: (inner ++ .mark closing :: ts)) =
      some (x, ts) := by
  simp [between?, after?, h]

theorem operand?_cast {read? : List Token → Option (Expression × List Token)} {ts ts' : List Token}
    {e : Expression} (h : between? ['('] [')'] read? ts = some (e, ts')) :
    operand? read? (.word "u32".toList :: ts) = some (.cast e, ts') := by
  rw [operand?, if_pos rfl, h]
  rfl

theorem operand?_group {read? : List Token → Option (Expression × List Token)} {ts ts' : List Token}
    {e : Expression} (h : between? ['('] [')'] read? (.mark ['('] :: ts) = some (e, ts')) :
    operand? read? (.mark ['('] :: ts) = some (.group e, ts') := by
  rw [operand?, h]
  · rfl
  · simp

theorem expression?_of_operand {depth : Nat} {ts ts' : List Token} {e : Expression}
    (h : operand? (expression? depth) ts = some (e, ts')) (hend : IsExpressionEnd ts') :
    expression? (depth + 1) ts = some (e, ts') := by
  rw [expression?, h]
  exact continued?_of_end hend _ e

theorem expression?_word {w : List Char} {e : Expression} (hu32 : w ≠ "u32".toList)
    (hleaf : leaf? w = some e) (depth : Nat) {ts : List Token} (hts : IsExpressionEnd ts) :
    expression? (depth + 1) (.word w :: ts) = some (e, ts) := by
  refine expression?_of_operand ?_ hts
  rw [operand?, if_neg hu32, hleaf]
  rfl

theorem expression?_infix {symbol : List Char} {operator : Expression → Expression → Expression}
    (hsymbol : operator? symbol = some operator) {depth : Nat} {left right : List Token}
    {lhs rhs : Expression}
    (hlhs : ∀ ts, IsExpressionEnd ts → expression? depth (left ++ ts) = some (lhs, ts))
    (hrhs : ∀ ts, IsExpressionEnd ts → expression? depth (right ++ ts) = some (rhs, ts))
    (ts : List Token) :
    expression? (depth + 1) (infixTokens symbol left right ++ ts) =
      some (operator (.group lhs) (.group rhs), ts) := by
  have hgroup : ∀ {inner : List Token} {e : Expression},
      (∀ ts, IsExpressionEnd ts → expression? depth (inner ++ ts) = some (e, ts)) → ∀ ts,
      operand? (expression? depth) (.mark ['('] :: (inner ++ .mark [')'] :: ts)) =
        some (.group e, ts) :=
    fun h ts =>
      operand?_group (between?_of_read _ (h (.mark [')'] :: ts) (isExpressionEnd_of_mark rfl ts)))
  simp only [infixTokens, List.cons_append, List.append_assoc, List.nil_append]
  rw [expression?, hgroup hlhs]
  simp [continued?, hsymbol, hgroup hrhs]

theorem operator?_of_comparison (op : Comparison) :
    operator? op.symbol = some (.compare op) := by cases op <;> rfl

theorem operator?_of_connective (op : Connective) :
    operator? op.symbol = some (.connect op) := by cases op <;> rfl

/-- The words and marks of an expression are read as what its code says. -/
theorem expression?_tokens (e : Expr) {depth : Nat} (hdepth : (exprTokens e).length < depth)
    {ts : List Token} (hts : IsExpressionEnd ts) :
    expression? depth (exprTokens e ++ ts) = some (.ofExpr e, ts) := by
  induction e generalizing depth ts with
  | const value =>
    obtain ⟨depth, rfl⟩ : ∃ d, depth = d + 1 := ⟨depth - 1, by omega⟩
    refine expression?_word (literal_ne (by decide)) ?_ depth hts
    rw [leaf?, if_neg (literal_ne (by decide)), if_neg (literal_ne (by decide)), literal?_decimal]
    rfl
  | alive =>
    obtain ⟨depth, rfl⟩ : ∃ d, depth = d + 1 := ⟨depth - 1, by omega⟩
    exact expression?_word (by decide) (by decide) depth hts
  | neighbors =>
    obtain ⟨depth, rfl⟩ : ∃ d, depth = d + 1 := ⟨depth - 1, by omega⟩
    exact expression?_word (by decide) (by decide) depth hts
  | compare op lhs rhs ihl ihr =>
    simp only [exprTokens, infixTokens, List.length_append, List.length_cons,
      List.length_nil] at hdepth
    obtain ⟨depth, rfl⟩ : ∃ d, depth = d + 2 := ⟨depth - 2, by omega⟩
    have hbinary : ∀ ts, expression? (depth + 1)
        (infixTokens op.symbol (exprTokens lhs) (exprTokens rhs) ++ ts) =
          some (.compare op (.group (.ofExpr lhs)) (.group (.ofExpr rhs)), ts) :=
      expression?_infix (operator?_of_comparison op) (fun ts hts => ihl (by omega) hts)
        (fun ts hts => ihr (by omega) hts)
    have hbetween := between?_of_read ['('] (hbinary (.mark [')'] :: ts))
    simp only [exprTokens, List.cons_append, List.append_assoc, List.nil_append]
    exact expression?_of_operand (operand?_cast hbetween) hts
  | connect op lhs rhs ihl ihr =>
    simp only [exprTokens, infixTokens, List.length_append, List.length_cons,
      List.length_nil] at hdepth
    obtain ⟨depth, rfl⟩ : ∃ d, depth = d + 2 := ⟨depth - 2, by omega⟩
    have hbinary : ∀ ts, expression? (depth + 1)
        (infixTokens op.symbol (exprTokens lhs) (exprTokens rhs) ++ ts) =
          some (.connect op (.group (.ofExpr lhs)) (.group (.ofExpr rhs)), ts) :=
      expression?_infix (operator?_of_connective op) (fun ts hts => ihl (by omega) hts)
        (fun ts hts => ihr (by omega) hts)
    have hbetween := between?_of_read ['('] (hbinary (.mark [')'] :: ts))
    simp only [exprTokens, List.cons_append, List.append_assoc, List.nil_append]
    exact expression?_of_operand (operand?_group hbetween) hts

theorem branch?_of_read {readExpression? : List Token → Option (Expression × List Token)}
    {readBlock? : List Token → Option (Block × List Token)} {inner left right ts : List Token}
    {e : Expression} {b b' : Block}
    (he : ∀ ts, readExpression? (inner ++ .mark [')'] :: ts) = some (e, .mark [')'] :: ts))
    (hb : ∀ ts, readBlock? (left ++ .mark ['\x7d'] :: ts) = some (b, .mark ['\x7d'] :: ts))
    (hb' : ∀ ts, readBlock? (right ++ .mark ['\x7d'] :: ts) = some (b', .mark ['\x7d'] :: ts)) :
    branch? readExpression? readBlock?
        (.mark ['('] :: (inner ++ .mark [')'] :: .mark ['\x7b'] :: (left ++ .mark ['\x7d'] ::
          .word "else".toList :: .mark ['\x7b'] :: (right ++ .mark ['\x7d'] :: ts)))) =
      some (.branch e b b', ts) := by
  simp [branch?, between?_of_read _ (he _), between?_of_read _ (hb _), between?_of_read _ (hb' _),
    after?]

theorem block?_of_no_word {ts : List Token} (h : ∀ w, ts.head? ≠ some (.word w)) (depth : Nat) :
    block? (depth + 1) ts = some (.empty, ts) := by
  cases ts with
  | nil => rfl
  | cons t ts =>
    cases t with
    | word w => exact absurd rfl (h w)
    | mark cs => rfl

/-- The words and marks of a statement are read as what its code says. -/
theorem block?_tokens (s : Statement) {depth : Nat} (hdepth : (statementTokens s).length < depth)
    {ts : List Token} (hts : ∀ w, ts.head? ≠ some (.word w)) :
    block? depth (statementTokens s ++ ts) = some (.ofStatement s, ts) := by
  induction s generalizing depth ts with
  | noop =>
    obtain ⟨depth, rfl⟩ : ∃ d, depth = d + 1 := ⟨depth - 1, by omega⟩
    exact block?_of_no_word hts depth
  | setResult value =>
    obtain ⟨depth, rfl⟩ : ∃ d, depth = d + 1 := ⟨depth - 1, by omega⟩
    simp only [statementTokens, List.length_append, List.length_cons, List.length_nil] at hdepth
    have hvalue : ∀ ts, expression? depth (exprTokens value ++ .mark [';'] :: ts) =
        some (.ofExpr value, .mark [';'] :: ts) :=
      fun ts => expression?_tokens value (by omega) (isExpressionEnd_of_mark rfl ts)
    simp only [statementTokens, List.cons_append, List.append_assoc, List.nil_append]
    rw [block?, if_pos (by rfl), between?_of_read _ (hvalue ts)]
    rfl
  | ifThenElse condition whenTrue whenFalse iht ihf =>
    obtain ⟨depth, rfl⟩ : ∃ d, depth = d + 1 := ⟨depth - 1, by omega⟩
    simp only [statementTokens, List.length_append, List.length_cons, List.length_nil] at hdepth
    have hcondition : ∀ ts, expression? depth (exprTokens condition ++ .mark [')'] :: ts) =
        some (.ofExpr condition, .mark [')'] :: ts) :=
      fun ts => expression?_tokens condition (by omega) (isExpressionEnd_of_mark rfl ts)
    have htrue : ∀ ts, block? depth (statementTokens whenTrue ++ .mark ['\x7d'] :: ts) =
        some (.ofStatement whenTrue, .mark ['\x7d'] :: ts) :=
      fun ts => iht (by omega) (by simp)
    have hfalse : ∀ ts, block? depth (statementTokens whenFalse ++ .mark ['\x7d'] :: ts) =
        some (.ofStatement whenFalse, .mark ['\x7d'] :: ts) :=
      fun ts => ihf (by omega) (by simp)
    simp only [statementTokens, List.cons_append, List.append_assoc, List.nil_append]
    rw [block?, if_neg (by decide), if_pos rfl]
    exact branch?_of_read hcondition htrue hfalse

/-! ## Turning back -/

theorem expr?_cast_compare (op : Comparison) (lhs rhs : Expression) :
    (Expression.cast (.compare op (.group lhs) (.group rhs))).expr? =
      do return .compare op (← lhs.expr?) (← rhs.expr?) := rfl

theorem expr?_group_connect (op : Connective) (lhs rhs : Expression) :
    (Expression.group (.connect op (.group lhs) (.group rhs))).expr? =
      do return .connect op (← lhs.expr?) (← rhs.expr?) := rfl

theorem expr?_ofExpr (e : Expr) : (Expression.ofExpr e).expr? = some e := by
  induction e with
  | const value => rfl
  | alive => rfl
  | neighbors => rfl
  | compare op lhs rhs ihl ihr =>
    rw [Expression.ofExpr, expr?_cast_compare, ihl, ihr]
    rfl
  | connect op lhs rhs ihl ihr =>
    rw [Expression.ofExpr, expr?_group_connect, ihl, ihr]
    rfl

theorem statement?_ofStatement (s : Statement) : (Block.ofStatement s).statement? = some s := by
  induction s with
  | noop => rfl
  | setResult value => simp [Block.ofStatement, Block.statement?, expr?_ofExpr]
  | ifThenElse condition whenTrue whenFalse iht ihf =>
    simp [Block.ofStatement, Block.statement?, expr?_ofExpr, iht, ihf]

/-! ## Whole texts -/

theorem tokens_code_of_expr (e : Expr) : tokens e.code = exprTokens e := by
  have h : tokens (e.code ++ []) = exprTokens e ++ tokens [] :=
    tokens_exprCode e (by simp [IsWordEnd])
  simpa [tokens] using h

theorem tokens_code_of_statement (s : Statement) : tokens s.code = statementTokens s := by
  have h := tokens_statementCode s []
  simpa [tokens] using h

theorem Expression.ofText?_code (e : Expr) : Expression.ofText? e.code = some (.ofExpr e) := by
  have h : expression? ((exprTokens e).length + 1) (exprTokens e ++ []) = some (.ofExpr e, []) :=
    expression?_tokens e (Nat.lt_succ_self _) (by simp [IsExpressionEnd])
  rw [List.append_nil] at h
  rw [ofText?, tokens_code_of_expr, h]
  rfl

theorem Block.ofText?_code (s : Statement) : Block.ofText? s.code = some (.ofStatement s) := by
  have h : block? ((statementTokens s).length + 1) (statementTokens s ++ []) =
      some (.ofStatement s, []) :=
    block?_tokens s (Nat.lt_succ_self _) (by simp)
  rw [List.append_nil] at h
  rw [ofText?, tokens_code_of_statement, h]
  rfl

theorem word_of_head?_exprTokens {e : Expr} {w : List Char}
    (h : (exprTokens e).head? = some (.word w)) : w.getLast? = some 'u' ∨ w = aliveName ∨
      w = neighborsName ∨ w = "u32".toList := by
  cases e with
  | const value =>
    obtain rfl := Token.word.inj (Option.some.inj h)
    exact .inl List.getLast?_concat
  | alive =>
    obtain rfl := Token.word.inj (Option.some.inj h)
    exact .inr (.inl rfl)
  | neighbors =>
    obtain rfl := Token.word.inj (Option.some.inj h)
    exact .inr (.inr (.inl rfl))
  | compare op lhs rhs =>
    obtain rfl := Token.word.inj (Option.some.inj h)
    exact .inr (.inr (.inr rfl))
  | connect op lhs rhs => cases Option.some.inj h

/-- The code of an expression is not that of a statement. -/
theorem Block.ofText?_code_of_expr (e : Expr) : Block.ofText? e.code = none := by
  have hne : exprTokens e ≠ [] := by cases e <;> simp [exprTokens]
  have hhead : ∀ w, (exprTokens e).head? = some (.word w) → w.getLast? = some 'u' ∨ w = aliveName ∨
      w = neighborsName ∨ w = "u32".toList := fun w h => word_of_head?_exprTokens h
  rw [ofText?, tokens_code_of_expr]
  obtain ⟨t, ts, hts⟩ := List.exists_cons_of_ne_nil hne
  rw [hts] at hhead ⊢
  have hempty : block? ((t :: ts).length + 1) (t :: ts) = some (.empty, t :: ts) := by
    cases t with
    | word w =>
      have hw := hhead w rfl
      have hresult : w ≠ "result".toList := by
        rintro rfl
        revert hw
        decide
      have hif : w ≠ "if".toList := by
        rintro rfl
        revert hw
        decide
      rw [block?, if_neg hresult, if_neg hif]
    | mark cs => rfl
  rw [hempty]
  rfl

end Wgsl

/-- A rule can be read off its code. -/
theorem Rule.ofText?_code (r : Rule) : Rule.ofText? r.code = some r := by
  cases r with
  | expr e =>
    rw [ofText?, code, Wgsl.Block.ofText?_code_of_expr, Wgsl.Expression.ofText?_code]
    simp [Wgsl.expr?_ofExpr]
  | statement s =>
    rw [ofText?, code, Wgsl.Block.ofText?_code]
    simp [Wgsl.statement?_ofStatement]

theorem Rule.code_injective {a b : Rule} (h : a.code = b.code) : a = b := by
  have ha := Rule.ofText?_code a
  rw [h, Rule.ofText?_code b] at ha
  exact (Option.some.inj ha).symm

theorem Value.equals_rule (a b : Rule) : (rule a).equals (rule b) = .ok (a == b) := rfl

/-- Compilation can be undone, and so gives equal texts for equal rules only. -/
theorem Rule.ofText?_code_and_code_eq_iff :
    (∀ r : Rule, Rule.ofText? r.code = some r) ∧
      ∀ a b : Rule, (a.code = b.code ↔ a = b) ∧
        ((Value.rule a).equals (Value.rule b) = .ok true ↔ a.code = b.code) := by
  have hiff : ∀ a b : Rule, a.code = b.code ↔ a = b :=
    fun a b => ⟨Rule.code_injective, congrArg Rule.code⟩
  refine ⟨Rule.ofText?_code, fun a b => ⟨hiff a b, ?_⟩⟩
  rw [Value.equals_rule, hiff, Except.ok.injEq, beq_iff_eq]

end CellShader
