import CellShader.Recipe.Registry
import CellShader.Proofs.Wgsl.Running

/-!
# What can be built

Rules that say which tree an operation makes of values that were built (`Operation.Makes`) and which
value a recipe makes (`Term.Makes`), each part of a tree being of the kind that the tree asks for.
Carrying out a recipe follows these rules and fails by type or value where there is none
(`reads_evalWith`): one lemma for each reading of a value, and rules for carrying out one reading
after another.  The trees that come out have shader text and can be run on all arrays (`Rule.runs`),
so whatever is built can be used (`Registry.eval_construction`).
-/

namespace CellShader

open Number

/-! ## Readings -/

/-- Whether a reading gives what `P` says, and nothing but a fault of type or value where `P` says
nothing. -/
structure Reads {α : Type} (x : Except BuildFault α) (P : α → Prop) : Prop where
  eq_ok_iff : ∀ a, x = .ok a ↔ P a
  kind_of_error : ∀ fault, x = .error fault → fault.kind = .type ∨ fault.kind = .value

namespace Reads

variable {α β : Type} {x : Except BuildFault α} {P Q : α → Prop}

theorem of_ok {a : α} (h : ∀ b, P b ↔ b = a) : Reads (.ok a) P where
  eq_ok_iff b := by rw [h, Except.ok.injEq, eq_comm]
  kind_of_error _ h := by cases h

theorem of_error {fault : BuildFault} (hkind : fault.kind = .type ∨ fault.kind = .value)
    (h : ∀ a, ¬P a) : Reads (.error fault) P where
  eq_ok_iff a := by simp [h a]
  kind_of_error _ h := by
    obtain rfl := Except.error.inj h
    exact hkind

theorem congr (hx : Reads x P) (h : ∀ a, Q a ↔ P a) : Reads x Q where
  eq_ok_iff a := (hx.eq_ok_iff a).trans (h a).symm
  kind_of_error := hx.kind_of_error

theorem bind {R : α → β → Prop} {f : α → Except BuildFault β} (hx : Reads x P)
    (hf : ∀ a, Reads (f a) (R a)) : Reads (x >>= f) (fun b => ∃ a, P a ∧ R a b) := by
  cases x with
  | error fault =>
    refine of_error (hx.kind_of_error fault rfl) ?_
    rintro b ⟨a, ha, -⟩
    cases (hx.eq_ok_iff a).2 ha
  | ok a =>
    refine (hf a).congr fun b => ⟨?_, fun hb => ⟨a, (hx.eq_ok_iff a).1 rfl, hb⟩⟩
    rintro ⟨a', ha', hb⟩
    obtain rfl := Except.ok.inj ((hx.eq_ok_iff a').2 ha')
    exact hb

theorem map (hx : Reads x P) (f : α → β) : Reads (x.map f) (fun b => ∃ a, P a ∧ b = f a) := by
  have h : x.map f = x >>= fun a => .ok (f a) := by cases x <;> rfl
  rw [h]
  exact hx.bind fun a => of_ok fun b => Iff.rfl

end Reads

/-! ## Readings of values -/

namespace Value

/-- The expressions that a value stands for where integers are taken for constants: an expression
for itself, and an integer for the constant with this word. -/
inductive StandsFor : Value → Expr → Prop
  | itself (e : Expr) : StandsFor (rule (.expr e)) e
  | constant {v : Value} {n : UInt32} (h : v.integer? = some (n.toNat : Int)) :
      StandsFor v (.const n)

theorem isInteger_of_integer? {v : Value} {i : Int} (h : v.integer? = some i) :
    v.isInteger = true := by
  cases v <;> simp_all [integer?, isInteger]

theorem reads_asWord (v : Value) :
    Reads v.asWord (fun n => v.integer? = some (n.toNat : Int)) := by
  unfold asWord
  split
  · rename_i hv
    refine .of_error (.inr rfl) fun n h => ?_
    simp [isInteger_of_integer? h] at hv
  · split
    · rename_i hnone
      exact .of_error (.inl rfl) fun n h => by simp [hnone] at h
    · rename_i i hi
      split
      · rename_i hrange
        refine .of_ok fun n => ?_
        rw [hi, Option.some.injEq, ← UInt32.toNat_inj, UInt32.toNat_ofNat_of_lt' (by omega)]
        omega
      · rename_i hrange
        refine .of_error (.inr rfl) fun n h => hrange ?_
        have hn : n.toNat < UInt32.size := n.toNat_lt
        rw [hi, Option.some.injEq] at h
        omega

theorem reads_asConstant (v : Value) :
    Reads v.asConstant (fun e => ∃ n, v.integer? = some (n.toNat : Int) ∧ e = .const n) :=
  v.reads_asWord.map Expr.const

theorem reads_asExpr (v : Value) : Reads v.asExpr v.StandsFor := by
  unfold asExpr
  split
  · rename_i e
    refine .of_ok fun e' => ⟨fun h => ?_, fun h => h ▸ .itself e⟩
    cases h with
    | itself => rfl
    | constant h => cases h
  · rename_i hrule
    have hstands : ∀ e, v.StandsFor e ↔
        ∃ n : UInt32, v.integer? = some (n.toNat : Int) ∧ e = .const n := by
      refine fun e => ⟨fun h => ?_, fun ⟨n, h, he⟩ => he ▸ .constant h⟩
      cases h with
      | itself => exact absurd rfl (hrule e)
      | constant h => exact ⟨_, h, rfl⟩
    split
    · exact v.reads_asConstant.congr hstands
    · rename_i hv
      refine .of_error (.inl rfl) fun e h => ?_
      obtain ⟨n, hn, -⟩ := (hstands e).1 h
      exact hv (isInteger_of_integer? hn)

theorem reads_asStatement (v : Value) :
    Reads v.asStatement (fun s => v = rule (.statement s)) := by
  unfold asStatement
  split
  · exact .of_ok fun s' => by simp [eq_comm]
  · rename_i hrule
    exact .of_error (.inl rfl) hrule

variable {fault : Value → BuildFault}

theorem reads_exprOr (hfault : ∀ v, (fault v).kind = .type) (v : Value) :
    Reads (v.exprOr fault) (fun e => v = rule (.expr e)) := by
  unfold exprOr
  split
  · exact .of_ok fun e' => by simp [eq_comm]
  · rename_i hrule
    exact .of_error (.inl (hfault v)) hrule

theorem reads_statementOr (hfault : ∀ v, (fault v).kind = .type) (v : Value) :
    Reads (v.statementOr fault) (fun s => v = rule (.statement s)) := by
  unfold statementOr
  split
  · exact .of_ok fun s' => by simp [eq_comm]
  · rename_i hrule
    exact .of_error (.inl (hfault v)) hrule

end Value

section Parts

variable {read : Value → Except BuildFault Expr} {P : Value → Expr → Prop}
  (hread : ∀ v, Reads (read v) (P v))

include hread

theorem reads_operands (a b : Value) :
    Reads (operands read a b) (fun p => P a p.1 ∧ P b p.2) := by
  refine ((hread a).bind fun _ => (hread b).bind fun _ => .of_ok fun _ => Iff.rfl).congr ?_
  rintro ⟨l, r⟩
  simp

theorem Expr.reads_ofComparison (op : Comparison) (a b : Value) :
    Reads (Expr.ofComparison read op a b) (fun e => ∃ l r, P a l ∧ P b r ∧ e = .compare op l r) :=
  ((reads_operands hread a b).map _).congr fun e => by simp [and_assoc]

theorem Expr.reads_ofConnective (op : Connective) (a b : Value) :
    Reads (Expr.ofConnective read op a b) (fun e => ∃ l r, P a l ∧ P b r ∧ e = .connect op l r) :=
  ((reads_operands hread a b).map _).congr fun e => by simp [and_assoc]

theorem Statement.reads_ofBranch {readBranch : Value → Except BuildFault Statement}
    (hbranch : ∀ v, Reads (readBranch v) (fun s => v = .rule (.statement s))) (c t f : Value) :
    Reads (Statement.ofBranch read readBranch c t f)
      (fun s => ∃ e, P c e ∧ ∃ whenTrue, t = .rule (.statement whenTrue) ∧
        ∃ whenFalse, f = .rule (.statement whenFalse) ∧ s = .ifThenElse e whenTrue whenFalse) :=
  (hread c).bind fun _ => (hbranch t).bind fun _ => (hbranch f).bind fun _ =>
    .of_ok fun _ => Iff.rfl

end Parts

/-! ## Operations -/

namespace Operation

/-- Whether an operation makes one node of its arguments or hands on a tree that is one. -/
def isConstructor : Operation → Bool
  | conway | lifeLike | countIn | rulestring | ruleset | ruleNamed => false
  | _ => true

/-- Which tree an operation makes of values: those that wrap integers take what stands for an
expression, the others take expressions and statements only. -/
inductive Makes : Operation → List Value → Rule → Prop
  | constant {v : Value} {n : UInt32} (h : v.integer? = some (n.toNat : Int)) :
      Makes constant [v] (.expr (.const n))
  | constantNode {v : Value} {n : UInt32} (h : v.integer? = some (n.toNat : Int)) :
      Makes constantNode [v] (.expr (.const n))
  | alive : Makes alive [] (.expr .alive)
  | aliveNode : Makes aliveNode [] (.expr .alive)
  | neighbors : Makes neighbors [] (.expr .neighbors)
  | neighborsNode : Makes neighborsNode [] (.expr .neighbors)
  | compare {op : Comparison} {a b : Value} {l r : Expr} (ha : a.StandsFor l)
      (hb : b.StandsFor r) : Makes (compare op) [a, b] (.expr (.compare op l r))
  | compareNode {op : Comparison} {l r : Expr} :
      Makes (compareNode op) [.rule (.expr l), .rule (.expr r)] (.expr (.compare op l r))
  | connect {op : Connective} {a b : Value} {l r : Expr} (ha : a.StandsFor l)
      (hb : b.StandsFor r) : Makes (connect op) [a, b] (.expr (.connect op l r))
  | connectNode {op : Connective} {l r : Expr} :
      Makes (connectNode op) [.rule (.expr l), .rule (.expr r)] (.expr (.connect op l r))
  | noop : Makes noop [] (.statement .noop)
  | noopNode : Makes noopNode [] (.statement .noop)
  | setResult {v : Value} {e : Expr} (h : v.StandsFor e) :
      Makes setResult [v] (.statement (.setResult e))
  | setResultNode {e : Expr} :
      Makes setResultNode [.rule (.expr e)] (.statement (.setResult e))
  | ifThenElse {v : Value} {c : Expr} {t f : Statement} (h : v.StandsFor c) :
      Makes ifThenElse [v, .rule (.statement t), .rule (.statement f)]
        (.statement (.ifThenElse c t f))
  | ifThenElseNode {c : Expr} {t f : Statement} :
      Makes ifThenElseNode [.rule (.expr c), .rule (.statement t), .rule (.statement f)]
        (.statement (.ifThenElse c t f))
  | asExpr {v : Value} {e : Expr} (h : v.StandsFor e) : Makes asExpr [v] (.expr e)
  | asStatement {s : Statement} : Makes asStatement [.rule (.statement s)] (.statement s)

theorem kind_miscounted (op : Operation) (given : Nat) : (op.miscounted given).kind = .type := by
  unfold miscounted
  dsimp only
  split <;> rfl

section Inversion

variable {v a b c t f : Value} {rule : Rule}

theorem makes_constant :
    Makes constant [v] rule ↔
      ∃ e, (∃ n : UInt32, v.integer? = some (n.toNat : Int) ∧ e = .const n) ∧ rule = .expr e := by
  refine ⟨fun h => ?_, ?_⟩
  · cases h with
    | constant h => exact ⟨_, ⟨_, h, rfl⟩, rfl⟩
  · rintro ⟨_, ⟨n, h, rfl⟩, rfl⟩
    exact .constant h

theorem makes_constantNode : Makes constantNode [v] rule ↔ Makes constant [v] rule := by
  refine ⟨fun h => ?_, fun h => ?_⟩
  · cases h with
    | constantNode h => exact .constant h
  · cases h with
    | constant h => exact .constantNode h

theorem makes_compare {op : Comparison} :
    Makes (compare op) [a, b] rule ↔
      ∃ e, (∃ l r, a.StandsFor l ∧ b.StandsFor r ∧ e = .compare op l r) ∧ rule = .expr e := by
  refine ⟨fun h => ?_, ?_⟩
  · cases h with
    | compare ha hb => exact ⟨_, ⟨_, _, ha, hb, rfl⟩, rfl⟩
  · rintro ⟨_, ⟨l, r, ha, hb, rfl⟩, rfl⟩
    exact .compare ha hb

theorem makes_compareNode {op : Comparison} :
    Makes (compareNode op) [a, b] rule ↔
      ∃ e, (∃ l r, a = .rule (.expr l) ∧ b = .rule (.expr r) ∧ e = .compare op l r) ∧
        rule = .expr e := by
  refine ⟨fun h => ?_, ?_⟩
  · cases h with
    | compareNode => exact ⟨_, ⟨_, _, rfl, rfl, rfl⟩, rfl⟩
  · rintro ⟨_, ⟨l, r, rfl, rfl, rfl⟩, rfl⟩
    exact .compareNode

theorem makes_connect {op : Connective} :
    Makes (connect op) [a, b] rule ↔
      ∃ e, (∃ l r, a.StandsFor l ∧ b.StandsFor r ∧ e = .connect op l r) ∧ rule = .expr e := by
  refine ⟨fun h => ?_, ?_⟩
  · cases h with
    | connect ha hb => exact ⟨_, ⟨_, _, ha, hb, rfl⟩, rfl⟩
  · rintro ⟨_, ⟨l, r, ha, hb, rfl⟩, rfl⟩
    exact .connect ha hb

theorem makes_connectNode {op : Connective} :
    Makes (connectNode op) [a, b] rule ↔
      ∃ e, (∃ l r, a = .rule (.expr l) ∧ b = .rule (.expr r) ∧ e = .connect op l r) ∧
        rule = .expr e := by
  refine ⟨fun h => ?_, ?_⟩
  · cases h with
    | connectNode => exact ⟨_, ⟨_, _, rfl, rfl, rfl⟩, rfl⟩
  · rintro ⟨_, ⟨l, r, rfl, rfl, rfl⟩, rfl⟩
    exact .connectNode

theorem makes_setResult :
    Makes setResult [v] rule ↔ ∃ e, v.StandsFor e ∧ rule = .statement (.setResult e) := by
  refine ⟨fun h => ?_, ?_⟩
  · cases h with
    | setResult h => exact ⟨_, h, rfl⟩
  · rintro ⟨e, h, rfl⟩
    exact .setResult h

theorem makes_setResultNode :
    Makes setResultNode [v] rule ↔ ∃ e, v = .rule (.expr e) ∧ rule = .statement (.setResult e) := by
  refine ⟨fun h => ?_, ?_⟩
  · cases h with
    | setResultNode => exact ⟨_, rfl, rfl⟩
  · rintro ⟨e, rfl, rfl⟩
    exact .setResultNode

theorem makes_ifThenElse :
    Makes ifThenElse [c, t, f] rule ↔
      ∃ s, (∃ e, c.StandsFor e ∧ ∃ whenTrue, t = .rule (.statement whenTrue) ∧
        ∃ whenFalse, f = .rule (.statement whenFalse) ∧ s = .ifThenElse e whenTrue whenFalse) ∧
          rule = .statement s := by
  refine ⟨fun h => ?_, ?_⟩
  · cases h with
    | ifThenElse h => exact ⟨_, ⟨_, h, _, rfl, _, rfl, rfl⟩, rfl⟩
  · rintro ⟨_, ⟨e, h, t, rfl, f, rfl, rfl⟩, rfl⟩
    exact .ifThenElse h

theorem makes_ifThenElseNode :
    Makes ifThenElseNode [c, t, f] rule ↔
      ∃ s, (∃ e, c = .rule (.expr e) ∧ ∃ whenTrue, t = .rule (.statement whenTrue) ∧
        ∃ whenFalse, f = .rule (.statement whenFalse) ∧ s = .ifThenElse e whenTrue whenFalse) ∧
          rule = .statement s := by
  refine ⟨fun h => ?_, ?_⟩
  · cases h with
    | ifThenElseNode => exact ⟨_, ⟨_, rfl, _, rfl, _, rfl, rfl⟩, rfl⟩
  · rintro ⟨_, ⟨e, rfl, t, rfl, f, rfl, rfl⟩, rfl⟩
    exact .ifThenElseNode

theorem makes_asExpr : Makes asExpr [v] rule ↔ ∃ e, v.StandsFor e ∧ rule = .expr e := by
  refine ⟨fun h => ?_, ?_⟩
  · cases h with
    | asExpr h => exact ⟨_, h, rfl⟩
  · rintro ⟨e, h, rfl⟩
    exact .asExpr h

theorem makes_asStatement :
    Makes asStatement [v] rule ↔ ∃ s, v = .rule (.statement s) ∧ rule = .statement s := by
  refine ⟨fun h => ?_, ?_⟩
  · cases h with
    | asStatement => exact ⟨_, rfl, rfl⟩
  · rintro ⟨s, rfl, rfl⟩
    exact .asStatement

end Inversion

end Operation

/-- A reading makes a tree if the rules say so of what it gives. -/
theorem Reads.rule {α : Type} {x : Except BuildFault α} {P : α → Prop} {f : α → Rule}
    {op : Operation} {vs : List Value} (hx : Reads x P)
    (h : ∀ rule, op.Makes vs rule ↔ ∃ a, P a ∧ rule = f a) :
    Reads (x.map (Value.rule ∘ f)) (fun v => ∃ rule, op.Makes vs rule ∧ v = Value.rule rule) := by
  refine (hx.map _).congr fun v => ⟨?_, ?_⟩
  · rintro ⟨rule, hmakes, rfl⟩
    obtain ⟨a, ha, rfl⟩ := (h rule).1 hmakes
    exact ⟨a, ha, rfl⟩
  · rintro ⟨a, ha, rfl⟩
    exact ⟨f a, (h (f a)).2 ⟨a, ha, rfl⟩, rfl⟩

/-- Of no values an operation makes no more than one tree. -/
theorem Reads.of_makes {op : Operation} {rule : Rule} (h : op.Makes [] rule) :
    Reads (.ok (.rule rule)) (fun v => ∃ rule, op.Makes [] rule ∧ v = Value.rule rule) := by
  refine of_ok fun v => ⟨?_, fun hv => ⟨rule, h, hv⟩⟩
  rintro ⟨rule', h', rfl⟩
  cases h <;> cases h' <;> rfl

section

open Operation

/-- An operation makes what its rule says of the values that it is given. -/
theorem Registry.reads_apply (r : Registry) (build : String → Except BuildFault Value)
    {op : Operation} (hop : op.isConstructor = true) (vs : List Value) :
    Reads (r.apply build op vs) (fun v => ∃ rule, op.Makes vs rule ∧ v = .rule rule) := by
  unfold apply
  split
  · exact (Value.reads_asConstant _).rule fun _ => makes_constant
  · exact (Value.reads_asConstant _).rule fun _ => makes_constantNode.trans makes_constant
  · exact .of_makes .alive
  · exact .of_makes .aliveNode
  · exact .of_makes .neighbors
  · exact .of_makes .neighborsNode
  · exact (Expr.reads_ofComparison Value.reads_asExpr _ _ _).rule fun _ => makes_compare
  · exact (Expr.reads_ofComparison (Value.reads_exprOr fun _ => rfl) _ _ _).rule
      fun _ => makes_compareNode
  · exact (Expr.reads_ofConnective Value.reads_asExpr _ _ _).rule fun _ => makes_connect
  · exact (Expr.reads_ofConnective (Value.reads_exprOr fun _ => rfl) _ _ _).rule
      fun _ => makes_connectNode
  · exact .of_makes .noop
  · exact .of_makes .noopNode
  · exact (Value.reads_asExpr _).rule fun _ => makes_setResult
  · exact (Value.reads_exprOr (fun _ => rfl) _).rule fun _ => makes_setResultNode
  · exact (Statement.reads_ofBranch Value.reads_asExpr Value.reads_asStatement _ _ _).rule
      fun _ => makes_ifThenElse
  · exact (Statement.reads_ofBranch (Value.reads_exprOr fun _ => rfl)
      (Value.reads_statementOr fun _ => rfl) _ _ _).rule fun _ => makes_ifThenElseNode
  · exact (Value.reads_asExpr _).rule fun _ => makes_asExpr
  · exact (Value.reads_asStatement _).rule fun _ => makes_asStatement
  · split
    · exact .of_error (.inl rfl) fun v ⟨_, h, _⟩ => by cases h
    · exact .of_error (.inl (kind_miscounted _ _)) fun v ⟨_, h, _⟩ => by cases h
  -- what reads a rulestring, a list of counts or the registry is no constructor
  · cases hop
  · cases hop
  · cases hop
  · cases hop
  · cases hop
  · cases hop
  -- the number of values is wrong, so that no rule applies
  · refine .of_error (.inl (kind_miscounted _ _)) fun v ⟨rule, h, _⟩ => ?_
    cases h <;> simp_all

end

/-! ## Recipes -/

mutual

/-- Whether a recipe nests constructors only, of values that there are. -/
def Term.IsConstruction : Term → Prop
  | .plain _ => True
  | .number t n => ∃ v, Value.ofNumber t n = .ok v
  | .spelled t text => ∃ v, Value.ofSpelling t text = .ok v
  | .list items => Term.AreConstructions items
  | .call op arguments => op.isConstructor = true ∧ Term.AreConstructions arguments

def Term.AreConstructions : List Term → Prop
  | [] => True
  | t :: ts => t.IsConstruction ∧ Term.AreConstructions ts

end

mutual

/-- Which value a recipe makes. -/
inductive Term.Makes : Term → Value → Prop
  | plain (v : Value) : Makes (.plain v) v
  | number {t : NumberType} {n : Numeral} {v : Value} (h : Value.ofNumber t n = .ok v) :
      Makes (.number t n) v
  | spelled {t : NumberType} {text : String} {v : Value} (h : Value.ofSpelling t text = .ok v) :
      Makes (.spelled t text) v
  | list {ts : List Term} {vs : List Value} (h : AllMake ts vs) : Makes (.list ts) (.list vs)
  | call {op : Operation} {ts : List Term} {vs : List Value} {rule : Rule} (hs : AllMake ts vs)
      (h : op.Makes vs rule) : Makes (.call op ts) (.rule rule)

/-- Which values recipes make, one each. -/
inductive Term.AllMake : List Term → List Value → Prop
  | nil : AllMake [] []
  | cons {t : Term} {ts : List Term} {v : Value} {vs : List Value} (h : Makes t v)
      (hs : AllMake ts vs) : AllMake (t :: ts) (v :: vs)

end

namespace Registry

variable (r : Registry) (build : String → Except BuildFault Value)

mutual

/-- Carrying out a construction gives what the rules say. -/
theorem reads_evalWith : (t : Term) → t.IsConstruction → Reads (r.evalWith build t) t.Makes
  | .plain v, _ => by
    refine .of_ok fun v' => ⟨fun h => ?_, fun h => h ▸ .plain v⟩
    cases h
    rfl
  | .number t n, ⟨v, hv⟩ => by
    rw [evalWith, hv]
    refine .of_ok fun v' => ⟨fun h => ?_, fun h => h ▸ .number hv⟩
    cases h with
    | number h => exact Except.ok.inj (h.symm.trans hv)
  | .spelled t text, ⟨v, hv⟩ => by
    rw [evalWith, hv]
    refine .of_ok fun v' => ⟨fun h => ?_, fun h => h ▸ .spelled hv⟩
    cases h with
    | spelled h => exact Except.ok.inj (h.symm.trans hv)
  | .list items, h => by
    rw [evalWith]
    refine ((reads_evalAllWith items h).map Value.list).congr fun v => ⟨fun h => ?_, ?_⟩
    · cases h with
      | list h => exact ⟨_, h, rfl⟩
    · rintro ⟨vs, h, rfl⟩
      exact .list h
  | .call op arguments, ⟨hop, h⟩ => by
    rw [evalWith]
    refine ((reads_evalAllWith arguments h).bind fun vs => r.reads_apply build hop vs).congr
      fun v => ⟨fun h => ?_, ?_⟩
    · cases h with
      | call hs h => exact ⟨_, hs, _, h, rfl⟩
    · rintro ⟨vs, hs, rule, h, rfl⟩
      exact .call hs h

theorem reads_evalAllWith : (ts : List Term) → Term.AreConstructions ts →
    Reads (r.evalAllWith build ts) (Term.AllMake ts)
  | [], _ => by
    refine .of_ok fun vs => ⟨fun h => ?_, fun h => h ▸ .nil⟩
    cases h
    rfl
  | t :: ts, ⟨h, hs⟩ => by
    rw [evalAllWith]
    refine ((reads_evalWith t h).bind fun v => (reads_evalAllWith ts hs).bind fun vs =>
      .of_ok fun _ => Iff.rfl).congr fun vs => ⟨fun h => ?_, ?_⟩
    · cases h with
      | cons h hs => exact ⟨_, h, _, hs, rfl⟩
    · rintro ⟨v, h, vs, hs, rfl⟩
      exact .cons h hs

end

end Registry

/-! ## What can be done with a rule -/

/-- A rule evaluated or run on all cells, whichever it is for. -/
def Rule.onCells (isAlive numNeighbors : Numbers) : Rule → Except FieldFault Field
  | expr e => (Value.rule (.expr e)).evalOn isAlive numNeighbors
  | statement s => (Value.rule (.statement s)).runOn isAlive numNeighbors

/-- Whether a rule has shader text and can be evaluated or run wherever there are arrays of integers
of one shape for the cells and for their numbers of live neighbours. -/
structure Rule.Runs (rule : Rule) : Prop where
  shader : (Value.rule rule).shader = .ok (String.ofList rule.code)
  onCells : ∀ (shape : List Nat) (isAlive numNeighbors : IntegerArray shape), ∃ field,
    rule.onCells (.array isAlive.toArray) (.array numNeighbors.toArray) = .ok field ∧
      field.shape = shape

theorem Rule.runs (rule : Rule) : rule.Runs where
  shader := rfl
  onCells shape isAlive numNeighbors := by
    cases rule with
    | expr e => exact ⟨_, Value.onFields_toArray isAlive numNeighbors _, rfl⟩
    | statement s => exact ⟨_, Value.onFields_toArray isAlive numNeighbors _, rfl⟩

/-- Constructors, nested in whatever way and applied to whatever values, make a tree according to
their rules, which can be compiled and run, or there is none and they fail by type or value. -/
theorem Registry.eval_construction (r : Registry) {op : Operation} {arguments : List Term}
    (h : (Term.call op arguments).IsConstruction) :
    (∃ rule, r.eval (.call op arguments) = .ok (.rule rule) ∧
      (Term.call op arguments).Makes (.rule rule) ∧ rule.Runs) ∨
    ∃ fault, r.eval (.call op arguments) = .error fault ∧
      (fault.kind = .type ∨ fault.kind = .value) ∧ ∀ v, ¬(Term.call op arguments).Makes v := by
  have hreads := r.reads_evalWith (r.build r.depth) _ h
  rw [eval]
  cases heval : r.evalWith (r.build r.depth) (.call op arguments) with
  | ok v =>
    have hmakes := (hreads.eq_ok_iff v).1 heval
    cases hmakes with
    | @call _ _ _ rule hs hrule => exact .inl ⟨rule, rfl, .call hs hrule, rule.runs⟩
  | error fault =>
    refine .inr ⟨fault, rfl, hreads.kind_of_error fault heval, fun v hv => ?_⟩
    have hok := (hreads.eq_ok_iff v).2 hv
    rw [heval] at hok
    cases hok

/-- A branch that is made the wrapping way, of a test that wraps a machine integer and of nodes that
are made the bare way. -/
def Term.wrappedBranch : Term :=
  .call .ifThenElse
    [.call (.compare .greater) [.call .neighbors [], .number (.integer .long) (.integer 3)],
      .call .setResultNode [.call .constantNode [.plain (.integer 2)]], .call .noopNode []]

theorem Registry.eval_wrappedBranch :
    Term.wrappedBranch.IsConstruction ∧ ∃ rule,
      builtin.eval .wrappedBranch = .ok (.rule rule) ∧ Term.wrappedBranch.Makes (.rule rule) ∧
        rule.Runs := by
  have h : Term.wrappedBranch.IsConstruction :=
    ⟨rfl, ⟨rfl, ⟨rfl, trivial⟩, ⟨_, rfl⟩, trivial⟩,
      ⟨rfl, ⟨rfl, trivial, trivial⟩, trivial⟩, ⟨rfl, trivial⟩, trivial⟩
  refine ⟨h, ?_⟩
  rcases eval_construction builtin h with hmade | ⟨fault, hfault, -⟩
  · exact hmade
  · have hok : builtin.eval .wrappedBranch = .ok (.rule (.statement (.ifThenElse
        (.compare .greater .neighbors (.const 3)) (.setResult (.const 2)) .noop))) := rfl
    cases hok.symm.trans hfault

end CellShader
