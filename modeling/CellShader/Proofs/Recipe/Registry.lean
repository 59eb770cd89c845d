import CellShader.Recipe.Registry
import CellShader.Proofs.Recipe.Rulestring
import Mathlib.Data.Finset.Card
import Mathlib.Data.List.Induction
import Mathlib.Data.String.Basic

/-!
# The registry over runs of calls

Rulesets are built with a bound on how many are asked for inside one another.  With a greater bound
the outcome is the same unless the building was given up (`Extends`), and as the rulesets for which
it is given up grow fewer with the bound until they stay, a bound of as many as there are rulesets
is as good as any (`isEnough_length`).  So to ask for a ruleset is to carry out its recipe
(`sameOutcome_get`).

A registry that has been through any calls keeps under each name the first recipe that was handed in
for it (`find?_after`), and all that it answers comes from these recipes (`answersFrom_find?`).
-/

namespace CellShader

/-! ## Buildings that are given up -/

section Outcomes

variable {α β : Type} {x y : Except BuildFault α}

/-- Whether a building was given up because a ruleset led back to itself. -/
def IsEndless (x : Except BuildFault α) : Prop := ∃ name, x = .error (.endlessRuleset name)

/-- Whether the second outcome is the first, unless the first was given up. -/
def Extends (x y : Except BuildFault α) : Prop := IsEndless x ∨ x = y

/-- Whether two outcomes are the same, or both were given up. -/
def SameOutcome (x y : Except BuildFault α) : Prop := x = y ∨ IsEndless x ∧ IsEndless y

theorem Extends.refl (x : Except BuildFault α) : Extends x x := .inr rfl

theorem sameOutcome_of_extends (h : Extends x y) (h' : Extends y x) : SameOutcome x y := by
  rcases h with hx | h
  · rcases h' with hy | h'
    · exact .inr ⟨hx, hy⟩
    · exact .inl h'.symm
  · exact .inl h

theorem IsEndless.bind (h : IsEndless x) (f : α → Except BuildFault β) : IsEndless (x >>= f) := by
  obtain ⟨name, rfl⟩ := h
  exact ⟨name, rfl⟩

theorem Extends.bind {f g : α → Except BuildFault β} (h : Extends x y)
    (hfg : ∀ a, Extends (f a) (g a)) : Extends (x >>= f) (y >>= g) := by
  rcases h with h | rfl
  · exact .inl (h.bind f)
  · cases x with
    | error fault => exact .refl _
    | ok a => exact hfg a

theorem Extends.map (h : Extends x y) (f : α → β) : Extends (x.map f) (y.map f) := by
  rcases h with ⟨name, rfl⟩ | rfl
  · exact .inl ⟨name, rfl⟩
  · exact .refl _

end Outcomes

namespace Registry

variable {r : Registry}

theorem has_iff_mem {name : String} : r.has name = true ↔ name ∈ r.entries.map (·.1) := by
  rw [has, find?, List.lookup_isSome_iff, List.mem_map]
  refine exists_congr fun entry => and_congr_right fun _ => ?_
  rw [beq_iff_eq, eq_comm]

/-! ## The bound on rulesets inside one another -/

section Evaluation

variable {build build' : String → Except BuildFault Value}
  (h : ∀ name, r.has name = true → Extends (build name) (build' name))

include h

theorem extends_getValue (v : Value) : Extends (r.getValue build v) (r.getValue build' v) := by
  unfold getValue
  split
  · exact .refl _
  · split
    · exact h _ ‹_›
    · exact .refl _
  · exact .refl _

theorem extends_ruleOfValue (v : Value) :
    Extends (r.ruleOfValue build v) (r.ruleOfValue build' v) := by
  unfold ruleOfValue
  split
  · exact .refl _
  · split
    · exact h _ ‹_›
    · exact .refl _
  · exact .refl _

theorem extends_apply (op : Operation) (vs : List Value) :
    Extends (r.apply build op vs) (r.apply build' op vs) := by
  unfold apply
  -- of all operations only the look-ups build a ruleset
  split
  all_goals first
    | exact .refl _
    | exact extends_getValue h _
    | exact extends_ruleOfValue h _

end Evaluation

mutual

theorem extends_evalWith {build build' : String → Except BuildFault Value}
    (h : ∀ name, r.has name = true → Extends (build name) (build' name)) (t : Term) :
    Extends (r.evalWith build t) (r.evalWith build' t) := by
  cases t with
  | plain v => exact .refl _
  | number t n => exact .refl _
  | spelled t s => exact .refl _
  | list items =>
    rw [evalWith, evalWith]
    exact (extends_evalAllWith h items).map _
  | call op ts =>
    rw [evalWith, evalWith]
    exact (extends_evalAllWith h ts).bind fun vs => extends_apply h op vs

theorem extends_evalAllWith {build build' : String → Except BuildFault Value}
    (h : ∀ name, r.has name = true → Extends (build name) (build' name)) (ts : List Term) :
    Extends (r.evalAllWith build ts) (r.evalAllWith build' ts) := by
  cases ts with
  | nil => exact .refl _
  | cons t ts =>
    rw [evalAllWith, evalAllWith]
    exact (extends_evalWith h t).bind fun v => (extends_evalAllWith h ts).bind fun vs => .refl _

end

theorem build_succ {name : String} {recipe : Term} (h : r.find? name = some recipe) (d : Nat) :
    r.build (d + 1) name = r.evalWith (r.build d) recipe := by
  rw [build, h]

/-- A greater bound gives the same unless the building was given up. -/
theorem extends_build_succ (d : Nat) {name : String} (h : r.has name = true) :
    Extends (r.build d name) (r.build (d + 1) name) := by
  induction d generalizing name with
  | zero => exact .inl ⟨name, rfl⟩
  | succ d ih =>
    obtain ⟨recipe, hrecipe⟩ := Option.isSome_iff_exists.1 h
    rw [build_succ hrecipe, build_succ hrecipe]
    exact extends_evalWith (fun _ => ih) recipe

/-- Whether a bound gives no less than the next one. -/
def IsEnough (r : Registry) (d : Nat) : Prop :=
  ∀ name, r.has name = true → Extends (r.build (d + 1) name) (r.build d name)

theorem IsEnough.succ {d : Nat} (h : r.IsEnough d) : r.IsEnough (d + 1) := by
  intro name hname
  obtain ⟨recipe, hrecipe⟩ := Option.isSome_iff_exists.1 hname
  rw [build_succ hrecipe, build_succ hrecipe]
  exact extends_evalWith h recipe

theorem IsEnough.mono {d e : Nat} (h : r.IsEnough d) (hde : d ≤ e) : r.IsEnough e := by
  induction hde with
  | refl => exact h
  | step _ ih => exact ih.succ

section Counting

open scoped Classical

/-- The rulesets for which the building is given up within a bound. -/
noncomputable def givenUp (r : Registry) (d : Nat) : Finset String :=
  (r.entries.map (·.1)).toFinset.filter (fun name => IsEndless (r.build d name))

theorem mem_givenUp {d : Nat} {name : String} :
    name ∈ r.givenUp d ↔ r.has name = true ∧ IsEndless (r.build d name) := by
  rw [givenUp, Finset.mem_filter, List.mem_toFinset, has_iff_mem]

theorem givenUp_succ_subset (d : Nat) : r.givenUp (d + 1) ⊆ r.givenUp d := by
  intro name h
  obtain ⟨hname, hend⟩ := mem_givenUp.1 h
  rcases extends_build_succ d hname with hd | hd
  · exact mem_givenUp.2 ⟨hname, hd⟩
  · exact mem_givenUp.2 ⟨hname, hd ▸ hend⟩

/-- If no fewer rulesets are given up within the next bound, the bound is enough. -/
theorem isEnough_of_givenUp_subset {d : Nat} (h : r.givenUp d ⊆ r.givenUp (d + 1)) :
    r.IsEnough d := by
  intro name hname
  rcases extends_build_succ d hname with hd | hd
  · exact .inl (mem_givenUp.1 (h (mem_givenUp.2 ⟨hname, hd⟩))).2
  · exact .inr hd.symm

/-- Up to a bound that is enough, fewer rulesets are given up with each greater one. -/
theorem card_givenUp_add_le (d : Nat) :
    (∃ e < d, r.IsEnough e) ∨ (r.givenUp d).card + d ≤ r.entries.length := by
  induction d with
  | zero =>
    refine .inr ?_
    calc (r.givenUp 0).card ≤ (r.entries.map (·.1)).toFinset.card := Finset.card_filter_le _ _
      _ ≤ (r.entries.map (·.1)).length := List.toFinset_card_le _
      _ = r.entries.length := List.length_map _
  | succ d ih =>
    rcases ih with ⟨e, he, henough⟩ | hcard
    · exact .inl ⟨e, by omega, henough⟩
    · by_cases hsub : r.givenUp d ⊆ r.givenUp (d + 1)
      · exact .inl ⟨d, by omega, isEnough_of_givenUp_subset hsub⟩
      · have hlt : (r.givenUp (d + 1)).card < (r.givenUp d).card :=
          Finset.card_lt_card ⟨givenUp_succ_subset d, hsub⟩
        exact .inr (by omega)

end Counting

/-- As many rulesets inside one another as there are are enough. -/
theorem isEnough_length (r : Registry) : r.IsEnough r.entries.length := by
  rcases r.card_givenUp_add_le (r.entries.length + 1) with ⟨e, he, henough⟩ | hcard
  · exact henough.mono (by omega)
  · omega

/-- Building a ruleset comes to what carrying out its recipe comes to. -/
theorem sameOutcome_get {name : String} {recipe : Term} (h : r.find? name = some recipe) :
    SameOutcome (r.get name) (r.eval recipe) := by
  have hhas : r.has name = true := Option.isSome_iff_exists.2 ⟨recipe, h⟩
  have hget : r.get name = r.evalWith (r.build r.entries.length) recipe := by
    rw [get, getValue]
    simp only [Value.keyFault?, Value.text?]
    rw [if_pos hhas, depth, build_succ h]
  rw [hget]
  exact sameOutcome_of_extends (extends_evalWith (fun _ => extends_build_succ _) recipe)
    (extends_evalWith r.isEnough_length recipe)

/-! ## What is looked up -/

theorem pairwise_names (r : Registry) : r.names.Pairwise (· ≤ ·) := by
  have htrans : ∀ a b c : String, decide (a ≤ b) = true → decide (b ≤ c) = true →
      decide (a ≤ c) = true := by
    intro a b c hab hbc
    exact decide_eq_true (le_trans (of_decide_eq_true hab) (of_decide_eq_true hbc))
  have htotal : ∀ a b : String, (decide (a ≤ b) || decide (b ≤ a)) = true := by
    intro a b
    simpa using le_total a b
  exact (List.pairwise_mergeSort htrans htotal _).imp of_decide_eq_true

theorem perm_names (r : Registry) : r.names.Perm (r.entries.map (·.1)) := List.mergeSort_perm _ _

theorem get_of_not_has {name : String} (h : r.has name = false) :
    r.get name = .error (.unknownRuleset (.text name) r.names) := by
  rw [get, getValue]
  simp [Value.keyFault?, Value.text?, h]

/-- A text is looked up among the names first, and is taken for a rulestring if it is none. -/
theorem ruleNamed_eq (r : Registry) (text : String) :
    r.ruleNamed text =
      if r.has text then r.get text
      else
        match Statement.ofRulestring text with
        | .ok s => .ok (.rule (.statement s))
        | .error cause => .error (.unknownRule text r.names cause) := by
  rw [ruleNamed, ruleOfValue, get, getValue]
  by_cases h : r.has text = true
  · simp [Value.keyFault?, Value.text?, h]
  · simp only [Value.keyFault?, Value.text?, h]
    cases Statement.ofRulestring text <;> rfl

end Registry

/-! ## Runs of calls -/

/-- What can be asked of a registry. -/
inductive RegistryCall
  | register (name : String) (recipe : Term)
  | get (name : String)
  | has (name : String)
  | names
  | ruleNamed (text : String)

/-- What a registry answers when a call succeeds. -/
inductive RegistryAnswer
  | registered
  | built (v : Value)
  | known (b : Bool)
  | names (names : List String)

/-- The recipes that a call hands in, under their names. -/
def RegistryCall.handedIn : RegistryCall → List (String × Term)
  | register name recipe => [(name, recipe)]
  | _ => []

namespace Registry

/-- The registry after a call, and what comes of the call. -/
def call (r : Registry) : RegistryCall → Registry × Except BuildFault RegistryAnswer
  | .register name recipe =>
    match r.register name recipe with
    | .ok r' => (r', .ok .registered)
    | .error fault => (r, .error fault)
  | .get name => (r, (r.get name).map .built)
  | .has name => (r, .ok (.known (r.has name)))
  | .names => (r, .ok (.names r.names))
  | .ruleNamed text => (r, (r.ruleNamed text).map .built)

/-- The registry after some calls. -/
def after (r : Registry) (calls : List RegistryCall) : Registry :=
  calls.foldl (fun r c => (r.call c).1) r

theorem after_concat (r : Registry) (calls : List RegistryCall) (c : RegistryCall) :
    r.after (calls ++ [c]) = ((r.after calls).call c).1 := by
  rw [after, List.foldl_append]
  rfl

variable {r : Registry} {name : String} {recipe : Term}

theorem call_register_of_has (h : r.has name = true) (recipe : Term) :
    r.call (.register name recipe) = (r, .error (.rulesetTaken name)) := by
  rw [call, register, if_pos h]

theorem call_register_of_not_has (h : r.has name = false) (recipe : Term) :
    r.call (.register name recipe) = (⟨r.entries ++ [(name, recipe)]⟩, .ok .registered) := by
  rw [call, register, if_neg (by simp [h])]

/-- A call leaves each name its recipe, and gives the ones that have none what it hands in. -/
theorem find?_call (r : Registry) (c : RegistryCall) (name : String) :
    (r.call c).1.find? name = (r.find? name).or (c.handedIn.lookup name) := by
  cases c with
  | register taken recipe =>
    by_cases h : r.has taken = true
    · rw [call_register_of_has h]
      by_cases hname : name = taken
      · subst hname
        obtain ⟨old, hold⟩ := Option.isSome_iff_exists.1 h
        simp [hold]
      · simp [RegistryCall.handedIn, List.lookup_cons, beq_eq_false_iff_ne.2 hname]
    · rw [call_register_of_not_has (by simpa using h)]
      exact List.lookup_append
  | get _ | has _ | names | ruleNamed _ => simp [call, RegistryCall.handedIn]

theorem nodup_call (h : (r.entries.map (·.1)).Nodup) (c : RegistryCall) :
    ((r.call c).1.entries.map (·.1)).Nodup := by
  cases c with
  | register name recipe =>
    by_cases hname : r.has name = true
    · rwa [call_register_of_has hname]
    · have hnew : name ∉ r.entries.map (·.1) := fun hmem => hname (has_iff_mem.2 hmem)
      rw [call_register_of_not_has (by simpa using hname)]
      rw [List.map_append]
      simpa using h.concat hnew
  | get _ | has _ | names | ruleNamed _ => exact h

theorem find?_after (r : Registry) (calls : List RegistryCall) (name : String) :
    (r.after calls).find? name =
      (r.entries ++ calls.flatMap RegistryCall.handedIn).lookup name := by
  induction calls using List.reverseRecOn with
  | nil => simp [after, find?]
  | append_singleton calls c ih =>
    rw [after_concat, find?_call, ih, ← List.lookup_append, List.flatMap_append,
      List.flatMap_singleton, List.append_assoc]

theorem nodup_after (h : (r.entries.map (·.1)).Nodup) (calls : List RegistryCall) :
    ((r.after calls).entries.map (·.1)).Nodup := by
  induction calls using List.reverseRecOn with
  | nil => exact h
  | append_singleton calls c ih =>
    rw [after_concat]
    exact nodup_call ih c

theorem pairwise_names_lt (h : (r.entries.map (·.1)).Nodup) : r.names.Pairwise (· < ·) := by
  have hnodup : r.names.Nodup := r.perm_names.nodup_iff.2 h
  exact (r.pairwise_names.and hnodup).imp fun hab => lt_of_le_of_ne hab.1 hab.2

/-- Whether a registry answers all calls from the recipes that are given under their names. -/
structure AnswersFrom (r : Registry) (recipe? : String → Option Term) : Prop where
  register_known : ∀ name recipe, (recipe? name).isSome = true →
    r.call (.register name recipe) = (r, .error (.rulesetTaken name)) ∧
      (BuildFault.rulesetTaken name).kind = .value
  register_new : ∀ name recipe, recipe? name = none →
    ∃ r', r.call (.register name recipe) = (r', .ok .registered) ∧
      ∀ n, r'.find? n = if n = name then some recipe else recipe? n
  has : ∀ name, r.call (.has name) = (r, .ok (.known (recipe? name).isSome))
  names : ∃ names, r.call .names = (r, .ok (.names names)) ∧ names.Pairwise (· < ·) ∧
    ∀ name, name ∈ names ↔ (recipe? name).isSome = true
  get_known : ∀ name recipe, recipe? name = some recipe →
    ∃ x, r.call (.get name) = (r, x.map .built) ∧ SameOutcome x (r.eval recipe)
  get_unknown : ∀ name, recipe? name = none →
    r.call (.get name) = (r, .error (.unknownRuleset (.text name) r.names)) ∧
      (BuildFault.unknownRuleset (.text name) r.names).kind = .name
  ruleNamed_known : ∀ text, (recipe? text).isSome = true →
    r.call (.ruleNamed text) = r.call (.get text)
  ruleNamed_denoted : ∀ text s, recipe? text = none → Statement.ofRulestring text = .ok s →
    r.call (.ruleNamed text) = (r, .ok (.built (.rule (.statement s))))
  ruleNamed_neither : ∀ text cause, recipe? text = none →
    Statement.ofRulestring text = .error cause →
      r.call (.ruleNamed text) = (r, .error (.unknownRule text r.names cause)) ∧
        cause.kind = .value ∧ (BuildFault.unknownRule text r.names cause).kind = .value

theorem answersFrom_find? (h : (r.entries.map (·.1)).Nodup) : r.AnswersFrom r.find? := by
  have hnot : ∀ {name}, r.find? name = none → r.has name = false := by
    intro name hname
    rw [Registry.has, hname]
    rfl
  constructor
  case register_known => exact fun name recipe hname => ⟨call_register_of_has hname recipe, rfl⟩
  case register_new =>
    intro name recipe hname
    refine ⟨_, call_register_of_not_has (hnot hname) recipe, fun n => ?_⟩
    have hfind := r.find?_call (.register name recipe) n
    rw [call_register_of_not_has (hnot hname)] at hfind
    rw [hfind]
    by_cases hn : n = name
    · subst hn
      simp [hname, RegistryCall.handedIn]
    · simp [hn, RegistryCall.handedIn, List.lookup_cons, beq_eq_false_iff_ne.2 hn]
  case has => exact fun name => rfl
  case names =>
    refine ⟨r.names, rfl, pairwise_names_lt h, fun name => ?_⟩
    rw [r.perm_names.mem_iff]
    exact has_iff_mem.symm
  case get_known => exact fun name recipe hname => ⟨r.get name, rfl, sameOutcome_get hname⟩
  case get_unknown =>
    intro name hname
    rw [call, get_of_not_has (hnot hname)]
    exact ⟨rfl, rfl⟩
  case ruleNamed_known =>
    intro text htext
    have hhas : r.has text = true := htext
    rw [call, call, ruleNamed_eq, if_pos hhas]
  case ruleNamed_denoted =>
    intro text s htext hs
    rw [call, ruleNamed_eq, if_neg (by simp [hnot htext]), hs]
    rfl
  case ruleNamed_neither =>
    intro text cause htext hcause
    rw [call, ruleNamed_eq, if_neg (by simp [hnot htext]), hcause]
    exact ⟨rfl, Statement.kind_of_ofRulestring_eq_error hcause, rfl⟩

/-- The first recipe for a name: the one known from the start, or else the first that calls hand in,
whether it is taken or not. -/
def firstRecipe? (calls : List RegistryCall) (name : String) : Option Term :=
  (builtin.entries ++ calls.flatMap RegistryCall.handedIn).lookup name

/-- A registry that has been through any calls, be they successful or not, answers each further one
from the recipes that were the first for their names, and these stay whatever comes after. -/
theorem answersFrom_firstRecipe? (calls : List RegistryCall) :
    (builtin.after calls).AnswersFrom (firstRecipe? calls) ∧
      ∀ more name recipe, firstRecipe? calls name = some recipe →
        firstRecipe? (calls ++ more) name = some recipe := by
  have hfind : (builtin.after calls).find? = firstRecipe? calls :=
    funext fun name => find?_after builtin calls name
  have hnodup : ((builtin.after calls).entries.map (·.1)).Nodup := nodup_after (by decide) calls
  refine ⟨hfind ▸ answersFrom_find? hnodup, fun more name recipe h => ?_⟩
  rw [firstRecipe?] at h ⊢
  rw [List.flatMap_append, ← List.append_assoc, List.lookup_append, h]
  rfl

end Registry

end CellShader
