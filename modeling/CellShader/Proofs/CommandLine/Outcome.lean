import CellShader.CommandLine.Run
import CellShader.Proofs.Recipe.Registry
import CellShader.Proofs.Shader.Effects
import CellShader.Proofs.Text.Rows
import CellShader.Proofs.Text.Utf8
import Mathlib.Data.String.Basic

/-!
# What a run of the program comes to

An invocation lists the rulesets, is refused for its rule, or assembles a shader, in this order of
precedence.  The first two look at no file (`Invocation.IgnoresFiles`).  The third hands on what the
assembly gives (`Invocation.handsOn_assemble`): the assembly's own failures are shown and all others
escape, of which there are none where all files hold text and no path is refused.  What is shown has
no control sequences to be left out if the text has no escape character (`Console.plain_eq_self`).
-/

namespace CellShader

/-! ## What is shown -/

/-- The character that control sequences begin with. -/
def escapeChar : Char := '\x1b'

namespace Console

theorem sequenceLength?_of_ne {c : Char} (h : c ≠ escapeChar) (cs : List Char) :
    sequenceLength? (c :: cs) = none := by
  unfold sequenceLength?
  split
  · rename_i heq
    cases heq
    exact absurd rfl h
  · rfl

theorem plain_eq_self {cs : List Char} (h : escapeChar ∉ cs) : plain cs = cs := by
  induction cs with
  | nil => rfl
  | cons c cs ih =>
    rw [List.mem_cons, not_or] at h
    rw [plain, plainFrom, sequenceLength?_of_ne (Ne.symm h.1)]
    exact congrArg (c :: ·) (ih h.2)

end Console

theorem not_mem_rowNumber {c : Char} (hdigit : c.isDigit = false) (hmark : c ∉ [' ', ':'])
    (n : Nat) : c ∉ rowNumber n := by
  rw [List.mem_cons, List.mem_singleton, not_or] at hmark
  rw [rowNumber, alignRight, List.mem_append, List.mem_append, not_or, not_or]
  refine ⟨⟨fun h => hmark.1 (List.eq_of_mem_replicate h), fun h => ?_⟩, ?_⟩
  · rw [Nat.isDigit_of_mem_toDigits (by decide) (by decide) h] at hdigit
    cases hdigit
  · simp [hmark.1, hmark.2]

theorem escapeChar_not_mem_rowNumber (n : Nat) : escapeChar ∉ rowNumber n :=
  not_mem_rowNumber (by decide) (by decide) n

theorem escapeChar_not_mem_numberedRows {rows : List (List Char)}
    (h : ∀ row ∈ rows, escapeChar ∉ row) (n : Nat) : escapeChar ∉ numberedRows n rows := by
  induction rows generalizing n with
  | nil => simp [numberedRows]
  | cons row rows ih =>
    have hrest := ih (fun r hr => h r (List.mem_cons_of_mem _ hr)) (n + 1)
    have hfeed : escapeChar ≠ '\n' := by decide
    simp [numberedRows, escapeChar_not_mem_rowNumber, h row List.mem_cons_self, hfeed, hrest]

namespace Invocation

variable (i : Invocation)

theorem escapeChar_not_mem_output {source : ShaderSource} (h : escapeChar ∉ source.text) :
    escapeChar ∉ i.output source := by
  rw [output]
  split
  · exact escapeChar_not_mem_numberedRows (fun row hrow hc => h (Text.mem_of_mem_rows hrow hc)) 1
  · have hfeed : escapeChar ≠ '\n' := by decide
    simp [h, hfeed]

end Invocation

/-! ## The rule that is asked for -/

namespace Registry

variable (r : Registry)

/-- What is shown when the rulesets are listed. -/
def listing : List Char := r.names.flatMap (fun name => name.toList ++ ['\n'])

theorem escapeChar_not_mem_listing_builtin : escapeChar ∉ builtin.listing := by
  intro h
  obtain ⟨name, hname, hc⟩ := List.mem_flatMap.1 h
  have hnames : ∀ name ∈ builtin.entries.map (·.1), escapeChar ∉ name.toList ++ ['\n'] := by decide
  exact hnames name (builtin.perm_names.mem_iff.1 hname) hc

/-- Each ruleset that is known from the start is a statement. -/
theorem exists_get_builtin {name : String} (h : builtin.has name = true) :
    ∃ s, builtin.get name = .ok (.rule (.statement s)) := by
  obtain ⟨recipe, hrecipe⟩ := Option.isSome_iff_exists.1 h
  obtain ⟨before, after, hentries, -⟩ := List.lookup_eq_some_iff.1 hrecipe
  have hmem : (name, recipe) ∈ builtin.entries := by simp [hentries]
  simp only [builtin, List.mem_cons, Prod.mk.injEq, List.not_mem_nil, or_false] at hmem
  obtain ⟨rfl, -⟩ | ⟨rfl, -⟩ | ⟨rfl, -⟩ | ⟨rfl, -⟩ := hmem
  all_goals exact ⟨_, rfl⟩

end Registry

namespace Invocation

/-- Which rule an invocation asks for: none, a ruleset that is known, or one that its text denotes
as a rulestring. -/
inductive Asks (i : Invocation) (r : Registry) : Option Statement → Prop
  | nothing (hrule : i.rule? = none) : Asks i r none
  | known {text : String} {s : Statement} (hrule : i.rule? = some text) (hhas : r.has text = true)
      (hget : r.get text = .ok (.rule (.statement s))) : Asks i r (some s)
  | denoted {text : String} {s : Statement} (hrule : i.rule? = some text)
      (hhas : r.has text = false) (hs : Statement.ofRulestring text = .ok s) : Asks i r (some s)

/-- Whether an invocation asks for a rule by a text that is neither the name of a known ruleset nor
a rulestring. -/
def AsksInVain (i : Invocation) (r : Registry) : Prop :=
  ∃ text fault, i.rule? = some text ∧ r.has text = false ∧
    Statement.ofRulestring text = .error fault

variable {i : Invocation} {r : Registry}

theorem rule_of_asks {statement? : Option Statement} (h : i.Asks r statement?) :
    i.rule r = .ok (.ofStatement? statement?) := by
  cases h with
  | nothing hrule => rw [rule, hrule]; rfl
  | known hrule hhas hget =>
    rw [rule, hrule]
    exact (r.ruleNamed_eq _).trans ((if_pos hhas).trans hget)
  | denoted hrule hhas hs =>
    rw [rule, hrule]
    dsimp only
    rw [r.ruleNamed_eq, if_neg (by simp [hhas]), hs]
    rfl

theorem exists_rule_of_asksInVain (h : i.AsksInVain r) : ∃ fault, i.rule r = .error fault := by
  obtain ⟨text, fault, hrule, hhas, hs⟩ := h
  refine ⟨.unknownRule text r.names fault, ?_⟩
  rw [rule, hrule]
  dsimp only
  rw [r.ruleNamed_eq, if_neg (by simp [hhas]), hs]

/-- Each invocation asks for a rule that there is, or in vain. -/
theorem exists_asks (h : ¬i.AsksInVain .builtin) : ∃ statement?, i.Asks .builtin statement? := by
  cases hrule : i.rule? with
  | none => exact ⟨none, .nothing hrule⟩
  | some text =>
    cases hhas : Registry.builtin.has text with
    | true =>
      obtain ⟨s, hget⟩ := Registry.exists_get_builtin hhas
      exact ⟨some s, .known hrule hhas hget⟩
    | false =>
      cases hs : Statement.ofRulestring text with
      | ok s => exact ⟨some s, .denoted hrule hhas hs⟩
      | error fault => exact absurd ⟨text, fault, hrule, hhas, hs⟩ h

end Invocation

/-! ## The shader that is assembled -/

/-- Whether a result is what assembling a shader with the given settings comes to.  It is shown, and
its copy is written if the settings ask for one; or it fails, and nothing is shown or written.  A
failure that is not the assembly's own is not dealt with. -/
structure RunResult.HandsOn (result : RunResult) (c : Config) (t : FileTree) (template : String)
    (statement? : Option Statement) (lineNumbers : Bool) : Prop where
  exitCode_eq_one_iff : result.exitCode = 1 ↔
    ∃ f, (c.assemble t template (.ofStatement? statement?) none).1.outcome = .error f
  escaped?_eq_some_iff : ∀ f, result.escaped? = some f ↔
    (c.assemble t template (.ofStatement? statement?) none).1.outcome = .error f ∧
      ∀ e, f ≠ .assembly e
  of_failed : result.exitCode = 1 → result.shown = [] ∧ result.tree = t
  of_not_failed : result.exitCode ≠ 1 →
    result.exitCode = 0 ∧
      ∃ source, (c.assemble t template (.ofStatement? statement?) none).1.outcome = .ok source ∧
        (escapeChar ∉ source.text →
          result.shown = if lineNumbers then source.numbered else source.text ++ ['\n']) ∧
        (c.debugShader = true →
          t.write (c.debugPath template) (Text.encode source.text) = .ok result.tree) ∧
        (c.debugShader = false → result.tree = t)

namespace RunResult.HandsOn

variable {result : RunResult} {c : Config} {t : FileTree} {template : String}
  {statement? : Option Statement} {lineNumbers : Bool}
  (h : result.HandsOn c t template statement? lineNumbers)

include h

theorem of_ok {source : ShaderSource}
    (hok : (c.assemble t template (.ofStatement? statement?) none).1.outcome = .ok source) :
    result.exitCode = 0 ∧
      (escapeChar ∉ source.text →
        result.shown = if lineNumbers then source.numbered else source.text ++ ['\n']) ∧
      (c.debugShader = true →
        t.write (c.debugPath template) (Text.encode source.text) = .ok result.tree) ∧
      (c.debugShader = false → result.tree = t) := by
  have hne : result.exitCode ≠ 1 := by
    intro hone
    obtain ⟨f, hf⟩ := h.exitCode_eq_one_iff.1 hone
    cases hok.symm.trans hf
  obtain ⟨hzero, source', hok', hends⟩ := h.of_not_failed hne
  obtain rfl := Except.ok.inj (hok.symm.trans hok')
  exact ⟨hzero, hends⟩

/-- Where all files hold text, the program fails just when the assembly does in a way of its own,
and nothing escapes, exactly if no path is refused. -/
theorem only_own_iff (htext : c.ReadsTextOnly t template) :
    (result.escaped? = none ∧ (result.exitCode = 1 ↔
      ∃ e, (c.assemble t template (.ofStatement? statement?) none).1.outcome =
        .error (.assembly e))) ↔ c.Unrefused t template statement? := by
  constructor
  · rintro ⟨hnone, -⟩
    by_contra hun
    obtain ⟨refusal, hrefused⟩ := (c.exists_refused_iff t template statement?).2 hun
    have hsome := (h.escaped?_eq_some_iff _).2 ⟨hrefused, fun e he => by cases he⟩
    cases hnone.symm.trans hsome
  · intro hun
    have hown : ∀ f, (c.assemble t template (.ofStatement? statement?) none).1.outcome =
        .error f → ∃ e, f = .assembly e :=
      fun f hf => c.eq_assembly_of_unrefused t template statement? hun htext hf
    refine ⟨Option.eq_none_iff_forall_ne_some.2 fun f hsome => ?_, ?_⟩
    · obtain ⟨hf, hother⟩ := (h.escaped?_eq_some_iff f).1 hsome
      obtain ⟨e, he⟩ := hown f hf
      exact hother e he
    · rw [h.exitCode_eq_one_iff]
      constructor
      · rintro ⟨f, hf⟩
        obtain ⟨e, rfl⟩ := hown f hf
        exact ⟨e, hf⟩
      · rintro ⟨e, he⟩
        exact ⟨_, he⟩

end RunResult.HandsOn

namespace Invocation

variable {i : Invocation} {c : Config} {rule : Value} {t : FileTree}

theorem assemble_of_ok {source : ShaderSource}
    (h : (c.assemble t i.template rule none).1.outcome = .ok source) :
    i.assemble c rule t =
      { shown := Console.plain (i.output source)
        logged := logLines i.level (c.assemble t i.template rule none).1.records
        events := (c.assemble t i.template rule none).1.events
        tree := (c.assemble t i.template rule none).2 } := by
  unfold assemble
  simp only [h]

theorem assemble_of_assembly {e : AssemblyError}
    (h : (c.assemble t i.template rule none).1.outcome = .error (.assembly e)) :
    i.assemble c rule t =
      { exitCode := 1
        logged := logLines i.level (c.assemble t i.template rule none).1.records ++
          Console.plain ("Error: " ++ e.message ++ "\n").toList
        events := (c.assemble t i.template rule none).1.events
        tree := (c.assemble t i.template rule none).2 } := by
  unfold assemble
  simp only [h]

theorem assemble_of_escaping {f : Failure}
    (h : (c.assemble t i.template rule none).1.outcome = .error f) (hf : ∀ e, f ≠ .assembly e) :
    i.assemble c rule t =
      { exitCode := 1
        logged := logLines i.level (c.assemble t i.template rule none).1.records
        events := (c.assemble t i.template rule none).1.events
        tree := (c.assemble t i.template rule none).2
        escaped? := some f } := by
  unfold assemble
  cases f with
  | assembly e => exact absurd rfl (hf e)
  | refused | undecodable | notARule => simp only [h]

theorem handsOn_assemble (statement? : Option Statement) :
    (i.assemble c (.ofStatement? statement?) t).HandsOn c t i.template statement?
      i.lineNumbers := by
  cases houtcome : (c.assemble t i.template (.ofStatement? statement?) none).1.outcome with
  | error f =>
    have htree := c.tree_of_error t i.template _ none houtcome
    by_cases hown : ∃ e, f = .assembly e
    · obtain ⟨e, rfl⟩ := hown
      rw [assemble_of_assembly houtcome]
      refine {
        exitCode_eq_one_iff := ⟨fun _ => ⟨_, houtcome⟩, fun _ => rfl⟩
        escaped?_eq_some_iff := fun f => ⟨nofun, ?_⟩
        of_failed := fun _ => ⟨rfl, htree⟩
        of_not_failed := fun h => absurd rfl h }
      rintro ⟨hf, hother⟩
      exact absurd (Except.error.inj (houtcome.symm.trans hf)).symm (hother e)
    · have hother : ∀ e, f ≠ .assembly e := fun e he => hown ⟨e, he⟩
      rw [assemble_of_escaping houtcome hother]
      exact {
        exitCode_eq_one_iff := ⟨fun _ => ⟨_, houtcome⟩, fun _ => rfl⟩
        escaped?_eq_some_iff := fun f' =>
          ⟨fun h => Option.some.inj h ▸ ⟨houtcome, hother⟩,
            fun h => congrArg some (Except.error.inj (houtcome.symm.trans h.1))⟩
        of_failed := fun _ => ⟨rfl, htree⟩
        of_not_failed := fun h => absurd rfl h }
  | ok source =>
    rw [assemble_of_ok houtcome]
    refine {
      exitCode_eq_one_iff := ⟨nofun, ?_⟩
      escaped?_eq_some_iff := fun f => ⟨nofun, ?_⟩
      of_failed := nofun
      of_not_failed := fun _ => ⟨rfl, source, houtcome, fun hescape => ?_, fun hdebug => ?_,
        fun hdebug => ?_⟩ }
    · rintro ⟨f, hf⟩
      cases houtcome.symm.trans hf
    · rintro ⟨hf, -⟩
      cases houtcome.symm.trans hf
    · exact Console.plain_eq_self (i.escapeChar_not_mem_output hescape)
    · exact c.write_of_outcome t i.template _ none hdebug houtcome
    · exact c.tree_of_not_debug t i.template _ none hdebug

/-! ## The three kinds of runs -/

/-- Whether nothing of the files has to do with what an invocation comes to: it looks at none of
them, and leaves them as they are. -/
def IgnoresFiles (i : Invocation) (env : Environment) (r : Registry) : Prop :=
  ∀ t t', (i.run env r t).events = [] ∧ i.run env r t' = { i.run env r t with tree := t' }

variable {env : Environment} {r : Registry}

theorem run_of_listRules (h : i.listRules = true) (t : FileTree) :
    i.run env r t = { shown := Console.plain r.listing, tree := t } := by
  rw [run, if_pos h]
  rfl

theorem run_of_rule_error {fault : BuildFault} (hlist : i.listRules = false)
    (h : i.rule r = .error fault) (t : FileTree) :
    i.run env r t = .ofFault t (.badRule fault) := by
  rw [run, if_neg (by simp [hlist]), h]

theorem run_of_rule_ok (hlist : i.listRules = false) (h : i.rule r = .ok rule) (t : FileTree) :
    i.run env r t = i.assemble (i.config env) rule t := by
  rw [run, if_neg (by simp [hlist]), h]

theorem ignoresFiles_of_listRules (h : i.listRules = true) : i.IgnoresFiles env r := by
  intro t t'
  rw [run_of_listRules h, run_of_listRules h]
  exact ⟨rfl, rfl⟩

theorem ignoresFiles_of_rule_error {fault : BuildFault} (hlist : i.listRules = false)
    (h : i.rule r = .error fault) : i.IgnoresFiles env r := by
  intro t t'
  rw [run_of_rule_error hlist h, run_of_rule_error hlist h]
  exact ⟨rfl, rfl⟩

end Invocation

namespace Arguments

variable {a : Arguments} {i : Invocation} {t : FileTree}

theorem page?_ne_invoke : a.page? ≠ some (.invoke i) := by
  intro h
  obtain ⟨x, -, hx⟩ := List.exists_of_findSome?_eq_some h
  split at hx
  · cases hx
  · cases hx
  · cases hx

/-- A request other than for a page is for all that was given. -/
theorem eq_invocation_of_request (h : a.request t = .ok (.invoke i)) : i = a.invocation := by
  unfold request at h
  split at h
  · rename_i page hpage
    obtain rfl := Except.ok.inj h
    exact absurd hpage page?_ne_invoke
  · split at h
    · cases h
    · split at h
      · exact (Request.invoke.inj (Except.ok.inj h)).symm
      · cases h

end Arguments

theorem runProgram_of_request {args : List String} {a : Arguments} {i : Invocation}
    {t : FileTree} (hparse : Arguments.parse args = .ok a)
    (hrequest : a.request t = .ok (.invoke i)) (env : Environment) (r : Registry) :
    runProgram args env r t = i.run env r t := by
  have hboth : (Arguments.parse args >>= fun a => a.request t) = .ok (.invoke i) := by
    rw [hparse]
    exact hrequest
  rw [runProgram, hboth]

/-- The program does what the assembly does.  Listing the rulesets comes before all else, then the
rule is looked at, and neither has to do with the files.  Otherwise the shader is assembled with the
settings in the arguments, or else in the environment, and what comes of it is handed on.  Where all
files hold text, its only failures are the assembly's own exactly if no path is refused. -/
theorem runProgram_agrees_with_assemble {args : List String} {a : Arguments} {i : Invocation}
    {t : FileTree} (hparse : Arguments.parse args = .ok a)
    (hrequest : a.request t = .ok (.invoke i)) (env : Environment) :
    i = a.invocation ∧
    (i.listRules = true →
      runProgram args env .builtin t = { shown := Registry.builtin.listing, tree := t } ∧
        i.IgnoresFiles env .builtin ∧ Registry.builtin.names.Pairwise (· ≤ ·) ∧
        Registry.builtin.names.Perm (Registry.builtin.entries.map (·.1))) ∧
    (i.listRules = false → i.AsksInVain .builtin →
      (runProgram args env .builtin t).exitCode = 2 ∧
        (runProgram args env .builtin t).shown = [] ∧
        (runProgram args env .builtin t).events = [] ∧
        (runProgram args env .builtin t).tree = t ∧ i.IgnoresFiles env .builtin) ∧
    (i.listRules = false → ¬i.AsksInVain .builtin →
      ∃ c statement?, i.Asks .builtin statement? ∧
        c.assetRoot = (i.assetRoot?.or (env.lookup assetRootVariable)).getD packagedRoot ∧
        c.debugShader = (i.debug || isFlagOn (env.lookup debugVariable)) ∧
        c.placeholder = defaultPlaceholder ∧
        (runProgram args env .builtin t).HandsOn c t i.template statement? i.lineNumbers ∧
        (c.ReadsTextOnly t i.template →
          (((runProgram args env .builtin t).escaped? = none ∧
            ((runProgram args env .builtin t).exitCode = 1 ↔
              ∃ e, (c.assemble t i.template (.ofStatement? statement?) none).1.outcome =
                .error (.assembly e))) ↔
            c.Unrefused t i.template statement?))) := by
  rw [runProgram_of_request hparse hrequest]
  refine ⟨Arguments.eq_invocation_of_request hrequest, fun hlist => ?_, fun hlist hvain => ?_,
    fun hlist hasks => ?_⟩
  · refine ⟨?_, Invocation.ignoresFiles_of_listRules hlist, Registry.pairwise_names _,
      Registry.perm_names _⟩
    rw [Invocation.run_of_listRules hlist,
      Console.plain_eq_self Registry.escapeChar_not_mem_listing_builtin]
  · obtain ⟨fault, hrule⟩ := Invocation.exists_rule_of_asksInVain hvain
    refine ⟨?_, ?_, ?_, ?_, Invocation.ignoresFiles_of_rule_error hlist hrule⟩
    all_goals
      rw [Invocation.run_of_rule_error hlist hrule]
      rfl
  · obtain ⟨statement?, hasks⟩ := Invocation.exists_asks hasks
    refine ⟨i.config env, statement?, hasks, rfl, rfl, rfl, ?_⟩
    rw [Invocation.run_of_rule_ok hlist (Invocation.rule_of_asks hasks)]
    have hhands := i.handsOn_assemble (c := i.config env) (t := t) statement?
    exact ⟨hhands, hhands.only_own_iff⟩

/-- A file of one letter. -/
def FileTree.letter : FileTree := ⟨[], [(["main"], .file [0x78])]⟩

theorem runProgram_letter :
    (runProgram ["--debug", "main"] [(assetRootVariable, "/")] .builtin .letter).exitCode = 0 ∧
      (runProgram ["--debug", "main"] [(assetRootVariable, "/")] .builtin .letter).shown =
        ['x', '\n'] ∧
      (runProgram ["--debug", "main"] [(assetRootVariable, "/")] .builtin .letter).tree.read
        "/main.debug.wgsl" = .ok [0x78] := by
  obtain ⟨-, -, -, hrun⟩ := runProgram_agrees_with_assemble
    (rfl : Arguments.parse ["--debug", "main"] = .ok ⟨[(.debug, none)], ["main"]⟩)
    (rfl : _ = Except.ok (Request.invoke (Arguments.invocation ⟨[(.debug, none)], ["main"]⟩)))
    (t := .letter) [(assetRootVariable, "/")]
  obtain ⟨⟨root, debug, placeholder⟩, statement?, hasks, hroot, hdebug, hplaceholder, hhands, -⟩ :=
    hrun rfl fun ⟨_, _, hrule, _⟩ => by cases hrule
  obtain rfl : root = "/" := hroot
  obtain rfl : debug = true := hdebug
  obtain rfl : placeholder = defaultPlaceholder := hplaceholder
  cases hasks with
  | known hrule | denoted hrule => cases hrule
  | nothing =>
    have hok : ((Config.mk "/" true defaultPlaceholder).assemble .letter "main" .nothing
        none).1.outcome = .ok ⟨"main", ['x'], none⟩ := rfl
    obtain ⟨hzero, hshown, hwritten, -⟩ := hhands.of_ok hok
    exact ⟨hzero, hshown (by decide), FileTree.read_of_write (hwritten rfl)⟩

/-- A template that imports a file by a name in which NUL stands. -/
def FileTree.nulImport : FileTree :=
  ⟨[], [(["main"], .file (Text.encode "#import a\x00b".toList))]⟩

/-- The refusal of a path, if that is what something came to. -/
def refusal? {α : Type} : Except Failure α → Option NulInPath
  | .error (.refused refusal) => some refusal
  | _ => none

theorem eq_refused_of_refusal? {α : Type} {x : Except Failure α} {refusal : NulInPath}
    (h : refusal? x = some refusal) : x = .error (.refused refusal) := by
  unfold refusal? at h
  split at h
  · rw [Option.some.inj h]
  · cases h

theorem Config.assemble_nulImport :
    ((Config.mk "/" false defaultPlaceholder).assemble .nulImport "main" (.ofStatement? none)
      none).1.outcome = .error (.refused .nulInPath) :=
  eq_refused_of_refusal? (by decide +kernel)

theorem Config.readsTextOnly_nulImport :
    (Config.mk "/" false defaultPlaceholder).ReadsTextOnly .nulImport "main" := by
  have hnames : Sources.readNames ((Config.mk "/" false defaultPlaceholder).resolve .nulImport
      "main").events = ["main"] := by decide +kernel
  have hpath : (Config.mk "/" false defaultPlaceholder).assetPath "main" = "/main" := by
    decide +kernel
  have hfile : FileTree.nulImport.read "/main" = .ok (Text.encode "#import a\x00b".toList) :=
    eq_ok_of_toOption (by decide +kernel)
  intro name hname bytes hread
  obtain rfl := List.mem_singleton.1 (hnames ▸ hname)
  rw [hpath] at hread
  rw [← Except.ok.inj (hfile.symm.trans hread)]
  exact ⟨_, Text.decode_encode _⟩

theorem Invocation.handsOn_nulImport :
    (runProgram ["main"] [(assetRootVariable, "/")] .builtin .nulImport).HandsOn
      (Config.mk "/" false defaultPlaceholder) .nulImport "main" none false := by
  have hconfig : (Arguments.invocation ⟨[], ["main"]⟩).config [(assetRootVariable, "/")] =
      Config.mk "/" false defaultPlaceholder := rfl
  have hrule : (Arguments.invocation ⟨[], ["main"]⟩).rule .builtin = .ok .nothing := rfl
  rw [runProgram_of_request (t := .nulImport)
    (rfl : Arguments.parse ["main"] = .ok ⟨[], ["main"]⟩)
    (rfl : _ = Except.ok (Request.invoke (Arguments.invocation ⟨[], ["main"]⟩)))
    [(assetRootVariable, "/")] .builtin, run_of_rule_ok rfl hrule, hconfig]
  exact handsOn_assemble none

/-- The program fails, and a failure escapes from it, though all that is read is text and the
assembly does not fail in a way of its own. -/
theorem runProgram_nulImport :
    (Config.mk "/" false defaultPlaceholder).ReadsTextOnly .nulImport "main" ∧
    (runProgram ["main"] [(assetRootVariable, "/")] .builtin .nulImport).exitCode = 1 ∧
    (runProgram ["main"] [(assetRootVariable, "/")] .builtin .nulImport).escaped? =
      some (.refused .nulInPath) ∧
    ¬∃ e, ((Config.mk "/" false defaultPlaceholder).assemble .nulImport "main"
      (.ofStatement? none) none).1.outcome = .error (.assembly e) := by
  have hhands := Invocation.handsOn_nulImport
  refine ⟨Config.readsTextOnly_nulImport,
    hhands.exitCode_eq_one_iff.2 ⟨_, Config.assemble_nulImport⟩,
    (hhands.escaped?_eq_some_iff _).2 ⟨Config.assemble_nulImport, fun e he => by cases he⟩, ?_⟩
  rintro ⟨e, he⟩
  cases Config.assemble_nulImport.symm.trans he

end CellShader
