import CellShader.Proofs.Shader.CallStack

/-!
# Expansion step by step

The expansion hands the stack from call to call, so that a call cannot but leave it as it was.  Here
there is one stack, onto which a name is pushed before the file with that name is expanded and off
which the last name is dropped afterwards, and one table of what is kept.  Both are changed in
place, and what the calls under way have still to do lies beside them (`Moment`, `Step`).  Each step
is told by the moment before it (`Step.rightUnique`), and the steps are those of the expansion: a
call that comes to its end is returned from with its text and what is kept
(`Walks.steps_of_ok`), and one that fails ends all (`Walks.exists_steps_of_error`).  So from every
moment the steps lead to the outcome (`IsMoment.exists_steps_of_resolves`), and the calls of the
expansion are all entered on the way (`Calls.exists_isMoment`).
-/

namespace CellShader

open Relation

/-- A call under way: its file with the directives and the text so far, the target for which another
file is being expanded, and the targets behind that one. -/
structure Caller where
  file : String
  directives : Directives
  target : String
  targets : List String
  text : List Char

/-- The name of the file that is being expanded for a caller. -/
def Caller.name (c : Caller) : String := c.directives.nameOf c.target

/-- What is next: a call begins, or goes on with some targets, or has its text to give back; or that
text has just been kept; or all has come to its end. -/
inductive Control
  | entering (file : String) (text : List Char)
  | looping (file : String) (d : Directives) (targets : List String) (text : List Char)
  | returning (contents : List Char)
  | kept (contents : List Char)
  | ended (outcome : Except Failure (List Char))

/-- A moment of the expansion: the stack and what is kept, the calls under way inside which the
present one was made, the last of them first, and what is next. -/
structure Moment where
  stack : List String
  known : Expanded
  callers : List Caller
  control : Control

namespace Sources

/-- What the expansion does from one moment to the next. -/
inductive Step (s : Sources) : Moment → Moment → Prop
  | scan {stack : List String} {known : Expanded} {callers : List Caller} {file : String}
      {text : List Char} {d : Directives} (hscan : Directives.ofText text = .ok d) :
      Step s ⟨stack, known, callers, .entering file text⟩
        ⟨stack, known, callers, .looping file d d.targets text⟩
  | declaredTwice {stack : List String} {known : Expanded} {callers : List Caller} {file : String}
      {text : List Char} {paths : DuplicatePath} (hscan : Directives.ofText text = .error paths) :
      Step s ⟨stack, known, callers, .entering file text⟩
        ⟨stack, known, callers, .ended (.error (.assembly (.duplicatePath paths (some file))))⟩
  | done {stack : List String} {known : Expanded} {callers : List Caller} {file : String}
      {d : Directives} {text : List Char} :
      Step s ⟨stack, known, callers, .looping file d [] text⟩
        ⟨stack, known, callers, .returning text⟩
  | refused {stack : List String} {known : Expanded} {callers : List Caller} {file : String}
      {d : Directives} {target : String} {targets : List String} {text : List Char}
      {refusal : NulInPath} (hin : s.isInside (d.nameOf target) = .error refusal) :
      Step s ⟨stack, known, callers, .looping file d (target :: targets) text⟩
        ⟨stack, known, callers, .ended (.error (.refused refusal))⟩
  | outside {stack : List String} {known : Expanded} {callers : List Caller} {file : String}
      {d : Directives} {target : String} {targets : List String} {text : List Char}
      (hin : s.isInside (d.nameOf target) = .ok false) :
      Step s ⟨stack, known, callers, .looping file d (target :: targets) text⟩
        ⟨stack, known, callers,
          .ended (.error (.assembly (.missingImport file target (s.path (d.nameOf target)) none)))⟩
  | cycle {stack : List String} {known : Expanded} {callers : List Caller} {file : String}
      {d : Directives} {target : String} {targets : List String} {text : List Char}
      (hin : s.isInside (d.nameOf target) = .ok true) (hstack : d.nameOf target ∈ stack) :
      Step s ⟨stack, known, callers, .looping file d (target :: targets) text⟩
        ⟨stack, known, callers,
          .ended (.error (.assembly (.importCycle (cycleAt stack (d.nameOf target)))))⟩
  | found {stack : List String} {known : Expanded} {callers : List Caller} {file : String}
      {d : Directives} {target : String} {targets : List String} {text contents : List Char}
      (hin : s.isInside (d.nameOf target) = .ok true) (hstack : d.nameOf target ∉ stack)
      (hknown : known.lookup (d.nameOf target) = some contents) :
      Step s ⟨stack, known, callers, .looping file d (target :: targets) text⟩
        ⟨stack, known, callers,
          .looping file d targets (Inlining.replaceImport text target.toList contents)⟩
  | unreadable {stack : List String} {known : Expanded} {callers : List Caller} {file : String}
      {d : Directives} {target : String} {targets : List String} {text : List Char} {e : FileError}
      (hin : s.isInside (d.nameOf target) = .ok true) (hstack : d.nameOf target ∉ stack)
      (hknown : known.lookup (d.nameOf target) = none)
      (hread : s.read (d.nameOf target) = .error (.file e)) :
      Step s ⟨stack, known, callers, .looping file d (target :: targets) text⟩
        ⟨stack, known, callers, .ended
          (.error (.assembly (.missingImport file target (s.path (d.nameOf target)) (some e))))⟩
  | unopened {stack : List String} {known : Expanded} {callers : List Caller} {file : String}
      {d : Directives} {target : String} {targets : List String} {text : List Char}
      {refusal : NulInPath}
      (hin : s.isInside (d.nameOf target) = .ok true) (hstack : d.nameOf target ∉ stack)
      (hknown : known.lookup (d.nameOf target) = none)
      (hread : s.read (d.nameOf target) = .error (.refused refusal)) :
      Step s ⟨stack, known, callers, .looping file d (target :: targets) text⟩
        ⟨stack, known, callers, .ended (.error (.refused refusal))⟩
  | undecodable {stack : List String} {known : Expanded} {callers : List Caller} {file : String}
      {d : Directives} {target : String} {targets : List String} {text : List Char}
      {fault : Text.Utf8Fault}
      (hin : s.isInside (d.nameOf target) = .ok true) (hstack : d.nameOf target ∉ stack)
      (hknown : known.lookup (d.nameOf target) = none)
      (hread : s.read (d.nameOf target) = .error (.bytes fault)) :
      Step s ⟨stack, known, callers, .looping file d (target :: targets) text⟩
        ⟨stack, known, callers, .ended (.error (.undecodable fault))⟩
  | call {stack : List String} {known : Expanded} {callers : List Caller} {file : String}
      {d : Directives} {target : String} {targets : List String} {text inner : List Char}
      (hin : s.isInside (d.nameOf target) = .ok true) (hstack : d.nameOf target ∉ stack)
      (hknown : known.lookup (d.nameOf target) = none)
      (hread : s.read (d.nameOf target) = .ok inner) :
      Step s ⟨stack, known, callers, .looping file d (target :: targets) text⟩
        ⟨stack ++ [d.nameOf target], known, ⟨file, d, target, targets, text⟩ :: callers,
          .entering (d.nameOf target) inner⟩
  | keep {stack : List String} {known : Expanded} {caller : Caller} {callers : List Caller}
      {contents : List Char} :
      Step s ⟨stack, known, caller :: callers, .returning contents⟩
        ⟨stack, (caller.name, contents) :: known, caller :: callers, .kept contents⟩
  | pop {stack : List String} {known : Expanded} {caller : Caller} {callers : List Caller}
      {contents : List Char} :
      Step s ⟨stack, known, caller :: callers, .kept contents⟩
        ⟨stack.dropLast, known, callers,
          .looping caller.file caller.directives caller.targets
            (Inlining.replaceImport caller.text caller.target.toList contents)⟩
  | finish {stack : List String} {known : Expanded} {contents : List Char} :
      Step s ⟨stack, known, [], .returning contents⟩ ⟨stack, known, [], .ended (.ok contents)⟩

/-- Whether some steps lead from one moment to another. -/
abbrev Steps (s : Sources) : Moment → Moment → Prop := ReflTransGen s.Step

/-- Whether a moment comes up when a template is resolved.  The first one is after the template has
been read. -/
inductive IsMoment (s : Sources) (template : String) : Moment → Prop
  | intro {text : List Char} {m : Moment} (hin : s.isInside (Path.normalise template) = .ok true)
      (hread : s.read (Path.normalise template) = .ok text)
      (steps : s.Steps ⟨[Path.normalise template], [], [], .entering (Path.normalise template) text⟩
        m) : IsMoment s template m

variable {s : Sources} {template : String}

theorem IsMoment.trans {m m' : Moment} (h : s.IsMoment template m) (steps : s.Steps m m') :
    s.IsMoment template m' := by
  obtain ⟨hin, hread, hsteps⟩ := h
  exact ⟨hin, hread, hsteps.trans steps⟩

/-! ## One way to go on -/

theorem Step.rightUnique : Relator.RightUnique s.Step := by
  intro m a b ha hb
  cases ha <;> cases hb <;> simp_all

theorem not_step_of_ended {m m' : Moment} {outcome : Except Failure (List Char)}
    (h : m.control = .ended outcome) : ¬ s.Step m m' := by
  rintro ⟨⟩ <;> cases h

/-! ## The steps of a walk -/

section Walks

variable {file : String} {d : Directives} {stack targets : List String} {text : List Char}
  {known : Expanded} {events : List Event}

/-- A call is made, comes to its end and is returned from, with the stack as it was. -/
theorem steps_of_call {target : String} {inner contents : List Char} {d' : Directives}
    {known' : Expanded} {callers : List Caller} (hin : s.isInside (d.nameOf target) = .ok true)
    (hstack : d.nameOf target ∉ stack) (hknown : known.lookup (d.nameOf target) = none)
    (hread : s.read (d.nameOf target) = .ok inner) (hscan : Directives.ofText inner = .ok d')
    (sub : s.Steps
      ⟨stack ++ [d.nameOf target], known, ⟨file, d, target, targets, text⟩ :: callers,
        .looping (d.nameOf target) d' d'.targets inner⟩
      ⟨stack ++ [d.nameOf target], known', ⟨file, d, target, targets, text⟩ :: callers,
        .looping (d.nameOf target) d' [] contents⟩) :
    s.Steps ⟨stack, known, callers, .looping file d (target :: targets) text⟩
      ⟨stack, (d.nameOf target, contents) :: known', callers,
        .looping file d targets (Inlining.replaceImport text target.toList contents)⟩ := by
  have hpop : s.Step
      ⟨stack ++ [d.nameOf target], (d.nameOf target, contents) :: known',
        ⟨file, d, target, targets, text⟩ :: callers, .kept contents⟩
      ⟨(stack ++ [d.nameOf target]).dropLast, (d.nameOf target, contents) :: known', callers,
        .looping file d targets (Inlining.replaceImport text target.toList contents)⟩ := .pop
  rw [List.dropLast_concat] at hpop
  exact .head (.call hin hstack hknown hread) <| .head (.scan hscan) <|
    sub.trans <| .head .done <| .head .keep <| .single hpop

/-- The steps go through targets that a walk comes to the end of, whatever is behind them. -/
theorem Walks.steps_of_ok {text' : List Char} {known' : Expanded}
    (h : s.Walks file d stack targets text known events (.ok (text', known')))
    (behind : List String) (callers : List Caller) :
    s.Steps ⟨stack, known, callers, .looping file d (targets ++ behind) text⟩
      ⟨stack, known', callers, .looping file d behind text'⟩ := by
  generalize hr : (Except.ok (text', known') : Except Failure (List Char × Expanded)) = r at h
  induction h generalizing text' known' behind callers with
  | done =>
    obtain ⟨rfl, rfl⟩ := Prod.mk.inj (Except.ok.inj hr)
    exact .refl
  | refused | outside | cycle | unreadable | unopened | undecodable | declaredTwice | failed =>
    cases hr
  | kept hin hstack hknown _ ih => exact .head (.found hin hstack hknown) (ih behind callers hr)
  | @expanded file d _ targets text _ _ target _ _ _ _ _ _ hin hstack hknown hread hscan _ _ ihsub
      ih =>
    have hsub := ihsub [] (⟨file, d, target, targets ++ behind, text⟩ :: callers) rfl
    rw [List.append_nil] at hsub
    exact (steps_of_call hin hstack hknown hread hscan hsub).trans (ih behind callers hr)

/-- The steps end with the failure of a walk. -/
theorem Walks.exists_steps_of_error {e : Failure}
    (h : s.Walks file d stack targets text known events (.error e)) (callers : List Caller) :
    ∃ m, s.Steps ⟨stack, known, callers, .looping file d targets text⟩ m ∧
      m.control = .ended (.error e) := by
  generalize hr : (Except.error e : Except Failure (List Char × Expanded)) = r at h
  induction h generalizing callers with
  | done => cases hr
  | refused hin =>
    cases hr
    exact ⟨_, .single (.refused hin), rfl⟩
  | outside hin =>
    cases hr
    exact ⟨_, .single (.outside hin), rfl⟩
  | cycle hin hstack =>
    cases hr
    exact ⟨_, .single (.cycle hin hstack), rfl⟩
  | unreadable hin hstack hknown hread =>
    cases hr
    exact ⟨_, .single (.unreadable hin hstack hknown hread), rfl⟩
  | unopened hin hstack hknown hread =>
    cases hr
    exact ⟨_, .single (.unopened hin hstack hknown hread), rfl⟩
  | undecodable hin hstack hknown hread =>
    cases hr
    exact ⟨_, .single (.undecodable hin hstack hknown hread), rfl⟩
  | declaredTwice hin hstack hknown hread hscan =>
    cases hr
    exact ⟨_, .head (.call hin hstack hknown hread) (.single (.declaredTwice hscan)), rfl⟩
  | kept hin hstack hknown _ ih =>
    obtain ⟨m, hsteps, hm⟩ := ih callers hr
    exact ⟨m, .head (.found hin hstack hknown) hsteps, hm⟩
  | @failed file d _ targets text _ target _ _ _ _ hin hstack hknown hread hscan _ ih =>
    obtain ⟨m, hsteps, hm⟩ := ih (⟨file, d, target, targets, text⟩ :: callers) hr
    exact ⟨m, .head (.call hin hstack hknown hread) (.head (.scan hscan) hsteps), hm⟩
  | @expanded file d _ targets text _ _ target _ _ _ _ _ _ hin hstack hknown hread hscan sub _ _
      ih =>
    have hsub := sub.steps_of_ok [] (⟨file, d, target, targets, text⟩ :: callers)
    rw [List.append_nil] at hsub
    obtain ⟨m, hsteps, hm⟩ := ih callers hr
    exact ⟨m, (steps_of_call hin hstack hknown hread hscan hsub).trans hsteps, hm⟩

/-- What a call comes to: it has its text to give back, with the stack as it was when the call
began, or all ends with its failure. -/
def ComesTo (s : Sources) (m : Moment) : Except Failure (List Char × Expanded) → Prop
  | .ok x => s.Steps m { m with known := x.2, control := .returning x.1 }
  | .error e => ∃ m', s.Steps m m' ∧ m'.control = .ended (.error e)

/-- The steps of a call come to what the call comes to. -/
theorem WalksFile.comesTo {x : Expansion} (h : s.WalksFile stack file text known x)
    (callers : List Caller) :
    s.ComesTo ⟨stack, known, callers, .entering file text⟩ x.outcome := by
  rw [WalksFile] at h
  cases hscan : Directives.ofText text with
  | error paths =>
    rw [hscan] at h
    subst h
    exact ⟨_, .single (.declaredTwice hscan), rfl⟩
  | ok d =>
    rw [hscan] at h
    cases hx : x.outcome with
    | ok result =>
      rw [hx] at h
      have hsteps := h.steps_of_ok [] callers
      rw [List.append_nil] at hsteps
      exact .head (.scan hscan) (hsteps.tail .done)
    | error e =>
      rw [hx] at h
      obtain ⟨m, hsteps, hm⟩ := h.exists_steps_of_error callers
      exact ⟨m, .head (.scan hscan) hsteps, hm⟩

end Walks

/-! ## All moments lead to the outcome -/

/-- The steps from the first moment on lead to the outcome. -/
theorem Resolves.exists_steps {events : List Event} {r : Except Failure (List Char)}
    (h : s.Resolves template events r) {text : List Char}
    (hin : s.isInside (Path.normalise template) = .ok true)
    (hread : s.read (Path.normalise template) = .ok text) :
    ∃ m, s.Steps ⟨[Path.normalise template], [], [], .entering (Path.normalise template) text⟩ m ∧
      m.control = .ended r := by
  cases h with
  | refused hin' | outside hin' => cases hin.symm.trans hin'
  | unreadable _ hread' | unopened _ hread' | undecodable _ hread' => cases hread.symm.trans hread'
  | declaredTwice _ hread' hscan =>
    obtain rfl := Except.ok.inj (hread.symm.trans hread')
    exact ⟨_, .single (.declaredTwice hscan), rfl⟩
  | @expanded _ _ _ r _ hread' hscan walk =>
    obtain rfl := Except.ok.inj (hread.symm.trans hread')
    cases r with
    | error e =>
      obtain ⟨m, hsteps, hm⟩ := walk.exists_steps_of_error []
      exact ⟨m, .head (.scan hscan) hsteps, hm⟩
    | ok result =>
      have hsteps := walk.steps_of_ok [] []
      rw [List.append_nil] at hsteps
      exact ⟨_, .head (.scan hscan) ((hsteps.tail .done).tail .finish), rfl⟩

theorem IsMoment.exists_steps_of_resolves {events : List Event} {r : Except Failure (List Char)}
    {m : Moment} (hm : s.IsMoment template m) (h : s.Resolves template events r) :
    ∃ m', s.Steps m m' ∧ m'.control = .ended r := by
  obtain ⟨hin, hread, steps⟩ := hm
  obtain ⟨last, hlast, hended⟩ := h.exists_steps hin hread
  refine ⟨last, ?_, hended⟩
  rcases ReflTransGen.total_of_right_unique Step.rightUnique steps hlast with hsteps | hsteps
  · exact hsteps
  · -- there is no step from the last moment on
    rcases ReflTransGen.cases_head_iff.1 hsteps with rfl | ⟨_, hstep, -⟩
    · exact .refl
    · exact absurd hstep (not_step_of_ended hended)

/-! ## The calls of the expansion -/

theorem mem_of_mem_recordedNames {names : List String} (hs : s.ImportsWithin names) {name : String}
    (h : name ∈ s.recordedNames) : name ∈ names := by
  obtain ⟨_, text, hread, hname⟩ := h
  exact hs _ text hread name hname

theorem Calls.subset {names : List String} (hs : s.ImportsWithin names) {bound depth : Nat}
    {stack : List String} {file : String} {text : List Char} {known : Expanded}
    (h : s.Calls template bound depth stack file text known) :
    stack ⊆ Path.normalise template :: names := by
  intro name hname
  rcases h.mem_recordedNames name hname with rfl | hrecorded
  · exact List.mem_cons_self
  · exact List.mem_cons_of_mem _ (mem_of_mem_recordedNames hs hrecorded)

/-- Each call of the expansion begins at a moment with its stack and what is kept then. -/
theorem Calls.exists_isMoment {names : List String} (hs : s.ImportsWithin names)
    {bound depth : Nat} (hbound : names.length < bound) {stack : List String} {file : String}
    {text : List Char} {known : Expanded}
    (h : s.Calls template bound depth stack file text known) :
    ∃ callers, s.IsMoment template ⟨stack, known, callers, .entering file text⟩ := by
  induction h with
  | outer hin hread => exact ⟨[], .intro hin hread .refl⟩
  | @inner depth stack before after file target text text' inner known known' d call hscan htargets
      hbefore hin hstack hknown hread ih =>
    obtain ⟨callers, hm⟩ := ih
    have hlength := call.depth_add_length
    have hnames : ∀ t ∈ before, d.nameOf t ∈ names := fun t ht =>
      hs file text call.read_eq _ (nameOf_mem_importedNames hscan (by simp [htargets, ht]))
    have hfile : ∀ name ∈ names, name ∉ stack → ∀ inner, s.read name = .ok inner → ∀ known,
        s.WalksFile (stack ++ [name]) name inner known
          (s.expand depth (stack ++ [name]) name inner known) := by
      intro name hname hstack inner hread known
      have hsub : stack ++ [name] ⊆ Path.normalise template :: names :=
        List.append_subset.2 ⟨call.subset hs, by simpa using Or.inr hname⟩
      refine walksFile_expand hs hread (nodup_push call.nodup hstack) hsub ?_ known
      rw [List.length_append, List.length_singleton]
      omega
    have hwalk := walks_expandTargets hfile file d hnames text known
    rw [hbefore] at hwalk
    have hsteps := hwalk.steps_of_ok (target :: after) callers
    rw [← htargets] at hsteps
    exact ⟨_, hm.trans (.head (.scan hscan) (hsteps.tail (.call hin hstack hknown hread)))⟩

end Sources

end CellShader
