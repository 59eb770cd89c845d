import CellShader.Proofs.Files.Writing
import CellShader.Proofs.Shader.Failing

/-!
# What assembling does to the files

Assembling ends in one of four ways (`Config.exists_assembles`): there is no text, or there is one
and its copy cannot be written, is written, or is not asked for.  Only the third one changes the
files, and there is nothing more to fail after it.  A module is made after that and no earlier, of
the text that was assembled and by one call (`Config.load_of_ok`, `Config.load_of_error`).
-/

namespace CellShader

namespace Config

variable (c : Config) (t : FileTree) (template : String) (rule : Value) (label? : Option String)

/-- The text that a template comes to with a rule, if there is one, in its place. -/
def textOf : Except Failure (List Char) :=
  match rule with
  | .nothing => (c.resolve t template).outcome
  | rule => (c.resolveWithRule t template rule).outcome

theorem outcome_compose : (c.compose t template rule).outcome = c.textOf t template rule := by
  cases rule with
  | nothing =>
    rw [compose, textOf]
    cases htext : (c.resolve t template).outcome with
    | error f => rw [Told.bind_of_error htext]
    | ok text =>
      rw [Told.bind_of_ok htext]
      dsimp only
      split <;> rfl
  | _ => rfl

theorem exists_resolve_of_textOf {text : List Char} (h : c.textOf t template rule = .ok text) :
    ∃ text', (c.resolve t template).outcome = .ok text' := by
  unfold textOf at h
  split at h
  · exact ⟨text, h⟩
  · rw [resolveWithRule, Told.outcome_bind_eq_ok_iff] at h
    obtain ⟨text', htext, -⟩ := h
    exact ⟨text', htext⟩

/-- How a shader is assembled: what comes of it, and the files afterwards. -/
inductive Assembles : Except Failure ShaderSource → FileTree → Prop
  | failed {f : Failure} (htext : c.textOf t template rule = .error f) : Assembles (.error f) t
  | unwritable {text : List Char} {fault : OpenFault FileError}
      (htext : c.textOf t template rule = .ok text) (hdebug : c.debugShader = true)
      (hwrite : t.write (c.debugPath template) (Text.encode text) = .error fault) :
      Assembles (.error (c.copyFailure template fault)) t
  | copied {text : List Char} {t' : FileTree} (htext : c.textOf t template rule = .ok text)
      (hdebug : c.debugShader = true)
      (hwrite : t.write (c.debugPath template) (Text.encode text) = .ok t') :
      Assembles (.ok ⟨template, text, label?⟩) t'
  | uncopied {text : List Char} (htext : c.textOf t template rule = .ok text)
      (hdebug : c.debugShader = false) : Assembles (.ok ⟨template, text, label?⟩) t

theorem exists_assembles :
    ∃ outcome t', (c.assemble t template rule label?).1.outcome = outcome ∧
      (c.assemble t template rule label?).2 = t' ∧
        c.Assembles t template rule label? outcome t' := by
  refine ⟨_, _, rfl, rfl, ?_⟩
  have hcompose := c.outcome_compose t template rule
  rw [assemble]
  cases htext : (c.compose t template rule).outcome with
  | error f => exact .failed (hcompose.symm.trans htext)
  | ok text =>
    dsimp only
    rw [Told.bind_of_ok htext, keepCopy]
    have htext' := hcompose.symm.trans htext
    cases hdebug : c.debugShader with
    | false => exact .uncopied htext' hdebug
    | true =>
      rw [if_pos rfl, writeCopy]
      cases hwrite : t.write (c.debugPath template) (Text.encode text) with
      | error fault => cases fault <;> exact .unwritable htext' hdebug hwrite
      | ok t' => exact .copied htext' hdebug hwrite

/-! ## Making a module -/

variable {σ ε α : Type}

/-- What makes modules, with the texts and labels that it is called with kept in a list. -/
def recording (makeModule : List Char → Option String → σ → Except ε α × σ) :
    List Char → Option String → σ × List (List Char × Option String) →
      Except ε α × σ × List (List Char × Option String) :=
  fun text label? state =>
    ((makeModule text label? state.1).1, (makeModule text label? state.1).2,
      state.2 ++ [(text, label?)])

variable {makeModule : List Char → Option String → σ → Except ε α × σ} {state : σ}

theorem load_of_error {f : Failure}
    (h : (c.assemble t template rule label?).1.outcome = .error f) :
    c.load t makeModule state template rule label? =
      ⟨(c.assemble t template rule label?).1.events, .error (.assembly f),
        (c.assemble t template rule label?).2, state⟩ := by
  unfold load
  simp only [h]

theorem load_of_ok {source : ShaderSource}
    (h : (c.assemble t template rule label?).1.outcome = .ok source) :
    c.load t makeModule state template rule label? =
      ⟨(c.assemble t template rule label?).1.events,
        (makeModule source.text label? state).1.mapError .factory,
        (c.assemble t template rule label?).2, (makeModule source.text label? state).2⟩ := by
  unfold load
  simp only [h]

theorem tree_load :
    (c.load t makeModule state template rule label?).tree =
      (c.assemble t template rule label?).2 := by
  cases h : (c.assemble t template rule label?).1.outcome with
  | error f => rw [load_of_error _ _ _ _ _ h]
  | ok source => rw [load_of_ok _ _ _ _ _ h]

/-- The texts and labels with which modules are made while a shader is loaded. -/
def calls (makeModule : List Char → Option String → σ → Except ε α × σ) (state : σ) :
    List (List Char × Option String) :=
  (c.load t (recording makeModule) (state, []) template rule label?).state.2

theorem calls_of_error {f : Failure}
    (h : (c.assemble t template rule label?).1.outcome = .error f) :
    c.calls t template rule label? makeModule state = [] := by
  rw [calls, load_of_error _ _ _ _ _ h]

theorem calls_of_ok {source : ShaderSource}
    (h : (c.assemble t template rule label?).1.outcome = .ok source) :
    c.calls t template rule label? makeModule state = [(source.text, label?)] := by
  rw [calls, load_of_ok _ _ _ _ _ h]
  rfl

/-! ## What succeeds and what changes -/

theorem tree_of_error {f : Failure}
    (h : (c.assemble t template rule label?).1.outcome = .error f) :
    (c.assemble t template rule label?).2 = t := by
  obtain ⟨outcome, t', houtcome, htree, hends⟩ := c.exists_assembles t template rule label?
  cases hends with
  | failed | unwritable | uncopied => exact htree
  | copied => cases h.symm.trans houtcome

theorem tree_of_not_debug (hdebug : c.debugShader = false) :
    (c.assemble t template rule label?).2 = t := by
  obtain ⟨outcome, t', -, htree, hends⟩ := c.exists_assembles t template rule label?
  cases hends with
  | failed | unwritable | uncopied => exact htree
  | copied _ h => cases hdebug.symm.trans h

theorem outcome_of_textOf {f : Failure} (h : c.textOf t template rule = .error f) :
    (c.assemble t template rule label?).1.outcome = .error f := by
  obtain ⟨outcome, t', houtcome, -, hends⟩ := c.exists_assembles t template rule label?
  cases hends with
  | failed htext =>
    obtain rfl := Except.error.inj (htext.symm.trans h)
    exact houtcome
  | unwritable htext | copied htext | uncopied htext => cases h.symm.trans htext

theorem outcome_of_unwritable {text : List Char} {fault : OpenFault FileError}
    (htext : c.textOf t template rule = .ok text) (hdebug : c.debugShader = true)
    (hwrite : t.write (c.debugPath template) (Text.encode text) = .error fault) :
    (c.assemble t template rule label?).1.outcome = .error (c.copyFailure template fault) := by
  obtain ⟨outcome, t', houtcome, -, hends⟩ := c.exists_assembles t template rule label?
  cases hends with
  | failed hfailed => cases htext.symm.trans hfailed
  | unwritable htext' _ hwrite' =>
    obtain rfl := Except.ok.inj (htext.symm.trans htext')
    obtain rfl := Except.error.inj (hwrite.symm.trans hwrite')
    exact houtcome
  | copied htext' _ hwrite' =>
    obtain rfl := Except.ok.inj (htext.symm.trans htext')
    cases hwrite.symm.trans hwrite'
  | uncopied _ hdebug' => cases hdebug.symm.trans hdebug'

/-- A shader is assembled if there is a text and, where a copy is asked for, this can be written. -/
theorem outcome_assemble_eq_ok_iff {source : ShaderSource} :
    (c.assemble t template rule label?).1.outcome = .ok source ↔
      c.textOf t template rule = .ok source.text ∧ source = ⟨template, source.text, label?⟩ ∧
        (c.debugShader = true →
          ∃ t', t.write (c.debugPath template) (Text.encode source.text) = .ok t') := by
  obtain ⟨outcome, t', houtcome, -, hends⟩ := c.exists_assembles t template rule label?
  rw [houtcome]
  constructor
  · rintro rfl
    cases hends with
    | copied htext _ hwrite => exact ⟨htext, rfl, fun _ => ⟨_, hwrite⟩⟩
    | uncopied htext hdebug => exact ⟨htext, rfl, fun h => by cases hdebug.symm.trans h⟩
  · rintro ⟨htext, hsource, hwritten⟩
    cases hends with
    | failed hfailed => cases htext.symm.trans hfailed
    | unwritable htext' hdebug hwrite =>
      obtain rfl := Except.ok.inj (htext.symm.trans htext')
      obtain ⟨t', hok⟩ := hwritten hdebug
      cases hwrite.symm.trans hok
    | copied htext' | uncopied htext' =>
      obtain rfl := Except.ok.inj (htext.symm.trans htext')
      rw [hsource]

/-- Where a copy is asked for and a shader is assembled, the files are what writing the copy makes
of them. -/
theorem write_of_outcome {source : ShaderSource} (hdebug : c.debugShader = true)
    (h : (c.assemble t template rule label?).1.outcome = .ok source) :
    t.write (c.debugPath template) (Text.encode source.text) =
      .ok (c.assemble t template rule label?).2 := by
  obtain ⟨outcome, t', houtcome, htree, hends⟩ := c.exists_assembles t template rule label?
  rw [htree]
  obtain rfl := houtcome.symm.trans h
  cases hends with
  | copied _ _ hwrite => exact hwrite
  | uncopied _ hdebug' => cases hdebug.symm.trans hdebug'

/-- Whether assembling and loading a shader fail in the given way and leave everything as it was. -/
structure FailsCleanly (makeModule : List Char → Option String → σ → Except ε α × σ) (state : σ)
    (f : Failure) : Prop where
  outcome_eq : (c.assemble t template rule label?).1.outcome = .error f
  tree_eq : (c.assemble t template rule label?).2 = t
  outcome_load : (c.load t makeModule state template rule label?).outcome = .error (.assembly f)
  tree_load : (c.load t makeModule state template rule label?).tree = t
  state_load : (c.load t makeModule state template rule label?).state = state
  calls_eq : c.calls t template rule label? makeModule state = []

theorem failsCleanly_of_error (makeModule : List Char → Option String → σ → Except ε α × σ)
    (state : σ) {f : Failure} (h : (c.assemble t template rule label?).1.outcome = .error f) :
    c.FailsCleanly t template rule label? makeModule state f where
  outcome_eq := h
  tree_eq := c.tree_of_error t template rule label? h
  outcome_load := by rw [load_of_error _ _ _ _ _ h]
  tree_load := by rw [load_of_error _ _ _ _ _ h, c.tree_of_error t template rule label? h]
  state_load := by rw [load_of_error _ _ _ _ _ h]
  calls_eq := c.calls_of_error t template rule label? h

theorem failsCleanly_of_unwritable (makeModule : List Char → Option String → σ → Except ε α × σ)
    (state : σ) {text : List Char} {fault : OpenFault FileError} (hdebug : c.debugShader = true)
    (htext : c.textOf t template rule = .ok text)
    (hwrite : t.write (c.debugPath template) (Text.encode text) = .error fault) :
    c.FailsCleanly t template rule label? makeModule state (c.copyFailure template fault) :=
  c.failsCleanly_of_error t template rule label? _ _
    (c.outcome_of_unwritable t template rule label? htext hdebug hwrite)

/-- There are no partial effects.  Without copies the files stay as they are, and so does everything
if there is no text or its copy cannot be written.  Otherwise the copy is the one file that is made
or changed, the module is made by one call, of the text and with the label, and the text does not
depend on whether it is copied. -/
theorem assemble_and_load_effects
    (makeModule : List Char → Option String → σ → Except ε α × σ) (state : σ) :
    (c.debugShader = false →
      (c.assemble t template rule label?).2 = t ∧
        (c.load t makeModule state template rule label?).tree = t) ∧
    (∀ f, c.textOf t template rule = .error f →
      c.FailsCleanly t template rule label? makeModule state f) ∧
    (c.debugShader = true →
      (∀ text e, c.textOf t template rule = .ok text →
        t.write (c.debugPath template) (Text.encode text) = .error (.system e) →
          c.FailsCleanly t template rule label? makeModule state
            (.assembly (.unwritableCopy (c.debugPath template) e))) ∧
      (∀ text refusal, c.textOf t template rule = .ok text →
        t.write (c.debugPath template) (Text.encode text) = .error (.refused refusal) →
          c.FailsCleanly t template rule label? makeModule state (.refused refusal)) ∧
      ∀ source, (c.assemble t template rule label?).1.outcome = .ok source →
        ∃ place, t.locate true (c.debugPath template) = .ok place ∧ t.IsFree place ∧
          (c.assemble t template rule label?).2.IsWith t place (Text.encode source.text) ∧
          (c.assemble t template rule label?).2.read (c.debugPath template) =
            .ok (Text.encode source.text) ∧
          (c.load t makeModule state template rule label?).tree =
            (c.assemble t template rule label?).2) ∧
    (∀ source, (c.assemble t template rule label?).1.outcome = .ok source ↔
      c.textOf t template rule = .ok source.text ∧ source = ⟨template, source.text, label?⟩ ∧
        (c.debugShader = true →
          ∃ t', t.write (c.debugPath template) (Text.encode source.text) = .ok t')) ∧
    (∀ source, (c.assemble t template rule label?).1.outcome = .ok source →
      (c.load t makeModule state template rule label?).outcome =
          (makeModule source.text label? state).1.mapError .factory ∧
        (c.load t makeModule state template rule label?).state =
          (makeModule source.text label? state).2 ∧
        c.calls t template rule label? makeModule state = [(source.text, label?)]) ∧
    ∀ source,
      (({ c with debugShader := true }).assemble t template rule label?).1.outcome = .ok source →
        (({ c with debugShader := false }).assemble t template rule label?).1.outcome =
          .ok source := by
  refine ⟨fun hdebug => ?_, fun f htext => ?_,
    fun hdebug => ⟨fun text e => c.failsCleanly_of_unwritable t template rule label? _ _ hdebug,
      fun text refusal => c.failsCleanly_of_unwritable t template rule label? _ _ hdebug,
      fun source hsource => ?_⟩,
    fun source => ?_, fun source hsource => ?_, fun source hsource => ?_⟩
  · have htree := c.tree_of_not_debug t template rule label? hdebug
    exact ⟨htree, (c.tree_load t template rule label?).trans htree⟩
  · exact c.failsCleanly_of_error t template rule label? _ _
      (c.outcome_of_textOf t template rule label? htext)
  · have hwrite := c.write_of_outcome t template rule label? hdebug hsource
    obtain ⟨place, hlocate, hfree, hwith⟩ := FileTree.exists_isWith_of_write hwrite
    exact ⟨place, hlocate, hfree, hwith, FileTree.read_of_write hwrite,
      c.tree_load t template rule label?⟩
  · exact c.outcome_assemble_eq_ok_iff t template rule label?
  · rw [load_of_ok _ _ _ _ _ hsource]
    exact ⟨rfl, rfl, c.calls_of_ok t template rule label? hsource⟩
  · -- the text is found without regard to the copies
    obtain ⟨htext, hname, -⟩ := (outcome_assemble_eq_ok_iff _ t template rule label?).1 hsource
    exact (outcome_assemble_eq_ok_iff _ t template rule label?).2
      ⟨htext, hname, fun hdebug => by cases hdebug⟩

end Config

end CellShader
