import CellShader.Proofs.Files.Refusal
import CellShader.Proofs.Shader.CallStack

/-!
# How the assembly fails

Every failure is one of the assembly's own kinds, except for paths that are refused and for bytes
that are no text: these come out as they are.  A file that cannot be read ends the run, and whoever
named it is told (`Resolves.error_of_unreadable`); a refused path ends it too
(`Resolves.error_of_refused`), and there is no other way to fail (`Resolves.blames`).  So assembling
fails in its own way only, exactly if no path is refused and all files that are read hold text.
-/

namespace CellShader

/-- The value that is handed in as the rule, where there need not be one. -/
def Value.ofStatement? : Option Statement → Value
  | none => .nothing
  | some s => .rule (.statement s)

namespace Sources

/-- Whether a target that is recorded in a file names another file. -/
def Names (s : Sources) (importer target name : String) : Prop :=
  ∃ text d, s.read importer = .ok text ∧ Directives.ofText text = .ok d ∧ target ∈ d.targets ∧
    name = d.nameOf target

/-- Whether a failure is one of the assembly's own, or that of a path which was refused or of bytes
which were read on the way. -/
inductive Blames (s : Sources) (events : List Event) : Failure → Prop
  | own (e : AssemblyError) : Blames s events (.assembly e)
  | untested {name : String} {refusal : NulInPath} (hname : .testing name ∈ events)
      (hin : s.isInside name = .error refusal) : Blames s events (.refused refusal)
  | unopened {name : String} {refusal : NulInPath} (hname : name ∈ readNames events)
      (hread : s.read name = .error (.refused refusal)) : Blames s events (.refused refusal)
  | bytes {name : String} {fault : Text.Utf8Fault} (hname : name ∈ readNames events)
      (hread : s.read name = .error (.bytes fault)) : Blames s events (.undecodable fault)

variable {s : Sources}

theorem Blames.mono {events events' : List Event} {f : Failure} (h : s.Blames events f)
    (hsub : events ⊆ events') : s.Blames events' f := by
  have hread : readNames events ⊆ readNames events' := List.filterMap_subset _ hsub
  cases h with
  | own e => exact .own e
  | untested hname hin => exact .untested (hsub hname) hin
  | unopened hname hfile => exact .unopened (hread hname) hfile
  | bytes hname hfile => exact .bytes (hread hname) hfile

theorem Walks.blames {file : String} {d : Directives} {stack targets : List String}
    {text : List Char} {known : Expanded} {events : List Event} {f : Failure}
    (h : s.Walks file d stack targets text known events (.error f)) : s.Blames events f := by
  generalize hr : (Except.error f : Except Failure (List Char × Expanded)) = r at h
  induction h with
  | done => cases hr
  | outside | cycle | unreadable | declaredTwice =>
    obtain rfl := Except.error.inj hr
    exact .own _
  | refused hin =>
    obtain rfl := Except.error.inj hr
    exact .untested List.mem_cons_self hin
  | unopened _ _ _ hread =>
    obtain rfl := Except.error.inj hr
    exact .unopened (by simp) hread
  | undecodable _ _ _ hread =>
    obtain rfl := Except.error.inj hr
    exact .bytes (by simp) hread
  | kept _ _ _ _ ih | failed _ _ _ _ _ _ ih | expanded _ _ _ _ _ _ _ _ ih =>
    exact (ih hr).mono fun _ he => by simp [he]

theorem Resolves.blames {template : String} {events : List Event} {f : Failure}
    (h : s.Resolves template events (.error f)) : s.Blames events f := by
  generalize hr : (Except.error f : Except Failure (List Char)) = r at h
  cases h with
  | outside | unreadable | declaredTwice =>
    obtain rfl := Except.error.inj hr
    exact .own _
  | refused hin =>
    obtain rfl := Except.error.inj hr
    exact .untested List.mem_cons_self hin
  | unopened _ hread =>
    obtain rfl := Except.error.inj hr
    exact .unopened (by simp) hread
  | undecodable _ hread =>
    obtain rfl := Except.error.inj hr
    exact .bytes (by simp) hread
  | @expanded _ _ _ result _ _ _ walk =>
    cases result with
    | ok x => cases hr
    | error e =>
      obtain rfl := Except.error.inj hr
      exact walk.blames.mono fun _ he => by simp [he]

/-! ## What cannot be read -/

/-- The failure of a target whose file cannot be read. -/
def importFailure (s : Sources) (importer target name : String) : ReadFault → Failure
  | .file e => .assembly (.missingImport importer target (s.path name) (some e))
  | .refused refusal => .refused refusal
  | .bytes fault => .undecodable fault

/-- The failure of a template that cannot be read. -/
def templateFailure (s : Sources) (name : String) : ReadFault → Failure
  | .file e => .assembly (.missingTemplate (s.path name) (some e))
  | .refused refusal => .refused refusal
  | .bytes fault => .undecodable fault

variable {name : String} {fault : ReadFault}

theorem Walks.error_of_unreadable {file : String} {d : Directives} {stack targets : List String}
    {text : List Char} {known : Expanded} {events : List Event}
    {r : Except Failure (List Char × Expanded)}
    (h : s.Walks file d stack targets text known events r)
    (hnames : ∀ target ∈ targets, s.Names file target (d.nameOf target))
    (hname : name ∈ readNames events) (hread : s.read name = .error fault) :
    ∃ importer target, s.Names importer target name ∧
      r = .error (s.importFailure importer target name fault) := by
  induction h with
  | done | refused | outside | cycle => simp [readNames] at hname
  | declaredTwice _ _ _ hfile =>
    obtain rfl : name = _ := by simpa [readNames] using hname
    cases hread.symm.trans hfile
  | unreadable _ _ _ hfile | unopened _ _ _ hfile | undecodable _ _ _ hfile =>
    obtain rfl : name = _ := by simpa [readNames] using hname
    obtain rfl := Except.error.inj (hread.symm.trans hfile)
    exact ⟨_, _, hnames _ List.mem_cons_self, rfl⟩
  | kept _ _ _ _ ih => exact ih (fun t ht => hnames t (List.mem_cons_of_mem _ ht)) hname
  | failed _ _ _ hfile hscan _ ih =>
    rcases List.mem_cons.1 hname with rfl | hname
    · cases hread.symm.trans hfile
    · exact ih (fun t ht => ⟨_, _, hfile, hscan, ht, rfl⟩) hname
  | expanded _ _ _ hfile hscan _ _ ihsub ih =>
    simp only [readNames_testing, readNames_reading, readNames_append, readNames_expanding,
      List.mem_cons, List.mem_append] at hname
    rcases hname with rfl | hname | hname
    · cases hread.symm.trans hfile
    · obtain ⟨_, _, -, hr⟩ := ihsub (fun t ht => ⟨_, _, hfile, hscan, ht, rfl⟩) hname
      cases hr
    · exact ih (fun t ht => hnames t (List.mem_cons_of_mem _ ht)) hname

/-- Whoever named a file that cannot be read is told: for the template it is itself. -/
theorem Resolves.error_of_unreadable {template : String} {events : List Event}
    {r : Except Failure (List Char)} (h : s.Resolves template events r)
    (hname : name ∈ readNames events) (hread : s.read name = .error fault) :
    (name = Path.normalise template ∧ r = .error (s.templateFailure name fault)) ∨
      ∃ importer target, s.Names importer target name ∧
        r = .error (s.importFailure importer target name fault) := by
  cases h with
  | refused | outside => simp [readNames] at hname
  | declaredTwice _ hfile =>
    obtain rfl : name = _ := by simpa [readNames] using hname
    cases hread.symm.trans hfile
  | unreadable _ hfile | unopened _ hfile | undecodable _ hfile =>
    obtain rfl : name = _ := by simpa [readNames] using hname
    obtain rfl := Except.error.inj (hread.symm.trans hfile)
    exact .inl ⟨rfl, rfl⟩
  | expanded _ hfile hscan walk =>
    rcases List.mem_cons.1 hname with rfl | hname
    · cases hread.symm.trans hfile
    · obtain ⟨importer, target, hnames, rfl⟩ :=
        walk.error_of_unreadable (fun t ht => ⟨_, _, hfile, hscan, ht, rfl⟩) hname hread
      exact .inr ⟨importer, target, hnames, rfl⟩

/-- What is told of a file that cannot be read comes out, if it is the same wherever the file was
named. -/
theorem Resolves.error_of_same {template : String} {events : List Event}
    {r : Except Failure (List Char)} {f : Failure} (h : s.Resolves template events r)
    (hname : name ∈ readNames events) (hread : s.read name = .error fault)
    (htemplate : s.templateFailure name fault = f)
    (himport : ∀ importer target, s.importFailure importer target name fault = f) :
    r = .error f := by
  rcases h.error_of_unreadable hname hread with ⟨-, hr⟩ | ⟨importer, target, -, hr⟩
  · rw [hr, htemplate]
  · rw [hr, himport]

/-! ## What is refused -/

theorem Walks.error_of_refused {file : String} {d : Directives} {stack targets : List String}
    {text : List Char} {known : Expanded} {events : List Event}
    {r : Except Failure (List Char × Expanded)} {refusal : NulInPath}
    (h : s.Walks file d stack targets text known events r) (hname : .testing name ∈ events)
    (hin : s.isInside name = .error refusal) : r = .error (.refused refusal) := by
  -- of the names that are tested, only the last one can be refused
  induction h with
  | done => cases hname
  | refused hinside =>
    obtain rfl : name = _ := by simpa using hname
    obtain rfl := Except.error.inj (hin.symm.trans hinside)
    rfl
  | outside hinside | cycle hinside | unreadable hinside | unopened hinside | undecodable hinside
  | declaredTwice hinside =>
    obtain rfl : name = _ := by simpa using hname
    cases hin.symm.trans hinside
  | kept hinside _ _ _ ih =>
    simp only [List.mem_cons, Event.testing.injEq, reduceCtorEq, false_or] at hname
    rcases hname with rfl | hname
    · cases hin.symm.trans hinside
    · exact ih hname
  | failed hinside _ _ _ _ _ ih =>
    simp only [List.mem_cons, Event.testing.injEq, reduceCtorEq, false_or] at hname
    rcases hname with rfl | hname
    · cases hin.symm.trans hinside
    · exact congrArg _ (Except.error.inj (ih hname))
  | expanded hinside _ _ _ _ _ _ ihsub ih =>
    simp only [List.mem_cons, List.mem_append, Event.testing.injEq, reduceCtorEq, false_or] at hname
    rcases hname with rfl | hname | hname
    · cases hin.symm.trans hinside
    · cases ihsub hname
    · exact ih hname

theorem Resolves.error_of_refused {template : String} {events : List Event}
    {r : Except Failure (List Char)} {refusal : NulInPath} (h : s.Resolves template events r)
    (hname : .testing name ∈ events) (hin : s.isInside name = .error refusal) :
    r = .error (.refused refusal) := by
  cases h with
  | refused hinside =>
    obtain rfl : name = _ := by simpa using hname
    obtain rfl := Except.error.inj (hin.symm.trans hinside)
    rfl
  | outside hinside | unreadable hinside | unopened hinside | undecodable hinside
  | declaredTwice hinside =>
    obtain rfl : name = _ := by simpa using hname
    cases hin.symm.trans hinside
  | expanded hinside _ _ walk =>
    simp only [List.mem_cons, Event.testing.injEq, reduceCtorEq, false_or] at hname
    rcases hname with rfl | hname
    · cases hin.symm.trans hinside
    · rw [walk.error_of_refused hname hin]
      rfl

/-- Every name that is read was tested. -/
theorem Walks.testing_of_mem_readNames {file : String} {d : Directives}
    {stack targets : List String} {text : List Char} {known : Expanded} {events : List Event}
    {r : Except Failure (List Char × Expanded)}
    (h : s.Walks file d stack targets text known events r) (hname : name ∈ readNames events) :
    .testing name ∈ events := by
  induction h with
  | done | refused | outside | cycle => simp [readNames] at hname
  | unreadable | unopened | undecodable | declaredTwice =>
    obtain rfl : name = _ := by simpa [readNames] using hname
    exact List.mem_cons_self
  | kept _ _ _ _ ih => simp [ih hname]
  | failed _ _ _ _ _ _ ih =>
    rcases List.mem_cons.1 hname with rfl | hname
    · exact List.mem_cons_self
    · simp [ih hname]
  | expanded _ _ _ _ _ _ _ ihsub ih =>
    simp only [readNames_testing, readNames_reading, readNames_append, readNames_expanding,
      List.mem_cons, List.mem_append] at hname
    rcases hname with rfl | hname | hname
    · exact List.mem_cons_self
    · simp [ihsub hname]
    · simp [ih hname]

theorem Resolves.testing_of_mem_readNames {template : String} {events : List Event}
    {r : Except Failure (List Char)} (h : s.Resolves template events r)
    (hname : name ∈ readNames events) : .testing name ∈ events := by
  cases h with
  | refused | outside => simp [readNames] at hname
  | unreadable | unopened | undecodable | declaredTwice =>
    obtain rfl : name = _ := by simpa [readNames] using hname
    exact List.mem_cons_self
  | expanded _ _ _ walk =>
    rcases List.mem_cons.1 hname with rfl | hname
    · exact List.mem_cons_self
    · simp [walk.testing_of_mem_readNames hname]

end Sources

/-! ## From the text to the module -/

theorem FileTree.readText_eq_file_iff {t : FileTree} {path : String} {e : FileError} :
    t.readText path = .error (.file e) ↔ t.read path = .error (.system e) := by
  unfold readText
  cases t.read path with
  | error fault => cases fault <;> simp
  | ok bytes => cases h : textOfBytes bytes <;> simp [h]

theorem FileTree.readText_eq_refused_iff {t : FileTree} {path : String} {refusal : NulInPath} :
    t.readText path = .error (.refused refusal) ↔ Path.holdsNul path = true := by
  rw [← @read_eq_refused_iff t path refusal]
  unfold readText
  cases t.read path with
  | error fault => cases fault <;> simp
  | ok bytes => cases h : textOfBytes bytes <;> simp [h]

theorem FileTree.readText_eq_bytes_iff {t : FileTree} {path : String} {fault : Text.Utf8Fault} :
    t.readText path = .error (.bytes fault) ↔
      ∃ bytes, t.read path = .ok bytes ∧ Text.decode bytes = .error fault := by
  unfold readText textOfBytes
  cases t.read path with
  | error fault => cases fault <;> simp
  | ok bytes => cases h : Text.decode bytes <;> simp [Except.map, h]

namespace Config

variable (c : Config) (t : FileTree) (template : String) (statement? : Option Statement)

/-- A rule can be put in its place unless the placeholder does not stand in the text once. -/
theorem splice_eq_error_iff {text : List Char} {s : Statement} {file? : Option String}
    {f : Failure} :
    (c.splice text (.rule (.statement s)) file?).outcome = .error f ↔
      Text.count c.placeholder.toList text ≠ 1 ∧
        f = .assembly (.placeholderCount c.placeholder (Text.count c.placeholder.toList text)
          file?) := by
  rw [splice]
  by_cases hcount : Text.count c.placeholder.toList text = 1
  · simp [hcount, Value.asRule, pure]
  · simp [hcount, Told.failWith, eq_comm]

theorem compose_eq_error_iff {f : Failure} :
    (c.compose t template (.ofStatement? statement?)).outcome = .error f ↔
      (c.resolve t template).outcome = .error f ∨
        ∃ text, (c.resolve t template).outcome = .ok text ∧ statement?.isSome ∧
          Text.count c.placeholder.toList text ≠ 1 ∧
            f = .assembly (.placeholderCount c.placeholder
              (Text.count c.placeholder.toList text) (some template)) := by
  cases statement? with
  | none =>
    rw [Value.ofStatement?, compose, Told.outcome_bind_eq_error_iff]
    refine or_congr_right (exists_congr fun text => ?_)
    by_cases hleft : Text.occurs c.placeholder.toList text = true
    · simp [hleft, Told.tell, pure, bind, Told.andThen]
    · simp [hleft, pure]
  | some s =>
    show (c.resolveWithRule t template (.rule (.statement s))).outcome = .error f ↔ _
    rw [resolveWithRule, Told.outcome_bind_eq_error_iff]
    simp [splice_eq_error_iff]

/-- The failure of a copy that cannot be written. -/
def copyFailure : OpenFault FileError → Failure
  | .refused refusal => .refused refusal
  | .system e => .assembly (.unwritableCopy (c.debugPath template) e)

theorem keepCopy_eq_error_iff {text : List Char} {f : Failure} :
    (c.keepCopy t template text).1.outcome = .error f ↔ c.debugShader = true ∧
      ∃ fault, t.write (c.debugPath template) (Text.encode text) = .error fault ∧
        f = c.copyFailure template fault := by
  rw [keepCopy]
  split
  · rename_i hdebug
    rcases hwrite : t.write (c.debugPath template) (Text.encode text) with fault | t'
    · cases fault <;> simp [writeCopy, hwrite, hdebug, copyFailure, Told.fail, Told.failWith, bind,
        Told.andThen, eq_comm]
    · simp [writeCopy, hwrite, pure, bind, Told.andThen]
  · rename_i hdebug
    simp [hdebug, pure]

theorem assemble_eq_error_iff {rule : Value} {label? : Option String} {f : Failure} :
    (c.assemble t template rule label?).1.outcome = .error f ↔
      (c.compose t template rule).outcome = .error f ∨
        ∃ text, (c.compose t template rule).outcome = .ok text ∧
          (c.keepCopy t template text).1.outcome = .error f := by
  rw [assemble]
  cases hcomposed : (c.compose t template rule).outcome with
  | error e => simp
  | ok text =>
    dsimp only
    rw [Told.bind_of_ok hcomposed]
    simp [Told.outcome_bind_eq_error_iff, pure]

theorem assemble_eq_error_of_resolve {label? : Option String} {f : Failure}
    (h : (c.resolve t template).outcome = .error f) :
    (c.assemble t template (.ofStatement? statement?) label?).1.outcome = .error f :=
  (c.assemble_eq_error_iff t template).2
    (.inl ((c.compose_eq_error_iff t template statement?).2 (.inl h)))

theorem assemble_eq_error_of_keepCopy {text : List Char} {label? : Option String} {f : Failure}
    (htext : (c.compose t template (.ofStatement? statement?)).outcome = .ok text)
    (h : (c.keepCopy t template text).1.outcome = .error f) :
    (c.assemble t template (.ofStatement? statement?) label?).1.outcome = .error f :=
  (c.assemble_eq_error_iff t template).2 (.inr ⟨text, htext, h⟩)

/-! ## Ways to fail that are not the assembly's own -/

/-- Whether every file that is read when a template is resolved holds text. -/
def ReadsTextOnly : Prop :=
  ∀ name ∈ Sources.readNames (c.resolve t template).events, ∀ bytes,
    t.read (c.assetPath name) = .ok bytes → ∃ text, Text.decode bytes = .ok text

/-- Whether no path is refused when a shader is assembled: none that is tested or read, and not that
of the copy if one is to be written. -/
structure Unrefused : Prop where
  tested : ∀ name, .testing name ∈ (c.resolve t template).events →
    ∃ inside, c.isInside t name = .ok inside
  read : ∀ name ∈ Sources.readNames (c.resolve t template).events,
    Path.holdsNul (c.assetPath name) = false
  written : c.debugShader = true →
    (∃ text, (c.compose t template (.ofStatement? statement?)).outcome = .ok text) →
      Path.holdsNul (c.debugPath template) = false

/-- A failure of the assembly is one of its own kinds, or it is that of resolving the template, or
the path of the copy is refused. -/
theorem blames_of_assemble {label? : Option String} {f : Failure}
    (h : (c.assemble t template (.ofStatement? statement?) label?).1.outcome = .error f) :
    (c.sources t).Blames (c.resolve t template).events f ∨
      c.debugShader = true ∧
        (∃ text, (c.compose t template (.ofStatement? statement?)).outcome = .ok text) ∧
        Path.holdsNul (c.debugPath template) = true ∧ f = .refused .nulInPath := by
  rcases (c.assemble_eq_error_iff t template).1 h with h | ⟨text, htext, h⟩
  · rcases (c.compose_eq_error_iff t template statement?).1 h with h | ⟨text, -, -, -, rfl⟩
    · exact .inl (Sources.Resolves.blames (h ▸ c.resolves t template))
    · exact .inl (.own _)
  · obtain ⟨hdebug, ⟨⟨⟩⟩ | e, hwrite, rfl⟩ := (c.keepCopy_eq_error_iff t template).1 h
    · exact .inr ⟨hdebug, ⟨text, htext⟩, FileTree.write_eq_refused_iff.1 hwrite, rfl⟩
    · exact .inl (.own _)

/-- A refusal comes out as it is, and there is none if no path is refused. -/
theorem exists_refused_iff {label? : Option String} :
    (∃ refusal, (c.assemble t template (.ofStatement? statement?) label?).1.outcome =
        .error (.refused refusal)) ↔ ¬ c.Unrefused t template statement? := by
  have hresolves := c.resolves t template
  constructor
  · rintro ⟨refusal, h⟩ hun
    rcases c.blames_of_assemble t template statement? h with hblames | ⟨hdebug, htext, hnul, -⟩
    · cases hblames with
      | untested hname hin =>
        obtain ⟨inside, hok⟩ := hun.tested _ hname
        cases hin.symm.trans hok
      | unopened hname hread =>
        have hnul := FileTree.readText_eq_refused_iff.1 hread
        cases hnul.symm.trans (hun.read _ hname)
    · cases hnul.symm.trans (hun.written hdebug htext)
  · contrapose!
    intro h
    refine ⟨fun name hname => ?_, fun name hname => ?_, fun hdebug ⟨text, htext⟩ => ?_⟩
    · cases hin : c.isInside t name with
      | ok inside => exact ⟨inside, rfl⟩
      | error refusal =>
        exact absurd (c.assemble_eq_error_of_resolve t template statement?
          (hresolves.error_of_refused hname hin)) (h refusal)
    · rw [← Bool.not_eq_true]
      intro hnul
      exact h .nulInPath (c.assemble_eq_error_of_resolve t template statement?
        (hresolves.error_of_same hname (FileTree.readText_eq_refused_iff.2 hnul) rfl
          fun _ _ => rfl))
    · rw [← Bool.not_eq_true]
      intro hnul
      exact h .nulInPath (c.assemble_eq_error_of_keepCopy t template statement? htext
        ((c.keepCopy_eq_error_iff t template).2
          ⟨hdebug, _, FileTree.write_eq_refused_iff.2 hnul, rfl⟩))

/-- No path is refused if NUL stands in none, nor in the target of a link. -/
theorem unrefused_of_no_nul (ht : t.LinksWithoutNul) (hroot : Path.holdsNul c.assetRoot = false)
    (htested : ∀ name, .testing name ∈ (c.resolve t template).events →
      Path.holdsNul (c.assetPath name) = false)
    (hcopy : c.debugShader = true → Path.holdsNul (c.debugPath template) = false) :
    c.Unrefused t template statement? where
  tested := fun name hname => FileTree.exists_isInside ht hroot (htested name hname)
  read := fun name hname => htested name ((c.resolves t template).testing_of_mem_readNames hname)
  written := fun hdebug _ => hcopy hdebug

theorem undecodable_of_read {label? : Option String} {name : String}
    (hname : name ∈ Sources.readNames (c.resolve t template).events) {bytes : List UInt8}
    {fault : Text.Utf8Fault} (hread : t.read (c.assetPath name) = .ok bytes)
    (hdecode : Text.decode bytes = .error fault) :
    (c.assemble t template (.ofStatement? statement?) label?).1.outcome =
      .error (.undecodable fault) :=
  c.assemble_eq_error_of_resolve t template statement? ((c.resolves t template).error_of_same hname
    (FileTree.readText_eq_bytes_iff.2 ⟨bytes, hread, hdecode⟩) rfl fun _ _ => rfl)

theorem eq_assembly_of_unrefused (hun : c.Unrefused t template statement?)
    (htext : c.ReadsTextOnly t template) {label? : Option String} {f : Failure}
    (h : (c.assemble t template (.ofStatement? statement?) label?).1.outcome = .error f) :
    ∃ e, f = .assembly e := by
  cases f with
  | assembly e => exact ⟨e, rfl⟩
  | refused refusal =>
    exact absurd hun ((c.exists_refused_iff t template statement?).1 ⟨refusal, h⟩)
  | undecodable fault =>
    rcases c.blames_of_assemble t template statement? h with hblames | ⟨-, -, -, hrefused⟩
    · cases hblames with
      | bytes hname hread =>
        obtain ⟨bytes, hread, hdecode⟩ := FileTree.readText_eq_bytes_iff.1 hread
        obtain ⟨text, hok⟩ := htext _ hname bytes hread
        cases hdecode.symm.trans hok
    · cases hrefused
  | notARule fault =>
    rcases c.blames_of_assemble t template statement? h with hblames | ⟨-, -, -, hrefused⟩
    · cases hblames
    · cases hrefused

theorem load_eq_error {σ ε α : Type} {makeModule : List Char → Option String → σ → Except ε α × σ}
    {state : σ} {rule : Value} {label? : Option String} {f : LoadFailure ε}
    (h : (c.load t makeModule state template rule label?).outcome = .error f) :
    (∃ e, f = .assembly e ∧ (c.assemble t template rule label?).1.outcome = .error e) ∨
      ∃ e source, f = .factory e ∧ (c.assemble t template rule label?).1.outcome = .ok source ∧
        (makeModule source.text label? state).1 = .error e := by
  rw [load] at h
  cases hassembled : (c.assemble t template rule label?).1.outcome with
  | error e =>
    simp only [hassembled] at h
    exact .inl ⟨e, (Except.error.inj h).symm, rfl⟩
  | ok source =>
    simp only [hassembled] at h
    cases hmade : (makeModule source.text label? state).1 with
    | ok a => simp [hmade, Except.mapError] at h
    | error e =>
      refine .inr ⟨e, source, ?_, rfl, hmade⟩
      simpa [hmade, Except.mapError, eq_comm] using h

/-- Assembling fails in a way of its own, or because a path is refused, or by bytes that are no
text: the first always exactly when no path is refused and all files that are read hold text.  A
path is refused only if NUL stands in it or in the target of a link.  What cannot be read ends it,
and whoever named the file is told.  Loading adds nothing but the failures of what makes the module.
-/
theorem assemble_fails_in_own_way_iff (label? : Option String) :
    ((∀ f, (c.assemble t template (.ofStatement? statement?) label?).1.outcome = .error f →
        ∃ e, f = .assembly e) ↔
      c.Unrefused t template statement? ∧ c.ReadsTextOnly t template) ∧
    ((∃ refusal, (c.assemble t template (.ofStatement? statement?) label?).1.outcome =
        .error (.refused refusal)) ↔ ¬ c.Unrefused t template statement?) ∧
    (t.LinksWithoutNul → Path.holdsNul c.assetRoot = false →
      (∀ name, .testing name ∈ (c.resolve t template).events →
        Path.holdsNul (c.assetPath name) = false) →
      (c.debugShader = true → Path.holdsNul (c.debugPath template) = false) →
        c.Unrefused t template statement?) ∧
    (∀ name ∈ Sources.readNames (c.resolve t template).events,
      (∀ bytes fault, t.read (c.assetPath name) = .ok bytes → Text.decode bytes = .error fault →
        (c.assemble t template (.ofStatement? statement?) label?).1.outcome =
          .error (.undecodable fault)) ∧
      ∀ e, t.read (c.assetPath name) = .error (.system e) →
        (name = Path.normalise template ∧
          (c.assemble t template (.ofStatement? statement?) label?).1.outcome =
            .error (.assembly (.missingTemplate (c.assetPath name) (some e)))) ∨
        ∃ importer target, (c.sources t).Names importer target name ∧
          (c.assemble t template (.ofStatement? statement?) label?).1.outcome =
            .error (.assembly (.missingImport importer target (c.assetPath name) (some e)))) ∧
    ∀ (σ ε α : Type) (makeModule : List Char → Option String → σ → Except ε α × σ) (state : σ)
      (f : LoadFailure ε),
      (c.load t makeModule state template (.ofStatement? statement?) label?).outcome = .error f →
        (∃ e, f = .assembly e ∧
          (c.assemble t template (.ofStatement? statement?) label?).1.outcome = .error e) ∨
        ∃ e source, f = .factory e ∧
          (c.assemble t template (.ofStatement? statement?) label?).1.outcome = .ok source ∧
          (makeModule source.text label? state).1 = .error e := by
  refine ⟨⟨fun h => ⟨?_, fun name hname bytes hread => ?_⟩, fun h f hf =>
      c.eq_assembly_of_unrefused t template statement? h.1 h.2 hf⟩,
    c.exists_refused_iff t template statement?, c.unrefused_of_no_nul t template statement?,
    fun name hname => ⟨fun bytes fault => c.undecodable_of_read t template statement? hname,
      fun e hread => ?_⟩, fun σ ε α makeModule state f hf => c.load_eq_error t template hf⟩
  · by_contra hun
    obtain ⟨refusal, hrefused⟩ := (c.exists_refused_iff t template statement?).2 hun
    obtain ⟨e, he⟩ := h _ hrefused
    cases he
  · cases hdecode : Text.decode bytes with
    | ok text => exact ⟨text, rfl⟩
    | error fault =>
      obtain ⟨e, he⟩ := h _ (c.undecodable_of_read t template statement? hname hread hdecode)
      cases he
  · have hfile := (c.resolves t template).error_of_unreadable hname
      (FileTree.readText_eq_file_iff.2 hread)
    refine hfile.imp (fun h => ⟨h.1, c.assemble_eq_error_of_resolve t template statement? h.2⟩) ?_
    rintro ⟨importer, target, hnames, h⟩
    exact ⟨importer, target, hnames, c.assemble_eq_error_of_resolve t template statement? h⟩

end Config

/-- Files of which one holds a byte that no text begins with. -/
def FileTree.scrambled : FileTree := ⟨[], [(["main"], .file [0xFF])]⟩

theorem Config.assemble_scrambled :
    ((Config.mk "/" false "").assemble .scrambled "main" .nothing none).1.outcome =
        .error (.undecodable ⟨0xFF, 0, 1, .invalidStart⟩) ∧
      ∀ e, Failure.undecodable ⟨0xFF, 0, 1, .invalidStart⟩ ≠ .assembly e :=
  ⟨rfl, fun _ h => by cases h⟩

end CellShader
