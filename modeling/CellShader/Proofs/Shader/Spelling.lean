import CellShader.Proofs.Shader.CopyPlace

/-!
# How a template is spelled

What a template is resolved to depends on its normal form (`Config.outcome_resolve_congr`), while
its copy has a path that is spelled as the template is.  So spellings with one normal form come to
the same exactly if all of their copies can be written or none of them, and all of them are refused
or none (`Config.result_of_normalise_eq`).  Needless pieces in front of a name do no harm, but a
step back over a name does if there is no directory of that name or if NUL stands in it.
-/

namespace CellShader

/-- The kinds of failure that can be told apart without looking at a message. -/
inductive FailureKind
  | missingTemplate
  | missingImport
  | duplicatePath
  | importCycle
  | placeholderCount
  | unwritableCopy
  | refused
  | undecodable
  | notARule (kind : FaultKind)
  deriving DecidableEq, Repr

/-- The kind of an error of the assembly. -/
def AssemblyError.kind : AssemblyError → FailureKind
  | missingTemplate _ _ => .missingTemplate
  | missingImport _ _ _ _ => .missingImport
  | duplicatePath _ _ => .duplicatePath
  | importCycle _ => .importCycle
  | placeholderCount _ _ _ => .placeholderCount
  | unwritableCopy _ _ => .unwritableCopy

/-- The kind of a failure. -/
def Failure.kind : Failure → FailureKind
  | assembly e => e.kind
  | refused _ => .refused
  | undecodable _ => .undecodable
  | notARule fault => .notARule fault.kind

/-! ## What comes of a spelling -/

theorem cases_of_mapError_eq {ε ε' α : Type} {x y : Except ε α} {f : ε → ε'}
    (h : x.mapError f = y.mapError f) :
    (∃ a, x = .ok a ∧ y = .ok a) ∨ ∃ e e', x = .error e ∧ y = .error e' ∧ f e = f e' := by
  cases x with
  | error e =>
    cases y with
    | error e' => exact .inr ⟨e, e', rfl, rfl, Except.error.inj h⟩
    | ok a => cases h
  | ok a =>
    cases y with
    | error e' => cases h
    | ok a' => exact .inl ⟨a, rfl, congrArg _ (Except.ok.inj h).symm⟩

namespace Sources

variable (s : Sources) {a b : String}

/-- A template is looked for under its normal form, and its own spelling is told of only. -/
theorem outcome_resolve_congr (depth : Nat) (h : Path.normalise a = Path.normalise b) :
    (s.resolve depth a).outcome = (s.resolve depth b).outcome := by
  simp only [resolve, h]
  rcases s.isInside (Path.normalise b) with refusal | (_ | _)
  · rfl
  · rfl
  · rw [Told.tell_bind, Told.tell_bind]
    dsimp only
    split <;> rfl

end Sources

namespace Config

variable (c : Config) (t : FileTree) (rule : Value) {a b : String}

theorem outcome_resolve_congr (h : Path.normalise a = Path.normalise b) :
    (c.resolve t a).outcome = (c.resolve t b).outcome :=
  (c.sources t).outcome_resolve_congr _ h

theorem kind_outcome_splice (text : List Char) (file? file?' : Option String) :
    (c.splice text rule file?).outcome.mapError Failure.kind =
      (c.splice text rule file?').outcome.mapError Failure.kind := by
  unfold splice
  dsimp only
  split <;> rfl

theorem kind_textOf_congr (h : Path.normalise a = Path.normalise b) :
    (c.textOf t a rule).mapError Failure.kind = (c.textOf t b rule).mapError Failure.kind := by
  have hresolve := c.outcome_resolve_congr t h
  unfold textOf
  split
  · rw [hresolve]
  · rw [resolveWithRule, resolveWithRule]
    cases hb : (c.resolve t b).outcome with
    | error f => rw [Told.bind_of_error (hresolve.trans hb), Told.bind_of_error hb]
    | ok text =>
      rw [Told.bind_of_ok (hresolve.trans hb), Told.bind_of_ok hb]
      exact c.kind_outcome_splice rule text _ _

/-- Spellings with one normal form have the same text, or none for the same kind of reason. -/
theorem textOf_cases (h : Path.normalise a = Path.normalise b) :
    (∃ text, c.textOf t a rule = .ok text ∧ c.textOf t b rule = .ok text) ∨
      ∃ f f', c.textOf t a rule = .error f ∧ c.textOf t b rule = .error f' ∧ f.kind = f'.kind :=
  cases_of_mapError_eq (c.kind_textOf_congr t rule h)

/-! ## What comes of it with a copy -/

variable (label? : Option String) {template : String}

/-- What assembling a shader comes to: its text, or the kind of the failure. -/
def result (template : String) : Except FailureKind (List Char) :=
  ((c.assemble t template rule label?).1.outcome.map ShaderSource.text).mapError Failure.kind

theorem result_of_error {f : Failure} (h : c.textOf t template rule = .error f) :
    c.result t rule label? template = .error f.kind := by
  rw [result, c.outcome_of_textOf t template rule label? h]
  rfl

/-- The kind of the failure to write the copy of a template. -/
def copyFailureKind (template : String) : FailureKind :=
  if Path.holdsNul (c.debugPath template) then .refused else .unwritableCopy

theorem kind_copyFailure {bytes : List UInt8} {fault : OpenFault FileError}
    (hwrite : t.write (c.debugPath template) bytes = .error fault) :
    (c.copyFailure template fault).kind = c.copyFailureKind template := by
  unfold copyFailureKind
  cases fault with
  | refused refusal =>
    rw [if_pos (FileTree.write_eq_refused_iff.1 hwrite)]
    rfl
  | system e =>
    rw [if_neg]
    · rfl
    · intro hnul
      have hrefused : t.write (c.debugPath template) bytes = .error (.refused .nulInPath) :=
        FileTree.write_eq_refused_iff.2 hnul
      cases hwrite.symm.trans hrefused

/-- A text is what its template comes to, unless there has to be a copy and its path is refused or
cannot be written to. -/
theorem result_cases {text : List Char} (h : c.textOf t template rule = .ok text) :
    (c.debugShader = true → t.IsWritable (c.debugPath template)) ∧
        c.result t rule label? template = .ok text ∨
      c.debugShader = true ∧ ¬ t.IsWritable (c.debugPath template) ∧
        c.result t rule label? template = .error (c.copyFailureKind template) := by
  obtain ⟨outcome, t', houtcome, -, hends⟩ := c.exists_assembles t template rule label?
  rw [result, houtcome, ← FileTree.exists_write_iff (Text.encode text)]
  cases hends with
  | failed hfailed => cases h.symm.trans hfailed
  | unwritable htext hdebug hwrite =>
    obtain rfl := Except.ok.inj (h.symm.trans htext)
    refine .inr ⟨hdebug, ?_, congrArg Except.error (c.kind_copyFailure t hwrite)⟩
    rintro ⟨t', hwritten⟩
    cases hwrite.symm.trans hwritten
  | copied htext _ hwrite =>
    obtain rfl := Except.ok.inj (h.symm.trans htext)
    exact .inl ⟨fun _ => ⟨_, hwrite⟩, rfl⟩
  | uncopied htext hdebug =>
    obtain rfl := Except.ok.inj (h.symm.trans htext)
    refine .inl ⟨fun hdebug' => ?_, rfl⟩
    cases hdebug.symm.trans hdebug'

theorem result_eq_iff (h : Path.normalise a = Path.normalise b) :
    c.result t rule label? a = c.result t rule label? b ↔
      (c.debugShader = true → (∃ text, c.textOf t a rule = .ok text) →
        (t.IsWritable (c.debugPath a) ↔ t.IsWritable (c.debugPath b)) ∧
          Path.holdsNul (c.debugPath a) = Path.holdsNul (c.debugPath b)) := by
  rcases c.textOf_cases t rule h with ⟨text, ha, hb⟩ | ⟨f, f', ha, hb, hkind⟩
  · rcases c.result_cases t rule label? ha with ⟨hcopy, hresult⟩ | ⟨hdebug, hcopy, hresult⟩ <;>
      rcases c.result_cases t rule label? hb with ⟨hcopy', hresult'⟩ | ⟨hdebug', hcopy', hresult'⟩
    · rw [hresult, hresult']
      refine iff_of_true rfl fun hdebug _ => ⟨iff_of_true (hcopy hdebug) (hcopy' hdebug), ?_⟩
      rw [(hcopy hdebug).holdsNul_eq_false, (hcopy' hdebug).holdsNul_eq_false]
    · rw [hresult, hresult']
      refine iff_of_false (fun heq => by cases heq) fun hsame => ?_
      exact hcopy' ((hsame hdebug' ⟨text, ha⟩).1.1 (hcopy hdebug'))
    · rw [hresult, hresult']
      refine iff_of_false (fun heq => by cases heq) fun hsame => ?_
      exact hcopy ((hsame hdebug ⟨text, ha⟩).1.2 (hcopy' hdebug))
    · rw [hresult, hresult', copyFailureKind, copyFailureKind]
      cases Path.holdsNul (c.debugPath a) <;> cases Path.holdsNul (c.debugPath b) <;>
        simp [hdebug, hcopy, hcopy', ha]
  · rw [c.result_of_error t rule label? ha, c.result_of_error t rule label? hb, hkind]
    simp [ha]

/-- Of two results that differ, one is the failure to write its copy. -/
theorem copyFailure_of_result_ne (h : Path.normalise a = Path.normalise b)
    (hne : c.result t rule label? a ≠ c.result t rule label? b) :
    c.result t rule label? a = .error (c.copyFailureKind a) ∨
      c.result t rule label? b = .error (c.copyFailureKind b) := by
  rcases c.textOf_cases t rule h with ⟨text, ha, hb⟩ | ⟨f, f', ha, hb, hkind⟩
  · rcases c.result_cases t rule label? ha with ⟨-, hresult⟩ | ⟨-, -, hresult⟩
    · rcases c.result_cases t rule label? hb with ⟨-, hresult'⟩ | ⟨-, -, hresult'⟩
      · exact absurd (hresult.trans hresult'.symm) hne
      · exact .inr hresult'
    · exact .inl hresult
  · rw [c.result_of_error t rule label? ha, c.result_of_error t rule label? hb, hkind] at hne
    exact absurd rfl hne

end Config

/-! ## Needless pieces -/

namespace Config

variable (c : Config) (t : FileTree) {a b : String}

theorem endsInName_debugPath (template : String) :
    Path.EndsInName (Path.pieces (c.debugPath template)) := by
  obtain ⟨above, last, -, hpieces⟩ := c.exists_pieces_debugPath template
  rw [hpieces]
  exact Path.endsInName_concat _ (isName_append_copySuffix last template)

theorem copySuffix_congr (h : Path.lastPiece a = Path.lastPiece b) :
    copySuffix a = copySuffix b := by
  rw [copySuffix, copySuffix, copyExtension, copyExtension, Path.extension, Path.extension, h]

theorem debugPath_eq_join (template : String) :
    c.debugPath template = Path.join c.assetRoot (template ++ copySuffix template) := by
  rw [debugPath, String.append_assoc]
  rfl

theorem pieces_debugPath_congr (h : Path.steps (Path.pieces a) = Path.steps (Path.pieces b))
    (habsolute : Path.isAbsolute a = Path.isAbsolute b)
    (hends : Path.EndsInName (Path.pieces a)) (hends' : Path.EndsInName (Path.pieces b)) :
    Path.isAbsolute (c.debugPath a) = Path.isAbsolute (c.debugPath b) ∧
      Path.steps (Path.pieces (c.debugPath a)) = Path.steps (Path.pieces (c.debugPath b)) := by
  have hslash := slash_not_mem_copySuffix
  obtain ⟨up, last, hup, hcopy⟩ := Path.exists_pieces_append a (hslash a)
  obtain ⟨up', last', hup', hcopy'⟩ := Path.exists_pieces_append b (hslash b)
  -- the last pieces are the same, and so the copies have the same name
  have hlast : Path.IsName last := hends last (by simp [hup])
  have hlast' : Path.IsName last' := hends' last' (by simp [hup'])
  rw [hup, hup', Path.steps_concat up hlast, Path.steps_concat up' hlast'] at h
  obtain ⟨habove, hsame⟩ := List.append_inj' h rfl
  obtain rfl := List.singleton_inj.1 hsame
  have hsuffix : copySuffix a = copySuffix b :=
    copySuffix_congr ((Path.lastPiece_eq hup).trans (Path.lastPiece_eq hup').symm)
  have habsolute' : Path.isAbsolute (a ++ copySuffix a) = Path.isAbsolute (b ++ copySuffix b) := by
    rw [Path.isAbsolute_append a (hslash a), Path.isAbsolute_append b (hslash b), habsolute]
  obtain ⟨above, ha, hb, hjoin⟩ := Path.exists_pieces_join c.assetRoot habsolute'
  rw [debugPath_eq_join, debugPath_eq_join]
  refine ⟨hjoin, ?_⟩
  rw [ha, hb, hcopy, hcopy', hsuffix]
  simp only [Path.steps_append, habove]

/-- The copies of spellings that differ in needless pieces only, none of them last, have the same
place. -/
theorem locate_debugPath_congr (making : Bool) (h : Path.normalise a = Path.normalise b)
    (hup : ".." ∉ Path.pieces a) (hup' : ".." ∉ Path.pieces b)
    (hends : Path.EndsInName (Path.pieces a)) (hends' : Path.EndsInName (Path.pieces b))
    (hbytes : Text.byteCount (c.debugPath a) ≤ maxPathBytes)
    (hbytes' : Text.byteCount (c.debugPath b) ≤ maxPathBytes) :
    t.locate making (c.debugPath a) = t.locate making (c.debugPath b) := by
  obtain ⟨habsolute, hsteps⟩ := c.pieces_debugPath_congr
    (Path.steps_eq_of_normalise_eq h hup hup') (Path.isAbsolute_eq_of_normalise_eq h) hends hends'
  exact FileTree.locate_eq_of_steps_eq habsolute hsteps (c.endsInName_debugPath a)
    (c.endsInName_debugPath b) hbytes hbytes'

/-- Spellings with one normal form are resolved to the same.  With a copy to be written they come to
the same exactly if both copies can be written or neither, and both are refused or neither, wherever
there is a text at all.  So they do if they differ in needless pieces only, none of them last, and
are not too long. -/
theorem result_of_normalise_eq (rule : Value) (label? : Option String)
    (h : Path.normalise a = Path.normalise b) :
    (c.resolve t a).outcome = (c.resolve t b).outcome ∧
    (c.result t rule label? a = c.result t rule label? b ↔
      (c.debugShader = true → (∃ text, c.textOf t a rule = .ok text) →
        (t.IsWritable (c.debugPath a) ↔ t.IsWritable (c.debugPath b)) ∧
          Path.holdsNul (c.debugPath a) = Path.holdsNul (c.debugPath b))) ∧
    (c.result t rule label? a ≠ c.result t rule label? b →
      c.result t rule label? a = .error (c.copyFailureKind a) ∨
        c.result t rule label? b = .error (c.copyFailureKind b)) ∧
    (".." ∉ Path.pieces a → ".." ∉ Path.pieces b → Path.EndsInName (Path.pieces a) →
      Path.EndsInName (Path.pieces b) → Text.byteCount (c.debugPath a) ≤ maxPathBytes →
        Text.byteCount (c.debugPath b) ≤ maxPathBytes →
          c.result t rule label? a = c.result t rule label? b) := by
  refine ⟨c.outcome_resolve_congr t h, c.result_eq_iff t rule label? h,
    c.copyFailure_of_result_ne t rule label? h,
    fun hup hup' hends hends' hbytes hbytes' => (c.result_eq_iff t rule label? h).2 fun _ _ => ?_⟩
  have hlocate := c.locate_debugPath_congr t true h hup hup' hends hends' hbytes hbytes'
  refine ⟨by rw [FileTree.IsWritable, FileTree.IsWritable, hlocate], ?_⟩
  rw [Bool.eq_iff_iff, ← @FileTree.locate_eq_refused_iff t true _ .nulInPath, hlocate,
    FileTree.locate_eq_refused_iff]

end Config

/-- A template and nothing else. -/
def FileTree.single : FileTree where
  here := ["w"]
  entries := [(["w"], .directory), (["w", "assets"], .directory),
    (["w", "assets", "main"], .file (Text.encode "x".toList))]

theorem Config.result_single_doubled :
    Path.normalise ".//main" = Path.normalise "main" ∧
    (Config.mk "assets" true "").result .single .nothing none ".//main" = .ok "x".toList ∧
    (Config.mk "assets" true "").result .single .nothing none ".//main" =
      (Config.mk "assets" true "").result .single .nothing none "main" := by
  have h : Path.normalise ".//main" = Path.normalise "main" := by decide
  exact ⟨h, by decide +kernel, (result_of_normalise_eq _ _ _ _ h).2.2.2 (by decide) (by decide)
    (by decide) (by decide) (by decide) (by decide)⟩

/-- A template can be read through a directory that there is not, but its copy cannot be written
there. -/
theorem Config.result_single_back :
    Path.normalise "gone/../main" = Path.normalise "main" ∧
    (Config.mk "assets" true "").result .single .nothing none "main" = .ok "x".toList ∧
    (Config.mk "assets" true "").result .single .nothing none "gone/../main" =
      .error .unwritableCopy := by
  refine ⟨by decide, by decide +kernel, by decide +kernel⟩

end CellShader
