import CellShader.Proofs.Shader.Effects

/-!
# What the assembly depends on

A run tells of each question that it puts to its sources.  Sources that answer these questions alike
have the same run: `Sources.Follows` says so of one computation and another, and is kept by doing
one thing after the other (`Follows.bind`), so that stack, kept files and text are the same in both
runs at every step (`Sources.follows_expand`).  A copy that is written is no link and leaves all
answers as they were unless it was itself read (`Config.agrees_of_write`), and so a template can be
assembled again.
-/

namespace CellShader

namespace Sources

/-- Whether a second source gives the same answers to all that is asked in some steps. -/
structure Agrees (s s' : Sources) (events : List Event) : Prop where
  root_eq : s'.root = s.root
  isInside_eq : ∀ name, .testing name ∈ events → s'.isInside name = s.isInside name
  read_eq : ∀ name ∈ readNames events, s'.read name = s.read name

/-- Whether `y` is the same computation as `x` if the second source gives the same answers to all
that `x` asks. -/
def Follows {ε α : Type} (s s' : Sources) (y x : Told ε α) : Prop := s.Agrees s' x.events → y = x

variable {s s' : Sources} {ε α β : Type}

theorem Agrees.mono {events events' : List Event} (h : s.Agrees s' events')
    (hsub : events ⊆ events') : s.Agrees s' events where
  root_eq := h.root_eq
  isInside_eq := fun name hname => h.isInside_eq name (hsub hname)
  read_eq := fun name hname => h.read_eq name (List.filterMap_subset _ hsub hname)

theorem Agrees.path_eq {events : List Event} (h : s.Agrees s' events) (name : String) :
    s'.path name = s.path name := by
  rw [path, path, h.root_eq]

theorem Follows.refl (x : Told ε α) : s.Follows s' x x := fun _ => rfl

/-- In what comes after a computation, its questions are known to be answered alike. -/
theorem Follows.bind {x y : Told ε α} {f g : α → Told ε β} (hx : s.Follows s' y x)
    (hf : s.Agrees s' x.events → ∀ a, s.Follows s' (g a) (f a)) :
    s.Follows s' (y >>= g) (x >>= f) := by
  intro h
  cases houtcome : x.outcome with
  | error e =>
    rw [Told.bind_of_error houtcome] at h
    rw [hx h, Told.bind_of_error houtcome, Told.bind_of_error houtcome]
  | ok a =>
    rw [Told.bind_of_ok houtcome] at h
    have hfirst := h.mono (List.subset_append_left _ _)
    rw [hx hfirst, Told.bind_of_ok houtcome, Told.bind_of_ok houtcome,
      hf hfirst a (h.mono (List.subset_append_right _ _))]

theorem follows_readImport (file target name : String) :
    s.Follows s' (s'.readImport file target name) (s.readImport file target name) := by
  intro h
  have hname : name ∈ readNames (s.readImport file target name).events := by
    rw [readImport, Told.tell_bind]
    exact List.mem_cons_self
  rw [readImport, readImport, h.root_eq, h.read_eq name hname, h.path_eq]

section Steps

variable {expandFile expandFile' : List String → String → List Char → Expanded → Expansion}
  (hfile : ∀ stack name text known,
    s.Follows s' (expandFile' stack name text known) (expandFile stack name text known))

include hfile

theorem follows_expandTarget (file target name : String) (stack : List String) (known : Expanded) :
    s.Follows s' (s'.expandTarget expandFile' file target name stack known)
      (s.expandTarget expandFile file target name stack known) := by
  rw [expandTarget, expandTarget]
  cases known.lookup name with
  | some contents => exact .refl _
  | none =>
    refine (follows_readImport file target name).bind fun _ text => ?_
    exact (hfile _ name text known).bind fun _ x => .refl _

theorem follows_expandTargets (file : String) (d : Directives) (stack targets : List String)
    (text : List Char) (known : Expanded) :
    s.Follows s' (s'.expandTargets expandFile' file d stack targets text known)
      (s.expandTargets expandFile file d stack targets text known) := by
  induction targets generalizing text known with
  | nil => exact .refl _
  | cons target targets ih =>
    rw [expandTargets, expandTargets]
    refine (Follows.refl (.tell (.testing (d.nameOf target)))).bind fun htested _ => ?_
    rw [htested.isInside_eq _ (List.mem_singleton_self _), htested.root_eq, htested.path_eq]
    rcases s.isInside (d.nameOf target) with refusal | (_ | _)
    · exact .refl _
    · exact .refl _
    dsimp only
    split
    · exact .refl _
    refine (follows_expandTarget hfile file target _ stack known).bind fun _ x => ?_
    exact (Follows.refl (.tell (.expanding target file))).bind fun _ _ => ih _ _

end Steps

theorem follows_expand (depth : Nat) (stack : List String) (file : String) (text : List Char)
    (known : Expanded) :
    s.Follows s' (s'.expand depth stack file text known)
      (s.expand depth stack file text known) := by
  induction depth generalizing stack file text known with
  | zero => exact .refl _
  | succ depth ih =>
    rw [expand, expand]
    exact (Follows.refl (scan (some file) text)).bind fun _ d =>
      follows_expandTargets ih file d stack d.targets text known

theorem follows_resolve (bound : Nat) (template : String) :
    s.Follows s' (s'.resolve bound template) (s.resolve bound template) := by
  rw [resolve, resolve]
  refine (Follows.refl (.tell (.testing (Path.normalise template)))).bind fun htested _ => ?_
  rw [htested.isInside_eq _ (List.mem_singleton_self _), htested.root_eq, htested.path_eq]
  rcases s.isInside (Path.normalise template) with refusal | (_ | _)
  · exact .refl _
  · exact .refl _
  refine (Follows.refl (.tell (.reading s.root (Path.normalise template)))).bind fun hread _ => ?_
  rw [hread.read_eq _ (List.mem_singleton_self _)]
  cases s.read (Path.normalise template) with
  | ok text => exact (follows_expand bound _ _ text []).bind fun _ x => .refl _
  | error fault => cases fault <;> exact .refl _

end Sources

namespace Config

variable (c : Config) (template : String) {t t' : FileTree}

/-- Trees of files that answer alike to what one run asks have the same run, within any bound on
the recursion and so also within their own ones. -/
theorem resolve_eq_of_agrees
    (h : (c.sources t).Agrees (c.sources t') (c.resolve t template).events) :
    c.resolve t' template = c.resolve t template := by
  obtain ⟨bound, hbound, hbound'⟩ : ∃ bound, t.allImportedNames.length < bound ∧
      t'.allImportedNames.length < bound :=
    ⟨max t.allImportedNames.length t'.allImportedNames.length + 1, by omega, by omega⟩
  have hresolve : c.resolve t template = (c.sources t).resolve bound template :=
    Sources.resolve_congr (Sources.importsWithin_ofTree t c.assetRoot) template
      (Nat.lt_succ_self _) hbound
  have hresolve' : c.resolve t' template = (c.sources t').resolve bound template :=
    Sources.resolve_congr (Sources.importsWithin_ofTree t' c.assetRoot) template
      (Nat.lt_succ_self _) hbound'
  rw [hresolve] at h ⊢
  rw [hresolve']
  exact Sources.follows_resolve _ template h

/-! ## Assembling again -/

/-- A run that comes to a text has read files only, and finds them as they were when another file
has been written. -/
theorem agrees_of_write {path : String} {bytes : List UInt8} {text : List Char}
    (hwrite : t.write path bytes = .ok t') (htext : (c.resolve t template).outcome = .ok text)
    (hapart : ∀ name ∈ Sources.readNames (c.resolve t template).events,
      t.locate false (c.assetPath name) ≠ t.locate true path) :
    (c.sources t).Agrees (c.sources t') (c.resolve t template).events where
  root_eq := rfl
  isInside_eq := fun name _ => FileTree.isInside_of_write hwrite c.assetRoot (c.assetPath name)
  read_eq := by
    intro name hname
    show t'.readText (c.assetPath name) = t.readText (c.assetPath name)
    cases hread : t.readText (c.assetPath name) with
    | error fault =>
      rcases (c.resolves t template).error_of_unreadable hname hread with
        ⟨-, hfailed⟩ | ⟨_, _, -, hfailed⟩ <;> cases htext.symm.trans hfailed
    | ok found =>
      obtain ⟨old, hold, hfound⟩ := FileTree.readText_eq_ok_iff.1 hread
      exact FileTree.readText_eq_ok_iff.2
        ⟨old, FileTree.read_of_write_of_ne hwrite hold (hapart name hname), hfound⟩

theorem textOf_congr (h : c.resolve t' template = c.resolve t template) (rule : Value) :
    c.textOf t' template rule = c.textOf t template rule := by
  unfold textOf resolveWithRule
  rw [h]

/-- A template is resolved in the same way, to the same text or with the same failure and telling
the same steps, wherever the names that are tested lie inside or not as before, and the names that
are read lead to the same text or fault.  So a template can be assembled again after its copy has
been written, unless this is one of the files that were read. -/
theorem resolve_by_answers_and_assemble_again (c : Config) (t : FileTree) (template : String) :
    (∀ t' : FileTree,
      (∀ name, .testing name ∈ (c.resolve t template).events →
        c.isInside t' name = c.isInside t name) →
      (∀ name ∈ Sources.readNames (c.resolve t template).events,
        t'.readText (c.assetPath name) = t.readText (c.assetPath name)) →
      c.resolve t' template = c.resolve t template) ∧
    ∀ (rule : Value) (label? : Option String) (source : ShaderSource), c.debugShader = true →
      (c.assemble t template rule label?).1.outcome = .ok source →
      (∀ name ∈ Sources.readNames (c.resolve t template).events,
        t.locate false (c.assetPath name) ≠ t.locate true (c.debugPath template)) →
      (c.assemble (c.assemble t template rule label?).2 template rule label?).1.outcome =
        .ok source := by
  refine ⟨fun t' hinside hread => c.resolve_eq_of_agrees template ⟨rfl, hinside, hread⟩,
    fun rule label? source hdebug hsource hapart => ?_⟩
  have hwrite := c.write_of_outcome t template rule label? hdebug hsource
  obtain ⟨htext, hname, -⟩ := (c.outcome_assemble_eq_ok_iff t template rule label?).1 hsource
  obtain ⟨text, hresolve⟩ := c.exists_resolve_of_textOf t template rule htext
  have hagain := c.resolve_eq_of_agrees template (c.agrees_of_write template hwrite hresolve hapart)
  refine (c.outcome_assemble_eq_ok_iff _ template rule label?).2 ⟨?_, hname, fun _ => ?_⟩
  · rw [c.textOf_congr template hagain, htext]
  · exact FileTree.exists_write_of_write hwrite _

/-- A diamond of imports is assembled again beside its copy, which none of them names. -/
theorem assemble_again_diamond :
    ((Config.mk "/" true "").assemble .diamond "main" .nothing none).1.outcome =
      .ok ⟨"main", "y\n#define_import_path .\ny\n\nx".toList, none⟩ ∧
    (∀ name ∈ Sources.readNames ((Config.mk "/" true "").resolve .diamond "main").events,
      FileTree.diamond.locate false ((Config.mk "/" true "").assetPath name) ≠
        FileTree.diamond.locate true ((Config.mk "/" true "").debugPath "main")) ∧
    ((Config.mk "/" true "").assemble
      ((Config.mk "/" true "").assemble .diamond "main" .nothing none).2
      "main" .nothing none).1.outcome =
        .ok ⟨"main", "y\n#define_import_path .\ny\n\nx".toList, none⟩ := by
  have hsource : ((Config.mk "/" true "").assemble .diamond "main" .nothing none).1.outcome =
      .ok ⟨"main", "y\n#define_import_path .\ny\n\nx".toList, none⟩ :=
    eq_ok_of_toOption (by decide +kernel)
  have hapart : ∀ name ∈ Sources.readNames
      ((Config.mk "/" true "").resolve .diamond "main").events,
      FileTree.diamond.locate false ((Config.mk "/" true "").assetPath name) ≠
        FileTree.diamond.locate true ((Config.mk "/" true "").debugPath "main") := by
    decide +kernel
  exact ⟨hsource, hapart,
    (resolve_by_answers_and_assemble_again _ _ _).2 .nothing none _ rfl hsource hapart⟩

end Config

end CellShader
