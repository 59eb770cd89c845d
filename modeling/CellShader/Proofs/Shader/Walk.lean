import CellShader.Shader.Assembly
import Mathlib.Data.List.Perm.Subperm

/-!
# The walk through the imports

What expanding the imports of a file tells and gives, as rules: one rule for each way in which a
target can be met (`Walks`, and `Resolves` for the template itself).  The rules do not bound how
deep files lie inside one another.  `walksFile_expand` says that the bounded recursion follows them
as long as the bound exceeds the number of names that can still be put on the stack, and `resolves`
that the names imported anywhere in a tree of files are a bound that does.
-/

namespace CellShader

namespace Sources

/-- How the targets of a file are expanded in its text: the steps told, and what comes of them. -/
inductive Walks (s : Sources) : String → Directives → List String → List String → List Char →
    Expanded → List Event → Except Failure (List Char × Expanded) → Prop
  | done {file : String} {d : Directives} {stack : List String} {text : List Char}
      {known : Expanded} : Walks s file d stack [] text known [] (.ok (text, known))
  | refused {file : String} {d : Directives} {stack targets : List String} {text : List Char}
      {known : Expanded} {target : String} {refusal : NulInPath}
      (hin : s.isInside (d.nameOf target) = .error refusal) :
      Walks s file d stack (target :: targets) text known [.testing (d.nameOf target)]
        (.error (.refused refusal))
  | outside {file : String} {d : Directives} {stack targets : List String} {text : List Char}
      {known : Expanded} {target : String} (hin : s.isInside (d.nameOf target) = .ok false) :
      Walks s file d stack (target :: targets) text known
        [.testing (d.nameOf target), .importOutside target file s.root]
        (.error (.assembly (.missingImport file target (s.path (d.nameOf target)) none)))
  | cycle {file : String} {d : Directives} {stack targets : List String} {text : List Char}
      {known : Expanded} {target : String} (hin : s.isInside (d.nameOf target) = .ok true)
      (hstack : d.nameOf target ∈ stack) :
      Walks s file d stack (target :: targets) text known
        [.testing (d.nameOf target), .cycleFound (cycleAt stack (d.nameOf target))]
        (.error (.assembly (.importCycle (cycleAt stack (d.nameOf target)))))
  | kept {file : String} {d : Directives} {stack targets : List String} {text : List Char}
      {known : Expanded} {target : String} {contents : List Char} {events : List Event}
      {r : Except Failure (List Char × Expanded)} (hin : s.isInside (d.nameOf target) = .ok true)
      (hstack : d.nameOf target ∉ stack) (hknown : known.lookup (d.nameOf target) = some contents)
      (rest : Walks s file d stack targets (Inlining.replaceImport text target.toList contents)
        known events r) :
      Walks s file d stack (target :: targets) text known
        (.testing (d.nameOf target) :: .expanding target file :: events) r
  | unreadable {file : String} {d : Directives} {stack targets : List String} {text : List Char}
      {known : Expanded} {target : String} {e : FileError}
      (hin : s.isInside (d.nameOf target) = .ok true) (hstack : d.nameOf target ∉ stack)
      (hknown : known.lookup (d.nameOf target) = none)
      (hread : s.read (d.nameOf target) = .error (.file e)) :
      Walks s file d stack (target :: targets) text known
        [.testing (d.nameOf target), .reading s.root (d.nameOf target), .importUnreadable target e]
        (.error (.assembly (.missingImport file target (s.path (d.nameOf target)) (some e))))
  | unopened {file : String} {d : Directives} {stack targets : List String} {text : List Char}
      {known : Expanded} {target : String} {refusal : NulInPath}
      (hin : s.isInside (d.nameOf target) = .ok true) (hstack : d.nameOf target ∉ stack)
      (hknown : known.lookup (d.nameOf target) = none)
      (hread : s.read (d.nameOf target) = .error (.refused refusal)) :
      Walks s file d stack (target :: targets) text known
        [.testing (d.nameOf target), .reading s.root (d.nameOf target)]
        (.error (.refused refusal))
  | undecodable {file : String} {d : Directives} {stack targets : List String} {text : List Char}
      {known : Expanded} {target : String} {fault : Text.Utf8Fault}
      (hin : s.isInside (d.nameOf target) = .ok true) (hstack : d.nameOf target ∉ stack)
      (hknown : known.lookup (d.nameOf target) = none)
      (hread : s.read (d.nameOf target) = .error (.bytes fault)) :
      Walks s file d stack (target :: targets) text known
        [.testing (d.nameOf target), .reading s.root (d.nameOf target)]
        (.error (.undecodable fault))
  | declaredTwice {file : String} {d : Directives} {stack targets : List String} {text : List Char}
      {known : Expanded} {target : String} {inner : List Char} {paths : DuplicatePath}
      (hin : s.isInside (d.nameOf target) = .ok true) (hstack : d.nameOf target ∉ stack)
      (hknown : known.lookup (d.nameOf target) = none)
      (hread : s.read (d.nameOf target) = .ok inner)
      (hscan : Directives.ofText inner = .error paths) :
      Walks s file d stack (target :: targets) text known
        [.testing (d.nameOf target), .reading s.root (d.nameOf target),
          .pathDeclaredTwice paths (some (d.nameOf target))]
        (.error (.assembly (.duplicatePath paths (some (d.nameOf target)))))
  | failed {file : String} {d : Directives} {stack targets : List String} {text : List Char}
      {known : Expanded} {target : String} {inner : List Char} {d' : Directives}
      {events : List Event} {e : Failure}
      (hin : s.isInside (d.nameOf target) = .ok true) (hstack : d.nameOf target ∉ stack)
      (hknown : known.lookup (d.nameOf target) = none)
      (hread : s.read (d.nameOf target) = .ok inner) (hscan : Directives.ofText inner = .ok d')
      (sub : Walks s (d.nameOf target) d' (stack ++ [d.nameOf target]) d'.targets inner known events
        (.error e)) :
      Walks s file d stack (target :: targets) text known
        (.testing (d.nameOf target) :: .reading s.root (d.nameOf target) :: events) (.error e)
  | expanded {file : String} {d : Directives} {stack targets : List String} {text : List Char}
      {known known' : Expanded} {target : String} {inner contents : List Char} {d' : Directives}
      {events events' : List Event} {r : Except Failure (List Char × Expanded)}
      (hin : s.isInside (d.nameOf target) = .ok true) (hstack : d.nameOf target ∉ stack)
      (hknown : known.lookup (d.nameOf target) = none)
      (hread : s.read (d.nameOf target) = .ok inner) (hscan : Directives.ofText inner = .ok d')
      (sub : Walks s (d.nameOf target) d' (stack ++ [d.nameOf target]) d'.targets inner known events
        (.ok (contents, known')))
      (rest : Walks s file d stack targets (Inlining.replaceImport text target.toList contents)
        ((d.nameOf target, contents) :: known') events' r) :
      Walks s file d stack (target :: targets) text known
        (.testing (d.nameOf target) :: .reading s.root (d.nameOf target) ::
          (events ++ .expanding target file :: events')) r

/-- How a file that was read is expanded: it is scanned, and then its targets are walked through. -/
def WalksFile (s : Sources) (stack : List String) (file : String) (text : List Char)
    (known : Expanded) (x : Expansion) : Prop :=
  match Directives.ofText text with
  | .ok d => s.Walks file d stack d.targets text known x.events x.outcome
  | .error paths =>
    x = .failWith (.pathDeclaredTwice paths (some file))
      (.assembly (.duplicatePath paths (some file)))

/-- How a template is resolved: the steps told, and what comes of them. -/
inductive Resolves (s : Sources) (template : String) :
    List Event → Except Failure (List Char) → Prop
  | refused {refusal : NulInPath} (hin : s.isInside (Path.normalise template) = .error refusal) :
      Resolves s template [.testing (Path.normalise template)] (.error (.refused refusal))
  | outside (hin : s.isInside (Path.normalise template) = .ok false) :
      Resolves s template
        [.testing (Path.normalise template), .templateOutside template s.root]
        (.error (.assembly (.missingTemplate (s.path (Path.normalise template)) none)))
  | unreadable {e : FileError} (hin : s.isInside (Path.normalise template) = .ok true)
      (hread : s.read (Path.normalise template) = .error (.file e)) :
      Resolves s template
        [.testing (Path.normalise template), .reading s.root (Path.normalise template),
          .templateUnreadable template]
        (.error (.assembly (.missingTemplate (s.path (Path.normalise template)) (some e))))
  | unopened {refusal : NulInPath} (hin : s.isInside (Path.normalise template) = .ok true)
      (hread : s.read (Path.normalise template) = .error (.refused refusal)) :
      Resolves s template
        [.testing (Path.normalise template), .reading s.root (Path.normalise template)]
        (.error (.refused refusal))
  | undecodable {fault : Text.Utf8Fault} (hin : s.isInside (Path.normalise template) = .ok true)
      (hread : s.read (Path.normalise template) = .error (.bytes fault)) :
      Resolves s template
        [.testing (Path.normalise template), .reading s.root (Path.normalise template)]
        (.error (.undecodable fault))
  | declaredTwice {text : List Char} {paths : DuplicatePath}
      (hin : s.isInside (Path.normalise template) = .ok true)
      (hread : s.read (Path.normalise template) = .ok text)
      (hscan : Directives.ofText text = .error paths) :
      Resolves s template
        [.testing (Path.normalise template), .reading s.root (Path.normalise template),
          .pathDeclaredTwice paths (some (Path.normalise template))]
        (.error (.assembly (.duplicatePath paths (some (Path.normalise template)))))
  | expanded {text : List Char} {d : Directives} {events : List Event}
      {r : Except Failure (List Char × Expanded)}
      (hin : s.isInside (Path.normalise template) = .ok true)
      (hread : s.read (Path.normalise template) = .ok text) (hscan : Directives.ofText text = .ok d)
      (walk : s.Walks (Path.normalise template) d [Path.normalise template] d.targets text [] events
        r) :
      Resolves s template
        (.testing (Path.normalise template) :: .reading s.root (Path.normalise template) :: events)
        (r.map Prod.fst)

end Sources

/-! ## Computations step by step -/

namespace Told

variable {ε α β : Type}

theorem tell_bind (e : Event) (f : Unit → Told ε α) :
    (tell e >>= f) = ⟨e :: (f ()).events, (f ()).outcome⟩ := rfl

theorem bind_of_ok {x : Told ε α} {a : α} (h : x.outcome = .ok a) (f : α → Told ε β) :
    (x >>= f) = ⟨x.events ++ (f a).events, (f a).outcome⟩ := by
  show andThen x f = _
  unfold andThen
  rw [h]

theorem bind_of_error {x : Told ε α} {e : ε} (h : x.outcome = .error e) (f : α → Told ε β) :
    (x >>= f) = ⟨x.events, .error e⟩ := by
  show andThen x f = _
  unfold andThen
  rw [h]

end Told

namespace Sources

variable {s : Sources}

open Told

/-- A target that has not been expanded yet is read and then expanded. -/
theorem expandTarget_of_read
    {expandFile : List String → String → List Char → Expanded → Expansion} {name : String}
    {known : Expanded} {inner : List Char} (hknown : known.lookup name = none)
    (hread : s.read name = .ok inner) (file target : String) (stack : List String) :
    s.expandTarget expandFile file target name stack known =
      ⟨.reading s.root name :: (expandFile (stack ++ [name]) name inner known).events,
        (expandFile (stack ++ [name]) name inner known).outcome.map
          fun x => (x.1, (name, x.1) :: x.2)⟩ := by
  have himport : s.readImport file target name = ⟨[.reading s.root name], .ok inner⟩ := by
    rw [readImport, hread]
    rfl
  rw [expandTarget, hknown]
  dsimp only
  rw [himport, bind_of_ok rfl]
  cases hx : (expandFile (stack ++ [name]) name inner known).outcome with
  | error e =>
    rw [bind_of_error hx]
    rfl
  | ok x =>
    rw [bind_of_ok hx]
    simp [pure, Except.map]

/-- The targets of a file are walked through by the rules if the files on top of the stack are. -/
theorem walks_expandTargets {names stack : List String}
    {expandFile : List String → String → List Char → Expanded → Expansion}
    (hfile : ∀ name ∈ names, name ∉ stack → ∀ text, s.read name = .ok text → ∀ known,
      s.WalksFile (stack ++ [name]) name text known (expandFile (stack ++ [name]) name text known))
    (file : String) (d : Directives) {targets : List String}
    (hnames : ∀ target ∈ targets, d.nameOf target ∈ names) (text : List Char) (known : Expanded) :
    s.Walks file d stack targets text known
      (s.expandTargets expandFile file d stack targets text known).events
      (s.expandTargets expandFile file d stack targets text known).outcome := by
  induction targets generalizing text known with
  | nil => exact .done
  | cons target targets ih =>
    have hrest := ih fun t ht => hnames t (List.mem_cons_of_mem _ ht)
    rw [expandTargets, tell_bind]
    rcases hin : s.isInside (d.nameOf target) with refusal | (_ | _)
    · exact .refused hin
    · exact .outside hin
    dsimp only
    by_cases hstack : d.nameOf target ∈ stack
    · rw [if_pos hstack]
      exact .cycle hin hstack
    rw [if_neg hstack]
    cases hknown : known.lookup (d.nameOf target) with
    | some contents =>
      rw [expandTarget, hknown]
      exact .kept hin hstack hknown (hrest _ _)
    | none =>
      cases hread : s.read (d.nameOf target) with
      | error fault =>
        rw [expandTarget, hknown, readImport, hread]
        cases fault with
        | file e => exact .unreadable hin hstack hknown hread
        | refused refusal => exact .unopened hin hstack hknown hread
        | bytes fault => exact .undecodable hin hstack hknown hread
      | ok inner =>
        have hwalk := hfile _ (hnames target List.mem_cons_self) hstack inner hread known
        rw [expandTarget_of_read hknown hread]
        rw [WalksFile] at hwalk
        revert hwalk
        generalize expandFile (stack ++ [d.nameOf target]) (d.nameOf target) inner known = x
        cases hscan : Directives.ofText inner with
        | error paths =>
          rintro rfl
          exact .declaredTwice hin hstack hknown hread hscan
        | ok d' =>
          obtain ⟨events, outcome⟩ := x
          intro hwalk
          cases outcome with
          | error e => exact .failed hin hstack hknown hread hscan hwalk
          | ok result => exact .expanded hin hstack hknown hread hscan hwalk (hrest _ _)

/-! ## How deep the walk can go -/

/-- Whether `names` has all that is imported in any file. -/
def ImportsWithin (s : Sources) (names : List String) : Prop :=
  ∀ name text, s.read name = .ok text → ∀ m ∈ importedNames text, m ∈ names

theorem length_le_of_nodup {stack names : List String} {root : String} (h : stack.Nodup)
    (hsub : stack ⊆ root :: names) : stack.length ≤ names.length + 1 :=
  (h.subperm hsub).length_le

/-- The bounded recursion follows the rules if the bound exceeds what can still be put on the stack.
-/
theorem walksFile_expand {names : List String} (hs : s.ImportsWithin names) {root file : String}
    {text : List Char} (hread : s.read file = .ok text) {stack : List String} (hnodup : stack.Nodup)
    (hsub : stack ⊆ root :: names) {depth : Nat} (hdepth : names.length + 1 < depth + stack.length)
    (known : Expanded) :
    s.WalksFile stack file text known (s.expand depth stack file text known) := by
  induction depth generalizing stack file text known with
  | zero =>
    -- the stack would have more names, all different, than there are
    have hlen := length_le_of_nodup hnodup hsub
    omega
  | succ depth ih =>
    rw [WalksFile, expand, scan]
    cases hscan : Directives.ofText text with
    | error paths => rfl
    | ok d =>
      have hnames : ∀ target ∈ d.targets, d.nameOf target ∈ names := by
        intro target ht
        refine hs file text hread _ ?_
        rw [importedNames, hscan]
        exact List.mem_map_of_mem ht
      refine walks_expandTargets (fun name hname hstack inner hinner known => ?_) file d hnames text
        known
      refine ih hinner ?_ ?_ ?_ known
      · refine List.nodup_append.2 ⟨hnodup, by simp, ?_⟩
        rintro a ha b hb rfl
        rw [List.mem_singleton] at hb
        exact hstack (hb ▸ ha)
      · exact List.append_subset.2 ⟨hsub, by simpa using Or.inr hname⟩
      · rw [List.length_append, List.length_singleton]
        omega

theorem resolves_resolve {names : List String} (hs : s.ImportsWithin names) (template : String) :
    s.Resolves template (s.resolve (names.length + 1) template).events
      (s.resolve (names.length + 1) template).outcome := by
  rw [resolve, tell_bind]
  rcases hin : s.isInside (Path.normalise template) with refusal | (_ | _)
  · exact .refused hin
  · exact .outside hin
  dsimp only
  rw [tell_bind]
  cases hread : s.read (Path.normalise template) with
  | error fault =>
    cases fault with
    | file e => exact .unreadable hin hread
    | refused refusal => exact .unopened hin hread
    | bytes fault => exact .undecodable hin hread
  | ok text =>
    have hnodup : [Path.normalise template].Nodup := by simp
    have hsub : [Path.normalise template] ⊆ Path.normalise template :: names := by simp
    have hdepth : names.length + 1 < names.length + 1 + [Path.normalise template].length := by simp
    have hwalk := walksFile_expand hs hread hnodup hsub hdepth []
    rw [WalksFile] at hwalk
    dsimp only
    revert hwalk
    generalize
      s.expand (names.length + 1) [Path.normalise template] (Path.normalise template) text [] = x
    cases hscan : Directives.ofText text with
    | error paths =>
      rintro rfl
      exact .declaredTwice hin hread hscan
    | ok d =>
      intro hwalk
      have h := Resolves.expanded hin hread hscan hwalk
      cases hx : x.outcome with
      | error e =>
        rw [bind_of_error hx]
        rwa [hx] at h
      | ok result =>
        rw [bind_of_ok hx]
        rw [hx] at h
        simpa [pure, Except.map] using h

end Sources

/-! ## Trees of files -/

theorem FileTree.entry_of_read {t : FileTree} {path : String} {bytes : List UInt8}
    (h : t.read path = .ok bytes) : ∃ place, (place, Entry.file bytes) ∈ t.entries := by
  obtain ⟨place, -, hfind⟩ := read_eq_ok_iff.1 h
  unfold find? at hfind
  split at hfind
  · simp at hfind
  · obtain ⟨a, b, hab, -⟩ := List.lookup_eq_some_iff.1 hfind
    exact ⟨place, by simp [hab]⟩

theorem FileTree.readText_eq_ok_iff {t : FileTree} {path : String} {text : List Char} :
    t.readText path = .ok text ↔
      ∃ bytes, t.read path = .ok bytes ∧ textOfBytes bytes = .ok text := by
  unfold readText
  cases t.read path with
  | error fault => cases fault <;> simp
  | ok bytes => cases h : textOfBytes bytes <;> simp [h]

theorem Sources.importsWithin_ofTree (t : FileTree) (root : String) :
    (ofTree t root).ImportsWithin t.allImportedNames := by
  intro name text hread m hm
  obtain ⟨bytes, hbytes, htext⟩ := FileTree.readText_eq_ok_iff.1 hread
  obtain ⟨place, hentry⟩ := FileTree.entry_of_read hbytes
  refine List.mem_flatMap.2 ⟨_, hentry, ?_⟩
  simpa [FileTree.namesOfEntry, htext] using hm

/-- The bound on the recursion is never met: a template is resolved by the rules. -/
theorem Config.resolves (c : Config) (t : FileTree) (template : String) :
    (c.sources t).Resolves template (c.resolve t template).events (c.resolve t template).outcome :=
  Sources.resolves_resolve (Sources.importsWithin_ofTree t c.assetRoot) template

end CellShader
