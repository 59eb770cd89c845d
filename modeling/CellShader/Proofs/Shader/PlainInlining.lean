import CellShader.Proofs.Shader.ImportGraph
import CellShader.Proofs.Shader.Substitution

/-!
# Plain inlining

What a template is resolved to, said without a memory: a file is read and expanded again for every
target that names it, the targets of a file are looked at one by one, and their expansions are put
in all at once (`Inlines`, `PlainlyResolves`).  Resolving gives just that, or fails in the same way
(`plainlyResolves_iff`), unless a file is read that imports something with an empty name.
-/

namespace CellShader

open Relation

namespace Sources

/-- The text and the directives of a file. -/
def scanFile (s : Sources) (missing : Option FileError → AssemblyError) (name : String) :
    Except Failure (List Char × Directives) :=
  match s.read name with
  | .error (.file e) => .error (.assembly (missing (some e)))
  | .error (.refused refusal) => .error (.refused refusal)
  | .error (.bytes fault) => .error (.undecodable fault)
  | .ok text =>
    match Directives.ofText text with
    | .error paths => .error (.assembly (.duplicatePath paths (some name)))
    | .ok d => .ok (text, d)

/-- The text and the directives of what a target names, which must not be on the path that led to
the file with the target. -/
def scanImport (s : Sources) (file : String) (d : Directives) (path : List String)
    (target : String) : Except Failure (List Char × Directives) :=
  let name := d.nameOf target
  let missing := .missingImport file target (s.path name)
  match s.isInside name with
  | .error refusal => .error (.refused refusal)
  | .ok false => .error (.assembly (missing none))
  | .ok true =>
    if name ∈ path then .error (.assembly (.importCycle (cycleAt path name)))
    else s.scanFile missing name

/-- The text and the directives of a template. -/
def scanTemplate (s : Sources) (template : String) : Except Failure (List Char × Directives) :=
  let name := Path.normalise template
  let missing := .missingTemplate (s.path name)
  match s.isInside name with
  | .error refusal => .error (.refused refusal)
  | .ok false => .error (.assembly (missing none))
  | .ok true => s.scanFile missing name

/-- What the targets of a file are expanded to, or the first failure on the way. -/
inductive Inlines (s : Sources) : String → Directives → List String → List String →
    Except Failure (List (String × List Char)) → Prop
  | done {file : String} {d : Directives} {path : List String} : Inlines s file d path [] (.ok [])
  | refused {file : String} {d : Directives} {path targets : List String} {target : String}
      {e : Failure} (hscan : s.scanImport file d path target = .error e) :
      Inlines s file d path (target :: targets) (.error e)
  | failed {file : String} {d d' : Directives} {path targets : List String} {target : String}
      {text : List Char} {e : Failure} (hscan : s.scanImport file d path target = .ok (text, d'))
      (sub : Inlines s (d.nameOf target) d' (path ++ [d.nameOf target]) d'.targets (.error e)) :
      Inlines s file d path (target :: targets) (.error e)
  | expanded {file : String} {d d' : Directives} {path targets : List String} {target : String}
      {text : List Char} {table : List (String × List Char)}
      {r : Except Failure (List (String × List Char))}
      (hscan : s.scanImport file d path target = .ok (text, d'))
      (sub : Inlines s (d.nameOf target) d' (path ++ [d.nameOf target]) d'.targets (.ok table))
      (rest : Inlines s file d path targets r) :
      Inlines s file d path (target :: targets) (r.map ((target, substitute table text) :: ·))

/-- What a template is resolved to by plain inlining. -/
inductive PlainlyResolves (s : Sources) (template : String) : Except Failure (List Char) → Prop
  | refused {e : Failure} (hscan : s.scanTemplate template = .error e) :
      PlainlyResolves s template (.error e)
  | expanded {text : List Char} {d : Directives} {r : Except Failure (List (String × List Char))}
      (hscan : s.scanTemplate template = .ok (text, d))
      (targets : s.Inlines (Path.normalise template) d [Path.normalise template] d.targets r) :
      PlainlyResolves s template (r.map fun table => substitute table text)

/-- The targets that are recorded when a file is scanned. -/
def importsOf (s : Sources) (name : String) : List String :=
  match s.read name with
  | .error _ => []
  | .ok text =>
    match Directives.ofText text with
    | .error _ => []
    | .ok d => d.imports

variable {s : Sources}

/-! ## There is one outcome -/

theorem Inlines.unique {file : String} {d : Directives} {path targets : List String}
    {r r' : Except Failure (List (String × List Char))} (h : s.Inlines file d path targets r)
    (h' : s.Inlines file d path targets r') : r = r' := by
  induction h generalizing r' with
  | done =>
    cases h'
    rfl
  | refused hscan =>
    cases h' with
    | refused hscan' => exact congrArg _ (Except.error.inj (hscan.symm.trans hscan'))
    | failed hscan' | expanded hscan' => cases hscan.symm.trans hscan'
  | failed hscan _ ih =>
    cases h' with
    | refused hscan' => cases hscan.symm.trans hscan'
    | failed hscan' sub' =>
      obtain ⟨rfl, rfl⟩ := Prod.mk.inj (Except.ok.inj (hscan.symm.trans hscan'))
      exact congrArg _ (Except.error.inj (ih sub'))
    | expanded hscan' sub' =>
      obtain ⟨rfl, rfl⟩ := Prod.mk.inj (Except.ok.inj (hscan.symm.trans hscan'))
      cases ih sub'
  | expanded hscan _ _ ihsub ih =>
    cases h' with
    | refused hscan' => cases hscan.symm.trans hscan'
    | failed hscan' sub' =>
      obtain ⟨rfl, rfl⟩ := Prod.mk.inj (Except.ok.inj (hscan.symm.trans hscan'))
      cases ihsub sub'
    | expanded hscan' sub' rest' =>
      obtain ⟨rfl, rfl⟩ := Prod.mk.inj (Except.ok.inj (hscan.symm.trans hscan'))
      obtain rfl := Except.ok.inj (ihsub sub')
      rw [ih rest']

theorem PlainlyResolves.unique {template : String} {r r' : Except Failure (List Char)}
    (h : s.PlainlyResolves template r) (h' : s.PlainlyResolves template r') : r = r' := by
  cases h with
  | refused hscan =>
    cases h' with
    | refused hscan' => exact congrArg _ (Except.error.inj (hscan.symm.trans hscan'))
    | expanded hscan' => cases hscan.symm.trans hscan'
  | expanded hscan targets =>
    cases h' with
    | refused hscan' => cases hscan.symm.trans hscan'
    | expanded hscan' targets' =>
      obtain ⟨rfl, rfl⟩ := Prod.mk.inj (Except.ok.inj (hscan.symm.trans hscan'))
      rw [targets.unique targets']

/-! ## What is kept is a plain expansion -/

/-- Whether all texts that can be read are free of carriage returns. -/
def ReadsUnified (s : Sources) : Prop := ∀ name text, s.read name = .ok text → '\r' ∉ text

/-- What a file is expanded to by plain inlining, the files on a path being under way. -/
inductive InlinesFile (s : Sources) (path : List String) (name : String) : List Char → Prop
  | intro {text : List Char} {d : Directives} {table : List (String × List Char)}
      (hin : s.isInside name = .ok true) (hread : s.read name = .ok text)
      (hscan : Directives.ofText text = .ok d)
      (targets : s.Inlines name d (path ++ [name]) d.targets (.ok table)) :
      InlinesFile s path name (substitute table text)

/-- The kept expansions for targets. -/
def table (d : Directives) (known : Expanded) (targets : List String) :
    List (String × List Char) :=
  targets.map fun target => (target, (known.lookup (d.nameOf target)).getD [])

theorem lookup_table (d : Directives) (known : Expanded) (targets : List String)
    (target : String) :
    (table d known targets).lookup target =
      if target ∈ targets then some ((known.lookup (d.nameOf target)).getD []) else none := by
  induction targets with
  | nil => rfl
  | cons t targets ih =>
    rw [table, List.map_cons, List.lookup_cons]
    by_cases he : target = t
    · subst he
      simp
    · have hne : (target == t) = false := beq_eq_false_iff_ne.2 he
      simp only [hne, List.mem_cons, he, false_or]
      exact ih

theorem isSome_lookup_table {d : Directives} {known : Expanded} {targets : List String}
    {target : String} (h : target ∈ targets) : ((table d known targets).lookup target).isSome := by
  rw [lookup_table, if_pos h]
  rfl

section File

variable {name : String} {text : List Char} {d : Directives} {known : Expanded}
  (hread : s.read name = .ok text) (hscan : Directives.ofText text = .ok d)

include hread hscan

theorem importsOf_eq : s.importsOf name = d.imports := by
  rw [importsOf, hread]
  dsimp only
  rw [hscan]

theorem scanFile_eq (missing : Option FileError → AssemblyError) :
    s.scanFile missing name = .ok (text, d) := by
  rw [scanFile, hread]
  dsimp only
  rw [hscan]

theorem inlined_eq_substitute (hs : s.ReadsUnified) (hnamed : "" ∉ s.importsOf name)
    (hkept : ∀ target ∈ d.targets, IsResolved ((known.lookup (d.nameOf target)).getD [])) :
    d.inlined known d.targets text = substitute (table d known d.targets) text := by
  refine foldl_replaceImport_eq_substitute (fun target ht => ?_) hkept (hs name text hread)
  rw [importsOf_eq hread hscan] at hnamed
  obtain ⟨-, rfl⟩ := Directives.ofText_eq_ok_iff.1 hscan
  have hmem := Directives.mem_targets.1 ht
  refine isTarget_of_mem_recordedTargets hmem ?_
  rintro rfl
  exact hnamed hmem

theorem isResolved_inlined (hs : s.ReadsUnified) (hnamed : "" ∉ s.importsOf name)
    (hkept : ∀ target ∈ d.targets, IsResolved ((known.lookup (d.nameOf target)).getD [])) :
    IsResolved (d.inlined known d.targets text) := by
  rw [inlined_eq_substitute hread hscan hs hnamed hkept]
  refine isResolved_substitute (hs name text hread) ?_ fun target ht _ => ?_
  · simpa [table] using hkept
  · obtain ⟨-, rfl⟩ := Directives.ofText_eq_ok_iff.1 hscan
    exact isSome_lookup_table (Directives.mem_targets.2 ht)

end File

theorem scanImport_eq {d d' : Directives} {path : List String} {target : String} {text : List Char}
    (hin : s.isInside (d.nameOf target) = .ok true) (hpath : d.nameOf target ∉ path)
    (hread : s.read (d.nameOf target) = .ok text) (hscan : Directives.ofText text = .ok d')
    (file : String) : s.scanImport file d path target = .ok (text, d') := by
  simp [scanImport, hin, hpath, scanFile_eq hread hscan]

theorem isResolved_getD {d : Directives} {known : Expanded} {targets : List String}
    (htargets : ∀ target ∈ targets, (known.lookup (d.nameOf target)).isSome)
    (h : ∀ name contents, known.lookup name = some contents → IsResolved contents) :
    ∀ target ∈ targets, IsResolved ((known.lookup (d.nameOf target)).getD []) := by
  intro target ht
  obtain ⟨contents, hcontents⟩ := Option.isSome_iff_exists.1 (htargets target ht)
  rw [hcontents]
  exact h _ contents hcontents

theorem Settled.isResolved {known : Expanded} (h : s.Settled known) (hs : s.ReadsUnified)
    (hnamed : ∀ name, (known.lookup name).isSome → "" ∉ s.importsOf name) :
    ∀ name contents, known.lookup name = some contents → IsResolved contents := by
  induction h with
  | nil => exact fun name contents hname => by simp at hname
  | @cons known n text d tail fresh hin hread hscan htargets ih =>
    have htail := ih fun m hm => hnamed m (isSome_lookup_cons hm _ _)
    intro name contents hname
    by_cases he : name = n
    · subst he
      rw [List.lookup_cons_self] at hname
      obtain rfl := Option.some.inj hname
      exact isResolved_inlined hread hscan hs (hnamed name (by simp))
        (isResolved_getD htargets htail)
    · rw [lookup_cons_of_ne he] at hname
      exact htail name contents hname

/-- Targets whose files are kept are expanded to what is kept. -/
theorem inlines_of_kept {known : Expanded} {path : List String}
    (hkept : ∀ name contents, known.lookup name = some contents → s.InlinesFile path name contents)
    (hapart : Apart path known) (file : String) (d : Directives) {targets : List String}
    (htargets : ∀ target ∈ targets, (known.lookup (d.nameOf target)).isSome) :
    s.Inlines file d path targets (.ok (table d known targets)) := by
  induction targets with
  | nil => exact .done
  | cons target targets ih =>
    obtain ⟨⟨contents, hlookup⟩, htargets⟩ :=
      (List.forall_mem_cons.1 htargets).imp_left Option.isSome_iff_exists.1
    have hpath : d.nameOf target ∉ path := by
      intro hmem
      simp [hapart _ hmem] at hlookup
    rw [table, List.map_cons, hlookup]
    cases hkept _ _ hlookup with
    | @intro text d' inner hin hread hscan sub =>
      exact .expanded (scanImport_eq hin hpath hread hscan file) sub (ih htargets)

/-- A kept expansion is a plain one, whatever files are under way. -/
theorem Settled.inlinesFile {known : Expanded} (h : s.Settled known) (hs : s.ReadsUnified)
    (hnamed : ∀ name, (known.lookup name).isSome → "" ∉ s.importsOf name) {name : String}
    {contents : List Char} (hname : known.lookup name = some contents) {path : List String}
    (hapart : Apart path known) : s.InlinesFile path name contents := by
  induction h generalizing name contents path with
  | nil => simp at hname
  | @cons known n text d tail fresh hin hread hscan htargets ih =>
    have hnamed' : ∀ m, (known.lookup m).isSome → "" ∉ s.importsOf m :=
      fun m hm => hnamed m (isSome_lookup_cons hm _ _)
    by_cases he : name = n
    · subst he
      rw [List.lookup_cons_self] at hname
      obtain rfl := Option.some.inj hname
      have hresolved := isResolved_getD htargets (tail.isResolved hs hnamed')
      rw [inlined_eq_substitute hread hscan hs (hnamed name (by simp)) hresolved]
      -- the file itself is under way now, and it was not kept before
      have hpush := hapart.tail.push fresh
      exact .intro hin hread hscan
        (inlines_of_kept (fun _ _ hm => ih hnamed' hm hpush) hpush name d htargets)
    · rw [lookup_cons_of_ne he] at hname
      exact ih hnamed' hname hapart.tail

/-! ## The walk inlines -/

/-- The names of the files that are read on the way. -/
def readNames (events : List Event) : List String :=
  events.filterMap fun
    | .reading _ name => some name
    | _ => none

theorem mem_readNames {events : List Event} {root name : String}
    (h : .reading root name ∈ events) : name ∈ readNames events :=
  List.mem_filterMap.2 ⟨_, h, rfl⟩

/-- Whether no file that is read on the way imports something with an empty name. -/
def ReadsNamed (s : Sources) (events : List Event) : Prop :=
  ∀ name, .reading s.root name ∈ events → "" ∉ s.importsOf name

/-- What is known of the files that a walk begins with. -/
structure Begins (s : Sources) (stack : List String) (known : Expanded) : Prop where
  settled : s.Settled known
  apart : Apart stack known
  named : ∀ name, (known.lookup name).isSome → "" ∉ s.importsOf name

theorem Begins.inlinesFile {stack : List String} {known : Expanded} (h : s.Begins stack known)
    (hs : s.ReadsUnified) {name : String} {contents : List Char}
    (hname : known.lookup name = some contents) : s.InlinesFile stack name contents :=
  h.settled.inlinesFile hs h.named hname h.apart

theorem Begins.push {stack : List String} {known : Expanded} (h : s.Begins stack known)
    {name : String} (hname : known.lookup name = none) : s.Begins (stack ++ [name]) known :=
  ⟨h.settled, h.apart.push hname, h.named⟩

/-- After a walk that comes to its end, all is known again of the files that a walk begins with. -/
theorem Walks.begins {file : String} {d : Directives} {stack targets : List String}
    {text text' : List Char} {known known' : Expanded} {events : List Event}
    (h : s.Walks file d stack targets text known events (.ok (text', known')))
    (hbegins : s.Begins stack known) (hread : s.ReadsNamed events) : s.Begins stack known' := by
  have hsettles := h.settles hbegins.settled hbegins.apart
  refine ⟨hsettles.settled, hsettles.apart, fun name hname => ?_⟩
  rcases hsettles.read name hname with hknown | hevents
  · exact hbegins.named name hknown
  · exact hread name hevents

/-- The same holds when the file that was walked through is kept. -/
theorem Walks.begins_keep {name : String} {d : Directives} {stack : List String}
    {text contents : List Char} {known known' : Expanded} {events : List Event}
    (h : s.Walks name d (stack ++ [name]) d.targets text known events (.ok (contents, known')))
    (hbegins : s.Begins (stack ++ [name]) known) (hread : s.ReadsNamed events)
    (hnamed : "" ∉ s.importsOf name) (hin : s.isInside name = .ok true) (hstack : name ∉ stack)
    (hfile : s.read name = .ok text) (hscan : Directives.ofText text = .ok d) :
    s.Begins stack ((name, contents) :: known') := by
  have hend := h.begins hbegins hread
  have hsettles := h.settles hbegins.settled hbegins.apart
  have hfresh := hend.apart name (by simp)
  have hsettled := Settled.cons hend.settled hfresh hin hfile hscan hsettles.kept
  rw [← hsettles.text_eq] at hsettled
  refine ⟨hsettled, hend.apart.keep hstack contents, fun n hn => ?_⟩
  by_cases he : n = name
  · exact he ▸ hnamed
  · rw [lookup_cons_of_ne he] at hn
    exact hend.named n hn

theorem Walks.inlines_of_ok {file : String} {d : Directives} {stack targets : List String}
    {text text' : List Char} {known known' : Expanded} {events : List Event}
    (h : s.Walks file d stack targets text known events (.ok (text', known')))
    (hs : s.ReadsUnified) (hbegins : s.Begins stack known) (hread : s.ReadsNamed events) :
    s.Inlines file d stack targets (.ok (table d known' targets)) := by
  have hend := h.begins hbegins hread
  exact inlines_of_kept (fun _ _ hname => hend.inlinesFile hs hname) hend.apart file d
    (h.settles hbegins.settled hbegins.apart).kept

theorem Walks.inlines_of_error {file : String} {d : Directives} {stack targets : List String}
    {text : List Char} {known : Expanded} {events : List Event} {e : Failure}
    (h : s.Walks file d stack targets text known events (.error e)) (hs : s.ReadsUnified)
    (hbegins : s.Begins stack known) (hread : s.ReadsNamed events) :
    s.Inlines file d stack targets (.error e) := by
  generalize hr : (Except.error e : Except Failure (List Char × Expanded)) = r at h
  induction h with
  | done => cases hr
  | refused hin | outside hin =>
    obtain rfl := Except.error.inj hr
    exact .refused (by simp [scanImport, hin])
  | cycle hin hstack =>
    obtain rfl := Except.error.inj hr
    exact .refused (by simp [scanImport, hin, hstack])
  | unreadable hin hstack _ hfile | unopened hin hstack _ hfile
  | undecodable hin hstack _ hfile =>
    obtain rfl := Except.error.inj hr
    exact .refused (by simp [scanImport, hin, hstack, scanFile, hfile])
  | declaredTwice hin hstack _ hfile hscan =>
    obtain rfl := Except.error.inj hr
    exact .refused (by simp [scanImport, hin, hstack, scanFile, hfile, hscan])
  | kept hin hstack hknown _ ih =>
    have hrest := ih hbegins (fun name hn => hread name (by simp [hn])) hr
    cases hbegins.inlinesFile hs hknown with
    | intro hin hfile hscan sub =>
      exact .expanded (scanImport_eq hin hstack hfile hscan _) sub hrest
  | failed hin hstack hknown hfile hscan _ ih =>
    have hsub := ih (hbegins.push hknown) (fun name hn => hread name (by simp [hn])) hr
    obtain rfl := Except.error.inj hr
    exact .failed (scanImport_eq hin hstack hfile hscan _) hsub
  | @expanded _ _ _ _ _ _ _ _ _ _ _ events _ _ hin hstack hknown hfile hscan sub _ _ ih =>
    have hreadSub : s.ReadsNamed events := fun name hn => hread name (by simp [hn])
    have hsub := sub.inlines_of_ok hs (hbegins.push hknown) hreadSub
    have hkeep := sub.begins_keep (hbegins.push hknown) hreadSub (hread _ (by simp)) hin hstack
      hfile hscan
    have hrest := ih hkeep (fun name hn => hread name (by simp [hn])) hr
    exact .expanded (scanImport_eq hin hstack hfile hscan _) hsub hrest

theorem Resolves.plainlyResolves {template : String} {events : List Event}
    {r : Except Failure (List Char)} (h : s.Resolves template events r) (hs : s.ReadsUnified)
    (hread : s.ReadsNamed events) : s.PlainlyResolves template r := by
  cases h with
  | refused hin | outside hin => exact .refused (by simp [scanTemplate, hin])
  | unreadable hin hfile | unopened hin hfile | undecodable hin hfile =>
    exact .refused (by simp [scanTemplate, hin, scanFile, hfile])
  | declaredTwice hin hfile hscan =>
    exact .refused (by simp [scanTemplate, hin, scanFile, hfile, hscan])
  | @expanded text d events r hin hfile hscan walk =>
    have hfound : s.scanTemplate template = .ok (text, d) := by
      simp [scanTemplate, hin, scanFile_eq hfile hscan]
    have hbegins : s.Begins [Path.normalise template] [] :=
      ⟨.nil, fun _ _ => rfl, fun _ hname => by simp at hname⟩
    have hwalk : s.ReadsNamed events := fun name hn => hread name (by simp [hn])
    cases r with
    | error e => exact .expanded hfound (walk.inlines_of_error hs hbegins hwalk)
    | ok result =>
      obtain ⟨text', known'⟩ := result
      have hsettles := walk.settles hbegins.settled hbegins.apart
      have hend := walk.begins hbegins hwalk
      have hnamed : "" ∉ s.importsOf (Path.normalise template) := hread _ (by simp)
      have htext : text' = substitute (table d known' d.targets) text := by
        rw [hsettles.text_eq]
        exact inlined_eq_substitute hfile hscan hs hnamed
          (isResolved_getD hsettles.kept (hend.settled.isResolved hs hend.named))
      rw [htext]
      exact .expanded hfound (walk.inlines_of_ok hs hbegins hwalk)

theorem readsUnified_ofTree (t : FileTree) (root : String) : (ofTree t root).ReadsUnified := by
  intro name text hread
  obtain ⟨bytes, -, htext⟩ := FileTree.readText_eq_ok_iff.1 hread
  unfold textOfBytes at htext
  cases hdecode : Text.decode bytes with
  | error fault => simp [hdecode, Except.map] at htext
  | ok cs =>
    obtain rfl : Text.unifyNewlines cs = text := by simpa [hdecode, Except.map] using htext
    exact Text.carriageReturn_not_mem_unifyNewlines cs

end Sources

/-- Resolving is plain inlining if no file that is read imports something with an empty name. -/
theorem Config.plainlyResolves_iff (c : Config) (t : FileTree) (template : String)
    (hnamed : ∀ name ∈ Sources.readNames (c.resolve t template).events,
      "" ∉ (c.sources t).importsOf name)
    (outcome : Except Failure (List Char)) :
    (c.sources t).PlainlyResolves template outcome ↔
      (c.resolve t template).outcome = outcome := by
  have hplain := (c.resolves t template).plainlyResolves (Sources.readsUnified_ofTree t c.assetRoot)
    fun name hread => hnamed name (Sources.mem_readNames hread)
  constructor
  · exact fun h => hplain.unique h
  · rintro rfl
    exact hplain

/-- A template that imports a file twice, once by way of another file. -/
def FileTree.diamond : FileTree where
  here := []
  entries := [(["main"], .file (Text.encode "#import a\n#import lib/b\nx".toList)),
    (["a"], .file (Text.encode "y".toList)), (["lib"], .directory),
    (["lib", "b"], .file (Text.encode "#define_import_path .\n#import a\r\n".toList))]

theorem eq_ok_of_toOption {ε α : Type} {x : Except ε α} {a : α} (h : x.toOption = some a) :
    x = .ok a := by
  cases x with
  | error e => cases h
  | ok b => exact congrArg _ (Option.some.inj h)

theorem Config.plainlyResolves_diamond :
    (∀ name ∈ Sources.readNames ((Config.mk "/" false "").resolve .diamond "main").events,
      "" ∉ ((Config.mk "/" false "").sources .diamond).importsOf name) ∧
    ((Config.mk "/" false "").sources .diamond).PlainlyResolves "main"
      (.ok "y\n#define_import_path .\ny\n\nx".toList) := by
  have hnamed :
      ∀ name ∈ Sources.readNames ((Config.mk "/" false "").resolve .diamond "main").events,
        "" ∉ ((Config.mk "/" false "").sources .diamond).importsOf name := by
    decide +kernel
  have houtcome : ((Config.mk "/" false "").resolve .diamond "main").outcome.toOption =
      some "y\n#define_import_path .\ny\n\nx".toList := by
    decide +kernel
  exact ⟨hnamed, (plainlyResolves_iff _ _ _ hnamed _).2 (eq_ok_of_toOption houtcome)⟩

end CellShader
