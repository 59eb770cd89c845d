import CellShader.Proofs.Shader.Cycle
import CellShader.Proofs.Shader.Moments

/-!
# The stack and what is kept

What holds of the stack and of what is kept at every moment of the expansion.  The two depend on one
another.  A file can be kept since all that it imports is kept by then (`Settled`), none of what is
on the stack is kept when a call begins (`Apart`), the stack is the way from the root through the
callers (`Pending`), and each caller has put in the targets before the present one (`Midway`).  So
only all of this together is preserved by every step (`Step.isSound`).  What is kept for a file is
what the file is expanded to by itself (`Settled.exists_expand_alone`), since two tables that are
settled agree (`Settled.agree`).
-/

namespace CellShader

open Relation

/-! ## Texts with some targets put in -/

namespace Directives

variable {d : Directives} {known known' : Expanded} {targets : List String} {text : List Char}

theorem inlined_concat {target : String} {contents : List Char}
    (h : known.lookup (d.nameOf target) = some contents) :
    d.inlined known (targets ++ [target]) text =
      Inlining.replaceImport (d.inlined known targets text) target.toList contents := by
  rw [inlined, List.foldl_append, List.foldl_cons, List.foldl_nil, h]
  rfl

theorem inlined_congr
    (h : ∀ target ∈ targets, known.lookup (d.nameOf target) = known'.lookup (d.nameOf target)) :
    d.inlined known targets text = d.inlined known' targets text := by
  induction targets generalizing text with
  | nil => rfl
  | cons target targets ih =>
    obtain ⟨htarget, hrest⟩ := List.forall_mem_cons.1 h
    rw [inlined, inlined, List.foldl_cons, List.foldl_cons, htarget]
    exact ih hrest

end Directives

theorem Grows.lookup_eq {known known' : Expanded} (h : Grows known known') {name : String}
    (hname : (known.lookup name).isSome) : known'.lookup name = known.lookup name := by
  obtain ⟨contents, hcontents⟩ := Option.isSome_iff_exists.1 hname
  rw [hcontents, h name contents hcontents]

theorem Grows.isSome_lookup {known known' : Expanded} (h : Grows known known') {name : String}
    (hname : (known.lookup name).isSome) : (known'.lookup name).isSome := by
  rwa [h.lookup_eq hname]

/-- Texts that are put in stay the same while more is kept. -/
theorem Grows.inlined_eq {known known' : Expanded} (h : Grows known known') {d : Directives}
    {targets : List String} (hkept : ∀ target ∈ targets, (known.lookup (d.nameOf target)).isSome)
    (text : List Char) : d.inlined known' targets text = d.inlined known targets text :=
  Directives.inlined_congr fun target ht => h.lookup_eq (hkept target ht)

namespace Sources

variable {s : Sources} {root file : String} {d : Directives} {stack targets : List String}
  {text : List Char} {known known' : Expanded}

/-- Whether a text is that of a file with all put in that is kept for the targets before the given
ones. -/
inductive Midway (s : Sources) (file : String) (d : Directives) (targets : List String)
    (known : Expanded) : List Char → Prop
  | intro {whole : List Char} {before : List String} (hin : s.isInside file = .ok true)
      (hread : s.read file = .ok whole) (hscan : Directives.ofText whole = .ok d)
      (hsplit : d.targets = before ++ targets)
      (hkept : ∀ target ∈ before, (known.lookup (d.nameOf target)).isSome) :
      Midway s file d targets known (d.inlined known before whole)

namespace Midway

theorem start (hin : s.isInside file = .ok true) (hread : s.read file = .ok text)
    (hscan : Directives.ofText text = .ok d) : s.Midway file d d.targets known text :=
  .intro hin hread hscan (List.nil_append _).symm (List.forall_mem_nil _)

theorem next {target : String} {contents : List Char}
    (h : s.Midway file d (target :: targets) known text)
    (hknown : known.lookup (d.nameOf target) = some contents) :
    s.Midway file d targets known (Inlining.replaceImport text target.toList contents) := by
  obtain ⟨hin, hread, hscan, hsplit, hkept⟩ := h
  rw [← Directives.inlined_concat hknown]
  refine .intro hin hread hscan (by simp [hsplit]) (List.forall_mem_append.2 ⟨hkept, ?_⟩)
  exact List.forall_mem_singleton.2 (by simp [hknown])

theorem mono (h : s.Midway file d targets known text) (hgrows : Grows known known') :
    s.Midway file d targets known' text := by
  obtain ⟨hin, hread, hscan, hsplit, hkept⟩ := h
  rw [← hgrows.inlined_eq hkept]
  exact .intro hin hread hscan hsplit fun target ht => hgrows.isSome_lookup (hkept target ht)

theorem imports {target : String} (h : s.Midway file d (target :: targets) known text) :
    s.Imports file (d.nameOf target) := by
  obtain ⟨-, hread, hscan, hsplit, -⟩ := h
  exact (imports_iff_of_ofText hread hscan).2 ⟨target, by simp [hsplit], rfl⟩

theorem mem_recordedNames {target : String}
    (h : s.Midway file d (target :: targets) known text) : d.nameOf target ∈ s.recordedNames := by
  obtain @⟨whole, before, -, hread, hscan, hsplit, -⟩ := h
  exact ⟨file, whole, hread, nameOf_mem_importedNames hscan (by simp [hsplit])⟩

/-- A text with all targets put in can be kept. -/
theorem settled (h : s.Midway file d [] known text) (hsettled : s.Settled known)
    (hfresh : known.lookup file = none) : s.Settled ((file, text) :: known) := by
  obtain ⟨hin, hread, hscan, hsplit, hkept⟩ := h
  rw [List.append_nil] at hsplit
  subst hsplit
  exact .cons hsettled hfresh hin hread hscan hkept

end Midway

/-! ## What holds at a moment -/

/-- How the stack comes about from the callers: below a file are the files for whose callers it is
expanded, down to the root. -/
inductive Pending (s : Sources) (root : String) : List Caller → String → List String → Prop
  | outer : Pending s root [] root [root]
  | inner {callers : List Caller} {caller : Caller} {stack : List String}
      (below : Pending s root callers caller.file stack)
      (himports : s.Imports caller.file caller.name) (hname : caller.name ∉ stack) :
      Pending s root (caller :: callers) caller.name (stack ++ [caller.name])

theorem Pending.push {callers : List Caller} {target : String}
    (h : s.Pending root callers file stack) (himports : s.Imports file (d.nameOf target))
    (hname : d.nameOf target ∉ stack) :
    s.Pending root (⟨file, d, target, targets, text⟩ :: callers) (d.nameOf target)
      (stack ++ [d.nameOf target]) :=
  @inner s root callers ⟨file, d, target, targets, text⟩ stack h himports hname

theorem Pending.isWay {callers : List Caller} (h : s.Pending root callers file stack) :
    s.IsWay root file stack := by
  induction h with
  | outer => exact isWay_root
  | inner _ himports hname ih => exact ih.push himports hname

theorem Pending.head?_eq {callers : List Caller} (h : s.Pending root callers file stack) :
    stack.head? = some root := by
  induction h with
  | outer => rfl
  | inner _ _ _ ih => rw [List.head?_append, ih, Option.some_or]

theorem Pending.subset {names : List String} (hs : s.ImportsWithin names) {callers : List Caller}
    (h : s.Pending root callers file stack) (hcallers : ∀ c ∈ callers, c.name ∈ s.recordedNames) :
    stack ⊆ root :: names := by
  induction h with
  | outer => simp
  | inner _ _ _ ih =>
    obtain ⟨hcaller, hrest⟩ := List.forall_mem_cons.1 hcallers
    refine List.append_subset.2 ⟨ih hrest, List.forall_mem_singleton.2 ?_⟩
    exact List.mem_cons_of_mem _ (mem_of_mem_recordedNames hs hcaller)

/-- The callers tell the stack. -/
theorem Pending.unique {callers : List Caller} {file' : String} {stack' : List String}
    (h : s.Pending root callers file stack) (h' : s.Pending root callers file' stack') :
    file = file' ∧ stack = stack' := by
  induction h generalizing file' stack' with
  | outer =>
    cases h'
    exact ⟨rfl, rfl⟩
  | inner _ _ _ ih =>
    cases h' with
    | inner below =>
      obtain ⟨-, rfl⟩ := ih below
      exact ⟨rfl, rfl⟩

/-- What has to hold for what is next, `file` being on top of the stack.  Just after a text has been
kept, its file is still on the stack. -/
inductive Fits (s : Sources) (file : String) (stack : List String) (known : Expanded) :
    Control → Prop
  | entering {text : List Char} (hin : s.isInside file = .ok true) (hread : s.read file = .ok text)
      (hapart : Apart stack known) : Fits s file stack known (.entering file text)
  | looping {d : Directives} {targets : List String} {text : List Char}
      (hmidway : s.Midway file d targets known text) (hapart : Apart stack known) :
      Fits s file stack known (.looping file d targets text)
  | returning {d : Directives} {contents : List Char}
      (hmidway : s.Midway file d [] known contents) (hapart : Apart stack known) :
      Fits s file stack known (.returning contents)
  | kept {contents : List Char} (hlookup : known.lookup file = some contents)
      (hapart : Apart stack.dropLast known) : Fits s file stack known (.kept contents)
  | ended {outcome : Except Failure (List Char)} : Fits s file stack known (.ended outcome)

/-- Whether the bookkeeping is in order at a moment. -/
structure IsSound (s : Sources) (root : String) (m : Moment) : Prop where
  settled : s.Settled m.known
  paused : ∀ c ∈ m.callers, s.Midway c.file c.directives (c.target :: c.targets) m.known c.text
  exists_file : ∃ file,
    s.Pending root m.callers file m.stack ∧ s.Fits file m.stack m.known m.control

theorem isSound_start (hin : s.isInside root = .ok true) (hread : s.read root = .ok text) :
    s.IsSound root ⟨[root], [], [], .entering root text⟩ where
  settled := .nil
  paused := List.forall_mem_nil _
  exists_file := ⟨root, .outer, .entering hin hread fun _ _ => rfl⟩

/-- A step leaves the bookkeeping in order, and what is kept stays kept. -/
theorem Step.isSound {m m' : Moment} (step : s.Step m m') (h : s.IsSound root m) :
    s.IsSound root m' ∧ Grows m.known m'.known := by
  obtain ⟨settled, paused, file, pending, fits⟩ := h
  cases step with
  | declaredTwice | refused | outside | cycle | unreadable | unopened | undecodable | finish =>
    exact ⟨⟨settled, paused, file, pending, .ended⟩, .refl _⟩
  | scan hscan =>
    cases fits with
    | entering hin hread hapart =>
      exact ⟨⟨settled, paused, _, pending, .looping (.start hin hread hscan) hapart⟩, .refl _⟩
  | done =>
    cases fits with
    | looping hmidway hapart =>
      exact ⟨⟨settled, paused, _, pending, .returning hmidway hapart⟩, .refl _⟩
  | found _ _ hknown =>
    cases fits with
    | looping hmidway hapart =>
      exact ⟨⟨settled, paused, _, pending, .looping (hmidway.next hknown) hapart⟩, .refl _⟩
  | call hin hstack hknown hread =>
    cases fits with
    | looping hmidway hapart =>
      exact ⟨⟨settled, List.forall_mem_cons.2 ⟨hmidway, paused⟩, _,
        pending.push hmidway.imports hstack, .entering hin hread (hapart.push hknown)⟩, .refl _⟩
  | @keep _ known caller callers contents =>
    cases fits with
    | returning hmidway hapart =>
      cases pending with
      | @inner _ _ stack below himports hname =>
        have hfresh : known.lookup caller.name = none := hapart _ (by simp)
        have hgrows := grows_cons hfresh contents
        have hbelow := hapart.keep hname contents
        have hstack : (stack ++ [caller.name]).dropLast = stack := List.dropLast_concat
        rw [← hstack] at hbelow
        exact ⟨⟨hmidway.settled settled hfresh, fun c hc => (paused c hc).mono hgrows, _,
          .inner below himports hname, .kept List.lookup_cons_self hbelow⟩, hgrows⟩
  | @pop _ _ caller =>
    cases fits with
    | kept hlookup hapart =>
      cases pending with
      | @inner _ _ stack below himports hname =>
        obtain ⟨hmidway, hpaused⟩ := List.forall_mem_cons.1 paused
        have hstack : (stack ++ [caller.name]).dropLast = stack := List.dropLast_concat
        rw [← hstack] at below
        exact ⟨⟨settled, hpaused, _, below, .looping (hmidway.next hlookup) hapart⟩, .refl _⟩

theorem Steps.isSound {m m' : Moment} (steps : s.Steps m m') (h : s.IsSound root m) :
    s.IsSound root m' ∧ Grows m.known m'.known := by
  induction steps with
  | refl => exact ⟨h, .refl _⟩
  | tail _ step ih =>
    obtain ⟨hsound, hgrows⟩ := step.isSound ih.1
    exact ⟨hsound, ih.2.trans hgrows⟩

theorem IsMoment.isSound {template : String} {m : Moment} (h : s.IsMoment template m) :
    s.IsSound (Path.normalise template) m := by
  obtain ⟨hin, hread, steps⟩ := h
  exact (steps.isSound (isSound_start hin hread)).1

namespace IsSound

variable {m m' : Moment}

theorem apart (h : s.IsSound root m) (hentering : m.control = .entering file text) :
    Apart m.stack m.known := by
  obtain ⟨file', -, hfits⟩ := h.exists_file
  rw [hentering] at hfits
  cases hfits with
  | entering _ _ hapart => exact hapart

/-- A call that begins comes to what the expansion gives for its stack and what is kept. -/
theorem comesTo {names : List String} (hs : s.ImportsWithin names) (h : s.IsSound root m)
    (hentering : m.control = .entering file text) {bound : Nat} (hbound : names.length < bound) :
    s.ComesTo m (s.expand bound m.stack file text m.known).outcome := by
  obtain ⟨stack, known, callers, control⟩ := m
  obtain rfl : control = .entering file text := hentering
  obtain ⟨file', hpending, hfits⟩ := h.exists_file
  cases hfits with
  | entering _ hread =>
    have hsub := hpending.subset hs fun c hc => (h.paused c hc).mem_recordedNames
    have hlength : stack.length ≠ 0 := by
      intro hzero
      have hhead := hpending.head?_eq
      rw [List.length_eq_zero_iff.1 hzero] at hhead
      cases hhead
    have hwalk := walksFile_expand hs hread hpending.isWay.nodup hsub
      (by omega : names.length + 1 < bound + stack.length) known
    exact hwalk.comesTo callers

/-- Two moments with the same callers have the same stack. -/
theorem stack_eq (h : s.IsSound root m) (h' : s.IsSound root m')
    (hcallers : m'.callers = m.callers) : m'.stack = m.stack := by
  obtain ⟨_, hpending, -⟩ := h.exists_file
  obtain ⟨_, hpending', -⟩ := h'.exists_file
  rw [hcallers] at hpending'
  exact (hpending'.unique hpending).2

end IsSound

/-! ## Files by themselves -/

/-- What is kept was made from other kept texts. -/
theorem Settled.exists_inlined (h : s.Settled known) {name : String} {contents : List Char}
    (hname : known.lookup name = some contents) :
    ∃ text d, s.read name = .ok text ∧ Directives.ofText text = .ok d ∧
      (∀ target ∈ d.targets, (known.lookup (d.nameOf target)).isSome) ∧
      contents = d.inlined known d.targets text := by
  induction h with
  | nil => cases hname
  | @cons known n text d _ fresh _ hread hscan htargets ih =>
    have hmade : ∃ text d, s.read name = .ok text ∧ Directives.ofText text = .ok d ∧
        (∀ target ∈ d.targets, (known.lookup (d.nameOf target)).isSome) ∧
        contents = d.inlined known d.targets text := by
      by_cases he : name = n
      · subst he
        rw [List.lookup_cons_self] at hname
        exact ⟨text, d, hread, hscan, htargets, (Option.some.inj hname).symm⟩
      · rw [lookup_cons_of_ne he] at hname
        exact ih hname
    obtain ⟨text', d', hread', hscan', hkept, rfl⟩ := hmade
    have hgrows := grows_cons fresh (d.inlined known d.targets text)
    exact ⟨text', d', hread', hscan', fun target ht => hgrows.isSome_lookup (hkept target ht),
      (hgrows.inlined_eq hkept text').symm⟩

/-- What is kept for a file does not depend on what else is kept, or in which order it was. -/
theorem Settled.agree (h : s.Settled known) (h' : s.Settled known') {name : String}
    {contents contents' : List Char} (hname : known.lookup name = some contents)
    (hname' : known'.lookup name = some contents') : contents = contents' := by
  induction h generalizing name contents contents' with
  | nil => cases hname
  | @cons known n text d _ _ _ hread hscan htargets ih =>
    by_cases he : name = n
    · subst he
      rw [List.lookup_cons_self] at hname
      obtain rfl := Option.some.inj hname
      obtain ⟨text', d', hread', hscan', htargets', rfl⟩ := h'.exists_inlined hname'
      obtain rfl := Except.ok.inj (hread.symm.trans hread')
      obtain rfl := Except.ok.inj (hscan.symm.trans hscan')
      refine Directives.inlined_congr fun target ht => ?_
      obtain ⟨inner, hinner⟩ := Option.isSome_iff_exists.1 (htargets target ht)
      obtain ⟨inner', hinner'⟩ := Option.isSome_iff_exists.1 (htargets' target ht)
      rw [hinner, hinner', ih hinner hinner']
    · rw [lookup_cons_of_ne he] at hname
      exact ih hname hname'

/-- What is kept for a file is what the file is expanded to with nothing kept before and nothing
else on the stack. -/
theorem Settled.exists_expand_alone {names : List String} (hs : s.ImportsWithin names)
    (h : s.Settled known) {name : String} {contents : List Char}
    (hname : known.lookup name = some contents) {bound : Nat} (hbound : names.length < bound) :
    ∃ text known', s.read name = .ok text ∧
      (s.expand bound [name] name text []).outcome = .ok (contents, known') := by
  have hsome : (known.lookup name).isSome := by simp [hname]
  obtain ⟨hin, text, hread, hone⟩ := h.usable hsome
  obtain ⟨_, d, hread', hscan, -, -⟩ := h.exists_inlined hname
  obtain rfl := Except.ok.inj (hread.symm.trans hread')
  have hsub : [name] ⊆ name :: names := by simp
  have hdepth : names.length + 1 < bound + [name].length := by
    rw [List.length_singleton]
    omega
  have hwalk := walksFile_expand hs hread (List.nodup_singleton name) hsub hdepth []
  rw [WalksFile, hscan] at hwalk
  refine ⟨text, ?_⟩
  cases houtcome : (s.expand bound [name] name text []).outcome with
  | error e =>
    -- all that can be reached is kept, and so neither fails nor reaches itself
    rw [houtcome] at hwalk
    obtain ⟨other, hreach, hbad⟩ := hwalk.obstacle
      (fun t ht => (imports_iff_of_ofText hread hscan).2 ⟨t, ht, rfl⟩)
      (List.forall_mem_singleton.2 .refl)
    have hother := h.kept_of_reaches hsome hreach
    rcases hbad with hbad | hbad
    · exact absurd (h.usable hother) hbad
    · exact absurd hbad (h.not_transGen_self hother)
  | ok result =>
    obtain ⟨contents', known'⟩ := result
    rw [houtcome] at hwalk
    have hsettles := hwalk.settles .nil fun _ _ => rfl
    have hfresh := hsettles.apart name (List.mem_singleton_self name)
    have hcons := Settled.cons hsettles.settled hfresh hin hread hscan hsettles.kept
    rw [← hsettles.text_eq] at hcons
    obtain rfl := h.agree hcons hname List.lookup_cons_self
    exact ⟨known', hread, rfl⟩

end Sources

/-- The bookkeeping is in order at every moment at which a template is being resolved.  The stack is
a way along imports from the root, on which no name lies twice; none of it is kept when a call
begins.  With each file all that it imports is kept, and its text is the one to which it is expanded
by itself.  What is kept stays kept, and the stack is the same when a call is returned from as when
it began.  The moments are those of the expansion: from the beginning of a call the steps come to
what the expansion gives, from every moment they lead to the outcome, and each call is made at one
of them. -/
theorem Config.bookkeeping_in_order (c : Config) (t : FileTree) (template : String) :
    (∀ m, (c.sources t).IsMoment template m →
      (m.stack.head? = some (Path.normalise template) ∧
        m.stack.IsChain (c.sources t).Imports ∧ m.stack.Nodup) ∧
      (∀ file text, m.control = .entering file text → Apart m.stack m.known) ∧
      (∀ name contents, m.known.lookup name = some contents →
        (∀ other, (c.sources t).Imports name other → (m.known.lookup other).isSome) ∧
        ∀ bound, t.allImportedNames.length < bound → ∃ text known,
          (c.sources t).read name = .ok text ∧
          ((c.sources t).expand bound [name] name text []).outcome = .ok (contents, known)) ∧
      (∀ m', (c.sources t).Steps m m' → Grows m.known m'.known ∧
        ∀ file text contents, m.control = .entering file text →
          m'.control = .returning contents → m'.callers = m.callers → m'.stack = m.stack) ∧
      (∀ file text bound, m.control = .entering file text → t.allImportedNames.length < bound →
        (c.sources t).ComesTo m ((c.sources t).expand bound m.stack file text m.known).outcome) ∧
      ∃ last, (c.sources t).Steps m last ∧
        last.control = .ended (c.resolve t template).outcome) ∧
    ∀ bound depth stack file text known, t.allImportedNames.length < bound →
      (c.sources t).Calls template bound depth stack file text known →
        ∃ callers,
          (c.sources t).IsMoment template ⟨stack, known, callers, .entering file text⟩ := by
  have hs := Sources.importsWithin_ofTree t c.assetRoot
  refine ⟨fun m hm => ?_, fun bound depth stack file text known hbound hcall =>
    hcall.exists_isMoment hs hbound⟩
  have hsound := hm.isSound
  obtain ⟨_, hpending, -⟩ := hsound.exists_file
  have hway := hpending.isWay
  refine ⟨⟨hpending.head?_eq, hway.isChain, hway.nodup⟩, fun _ _ => hsound.apart,
    fun name contents hname => ⟨fun other => ?_, fun bound => ?_⟩, fun m' hsteps => ?_,
    fun _ _ _ hentering => hsound.comesTo hs hentering,
    hm.exists_steps_of_resolves (c.resolves t template)⟩
  · exact hsound.settled.kept_of_imports (by simp [hname])
  · exact hsound.settled.exists_expand_alone hs hname
  · obtain ⟨hsound', hgrows⟩ := hsteps.isSound hsound
    exact ⟨hgrows, fun _ _ _ _ _ hcallers => hsound.stack_eq hsound' hcallers⟩

/-- The call for the template of the lasso, during which the file off the cycle is expanded. -/
def Caller.lasso : Caller :=
  ⟨"main", ⟨["a", "lib/b"], none⟩, "a", ["lib/b"], "#import a\n#import lib/b".toList⟩

/-- The moment at which that file has just been kept. -/
def Moment.lasso : Moment := ⟨["main", "a"], [("a", ['y'])], [.lasso], .kept ['y']⟩

theorem isMoment_lasso : ((Config.mk "/" false "").sources .lasso).IsMoment "main" .lasso := by
  have hroot : Path.normalise "main" = "main" := by decide +kernel
  have hname : Caller.lasso.name = "a" := by decide +kernel
  have hinMain : ((Config.mk "/" false "").sources .lasso).isInside "main" = .ok true :=
    eq_ok_of_toOption (by decide +kernel)
  have hinA : ((Config.mk "/" false "").sources .lasso).isInside Caller.lasso.name = .ok true :=
    eq_ok_of_toOption (by decide +kernel)
  have hreadMain : ((Config.mk "/" false "").sources .lasso).read "main" = .ok Caller.lasso.text :=
    eq_ok_of_toOption (by decide +kernel)
  have hreadA : ((Config.mk "/" false "").sources .lasso).read Caller.lasso.name = .ok ['y'] :=
    eq_ok_of_toOption (by decide +kernel)
  have hscanMain : Directives.ofText Caller.lasso.text = .ok Caller.lasso.directives :=
    eq_ok_of_toOption (by decide +kernel)
  have hscanA : Directives.ofText ['y'] = .ok {} := eq_ok_of_toOption (by decide +kernel)
  have htargets : Caller.lasso.directives.targets = ["a", "lib/b"] := by decide +kernel
  have hstack : Caller.lasso.name ∉ ["main"] := by rw [hname]; decide
  have hcall : ((Config.mk "/" false "").sources .lasso).Step
      ⟨["main"], [], [], .looping "main" Caller.lasso.directives ["a", "lib/b"] Caller.lasso.text⟩
      ⟨["main", Caller.lasso.name], [], [.lasso], .entering Caller.lasso.name ['y']⟩ :=
    .call hinA hstack rfl hreadA
  have hkeep : ((Config.mk "/" false "").sources .lasso).Step
      ⟨["main", "a"], [], [.lasso], .returning ['y']⟩
      ⟨["main", "a"], [(Caller.lasso.name, ['y'])], [.lasso], .kept ['y']⟩ := .keep
  rw [hname] at hcall hkeep
  refine .intro (hroot ▸ hinMain) (hroot ▸ hreadMain) ?_
  rw [hroot]
  refine .head (.scan hscanMain) ?_
  rw [htargets]
  exact .head hcall (.head (.scan hscanA) (.head .done (.single hkeep)))

theorem Config.bookkeeping_in_order_lasso :
    ((Config.mk "/" false "").sources .lasso).IsMoment "main" .lasso ∧
    ["main", "a"].IsChain ((Config.mk "/" false "").sources .lasso).Imports ∧
    (∃ text known, ((Config.mk "/" false "").sources .lasso).read "a" = .ok text ∧
      (((Config.mk "/" false "").sources .lasso).expand 9 ["a"] "a" text []).outcome =
        .ok (['y'], known)) ∧
    ∃ last, ((Config.mk "/" false "").sources .lasso).Steps .lasso last ∧
      last.control = .ended (.error (.assembly (.importCycle ["lib/b", "lib/c", "lib/b"]))) := by
  have houtcome : ((Config.mk "/" false "").resolve .lasso "main").outcome =
      .error (.assembly (.importCycle ["lib/b", "lib/c", "lib/b"])) :=
    eq_importCycle_of_reportedCycle? (by decide +kernel)
  obtain ⟨⟨-, hchain, -⟩, -, hkept, -, -, last, hsteps, hlast⟩ :=
    (bookkeeping_in_order (.mk "/" false "") .lasso "main").1 _ isMoment_lasso
  rw [houtcome] at hlast
  exact ⟨isMoment_lasso, hchain, (hkept "a" ['y'] rfl).2 9 (by decide +kernel), last, hsteps, hlast⟩

end CellShader
