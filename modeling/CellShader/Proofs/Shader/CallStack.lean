import CellShader.Proofs.Shader.PlainInlining
import Mathlib.Data.Finset.Card

/-!
# Stacks and reads

How deep the expansion goes and how often it reads.  `Calls` says which calls it makes on the way;
from one call to the next the stack gains a name that was not on it, and that some file records.  So
the stack is never longer than there are such names, the bound on the recursion is never met, and
any larger one gives the same (`resolve_congr`).  A name that has been read is on the stack or kept
from then on, and is not read again (`Walks.readsOnce`).
-/

namespace CellShader

namespace Sources

/-! ## Calls -/

/-- The calls made when a template is resolved within a bound: how many files may be expanded inside
one another from there on, the stack, the file on top of it with its text, and what is kept. -/
inductive Calls (s : Sources) (template : String) (bound : Nat) :
    Nat → List String → String → List Char → Expanded → Prop
  | outer {text : List Char} (hin : s.isInside (Path.normalise template) = .ok true)
      (hread : s.read (Path.normalise template) = .ok text) :
      Calls s template bound bound [Path.normalise template] (Path.normalise template) text []
  | inner {depth : Nat} {stack before after : List String} {file target : String}
      {text text' inner : List Char} {known known' : Expanded} {d : Directives}
      (call : Calls s template bound (depth + 1) stack file text known)
      (hscan : Directives.ofText text = .ok d) (htargets : d.targets = before ++ target :: after)
      (hbefore : (s.expandTargets (s.expand depth) file d stack before text known).outcome =
        .ok (text', known'))
      (hin : s.isInside (d.nameOf target) = .ok true) (hstack : d.nameOf target ∉ stack)
      (hknown : known'.lookup (d.nameOf target) = none)
      (hread : s.read (d.nameOf target) = .ok inner) :
      Calls s template bound depth (stack ++ [d.nameOf target]) (d.nameOf target) inner known'

/-- The names that are recorded in files that can be read. -/
def recordedNames (s : Sources) : Set String :=
  {n | ∃ name text, s.read name = .ok text ∧ n ∈ importedNames text}

variable {s : Sources}

theorem nameOf_mem_importedNames {text : List Char} {d : Directives} {target : String}
    (hscan : Directives.ofText text = .ok d) (ht : target ∈ d.targets) :
    d.nameOf target ∈ importedNames text := by
  rw [importedNames, hscan]
  exact List.mem_map_of_mem ht

theorem nodup_push {stack : List String} {name : String} (h : stack.Nodup) (hname : name ∉ stack) :
    (stack ++ [name]).Nodup := by
  refine List.nodup_append.2 ⟨h, by simp, ?_⟩
  rintro a ha b hb rfl
  exact hname (List.mem_singleton.1 hb ▸ ha)

namespace Calls

variable {template file : String} {bound depth : Nat} {stack : List String} {text : List Char}
  {known : Expanded}

theorem read_eq (h : s.Calls template bound depth stack file text known) :
    s.read file = .ok text := by
  cases h with
  | outer _ hread | inner _ _ _ _ _ _ _ hread => exact hread

theorem nodup (h : s.Calls template bound depth stack file text known) : stack.Nodup := by
  induction h with
  | outer => exact List.nodup_singleton _
  | inner _ _ _ _ _ hstack _ _ ih => exact nodup_push ih hstack

theorem depth_add_length (h : s.Calls template bound depth stack file text known) :
    depth + stack.length = bound + 1 := by
  induction h with
  | outer => rfl
  | inner _ _ _ _ _ _ _ _ ih =>
    rw [List.length_append, List.length_singleton]
    omega

theorem mem_recordedNames (h : s.Calls template bound depth stack file text known) :
    ∀ name ∈ stack, name = Path.normalise template ∨ name ∈ s.recordedNames := by
  induction h with
  | outer =>
    intro name hname
    exact .inl (List.mem_singleton.1 hname)
  | @inner _ _ _ _ _ target _ _ _ _ _ d call hscan htargets _ _ _ _ _ ih =>
    refine List.forall_mem_append.2 ⟨ih, List.forall_mem_singleton.2 (.inr ?_)⟩
    have ht : target ∈ d.targets := by simp [htargets]
    exact ⟨_, _, call.read_eq, nameOf_mem_importedNames hscan ht⟩

theorem length_le (h : s.Calls template bound depth stack file text known) {names : Finset String}
    (hnames : (names : Set String) = s.recordedNames) : stack.length ≤ names.card + 1 := by
  have hsub : stack.toFinset ⊆ insert (Path.normalise template) names := by
    intro name hname
    rw [Finset.mem_insert, ← Finset.mem_coe, hnames]
    exact h.mem_recordedNames name (List.mem_toFinset.1 hname)
  calc stack.length = stack.toFinset.card := (List.toFinset_card_of_nodup h.nodup).symm
    _ ≤ (insert (Path.normalise template) names).card := Finset.card_le_card hsub
    _ ≤ names.card + 1 := Finset.card_insert_le _ _

end Calls

open Classical in
theorem exists_coe_eq_recordedNames {names : List String} (hs : s.ImportsWithin names) :
    ∃ recorded : Finset String, (recorded : Set String) = s.recordedNames ∧
      recorded.card ≤ names.length := by
  refine ⟨names.toFinset.filter (· ∈ s.recordedNames), ?_, ?_⟩
  · refine Set.ext fun n => ?_
    rw [Finset.mem_coe, Finset.mem_filter, List.mem_toFinset]
    refine and_iff_right_of_imp ?_
    rintro ⟨name, text, hread, hn⟩
    exact hs name text hread n hn
  · exact (Finset.card_filter_le _ _).trans (List.toFinset_card_le _)

@[simp] theorem readNames_append (a b : List Event) :
    readNames (a ++ b) = readNames a ++ readNames b := List.filterMap_append

@[simp] theorem readNames_testing (name : String) (events : List Event) :
    readNames (.testing name :: events) = readNames events := rfl

@[simp] theorem readNames_reading (root name : String) (events : List Event) :
    readNames (.reading root name :: events) = name :: readNames events := rfl

@[simp] theorem readNames_expanding (target file : String) (events : List Event) :
    readNames (.expanding target file :: events) = readNames events := rfl

/-! ## Each file that is read is expanded -/

section Steps

variable {expandFile : List String → String → List Char → Expanded → Expansion}
  {file target name : String} {d : Directives} {stack before targets : List String}
  {text text' : List Char} {known known' : Expanded} {r : List Char × Expanded}

/-- Targets can be expanded if the first can, and the others in what comes of it. -/
theorem outcome_expandTargets_cons_iff :
    (s.expandTargets expandFile file d stack (target :: targets) text known).outcome = .ok r ↔
      s.isInside (d.nameOf target) = .ok true ∧ d.nameOf target ∉ stack ∧
        ∃ x, (s.expandTarget expandFile file target (d.nameOf target) stack known).outcome = .ok x ∧
          (s.expandTargets expandFile file d stack targets
            (Inlining.replaceImport text target.toList x.1) x.2).outcome = .ok r := by
  rw [expandTargets, Told.tell_bind]
  rcases hin : s.isInside (d.nameOf target) with refusal | (_ | _)
  · simp [Told.fail]
  · simp [Told.failWith]
  · by_cases hstack : d.nameOf target ∈ stack
    · simp [hstack, Told.failWith]
    · simp [hstack, Told.outcome_bind_eq_ok_iff, Told.tell_bind]

theorem outcome_expandTargets_append
    (h : (s.expandTargets expandFile file d stack before text known).outcome =
      .ok (text', known')) :
    (s.expandTargets expandFile file d stack (before ++ targets) text known).outcome = .ok r ↔
      (s.expandTargets expandFile file d stack targets text' known').outcome = .ok r := by
  induction before generalizing text known with
  | nil =>
    obtain ⟨rfl, rfl⟩ := Prod.mk.inj (Except.ok.inj h)
    rfl
  | cons target before ih =>
    obtain ⟨hin, hstack, x, hx, hrest⟩ := outcome_expandTargets_cons_iff.1 h
    rw [List.cons_append, outcome_expandTargets_cons_iff, ← ih hrest]
    simp [hin, hstack, hx]

theorem mem_readNames_expandTargets_cons
    (h : name ∈ readNames
      (s.expandTargets expandFile file d stack (target :: targets) text known).events) :
    s.isInside (d.nameOf target) = .ok true ∧ d.nameOf target ∉ stack ∧
      (name ∈ readNames
          (s.expandTarget expandFile file target (d.nameOf target) stack known).events ∨
        ∃ x, (s.expandTarget expandFile file target (d.nameOf target) stack known).outcome = .ok x ∧
          name ∈ readNames (s.expandTargets expandFile file d stack targets
            (Inlining.replaceImport text target.toList x.1) x.2).events) := by
  rw [expandTargets, Told.tell_bind] at h
  rcases hin : s.isInside (d.nameOf target) with refusal | (_ | _) <;> rw [hin] at h
  · simp [Told.fail, readNames] at h
  · simp [Told.failWith, readNames] at h
  · by_cases hstack : d.nameOf target ∈ stack
    · simp [hstack, Told.failWith, readNames] at h
    · dsimp only at h
      rw [if_neg hstack, readNames_testing] at h
      refine ⟨rfl, hstack, ?_⟩
      cases hx : (s.expandTarget expandFile file target (d.nameOf target) stack known).outcome with
      | error e =>
        rw [Told.bind_of_error hx] at h
        exact .inl h
      | ok x =>
        rw [Told.bind_of_ok hx, readNames_append, List.mem_append] at h
        exact h.imp_right fun h => ⟨x, rfl, h⟩

end Steps

section Expanded

variable {template file name : String} {bound depth : Nat} {stack : List String}
  {text inner : List Char} {known : Expanded}

theorem Calls.exists_of_mem_readNames_targets {d : Directives} {targets before : List String}
    {text' : List Char} {known' : Expanded}
    (call : s.Calls template bound (depth + 1) stack file text known)
    (hscan : Directives.ofText text = .ok d) (hinner : s.read name = .ok inner)
    (hsub : ∀ stack file text known, s.Calls template bound depth stack file text known →
      name ∈ readNames (s.expand depth stack file text known).events →
        ∃ depth stack known, s.Calls template bound depth stack name inner known)
    (htargets : d.targets = before ++ targets)
    (hbefore : (s.expandTargets (s.expand depth) file d stack before text known).outcome =
      .ok (text', known'))
    (hname : name ∈ readNames
      (s.expandTargets (s.expand depth) file d stack targets text' known').events) :
    ∃ depth stack known, s.Calls template bound depth stack name inner known := by
  induction targets generalizing before text' known' with
  | nil => simp [expandTargets, pure, readNames] at hname
  | cons target targets ih =>
    obtain ⟨hin, hstack, hname | ⟨x, hx, hname⟩⟩ := mem_readNames_expandTargets_cons hname
    · cases hknown : known'.lookup (d.nameOf target) with
      | some contents => simp [expandTarget, hknown, pure, readNames] at hname
      | none =>
        cases hread : s.read (d.nameOf target) with
        | error fault =>
          have hsame : name = d.nameOf target := by
            rw [expandTarget, hknown, readImport, hread] at hname
            cases fault <;> simpa [Told.tell, Told.failWith, Told.fail, bind, Told.andThen,
              readNames] using hname
          rw [hsame, hread] at hinner
          cases hinner
        | ok inner' =>
          have hcall := Calls.inner call hscan htargets hbefore hin hstack hknown hread
          rw [expandTarget_of_read hknown hread, readNames_reading, List.mem_cons] at hname
          rcases hname with rfl | hname
          · obtain rfl := Except.ok.inj (hread.symm.trans hinner)
            exact ⟨_, _, _, hcall⟩
          · exact hsub _ _ _ _ hcall hname
    · refine @ih (before ++ [target]) _ _ (by simp [htargets]) ?_ hname
      rw [outcome_expandTargets_append hbefore, outcome_expandTargets_cons_iff]
      exact ⟨hin, hstack, x, hx, rfl⟩

/-- What is read as text is expanded in a call of its own. -/
theorem Calls.exists_of_mem_readNames (call : s.Calls template bound depth stack file text known)
    (hinner : s.read name = .ok inner)
    (hname : name ∈ readNames (s.expand depth stack file text known).events) :
    ∃ depth stack known, s.Calls template bound depth stack name inner known := by
  induction depth generalizing stack file text known with
  | zero => simp [expand, Told.failWith, readNames] at hname
  | succ depth ih =>
    rw [expand, scan] at hname
    cases hscan : Directives.ofText text with
    | error paths => simp [hscan, Told.failWith, bind, Told.andThen, readNames] at hname
    | ok d =>
      rw [hscan] at hname
      exact call.exists_of_mem_readNames_targets hscan hinner (fun _ _ _ _ => ih)
        (List.nil_append _).symm rfl hname

theorem exists_calls_of_mem_readNames_resolve (hinner : s.read name = .ok inner)
    (hname : name ∈ readNames (s.resolve bound template).events) :
    ∃ depth stack known, s.Calls template bound depth stack name inner known := by
  rw [resolve, Told.tell_bind, readNames_testing] at hname
  rcases hin : s.isInside (Path.normalise template) with refusal | (_ | _) <;> rw [hin] at hname
  · simp [Told.fail, readNames] at hname
  · simp [Told.failWith, readNames] at hname
  dsimp only at hname
  rw [Told.tell_bind, readNames_reading, List.mem_cons] at hname
  rcases hname with rfl | hname
  · exact ⟨_, _, _, .outer hin hinner⟩
  · cases hread : s.read (Path.normalise template) with
    | error fault =>
      rw [hread] at hname
      cases fault <;> simp [Told.failWith, Told.fail, readNames] at hname
    | ok text =>
      rw [hread] at hname
      refine (Calls.outer hin hread).exists_of_mem_readNames hinner ?_
      cases hx : (s.expand bound [Path.normalise template] (Path.normalise template) text
          []).outcome with
      | error e => simpa [Told.bind_of_error hx] using hname
      | ok x => simpa [Told.bind_of_ok hx, pure] using hname

end Expanded

/-! ## The bound does not matter -/

/-- Targets are expanded alike if the files on top of the stack are. -/
theorem expandTargets_congr {names stack : List String}
    {expandFile expandFile' : List String → String → List Char → Expanded → Expansion}
    (hfile : ∀ name ∈ names, name ∉ stack → ∀ text, s.read name = .ok text → ∀ known,
      expandFile (stack ++ [name]) name text known = expandFile' (stack ++ [name]) name text known)
    (file : String) (d : Directives) {targets : List String}
    (hnames : ∀ target ∈ targets, d.nameOf target ∈ names) (text : List Char) (known : Expanded) :
    s.expandTargets expandFile file d stack targets text known =
      s.expandTargets expandFile' file d stack targets text known := by
  induction targets generalizing text known with
  | nil => rfl
  | cons target targets ih =>
    obtain ⟨hname, hrest⟩ := List.forall_mem_cons.1 hnames
    have htarget (hstack : d.nameOf target ∉ stack) :
        s.expandTarget expandFile file target (d.nameOf target) stack known =
          s.expandTarget expandFile' file target (d.nameOf target) stack known := by
      cases hknown : known.lookup (d.nameOf target) with
      | some contents => simp only [expandTarget, hknown]
      | none =>
        cases hread : s.read (d.nameOf target) with
        | error fault =>
          rw [expandTarget, expandTarget, readImport, hknown, hread]
          cases fault <;> rfl
        | ok inner =>
          rw [expandTarget_of_read hknown hread, expandTarget_of_read hknown hread,
            hfile _ hname hstack inner hread known]
    rw [expandTargets, expandTargets]
    by_cases hstack : d.nameOf target ∈ stack
    · simp only [if_pos hstack]
    · simp only [if_neg hstack, htarget hstack, ih hrest]

/-- Two bounds that exceed what can still be put on the stack give the same. -/
theorem expand_congr {names : List String} (hs : s.ImportsWithin names) {root file : String}
    {text : List Char} (hread : s.read file = .ok text) {stack : List String} (hnodup : stack.Nodup)
    (hsub : stack ⊆ root :: names) {depth depth' : Nat}
    (hdepth : names.length + 1 < depth + stack.length)
    (hdepth' : names.length + 1 < depth' + stack.length) (known : Expanded) :
    s.expand depth stack file text known = s.expand depth' stack file text known := by
  have hlen := length_le_of_nodup hnodup hsub
  induction depth generalizing depth' stack file text known with
  | zero => omega
  | succ depth ih =>
    obtain ⟨depth', rfl⟩ : ∃ n, depth' = n + 1 := Nat.exists_eq_succ_of_ne_zero (by omega)
    rw [expand, expand, scan]
    cases hscan : Directives.ofText text with
    | error paths => rfl
    | ok d =>
      have hnames : ∀ target ∈ d.targets, d.nameOf target ∈ names := fun target ht =>
        hs file text hread _ (nameOf_mem_importedNames hscan ht)
      refine expandTargets_congr (fun name hname hstack inner hinner known => ?_) file d hnames text
        known
      have hpush := nodup_push hnodup hstack
      have hsub' : stack ++ [name] ⊆ root :: names :=
        List.append_subset.2 ⟨hsub, by simpa using Or.inr hname⟩
      have hlen' : (stack ++ [name]).length = stack.length + 1 := by simp
      exact ih hinner hpush hsub' (by omega) (by omega) known (length_le_of_nodup hpush hsub')

theorem resolve_congr {names : List String} (hs : s.ImportsWithin names) (template : String)
    {bound bound' : Nat} (h : names.length < bound) (h' : names.length < bound') :
    s.resolve bound template = s.resolve bound' template := by
  rw [resolve, resolve]
  cases hread : s.read (Path.normalise template) with
  | error fault => cases fault <;> rfl
  | ok text =>
    have hsub : [Path.normalise template] ⊆ Path.normalise template :: names := by simp
    have hlen : [Path.normalise template].length = 1 := rfl
    have hexpand : s.expand bound [Path.normalise template] (Path.normalise template) text [] =
        s.expand bound' [Path.normalise template] (Path.normalise template) text [] :=
      expand_congr hs hread (List.nodup_singleton _) hsub (by omega) (by omega) []
    simp only [hexpand]

/-! ## Reading once -/

/-- Whether a walk reads no name twice, none that is on the stack or kept when it begins, and keeps
all that it reads if it comes to its end. -/
structure ReadsOnce (stack : List String) (known : Expanded) (events : List Event)
    (r : Except Failure (List Char × Expanded)) : Prop where
  nodup : (readNames events).Nodup
  offStack : (readNames events).Disjoint stack
  fresh : Apart (readNames events) known
  kept : ∀ text' known', r = .ok (text', known') → ∀ name,
    (known.lookup name).isSome ∨ name ∈ readNames events → (known'.lookup name).isSome

theorem Walks.readsOnce {file : String} {d : Directives} {stack targets : List String}
    {text : List Char} {known : Expanded} {events : List Event}
    {r : Except Failure (List Char × Expanded)}
    (h : s.Walks file d stack targets text known events r) : ReadsOnce stack known events r := by
  induction h with
  | done =>
    refine ⟨List.nodup_nil, by simp [readNames], fun _ h => by simp [readNames] at h, ?_⟩
    rintro text' known' ⟨⟩ name hname
    simpa [readNames] using hname
  | refused | outside | cycle =>
    exact ⟨List.nodup_nil, by simp [readNames], fun _ h => by simp [readNames] at h, by simp⟩
  | unreadable _ hstack hknown | unopened _ hstack hknown | undecodable _ hstack hknown
  | declaredTwice _ hstack hknown =>
    exact ⟨List.nodup_singleton _, List.singleton_disjoint.2 hstack,
      List.forall_mem_singleton.2 hknown, by simp⟩
  | kept _ _ _ _ ih => exact ⟨ih.nodup, ih.offStack, ih.fresh, ih.kept⟩
  | failed _ hstack hknown _ _ _ ih =>
    obtain ⟨hoff, hself⟩ := List.disjoint_append_right.1 ih.offStack
    exact ⟨List.nodup_cons.2 ⟨List.disjoint_singleton.1 hself, ih.nodup⟩,
      List.disjoint_cons_left.2 ⟨hstack, hoff⟩, List.forall_mem_cons.2 ⟨hknown, ih.fresh⟩, by simp⟩
  | @expanded file d stack _ _ known known' target _ contents _ events events' _ _ hstack hknown
      _ _ _ _ ihsub ih =>
    obtain ⟨hoff, hself⟩ := List.disjoint_append_right.1 ihsub.offStack
    have hreads : readNames (.testing (d.nameOf target) :: .reading s.root (d.nameOf target) ::
        (events ++ .expanding target file :: events')) =
          d.nameOf target :: (readNames events ++ readNames events') := by simp
    have hkept := ihsub.kept contents known' rfl
    -- what is read after the file is neither the file itself nor anything read inside it
    have hne : d.nameOf target ∉ readNames events' := by
      intro hmem
      have hnone := ih.fresh _ hmem
      rw [List.lookup_cons_self] at hnone
      cases hnone
    have hfresh' : Apart (readNames events') known' := ih.fresh.tail
    have hdisjoint : (readNames events).Disjoint (readNames events') := by
      intro name hname hname'
      have hsome := hkept name (.inr hname)
      rw [hfresh' name hname'] at hsome
      cases hsome
    have hfresh : Apart (readNames events') known := by
      intro name hname
      by_contra hsome
      have hsome' := hkept name (.inl (Option.isSome_iff_ne_none.2 hsome))
      rw [hfresh' name hname] at hsome'
      cases hsome'
    refine ⟨?_, ?_, ?_, fun text' known'' hr name hname => ih.kept text' known'' hr name ?_⟩
    · rw [hreads, List.nodup_cons, List.mem_append, not_or, List.nodup_append']
      exact ⟨⟨List.disjoint_singleton.1 hself, hne⟩, ihsub.nodup, ih.nodup, hdisjoint⟩
    · rw [hreads]
      exact List.disjoint_cons_left.2 ⟨hstack, List.disjoint_append_left.2 ⟨hoff, ih.offStack⟩⟩
    · rw [hreads]
      exact List.forall_mem_cons.2 ⟨hknown, List.forall_mem_append.2 ⟨ihsub.fresh, hfresh⟩⟩
    · rw [hreads, List.mem_cons, List.mem_append] at hname
      rcases hname with hname | rfl | hname | hname
      · exact .inl (isSome_lookup_cons (hkept name (.inl hname)) _ _)
      · exact .inl (by simp)
      · exact .inl (isSome_lookup_cons (hkept name (.inr hname)) _ _)
      · exact .inr hname

theorem Resolves.nodup_readNames {template : String} {events : List Event}
    {r : Except Failure (List Char)} (h : s.Resolves template events r) :
    (readNames events).Nodup := by
  cases h with
  | refused | outside => exact List.nodup_nil
  | unreadable | unopened | undecodable | declaredTwice => exact List.nodup_singleton _
  | expanded _ _ _ walk =>
    have hwalk := walk.readsOnce
    exact List.nodup_cons.2 ⟨List.disjoint_singleton.1 hwalk.offStack, hwalk.nodup⟩

end Sources

/-- Resolving a template comes to its end by itself.  The outcome is the one by the rules, which
know no bound, and no name is read twice.  The names that are recorded in files that can be read are
finitely many.  Any bound above their number gives the outcome, with a call for each file that is
read, and no call is made with nothing left of such a bound.  At no call is a name twice on the
stack, or the stack longer than the template and the recorded names. -/
theorem Config.resolve_ends_within_recordedNames (c : Config) (t : FileTree) (template : String) :
    (c.sources t).Resolves template (c.resolve t template).events (c.resolve t template).outcome ∧
    (Sources.readNames (c.resolve t template).events).Nodup ∧
    ∃ names : Finset String, (names : Set String) = (c.sources t).recordedNames ∧
      (∀ bound, names.card < bound →
        (c.sources t).resolve bound template = c.resolve t template ∧
        (∀ name ∈ Sources.readNames (c.resolve t template).events,
          ∀ text, (c.sources t).read name = .ok text → ∃ depth stack known,
            (c.sources t).Calls template bound depth stack name text known) ∧
        ∀ depth stack file text known,
          (c.sources t).Calls template bound depth stack file text known → depth ≠ 0) ∧
      ∀ bound depth stack file text known,
        (c.sources t).Calls template bound depth stack file text known →
          stack.Nodup ∧ stack.length ≤ 1 + names.card := by
  have hs := Sources.importsWithin_ofTree t c.assetRoot
  obtain ⟨names, hnames, hcard⟩ := Sources.exists_coe_eq_recordedNames hs
  refine ⟨c.resolves t template, (c.resolves t template).nodup_readNames, names, hnames,
    fun bound hbound => ?_, fun bound depth stack file text known hcall => ?_⟩
  · have hresolve : (c.sources t).resolve bound template = c.resolve t template := by
      have himports : (c.sources t).ImportsWithin names.toList := by
        intro name text hread m hm
        rw [Finset.mem_toList, ← Finset.mem_coe, hnames]
        exact ⟨name, text, hread, hm⟩
      have hlen := names.length_toList
      have hle : names.card ≤ t.allImportedNames.length := hcard
      exact Sources.resolve_congr himports template (by omega) (by omega)
    refine ⟨hresolve, fun name hname text htext => ?_, fun depth stack file text known hcall => ?_⟩
    · rw [← hresolve] at hname
      exact Sources.exists_calls_of_mem_readNames_resolve htext hname
    · have hlen := hcall.length_le hnames
      have hsum := hcall.depth_add_length
      omega
  · have hlen := hcall.length_le hnames
    exact ⟨hcall.nodup, by omega⟩

end CellShader
