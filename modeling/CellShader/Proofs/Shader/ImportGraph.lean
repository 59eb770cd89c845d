import CellShader.Proofs.Shader.Scan
import CellShader.Proofs.Shader.Walk
import Mathlib.Logic.Relation

/-!
# The graph of imports

The files form a graph, with an edge from each file to those that it imports.  What a walk keeps is
an order of a part of this graph: each expansion was made from expansions that were kept before
(`Settled`), and no file on the stack is kept (`Apart`).  A template that is resolved leaves such an
order of all that can be reached from it (`Resolves.exists_settled`).  From this follows when a
template can be resolved: `resolve_eq_ok_iff` says that it can be exactly when every file that can
be reached is usable and none of them reaches itself.
-/

namespace CellShader

open Relation

/-! ## What is kept -/

/-- A text with the kept expansions put in for its targets, one target after another. -/
def Directives.inlined (d : Directives) (known : Expanded) (targets : List String)
    (text : List Char) : List Char :=
  targets.foldl (fun text target =>
    Inlining.replaceImport text target.toList ((known.lookup (d.nameOf target)).getD [])) text

/-- Whether all that is kept stays kept. -/
def Grows (known known' : Expanded) : Prop :=
  ∀ name contents, known.lookup name = some contents → known'.lookup name = some contents

theorem Grows.refl (known : Expanded) : Grows known known := fun _ _ h => h

theorem Grows.trans {a b c : Expanded} (hab : Grows a b) (hbc : Grows b c) : Grows a c :=
  fun name contents h => hbc name contents (hab name contents h)

theorem lookup_cons_of_ne {name n : String} (h : name ≠ n) (contents : List Char)
    (known : Expanded) : List.lookup name ((n, contents) :: known) = known.lookup name := by
  rw [List.lookup_cons, beq_eq_false_iff_ne.2 h]

theorem isSome_lookup_cons {known : Expanded} {name : String} (h : (known.lookup name).isSome)
    (n : String) (contents : List Char) : (List.lookup name ((n, contents) :: known)).isSome := by
  by_cases hn : name = n
  · simp [hn]
  · rwa [lookup_cons_of_ne hn]

theorem grows_cons {known : Expanded} {name : String} (h : known.lookup name = none)
    (contents : List Char) : Grows known ((name, contents) :: known) := by
  intro n x hn
  have hne : n ≠ name := by
    rintro rfl
    simp [h] at hn
  rwa [lookup_cons_of_ne hne]

/-- Whether none of the files on a stack is kept. -/
def Apart (stack : List String) (known : Expanded) : Prop :=
  ∀ name ∈ stack, known.lookup name = none

theorem Apart.push {stack : List String} {known : Expanded} (h : Apart stack known) {name : String}
    (hname : known.lookup name = none) : Apart (stack ++ [name]) known :=
  List.forall_mem_append.2 ⟨h, List.forall_mem_singleton.2 hname⟩

theorem Apart.tail {stack : List String} {known : Expanded} {name : String} {contents : List Char}
    (h : Apart stack ((name, contents) :: known)) : Apart stack known := by
  intro n hn
  by_contra hne
  have hsome := isSome_lookup_cons (Option.isSome_iff_ne_none.2 hne) name contents
  simp [h n hn] at hsome

theorem Apart.keep {stack : List String} {known : Expanded} {name : String}
    (h : Apart (stack ++ [name]) known) (hname : name ∉ stack) (contents : List Char) :
    Apart stack ((name, contents) :: known) := by
  intro n hn
  have hne : n ≠ name := by
    rintro rfl
    exact hname hn
  rw [lookup_cons_of_ne hne]
  exact h n (List.mem_append_left _ hn)

namespace Sources

/-- Whether each expansion that is kept was made from expansions kept before it. -/
inductive Settled (s : Sources) : Expanded → Prop
  | nil : Settled s []
  | cons {known : Expanded} {name : String} {text : List Char} {d : Directives}
      (tail : Settled s known) (fresh : known.lookup name = none) (hin : s.isInside name = .ok true)
      (hread : s.read name = .ok text) (hscan : Directives.ofText text = .ok d)
      (htargets : ∀ target ∈ d.targets, (known.lookup (d.nameOf target)).isSome) :
      Settled s ((name, d.inlined known d.targets text) :: known)

/-- What a walk through targets leaves when it comes to its end. -/
structure Settles (s : Sources) (d : Directives) (stack targets : List String) (text : List Char)
    (known : Expanded) (events : List Event) (text' : List Char) (known' : Expanded) : Prop where
  settled : s.Settled known'
  grows : Grows known known'
  apart : Apart stack known'
  kept : ∀ target ∈ targets, (known'.lookup (d.nameOf target)).isSome
  text_eq : text' = d.inlined known' targets text
  read : ∀ name, (known'.lookup name).isSome →
    (known.lookup name).isSome ∨ .reading s.root name ∈ events

variable {s : Sources}

theorem inlined_cons (d : Directives) {known : Expanded} {target : String} {contents : List Char}
    (h : known.lookup (d.nameOf target) = some contents) (targets : List String)
    (text : List Char) :
    d.inlined known (target :: targets) text =
      d.inlined known targets (Inlining.replaceImport text target.toList contents) := by
  rw [Directives.inlined, List.foldl_cons, h]
  rfl

/-- A walk that comes to its end keeps what it made in order. -/
theorem Walks.settles {file : String} {d : Directives} {stack targets : List String}
    {text text' : List Char} {known known' : Expanded} {events : List Event}
    (h : s.Walks file d stack targets text known events (.ok (text', known')))
    (hsettled : s.Settled known) (hapart : Apart stack known) :
    s.Settles d stack targets text known events text' known' := by
  generalize hr : (Except.ok (text', known') : Except Failure (List Char × Expanded)) = r at h
  induction h generalizing text' known' with
  | done =>
    obtain ⟨rfl, rfl⟩ := Prod.mk.inj (Except.ok.inj hr)
    exact ⟨hsettled, .refl _, hapart, by simp, rfl, fun _ h => .inl h⟩
  | refused | outside | cycle | unreadable | unopened | undecodable | declaredTwice | failed =>
    cases hr
  | @kept _ d _ _ _ _ target contents _ _ _ _ hknown _ ih =>
    obtain ⟨settled, grows, apart, kept, text_eq, read⟩ := ih hsettled hapart hr
    have hlookup := grows _ _ hknown
    refine ⟨settled, grows, apart, ?_, ?_, fun name hn => ?_⟩
    · exact List.forall_mem_cons.2 ⟨by simp [hlookup], kept⟩
    · rw [text_eq, inlined_cons d hlookup]
    · exact (read name hn).imp_right fun h => List.mem_cons_of_mem _ (List.mem_cons_of_mem _ h)
  | @expanded _ d _ _ _ _ _ target _ contents d' _ _ _ hin hstack hknown hread hscan _ _ ihsub ih =>
    have hsub := ihsub hsettled (hapart.push hknown) rfl
    have hfresh := hsub.apart (d.nameOf target) (by simp)
    have hcons := Settled.cons hsub.settled hfresh hin hread hscan hsub.kept
    rw [← hsub.text_eq] at hcons
    obtain ⟨settled, grows, apart, kept, text_eq, read⟩ :=
      ih hcons (hsub.apart.keep hstack contents) hr
    have hlookup := grows (d.nameOf target) contents List.lookup_cons_self
    refine ⟨settled, (hsub.grows.trans (grows_cons hfresh contents)).trans grows, apart, ?_, ?_,
      fun name hn => ?_⟩
    · exact List.forall_mem_cons.2 ⟨by simp [hlookup], kept⟩
    · rw [text_eq, inlined_cons d hlookup]
    · simp only [List.mem_cons, List.mem_append]
      rcases read name hn with hn | hn
      · by_cases hname : name = d.nameOf target
        · exact .inr (.inr (.inl (by rw [hname])))
        · rw [lookup_cons_of_ne hname] at hn
          rcases hsub.read name hn with hn | hn
          · exact .inl hn
          · exact .inr (.inr (.inr (.inl hn)))
      · exact .inr (.inr (.inr (.inr (.inr hn))))

/-! ## Edges -/

/-- Whether a file imports another: one of the targets recorded in it names the other under its own
path for imports. -/
def Imports (s : Sources) (name other : String) : Prop :=
  ∃ text, s.read name = .ok text ∧
    ∃ target ∈ recordedTargets text, other = (Directives.recorded text).nameOf target

/-- Whether a file lies inside the root, can be read as text and declares one path for imports at
most. -/
def Usable (s : Sources) (name : String) : Prop :=
  s.isInside name = .ok true ∧ ∃ text, s.read name = .ok text ∧ (declaredPaths text).length ≤ 1

theorem imports_iff_of_ofText {name other : String} {text : List Char} {d : Directives}
    (hread : s.read name = .ok text) (hscan : Directives.ofText text = .ok d) :
    s.Imports name other ↔ ∃ target ∈ d.targets, other = d.nameOf target := by
  obtain ⟨-, rfl⟩ := Directives.ofText_eq_ok_iff.1 hscan
  simp only [Imports, hread, Except.ok.injEq, exists_eq_left', Directives.mem_targets]
  rfl

theorem Settled.usable {known : Expanded} (h : s.Settled known) {name : String}
    (hname : (known.lookup name).isSome) : s.Usable name := by
  induction h with
  | nil => simp at hname
  | @cons known n text d _ _ hin hread hscan _ ih =>
    by_cases he : name = n
    · subst he
      exact ⟨hin, text, hread, (Directives.ofText_eq_ok_iff.1 hscan).1⟩
    · rw [lookup_cons_of_ne he] at hname
      exact ih hname

theorem Settled.kept_of_imports {known : Expanded} (h : s.Settled known) {name other : String}
    (hname : (known.lookup name).isSome) (himports : s.Imports name other) :
    (known.lookup other).isSome := by
  induction h with
  | nil => simp at hname
  | @cons known n text d _ _ _ hread hscan htargets ih =>
    by_cases he : name = n
    · subst he
      obtain ⟨target, ht, rfl⟩ := (imports_iff_of_ofText hread hscan).1 himports
      exact isSome_lookup_cons (htargets target ht) _ _
    · rw [lookup_cons_of_ne he] at hname
      exact isSome_lookup_cons (ih hname) _ _

theorem Settled.kept_of_reaches {known : Expanded} (h : s.Settled known) {name other : String}
    (hname : (known.lookup name).isSome) (hreach : ReflTransGen s.Imports name other) :
    (known.lookup other).isSome := by
  induction hreach with
  | refl => exact hname
  | tail _ hedge ih => exact h.kept_of_imports ih hedge

/-- The order in which expansions were kept shows that no kept file reaches itself. -/
theorem Settled.not_transGen_self {known : Expanded} (h : s.Settled known) {name : String}
    (hname : (known.lookup name).isSome) : ¬ TransGen s.Imports name name := by
  induction h with
  | nil => simp at hname
  | @cons known n text d tail fresh _ hread hscan htargets ih =>
    by_cases he : name = n
    · subst he
      intro hcycle
      obtain ⟨m, hedge, hback⟩ := TransGen.head'_iff.1 hcycle
      obtain ⟨target, ht, rfl⟩ := (imports_iff_of_ofText hread hscan).1 hedge
      have hkept := tail.kept_of_reaches (htargets target ht) hback
      simp [fresh] at hkept
    · rw [lookup_cons_of_ne he] at hname
      exact ih hname

/-- A walk that fails has met a file that is not usable, or one that reaches itself. -/
theorem Walks.obstacle {file : String} {d : Directives} {stack targets : List String}
    {text : List Char} {known : Expanded} {events : List Event} {e : Failure}
    (h : s.Walks file d stack targets text known events (.error e))
    (himports : ∀ target ∈ targets, s.Imports file (d.nameOf target))
    (hstack : ∀ name ∈ stack, ReflTransGen s.Imports name file) :
    ∃ name, ReflTransGen s.Imports file name ∧
      (¬ s.Usable name ∨ TransGen s.Imports name name) := by
  generalize hr : (Except.error e : Except Failure (List Char × Expanded)) = r at h
  induction h with
  | done => cases hr
  | @refused _ d _ _ _ _ target _ hin | @outside _ d _ _ _ _ target hin =>
    have hedge := himports target List.mem_cons_self
    exact ⟨_, .single hedge, .inl fun hu => by simp [hu.1] at hin⟩
  | @cycle _ d _ _ _ _ target _ hmem =>
    have hedge := himports target List.mem_cons_self
    exact ⟨_, .single hedge, .inr (.tail' (hstack _ hmem) hedge)⟩
  | @unreadable _ d _ _ _ _ target _ _ _ _ hread | @unopened _ d _ _ _ _ target _ _ _ _ hread
  | @undecodable _ d _ _ _ _ target _ _ _ _ hread =>
    have hedge := himports target List.mem_cons_self
    refine ⟨_, .single hedge, .inl ?_⟩
    rintro ⟨-, inner, hinner, -⟩
    simp [hread] at hinner
  | @declaredTwice _ d _ _ _ _ target inner paths _ _ _ hread hscan =>
    have hedge := himports target List.mem_cons_self
    refine ⟨_, .single hedge, .inl ?_⟩
    rintro ⟨-, inner', hinner, hone⟩
    obtain rfl : inner = inner' := by simpa [hread] using hinner
    rw [Directives.ofText_eq_ok_iff.2 ⟨hone, rfl⟩] at hscan
    cases hscan
  | kept _ _ _ _ ih =>
    exact ih (fun t ht => himports t (List.mem_cons_of_mem _ ht)) hstack hr
  | @failed _ d stack _ _ _ target inner d' _ _ _ _ _ hread hscan _ ih =>
    have hedge := himports target List.mem_cons_self
    obtain ⟨name, hreach, hbad⟩ := ih
      (fun t ht => (imports_iff_of_ofText hread hscan).2 ⟨t, ht, rfl⟩)
      (List.forall_mem_append.2
        ⟨fun n hn => (hstack n hn).tail hedge, List.forall_mem_singleton.2 .refl⟩) hr
    exact ⟨name, .head hedge hreach, hbad⟩
  | expanded _ _ _ _ _ _ _ _ ih =>
    exact ih (fun t ht => himports t (List.mem_cons_of_mem _ ht)) hstack hr

/-! ## When a template can be resolved -/

/-- What a template is resolved to could be kept after all that was kept on the way, and nothing was
kept that was not read. -/
theorem Resolves.exists_settled {template : String} {events : List Event} {text : List Char}
    (h : s.Resolves template events (.ok text)) :
    ∃ known, s.Settled known ∧ known.lookup (Path.normalise template) = some text ∧
      ∀ name, (known.lookup name).isSome → .reading s.root name ∈ events := by
  generalize hr : (Except.ok text : Except Failure (List Char)) = r at h
  cases h with
  | refused | outside | unreadable | unopened | undecodable | declaredTwice => cases hr
  | @expanded inner d events result hin hread hscan walk =>
    obtain _ | ⟨text', known⟩ := result
    · cases hr
    · obtain rfl := Except.ok.inj hr
      have hsettles := walk.settles .nil fun _ _ => rfl
      have hfresh := hsettles.apart (Path.normalise template) (by simp)
      have hsettled := Settled.cons hsettles.settled hfresh hin hread hscan hsettles.kept
      rw [← hsettles.text_eq] at hsettled
      refine ⟨_, hsettled, List.lookup_cons_self, fun name hname => ?_⟩
      by_cases he : name = Path.normalise template
      · simp [he]
      · rw [lookup_cons_of_ne he] at hname
        rcases hsettles.read name hname with hnone | hevent
        · simp at hnone
        · exact List.mem_cons_of_mem _ (List.mem_cons_of_mem _ hevent)

theorem Resolves.usable_of_reaches {template : String} {events : List Event} {text : List Char}
    (h : s.Resolves template events (.ok text)) :
    ∀ name, ReflTransGen s.Imports (Path.normalise template) name →
      s.Usable name ∧ ¬ TransGen s.Imports name name := by
  intro name hreach
  obtain ⟨known, hsettled, hroot, -⟩ := h.exists_settled
  have hkept := hsettled.kept_of_reaches (by simp [hroot]) hreach
  exact ⟨hsettled.usable hkept, hsettled.not_transGen_self hkept⟩

theorem Resolves.obstacle {template : String} {events : List Event} {e : Failure}
    (h : s.Resolves template events (.error e)) :
    ∃ name, ReflTransGen s.Imports (Path.normalise template) name ∧
      (¬ s.Usable name ∨ TransGen s.Imports name name) := by
  generalize hr : (Except.error e : Except Failure (List Char)) = r at h
  cases h with
  | refused hin | outside hin => exact ⟨_, .refl, .inl fun hu => by simp [hu.1] at hin⟩
  | unreadable hin hread | unopened hin hread | undecodable hin hread =>
    refine ⟨_, .refl, .inl ?_⟩
    rintro ⟨-, text, htext, -⟩
    simp [hread] at htext
  | declaredTwice hin hread hscan =>
    refine ⟨_, .refl, .inl ?_⟩
    rintro ⟨-, text, htext, hone⟩
    obtain rfl := Except.ok.inj (hread.symm.trans htext)
    rw [Directives.ofText_eq_ok_iff.2 ⟨hone, rfl⟩] at hscan
    cases hscan
  | @expanded _ d _ result hin hread hscan walk =>
    obtain e' | result := result
    · refine walk.obstacle (fun t ht => (imports_iff_of_ofText hread hscan).2 ⟨t, ht, rfl⟩) ?_
      exact List.forall_mem_singleton.2 .refl
    · cases hr

end Sources

/-- A template can be resolved exactly when every file that can be reached from it is usable and
none of them reaches itself. -/
theorem Config.resolve_eq_ok_iff (c : Config) (t : FileTree) (template : String) :
    (∃ text, (c.resolve t template).outcome = .ok text) ↔
      (∀ name, ReflTransGen (c.sources t).Imports (Path.normalise template) name →
        (c.sources t).Usable name) ∧
      ∀ name, ReflTransGen (c.sources t).Imports (Path.normalise template) name →
        ¬ TransGen (c.sources t).Imports name name := by
  have hresolves := c.resolves t template
  constructor
  · rintro ⟨text, htext⟩
    rw [htext] at hresolves
    exact ⟨fun name hreach => (hresolves.usable_of_reaches name hreach).1,
      fun name hreach => (hresolves.usable_of_reaches name hreach).2⟩
  · rintro ⟨husable, hacyclic⟩
    cases hresult : (c.resolve t template).outcome with
    | ok text => exact ⟨text, rfl⟩
    | error e =>
      rw [hresult] at hresolves
      obtain ⟨name, hreach, hbad⟩ := hresolves.obstacle
      rcases hbad with hbad | hbad
      · exact absurd (husable name hreach) hbad
      · exact absurd hbad (hacyclic name hreach)

end CellShader
