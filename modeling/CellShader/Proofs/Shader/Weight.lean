import CellShader.Proofs.Shader.Failing
import CellShader.Proofs.Text.Occurrences

/-!
# How often the placeholder comes up

A file that is imported twice puts each placeholder that it has into the text twice.  So a row
that is replaced weighs what its file does, any other row weighs the placeholders in it, and a file
weighs what its rows do (`Sources.WeighsAt`).  The expansions that are kept have just these weights
(`Settled.weighsAt_keptWeight`), and no other numbers will do (`Settled.weight_unique`), since each
of them was made from expansions kept before.  What is kept is what was read, and what was read is
what can be reached (`Resolves.reaches_iff_mem_readNames`).  So whether a rule can be put in its
place can be told from the weight of the template (`Config.resolveWithRule_eq_of_weight`).
-/

namespace CellShader

open Relation Text

/-- What a row weighs: what the file does that it imports, if it is a directive whose target is
recorded, and otherwise the placeholders in it. -/
def rowWeight (placeholder : List Char) (weight : String → Nat) (d : Directives)
    (row : List Char) : Nat :=
  match Directive.ofRow? row with
  | some target =>
    if String.ofList target ∈ d.imports then weight (d.nameOf (String.ofList target))
    else count placeholder row
  | none => count placeholder row

/-- What a text with the given directives weighs. -/
def textWeight (placeholder : List Char) (weight : String → Nat) (d : Directives)
    (text : List Char) : Nat :=
  ((rows text).map (rowWeight placeholder weight d)).sum

theorem textWeight_congr {placeholder : List Char} {weight weight' : String → Nat} {d : Directives}
    (h : ∀ target ∈ d.targets, weight (d.nameOf target) = weight' (d.nameOf target))
    (text : List Char) :
    textWeight placeholder weight d text = textWeight placeholder weight' d text := by
  have hrow : rowWeight placeholder weight d = rowWeight placeholder weight' d := by
    funext row
    rw [rowWeight, rowWeight]
    cases Directive.ofRow? row with
    | none => rfl
    | some target =>
      by_cases hmem : String.ofList target ∈ d.imports
      · simp only [if_pos hmem]
        exact h _ (Directives.mem_targets.2 hmem)
      · simp only [if_neg hmem]
  rw [textWeight, textWeight, hrow]

namespace Sources

/-- Whether a file that can be read weighs what its text does. -/
def WeighsAt (s : Sources) (placeholder : List Char) (weight : String → Nat) (name : String) :
    Prop :=
  ∀ text d, s.read name = .ok text → Directives.ofText text = .ok d →
    weight name = textWeight placeholder weight d text

/-- Whether all files that can be reached from `root` weigh what their texts do. -/
def IsWeight (s : Sources) (placeholder : List Char) (root : String) (weight : String → Nat) :
    Prop :=
  ∀ name, ReflTransGen s.Imports root name → s.WeighsAt placeholder weight name

/-- The placeholders in what is kept of a file. -/
def keptWeight (placeholder : List Char) (known : Expanded) (name : String) : Nat :=
  count placeholder ((known.lookup name).getD [])

variable {s : Sources} {placeholder : List Char}

/-! ## The weights of what is kept -/

theorem count_substituteRow_table (d : Directives) (known : Expanded) (row : List Char) :
    count placeholder (substituteRow (table d known d.targets) row) =
      rowWeight placeholder (keptWeight placeholder known) d row := by
  rw [substituteRow, rowWeight]
  cases Directive.ofRow? row with
  | none => rfl
  | some target =>
    dsimp only
    by_cases hmem : String.ofList target ∈ d.imports
    · rw [if_pos hmem, lookup_table, if_pos (Directives.mem_targets.2 hmem)]
      rfl
    · rw [if_neg hmem, lookup_table, if_neg fun ht => hmem (Directives.mem_targets.1 ht)]
      rfl

theorem count_inlined {name : String} {text : List Char} {d : Directives} {known : Expanded}
    (hread : s.read name = .ok text) (hscan : Directives.ofText text = .ok d) (hs : s.ReadsUnified)
    (hnamed : "" ∉ s.importsOf name)
    (hkept : ∀ target ∈ d.targets, IsResolved ((known.lookup (d.nameOf target)).getD []))
    (hne : placeholder ≠ []) (hn : '\n' ∉ placeholder) :
    count placeholder (d.inlined known d.targets text) =
      textWeight placeholder (keptWeight placeholder known) d text := by
  rw [inlined_eq_substitute hread hscan hs hnamed hkept, substitute, count_mapRows hne hn]
  simp only [count_substituteRow_table]
  rfl

/-- What was kept before weighs the same afterwards. -/
theorem keptWeight_cons {known : Expanded} {n name : String} (fresh : known.lookup n = none)
    (hname : (known.lookup name).isSome) (contents : List Char) :
    keptWeight placeholder ((n, contents) :: known) name = keptWeight placeholder known name := by
  have hne : name ≠ n := by
    rintro rfl
    simp [fresh] at hname
  rw [keptWeight, lookup_cons_of_ne hne, keptWeight]

theorem Settled.weighsAt_keptWeight {known : Expanded} (h : s.Settled known) (hs : s.ReadsUnified)
    (hnamed : ∀ name, (known.lookup name).isSome → "" ∉ s.importsOf name) (hne : placeholder ≠ [])
    (hn : '\n' ∉ placeholder) {name : String} (hname : (known.lookup name).isSome) :
    s.WeighsAt placeholder (keptWeight placeholder known) name := by
  induction h generalizing name with
  | nil => simp at hname
  | @cons known n text d tail fresh hin hread hscan htargets ih =>
    have hnamed' : ∀ m, (known.lookup m).isSome → "" ∉ s.importsOf m :=
      fun m hm => hnamed m (isSome_lookup_cons hm _ _)
    intro text' d' hread' hscan'
    by_cases he : name = n
    · subst he
      obtain rfl := Except.ok.inj (hread.symm.trans hread')
      obtain rfl := Except.ok.inj (hscan.symm.trans hscan')
      have hresolved := isResolved_getD htargets (tail.isResolved hs hnamed')
      calc keptWeight placeholder ((name, d.inlined known d.targets text) :: known) name
          = count placeholder (d.inlined known d.targets text) := by
            rw [keptWeight, List.lookup_cons_self, Option.getD_some]
        _ = textWeight placeholder (keptWeight placeholder known) d text :=
            count_inlined hread hscan hs (hnamed name (by simp)) hresolved hne hn
        _ = _ := textWeight_congr
            (fun target ht => (keptWeight_cons fresh (htargets target ht) _).symm) text
    · rw [lookup_cons_of_ne he] at hname
      have hkept : ∀ target ∈ d'.targets, (known.lookup (d'.nameOf target)).isSome :=
        fun target ht => tail.kept_of_imports hname
          ((imports_iff_of_ofText hread' hscan').2 ⟨target, ht, rfl⟩)
      rw [keptWeight_cons fresh hname, ih hnamed' hname text' d' hread' hscan']
      exact textWeight_congr
        (fun target ht => (keptWeight_cons fresh (hkept target ht) _).symm) text'

/-- There are no two ways to weigh what is kept: the weight of a file depends on files kept before.
-/
theorem Settled.weight_unique {known : Expanded} (h : s.Settled known)
    {weight weight' : String → Nat}
    (hweight : ∀ name, (known.lookup name).isSome → s.WeighsAt placeholder weight name)
    (hweight' : ∀ name, (known.lookup name).isSome → s.WeighsAt placeholder weight' name)
    {name : String} (hname : (known.lookup name).isSome) : weight name = weight' name := by
  induction h generalizing name with
  | nil => simp at hname
  | @cons known n text d _ _ _ hread hscan htargets ih =>
    have htail : ∀ m, (known.lookup m).isSome → weight m = weight' m :=
      fun m hm => ih (fun k hk => hweight k (isSome_lookup_cons hk _ _))
        (fun k hk => hweight' k (isSome_lookup_cons hk _ _)) hm
    by_cases he : name = n
    · subst he
      rw [hweight name hname text d hread hscan, hweight' name hname text d hread hscan]
      exact textWeight_congr (fun target ht => htail _ (htargets target ht)) text
    · rw [lookup_cons_of_ne he] at hname
      exact htail name hname

/-! ## What is read is what can be reached -/

theorem Walks.reaches_of_mem_readNames {file : String} {d : Directives}
    {stack targets : List String} {text : List Char} {known : Expanded} {events : List Event}
    {r : Except Failure (List Char × Expanded)}
    (h : s.Walks file d stack targets text known events r)
    (himports : ∀ target ∈ targets, s.Imports file (d.nameOf target)) {name : String}
    (hname : name ∈ readNames events) : ReflTransGen s.Imports file name := by
  induction h with
  | done | refused | outside | cycle => simp [readNames] at hname
  | unreadable | unopened | undecodable | declaredTwice =>
    obtain rfl : name = _ := by simpa [readNames] using hname
    exact .single (himports _ List.mem_cons_self)
  | kept _ _ _ _ ih => exact ih (fun t ht => himports t (List.mem_cons_of_mem _ ht)) hname
  | failed _ _ _ hread hscan _ ih =>
    have hedge := himports _ List.mem_cons_self
    rcases List.mem_cons.1 hname with rfl | hname
    · exact .single hedge
    · exact .head hedge
        (ih (fun t ht => (imports_iff_of_ofText hread hscan).2 ⟨t, ht, rfl⟩) hname)
  | expanded _ _ _ hread hscan _ _ ihsub ih =>
    have hedge := himports _ List.mem_cons_self
    simp only [readNames_testing, readNames_reading, readNames_append, readNames_expanding,
      List.mem_cons, List.mem_append] at hname
    rcases hname with rfl | hname | hname
    · exact .single hedge
    · exact .head hedge
        (ihsub (fun t ht => (imports_iff_of_ofText hread hscan).2 ⟨t, ht, rfl⟩) hname)
    · exact ih (fun t ht => himports t (List.mem_cons_of_mem _ ht)) hname

theorem Resolves.reaches_iff_mem_readNames {template : String} {events : List Event}
    {text : List Char} (h : s.Resolves template events (.ok text)) {name : String} :
    ReflTransGen s.Imports (Path.normalise template) name ↔ name ∈ readNames events := by
  constructor
  · intro hreach
    obtain ⟨known, hsettled, hroot, hread⟩ := h.exists_settled
    exact mem_readNames (hread name (hsettled.kept_of_reaches (by simp [hroot]) hreach))
  · intro hname
    generalize hr : (Except.ok text : Except Failure (List Char)) = r at h
    cases h with
    | refused | outside | unreadable | unopened | undecodable | declaredTwice => cases hr
    | expanded _ hread hscan walk =>
      rcases List.mem_cons.1 hname with rfl | hname
      · exact .refl
      · exact walk.reaches_of_mem_readNames
          (fun t ht => (imports_iff_of_ofText hread hscan).2 ⟨t, ht, rfl⟩) hname

/-- The files that can be reached have weights, and that of the template is the number of
placeholders in what it is resolved to. -/
theorem Resolves.count_eq_weight {template : String} {events : List Event} {text : List Char}
    (h : s.Resolves template events (.ok text)) (hs : s.ReadsUnified)
    (hnamed : ∀ name, ReflTransGen s.Imports (Path.normalise template) name →
      "" ∉ s.importsOf name)
    (hne : placeholder ≠ []) (hn : '\n' ∉ placeholder) :
    (∃ weight, s.IsWeight placeholder (Path.normalise template) weight) ∧
      ∀ weight, s.IsWeight placeholder (Path.normalise template) weight →
        count placeholder text = weight (Path.normalise template) := by
  obtain ⟨known, hsettled, htext, hread⟩ := h.exists_settled
  have hreaches : ∀ name, (known.lookup name).isSome →
      ReflTransGen s.Imports (Path.normalise template) name :=
    fun name hname => h.reaches_iff_mem_readNames.2 (mem_readNames (hread name hname))
  have hweighs : ∀ name, (known.lookup name).isSome →
      s.WeighsAt placeholder (keptWeight placeholder known) name :=
    fun name hname => hsettled.weighsAt_keptWeight hs (fun m hm => hnamed m (hreaches m hm)) hne hn
      hname
  refine ⟨⟨keptWeight placeholder known, fun name hreach => ?_⟩, fun weight hweight => ?_⟩
  · exact hweighs name (hsettled.kept_of_reaches (by simp [htext]) hreach)
  · have hroot : keptWeight placeholder known (Path.normalise template) =
        weight (Path.normalise template) :=
      hsettled.weight_unique hweighs (fun name hname => hweight name (hreaches name hname))
        (by simp [htext])
    rw [← hroot, keptWeight, htext, Option.getD_some]

end Sources

/-- The files that can be reached from a template that can be resolved have weights.  The template
weighs as much as there are placeholders in what it is resolved to, and a rule can be put in its
place exactly if that is one. -/
theorem Config.resolveWithRule_eq_of_weight (c : Config) (t : FileTree) (template : String)
    (hne : c.placeholder ≠ "") (hn : '\n' ∉ c.placeholder.toList)
    (hnamed : ∀ name, ReflTransGen (c.sources t).Imports (Path.normalise template) name →
      "" ∉ (c.sources t).importsOf name)
    (text : List Char) (htext : (c.resolve t template).outcome = .ok text) :
    (∃ weight, (c.sources t).IsWeight c.placeholder.toList (Path.normalise template) weight) ∧
    ∀ weight, (c.sources t).IsWeight c.placeholder.toList (Path.normalise template) weight →
      count c.placeholder.toList text = weight (Path.normalise template) ∧
      ∀ s : Statement, (c.resolveWithRule t template (.rule (.statement s))).outcome =
        if weight (Path.normalise template) = 1 then
          .ok (replace c.placeholder.toList s.code text)
        else .error (.assembly (.placeholderCount c.placeholder (weight (Path.normalise template))
          (some template))) := by
  have hresolves := c.resolves t template
  rw [htext] at hresolves
  have hchars : c.placeholder.toList ≠ [] := by simpa using hne
  obtain ⟨hexists, hcount⟩ :=
    hresolves.count_eq_weight (Sources.readsUnified_ofTree t c.assetRoot) hnamed hchars hn
  refine ⟨hexists, fun weight hweight => ⟨hcount weight hweight, fun s => ?_⟩⟩
  rw [resolveWithRule, Told.bind_of_ok htext, ← hcount weight hweight, splice]
  split
  · rfl
  · rfl

/-- A file that is imported twice weighs twice. -/
theorem Config.weight_diamond :
    (Config.mk "/" false "y").placeholder ≠ "" ∧
      '\n' ∉ (Config.mk "/" false "y").placeholder.toList ∧
      (∀ name, ReflTransGen ((Config.mk "/" false "y").sources .diamond).Imports "main" name →
        "" ∉ ((Config.mk "/" false "y").sources .diamond).importsOf name) ∧
      ((Config.mk "/" false "y").resolve .diamond "main").outcome =
        .ok "y\n#define_import_path .\ny\n\nx".toList ∧
      ∃ weight, ((Config.mk "/" false "y").sources .diamond).IsWeight ['y'] "main" weight ∧
        weight "main" = 2 ∧
        ((Config.mk "/" false "y").resolveWithRule .diamond "main"
          (.rule (.statement .noop))).outcome =
            .error (.assembly (.placeholderCount "y" 2 (some "main"))) := by
  have htext : ((Config.mk "/" false "y").resolve .diamond "main").outcome =
      .ok "y\n#define_import_path .\ny\n\nx".toList := eq_ok_of_toOption (by decide +kernel)
  have hresolves := (Config.mk "/" false "y").resolves .diamond "main"
  rw [htext] at hresolves
  have hread :
      ∀ name ∈ Sources.readNames ((Config.mk "/" false "y").resolve .diamond "main").events,
        "" ∉ ((Config.mk "/" false "y").sources .diamond).importsOf name := by
    decide +kernel
  have hmain : Path.normalise "main" = "main" := by decide +kernel
  have hnamed : ∀ name,
      ReflTransGen ((Config.mk "/" false "y").sources .diamond).Imports "main" name →
        "" ∉ ((Config.mk "/" false "y").sources .diamond).importsOf name := by
    intro name hreach
    rw [← hmain] at hreach
    exact hread name (hresolves.reaches_iff_mem_readNames.1 hreach)
  obtain ⟨⟨weight, hweight⟩, hall⟩ := resolveWithRule_eq_of_weight (.mk "/" false "y") .diamond
    "main" (by decide) (by decide) (by rwa [hmain]) _ htext
  obtain ⟨hcount, hrule⟩ := hall weight hweight
  rw [hmain] at hweight hcount hrule
  have htwo : weight "main" = 2 := hcount.symm.trans (by decide)
  rw [htwo] at hrule
  exact ⟨by decide, by decide, hnamed, htext, weight, hweight, htwo, hrule .noop⟩

end CellShader
