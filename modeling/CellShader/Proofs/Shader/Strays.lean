import CellShader.Proofs.Shader.PlainInlining

/-!
# Directives that stay

A scan records more than is replaced: around the parts of a directive it takes white space of all
kinds, and its lines end in more ways than the rows that are replaced.  A row that records a target
which it is not replaced for (`IsStray`) is replaced for nothing, in whatever file it is put, and no
other row that records something is left (`Settled.leaves`).  So a resolved text is free of
directives exactly if no file that can be reached has a stray row.
-/

namespace CellShader

open Relation Text Inlining

/-- Whether a row records a target that it is not replaced for. -/
def IsStray (row : List Char) : Prop :=
  ∃ target ∈ recordedTargets row, Directive.ofRow? row ≠ some target.toList

theorem IsStray.recordedTargets_ne_nil {row : List Char} (h : IsStray row) :
    recordedTargets row ≠ [] := by
  obtain ⟨target, htarget, -⟩ := h
  exact List.ne_nil_of_mem htarget

/-! ## What is replaced -/

section Recorded

variable {file : List Char} {target : String} (h : target ∈ recordedTargets file)

include h

theorem bare_of_mem_recordedTargets : IsBare isBlank target.toList :=
  (isBare_and_isUnbroken_of_mem_recordedTargets h).1

theorem isUnbroken_of_mem_recordedTargets : IsUnbroken target.toList :=
  (isBare_and_isUnbroken_of_mem_recordedTargets h).2

/-- A row that is replaced records nothing, or what it is replaced for. -/
theorem not_isStray_of_ofRow? {row : List Char} (hrow : Directive.ofRow? row = some target.toList) :
    ¬ IsStray row := by
  rintro ⟨other, hother, hstray⟩
  have hne : row ≠ [] := by
    rintro rfl
    simp [Directive.ofRow?] at hrow
  obtain ⟨line, hline, hof⟩ := mem_recordedTargets.1 hother
  rw [lines_of_unbroken hne (isUnbroken_of_ofRow? (isUnbroken_of_mem_recordedTargets h) hrow),
    List.mem_singleton] at hline
  subst hline
  rw [Directive.eq_of_ofLine?_of_ofRow? (bare_of_mem_recordedTargets h) hrow hof] at hstray
  exact hstray hrow

theorem carriageReturn_not_mem_replaceImport_of_recorded {text contents : List Char}
    (htext : '\r' ∉ text) (hcontents : '\r' ∉ contents) :
    '\r' ∉ replaceImport text target.toList contents :=
  carriageReturn_not_mem_replaceImport (isUnbroken_of_mem_recordedTargets h).lineFeed_not_mem htext
    hcontents

theorem mem_rows_replaceImport {text contents row : List Char} (htext : '\r' ∉ text) :
    row ∈ rows (replaceImport text target.toList contents) ↔
      (row ∈ rows text ∧ Directive.ofRow? row ≠ some target.toList) ∨
        row ∈ rows contents ∧ ∃ old ∈ rows text, Directive.ofRow? old = some target.toList := by
  rw [replaceImport_eq_mapRows (isUnbroken_of_mem_recordedTargets h).lineFeed_not_mem,
    mem_rows_mapRows]
  have hreplace : ∀ old ∈ rows text, row ∈ rows (replaceRow target.toList contents old) ↔
      if Directive.ofRow? old = some target.toList then row ∈ rows contents else row = old := by
    intro old hold
    have hn := lineFeed_not_mem_of_mem_rows hold
    have hr : '\r' ∉ old := fun hm => htext (mem_of_mem_rows hold hm)
    rw [replaceRow_eq (bare_of_mem_recordedTargets h) hr hn]
    split
    · rfl
    · rw [rows_of_not_mem hn, List.mem_singleton]
  constructor
  · rintro ⟨old, hold, hrow⟩
    rw [hreplace old hold] at hrow
    split at hrow
    · rename_i hof
      exact .inr ⟨hrow, old, hold, hof⟩
    · rename_i hof
      subst hrow
      exact .inl ⟨hold, hof⟩
  · rintro (⟨hrow, hof⟩ | ⟨hrow, old, hold, hof⟩)
    · exact ⟨row, hrow, by rw [hreplace row hrow, if_neg hof]⟩
    · exact ⟨old, hold, by rwa [hreplace old hold, if_pos hof]⟩

end Recorded

/-! ## One target after another -/

section Inlined

variable {file : List Char} {d : Directives} {known : Expanded} {targets : List String}
  (hfile : ∀ target ∈ targets, target ∈ recordedTargets file)
  (hkept : ∀ target ∈ targets, (known.lookup (d.nameOf target)).isSome)
  (hreturn : ∀ name contents, known.lookup name = some contents → '\r' ∉ contents)

include hfile hkept hreturn

theorem carriageReturn_not_mem_inlined {text : List Char} (htext : '\r' ∉ text) :
    '\r' ∉ d.inlined known targets text := by
  induction targets generalizing text with
  | nil => exact htext
  | cons target targets ih =>
    obtain ⟨htarget, hfile⟩ := List.forall_mem_cons.1 hfile
    obtain ⟨hlookup, hkept⟩ := List.forall_mem_cons.1 hkept
    obtain ⟨contents, hcontents⟩ := Option.isSome_iff_exists.1 hlookup
    rw [Sources.inlined_cons d hcontents]
    exact ih hfile hkept
      (carriageReturn_not_mem_replaceImport_of_recorded htarget htext (hreturn _ _ hcontents))

/-- A stray row is replaced for no target. -/
theorem mem_rows_inlined_of_isStray {text row : List Char} (htext : '\r' ∉ text)
    (hrow : row ∈ rows text) (hstray : IsStray row) :
    row ∈ rows (d.inlined known targets text) := by
  induction targets generalizing text with
  | nil => exact hrow
  | cons target targets ih =>
    obtain ⟨htarget, hfile⟩ := List.forall_mem_cons.1 hfile
    obtain ⟨hlookup, hkept⟩ := List.forall_mem_cons.1 hkept
    obtain ⟨contents, hcontents⟩ := Option.isSome_iff_exists.1 hlookup
    rw [Sources.inlined_cons d hcontents]
    refine ih hfile hkept
      (carriageReturn_not_mem_replaceImport_of_recorded htarget htext (hreturn _ _ hcontents)) ?_
    exact (mem_rows_replaceImport htarget htext).2
      (.inl ⟨hrow, fun hof => not_isStray_of_ofRow? htarget hof hstray⟩)

/-- The stray rows of an expansion are put in with it. -/
theorem mem_rows_inlined_of_contents {text old row contents : List Char} {target : String}
    (htext : '\r' ∉ text) (htarget : target ∈ targets) (hold : old ∈ rows text)
    (hof : Directive.ofRow? old = some target.toList)
    (hcontents : known.lookup (d.nameOf target) = some contents) (hrow : row ∈ rows contents)
    (hstray : IsStray row) : row ∈ rows (d.inlined known targets text) := by
  induction targets generalizing text with
  | nil => cases htarget
  | cons t targets ih =>
    obtain ⟨ht, hrest⟩ := List.forall_mem_cons.1 hfile
    obtain ⟨hlookup, hkeptRest⟩ := List.forall_mem_cons.1 hkept
    obtain ⟨inner, hinner⟩ := Option.isSome_iff_exists.1 hlookup
    have hnext :=
      carriageReturn_not_mem_replaceImport_of_recorded ht htext (hreturn _ _ hinner)
    rw [Sources.inlined_cons d hinner]
    by_cases hsame : target = t
    · subst hsame
      obtain rfl := Option.some.inj (hcontents.symm.trans hinner)
      refine mem_rows_inlined_of_isStray hrest hkeptRest hreturn hnext ?_ hstray
      exact (mem_rows_replaceImport ht htext).2 (.inr ⟨hrow, old, hold, hof⟩)
    · refine ih hrest hkeptRest hnext ((List.mem_cons.1 htarget).resolve_left hsame) ?_
      refine (mem_rows_replaceImport ht htext).2 (.inl ⟨hold, fun hother => hsame ?_⟩)
      exact String.toList_injective (Option.some.inj (hof.symm.trans hother))

/-- All that is left to be recorded is in stray rows, and in what was put in. -/
theorem isStray_of_mem_rows_inlined {text row : List Char} (htext : '\r' ∉ text)
    (hstray : ∀ name contents, known.lookup name = some contents →
      ∀ row ∈ rows contents, recordedTargets row ≠ [] → IsStray row)
    (hclosed : ∀ row ∈ rows text, recordedTargets row ≠ [] →
      IsStray row ∨ ∃ target ∈ targets, Directive.ofRow? row = some target.toList)
    (hrow : row ∈ rows (d.inlined known targets text)) (hrecords : recordedTargets row ≠ []) :
    (row ∈ rows text ∧ IsStray row) ∨ ∃ target ∈ targets, ∃ contents,
      known.lookup (d.nameOf target) = some contents ∧ row ∈ rows contents := by
  induction targets generalizing text with
  | nil => exact .inl ⟨hrow, (hclosed row hrow hrecords).resolve_right (by simp)⟩
  | cons target targets ih =>
    obtain ⟨htarget, hfile⟩ := List.forall_mem_cons.1 hfile
    obtain ⟨hlookup, hkept⟩ := List.forall_mem_cons.1 hkept
    obtain ⟨contents, hcontents⟩ := Option.isSome_iff_exists.1 hlookup
    rw [Sources.inlined_cons d hcontents] at hrow
    have hnext :=
      carriageReturn_not_mem_replaceImport_of_recorded htarget htext (hreturn _ _ hcontents)
    have hclosed' : ∀ row ∈ rows (replaceImport text target.toList contents),
        recordedTargets row ≠ [] →
          IsStray row ∨ ∃ t ∈ targets, Directive.ofRow? row = some t.toList := by
      intro r hr hrec
      rcases (mem_rows_replaceImport htarget htext).1 hr with ⟨hr, hne⟩ | ⟨hr, -⟩
      · refine (hclosed r hr hrec).imp_right ?_
        rintro ⟨t, ht, hof⟩
        refine ⟨t, (List.mem_cons.1 ht).resolve_left ?_, hof⟩
        rintro rfl
        exact hne hof
      · exact .inl (hstray _ _ hcontents r hr hrec)
    rcases ih hfile hkept hnext hclosed' hrow with ⟨hr, hs⟩ | ⟨t, ht, h⟩
    · rcases (mem_rows_replaceImport htarget htext).1 hr with ⟨hr, -⟩ | ⟨hr, -⟩
      · exact .inl ⟨hr, hs⟩
      · exact .inr ⟨target, List.mem_cons_self, contents, hcontents, hr⟩
    · exact .inr ⟨t, List.mem_cons_of_mem _ ht, h⟩

end Inlined

/-! ## Whole files -/

namespace Sources

/-- Whether a row stands in a file and is a stray one. -/
def HasStray (s : Sources) (name : String) (row : List Char) : Prop :=
  ∃ text, s.read name = .ok text ∧ row ∈ rows text ∧ IsStray row

/-- What there is to say of the directives that are left when a file is expanded to a text. -/
structure Leaves (s : Sources) (name : String) (text : List Char) : Prop where
  noReturn : '\r' ∉ text
  stray : ∀ row ∈ rows text, recordedTargets row ≠ [] →
    ∃ file, ReflTransGen s.Imports name file ∧ s.HasStray file row
  kept : ∀ file row, ReflTransGen s.Imports name file → s.HasStray file row →
    ∃ row ∈ rows text, recordedTargets row ≠ []

variable {s : Sources}

theorem leaves_inlined {name : String} {text : List Char} {d : Directives} {known : Expanded}
    (hs : s.ReadsUnified) (hread : s.read name = .ok text) (hscan : Directives.ofText text = .ok d)
    (hkept : ∀ target ∈ d.targets, (known.lookup (d.nameOf target)).isSome)
    (h : ∀ n contents, known.lookup n = some contents → s.Leaves n contents) :
    s.Leaves name (d.inlined known d.targets text) := by
  have htext := hs name text hread
  have hedge : ∀ other, s.Imports name other ↔ ∃ target ∈ d.targets, other = d.nameOf target :=
    fun _ => imports_iff_of_ofText hread hscan
  have hfile : ∀ target ∈ d.targets, target ∈ recordedTargets text := by
    obtain ⟨-, rfl⟩ := Directives.ofText_eq_ok_iff.1 hscan
    exact fun target ht => Directives.mem_targets.1 ht
  have htargets : ∀ row ∈ rows text, ∀ target ∈ recordedTargets row, target ∈ d.targets := by
    obtain ⟨-, rfl⟩ := Directives.ofText_eq_ok_iff.1 hscan
    exact fun row hrow target ht =>
      Directives.mem_targets.2 (mem_recordedTargets_iff_row.2 ⟨row, hrow, ht⟩)
  have hreturn : ∀ n contents, known.lookup n = some contents → '\r' ∉ contents :=
    fun n contents hn => (h n contents hn).noReturn
  refine ⟨carriageReturn_not_mem_inlined hfile hkept hreturn htext, fun row hrow hrecords => ?_,
    fun file row hreach hstray => ?_⟩
  · have hclosed : ∀ row ∈ rows text, recordedTargets row ≠ [] →
        IsStray row ∨ ∃ target ∈ d.targets, Directive.ofRow? row = some target.toList := by
      intro row hrow hrec
      obtain ⟨target, htarget⟩ := List.exists_mem_of_ne_nil _ hrec
      by_cases hof : Directive.ofRow? row = some target.toList
      · exact .inr ⟨target, htargets row hrow target htarget, hof⟩
      · exact .inl ⟨target, htarget, hof⟩
    have hcontents : ∀ n contents, known.lookup n = some contents →
        ∀ row ∈ rows contents, recordedTargets row ≠ [] → IsStray row := by
      intro n contents hn row hrow hrec
      obtain ⟨-, -, -, -, -, hstray⟩ := (h n contents hn).stray row hrow hrec
      exact hstray
    rcases isStray_of_mem_rows_inlined hfile hkept hreturn htext hcontents hclosed hrow hrecords
      with ⟨hold, hstray⟩ | ⟨target, htarget, contents, hlookup, hinner⟩
    · exact ⟨name, .refl, text, hread, hold, hstray⟩
    · obtain ⟨file, hreach, hfile⟩ := (h _ contents hlookup).stray row hinner hrecords
      exact ⟨file, .head ((hedge _).2 ⟨target, htarget, rfl⟩) hreach, hfile⟩
  · rcases ReflTransGen.cases_head_iff.1 hreach with rfl | ⟨other, hother, hrest⟩
    · obtain ⟨text', hread', hrow, hstray⟩ := hstray
      obtain rfl := Except.ok.inj (hread.symm.trans hread')
      exact ⟨row, mem_rows_inlined_of_isStray hfile hkept hreturn htext hrow hstray,
        hstray.recordedTargets_ne_nil⟩
    · obtain ⟨target, htarget, rfl⟩ := (hedge _).1 hother
      obtain ⟨contents, hlookup⟩ := Option.isSome_iff_exists.1 (hkept target htarget)
      have hinner := h _ contents hlookup
      obtain ⟨left, hleft, hrecords⟩ := hinner.kept file row hrest hstray
      obtain ⟨-, -, -, -, -, hleftStray⟩ := hinner.stray left hleft hrecords
      obtain ⟨old, hold, hrecorded⟩ := mem_recordedTargets_iff_row.1 (hfile target htarget)
      -- the row that records the target is replaced by the expansion with the stray row, or stays
      by_cases hof : Directive.ofRow? old = some target.toList
      · exact ⟨left, mem_rows_inlined_of_contents hfile hkept hreturn htext htarget hold hof hlookup
          hleft hleftStray, hrecords⟩
      · have hstray : IsStray old := ⟨target, hrecorded, hof⟩
        exact ⟨old, mem_rows_inlined_of_isStray hfile hkept hreturn htext hold hstray,
          hstray.recordedTargets_ne_nil⟩

theorem Settled.leaves {known : Expanded} (h : s.Settled known) (hs : s.ReadsUnified)
    {name : String} {contents : List Char} (hname : known.lookup name = some contents) :
    s.Leaves name contents := by
  induction h generalizing name contents with
  | nil => cases hname
  | @cons known n text d tail fresh hin hread hscan htargets ih =>
    by_cases he : name = n
    · subst he
      rw [List.lookup_cons_self] at hname
      obtain rfl := Option.some.inj hname
      exact leaves_inlined hs hread hscan htargets fun _ _ h => ih h
    · rw [lookup_cons_of_ne he] at hname
      exact ih hname

theorem Resolves.leaves {template : String} {events : List Event} {text : List Char}
    (h : s.Resolves template events (.ok text)) (hs : s.ReadsUnified) :
    s.Leaves (Path.normalise template) text := by
  obtain ⟨known, hsettled, hroot, -⟩ := h.exists_settled
  exact hsettled.leaves hs hroot

end Sources

/-- Nothing is recorded in a resolved text exactly if no file that can be reached has a stray row,
and whatever is recorded in it stands in a stray row of such a file. -/
theorem Config.recordedTargets_eq_nil_iff_of_resolve (c : Config) (t : FileTree) (template : String)
    {text : List Char} (h : (c.resolve t template).outcome = .ok text) :
    (recordedTargets text = [] ↔
      ∀ name row, ReflTransGen (c.sources t).Imports (Path.normalise template) name →
        ¬ (c.sources t).HasStray name row) ∧
    ∀ row ∈ rows text, recordedTargets row ≠ [] →
      ∃ name, ReflTransGen (c.sources t).Imports (Path.normalise template) name ∧
        (c.sources t).HasStray name row := by
  have hresolves := c.resolves t template
  rw [h] at hresolves
  have hleaves := hresolves.leaves (Sources.readsUnified_ofTree t c.assetRoot)
  refine ⟨⟨fun hnil name row hreach hstray => ?_, fun hnone => ?_⟩, hleaves.stray⟩
  · obtain ⟨left, hleft, hrecords⟩ := hleaves.kept name row hreach hstray
    exact hrecords (recordedTargets_eq_nil_iff_rows.1 hnil left hleft)
  · refine recordedTargets_eq_nil_iff_rows.2 fun row hrow => ?_
    by_contra hrecords
    obtain ⟨name, hreach, hstray⟩ := hleaves.stray row hrow hrecords
    exact hnone name row hreach hstray

theorem Config.not_hasStray_diamond :
    ((Config.mk "/" false "").resolve .diamond "main").outcome =
        .ok "y\n#define_import_path .\ny\n\nx".toList ∧
      ∀ name row, ReflTransGen ((Config.mk "/" false "").sources .diamond).Imports
        (Path.normalise "main") name →
          ¬ ((Config.mk "/" false "").sources .diamond).HasStray name row := by
  have houtcome : ((Config.mk "/" false "").resolve .diamond "main").outcome =
      .ok "y\n#define_import_path .\ny\n\nx".toList :=
    eq_ok_of_toOption (by decide +kernel)
  exact ⟨houtcome,
    (recordedTargets_eq_nil_iff_of_resolve _ _ _ houtcome).1.1 (by decide +kernel)⟩

/-- A template with a no-break space in front of a directive. -/
def FileTree.indented : FileTree where
  here := []
  entries := [(["main"], .file (Text.encode "\u00a0#import a\nx".toList)),
    (["a"], .file (Text.encode "y".toList))]

theorem Config.recordedTargets_indented :
    ((Config.mk "/" false "").resolve .indented "main").outcome =
        .ok "\u00a0#import a\nx".toList ∧
      recordedTargets "\u00a0#import a\nx".toList = ["a"] :=
  ⟨eq_ok_of_toOption (by decide +kernel), by decide +kernel⟩

end CellShader
