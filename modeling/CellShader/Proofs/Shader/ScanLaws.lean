import CellShader.Proofs.Shader.Scan
import CellShader.Shader.Expansion
import Mathlib.Data.List.Basic

/-!
# Laws of scans

Two texts with a line feed between them are scanned as one text and then the other, the import path
of the first being known in the second (`scan_append_lineFeed`).  What a scan records has no white
space around it and stays on its line, but may be empty: of a line with a word and nothing but white
space behind it all is taken away if there are two blanks or more (`scan_records`).
-/

namespace CellShader

open Text

/-! ## One text after another -/

theorem declaredPaths_append_lineFeed (a b : List Char) :
    declaredPaths (a ++ '\n' :: b) = declaredPaths a ++ declaredPaths b := by
  rw [declaredPaths, directivesIn_append_lineFeed, List.filterMap_append]
  rfl

theorem Directives.recorded_append_lineFeed (a b : List Char) :
    recorded (a ++ '\n' :: b) =
      ⟨(recorded a).imports ++ (recorded b).imports,
        (recorded a).importPath?.or (recorded b).importPath?⟩ := by
  rw [recorded, recordedTargets_append_lineFeed, declaredPaths_append_lineFeed, List.head?_append]
  rfl

/-- A scan that ends at a second import path. -/
def declaredTwice (file? : Option String) (paths : DuplicatePath) : Told Failure Directives :=
  .failWith (.pathDeclaredTwice paths file?) (.assembly (.duplicatePath paths file?))

theorem scan_eq (file? : Option String) (text : List Char) :
    scan file? text = match declaredPaths text with
      | first :: second :: _ => declaredTwice file? ⟨first, second⟩
      | _ => pure (.recorded text) := by
  rw [scan, Directives.ofText_eq]
  rcases declaredPaths text with _ | ⟨first, _ | ⟨second, paths⟩⟩ <;> rfl

namespace Directives

theorem pairwise_firstOccurrences (ts : List String) :
    (firstOccurrences ts).Pairwise fun s t => ts.idxOf s < ts.idxOf t := by
  induction ts with
  | nil => exact .nil
  | cons t ts ih =>
    have hshift : ∀ s, s ≠ t → (t :: ts).idxOf s = ts.idxOf s + 1 :=
      fun s hs => List.idxOf_cons_ne _ (Ne.symm hs)
    have hne : ∀ s ∈ (firstOccurrences ts).filter (· != t), s ≠ t := fun s hs => by
      simpa using (List.mem_filter.1 hs).2
    rw [firstOccurrences, List.pairwise_cons]
    refine ⟨fun s hs => ?_, ?_⟩
    · rw [hshift s (hne s hs), List.idxOf_cons_self]
      exact Nat.succ_pos _
    · refine (ih.filter _).imp_of_mem fun {s u} hs hu hlt => ?_
      rw [hshift s (hne s hs), hshift u (hne u hu)]
      exact Nat.succ_lt_succ hlt

end Directives

/-- A text is scanned line by line: what comes of two texts with a line feed between them comes of
scanning one after the other, where an import path in the second is too many if there is one in the
first.  The targets are what is imported, each once and in order of first occurrence. -/
theorem scan_append_lineFeed (file? : Option String) (a b : List Char) :
    (scan file? (a ++ '\n' :: b) = do
      let d ← scan file? a
      match d.importPath?, declaredPaths b with
      | some first, second :: _ => declaredTwice file? ⟨first, second⟩
      | _, _ => do
        let d' ← scan file? b
        return ⟨d.imports ++ d'.imports, d.importPath?.or d'.importPath?⟩) ∧
    ∀ d : Directives, d.targets.Nodup ∧ (∀ target, target ∈ d.targets ↔ target ∈ d.imports) ∧
      d.targets.Pairwise fun s t => d.imports.idxOf s < d.imports.idxOf t := by
  refine ⟨?_, fun d => ?_⟩
  · rw [scan_eq, scan_eq, scan_eq, declaredPaths_append_lineFeed,
      Directives.recorded_append_lineFeed, Directives.recorded, Directives.recorded]
    -- all depends on how many paths are declared in the one text and in the other
    generalize declaredPaths a = ps, declaredPaths b = qs
    rcases ps with _ | ⟨p, _ | ⟨p', ps⟩⟩
    · rcases qs with _ | ⟨q, _ | ⟨q', qs⟩⟩ <;> rfl
    · rcases qs with _ | ⟨q, qs⟩ <;> rfl
    · rfl
  · have hordered := Directives.pairwise_firstOccurrences d.imports
    refine ⟨hordered.imp fun hlt heq => ?_, fun target => Directives.mem_targets, hordered⟩
    rw [heq] at hlt
    exact Nat.lt_irrefl _ hlt

/-! ## Directives that name nothing -/

theorem Text.strip_eq_nil_iff {p : Char → Bool} {cs : List Char} :
    strip p cs = [] ↔ ∀ c ∈ cs, p c = true := by
  constructor
  · intro h
    obtain ⟨a, b, hcs, ha, hb⟩ := exists_append_strip_append p cs
    rw [hcs, h, List.append_nil]
    exact List.forall_mem_append.2 ⟨ha, hb⟩
  · intro h
    have hnil : strip p (cs ++ [] ++ []) = [] := strip_append h (by simp) (by simp [IsBare])
    rwa [List.append_nil, List.append_nil] at hnil

namespace Directive

/-- Whether a line holds a hash sign and a word with two blanks or more behind it, and nothing else
but white space. -/
def IsNameless (word : String) (line : List Char) : Prop :=
  ∃ before between behind, line = before ++ '#' :: (between ++ (word.toList ++ behind)) ∧
    (∀ c ∈ before ++ between ++ behind, isBlank c = true) ∧ 2 ≤ behind.length

theorem bare_word (x : Directive) (cs : List Char) :
    ∀ c ∈ (x.word.toList ++ cs).head?, isBlank c = false := by
  cases x <;> simp [word, isBlank]

/-- A directive names nothing exactly if it stands on a line with nothing but its word. -/
theorem ofLine?_eq_some_iff_isNameless {line : List Char} {x : Directive} (hx : x.name = []) :
    ofLine? line = some x ↔ IsNameless x.word line := by
  rw [ofLine?_eq_some_iff, hx]
  constructor
  · rintro ⟨cs, hhash, hnamed⟩
    obtain ⟨c, rest, hrest, hc, hne, hname⟩ := named?_eq_some_iff.1 hnamed
    refine ⟨line.takeWhile isBlank, cs.takeWhile isBlank, c :: rest, ?_, ?_, ?_⟩
    · rw [← hrest, List.takeWhile_append_dropWhile, ← hhash, List.takeWhile_append_dropWhile]
    · refine List.forall_mem_append.2 ⟨List.forall_mem_append.2 ⟨fun d hd => ?_, fun d hd => ?_⟩,
        List.forall_mem_cons.2 ⟨hc, strip_eq_nil_iff.1 hname.symm⟩⟩
      · exact List.mem_takeWhile_imp hd
      · exact List.mem_takeWhile_imp hd
    · exact Nat.succ_le_succ (List.length_pos_iff.2 hne)
  · rintro ⟨before, between, behind, rfl, hblank, hlength⟩
    obtain ⟨hfront, hbehind⟩ := List.forall_mem_append.1 hblank
    obtain ⟨hbefore, hbetween⟩ := List.forall_mem_append.1 hfront
    obtain _ | ⟨c, _ | ⟨d, rest⟩⟩ := behind
    · simp at hlength
    · simp at hlength
    rw [List.forall_mem_cons] at hbehind
    refine ⟨_, dropWhile_append_of_bare hbefore (by simp [isBlank]), ?_⟩
    rw [dropWhile_append_of_bare hbetween (bare_word x _)]
    exact named?_eq_some_iff.2
      ⟨c, d :: rest, rfl, hbehind.1, List.cons_ne_nil _ _, (strip_eq_nil_iff.2 hbehind.2).symm⟩

end Directive

theorem isBare_and_isUnbroken_of_mem_declaredPaths {text : List Char} {path : String}
    (h : path ∈ declaredPaths text) : IsBare isBlank path.toList ∧ IsUnbroken path.toList := by
  obtain ⟨line, hline, hof⟩ := mem_declaredPaths.1 h
  exact Directive.isBare_and_isUnbroken_of_ofLine? (isUnbroken_of_mem_lines hline) hof

theorem scan_outcome_eq_ok_iff {file? : Option String} {text : List Char} {d : Directives} :
    (scan file? text).outcome = .ok d ↔
      (declaredPaths text).length ≤ 1 ∧ d = Directives.recorded text := by
  rw [← Directives.ofText_eq_ok_iff, scan]
  cases Directives.ofText text with
  | error paths => exact ⟨nofun, nofun⟩
  | ok d' =>
    show (Except.ok d' : Except Failure Directives) = .ok d ↔ _
    rw [Except.ok.injEq, Except.ok.injEq]

/-- What is recorded has no white space around it and stays on its line.  It is empty exactly if
there is a line with nothing but a word, white space and at least two blanks behind the word. -/
theorem scan_records {file? : Option String} {text : List Char} {d : Directives}
    (h : (scan file? text).outcome = .ok d) :
    (∀ name ∈ d.imports ++ d.importPath?.toList,
      IsBare isBlank name.toList ∧ IsUnbroken name.toList) ∧
    ("" ∈ d.imports ↔ ∃ line ∈ lines text, Directive.IsNameless "import" line) ∧
    (d.importPath? = some "" ↔
      ∃ line ∈ lines text, Directive.IsNameless "define_import_path" line) := by
  obtain ⟨hone, rfl⟩ := scan_outcome_eq_ok_iff.1 h
  have hpath : ∀ path, (declaredPaths text).head? = some path ↔ path ∈ declaredPaths text := by
    intro path
    rcases hpaths : declaredPaths text with _ | ⟨p, _ | ⟨p', ps⟩⟩
    · simp
    · simp [eq_comm]
    · simp [hpaths] at hone
  refine ⟨fun name hname => ?_, ?_, ?_⟩
  · rcases List.mem_append.1 hname with hname | hname
    · exact isBare_and_isUnbroken_of_mem_recordedTargets hname
    · exact isBare_and_isUnbroken_of_mem_declaredPaths
        ((hpath name).1 (Option.mem_toList.1 hname))
  · exact mem_recordedTargets.trans (exists_congr fun line => and_congr_right fun _ =>
      Directive.ofLine?_eq_some_iff_isNameless rfl)
  · exact (hpath "").trans (mem_declaredPaths.trans (exists_congr fun line =>
      and_congr_right fun _ => Directive.ofLine?_eq_some_iff_isNameless rfl))

theorem scan_records_blanks :
    (scan none "#import a\n# import \t\n#define_import_path p".toList).outcome =
        .ok ⟨["a", ""], some "p"⟩ ∧
      (∀ name ∈ ["a", "", "p"], IsBare isBlank name.toList ∧ IsUnbroken name.toList) ∧
      ∃ line ∈ lines "#import a\n# import \t\n#define_import_path p".toList,
        Directive.IsNameless "import" line := by
  have hscan : (scan none "#import a\n# import \t\n#define_import_path p".toList).outcome =
      .ok ⟨["a", ""], some "p"⟩ := rfl
  obtain ⟨hnames, hnameless, -⟩ := scan_records hscan
  exact ⟨hscan, hnames, hnameless.1 (by decide)⟩

/-- A word and two blanks name nothing, and are recorded all the same. -/
theorem scan_nameless : (scan none "#import  ".toList).outcome = .ok ⟨[""], none⟩ := rfl

end CellShader
