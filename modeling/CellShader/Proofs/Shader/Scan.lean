import CellShader.Proofs.Shader.DirectiveRows
import CellShader.Shader.Sources

/-!
# What a scan finds

A scan records the targets and the import path in the order of the lines, and fails exactly when
two import paths are declared (`Directives.ofText_eq`).  A target that is not empty is a text of
the kind `IsTarget`: it has no blank ends and stays on its line.  A directive that is to be replaced
for such a target has been recorded (`mem_recordedTargets_of_ofRow?`), though not every directive
that is recorded is replaced.
-/

namespace CellShader

open Text Inlining

/-! ## Targets and paths in order -/

namespace Directive

/-- The target of a directive that imports. -/
def target? : Directive → Option String
  | importing target => some (String.ofList target)
  | importPath _ => none

/-- The path of a directive that declares one. -/
def path? : Directive → Option String
  | importing _ => none
  | importPath path => some (String.ofList path)

/-- The word that a directive begins with. -/
def word : Directive → String
  | importing _ => "import"
  | importPath _ => "define_import_path"

/-- What a directive names. -/
def name : Directive → List Char
  | importing target => target
  | importPath path => path

theorem target?_eq_some_iff {x : Directive} {target : String} :
    x.target? = some target ↔ x = importing target.toList := by
  cases x with
  | importing t =>
    rw [target?, Option.some.injEq, importing.injEq]
    exact ⟨fun h => h ▸ String.toList_ofList.symm, fun h => h ▸ String.ofList_toList⟩
  | importPath path => exact ⟨nofun, nofun⟩

theorem path?_eq_some_iff {x : Directive} {path : String} :
    x.path? = some path ↔ x = importPath path.toList := by
  cases x with
  | importing target => exact ⟨nofun, nofun⟩
  | importPath p =>
    rw [path?, Option.some.injEq, importPath.injEq]
    exact ⟨fun h => h ▸ String.toList_ofList.symm, fun h => h ▸ String.ofList_toList⟩

end Directive

/-- The directives on the lines of a text. -/
def directivesIn (text : List Char) : List Directive := (lines text).filterMap Directive.ofLine?

/-- The targets that a text imports, with repetitions. -/
def recordedTargets (text : List Char) : List String :=
  (directivesIn text).filterMap Directive.target?

/-- The import paths that a text declares. -/
def declaredPaths (text : List Char) : List String := (directivesIn text).filterMap Directive.path?

namespace Directives

/-- The targets that a text imports and the first import path that it declares. -/
def recorded (text : List Char) : Directives := ⟨recordedTargets text, (declaredPaths text).head?⟩

theorem foldlM_add (ds : List Directive) (d : Directives) :
    ds.foldlM add d = match d.importPath?.toList ++ ds.filterMap Directive.path? with
      | first :: second :: _ => .error ⟨first, second⟩
      | _ => .ok ⟨d.imports ++ ds.filterMap Directive.target?,
          (d.importPath?.toList ++ ds.filterMap Directive.path?).head?⟩ := by
  induction ds generalizing d with
  | nil =>
    obtain ⟨imports, _ | path⟩ := d <;> simp [pure, Except.pure]
  | cons x ds ih =>
    obtain ⟨imports, path?⟩ := d
    cases x with
    | importing target =>
      show ds.foldlM add _ = _
      rw [ih, List.filterMap_cons_none (by rfl), List.filterMap_cons_some (by rfl)]
      simp
    | importPath path =>
      rw [List.filterMap_cons_some (by rfl), List.filterMap_cons_none (by rfl)]
      cases path? with
      | none =>
        show ds.foldlM add _ = _
        rw [ih]
        rfl
      | some first => rfl

/-- A scan fails exactly when a second import path is declared. -/
theorem ofText_eq (text : List Char) :
    ofText text = match declaredPaths text with
      | first :: second :: _ => .error ⟨first, second⟩
      | _ => .ok (recorded text) := by
  rw [ofText]
  exact foldlM_add (directivesIn text) {}

theorem ofText_eq_ok_iff {text : List Char} {d : Directives} :
    ofText text = .ok d ↔ (declaredPaths text).length ≤ 1 ∧ d = recorded text := by
  rw [ofText_eq]
  rcases declaredPaths text with _ | ⟨first, _ | ⟨second, paths⟩⟩ <;> simp [eq_comm]

theorem mem_firstOccurrences {s : String} {ts : List String} :
    s ∈ firstOccurrences ts ↔ s ∈ ts := by
  induction ts with
  | nil => rfl
  | cons t ts ih =>
    rw [firstOccurrences, List.mem_cons, List.mem_filter, ih, List.mem_cons]
    by_cases h : s = t <;> simp [h]

theorem mem_targets {d : Directives} {target : String} : target ∈ d.targets ↔ target ∈ d.imports :=
  mem_firstOccurrences

end Directives

/-! ## What can be recorded -/

/-- Whether a text can be the target of a directive that names something. -/
structure IsTarget (target : List Char) : Prop where
  ne_nil : target ≠ []
  bare : IsBare isBlank target
  unbroken : IsUnbroken target

theorem isUnbroken_strip {cs : List Char} (h : IsUnbroken cs) (p : Char → Bool) :
    IsUnbroken (strip p cs) := by
  obtain ⟨a, b, hcs, -, -⟩ := exists_append_strip_append p cs
  intro c hc
  refine h c ?_
  rw [hcs]
  simp [hc]

theorem isUnbroken_append_iff {a b : List Char} :
    IsUnbroken (a ++ b) ↔ IsUnbroken a ∧ IsUnbroken b := List.forall_mem_append

theorem isUnbroken_dropWhile {cs : List Char} (h : IsUnbroken cs) (p : Char → Bool) :
    IsUnbroken (cs.dropWhile p) := fun c hc => h c ((List.dropWhile_sublist p).mem hc)

namespace Directive

theorem named?_eq_some_iff {word : String} {cs target : List Char} :
    named? word cs = some target ↔
      ∃ c rest, cs = word.toList ++ c :: rest ∧ isBlank c = true ∧ rest ≠ [] ∧
        target = strip isBlank rest := by
  unfold named?
  constructor
  · intro h
    split at h
    · rename_i c d rest hword
      split at h
      · rename_i hc
        exact ⟨c, d :: rest, afterWord?_eq_some_iff.1 hword, hc, by simp, (Option.some.inj h).symm⟩
      · simp at h
    · simp at h
  · rintro ⟨c, rest, rfl, hc, hne, rfl⟩
    obtain ⟨d, rest, rfl⟩ := List.exists_cons_of_ne_nil hne
    rw [afterWord?_eq_some_iff.2 rfl]
    simp only [hc, if_true]
    rfl

theorem named?_import_eq_none {cs path : List Char}
    (h : named? "define_import_path" cs = some path) : named? "import" cs = none := by
  obtain ⟨c, rest, hcs, -⟩ := named?_eq_some_iff.1 h
  cases himport : named? "import" cs with
  | none => rfl
  | some target =>
    obtain ⟨c', rest', hcs', -⟩ := named?_eq_some_iff.1 himport
    have hhead := congrArg List.head? (hcs.symm.trans hcs')
    cases hhead

/-- A directive stands behind a hash sign, and names what its word has behind it. -/
theorem ofLine?_eq_some_iff {line : List Char} {x : Directive} :
    ofLine? line = some x ↔
      ∃ cs, line.dropWhile isBlank = '#' :: cs ∧
        named? x.word (cs.dropWhile isBlank) = some x.name := by
  constructor
  · intro h
    unfold ofLine? at h
    split at h
    · rename_i cs hhash
      refine ⟨cs, hhash, ?_⟩
      dsimp only at h
      split at h
      · rename_i target htarget
        obtain rfl := Option.some.inj h
        exact htarget
      · obtain ⟨path, hpath, rfl⟩ := Option.map_eq_some_iff.1 h
        exact hpath
    · cases h
  · rintro ⟨cs, hhash, hnamed⟩
    rw [ofLine?, hhash]
    cases x with
    | importing target => simp only [show named? "import" _ = some target from hnamed]
    | importPath path =>
      have hpath : named? "define_import_path" (cs.dropWhile isBlank) = some path := hnamed
      simp only [named?_import_eq_none hpath, hpath, Option.map_some]

/-- What is named has no blank ends and stays on its line. -/
theorem isBare_and_isUnbroken_of_ofLine? {line : List Char} {x : Directive}
    (hline : IsUnbroken line) (h : ofLine? line = some x) :
    IsBare isBlank x.name ∧ IsUnbroken x.name := by
  obtain ⟨cs, hhash, hnamed⟩ := ofLine?_eq_some_iff.1 h
  obtain ⟨c, rest, hrest, -, -, hname⟩ := named?_eq_some_iff.1 hnamed
  have hcs : IsUnbroken ('#' :: cs) := hhash ▸ isUnbroken_dropWhile hline isBlank
  have htail : IsUnbroken (x.word.toList ++ c :: rest) :=
    hrest ▸ isUnbroken_dropWhile (isUnbroken_cons_iff.1 hcs).2 isBlank
  have hr : IsUnbroken rest := (isUnbroken_cons_iff.1 (isUnbroken_append_iff.1 htail).2).2
  rw [hname]
  exact ⟨isBare_strip _ _, isUnbroken_strip hr _⟩

end Directive

theorem mem_recordedTargets {text : List Char} {target : String} :
    target ∈ recordedTargets text ↔
      ∃ line ∈ lines text, Directive.ofLine? line = some (.importing target.toList) := by
  simp only [recordedTargets, directivesIn, List.mem_filterMap, Directive.target?_eq_some_iff,
    exists_eq_right]

theorem mem_declaredPaths {text : List Char} {path : String} :
    path ∈ declaredPaths text ↔
      ∃ line ∈ lines text, Directive.ofLine? line = some (.importPath path.toList) := by
  simp only [declaredPaths, directivesIn, List.mem_filterMap, Directive.path?_eq_some_iff,
    exists_eq_right]

theorem isBare_and_isUnbroken_of_mem_recordedTargets {text : List Char} {target : String}
    (h : target ∈ recordedTargets text) :
    IsBare isBlank target.toList ∧ IsUnbroken target.toList := by
  obtain ⟨line, hline, hof⟩ := mem_recordedTargets.1 h
  exact Directive.isBare_and_isUnbroken_of_ofLine? (isUnbroken_of_mem_lines hline) hof

/-- What is recorded and is not empty names something on one line. -/
theorem isTarget_of_mem_recordedTargets {text : List Char} {target : String}
    (h : target ∈ recordedTargets text) (hne : target ≠ "") : IsTarget target.toList := by
  obtain ⟨hbare, hunbroken⟩ := isBare_and_isUnbroken_of_mem_recordedTargets h
  exact ⟨by simpa using hne, hbare, hunbroken⟩

/-! ## Directives that are replaced -/

/-- The target of a row that is a directive with nothing but spaces and tabs between its parts and
at either end. -/
def Directive.ofRow? (row : List Char) : Option (List Char) :=
  match row.dropWhile isSpaceOrTab with
  | '#' :: cs =>
    match afterWord? "import".toList (cs.dropWhile isSpaceOrTab) with
    | some (c :: rest) => if isSpaceOrTab c then some (strip isSpaceOrTab rest) else none
    | _ => none
  | _ => none

namespace Directive

theorem ofRow?_eq_some_iff {row target : List Char} :
    ofRow? row = some target ↔
      IsBare isSpaceOrTab target ∧ ∃ before between behind after,
        row = before ++ '#' :: (between ++ ("import".toList ++ (behind ++ (target ++ after)))) ∧
          (∀ c ∈ before ++ between ++ behind ++ after, isSpaceOrTab c = true) ∧ behind ≠ [] := by
  constructor
  · intro h
    unfold ofRow? at h
    split at h
    · rename_i cs hhash
      split at h
      · rename_i c rest hword
        split at h
        · rename_i hc
          obtain rfl := Option.some.inj h
          obtain ⟨a, b, hrest, ha, hb⟩ := exists_append_strip_append isSpaceOrTab rest
          refine ⟨isBare_strip _ _, row.takeWhile isSpaceOrTab, cs.takeWhile isSpaceOrTab, c :: a,
            b, ?_, fun x hx => ?_, by simp⟩
          · have hcs : cs.dropWhile isSpaceOrTab = "import".toList ++ c :: rest :=
              afterWord?_eq_some_iff.1 hword
            rw [List.cons_append, ← List.append_assoc a, ← hrest, ← hcs,
              List.takeWhile_append_dropWhile, ← hhash, List.takeWhile_append_dropWhile]
          · simp only [List.mem_append, List.mem_cons] at hx
            rcases hx with ((hx | hx) | rfl | hx) | hx
            · exact List.mem_takeWhile_imp hx
            · exact List.mem_takeWhile_imp hx
            · exact hc
            · exact ha x hx
            · exact hb x hx
        · simp at h
      · simp at h
    · simp at h
  · rintro ⟨hbare, before, between, behind, after, rfl, hblank, hne⟩
    obtain ⟨c, behind, rfl⟩ := List.exists_cons_of_ne_nil hne
    have hbefore : ∀ c ∈ before, isSpaceOrTab c = true := fun c hc => hblank c (by simp [hc])
    have hbetween : ∀ c ∈ between, isSpaceOrTab c = true := fun c hc => hblank c (by simp [hc])
    have hbehind : ∀ c ∈ behind, isSpaceOrTab c = true := fun c hc => hblank c (by simp [hc])
    have hafter : ∀ c ∈ after, isSpaceOrTab c = true := fun c hc => hblank c (by simp [hc])
    have hc : isSpaceOrTab c = true := hblank c (by simp)
    rw [ofRow?, dropWhile_append_of_bare hbefore (by simp [isSpaceOrTab])]
    show (match afterWord? "import".toList ((between ++ _).dropWhile isSpaceOrTab) with
      | some (c :: rest) => if isSpaceOrTab c then some (strip isSpaceOrTab rest) else none
      | _ => none) = some target
    rw [dropWhile_append_of_bare hbetween (by simp [isSpaceOrTab]), afterWord?_eq_some_iff.2 rfl]
    simp only [List.cons_append, hc, if_true, ← List.append_assoc,
      strip_append hbehind hafter hbare]

end Directive

theorem bare_spaceOrTab {cs : List Char} (h : IsBare isBlank cs) : IsBare isSpaceOrTab cs := by
  have hblank : ∀ c, isBlank c = false → isSpaceOrTab c = false := by
    intro c hc
    by_contra hs
    rw [isBlank_of_isSpaceOrTab (by simpa using hs)] at hc
    simp at hc
  exact ⟨fun c hc => hblank c (h.1 c hc), fun c hc => hblank c (h.2 c hc)⟩

theorem isDirectiveRow_iff_ofRow? {target row : List Char} (ht : IsBare isBlank target)
    (hrow : '\r' ∉ row) : IsDirectiveRow target row ↔ Directive.ofRow? row = some target := by
  rw [Directive.ofRow?_eq_some_iff]
  constructor
  · rintro ⟨before, between, behind, after, ending, rfl, hblank, hne, rfl | rfl⟩
    · exact ⟨bare_spaceOrTab ht, before, between, behind, after, by simp, hblank, hne⟩
    · simp at hrow
  · rintro ⟨-, before, between, behind, after, rfl, hblank, hne⟩
    exact ⟨before, between, behind, after, [], by simp, hblank, hne, Or.inl rfl⟩

namespace Directive

/-- What stands behind the hash sign of a row that is replaced, as a scan looks at it. -/
theorem exists_of_ofRow? {target row : List Char} (h : ofRow? row = some target) :
    ∃ cs c behind after, row.dropWhile isBlank = '#' :: cs ∧
      cs.dropWhile isBlank = "import".toList ++ c :: (behind ++ (target ++ after)) ∧
        isBlank c = true ∧ (∀ d ∈ behind, isBlank d = true) ∧ ∀ d ∈ after, isBlank d = true := by
  obtain ⟨-, before, between, behind, after, rfl, hblank, hne⟩ := ofRow?_eq_some_iff.1 h
  have hall : ∀ c ∈ before ++ between ++ behind ++ after, isBlank c = true :=
    fun c hc => isBlank_of_isSpaceOrTab (hblank c hc)
  obtain ⟨c, behind, rfl⟩ := List.exists_cons_of_ne_nil hne
  have hbefore : ∀ c ∈ before, isBlank c = true := fun c hc => hall c (by simp [hc])
  have hbetween : ∀ c ∈ between, isBlank c = true := fun c hc => hall c (by simp [hc])
  refine ⟨_, c, behind, after, dropWhile_append_of_bare hbefore (by simp [isBlank]),
    dropWhile_append_of_bare hbetween (by simp [isBlank]), hall c (by simp), fun d hd => ?_,
    fun d hd => ?_⟩
  · exact hall d (by simp [hd])
  · exact hall d (by simp [hd])

theorem ofLine?_of_ofRow? {target row : List Char} (ht : IsTarget target)
    (h : ofRow? row = some target) : ofLine? row = some (importing target) := by
  obtain ⟨cs, c, behind, after, hhash, hword, hc, hbehind, hafter⟩ := exists_of_ofRow? h
  have hnamed : named? "import" (cs.dropWhile isBlank) = some target := by
    refine named?_eq_some_iff.2 ⟨c, behind ++ (target ++ after), hword, hc, ?_, ?_⟩
    · simp [ht.ne_nil]
    · rw [← List.append_assoc, strip_append hbehind hafter ht.bare]
  simp only [ofLine?, hhash, hnamed]

/-- A row that is replaced for one target is not recorded for another. -/
theorem eq_of_ofLine?_of_ofRow? {row target other : List Char} (hbare : IsBare isBlank other)
    (hrow : ofRow? row = some other) (hline : ofLine? row = some (importing target)) :
    target = other := by
  obtain ⟨cs, c, behind, after, hhash, hword, -, hbehind, hafter⟩ := exists_of_ofRow? hrow
  obtain ⟨cs', hhash', hnamed⟩ := ofLine?_eq_some_iff.1 hline
  obtain rfl := (List.cons.inj (hhash.symm.trans hhash')).2
  obtain ⟨c', rest, hrest, -, -, rfl : target = _⟩ := named?_eq_some_iff.1 hnamed
  obtain ⟨-, rfl⟩ := List.cons.inj (List.append_cancel_left (hword.symm.trans hrest))
  rw [← List.append_assoc, strip_append hbehind hafter hbare]

end Directive

theorem isUnbroken_of_isSpaceOrTab {cs : List Char} (h : ∀ c ∈ cs, isSpaceOrTab c = true) :
    IsUnbroken cs := by
  intro c hc
  have hs := h c hc
  simp only [isSpaceOrTab, Bool.or_eq_true, beq_iff_eq] at hs
  rcases hs with rfl | rfl <;> decide

theorem isUnbroken_of_ofRow? {target row : List Char} (ht : IsUnbroken target)
    (h : Directive.ofRow? row = some target) : IsUnbroken row := by
  obtain ⟨-, before, between, behind, after, rfl, hblank, -⟩ := Directive.ofRow?_eq_some_iff.1 h
  obtain ⟨⟨⟨hbefore, hbetween⟩, hbehind⟩, hafter⟩ : ((IsUnbroken before ∧ IsUnbroken between) ∧
      IsUnbroken behind) ∧ IsUnbroken after := by
    rw [← isUnbroken_append_iff, ← isUnbroken_append_iff, ← isUnbroken_append_iff]
    exact isUnbroken_of_isSpaceOrTab hblank
  have hword : "import".toList.all (fun c => !isLineBreak c) = true := by decide
  have himport : IsUnbroken "import".toList := by simpa [IsUnbroken] using hword
  simp only [isUnbroken_append_iff, isUnbroken_cons_iff]
  exact ⟨hbefore, by decide, hbetween, himport, hbehind, ht, hafter⟩

/-- A row that is replaced for something that can be a target has been recorded. -/
theorem mem_recordedTargets_of_ofRow? {text row target : List Char} (hrow : row ∈ rows text)
    (ht : IsTarget target) (h : Directive.ofRow? row = some target) :
    String.ofList target ∈ recordedTargets text := by
  have hne : row ≠ [] := by
    rintro rfl
    simp [Directive.ofRow?] at h
  refine mem_recordedTargets.2
    ⟨row, mem_lines_of_mem_rows hrow hne (isUnbroken_of_ofRow? ht.unbroken h), ?_⟩
  rw [String.toList_ofList]
  exact Directive.ofLine?_of_ofRow? ht h

/-! ## Row by row -/

/-- The directives of two texts with a line feed between them are those of the one and then those of
the other. -/
theorem directivesIn_append_lineFeed (a b : List Char) :
    directivesIn (a ++ '\n' :: b) = directivesIn a ++ directivesIn b := by
  have hend : directivesIn (a ++ ['\n']) = directivesIn a := by
    rw [directivesIn, directivesIn]
    rcases lines_append_singleton_lineFeed a with h | h
    · rw [h]
    · rw [h, List.filterMap_append]
      simp [Directive.ofLine?]
  rw [← hend, directivesIn, lines_append_lineFeed, List.filterMap_append]
  rfl

theorem recordedTargets_append_lineFeed (a b : List Char) :
    recordedTargets (a ++ '\n' :: b) = recordedTargets a ++ recordedTargets b := by
  rw [recordedTargets, directivesIn_append_lineFeed, List.filterMap_append]
  rfl

theorem recordedTargets_joinRows (rs : List (List Char)) :
    recordedTargets (joinRows rs) = rs.flatMap recordedTargets := by
  induction rs with
  | nil => rfl
  | cons r rs ih =>
    cases rs with
    | nil => simp [show joinRows [r] = r from rfl]
    | cons s rs =>
      rw [show joinRows (r :: s :: rs) = r ++ '\n' :: joinRows (s :: rs) from rfl,
        recordedTargets_append_lineFeed, ih]
      exact List.flatMap_cons.symm

theorem mem_recordedTargets_iff_row {text : List Char} {target : String} :
    target ∈ recordedTargets text ↔ ∃ row ∈ rows text, target ∈ recordedTargets row := by
  rw [← List.mem_flatMap, ← recordedTargets_joinRows, joinRows_rows]

theorem recordedTargets_eq_nil_iff_rows {text : List Char} :
    recordedTargets text = [] ↔ ∀ row ∈ rows text, recordedTargets row = [] := by
  rw [← List.flatMap_eq_nil_iff, ← recordedTargets_joinRows, joinRows_rows]

end CellShader
