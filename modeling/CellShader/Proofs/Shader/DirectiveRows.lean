import CellShader.Proofs.Text.Rows
import CellShader.Shader.Directive
import CellShader.Shader.Inlining

/-!
# Directives as rows

Replacing directives goes through a text character by character, and changes it row by row:
`replaceImport_eq_mapRows` says that each row of the form `IsDirectiveRow` gives way to the new text
and that every other row stays.  `Directive.ofRow?` reads the target off such a row, so that a row
is replaced for one target at most (`isDirectiveRow_iff_ofRow?`).
-/

namespace CellShader

namespace Inlining

open Text

/-- Whether a row imports `target` with nothing but spaces and tabs between the parts of the
directive, and perhaps a carriage return at its end. -/
def IsDirectiveRow (target row : List Char) : Prop :=
  ∃ before between behind after ending,
    row = before ++ '#' ::
        (between ++ ("import".toList ++ (behind ++ (target ++ (after ++ ending))))) ∧
      (∀ c ∈ before ++ between ++ behind ++ after, isSpaceOrTab c = true) ∧ behind ≠ [] ∧
        (ending = [] ∨ ending = ['\r'])

/-! ## What stands in a row -/

theorem isSome_fromRowEnd?_iff {cs : List Char} (h : '\n' ∉ cs) :
    (fromRowEnd? cs).isSome ↔
      ∃ after ending, cs = after ++ ending ∧ (∀ c ∈ after, isSpaceOrTab c = true) ∧
        (ending = [] ∨ ending = ['\r']) := by
  constructor
  · intro hs
    refine ⟨cs.takeWhile isSpaceOrTab, cs.dropWhile isSpaceOrTab,
      List.takeWhile_append_dropWhile.symm, fun c hc => List.mem_takeWhile_imp hc, ?_⟩
    have hmem : ∀ c ∈ cs.dropWhile isSpaceOrTab, c ≠ '\n' :=
      fun c hc e => h (e ▸ (List.dropWhile_sublist _).mem hc)
    unfold fromRowEnd? at hs
    split at hs <;> simp_all
  · rintro ⟨after, ending, rfl, ha, rfl | rfl⟩
    · rw [fromRowEnd?, dropWhile_append_of_bare ha (by simp)]
      rfl
    · rw [fromRowEnd?, dropWhile_append_of_bare ha (by simp [isSpaceOrTab])]
      rfl

theorem isSome_afterTarget?_iff {target cs : List Char} (h : '\n' ∉ cs) :
    (afterTarget? target cs).isSome ↔
      ∃ behind after ending, cs = behind ++ (target ++ (after ++ ending)) ∧
        (∀ c ∈ behind ++ after, isSpaceOrTab c = true) ∧ behind ≠ [] ∧
          (ending = [] ∨ ending = ['\r']) := by
  induction cs with
  | nil =>
    refine ⟨fun hs => by simp [afterTarget?] at hs, ?_⟩
    rintro ⟨behind, after, ending, he, -, hne, -⟩
    simp [hne] at he
  | cons c cs ih =>
    have hcs : '\n' ∉ cs := fun hm => h (List.mem_cons_of_mem _ hm)
    constructor
    · intro hs
      rw [afterTarget?] at hs
      split at hs
      · rename_i hc
        rw [Option.isSome_or, Bool.or_eq_true] at hs
        rcases hs with hs | hs
        · obtain ⟨behind, after, ending, rfl, hblank, -, hend⟩ := (ih hcs).1 hs
          refine ⟨c :: behind, after, ending, rfl, ?_, by simp, hend⟩
          rw [List.cons_append, List.forall_mem_cons]
          exact ⟨hc, hblank⟩
        · obtain ⟨_, hs⟩ := Option.isSome_iff_exists.1 hs
          obtain ⟨rest, hword, hrest⟩ := Option.bind_eq_some_iff.1 hs
          obtain rfl := afterWord?_eq_some_iff.1 hword
          have hr : '\n' ∉ rest := fun hm => hcs (List.mem_append_right _ hm)
          obtain ⟨after, ending, rfl, ha, hend⟩ :=
            (isSome_fromRowEnd?_iff hr).1 (Option.isSome_iff_exists.2 ⟨_, hrest⟩)
          exact ⟨[c], after, ending, rfl, by simpa using ⟨hc, ha⟩, by simp, hend⟩
      · simp at hs
    · rintro ⟨behind, after, ending, he, hblank, hne, hend⟩
      cases behind with
      | nil => exact absurd rfl hne
      | cons b behind =>
        rw [List.cons_append, List.cons.injEq] at he
        obtain ⟨rfl, rfl⟩ := he
        have hc : isSpaceOrTab c = true := hblank c (by simp)
        rw [afterTarget?, if_pos hc, Option.isSome_or, Bool.or_eq_true]
        cases behind with
        | nil =>
          right
          rw [List.nil_append] at hcs ⊢
          have hr : '\n' ∉ after ++ ending := fun hm => hcs (List.mem_append_right _ hm)
          rw [afterWord?_eq_some_iff.2 rfl]
          exact (isSome_fromRowEnd?_iff hr).2
            ⟨after, ending, rfl, fun c hc => hblank c (by simp [hc]), hend⟩
        | cons b behind =>
          left
          exact (ih hcs).2
            ⟨b :: behind, after, ending, rfl, fun c hc => hblank c (List.mem_cons_of_mem _ hc),
              by simp, hend⟩

theorem afterDirective?_eq_bind {target row cs : List Char}
    (h : row.dropWhile isSpaceOrTab = '#' :: cs) :
    afterDirective? target row =
      (afterWord? "import".toList (cs.dropWhile isSpaceOrTab)).bind (afterTarget? target) := by
  simp only [afterDirective?, h]
  cases afterWord? "import".toList (cs.dropWhile isSpaceOrTab) with
  | none => rfl
  | some rest => rfl

theorem isSome_afterDirective?_iff {target row : List Char} (h : '\n' ∉ row) :
    (afterDirective? target row).isSome ↔ IsDirectiveRow target row := by
  constructor
  · intro hs
    unfold afterDirective? at hs
    split at hs
    · rename_i cs hhash
      split at hs
      · rename_i rest hword
        have hcs : cs.dropWhile isSpaceOrTab = "import".toList ++ rest :=
          afterWord?_eq_some_iff.1 hword
        have hrow : row = row.takeWhile isSpaceOrTab ++ '#' ::
            (cs.takeWhile isSpaceOrTab ++ ("import".toList ++ rest)) := by
          rw [← hcs, List.takeWhile_append_dropWhile, ← hhash, List.takeWhile_append_dropWhile]
        have hr : '\n' ∉ rest := fun hm => h (by rw [hrow]; simp [hm])
        obtain ⟨behind, after, ending, rfl, hblank, hne, hend⟩ := (isSome_afterTarget?_iff hr).1 hs
        refine ⟨_, _, behind, after, ending, hrow, fun c hc => ?_, hne, hend⟩
        simp only [List.append_assoc, List.mem_append] at hc
        rcases hc with hc | hc | hc
        · exact List.mem_takeWhile_imp hc
        · exact List.mem_takeWhile_imp hc
        · exact hblank c (List.mem_append.2 hc)
      · simp at hs
    · simp at hs
  · rintro ⟨before, between, behind, after, ending, rfl, hblank, hne, hend⟩
    have hbefore : ∀ c ∈ before, isSpaceOrTab c = true := fun c hc => hblank c (by simp [hc])
    have hbetween : ∀ c ∈ between, isSpaceOrTab c = true := fun c hc => hblank c (by simp [hc])
    have hr : '\n' ∉ behind ++ (target ++ (after ++ ending)) := fun hm => h (by simp [hm])
    have hrest : ∀ c ∈ behind ++ after, isSpaceOrTab c = true := by
      intro c hc
      refine hblank c ?_
      rw [List.append_assoc, List.mem_append]
      exact Or.inr hc
    rw [afterDirective?_eq_bind (dropWhile_append_of_bare hbefore (by simp [isSpaceOrTab])),
      dropWhile_append_of_bare hbetween (by simp [isSpaceOrTab]), afterWord?_eq_some_iff.2 rfl,
      Option.bind_some]
    exact (isSome_afterTarget?_iff hr).2 ⟨behind, after, ending, rfl, hrest, hne, hend⟩

/-! ## Where a row ends -/

/-- Whether nothing, or a line feed first, is left of a text. -/
def IsRowEnd (rest : List Char) : Prop := ∀ c ∈ rest.head?, c = '\n'

theorem isRowEnd_nil : IsRowEnd [] := by simp [IsRowEnd]

theorem isRowEnd_lineFeed (cs : List Char) : IsRowEnd ('\n' :: cs) := by simp [IsRowEnd]

section RowEnd

variable {rest : List Char} (hrest : IsRowEnd rest)

include hrest

theorem dropWhile_append_rowEnd (r : List Char) :
    (r ++ rest).dropWhile isSpaceOrTab = r.dropWhile isSpaceOrTab ++ rest := by
  rw [List.dropWhile_append]
  split
  · rename_i hr
    rw [List.isEmpty_iff.1 hr]
    exact dropWhile_append_of_bare (a := []) (by simp) fun c hc => hrest c hc ▸ rfl
  · rfl

theorem afterWord?_append_rowEnd {word : List Char} (hw : '\n' ∉ word) (r : List Char) :
    afterWord? word (r ++ rest) = (afterWord? word r).map (· ++ rest) := by
  induction word generalizing r with
  | nil => rfl
  | cons w ws ih =>
    cases r with
    | nil =>
      cases rest with
      | nil => rfl
      | cons c cs =>
        obtain rfl : c = '\n' := hrest c rfl
        have hne : w ≠ '\n' := fun e => hw (by simp [e])
        simp [afterWord?, hne]
    | cons c r =>
      simp only [List.cons_append, afterWord?]
      split
      · exact ih (fun hm => hw (List.mem_cons_of_mem _ hm)) r
      · rfl

theorem fromRowEnd?_append_rowEnd {r : List Char} (hr : '\n' ∉ r) :
    fromRowEnd? (r ++ rest) = (fromRowEnd? r).map (· ++ rest) := by
  have hmem : '\n' ∉ r.dropWhile isSpaceOrTab := fun hm => hr ((List.dropWhile_sublist _).mem hm)
  rw [fromRowEnd?, fromRowEnd?, dropWhile_append_rowEnd hrest]
  revert hmem
  generalize r.dropWhile isSpaceOrTab = s
  intro hmem
  cases rest with
  | nil =>
    rw [List.append_nil]
    split <;> simp
  | cons e rest =>
    obtain rfl : e = '\n' := hrest e rfl
    rcases s with _ | ⟨c, _ | ⟨d, s⟩⟩
    · rfl
    · by_cases hc : c = '\r'
      · subst hc
        rfl
      · have hne : c ≠ '\n' := fun e => hmem (by simp [e])
        simp [hc, hne]
    · have hne : c ≠ '\n' := fun e => hmem (by simp [e])
      have hne' : d ≠ '\n' := fun e => hmem (by simp [e])
      simp [hne, hne']

theorem afterTarget?_append_rowEnd {target : List Char} (ht : '\n' ∉ target) {r : List Char}
    (hr : '\n' ∉ r) :
    afterTarget? target (r ++ rest) = (afterTarget? target r).map (· ++ rest) := by
  induction r with
  | nil =>
    cases rest with
    | nil => rfl
    | cons e rest =>
      obtain rfl : e = '\n' := hrest e rfl
      rfl
  | cons c r ih =>
    have hr' : '\n' ∉ r := fun hm => hr (List.mem_cons_of_mem _ hm)
    simp only [List.cons_append, afterTarget?]
    split
    · rw [ih hr', afterWord?_append_rowEnd hrest ht]
      cases hword : afterWord? target r with
      | none => simp
      | some s =>
        have hs : '\n' ∉ s := by
          rw [afterWord?_eq_some_iff.1 hword] at hr'
          exact fun hm => hr' (List.mem_append_right _ hm)
        simp only [Option.map_some, Option.bind_some, fromRowEnd?_append_rowEnd hrest hs]
        cases afterTarget? target r <;> rfl
    · rfl

theorem afterDirective?_append_rowEnd {target : List Char} (ht : '\n' ∉ target) {r : List Char}
    (hr : '\n' ∉ r) :
    afterDirective? target (r ++ rest) = (afterDirective? target r).map (· ++ rest) := by
  have hmem : '\n' ∉ r.dropWhile isSpaceOrTab := fun hm => hr ((List.dropWhile_sublist _).mem hm)
  have hsplit := dropWhile_append_rowEnd hrest r
  cases hs : r.dropWhile isSpaceOrTab with
  | nil =>
    rw [afterDirective?, afterDirective?, hsplit, hs]
    cases rest with
    | nil => rfl
    | cons e rest =>
      obtain rfl : e = '\n' := hrest e rfl
      rfl
  | cons c cs =>
    rw [hs] at hmem
    rw [hs, List.cons_append] at hsplit
    by_cases hc : c = '#'
    · subst hc
      have hcs : '\n' ∉ cs := fun hm => hmem (List.mem_cons_of_mem _ hm)
      rw [afterDirective?_eq_bind hsplit, afterDirective?_eq_bind hs,
        dropWhile_append_rowEnd hrest, afterWord?_append_rowEnd hrest (by decide)]
      cases hword : afterWord? "import".toList (cs.dropWhile isSpaceOrTab) with
      | none => rfl
      | some ds =>
        have hds : '\n' ∉ ds := by
          intro hm
          refine hcs ((List.dropWhile_sublist isSpaceOrTab).mem ?_)
          rw [afterWord?_eq_some_iff.1 hword]
          exact List.mem_append_right _ hm
        exact afterTarget?_append_rowEnd hrest ht hds
    · rw [afterDirective?, afterDirective?, hsplit, hs]
      simp [hc]

end RowEnd

theorem eq_nil_of_fromRowEnd? {r s : List Char} (hr : '\n' ∉ r) (h : fromRowEnd? r = some s) :
    s = [] := by
  have hmem : '\n' ∉ r.dropWhile isSpaceOrTab := fun hm => hr ((List.dropWhile_sublist _).mem hm)
  unfold fromRowEnd? at h
  split at h <;> simp_all

theorem eq_nil_of_afterTarget? {target r s : List Char} (hr : '\n' ∉ r)
    (h : afterTarget? target r = some s) : s = [] := by
  induction r with
  | nil => simp [afterTarget?] at h
  | cons c r ih =>
    have hr' : '\n' ∉ r := fun hm => hr (List.mem_cons_of_mem _ hm)
    rw [afterTarget?] at h
    split at h
    · rcases Option.or_eq_some_iff.1 h with h | ⟨-, h⟩
      · exact ih hr' h
      · obtain ⟨t, hword, hend⟩ := Option.bind_eq_some_iff.1 h
        rw [afterWord?_eq_some_iff.1 hword] at hr'
        exact eq_nil_of_fromRowEnd? (fun hm => hr' (List.mem_append_right _ hm)) hend
    · simp at h

theorem eq_nil_of_afterDirective? {target r s : List Char} (hr : '\n' ∉ r)
    (h : afterDirective? target r = some s) : s = [] := by
  unfold afterDirective? at h
  split at h
  · rename_i cs hhash
    split at h
    · rename_i ds hword
      refine eq_nil_of_afterTarget? (fun hm => hr ?_) h
      have hds : '\n' ∈ cs.dropWhile isSpaceOrTab := by
        rw [afterWord?_eq_some_iff.1 hword]
        exact List.mem_append_right _ hm
      refine (List.dropWhile_sublist isSpaceOrTab).mem ?_
      rw [hhash]
      exact List.mem_cons_of_mem _ ((List.dropWhile_sublist _).mem hds)
    · simp at h
  · simp at h

/-! ## Replacing row by row -/

theorem replaceFrom_false_append (target contents : List Char) {r : List Char} (hr : '\n' ∉ r)
    (rest : List Char) :
    replaceFrom target contents false 0 (r ++ rest) =
      r ++ replaceFrom target contents false 0 rest := by
  induction r with
  | nil => rfl
  | cons c r ih =>
    have hc : (c == '\n') = false := by
      rw [beq_eq_false_iff_ne]
      exact fun e => hr (by simp [e])
    rw [List.cons_append, replaceFrom, hc, ih fun hm => hr (List.mem_cons_of_mem _ hm)]
    rfl

theorem replaceFrom_length_append (target contents : List Char) {r : List Char} (hr : '\n' ∉ r)
    (rest : List Char) :
    replaceFrom target contents false r.length (r ++ rest) =
      replaceFrom target contents false 0 rest := by
  induction r with
  | nil => rfl
  | cons c r ih =>
    have hc : (c == '\n') = false := by
      rw [beq_eq_false_iff_ne]
      exact fun e => hr (by simp [e])
    rw [List.cons_append, List.length_cons, replaceFrom, hc,
      ih fun hm => hr (List.mem_cons_of_mem _ hm)]

/-- A row as it is after replacing. -/
def replaceRow (target contents row : List Char) : List Char :=
  if (afterDirective? target row).isSome then contents else row

theorem replaceFrom_true_append {target : List Char} (ht : '\n' ∉ target) (contents : List Char)
    {r rest : List Char} (hr : '\n' ∉ r) (hrest : IsRowEnd rest) :
    replaceFrom target contents true 0 (r ++ rest) =
      replaceRow target contents r ++ replaceFrom target contents false 0 rest := by
  cases r with
  | nil =>
    cases rest with
    | nil => rfl
    | cons e rest =>
      obtain rfl : e = '\n' := hrest e rfl
      rfl
  | cons c r =>
    have hr' : '\n' ∉ r := fun hm => hr (List.mem_cons_of_mem _ hm)
    have hc : (c == '\n') = false := by
      rw [beq_eq_false_iff_ne]
      exact fun e => hr (by simp [e])
    have hafter := afterDirective?_append_rowEnd hrest ht hr
    rw [List.cons_append] at hafter ⊢
    rw [replaceFrom, hafter, hc, replaceRow]
    cases hs : afterDirective? target (c :: r) with
    | none =>
      simp only [Option.map_none, Option.isSome_none, Bool.false_eq_true, if_false,
        List.cons_append, replaceFrom_false_append target contents hr']
    | some s =>
      obtain rfl := eq_nil_of_afterDirective? hr hs
      have hlen : (r ++ rest).length - ([] ++ rest).length = r.length := by simp
      simp only [Option.map_some, Option.isSome_some, if_true, hlen,
        replaceFrom_length_append target contents hr']

theorem replaceFrom_lineFeed (target contents cs : List Char) :
    replaceFrom target contents false 0 ('\n' :: cs) =
      '\n' :: replaceFrom target contents true 0 cs :=
  rfl

theorem replaceFrom_joinRows {target : List Char} (ht : '\n' ∉ target) (contents : List Char)
    {rs : List (List Char)} (hrs : ∀ r ∈ rs, '\n' ∉ r) :
    replaceFrom target contents true 0 (joinRows rs) =
      joinRows (rs.map (replaceRow target contents)) := by
  induction rs with
  | nil => rfl
  | cons r rs ih =>
    have hr := hrs r List.mem_cons_self
    cases rs with
    | nil =>
      have h := replaceFrom_true_append ht contents hr isRowEnd_nil
      rwa [List.append_nil, replaceFrom.eq_def _ _ false, List.append_nil] at h
    | cons s rs =>
      rw [show joinRows (r :: s :: rs) = r ++ '\n' :: joinRows (s :: rs) from rfl,
        replaceFrom_true_append ht contents hr (isRowEnd_lineFeed _), replaceFrom_lineFeed,
        ih fun t ht => hrs t (List.mem_cons_of_mem _ ht)]
      rfl

/-- Replacing changes a text row by row. -/
theorem replaceImport_eq_mapRows {target : List Char} (ht : '\n' ∉ target)
    (text contents : List Char) :
    replaceImport text target contents = mapRows (replaceRow target contents) text := by
  have hrows : ∀ r ∈ rows text, '\n' ∉ r := fun r hr => lineFeed_not_mem_of_mem_rows hr
  have h := replaceFrom_joinRows ht contents hrows
  rwa [joinRows_rows] at h

open Classical in
theorem replaceRow_eq_ite (target contents : List Char) {row : List Char} (h : '\n' ∉ row) :
    replaceRow target contents row = if IsDirectiveRow target row then contents else row := by
  rw [replaceRow]
  simp only [isSome_afterDirective?_iff h]

end Inlining

end CellShader
