import CellShader.Proofs.Shader.Scan

/-!
# Putting texts in all at once

`substitute` puts texts in place of the directives of a text and looks at none of what it puts in.
Replacing one target after another comes to the same (`foldl_replaceImport_eq_substitute`) if no
directive that names something is left in the texts that are put in (`IsResolved`).  Then none is
left in what comes out either (`isResolved_substitute`).
-/

namespace CellShader

open Text Inlining

/-- What comes in place of a row: the text for its target, if the row is a directive and the table
has its target, and otherwise the row itself. -/
def substituteRow (table : List (String × List Char)) (row : List Char) : List Char :=
  match Directive.ofRow? row with
  | some target => (table.lookup (String.ofList target)).getD row
  | none => row

/-- A text with the texts of a table in place of its directives. -/
def substitute (table : List (String × List Char)) (text : List Char) : List Char :=
  mapRows (substituteRow table) text

/-- Whether no row of a text is a directive that names something. -/
structure IsResolved (text : List Char) : Prop where
  noReturn : '\r' ∉ text
  noDirective : ∀ row ∈ rows text, ∀ target, Directive.ofRow? row = some target → ¬ IsTarget target

theorem mem_joinRows {ps : List (List Char)} {c : Char} (h : c ∈ joinRows ps) :
    c = '\n' ∨ ∃ p ∈ ps, c ∈ p := by
  induction ps with
  | nil => simp [joinRows, glue] at h
  | cons p ps ih =>
    cases ps with
    | nil => exact .inr ⟨p, by simp, h⟩
    | cons q qs =>
      rw [show joinRows (p :: q :: qs) = p ++ '\n' :: joinRows (q :: qs) from rfl, List.mem_append,
        List.mem_cons] at h
      rcases h with h | h | h
      · exact .inr ⟨p, by simp, h⟩
      · exact .inl h
      · obtain h | ⟨r, hr, hc⟩ := ih h
        · exact .inl h
        · exact .inr ⟨r, List.mem_cons_of_mem _ hr, hc⟩

theorem not_mem_mapRows {f : List Char → List Char} {text : List Char} {c : Char} (hc : c ≠ '\n')
    (h : ∀ row ∈ rows text, c ∉ f row) : c ∉ mapRows f text := by
  intro hmem
  obtain hn | ⟨p, hp, hcp⟩ := mem_joinRows hmem
  · exact hc hn
  · obtain ⟨row, hrow, rfl⟩ := List.mem_map.1 hp
    exact h row hrow hcp

/-! ## One target after another -/

theorem replaceRow_eq {target row : List Char} (ht : IsBare isBlank target) (hr : '\r' ∉ row)
    (hn : '\n' ∉ row) (contents : List Char) :
    replaceRow target contents row =
      if Directive.ofRow? row = some target then contents else row := by
  rw [replaceRow_eq_ite _ _ hn]
  simp only [isDirectiveRow_iff_ofRow? ht hr]

theorem carriageReturn_not_mem_replaceImport {target text contents : List Char}
    (ht : '\n' ∉ target) (htext : '\r' ∉ text) (hcontents : '\r' ∉ contents) :
    '\r' ∉ replaceImport text target contents := by
  rw [replaceImport_eq_mapRows ht]
  refine not_mem_mapRows (by decide) fun row hrow => ?_
  rw [replaceRow]
  split
  · exact hcontents
  · exact fun hm => htext (mem_of_mem_rows hrow hm)

theorem substitute_eq_self {table : List (String × List Char)} {text : List Char}
    (htable : ∀ x ∈ table, IsTarget x.1.toList) (h : IsResolved text) :
    substitute table text = text := by
  refine mapRows_eq_self fun row hrow => ?_
  rw [substituteRow]
  cases hof : Directive.ofRow? row with
  | none => rfl
  | some target =>
    cases hlookup : table.lookup (String.ofList target) with
    | none => simp [hlookup]
    | some contents =>
      obtain ⟨before, after, happ, -⟩ := List.lookup_eq_some_iff.1 hlookup
      have ht := htable (String.ofList target, contents) (by simp [happ])
      rw [String.toList_ofList] at ht
      exact absurd ht (h.noDirective row hrow target hof)

theorem substitute_replaceImport {table : List (String × List Char)} {target : String}
    {text contents : List Char} (ht : IsTarget target.toList)
    (htable : ∀ x ∈ table, IsTarget x.1.toList) (htext : '\r' ∉ text) (h : IsResolved contents) :
    substitute table (replaceImport text target.toList contents) =
      substitute ((target, contents) :: table) text := by
  rw [substitute, substitute, replaceImport_eq_mapRows ht.unbroken.lineFeed_not_mem,
    mapRows_mapRows]
  refine mapRows_congr fun row hrow => ?_
  have hr : '\r' ∉ row := fun hm => htext (mem_of_mem_rows hrow hm)
  have hn : '\n' ∉ row := lineFeed_not_mem_of_mem_rows hrow
  rw [replaceRow_eq ht.bare hr hn, substituteRow]
  by_cases hof : Directive.ofRow? row = some target.toList
  · have hself : mapRows (substituteRow table) contents = contents := substitute_eq_self htable h
    simp [hof, hself]
  · rw [if_neg hof, mapRows_of_not_mem _ hn, substituteRow]
    cases hrow' : Directive.ofRow? row with
    | none => rfl
    | some other =>
      have hne : (String.ofList other == target) = false := by
        rw [beq_eq_false_iff_ne]
        rintro rfl
        exact hof (by rw [hrow', String.toList_ofList])
      simp [List.lookup_cons, hne]

/-- Replacing one target after another is putting all their texts in at once. -/
theorem foldl_replaceImport_eq_substitute {contents : String → List Char} {targets : List String}
    (htargets : ∀ target ∈ targets, IsTarget target.toList)
    (hcontents : ∀ target ∈ targets, IsResolved (contents target)) {text : List Char}
    (htext : '\r' ∉ text) :
    targets.foldl (fun text target => replaceImport text target.toList (contents target)) text =
      substitute (targets.map fun target => (target, contents target)) text := by
  induction targets generalizing text with
  | nil =>
    refine (mapRows_eq_self fun row _ => ?_).symm
    rw [List.map_nil, substituteRow]
    cases Directive.ofRow? row <;> rfl
  | cons target targets ih =>
    obtain ⟨ht, htargets⟩ := List.forall_mem_cons.1 htargets
    obtain ⟨hc, hcontents⟩ := List.forall_mem_cons.1 hcontents
    have hreplaced :=
      carriageReturn_not_mem_replaceImport ht.unbroken.lineFeed_not_mem htext hc.noReturn
    have htable : ∀ x ∈ targets.map fun t => (t, contents t), IsTarget x.1.toList := by
      simpa using htargets
    rw [List.foldl_cons, ih htargets hcontents hreplaced, List.map_cons,
      substitute_replaceImport ht htable htext hc]

/-! ## What comes out -/

/-- No directive that names something is left if the table has all targets that are recorded. -/
theorem isResolved_substitute {table : List (String × List Char)} {text : List Char}
    (htext : '\r' ∉ text) (htable : ∀ x ∈ table, IsResolved x.2)
    (hall : ∀ target ∈ recordedTargets text, target ≠ "" → (table.lookup target).isSome) :
    IsResolved (substitute table text) := by
  have hlookup : ∀ target contents, table.lookup target = some contents → IsResolved contents := by
    intro target contents h
    obtain ⟨before, after, happ, -⟩ := List.lookup_eq_some_iff.1 h
    exact htable (target, contents) (by simp [happ])
  constructor
  · refine not_mem_mapRows (by decide) fun row hrow => ?_
    have hr : '\r' ∉ row := fun hm => htext (mem_of_mem_rows hrow hm)
    rw [substituteRow]
    cases Directive.ofRow? row with
    | none => exact hr
    | some target =>
      dsimp only
      cases h : table.lookup (String.ofList target) with
      | none => exact hr
      | some contents => exact (hlookup _ _ h).noReturn
  · intro row hrow target hof ht
    obtain ⟨old, hold, hnew⟩ := mem_rows_mapRows.1 hrow
    have hsame : rows old = [old] := rows_of_not_mem (lineFeed_not_mem_of_mem_rows hold)
    rw [substituteRow] at hnew
    cases hof' : Directive.ofRow? old with
    | none =>
      rw [hof', hsame, List.mem_singleton] at hnew
      subst hnew
      simp [hof] at hof'
    | some target' =>
      rw [hof'] at hnew
      dsimp only at hnew
      cases h : table.lookup (String.ofList target') with
      | none =>
        rw [h, Option.getD_none, hsame, List.mem_singleton] at hnew
        subst hnew
        obtain rfl : target' = target := Option.some.inj (hof'.symm.trans hof)
        have hrecorded := mem_recordedTargets_of_ofRow? hold ht hof
        have hsome := hall _ hrecorded (by simpa using ht.ne_nil)
        simp [h] at hsome
      | some contents =>
        rw [h, Option.getD_some] at hnew
        exact (hlookup _ _ h).noDirective row hnew target hof ht

end CellShader
