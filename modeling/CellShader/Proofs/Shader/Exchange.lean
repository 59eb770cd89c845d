import CellShader.Proofs.Shader.Scan

/-!
# Replacing in any order

A row that is a directive is one for a single target, whatever ends it (`IsDirectiveRow.unique`).
So two targets can be replaced in either order, as long as neither is imported by the text that is
put in for the other (`replaceImport_comm`), and any number of targets in any order
(`foldl_replaceImport_eq_of_perm`).
-/

namespace CellShader

open Text

namespace Inlining

variable {s t target row text cs ct : List Char}

/-! ## One row -/

/-- What stands behind the word of a directive row, in which the target is found by taking the blank
ends away. -/
theorem exists_of_isDirectiveRow (htarget : IsBare isBlank target)
    (h : IsDirectiveRow target row) :
    ∃ cs rest, row.dropWhile isSpaceOrTab = '#' :: cs ∧
      cs.dropWhile isSpaceOrTab = "import".toList ++ rest ∧ strip isBlank rest = target := by
  obtain ⟨before, between, behind, after, ending, rfl, hblank, -, hend⟩ := h
  simp only [List.forall_mem_append] at hblank
  obtain ⟨⟨⟨hbefore, hbetween⟩, hbehind⟩, hafter⟩ := hblank
  -- a carriage return at the end is as blank as what comes before it
  have hending : ∀ c ∈ ending, isBlank c = true := by
    rcases hend with rfl | rfl
    · exact fun c hc => nomatch hc
    · exact List.forall_mem_singleton.2 (by decide)
  refine ⟨_, _, dropWhile_append_of_bare hbefore (by simp [isSpaceOrTab]),
    dropWhile_append_of_bare hbetween (by simp [isSpaceOrTab]), ?_⟩
  rw [← List.append_assoc]
  exact strip_append (fun c hc => isBlank_of_isSpaceOrTab (hbehind c hc))
    (List.forall_mem_append.2 ⟨fun c hc => isBlank_of_isSpaceOrTab (hafter c hc), hending⟩) htarget

/-- A row is a directive for one target at most. -/
theorem IsDirectiveRow.unique (hs : IsBare isBlank s) (ht : IsBare isBlank t)
    (h : IsDirectiveRow s row) (h' : IsDirectiveRow t row) : s = t := by
  obtain ⟨cs, rest, hhash, hword, hstrip⟩ := exists_of_isDirectiveRow hs h
  obtain ⟨cs', rest', hhash', hword', hstrip'⟩ := exists_of_isDirectiveRow ht h'
  obtain rfl := (List.cons.inj (hhash.symm.trans hhash')).2
  obtain rfl := List.append_cancel_left (hword.symm.trans hword')
  exact hstrip.symm.trans hstrip'

/-- Whether no row of a text is a directive for a target. -/
def LacksDirective (target text : List Char) : Prop := ∀ row ∈ rows text, ¬IsDirectiveRow target row

theorem lacksDirective_iff :
    LacksDirective target text ↔ ∀ row ∈ rows text, (afterDirective? target row).isSome = false := by
  refine forall₂_congr fun row hrow => ?_
  rw [← isSome_afterDirective?_iff (lineFeed_not_mem_of_mem_rows hrow), Bool.not_eq_true]

instance (target text : List Char) : Decidable (LacksDirective target text) :=
  decidable_of_iff _ lacksDirective_iff.symm

theorem mapRows_replaceRow_of_lacksDirective (h : LacksDirective target text)
    (contents : List Char) : mapRows (replaceRow target contents) text = text := by
  refine mapRows_eq_self fun row hrow => ?_
  rw [replaceRow, lacksDirective_iff.1 h row hrow]
  rfl

open Classical in
/-- What becomes of a row when one target is replaced and then another. -/
theorem mapRows_replaceRow_replaceRow (hrow : '\n' ∉ row) (hcs : LacksDirective t cs) :
    mapRows (replaceRow t ct) (replaceRow s cs row) =
      if IsDirectiveRow s row then cs else if IsDirectiveRow t row then ct else row := by
  rw [replaceRow_eq_ite s cs hrow]
  split
  · exact mapRows_replaceRow_of_lacksDirective hcs ct
  · rw [mapRows_of_not_mem _ hrow, replaceRow_eq_ite t ct hrow]

/-! ## All rows -/

theorem replaceImport_comm (hne : s ≠ t) (hsn : '\n' ∉ s) (htn : '\n' ∉ t) (hs : IsBare isBlank s)
    (ht : IsBare isBlank t) (hcs : LacksDirective t cs) (hct : LacksDirective s ct)
    (text : List Char) :
    replaceImport (replaceImport text s cs) t ct =
      replaceImport (replaceImport text t ct) s cs := by
  simp only [replaceImport_eq_mapRows hsn, replaceImport_eq_mapRows htn, mapRows_mapRows]
  refine mapRows_congr fun row hrow => ?_
  have hn : '\n' ∉ row := lineFeed_not_mem_of_mem_rows hrow
  rw [mapRows_replaceRow_replaceRow hn hcs, mapRows_replaceRow_replaceRow hn hct]
  by_cases h : IsDirectiveRow s row
  · have h' : ¬IsDirectiveRow t row := fun h' => hne (h.unique hs ht h')
    rw [if_pos h, if_neg h', if_pos h]
  · rw [if_neg h, if_neg h]

/-- The order in which targets are replaced does not matter if none of the texts imports any of
them. -/
theorem foldl_replaceImport_eq_of_perm {contents : String → List Char}
    {targets targets' : List String} (hperm : targets.Perm targets')
    (htargets : ∀ target ∈ targets, IsTarget target.toList)
    (hcontents : ∀ x ∈ targets, ∀ y ∈ targets, LacksDirective x.toList (contents y))
    (text : List Char) :
    targets.foldl (fun text target => replaceImport text target.toList (contents target)) text =
      targets'.foldl (fun text target => replaceImport text target.toList (contents target))
        text := by
  refine hperm.foldl_eq' (fun x hx y hy text => ?_) text
  by_cases hxy : x = y
  · rw [hxy]
  · have hne : x.toList ≠ y.toList := fun h => hxy (String.toList_inj.1 h)
    exact replaceImport_comm hne (htargets x hx).unbroken.lineFeed_not_mem
      (htargets y hy).unbroken.lineFeed_not_mem (htargets x hx).bare (htargets y hy).bare
      (hcontents y hy x hx) (hcontents x hx y hy) text

end Inlining

open Inlining

open Classical in
/-- To replace the directives for a target is to put the new text in place of each row that is one,
and to leave all other rows as they are.  Of two targets without blank ends either can be replaced
first, if no row of the text for the one is a directive for the other. -/
theorem replaceImport_row_by_row :
    (∀ text target contents : List Char, '\n' ∉ target →
      replaceImport text target contents =
        joinRows ((rows text).map fun row =>
          if IsDirectiveRow target row then contents else row)) ∧
    ∀ s t cs ct text : List Char, s ≠ t → '\n' ∉ s → '\n' ∉ t → IsBare isBlank s →
      IsBare isBlank t → LacksDirective t cs → LacksDirective s ct →
        replaceImport (replaceImport text s cs) t ct =
          replaceImport (replaceImport text t ct) s cs := by
  constructor
  · intro text target contents htarget
    rw [replaceImport_eq_mapRows htarget]
    exact mapRows_congr fun row hrow =>
      replaceRow_eq_ite target contents (lineFeed_not_mem_of_mem_rows hrow)
  · intro s t cs ct text hne hsn htn hs ht hcs hct
    exact replaceImport_comm hne hsn htn hs ht hcs hct text

open Classical in
/-- The one target is how the other begins, and its text has the directive for the other in a
comment. -/
theorem replaceImport_row_by_row_dotted :
    "a".toList ≠ "a.b".toList ∧ '\n' ∉ "a".toList ∧ '\n' ∉ "a.b".toList ∧
      IsBare isBlank "a".toList ∧ IsBare isBlank "a.b".toList ∧
      LacksDirective "a.b".toList "\\1\n//#import a.b".toList ∧
      LacksDirective "a".toList "B".toList ∧
      ∃ text, text = "\t# import  a \r\n#import a.b\nx #import a".toList ∧
        replaceImport text "a".toList "B".toList =
          joinRows ((rows text).map fun row =>
            if IsDirectiveRow "a".toList row then "B".toList else row) ∧
        replaceImport (replaceImport text "a".toList "\\1\n//#import a.b".toList) "a.b".toList
          "B".toList = "\\1\n//#import a.b\nB\nx #import a".toList ∧
        replaceImport (replaceImport text "a.b".toList "B".toList) "a".toList
          "\\1\n//#import a.b".toList = "\\1\n//#import a.b\nB\nx #import a".toList := by
  have hne : "a".toList ≠ "a.b".toList := by decide
  have hsn : '\n' ∉ "a".toList := by decide
  have htn : '\n' ∉ "a.b".toList := by decide
  have hs : IsBare isBlank "a".toList := by simp [IsBare, isBlank]
  have ht : IsBare isBlank "a.b".toList := by simp [IsBare, isBlank]
  have hcs : LacksDirective "a.b".toList "\\1\n//#import a.b".toList := by decide
  have hct : LacksDirective "a".toList "B".toList := by decide
  have hboth : replaceImport (replaceImport "\t# import  a \r\n#import a.b\nx #import a".toList
      "a".toList "\\1\n//#import a.b".toList) "a.b".toList "B".toList =
        "\\1\n//#import a.b\nB\nx #import a".toList := by
    decide +kernel
  obtain ⟨hrows, hcomm⟩ := replaceImport_row_by_row
  refine ⟨hne, hsn, htn, hs, ht, hcs, hct, _, rfl, hrows _ _ _ hsn, hboth, ?_⟩
  exact (hcomm _ _ _ _ _ hne hsn htn hs ht hcs hct).symm.trans hboth

end CellShader
