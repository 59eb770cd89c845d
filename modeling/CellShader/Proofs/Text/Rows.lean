import CellShader.Text.Blank
import CellShader.Text.Line
import Mathlib.Data.List.TakeWhile

/-!
# Rows, lines and blank ends

How the two ways to cut a text fit together.  Cutting undoes putting together (`cut_glue`), a text
changed row by row can be changed stretch by stretch (`mapRows_joinRows`), and a row that holds no
line break at all is also a line (`mem_lines_of_mem_rows`).  `strip` takes characters of one kind
from both ends of a text; `strip_append` says what it leaves.
-/

namespace CellShader.Text

/-! ## Stretches -/

theorem cut_of_not_mem {sep : Char} {r : List Char} (h : sep ∉ r) : cut sep r = [r] := by
  induction r with
  | nil => rfl
  | cons c r ih =>
    rw [List.mem_cons, not_or] at h
    rw [cut, if_neg (Ne.symm h.1), ih h.2]
    rfl

theorem cut_append (sep : Char) (a b : List Char) :
    cut sep (a ++ sep :: b) = cut sep a ++ cut sep b := by
  induction a with
  | nil => simp [cut]
  | cons c a ih =>
    rw [List.cons_append, cut, cut, ih]
    split
    · rfl
    · have hne := cut_ne_nil sep a
      cases hr : cut sep a with
      | nil => exact absurd hr hne
      | cons r rs => rfl

/-- A text tells where the last separator in it stands. -/
theorem append_cons_inj {sep : Char} {a b tail tail' : List Char} (h : sep ∉ tail)
    (h' : sep ∉ tail') : a ++ sep :: tail = b ++ sep :: tail' ↔ a = b ∧ tail = tail' := by
  refine ⟨fun heq => ?_, by rintro ⟨rfl, rfl⟩; rfl⟩
  have hcut := congrArg (cut sep) heq
  rw [cut_append, cut_append, cut_of_not_mem h, cut_of_not_mem h'] at hcut
  obtain ⟨hfront, htail⟩ := List.append_inj' hcut rfl
  refine ⟨?_, List.singleton_inj.1 htail⟩
  rw [← glue_cut sep a, hfront, glue_cut]

theorem not_mem_of_mem_cut {sep : Char} {cs r : List Char} (h : r ∈ cut sep cs) : sep ∉ r := by
  induction cs generalizing r with
  | nil =>
    rw [cut, List.mem_singleton] at h
    simp [h]
  | cons c cs ih =>
    have hne := cut_ne_nil sep cs
    rw [cut] at h
    split at h
    · rcases List.mem_cons.1 h with rfl | h
      · simp
      · exact ih h
    · rename_i hc
      cases hr : cut sep cs with
      | nil => exact absurd hr hne
      | cons s rs =>
        rw [hr, consFirst] at h
        rcases List.mem_cons.1 h with rfl | h
        · have hs : sep ∉ s := ih (hr ▸ List.mem_cons_self)
          simp [Ne.symm hc, hs]
        · exact ih (hr ▸ List.mem_cons_of_mem _ h)

theorem mem_of_mem_cut {sep c : Char} {cs r : List Char} (hr : r ∈ cut sep cs) (hc : c ∈ r) :
    c ∈ cs := by
  induction cs generalizing r with
  | nil =>
    obtain rfl : r = [] := by simpa [cut] using hr
    simp at hc
  | cons d cs ih =>
    have hne := cut_ne_nil sep cs
    rw [cut] at hr
    split at hr
    · rcases List.mem_cons.1 hr with rfl | hr
      · simp at hc
      · exact List.mem_cons_of_mem _ (ih hr hc)
    · cases hs : cut sep cs with
      | nil => exact absurd hs hne
      | cons s ss =>
        rw [hs, consFirst] at hr
        rcases List.mem_cons.1 hr with rfl | hr
        · rcases List.mem_cons.1 hc with rfl | hc
          · exact List.mem_cons_self
          · exact List.mem_cons_of_mem _ (ih (hs ▸ List.mem_cons_self) hc)
        · exact List.mem_cons_of_mem _ (ih (hs ▸ List.mem_cons_of_mem _ hr) hc)

theorem mem_of_mem_glue {sep c : Char} {rs : List (List Char)} (h : c ∈ glue sep rs) :
    c = sep ∨ ∃ r ∈ rs, c ∈ r := by
  fun_induction glue sep rs with
  | case1 => cases h
  | case2 r => exact .inr ⟨r, List.mem_singleton_self r, h⟩
  | case3 r rs _ ih =>
    rcases List.mem_append.1 h with hr | htail
    · exact .inr ⟨r, List.mem_cons_self, hr⟩
    · rcases List.mem_cons.1 htail with rfl | hrest
      · exact .inl rfl
      · exact (ih hrest).imp_right fun ⟨s, hs, hc⟩ => ⟨s, List.mem_cons_of_mem _ hs, hc⟩

theorem exists_mem_cut {sep c : Char} {cs : List Char} (hc : c ∈ cs) (hne : c ≠ sep) :
    ∃ r ∈ cut sep cs, c ∈ r := by
  rw [← glue_cut sep cs] at hc
  exact (mem_of_mem_glue hc).resolve_left hne

/-- Behind a text, one without separators belongs to its last stretch. -/
theorem exists_cut_append {sep : Char} (cs : List Char) {ds : List Char} (h : sep ∉ ds) :
    ∃ rs r, cut sep cs = rs ++ [r] ∧ cut sep (cs ++ ds) = rs ++ [r ++ ds] := by
  induction cs with
  | nil => exact ⟨[], [], rfl, cut_of_not_mem h⟩
  | cons c cs ih =>
    obtain ⟨rs, r, hcut, happend⟩ := ih
    rw [List.cons_append, cut, cut, hcut, happend]
    split
    · exact ⟨[] :: rs, r, rfl, rfl⟩
    · cases rs with
      | nil => exact ⟨[], c :: r, rfl, rfl⟩
      | cons s rs => exact ⟨(c :: s) :: rs, r, rfl, rfl⟩

theorem glue_append (sep : Char) {as bs : List (List Char)} (ha : as ≠ []) (hb : bs ≠ []) :
    glue sep (as ++ bs) = glue sep as ++ sep :: glue sep bs := by
  induction as with
  | nil => exact absurd rfl ha
  | cons a as ih =>
    cases as with
    | nil =>
      obtain ⟨b, bs, rfl⟩ := List.exists_cons_of_ne_nil hb
      rfl
    | cons a' as =>
      have h := ih (by simp)
      simp only [List.cons_append, glue] at h ⊢
      rw [h, List.append_assoc, List.cons_append]

theorem glue_flatMap {α : Type} (sep : Char) {g : α → List (List Char)} (hg : ∀ x, g x ≠ [])
    (xs : List α) : glue sep (xs.flatMap g) = glue sep (xs.map fun x => glue sep (g x)) := by
  induction xs with
  | nil => rfl
  | cons x xs ih =>
    cases xs with
    | nil => simp [glue]
    | cons y ys =>
      have hne : (y :: ys).flatMap g ≠ [] := by simp [hg y]
      rw [List.flatMap_cons, glue_append sep (hg x) hne, ih]
      rfl

theorem cut_glue_flatMap (sep : Char) {ps : List (List Char)} (h : ps ≠ []) :
    cut sep (glue sep ps) = ps.flatMap (cut sep) := by
  induction ps with
  | nil => exact absurd rfl h
  | cons p ps ih =>
    cases ps with
    | nil => simp [glue]
    | cons q qs =>
      have hglue : glue sep (p :: q :: qs) = p ++ sep :: glue sep (q :: qs) := rfl
      rw [hglue, cut_append, ih (by simp)]
      rfl

theorem cut_glue {sep : Char} {rs : List (List Char)} (hne : rs ≠ []) (h : ∀ r ∈ rs, sep ∉ r) :
    cut sep (glue sep rs) = rs := by
  rw [cut_glue_flatMap sep hne]
  induction rs with
  | nil => rfl
  | cons r rs ih =>
    rw [List.flatMap_cons, cut_of_not_mem (h r List.mem_cons_self)]
    cases rs with
    | nil => rfl
    | cons s ss => rw [ih (by simp) fun x hx => h x (List.mem_cons_of_mem _ hx)]; rfl

/-! ## Rows -/

theorem rows_ne_nil (cs : List Char) : rows cs ≠ [] := cut_ne_nil _ cs

theorem lineFeed_not_mem_of_mem_rows {cs r : List Char} (h : r ∈ rows cs) : '\n' ∉ r :=
  not_mem_of_mem_cut h

theorem rows_of_not_mem {r : List Char} (h : '\n' ∉ r) : rows r = [r] := cut_of_not_mem h

theorem rows_joinRows {ps : List (List Char)} (h : ps ≠ []) :
    rows (joinRows ps) = ps.flatMap rows := cut_glue_flatMap _ h

theorem mem_of_mem_rows {cs r : List Char} {c : Char} (hr : r ∈ rows cs) (hc : c ∈ r) : c ∈ cs :=
  mem_of_mem_cut hr hc

/-- A text with each of its rows changed. -/
def mapRows (f : List Char → List Char) (cs : List Char) : List Char := joinRows ((rows cs).map f)

theorem mapRows_of_not_mem (f : List Char → List Char) {r : List Char} (h : '\n' ∉ r) :
    mapRows f r = f r := by
  rw [mapRows, rows_of_not_mem h]
  rfl

theorem mapRows_congr {f g : List Char → List Char} {cs : List Char}
    (h : ∀ r ∈ rows cs, f r = g r) : mapRows f cs = mapRows g cs := by
  rw [mapRows, mapRows, List.map_congr_left h]

theorem mapRows_eq_self {f : List Char → List Char} {cs : List Char} (h : ∀ r ∈ rows cs, f r = r) :
    mapRows f cs = cs := by
  rw [mapRows_congr (g := id) h, mapRows, List.map_id, joinRows_rows]

/-- Rows may be changed in the stretches that a text is put together from. -/
theorem mapRows_joinRows (f : List Char → List Char) {ps : List (List Char)} (h : ps ≠ []) :
    mapRows f (joinRows ps) = joinRows (ps.map (mapRows f)) := by
  rw [mapRows, rows_joinRows h, List.map_flatMap]
  exact glue_flatMap '\n' (fun p => by simp [rows_ne_nil]) ps

theorem mapRows_mapRows (f g : List Char → List Char) (cs : List Char) :
    mapRows f (mapRows g cs) = mapRows (fun r => mapRows f (g r)) cs := by
  rw [mapRows.eq_def g, mapRows_joinRows f (by simp [rows_ne_nil]), List.map_map]
  rfl

theorem mem_rows_mapRows {f : List Char → List Char} {cs r : List Char} :
    r ∈ rows (mapRows f cs) ↔ ∃ s ∈ rows cs, r ∈ rows (f s) := by
  rw [mapRows, rows_joinRows (by simp [rows_ne_nil]), List.flatMap_map, List.mem_flatMap]

/-! ## Lines -/

/-- Whether no line ends within a text. -/
def IsUnbroken (cs : List Char) : Prop := ∀ c ∈ cs, isLineBreak c = false

theorem isUnbroken_cons_iff {c : Char} {cs : List Char} :
    IsUnbroken (c :: cs) ↔ isLineBreak c = false ∧ IsUnbroken cs := List.forall_mem_cons

theorem IsUnbroken.lineFeed_not_mem {cs : List Char} (h : IsUnbroken cs) : '\n' ∉ cs := by
  intro hmem
  have hbreak := h _ hmem
  simp [isLineBreak] at hbreak

theorem lines_cons {c : Char} {cs : List Char} (h : c = '\r' → cs.head? ≠ some '\n') :
    lines (c :: cs) = if isLineBreak c then [] :: lines cs else consFirst c (lines cs) := by
  rw [lines]
  rintro _ rfl rfl
  exact h rfl rfl

theorem lines_cons_of_unbroken {c : Char} (h : isLineBreak c = false) (cs : List Char) :
    lines (c :: cs) = consFirst c (lines cs) := by
  have hc : c ≠ '\r' := by
    rintro rfl
    exact absurd h (by decide)
  rw [lines_cons fun e => absurd e hc, h]
  rfl

theorem consFirst_append {ls : List (List Char)} (c : Char) (h : ls ≠ []) (ms : List (List Char)) :
    consFirst c (ls ++ ms) = consFirst c ls ++ ms := by
  obtain ⟨l, ls, rfl⟩ := List.exists_cons_of_ne_nil h
  rfl

theorem lines_ne_nil {cs : List Char} (h : cs ≠ []) : lines cs ≠ [] := by
  fun_cases lines cs with
  | case1 => exact absurd rfl h
  | case2 cs => simp
  | case3 c cs _ hc => simp
  | case4 c cs _ hc => cases lines cs <;> simp [consFirst]

/-- A line feed parts the lines before it from those behind it. -/
theorem lines_append_lineFeed (a b : List Char) :
    lines (a ++ '\n' :: b) = lines (a ++ ['\n']) ++ lines b := by
  fun_induction lines a with
  | case1 => simp [lines, isLineBreak]
  | case2 a ih => simp [lines, ih]
  | case3 c a h hc ih =>
    by_cases hlast : c = '\r' ∧ a = []
    · obtain ⟨rfl, rfl⟩ := hlast
      simp [lines]
    · have hhead : ∀ d, c = '\r' → (a ++ '\n' :: d).head? ≠ some '\n' := by
        rintro d rfl
        cases a with
        | nil => exact absurd ⟨rfl, rfl⟩ hlast
        | cons e a =>
          intro he
          obtain rfl : e = '\n' := by simpa using he
          exact h a rfl rfl
      rw [List.cons_append, List.cons_append, lines_cons (hhead b), lines_cons (hhead []), ih]
      simp [hc]
  | case4 c a _ h ih =>
    have hc : isLineBreak c = false := by simpa using h
    rw [List.cons_append, List.cons_append, lines_cons_of_unbroken hc, lines_cons_of_unbroken hc,
      ih, consFirst_append c (lines_ne_nil (by simp))]

/-- A line feed at the very end adds an empty line at most. -/
theorem lines_append_singleton_lineFeed (a : List Char) :
    lines (a ++ ['\n']) = lines a ∨ lines (a ++ ['\n']) = lines a ++ [[]] := by
  fun_induction lines a with
  | case1 => exact .inr rfl
  | case2 a ih =>
    rw [List.cons_append, List.cons_append, lines]
    exact ih.imp (congrArg _) (congrArg _)
  | case3 c a h hc ih =>
    by_cases hlast : c = '\r' ∧ a = []
    · obtain ⟨rfl, rfl⟩ := hlast
      exact .inl rfl
    · have hhead : c = '\r' → (a ++ ['\n']).head? ≠ some '\n' := by
        rintro rfl
        cases a with
        | nil => exact absurd ⟨rfl, rfl⟩ hlast
        | cons e a =>
          intro he
          obtain rfl : e = '\n' := by simpa using he
          exact h a rfl rfl
      rw [List.cons_append, lines_cons hhead, if_pos hc]
      exact ih.imp (congrArg _) (congrArg _)
  | case4 c a _ h ih =>
    have hc : isLineBreak c = false := by simpa using h
    rw [List.cons_append, lines_cons_of_unbroken hc]
    by_cases ha : a = []
    · subst ha
      exact .inl rfl
    · refine ih.imp (congrArg _) fun ih => ?_
      rw [ih, consFirst_append c (lines_ne_nil ha)]

theorem lines_append_lineFeed_of_unbroken {r : List Char} (h : IsUnbroken r) (cs : List Char) :
    lines (r ++ '\n' :: cs) = r :: lines cs := by
  induction r with
  | nil => simp [lines, isLineBreak]
  | cons c r ih =>
    obtain ⟨hc, hr⟩ := isUnbroken_cons_iff.1 h
    rw [List.cons_append, lines_cons_of_unbroken hc, ih hr]
    rfl

theorem lines_of_unbroken {r : List Char} (hne : r ≠ []) (h : IsUnbroken r) : lines r = [r] := by
  induction r with
  | nil => exact absurd rfl hne
  | cons c r ih =>
    obtain ⟨hc, hr⟩ := isUnbroken_cons_iff.1 h
    rw [lines_cons_of_unbroken hc]
    cases r with
    | nil => rfl
    | cons d r => rw [ih (by simp) hr]; rfl

theorem mem_lines_joinRows {rs : List (List Char)} {r : List Char} (hr : r ∈ rs) (hne : r ≠ [])
    (h : IsUnbroken r) : r ∈ lines (joinRows rs) := by
  induction rs with
  | nil => simp at hr
  | cons s rs ih =>
    cases rs with
    | nil =>
      obtain rfl : r = s := by simpa using hr
      rw [show joinRows [r] = r from rfl, lines_of_unbroken hne h]
      exact List.mem_singleton_self r
    | cons s' rs =>
      rw [show joinRows (s :: s' :: rs) = s ++ '\n' :: joinRows (s' :: rs) from rfl]
      rcases List.mem_cons.1 hr with rfl | hr
      · rw [lines_append_lineFeed_of_unbroken h]
        exact List.mem_cons_self
      · rw [lines_append_lineFeed]
        exact List.mem_append_right _ (ih hr)

/-- A row that no line break stands in is a line of the text, unless it is empty. -/
theorem mem_lines_of_mem_rows {cs r : List Char} (hr : r ∈ rows cs) (hne : r ≠ [])
    (h : IsUnbroken r) : r ∈ lines cs :=
  joinRows_rows cs ▸ mem_lines_joinRows hr hne h

theorem isUnbroken_of_mem_lines {cs l : List Char} (h : l ∈ lines cs) : IsUnbroken l := by
  fun_induction lines cs generalizing l with
  | case1 => simp at h
  | case2 cs ih =>
    rcases List.mem_cons.1 h with rfl | h
    · simp [IsUnbroken]
    · exact ih h
  | case3 c cs _ hc ih =>
    rcases List.mem_cons.1 h with rfl | h
    · simp [IsUnbroken]
    · exact ih h
  | case4 c cs _ hc ih =>
    have hc : isLineBreak c = false := by simpa using hc
    cases hl : lines cs with
    | nil =>
      obtain rfl : l = [c] := by simpa [hl, consFirst] using h
      exact isUnbroken_cons_iff.2 ⟨hc, by simp [IsUnbroken]⟩
    | cons m ms =>
      rw [hl, consFirst] at h
      rcases List.mem_cons.1 h with rfl | h
      · exact isUnbroken_cons_iff.2 ⟨hc, ih (hl ▸ List.mem_cons_self)⟩
      · exact ih (hl ▸ List.mem_cons_of_mem _ h)

/-! ## Blank ends -/

/-- A text without the characters in `p` at either end. -/
def strip (p : Char → Bool) (cs : List Char) : List Char := dropEndWhile p (cs.dropWhile p)

/-- Whether a text neither begins nor ends with a character in `p`. -/
def IsBare (p : Char → Bool) (cs : List Char) : Prop :=
  (∀ c ∈ cs.head?, p c = false) ∧ ∀ c ∈ cs.getLast?, p c = false

theorem dropWhile_append_of_bare {p : Char → Bool} {a cs : List Char} (ha : ∀ c ∈ a, p c = true)
    (h : ∀ c ∈ cs.head?, p c = false) : (a ++ cs).dropWhile p = cs := by
  rw [List.dropWhile_append_of_pos ha]
  cases cs with
  | nil => rfl
  | cons c cs => simp [h c rfl]

theorem dropEndWhile_append_of_bare {p : Char → Bool} {b cs : List Char} (hb : ∀ c ∈ b, p c = true)
    (h : ∀ c ∈ cs.getLast?, p c = false) : dropEndWhile p (cs ++ b) = cs := by
  rw [dropEndWhile, List.reverse_append,
    dropWhile_append_of_bare (by simpa using hb) (by simpa using h), List.reverse_reverse]

theorem strip_append {p : Char → Bool} {a cs b : List Char} (ha : ∀ c ∈ a, p c = true)
    (hb : ∀ c ∈ b, p c = true) (h : IsBare p cs) : strip p (a ++ cs ++ b) = cs := by
  cases cs with
  | nil =>
    have hab : ∀ c ∈ a ++ b, p c = true := by simpa [or_imp, forall_and] using ⟨ha, hb⟩
    have hdrop : (a ++ b).dropWhile p = [] := List.dropWhile_eq_nil_iff.2 hab
    rw [List.append_nil, strip, hdrop]
    rfl
  | cons c cs =>
    rw [strip, List.append_assoc, dropWhile_append_of_bare ha (by simpa using h.1)]
    exact dropEndWhile_append_of_bare hb h.2

theorem bare_head_dropWhile (p : Char → Bool) (cs : List Char) :
    ∀ c ∈ (cs.dropWhile p).head?, p c = false := by
  intro c hc
  have h := List.head?_dropWhile_not p cs
  rwa [Option.mem_def.1 hc] at h

/-- What stands before and behind the rest of a text that is stripped. -/
theorem exists_append_strip_append (p : Char → Bool) (cs : List Char) :
    ∃ a b, cs = a ++ strip p cs ++ b ∧ (∀ c ∈ a, p c = true) ∧ ∀ c ∈ b, p c = true := by
  refine ⟨cs.takeWhile p, ((cs.dropWhile p).reverse.takeWhile p).reverse, ?_,
    fun c hc => List.mem_takeWhile_imp hc, fun c hc => ?_⟩
  · rw [strip, dropEndWhile, List.append_assoc, ← List.reverse_append,
      List.takeWhile_append_dropWhile, List.reverse_reverse, List.takeWhile_append_dropWhile]
  · exact List.mem_takeWhile_imp (List.mem_reverse.1 hc)

theorem isBare_strip (p : Char → Bool) (cs : List Char) : IsBare p (strip p cs) := by
  have hend : ∀ c ∈ (strip p cs).getLast?, p c = false := by
    simpa [strip, dropEndWhile] using bare_head_dropWhile p (cs.dropWhile p).reverse
  refine ⟨fun c hc => ?_, hend⟩
  obtain ⟨b, hb⟩ : ∃ b, cs.dropWhile p = strip p cs ++ b := by
    refine ⟨((cs.dropWhile p).reverse.takeWhile p).reverse, ?_⟩
    rw [strip, dropEndWhile, ← List.reverse_append, List.takeWhile_append_dropWhile,
      List.reverse_reverse]
  refine bare_head_dropWhile p cs c ?_
  cases hs : strip p cs with
  | nil => simp [hs] at hc
  | cons d ds =>
    rw [hs] at hb hc
    simpa [hb] using hc

end CellShader.Text
