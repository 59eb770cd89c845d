import CellShader.Proofs.Files.Leading
import CellShader.Proofs.Text.Rows

/-!
# The pieces of paths

Putting paths together puts their pieces one after the other, and what a path has behind its last
name belongs to its last piece.  A path leads nowhere else if empty pieces and single dots are left
out of it, provided that none of them ends it (`FileTree.locate_eq_of_steps_eq`).  Normalising
leaves out just these in a path that has no double dots (`Path.steps_eq_of_normalise_eq`).
-/

namespace CellShader

namespace Path

/-! ## Putting paths together -/

theorem toList_append_slash (up path : String) :
    (up ++ "/" ++ path).toList = up.toList ++ '/' :: path.toList := by
  simp only [String.toList_append, List.append_assoc]
  rfl

theorem pieces_append_slash (a b : String) : pieces (a ++ "/" ++ b) = pieces a ++ pieces b := by
  rw [pieces, toList_append_slash, Text.cut_append, List.map_append]
  rfl

theorem pieces_slash_append (path : String) : pieces ("/" ++ path) = "" :: pieces path :=
  pieces_append_slash "" path

theorem pieces_of_slash_not_mem {name : String} (h : '/' ∉ name.toList) : pieces name = [name] := by
  rw [pieces, Text.cut_of_not_mem h, List.map_singleton, String.ofList_toList]

theorem slash_not_mem_of_mem_pieces {path piece : String} (h : piece ∈ pieces path) :
    '/' ∉ piece.toList := by
  obtain ⟨cs, hcs, rfl⟩ := List.mem_map.1 h
  rw [String.toList_ofList]
  exact Text.not_mem_of_mem_cut hcs

theorem holdsNul_iff_exists_piece {path : String} :
    holdsNul path = true ↔ ∃ piece ∈ pieces path, holdsNul piece = true := by
  simp only [holdsNul, List.contains_iff_mem]
  constructor
  · intro hnul
    obtain ⟨cs, hcs, hmem⟩ := Text.exists_mem_cut hnul (by decide : '\x00' ≠ '/')
    exact ⟨String.ofList cs, List.mem_map_of_mem hcs, by rwa [String.toList_ofList]⟩
  · rintro ⟨piece, hpiece, hmem⟩
    obtain ⟨cs, hcs, rfl⟩ := List.mem_map.1 hpiece
    rw [String.toList_ofList] at hmem
    exact Text.mem_of_mem_cut hcs hmem

theorem pieces_intercalate {names : List String} (hne : names ≠ [])
    (h : ∀ name ∈ names, '/' ∉ name.toList) : pieces ("/".intercalate names) = names := by
  induction names with
  | nil => exact absurd rfl hne
  | cons name names ih =>
    obtain ⟨hname, hnames⟩ := List.forall_mem_cons.1 h
    by_cases hlast : names = []
    · rw [hlast, String.intercalate_singleton, pieces_of_slash_not_mem hname]
    · rw [String.intercalate_cons_of_ne_nil hlast, pieces_append_slash,
        pieces_of_slash_not_mem hname, ih hlast hnames]
      rfl

theorem exists_pieces_append (path : String) {suffix : String} (h : '/' ∉ suffix.toList) :
    ∃ above last, pieces path = above ++ [last] ∧
      pieces (path ++ suffix) = above ++ [last ++ suffix] := by
  obtain ⟨rs, r, hcut, happend⟩ := Text.exists_cut_append path.toList h
  refine ⟨rs.map String.ofList, String.ofList r, ?_, ?_⟩
  · rw [pieces, hcut, List.map_append]
    rfl
  · rw [pieces, String.toList_append, happend, List.map_append, List.map_singleton,
      String.ofList_append, String.ofList_toList]

theorem lastPiece_eq {path last : String} {above : List String}
    (h : pieces path = above ++ [last]) : lastPiece path = last.toList := by
  have hcut : Text.cut '/' path.toList = (pieces path).map String.toList := by
    simp [pieces]
  simp [lastPiece, hcut, h]

theorem isAbsolute_append (x : String) {suffix : String} (h : '/' ∉ suffix.toList) :
    isAbsolute (x ++ suffix) = isAbsolute x := by
  unfold isAbsolute
  rw [String.toList_append]
  cases x.toList with
  | nil =>
    cases hs : suffix.toList with
    | nil => rfl
    | cons c cs =>
      have hc : c ≠ '/' := by
        rintro rfl
        simp [hs] at h
      simp [hc]
  | cons c cs => rfl

theorem join_append (base x : String) {suffix : String} (h : '/' ∉ suffix.toList) :
    join base (x ++ suffix) = join base x ++ suffix := by
  unfold join
  rw [isAbsolute_append x h]
  split
  · rfl
  · split <;> simp only [String.append_assoc]

theorem join_eq_or (base : String) :
    (∀ path, isAbsolute path = false → join base path = path) ∨
      ∃ up, ∀ path, isAbsolute path = false → join base path = up ++ "/" ++ path := by
  by_cases hempty : base.toList = []
  · refine .inl fun path hpath => ?_
    obtain rfl := String.toList_eq_nil_iff.1 hempty
    simp [join, hpath]
  · right
    by_cases hslash : base.toList.getLast? = some '/'
    · obtain ⟨cs, hcs⟩ := List.getLast?_eq_some_iff.1 hslash
      refine ⟨String.ofList cs, fun path hpath => ?_⟩
      have hbase : base = String.ofList cs ++ "/" := by
        rw [← String.toList_inj, String.toList_append, String.toList_ofList, hcs]
        rfl
      simp [join, hpath, hbase]
    · exact ⟨base, fun path hpath => by simp [join, hpath, hempty, hslash]⟩

/-- From one base, paths of which both or none begin with a slash have the same pieces in front of
their own. -/
theorem exists_pieces_join (base : String) {a b : String} (h : isAbsolute a = isAbsolute b) :
    ∃ above, pieces (join base a) = above ++ pieces a ∧ pieces (join base b) = above ++ pieces b ∧
      isAbsolute (join base a) = isAbsolute (join base b) := by
  cases ha : isAbsolute a with
  | true =>
    have hb := h.symm.trans ha
    refine ⟨[], ?_, ?_, ?_⟩ <;> simp [join, ha, hb]
  | false =>
    have hb := h.symm.trans ha
    rcases join_eq_or base with hjoin | ⟨up, hjoin⟩
    · rw [hjoin a ha, hjoin b hb]
      exact ⟨[], rfl, rfl, h⟩
    · rw [hjoin a ha, hjoin b hb]
      refine ⟨pieces up, pieces_append_slash up a, pieces_append_slash up b, ?_⟩
      rw [isAbsolute, isAbsolute, toList_append_slash, toList_append_slash]
      cases up.toList <;> rfl

/-! ## Needless pieces -/

/-- The pieces that lead somewhere else: all but the empty ones and the single dots. -/
def steps (pieces : List String) : List String :=
  pieces.filter fun piece => ¬ (piece = "" ∨ piece = ".")

variable {piece : String} {rest : List String}

theorem steps_cons_of_stay (h : piece = "" ∨ piece = ".") (rest : List String) :
    steps (piece :: rest) = steps rest :=
  List.filter_cons_of_neg (by rcases h with rfl | rfl <;> decide)

theorem steps_cons_of_not_stay (h : ¬ (piece = "" ∨ piece = ".")) (rest : List String) :
    steps (piece :: rest) = piece :: steps rest :=
  List.filter_cons_of_pos (by simpa using h)

theorem steps_append (a b : List String) : steps (a ++ b) = steps a ++ steps b :=
  List.filter_append a b

theorem holdsNul_iff_exists_step {path : String} :
    holdsNul path = true ↔ ∃ piece ∈ steps (pieces path), holdsNul piece = true := by
  rw [holdsNul_iff_exists_piece]
  constructor
  · rintro ⟨piece, hpiece, hnul⟩
    have hstay : ¬ (piece = "" ∨ piece = ".") := fun hstay => by
      rw [holdsNul_of_stay hstay] at hnul
      cases hnul
    exact ⟨piece, List.mem_filter.2 ⟨hpiece, by simpa using hstay⟩, hnul⟩
  · rintro ⟨piece, hpiece, hnul⟩
    exact ⟨piece, List.mem_of_mem_filter hpiece, hnul⟩

theorem IsName.not_stay (h : IsName piece) : ¬ (piece = "" ∨ piece = ".") :=
  not_or.2 ⟨h.1, h.2.1⟩

theorem steps_concat (above : List String) (h : IsName piece) :
    steps (above ++ [piece]) = steps above ++ [piece] := by
  rw [steps_append, steps_cons_of_not_stay h.not_stay]
  rfl

/-- Whether the last one of some pieces is a name, if there is any. -/
def EndsInName (pieces : List String) : Prop := ∀ last ∈ pieces.getLast?, IsName last

instance (pieces : List String) : Decidable (EndsInName pieces) :=
  inferInstanceAs (Decidable (∀ last ∈ pieces.getLast?, IsName last))

theorem endsInName_concat (above : List String) (h : IsName piece) :
    EndsInName (above ++ [piece]) := by
  intro last hlast
  rw [List.getLast?_concat, Option.mem_some_iff] at hlast
  exact hlast ▸ h

theorem EndsInName.of_cons (h : EndsInName (piece :: rest)) : EndsInName rest := by
  intro last hlast
  have hmem : last ∈ (piece :: rest).getLast? := List.mem_getLast?_cons hlast
  exact h last hmem

theorem EndsInName.ne_nil_of_stay (h : EndsInName (piece :: rest))
    (hstay : piece = "" ∨ piece = ".") : rest ≠ [] := by
  rintro rfl
  exact (h piece rfl).not_stay hstay

theorem EndsInName.ne_empty {path : String} (h : EndsInName (pieces path)) : path ≠ "" := by
  rintro rfl
  exact (h "" rfl).1 rfl

theorem areSlashes_of_mem (h : IsName piece) (hmem : piece ∈ rest) :
    FileTree.areSlashes rest = false := by
  have hall : rest.all (· == "") = false :=
    List.all_eq_false.2 ⟨piece, hmem, by simpa using h.1⟩
  rw [FileTree.areSlashes, hall, Bool.and_false]

theorem EndsInName.areSlashes_append_steps (h : EndsInName rest) (above : List String) :
    FileTree.areSlashes (above ++ rest) = FileTree.areSlashes (above ++ steps rest) := by
  rcases List.eq_nil_or_concat' rest with rfl | ⟨up, last, rfl⟩
  · rfl
  · have hlast : IsName last := h last (by simp)
    rw [steps_concat up hlast, areSlashes_of_mem hlast (by simp), areSlashes_of_mem hlast (by simp)]

/-! ## Normal forms -/

theorem descend_of_stay (absolute : Bool) (names : List String) (h : piece = "" ∨ piece = ".") :
    descend absolute names piece = names :=
  if_pos h

theorem descend_of_isName (absolute : Bool) (names : List String) (h : IsName piece) :
    descend absolute names piece = piece :: names := by
  simp [descend, h.1, h.2.1, h.2.2]

theorem foldl_descend_of_no_up (absolute : Bool) (found : List String) {pieces : List String}
    (h : ".." ∉ pieces) :
    pieces.foldl (descend absolute) found = (steps pieces).reverse ++ found := by
  induction pieces generalizing found with
  | nil => rfl
  | cons piece rest ih =>
    obtain ⟨hup, hrest⟩ := not_or.1 (List.mem_cons.not.1 h)
    rw [List.foldl_cons, ih _ hrest]
    rcases stay_or_up_or_isName piece with hstay | rfl | hname
    · rw [descend_of_stay absolute found hstay, steps_cons_of_stay hstay]
    · exact absurd rfl hup
    · rw [descend_of_isName absolute found hname, steps_cons_of_not_stay hname.not_stay]
      simp

/-- The names left of a path without double dots are all its pieces that lead somewhere. -/
theorem names_eq_steps {path : String} (h : ".." ∉ pieces path) :
    names path = steps (pieces path) := by
  rw [names, foldl_descend_of_no_up _ _ h, List.append_nil, List.reverse_reverse]

theorem mem_of_mem_descend {absolute : Bool} {found : List String} {name : String}
    (h : name ∈ descend absolute found piece) : name ∈ found ∨ name ∈ steps [piece] := by
  rcases stay_or_up_or_isName piece with hstay | rfl | hname
  · rw [descend_of_stay absolute found hstay] at h
    exact .inl h
  · -- a step up takes the last name away, or is kept itself
    have hup : steps [".."] = [".."] := by decide
    rw [hup, List.mem_singleton]
    cases found with
    | nil => cases absolute <;> simp_all [descend]
    | cons last found =>
      by_cases hlast : last = ".." <;> simp_all [descend]
  · rw [descend_of_isName absolute found hname] at h
    rw [steps_cons_of_not_stay hname.not_stay, List.mem_cons]
    rcases List.mem_cons.1 h with heq | hfound
    · exact .inr (.inl heq)
    · exact .inl hfound

theorem mem_of_mem_foldl_descend {absolute : Bool} {found pieces : List String} {name : String}
    (h : name ∈ pieces.foldl (descend absolute) found) : name ∈ found ∨ name ∈ steps pieces := by
  induction pieces generalizing found with
  | nil => exact .inl h
  | cons piece rest ih =>
    rw [← List.singleton_append, steps_append, List.mem_append]
    rcases ih h with hfound | hrest
    · exact (mem_of_mem_descend hfound).imp_right .inl
    · exact .inr (.inr hrest)

theorem mem_steps_of_mem_names {path name : String} (h : name ∈ names path) :
    name ∈ steps (pieces path) := by
  rw [names, List.mem_reverse] at h
  exact (mem_of_mem_foldl_descend h).resolve_left List.not_mem_nil

theorem isAbsolute_slash_append (path : String) : isAbsolute ("/" ++ path) = true := by
  rw [isAbsolute, String.toList_append]
  rfl

theorem exists_eq_of_isAbsolute {path : String} (h : isAbsolute path = true) :
    ∃ rest, path = "/" ++ rest := by
  rw [isAbsolute, beq_iff_eq, List.head?_eq_some_iff] at h
  obtain ⟨cs, hcs⟩ := h
  refine ⟨String.ofList cs, ?_⟩
  rw [← String.toList_inj, hcs, String.toList_append]
  simp

theorem rootMark_append_of_relative {path : String} (h : isAbsolute path = false) (rest : String) :
    rootMark path ++ rest = rest := by
  have hmark : rootMark path = "" := by
    unfold rootMark
    split
    iterate 3
      rename_i hlist
      simp [isAbsolute, hlist] at h
    rfl
  rw [hmark, String.empty_append]

theorem rootMark_append_of_absolute {path : String} (h : isAbsolute path = true) (rest : String) :
    rootMark path ++ rest = "/" ++ rest ∨ rootMark path ++ rest = "/" ++ ("/" ++ rest) := by
  obtain ⟨left, rfl⟩ := exists_eq_of_isAbsolute h
  rw [← String.append_assoc]
  unfold rootMark
  split
  · exact .inl rfl
  · exact .inr rfl
  · exact .inl rfl
  · rename_i hnone
    exact absurd (String.toList_append ..) (hnone left.toList)

theorem steps_pieces_slash_append (path : String) :
    steps (pieces ("/" ++ path)) = steps (pieces path) := by
  rw [pieces_slash_append, steps_cons_of_stay (.inl rfl)]

theorem steps_pieces_rootMark_append (path rest : String) :
    steps (pieces (rootMark path ++ rest)) = steps (pieces rest) := by
  cases hpath : isAbsolute path with
  | false => rw [rootMark_append_of_relative hpath]
  | true =>
    rcases rootMark_append_of_absolute hpath rest with hmark | hmark
    · rw [hmark, steps_pieces_slash_append]
    · rw [hmark, steps_pieces_slash_append, steps_pieces_slash_append]

variable (path : String)

theorem steps_names : steps (names path) = names path :=
  List.filter_eq_self.2 fun _ hname => (List.mem_filter.1 (mem_steps_of_mem_names hname)).2

theorem pieces_intercalate_names (h : names path ≠ []) :
    pieces ("/".intercalate (names path)) = names path :=
  pieces_intercalate h fun _ hname =>
    slash_not_mem_of_mem_pieces (List.mem_of_mem_filter (mem_steps_of_mem_names hname))

theorem steps_pieces_intercalate_names :
    steps (pieces ("/".intercalate (names path))) = names path := by
  by_cases hnames : names path = []
  · rw [hnames]
    decide
  · rw [pieces_intercalate_names path hnames, steps_names]

/-- The pieces of a normal form that lead somewhere are the names that are left of the path. -/
theorem steps_pieces_normalise : steps (pieces (normalise path)) = names path := by
  have hspelled : steps (pieces (rootMark path ++ "/".intercalate (names path))) = names path := by
    rw [steps_pieces_rootMark_append, steps_pieces_intercalate_names]
  unfold normalise
  dsimp only
  split
  · rename_i hempty
    rw [hempty] at hspelled
    exact hspelled
  · exact hspelled

theorem isAbsolute_intercalate_names : isAbsolute ("/".intercalate (names path)) = false := by
  by_cases hnames : names path = []
  · rw [hnames]
    rfl
  · rw [← Bool.not_eq_true]
    intro habsolute
    obtain ⟨rest, hrest⟩ := exists_eq_of_isAbsolute habsolute
    -- the first name would be empty
    have hpieces := pieces_intercalate_names path hnames
    rw [hrest, pieces_slash_append] at hpieces
    have hempty : "" ∈ steps (names path) := by
      rw [steps_names, ← hpieces]
      exact List.mem_cons_self
    exact absurd (List.mem_filter.1 hempty).2 (by decide)

theorem isAbsolute_normalise : isAbsolute (normalise path) = isAbsolute path := by
  unfold normalise
  dsimp only
  cases hpath : isAbsolute path with
  | false =>
    rw [rootMark_append_of_relative hpath]
    split
    · decide
    · exact isAbsolute_intercalate_names path
  | true =>
    obtain ⟨rest, hspelled⟩ : ∃ rest,
        rootMark path ++ "/".intercalate (names path) = "/" ++ rest := by
      rcases rootMark_append_of_absolute hpath ("/".intercalate (names path)) with hmark | hmark
      · exact ⟨_, hmark⟩
      · exact ⟨_, hmark⟩
    rw [hspelled]
    split
    · rename_i hempty
      simp at hempty
    · exact isAbsolute_slash_append rest

variable {path} {other : String}

/-- Paths without double dots that have the same normal form have the same pieces, needless ones
apart. -/
theorem steps_eq_of_normalise_eq (h : normalise path = normalise other) (hup : ".." ∉ pieces path)
    (hup' : ".." ∉ pieces other) : steps (pieces path) = steps (pieces other) := by
  rw [← names_eq_steps hup, ← names_eq_steps hup', ← steps_pieces_normalise,
    ← steps_pieces_normalise, h]

theorem isAbsolute_eq_of_normalise_eq (h : normalise path = normalise other) :
    isAbsolute path = isAbsolute other := by
  rw [← isAbsolute_normalise, h, isAbsolute_normalise]

end Path

namespace FileTree

variable {t : FileTree} {making : Bool} {goOn goOn' : Place → List String → Except FileFault Place}
  {place : Place} {piece : String} {above rest rest' : List String}

theorem followWith_of_not_directory (h : t.find? place ≠ some .directory) (hrest : rest ≠ [])
    (hrest' : rest' ≠ []) :
    t.followWith making goOn place rest = t.followWith making goOn' place rest' := by
  obtain ⟨piece, left, rfl⟩ := List.exists_cons_of_ne_nil hrest
  obtain ⟨piece', left', rfl⟩ := List.exists_cons_of_ne_nil hrest'
  rw [followWith, followWith]
  split
  · rfl
  · rfl
  · rfl
  · rename_i hplace
    exact absurd hplace h

/-- A needless piece is passed over if there is one behind it. -/
theorem followWith_needless (hstay : piece = "" ∨ piece = ".") (hrest : rest ≠ []) :
    t.followWith making goOn place (piece :: rest) = t.followWith making goOn place rest := by
  by_cases hplace : t.find? place = some .directory
  · rw [followWith, hplace]
    exact if_pos hstay
  · exact followWith_of_not_directory hplace (List.cons_ne_nil _ _) hrest

/-- Behind the same piece, what is left may be followed in another way that leads to the same. -/
theorem followWith_cons_congr (piece : String) (hslashes : areSlashes rest = areSlashes rest')
    (hgoOn : ∀ place target,
      goOn place (Path.pieces target ++ rest) = goOn' place (Path.pieces target ++ rest'))
    (hrest : ∀ place, t.followWith making goOn place rest = t.followWith making goOn' place rest')
    (place : Place) :
    t.followWith making goOn place (piece :: rest) =
      t.followWith making goOn' place (piece :: rest') := by
  simp only [followWith, hslashes, hgoOn, hrest]

theorem followWith_steps (hends : Path.EndsInName rest)
    (hgoOn : ∀ place above rest, Path.EndsInName rest →
      goOn place (above ++ rest) = goOn' place (above ++ Path.steps rest)) (place : Place) :
    t.followWith making goOn place rest = t.followWith making goOn' place (Path.steps rest) := by
  induction rest generalizing place with
  | nil => rfl
  | cons piece rest ih =>
    have hrest := hends.of_cons
    by_cases hstay : piece = "" ∨ piece = "."
    · rw [followWith_needless hstay (hends.ne_nil_of_stay hstay), Path.steps_cons_of_stay hstay,
        ih hrest]
    · rw [Path.steps_cons_of_not_stay hstay]
      exact followWith_cons_congr piece (hrest.areSlashes_append_steps [])
        (fun place target => hgoOn place _ rest hrest) (ih hrest) place

theorem followWith_append_steps (hends : Path.EndsInName rest)
    (hgoOn : ∀ place above rest, Path.EndsInName rest →
      goOn place (above ++ rest) = goOn' place (above ++ Path.steps rest))
    (above : List String) (place : Place) :
    t.followWith making goOn place (above ++ rest) =
      t.followWith making goOn' place (above ++ Path.steps rest) := by
  induction above generalizing place with
  | nil => exact followWith_steps hends hgoOn place
  | cons piece above ih =>
    refine followWith_cons_congr piece (hends.areSlashes_append_steps above)
      (fun place target => ?_) ih place
    rw [← List.append_assoc, ← List.append_assoc]
    exact hgoOn place _ rest hends

/-- It makes no difference to where a path leads if needless pieces are left out of it. -/
theorem follow_append_steps (links : Nat) (place : Place) (above : List String)
    (hends : Path.EndsInName rest) :
    t.follow making links place (above ++ rest) =
      t.follow making links place (above ++ Path.steps rest) := by
  induction links generalizing place above rest with
  | zero => exact followWith_append_steps hends (fun _ _ _ _ => rfl) above place
  | succ links ih =>
    exact followWith_append_steps hends (fun place above _ => ih place above) above place

/-- Paths with the same pieces, needless ones apart, lead to the same place. -/
theorem locate_eq_of_steps_eq {path path' : String}
    (habsolute : Path.isAbsolute path = Path.isAbsolute path')
    (h : Path.steps (Path.pieces path) = Path.steps (Path.pieces path'))
    (hends : Path.EndsInName (Path.pieces path)) (hends' : Path.EndsInName (Path.pieces path'))
    (hbytes : Text.byteCount path ≤ maxPathBytes) (hbytes' : Text.byteCount path' ≤ maxPathBytes) :
    t.locate making path = t.locate making path' := by
  have hfollow : ∀ links place, t.follow making links place (Path.pieces path) =
      t.follow making links place (Path.pieces path') := fun links place =>
    calc t.follow making links place (Path.pieces path)
      _ = t.follow making links place (Path.steps (Path.pieces path)) :=
        follow_append_steps links place [] hends
      _ = t.follow making links place (Path.steps (Path.pieces path')) := by rw [h]
      _ = t.follow making links place (Path.pieces path') :=
        (follow_append_steps links place [] hends').symm
  have hnul : Path.holdsNul path = Path.holdsNul path' := by
    rw [Bool.eq_iff_iff, Path.holdsNul_iff_exists_step, h, ← Path.holdsNul_iff_exists_step]
  rw [locate, locate, hnul, if_neg hends.ne_empty, if_neg hends'.ne_empty, if_neg hbytes.not_gt,
    if_neg hbytes'.not_gt, start, start, habsolute, hfollow]

end FileTree

end CellShader
