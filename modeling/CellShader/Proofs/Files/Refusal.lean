import CellShader.Proofs.Files.Pieces

/-!
# Paths that are refused

A path is refused for the character NUL and for nothing else.  To open a path in which it stands is
refused at once (`locate_eq_refused_iff`), whereas the search for a real place is given up when a
name that holds it is reached.  Where no link leads through such a name, only paths that hold NUL
themselves have no real place (`exists_isInside`).
-/

namespace CellShader

namespace FileTree

/-- Whether no target of a link holds NUL. -/
def LinksWithoutNul (t : FileTree) : Prop :=
  ∀ place target, t.find? place = some (.link target) → Path.holdsNul target = false

variable {t : FileTree}

theorem exists_realPlaceWith
    {goOn : KnownLinks → Trail → String → Except NulInPath (RealPlace × KnownLinks)}
    (hgoOn : ∀ known link target, t.linkAt? link = some target →
      ∃ found, goOn known link target = .ok found)
    {pieces : List String} (hpieces : ∀ piece ∈ pieces, Path.holdsNul piece = false)
    (known : KnownLinks) (trail : Trail) :
    ∃ found, t.realPlaceWith goOn known trail pieces = .ok found := by
  induction pieces generalizing known trail with
  | nil => exact ⟨_, rfl⟩
  | cons piece rest ih =>
    obtain ⟨hnul, hrest⟩ := List.forall_mem_cons.1 hpieces
    have ih := ih hrest
    rcases Path.stay_or_up_or_isName piece with hstay | rfl | hname
    · rw [realPlaceWith_stay hstay]
      exact ih _ _
    · rw [realPlaceWith_up]
      exact ih _ _
    cases hat : t.linkAt? (trail.down piece) with
    | none =>
      rw [realPlaceWith_of_no_link hname hnul hat]
      exact ih _ _
    | some target =>
      cases hlookup : known.lookup (trail.down piece) with
      | some goal =>
        rw [realPlaceWith_of_known hname hnul hat hlookup]
        exact ih _ _
      | none =>
        obtain ⟨⟨goal | ⟨doubled, place⟩, known'⟩, hfound⟩ := hgoOn known _ target hat
        · rw [realPlaceWith_of_found hname hnul hat hlookup hfound]
          exact ih _ _
        · rw [realPlaceWith_of_loop hname hnul hat hlookup hfound]
          exact ⟨_, rfl⟩

theorem holdsNul_of_mem_pieces {path piece : String} (h : Path.holdsNul path = false)
    (hpiece : piece ∈ Path.pieces path) : Path.holdsNul piece = false := by
  rw [← Bool.not_eq_true] at h ⊢
  exact fun hnul => h (Path.holdsNul_iff_exists_piece.2 ⟨piece, hpiece, hnul⟩)

theorem exists_realPlaceUnder (ht : t.LinksWithoutNul) {pieces : List String}
    (hpieces : ∀ piece ∈ pieces, Path.holdsNul piece = false) (depth : Nat) (pending : List Trail)
    (known : KnownLinks) (trail : Trail) :
    ∃ found, t.realPlaceUnder depth pending known trail pieces = .ok found := by
  induction depth generalizing pieces pending known trail with
  | zero =>
    rw [realPlaceUnder]
    exact exists_realPlaceWith (fun _ _ _ _ => ⟨_, rfl⟩) hpieces known trail
  | succ depth ih =>
    rw [realPlaceUnder]
    refine exists_realPlaceWith (fun known link target hat => ?_) hpieces known trail
    split
    · exact ⟨_, rfl⟩
    · have htarget := ht _ target (linkAt?_eq_some_iff.1 hat).1
      exact ih (fun piece hpiece => holdsNul_of_mem_pieces htarget hpiece) _ _ _

variable {root path : String}

theorem exists_realPlace (ht : t.LinksWithoutNul) (hpath : Path.holdsNul path = false) :
    ∃ real, t.realPlace path = .ok real := by
  obtain ⟨found, hfound⟩ := exists_realPlaceUnder ht
    (fun piece hpiece => holdsNul_of_mem_pieces hpath hpiece) t.linkDepth [] [] (Trail.start path)
  refine ⟨found.1, ?_⟩
  rw [realPlace, hfound]
  rfl

/-- It can be told whether a path lies inside a root if NUL stands in neither, nor in the target of
a link. -/
theorem exists_isInside (ht : t.LinksWithoutNul) (hroot : Path.holdsNul root = false)
    (hpath : Path.holdsNul path = false) : ∃ inside, t.isInside root path = .ok inside := by
  obtain ⟨r, hr⟩ := exists_realPlace ht hroot
  obtain ⟨p, hp⟩ := exists_realPlace ht hpath
  exact ⟨_, isInside_eq_ok_iff.2 ⟨r, p, hr, hp, rfl⟩⟩

end FileTree

end CellShader
