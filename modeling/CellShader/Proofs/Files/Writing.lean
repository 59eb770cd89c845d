import CellShader.Proofs.Files.Leading

/-!
# Writing files

A file that is written is at the place to which its path leads, and nothing else changes
(`exists_isWith_of_write`).  What was a directory or a link before still is one, so that every path
that could be followed leads where it did (`Preserves.locate`); in particular the path that was
written to now leads to the bytes (`read_of_write`).  Names are inside a root as before
(`isInside_of_write`), and files at other places have the bytes that they had
(`read_of_write_of_ne`).
-/

namespace CellShader

namespace FileTree

/-- Whether a tree is `t` with the given bytes in a file at a place, and otherwise the same. -/
structure IsWith (t' t : FileTree) (place : Place) (bytes : List UInt8) : Prop where
  here_eq : t'.here = t.here
  find?_eq : ∀ q, t'.find? q = if q = place then some (.file bytes) else t.find? q

/-- Whether a file can be put at a place: there is one already, or nothing at all. -/
def IsFree (t : FileTree) (place : Place) : Prop :=
  t.find? place = none ∨ ∃ bytes, t.find? place = some (.file bytes)

variable {t t' : FileTree} {place goal : Place} {piece path : String} {rest : List String}
  {making : Bool}

theorem IsFree.ne_nil (h : t.IsFree place) : place ≠ [] := by
  rintro rfl
  rcases h with h | ⟨bytes, h⟩
  · simp [find?] at h
  · simp [find?] at h

theorem write_eq_ok_iff {bytes : List UInt8} :
    t.write path bytes = .ok t' ↔
      ∃ place, t.locate true path = .ok place ∧ t.IsFree place ∧
        t' = t.insert place (.file bytes) := by
  unfold write IsFree
  cases t.locate true path with
  | error fault => simp
  | ok place =>
    cases hentry : t.find? place with
    | none => simp [hentry, eq_comm]
    | some entry => cases entry <;> simp [hentry, eq_comm]

/-- Whether a path leads to where a file can be put. -/
def IsWritable (t : FileTree) (path : String) : Prop :=
  ∃ place, t.locate true path = .ok place ∧ t.IsFree place

theorem IsWritable.holdsNul_eq_false (h : t.IsWritable path) : Path.holdsNul path = false := by
  obtain ⟨place, hlocate, -⟩ := h
  exact (locate_eq_ok_iff.1 hlocate).1

theorem exists_write_iff (bytes : List UInt8) :
    (∃ t', t.write path bytes = .ok t') ↔ t.IsWritable path := by
  constructor
  · rintro ⟨t', hwrite⟩
    obtain ⟨place, hlocate, hfree, -⟩ := write_eq_ok_iff.1 hwrite
    exact ⟨place, hlocate, hfree⟩
  · rintro ⟨place, hlocate, hfree⟩
    exact ⟨_, write_eq_ok_iff.2 ⟨place, hlocate, hfree, rfl⟩⟩

theorem isWith_insert (h : t.IsFree place) (bytes : List UInt8) :
    (t.insert place (.file bytes)).IsWith t place bytes :=
  ⟨rfl, find?_insert t h.ne_nil _⟩

/-- Writing changes what is at the place of the path, and nothing else. -/
theorem exists_isWith_of_write {bytes : List UInt8} (h : t.write path bytes = .ok t') :
    ∃ place, t.locate true path = .ok place ∧ t.IsFree place ∧ t'.IsWith t place bytes := by
  obtain ⟨place, hlocate, hfree, rfl⟩ := write_eq_ok_iff.1 h
  exact ⟨place, hlocate, hfree, isWith_insert hfree bytes⟩

/-! ## Paths that still lead where they did -/

/-- Whether the directories of `t` are directories of `t'` too, and both have the same links. -/
structure Preserves (t t' : FileTree) : Prop where
  here_eq : t'.here = t.here
  directory : ∀ q, t.find? q = some .directory → t'.find? q = some .directory
  link_iff : ∀ q target, t'.find? q = some (.link target) ↔ t.find? q = some (.link target)

theorem Preserves.refl (t : FileTree) : t.Preserves t :=
  ⟨rfl, fun _ h => h, fun _ _ => Iff.rfl⟩

theorem IsWith.preserves {bytes : List UInt8} (h : t'.IsWith t place bytes)
    (hfree : t.IsFree place) : t.Preserves t' := by
  have hother : ∀ q, (t.find? q = some .directory ∨ ∃ target, t.find? q = some (.link target)) →
      q ≠ place := by
    rintro q hq rfl
    rcases hfree with hnone | ⟨bytes, hfile⟩
    · simp [hnone] at hq
    · simp [hfile] at hq
  refine ⟨h.here_eq, fun q hq => ?_, fun q target => ⟨fun hq => ?_, fun hq => ?_⟩⟩
  · rw [h.find?_eq, if_neg (hother q (.inl hq)), hq]
  · rw [h.find?_eq] at hq
    split at hq
    · cases hq
    · exact hq
  · rw [h.find?_eq, if_neg (hother q (.inr ⟨target, hq⟩)), hq]

/-- What could be followed leads where it did, also if a file was to be made and no longer is. -/
theorem Preserves.followWith (hkeep : t.Preserves t') {making' : Bool}
    (hmaking : making' = true → making = true)
    {goOn goOn' : Place → List String → Except FileFault Place}
    (hgoOn : ∀ place pieces goal, goOn place pieces = .ok goal → goOn' place pieces = .ok goal)
    {pieces : List String} (h : t.followWith making goOn place pieces = .ok goal) :
    t'.followWith making' goOn' place pieces = .ok goal := by
  induction pieces generalizing place with
  | nil => exact h
  | cons piece rest ih =>
    rw [FileTree.followWith] at h ⊢
    split at h
    · cases h
    · cases h
    · cases h
    rename_i hplace
    rw [hkeep.directory place hplace]
    dsimp only
    split at h
    · rename_i hstay
      rw [if_pos hstay]
      exact ih h
    rename_i hstay
    rw [if_neg hstay]
    split at h
    · rename_i hup
      rw [if_pos hup]
      exact ih h
    rename_i hup
    rw [if_neg hup]
    split at h
    · cases h
    rename_i hnul
    rw [if_neg hnul]
    split at h
    · cases h
    rename_i hslashes
    have hslashes' : ¬ (making' && areSlashes rest) = true := by
      intro hends
      obtain ⟨hmade, hrest⟩ := Bool.and_eq_true_iff.1 hends
      exact hslashes (Bool.and_eq_true_iff.2 ⟨hmaking hmade, hrest⟩)
    rw [if_neg hslashes']
    split at h
    · cases h
    rename_i hbytes
    rw [if_neg hbytes]
    split at h
    · rename_i target hlink
      rw [(hkeep.link_iff _ _).2 hlink]
      exact hgoOn _ _ _ h
    · rename_i hnone
      split
      · rename_i target hlink
        exact absurd ((hkeep.link_iff _ _).1 hlink) (hnone target)
      · exact ih h

theorem Preserves.follow (hkeep : t.Preserves t') {making' : Bool}
    (hmaking : making' = true → making = true) {n : Nat} {pieces : List String}
    (h : t.follow making n place pieces = .ok goal) :
    t'.follow making' n place pieces = .ok goal := by
  induction n generalizing place pieces goal with
  | zero =>
    rw [FileTree.follow] at h ⊢
    exact hkeep.followWith hmaking (fun _ _ _ hfailed => by cases hfailed) h
  | succ n ih =>
    rw [FileTree.follow] at h ⊢
    exact hkeep.followWith hmaking (fun _ _ _ => ih) h

/-- A path that could be followed leads where it did. -/
theorem Preserves.locate (hkeep : t.Preserves t') {making' : Bool}
    (hmaking : making' = true → making = true) (h : t.locate making path = .ok place) :
    t'.locate making' path = .ok place := by
  obtain ⟨hnul, hempty, hbytes, hfollow⟩ := locate_eq_ok_iff.1 h
  refine locate_eq_ok_iff.2 ⟨hnul, hempty, hbytes, ?_⟩
  rw [hkeep.here_eq]
  exact hkeep.follow hmaking hfollow

theorem locate_of_making (h : t.locate making path = .ok place) :
    t.locate false path = .ok place :=
  (Preserves.refl t).locate (fun hmade => by cases hmade) h

/-- What was written is read again. -/
theorem read_of_write {bytes : List UInt8} (h : t.write path bytes = .ok t') :
    t'.read path = .ok bytes := by
  obtain ⟨place, hlocate, hfree, hwith⟩ := exists_isWith_of_write h
  rw [read, (hwith.preserves hfree).locate (fun hmade => by cases hmade) hlocate]
  dsimp only
  rw [hwith.find?_eq, if_pos rfl]

/-! ## What stays as it was -/

theorem Preserves.linkAt?_eq (hkeep : t.Preserves t') (trail : Trail) :
    t'.linkAt? trail = t.linkAt? trail := by
  apply Option.ext
  intro target
  rw [linkAt?_eq_some_iff, linkAt?_eq_some_iff, hkeep.here_eq, hkeep.link_iff]

theorem realPlaceWith_congr
    {goOn goOn' : KnownLinks → Trail → String → Except NulInPath (RealPlace × KnownLinks)}
    (hlink : ∀ trail, t'.linkAt? trail = t.linkAt? trail)
    (hgoOn : ∀ known link target, goOn' known link target = goOn known link target)
    (known : KnownLinks) (trail : Trail) (pieces : List String) :
    t'.realPlaceWith goOn' known trail pieces = t.realPlaceWith goOn known trail pieces := by
  induction pieces generalizing known trail with
  | nil => rfl
  | cons piece rest ih => simp only [realPlaceWith, hlink, hgoOn, ih]

theorem Preserves.realPlaceUnder_eq (hkeep : t.Preserves t') (depth : Nat) (pending : List Trail)
    (known : KnownLinks) (trail : Trail) (pieces : List String) :
    t'.realPlaceUnder depth pending known trail pieces =
      t.realPlaceUnder depth pending known trail pieces := by
  induction depth generalizing pending known trail pieces with
  | zero =>
    rw [realPlaceUnder, realPlaceUnder, hkeep.here_eq]
    exact realPlaceWith_congr hkeep.linkAt?_eq (fun _ _ _ => rfl) known trail pieces
  | succ depth ih =>
    rw [realPlaceUnder, realPlaceUnder, hkeep.here_eq]
    refine realPlaceWith_congr hkeep.linkAt?_eq (fun known link target => ?_) known trail pieces
    rw [ih]

theorem linkCount_insert (h : t.IsFree place) (bytes : List UInt8) :
    (t.insert place (.file bytes)).linkCount = t.linkCount := by
  have hfind := (isWith_insert h bytes).find?_eq
  have hplace : (t.find? place).any Entry.isLink = false := by
    rcases h with hnone | ⟨old, hfile⟩
    · rw [hnone]
      rfl
    · rw [hfile]
      rfl
  unfold linkCount
  show List.countP _ ((place, Entry.file bytes) :: t.entries.filter fun x => x.1 != place) = _
  rw [List.countP_cons_of_neg (by simp [hfind, Entry.isLink]), List.countP_filter]
  refine List.countP_congr fun x _ => ?_
  rw [hfind]
  by_cases hx : x.1 = place
  · rw [hx, hplace]
    simp
  · rw [if_neg hx]
    simp [hx]

/-- A file that is written is no link, and changes no real place. -/
theorem realPlace_of_write {bytes : List UInt8} (h : t.write path bytes = .ok t')
    (other : String) : t'.realPlace other = t.realPlace other := by
  obtain ⟨place, -, hfree, rfl⟩ := write_eq_ok_iff.1 h
  have hdepth : (t.insert place (.file bytes)).linkDepth = t.linkDepth := by
    rw [linkDepth, linkCount_insert hfree, linkDepth]
    rfl
  rw [realPlace, hdepth, ((isWith_insert hfree bytes).preserves hfree).realPlaceUnder_eq, realPlace]

theorem isInside_of_write {bytes : List UInt8} (h : t.write path bytes = .ok t')
    (root other : String) : t'.isInside root other = t.isInside root other := by
  obtain ⟨place, -, hfree, hwith⟩ := exists_isWith_of_write h
  rw [isInside, realPlace_of_write h, realPlace_of_write h, hwith.here_eq, isInside]

/-- A file that is not the one written is read as before. -/
theorem read_of_write_of_ne {bytes found : List UInt8} {other : String}
    (h : t.write path bytes = .ok t') (hother : t.read other = .ok found)
    (hne : t.locate false other ≠ t.locate true path) : t'.read other = .ok found := by
  obtain ⟨place, hlocate, hfree, hwith⟩ := exists_isWith_of_write h
  obtain ⟨goal, hgoal, hfind⟩ := read_eq_ok_iff.1 hother
  have hapart : goal ≠ place := by
    rintro rfl
    exact hne (hgoal.trans hlocate.symm)
  refine read_eq_ok_iff.2 ⟨goal, (hwith.preserves hfree).locate (fun hmade => hmade) hgoal, ?_⟩
  rw [hwith.find?_eq, if_neg hapart, hfind]

/-- What was written can be written again. -/
theorem exists_write_of_write {bytes : List UInt8} (h : t.write path bytes = .ok t')
    (bytes' : List UInt8) : ∃ t'', t'.write path bytes' = .ok t'' := by
  obtain ⟨place, hlocate, hfree, hwith⟩ := exists_isWith_of_write h
  have hfile : t'.find? place = some (.file bytes) := by rw [hwith.find?_eq, if_pos rfl]
  exact ⟨_, write_eq_ok_iff.2 ⟨place, (hwith.preserves hfree).locate (fun hmade => hmade) hlocate,
    .inr ⟨bytes, hfile⟩, rfl⟩⟩

end FileTree

end CellShader
