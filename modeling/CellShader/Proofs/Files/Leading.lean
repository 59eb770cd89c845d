import CellShader.Files.RealPlace
import Mathlib.Data.List.Infix

/-!
# Where paths lead

Following a path as it is opened, and finding its real place, both go through it piece by piece, but
the former goes on with the target of a link in place of the link, and the latter first finds where
the link leads by itself, remembering it.  `FileTree.Leads` is what they have in common: the trail
along which the pieces lead, and the links that are met on the way.  No piece that leads anywhere
holds NUL.  A path that can be opened leads somewhere through few links (`exists_leads_of_locate`),
and its real place is where it leads if these links are seen (`realPlace_of_leads`).
-/

namespace CellShader

/-- Whether a piece of a path is the name of an entry. -/
def Path.IsName (piece : String) : Prop := piece ≠ "" ∧ piece ≠ "." ∧ piece ≠ ".."

instance (piece : String) : Decidable (Path.IsName piece) :=
  inferInstanceAs (Decidable (_ ∧ _ ∧ _))

theorem Path.stay_or_up_or_isName (piece : String) :
    (piece = "" ∨ piece = ".") ∨ piece = ".." ∨ Path.IsName piece := by
  by_cases hstay : piece = "" ∨ piece = "."
  · exact .inl hstay
  · by_cases hup : piece = ".."
    · exact .inr (.inl hup)
    · exact .inr (.inr ⟨(not_or.1 hstay).1, (not_or.1 hstay).2, hup⟩)

theorem Path.holdsNul_of_stay {piece : String} (h : piece = "" ∨ piece = ".") :
    Path.holdsNul piece = false := by
  rcases h with rfl | rfl <;> decide

theorem Path.holdsNul_up : Path.holdsNul ".." = false := by decide

/-! ## Places along pieces -/

namespace Place

variable {place : Place}

theorem along_append (place : Place) (a b : List String) :
    place.along (a ++ b) = (place.along a).along b := by
  simp [along, List.foldl_append]

theorem along_name {name : String} (h : Path.IsName name) (place : Place) :
    place.along [name] = place ++ [name] := by
  obtain ⟨hempty, hdot, hup⟩ := h
  simp [along, Path.descend, hempty, hdot, hup]

theorem along_up (h : ".." ∉ place) : place.along [".."] = place.dropLast := by
  rcases List.eq_nil_or_concat place with rfl | ⟨up, name, rfl⟩
  · rfl
  · have hname : name ≠ ".." := by
      rintro rfl
      simp at h
    simp [along, Path.descend, hname]

theorem up_not_mem_along (h : ".." ∉ place) (pieces : List String) : ".." ∉ place.along pieces := by
  induction pieces generalizing place with
  | nil => simpa [along] using h
  | cons piece pieces ih =>
    rw [← List.singleton_append, along_append]
    refine ih ?_
    rcases Path.stay_or_up_or_isName piece with hstay | rfl | hpiece
    · simpa [along, Path.descend, hstay] using h
    · rw [along_up h]
      exact fun hmem => h (List.mem_of_mem_dropLast hmem)
    · rw [along_name hpiece, List.mem_append, List.mem_singleton]
      rintro (hmem | heq)
      · exact h hmem
      · exact hpiece.2.2 heq.symm

end Place

namespace Trail

/-- Whether a trail has no needless pieces. -/
def IsClean (t : Trail) : Prop := ∀ name ∈ t.names, name ≠ "" ∧ name ≠ "."

theorem isClean_start (path : String) : (start path).IsClean := by
  intro name hname
  cases hname

theorem IsClean.down {t : Trail} (h : t.IsClean) {name : String} (hempty : name ≠ "")
    (hdot : name ≠ ".") : (t.down name).IsClean :=
  List.forall_mem_append.2 ⟨h, List.forall_mem_singleton.2 ⟨hempty, hdot⟩⟩

theorem IsClean.up {t : Trail} (h : t.IsClean) : t.up.IsClean := by
  unfold Trail.up
  split
  · split
    · exact h
    · exact h.down (by decide) (by decide)
  · split
    · exact h.down (by decide) (by decide)
    · exact fun name hname => h name (List.mem_of_mem_dropLast hname)

@[simp] theorem startOfTarget_down (t : Trail) (name target : String) :
    (t.down name).startOfTarget target = if Path.isAbsolute target then ⟨true, []⟩ else t := by
  simp [startOfTarget, down]

theorem IsClean.startOfTarget_down {t : Trail} (h : t.IsClean) (name target : String) :
    ((t.down name).startOfTarget target).IsClean := by
  rw [Trail.startOfTarget_down]
  split
  · intro n hn
    cases hn
  · exact h

theorem place_start (path : String) (here : Place) :
    (start path).place here = FileTree.start here path := by
  rw [place, Place.along, start, FileTree.start, List.foldl_nil, List.reverse_reverse]

theorem place_startOfTarget_down (t : Trail) (name target : String) (here : Place) :
    ((t.down name).startOfTarget target).place here = FileTree.start (t.place here) target := by
  rw [startOfTarget_down, FileTree.start]
  split
  · rfl
  · rfl

theorem place_down {name : String} (h : Path.IsName name) (t : Trail) (here : Place) :
    (t.down name).place here = t.place here ++ [name] := by
  rw [place, down, Place.along_append, Place.along_name h]
  rfl

/-- Whether the path along a trail is short enough for what lies at its end to be seen. -/
def IsSeen (t : Trail) : Prop := Text.byteCount t.path ≤ maxPathBytes

instance (t : Trail) : Decidable t.IsSeen := inferInstanceAs (Decidable (_ ≤ _))

variable {t : Trail} {here : Place}

theorem up_not_mem_place (hhere : ".." ∉ here) : ".." ∉ t.place here := by
  refine Place.up_not_mem_along ?_ _
  split
  · simp
  · exact hhere

theorem place_down_up (hhere : ".." ∉ here) :
    (t.down "..").place here = (t.place here).dropLast := by
  rw [place, down, Place.along_append]
  show (t.place here).along [".."] = _
  exact Place.along_up (up_not_mem_place hhere)

theorem place_up (h : t.IsClean) (hhere : ".." ∉ here) :
    t.up.place here = (t.place here).dropLast := by
  unfold Trail.up
  split
  · rename_i hnames
    split
    · rename_i habs
      simp [place, List.getLast?_eq_none_iff.1 hnames, habs, Place.along]
    · exact place_down_up hhere
  · rename_i name hnames
    split
    · exact place_down_up hhere
    · rename_i hname
      obtain ⟨names, hsplit⟩ := List.getLast?_eq_some_iff.1 hnames
      obtain ⟨hempty, hdot⟩ := h name (by simp [hsplit])
      rw [place, place, hsplit, Place.along_append, Place.along_name ⟨hempty, hdot, hname⟩]
      simp

end Trail

/-! ## Where pieces lead -/

/-- Where one piece of a path leads: the trail to go on from, the pieces that are to be followed
next, and the link if there is one. -/
structure Advance where
  trail : Trail
  ahead : List String := []
  link? : Option Trail := none

namespace FileTree

/-- Where a piece leads from a trail.  At a link, the pieces of its target are to be followed. -/
def advance (t : FileTree) (trail : Trail) (piece : String) : Advance :=
  if piece = "" ∨ piece = "." then { trail := trail }
  else if piece = ".." then { trail := trail.up }
  else
    match t.find? ((trail.down piece).place t.here) with
    | some (.link target) =>
      ⟨(trail.down piece).startOfTarget target, Path.pieces target, some (trail.down piece)⟩
    | _ => { trail := trail.down piece }

/-- Where pieces lead from a trail on when they are followed one by one, and the links that are met
on the way. -/
inductive Leads (t : FileTree) : Trail → List String → List Trail → Trail → Prop
  | done {trail : Trail} : Leads t trail [] [] trail
  | step {trail goal : Trail} {piece : String} {rest : List String} {links : List Trail}
      (hnul : Path.holdsNul piece = false)
      (next : Leads t (t.advance trail piece).trail ((t.advance trail piece).ahead ++ rest) links
        goal) :
      Leads t trail (piece :: rest) ((t.advance trail piece).link?.toList ++ links) goal

variable {t : FileTree} {trail goal : Trail} {piece : String}

theorem advance_of_stay (h : piece = "" ∨ piece = ".") :
    t.advance trail piece = { trail := trail } := by
  rw [advance, if_pos h]

theorem advance_up : t.advance trail ".." = { trail := trail.up } := by
  rw [advance, if_neg (by decide), if_pos rfl]

theorem advance_of_link (h : Path.IsName piece) {target : String}
    (hentry : t.find? ((trail.down piece).place t.here) = some (.link target)) :
    t.advance trail piece =
      ⟨(trail.down piece).startOfTarget target, Path.pieces target, some (trail.down piece)⟩ := by
  rw [advance, if_neg (not_or.2 ⟨h.1, h.2.1⟩), if_neg h.2.2, hentry]

theorem advance_of_name (h : Path.IsName piece)
    (hentry : ∀ target, t.find? ((trail.down piece).place t.here) ≠ some (.link target)) :
    t.advance trail piece = { trail := trail.down piece } := by
  rw [advance, if_neg (not_or.2 ⟨h.1, h.2.1⟩), if_neg h.2.2]
  split
  · rename_i target hlink
    exact absurd hlink (hentry target)
  · rfl

theorem Leads.unique {pieces : List String} {goal' : Trail} {links links' : List Trail}
    (h : t.Leads trail pieces links goal) (h' : t.Leads trail pieces links' goal') :
    links = links' ∧ goal = goal' := by
  induction h generalizing links' goal' with
  | done =>
    cases h'
    exact ⟨rfl, rfl⟩
  | step _ _ ih =>
    cases h' with
    | step _ next =>
      obtain ⟨rfl, rfl⟩ := ih next
      exact ⟨rfl, rfl⟩

/-- The first pieces lead to where the others are followed from. -/
theorem Leads.split {a b : List String} {links : List Trail}
    (h : t.Leads trail (a ++ b) links goal) :
    ∃ first middle second, t.Leads trail a first middle ∧ t.Leads middle b second goal ∧
      links = first ++ second := by
  generalize hpieces : a ++ b = pieces at h
  induction h generalizing a with
  | done =>
    obtain ⟨rfl, rfl⟩ := List.append_eq_nil_iff.1 hpieces
    exact ⟨[], _, [], .done, .done, rfl⟩
  | step hnul next ih =>
    cases a with
    | nil =>
      subst hpieces
      exact ⟨[], _, _, .done, .step hnul next, rfl⟩
    | cons piece a =>
      obtain ⟨rfl, rfl⟩ := List.cons.inj hpieces
      obtain ⟨first, middle, second, ha, hb, rfl⟩ := ih (List.append_assoc _ _ _)
      exact ⟨_, middle, second, .step hnul ha, hb, (List.append_assoc _ _ _).symm⟩

theorem Leads.of_advance {rest : List String} {links : List Trail} {x : Advance}
    (h : t.advance trail piece = x) (hnul : Path.holdsNul piece = false)
    (next : t.Leads x.trail (x.ahead ++ rest) links goal) :
    t.Leads trail (piece :: rest) (x.link?.toList ++ links) goal := by
  subst h
  exact .step hnul next

theorem Leads.next {rest : List String} {links : List Trail} {x : Advance}
    (h : t.Leads trail (piece :: rest) links goal) (hx : t.advance trail piece = x) :
    ∃ links', t.Leads x.trail (x.ahead ++ rest) links' goal ∧ links = x.link?.toList ++ links' := by
  subst hx
  cases h with
  | step _ next => exact ⟨_, next, rfl⟩

theorem Leads.holdsNul_eq_false {rest : List String} {links : List Trail}
    (h : t.Leads trail (piece :: rest) links goal) : Path.holdsNul piece = false := by
  cases h with
  | step hnul _ => exact hnul

/-! ## Opening -/

section Pieces

variable {goOn : Place → List String → Except FileFault Place} {place : Place}
  {rest : List String} (hplace : t.find? place = some .directory)

include hplace

theorem followWith_stay (h : piece = "" ∨ piece = ".") :
    t.followWith false goOn place (piece :: rest) = t.followWith false goOn place rest := by
  simp only [followWith, hplace, if_pos h]

theorem followWith_up :
    t.followWith false goOn place (".." :: rest) =
      t.followWith false goOn place.dropLast rest := by
  rw [followWith, hplace]
  dsimp only
  rw [if_neg (by decide), if_pos rfl]

theorem followWith_of_nul (h : Path.IsName piece) (hnul : Path.holdsNul piece = true) :
    t.followWith false goOn place (piece :: rest) = .error .noSuchFile := by
  simp only [followWith, hplace, if_neg (not_or.2 ⟨h.1, h.2.1⟩), if_neg h.2.2, if_pos hnul]

theorem followWith_of_long (h : Path.IsName piece) (hnul : Path.holdsNul piece = false)
    (hbytes : maxNameBytes < Text.byteCount piece) :
    t.followWith false goOn place (piece :: rest) = .error .nameTooLong := by
  simp only [followWith, hplace, if_neg (not_or.2 ⟨h.1, h.2.1⟩), if_neg h.2.2, hnul,
    Bool.false_and, Bool.false_eq_true, if_false, if_pos hbytes]

theorem followWith_of_link (h : Path.IsName piece) (hnul : Path.holdsNul piece = false)
    (hbytes : ¬ maxNameBytes < Text.byteCount piece) {target : String}
    (hentry : t.find? (place ++ [piece]) = some (.link target)) :
    t.followWith false goOn place (piece :: rest) =
      goOn (start place target) (Path.pieces target ++ rest) := by
  simp only [followWith, hplace, if_neg (not_or.2 ⟨h.1, h.2.1⟩), if_neg h.2.2, hnul,
    Bool.false_and, Bool.false_eq_true, if_false, if_neg hbytes, hentry]

theorem followWith_of_name (h : Path.IsName piece) (hnul : Path.holdsNul piece = false)
    (hbytes : ¬ maxNameBytes < Text.byteCount piece)
    (hentry : ∀ target, t.find? (place ++ [piece]) ≠ some (.link target)) :
    t.followWith false goOn place (piece :: rest) =
      t.followWith false goOn (place ++ [piece]) rest := by
  simp only [followWith, hplace, if_neg (not_or.2 ⟨h.1, h.2.1⟩), if_neg h.2.2, hnul,
    Bool.false_and, Bool.false_eq_true, if_false, if_neg hbytes]

end Pieces

theorem find?_of_followWith {goOn : Place → List String → Except FileFault Place}
    {place goal : Place} {rest : List String}
    (h : t.followWith false goOn place (piece :: rest) = .ok goal) :
    t.find? place = some .directory := by
  rw [followWith] at h
  split at h
  · cases h
  · cases h
  · cases h
  · rename_i hplace
    exact hplace

section Opening

variable {pieces : List String} {place : Place} (hhere : ".." ∉ t.here) (hclean : trail.IsClean)

include hhere hclean

theorem exists_leads_of_followWith {goOn : Place → List String → Except FileFault Place} {n : Nat}
    (hgoOn : ∀ trail : Trail, trail.IsClean → ∀ pieces place,
      goOn (trail.place t.here) pieces = .ok place → ∃ links goal,
        t.Leads trail pieces links goal ∧ goal.place t.here = place ∧ links.length < n)
    (h : t.followWith false goOn (trail.place t.here) pieces = .ok place) :
    ∃ links goal, t.Leads trail pieces links goal ∧ goal.place t.here = place ∧
      links.length ≤ n := by
  induction pieces generalizing trail with
  | nil => exact ⟨[], trail, .done, Except.ok.inj h, Nat.zero_le _⟩
  | cons piece rest ih =>
    have hplace := find?_of_followWith h
    rcases Path.stay_or_up_or_isName piece with hstay | rfl | hpiece
    · rw [followWith_stay hplace hstay] at h
      obtain ⟨links, goal, hleads, hgoal, hlength⟩ := ih hclean h
      exact ⟨links, goal, .of_advance (advance_of_stay hstay) (Path.holdsNul_of_stay hstay) hleads,
        hgoal, hlength⟩
    · rw [followWith_up hplace, ← Trail.place_up hclean hhere] at h
      obtain ⟨links, goal, hleads, hgoal, hlength⟩ := ih hclean.up h
      exact ⟨links, goal, .of_advance advance_up Path.holdsNul_up hleads, hgoal, hlength⟩
    · have hdown := Trail.place_down hpiece trail t.here
      rcases hnul : Path.holdsNul piece with _ | _
      swap
      · rw [followWith_of_nul hplace hpiece hnul] at h
        cases h
      by_cases hbytes : maxNameBytes < Text.byteCount piece
      · rw [followWith_of_long hplace hpiece hnul hbytes] at h
        cases h
      by_cases hlink : ∃ target, t.find? ((trail.down piece).place t.here) = some (.link target)
      · obtain ⟨target, hentry⟩ := hlink
        rw [followWith_of_link hplace hpiece hnul hbytes (hdown ▸ hentry),
          ← Trail.place_startOfTarget_down] at h
        obtain ⟨links, goal, hleads, hgoal, hlength⟩ :=
          hgoOn _ (hclean.startOfTarget_down _ _) _ _ h
        exact ⟨trail.down piece :: links, goal,
          .of_advance (advance_of_link hpiece hentry) hnul hleads, hgoal, hlength⟩
      · rw [not_exists] at hlink
        rw [followWith_of_name hplace hpiece hnul hbytes (hdown ▸ hlink), ← hdown] at h
        obtain ⟨links, goal, hleads, hgoal, hlength⟩ := ih (hclean.down hpiece.1 hpiece.2.1) h
        exact ⟨links, goal, .of_advance (advance_of_name hpiece hlink) hnul hleads, hgoal, hlength⟩

theorem exists_leads_of_follow {n : Nat}
    (h : t.follow false n (trail.place t.here) pieces = .ok place) :
    ∃ links goal, t.Leads trail pieces links goal ∧ goal.place t.here = place ∧
      links.length ≤ n := by
  induction n generalizing trail pieces place with
  | zero =>
    rw [follow] at h
    refine exists_leads_of_followWith hhere hclean (fun _ _ _ _ hfailed => ?_) h
    cases hfailed
  | succ n ih =>
    rw [follow] at h
    refine exists_leads_of_followWith hhere hclean (fun _ hclean _ _ h => ?_) h
    obtain ⟨links, goal, hleads, hgoal, hlength⟩ := ih hclean h
    exact ⟨links, goal, hleads, hgoal, by omega⟩

end Opening

/-- A path that can be followed leads to its place, through as many links as may be followed. -/
theorem exists_leads_of_locate (hhere : ".." ∉ t.here) {path : String} {place : Place}
    (h : t.locate false path = .ok place) :
    ∃ links goal, t.Leads (Trail.start path) (Path.pieces path) links goal ∧
      goal.place t.here = place ∧ links.length ≤ maxLinks := by
  obtain ⟨-, -, -, hfollow⟩ := locate_eq_ok_iff.1 h
  rw [← Trail.place_start] at hfollow
  exact exists_leads_of_follow hhere (Trail.isClean_start path) hfollow

/-! ## Real places -/

theorem linkAt?_eq_some_iff {target : String} :
    t.linkAt? trail = some target ↔
      t.find? (trail.place t.here) = some (.link target) ∧ trail.IsSeen := by
  unfold linkAt?
  split
  · rename_i found hentry
    by_cases hseen : Text.byteCount trail.path ≤ maxPathBytes
    · simp [hentry, hseen, Trail.IsSeen]
    · simp [hseen, Trail.IsSeen]
  · rename_i hentry
    exact ⟨fun h => by simp at h, fun h => absurd h.1 (hentry target)⟩

theorem linkAt?_eq_none_of_not_isSeen (h : ¬ trail.IsSeen) : t.linkAt? trail = none :=
  Option.eq_none_iff_forall_not_mem.2 fun _ hat => h (linkAt?_eq_some_iff.1 hat).2

section Pieces

variable {goOn : KnownLinks → Trail → String → Except NulInPath (RealPlace × KnownLinks)}
  {known known' : KnownLinks} {rest : List String} {target : String}

theorem realPlaceWith_stay (h : piece = "" ∨ piece = ".") :
    t.realPlaceWith goOn known trail (piece :: rest) = t.realPlaceWith goOn known trail rest := by
  rw [realPlaceWith, if_pos h]

theorem realPlaceWith_up :
    t.realPlaceWith goOn known trail (".." :: rest) =
      t.realPlaceWith goOn known trail.up rest := by
  rw [realPlaceWith, if_neg (by decide), if_pos rfl]

theorem realPlaceWith_of_no_link (h : Path.IsName piece) (hnul : Path.holdsNul piece = false)
    (hat : t.linkAt? (trail.down piece) = none) :
    t.realPlaceWith goOn known trail (piece :: rest) =
      t.realPlaceWith goOn known (trail.down piece) rest := by
  simp only [realPlaceWith, if_neg (not_or.2 ⟨h.1, h.2.1⟩), if_neg h.2.2, hnul,
    Bool.false_eq_true, if_false, hat]

theorem realPlaceWith_of_known (h : Path.IsName piece) (hnul : Path.holdsNul piece = false)
    (hat : t.linkAt? (trail.down piece) = some target)
    (hlookup : known.lookup (trail.down piece) = some goal) :
    t.realPlaceWith goOn known trail (piece :: rest) = t.realPlaceWith goOn known goal rest := by
  simp only [realPlaceWith, if_neg (not_or.2 ⟨h.1, h.2.1⟩), if_neg h.2.2, hnul,
    Bool.false_eq_true, if_false, hat, hlookup]

theorem realPlaceWith_of_found (h : Path.IsName piece) (hnul : Path.holdsNul piece = false)
    (hat : t.linkAt? (trail.down piece) = some target)
    (hlookup : known.lookup (trail.down piece) = none)
    (hfound : goOn known (trail.down piece) target = .ok (.found goal, known')) :
    t.realPlaceWith goOn known trail (piece :: rest) =
      t.realPlaceWith goOn ((trail.down piece, goal) :: known') goal rest := by
  simp only [realPlaceWith, if_neg (not_or.2 ⟨h.1, h.2.1⟩), if_neg h.2.2, hnul,
    Bool.false_eq_true, if_false, hat, hlookup, hfound]

theorem realPlaceWith_of_loop (h : Path.IsName piece) (hnul : Path.holdsNul piece = false)
    (hat : t.linkAt? (trail.down piece) = some target)
    (hlookup : known.lookup (trail.down piece) = none) {doubled : Bool} {place : Place}
    (hloop : goOn known (trail.down piece) target = .ok (.looping doubled place, known')) :
    t.realPlaceWith goOn known trail (piece :: rest) =
      .ok (.behind doubled place rest, known') := by
  simp only [realPlaceWith, if_neg (not_or.2 ⟨h.1, h.2.1⟩), if_neg h.2.2, hnul,
    Bool.false_eq_true, if_false, hat, hlookup, hloop]

end Pieces

/-- Whether links lead where they are known to. -/
def Confirms (t : FileTree) (known : KnownLinks) : Prop :=
  ∀ link goal, known.lookup link = some goal → ∀ target, t.linkAt? link = some target →
    ∃ links, t.Leads (link.startOfTarget target) (Path.pieces target) links goal

theorem Confirms.cons {known : KnownLinks} (h : t.Confirms known) {link : Trail} {target : String}
    {links : List Trail} (hat : t.linkAt? link = some target)
    (hleads : t.Leads (link.startOfTarget target) (Path.pieces target) links goal) :
    t.Confirms ((link, goal) :: known) := by
  intro other otherGoal hlookup otherTarget hother
  by_cases hsame : other = link
  · subst hsame
    rw [List.lookup_cons_self] at hlookup
    obtain rfl := Option.some.inj hlookup
    obtain rfl := Option.some.inj (hat.symm.trans hother)
    exact ⟨links, hleads⟩
  · rw [List.lookup_cons, beq_eq_false_iff_ne.2 hsame] at hlookup
    exact h other otherGoal hlookup otherTarget hother

theorem realPlaceWith_of_leads
    {goOn : KnownLinks → Trail → String → Except NulInPath (RealPlace × KnownLinks)} {n : Nat}
    (hgoOn : ∀ known link target links goal, t.Confirms known → t.linkAt? link = some target →
      t.Leads (link.startOfTarget target) (Path.pieces target) links goal →
      (∀ l ∈ links, l.IsSeen) → links.length < n →
        ∃ known', goOn known link target = .ok (.found goal, known') ∧ t.Confirms known')
    {known : KnownLinks} (hknown : t.Confirms known) {pieces : List String} {links : List Trail}
    (h : t.Leads trail pieces links goal) (hseen : ∀ l ∈ links, l.IsSeen)
    (hlength : links.length ≤ n) :
    ∃ known', t.realPlaceWith goOn known trail pieces = .ok (.found goal, known') ∧
      t.Confirms known' := by
  induction pieces generalizing known trail links with
  | nil =>
    cases h
    exact ⟨known, rfl, hknown⟩
  | cons piece rest ih =>
    rcases Path.stay_or_up_or_isName piece with hstay | rfl | hpiece
    · obtain ⟨links, next, rfl⟩ := h.next (advance_of_stay hstay)
      rw [realPlaceWith_stay hstay]
      exact ih hknown next hseen hlength
    · obtain ⟨links, next, rfl⟩ := h.next advance_up
      rw [realPlaceWith_up]
      exact ih hknown next hseen hlength
    · have hnul := h.holdsNul_eq_false
      by_cases hlink : ∃ target, t.find? ((trail.down piece).place t.here) = some (.link target)
      · obtain ⟨target, hentry⟩ := hlink
        obtain ⟨_, next, rfl⟩ := h.next (advance_of_link hpiece hentry)
        obtain ⟨first, middle, second, hfirst, hsecond, rfl⟩ := next.split
        have hat : t.linkAt? (trail.down piece) = some target :=
          linkAt?_eq_some_iff.2 ⟨hentry, hseen _ (by simp)⟩
        have hseenFirst : ∀ l ∈ first, l.IsSeen := fun l hl => hseen l (by simp [hl])
        have hseenSecond : ∀ l ∈ second, l.IsSeen := fun l hl => hseen l (by simp [hl])
        simp only [Option.toList_some, List.length_append, List.length_singleton] at hlength
        cases hlookup : known.lookup (trail.down piece) with
        | some goal' =>
          obtain ⟨_, hother⟩ := hknown _ _ hlookup _ hat
          obtain ⟨-, rfl⟩ := hfirst.unique hother
          rw [realPlaceWith_of_known hpiece hnul hat hlookup]
          exact ih hknown hsecond hseenSecond (by omega)
        | none =>
          obtain ⟨known', hfound, hconfirms⟩ :=
            hgoOn known _ _ _ _ hknown hat hfirst hseenFirst (by omega)
          rw [realPlaceWith_of_found hpiece hnul hat hlookup hfound]
          exact ih (hconfirms.cons hat hfirst) hsecond hseenSecond (by omega)
      · rw [not_exists] at hlink
        obtain ⟨links, next, rfl⟩ := h.next (advance_of_name hpiece hlink)
        have hat : t.linkAt? (trail.down piece) = none :=
          Option.eq_none_iff_forall_not_mem.2 fun target htarget =>
            hlink target (linkAt?_eq_some_iff.1 htarget).1
        rw [realPlaceWith_of_no_link hpiece hnul hat]
        exact ih hknown next hseen hlength

/-- A link that is being followed is not met again on the way that it leads: there would have to be
fewer links on the way than there are. -/
theorem realPlaceUnder_of_leads {depth : Nat} {pending : List Trail} {known : KnownLinks}
    (hknown : t.Confirms known) {pieces : List String} {links : List Trail}
    (h : t.Leads trail pieces links goal) (hseen : ∀ l ∈ links, l.IsSeen)
    (hdepth : links.length ≤ depth)
    (hpending : ∀ link ∈ pending, ∀ target, t.linkAt? link = some target → ∀ links' goal',
      t.Leads (link.startOfTarget target) (Path.pieces target) links' goal' →
        links.length ≤ links'.length) :
    ∃ known', t.realPlaceUnder depth pending known trail pieces = .ok (.found goal, known') ∧
      t.Confirms known' := by
  induction depth generalizing pending known trail pieces links goal with
  | zero =>
    rw [realPlaceUnder]
    refine realPlaceWith_of_leads (n := links.length) ?_ hknown h hseen (Nat.le_refl _)
    intro _ _ _ _ _ _ _ _ _ hlength
    omega
  | succ depth ih =>
    rw [realPlaceUnder]
    refine realPlaceWith_of_leads (n := links.length) ?_ hknown h hseen (Nat.le_refl _)
    intro known link target inner innerGoal hknown hat hinner hseenInner hlength
    have hnot : link ∉ pending := by
      intro hmem
      have hle := hpending link hmem target hat _ _ hinner
      omega
    rw [if_neg hnot]
    refine ih hknown hinner hseenInner (by omega) fun other hother otherTarget hotherAt links' goal'
      hleads => ?_
    rcases List.mem_cons.1 hother with rfl | hmem
    · obtain rfl := Option.some.inj (hat.symm.trans hotherAt)
      rw [(hinner.unique hleads).1]
    · exact hlength.le.trans (hpending other hmem otherTarget hotherAt _ _ hleads)

/-- The real place of a path is where it leads, if all links on the way are seen and they are few
enough for the path to be opened. -/
theorem realPlace_of_leads {path : String} {links : List Trail}
    (h : t.Leads (Trail.start path) (Path.pieces path) links goal) (hseen : ∀ l ∈ links, l.IsSeen)
    (hlength : links.length ≤ maxLinks) : t.realPlace path = .ok (.found goal) := by
  have hdepth : links.length ≤ t.linkDepth := by
    rw [linkDepth]
    omega
  have hnone : t.Confirms [] := fun _ _ hlookup => by simp at hlookup
  obtain ⟨known, hplace, -⟩ := realPlaceUnder_of_leads hnone h hseen hdepth
    (fun link hlink => absurd hlink (List.not_mem_nil (a := link)))
  rw [realPlace, hplace]
  rfl

end FileTree

end CellShader
