import CellShader.Proofs.Files.Pieces
import CellShader.Proofs.Shader.CallStack

/-!
# What is read lies inside the root

A file is read only after its real place was found to be inside the asset root
(`Resolves.isInside_of_mem_readNames`), and it is opened where its real place is if all links on the
way are seen.  A link under a trail that is spelled too long is not seen: finding the real place
goes through it as if it were a directory, and opening the file follows it.
-/

namespace CellShader

/-! ## What is asked before reading -/

namespace Sources

variable {s : Sources} {name : String}

theorem Walks.isInside_of_mem_readNames {file : String} {d : Directives}
    {stack targets : List String} {text : List Char} {known : Expanded} {events : List Event}
    {r : Except Failure (List Char × Expanded)}
    (h : s.Walks file d stack targets text known events r) (hname : name ∈ readNames events) :
    s.isInside name = .ok true := by
  induction h with
  | done | refused | outside | cycle => simp [readNames] at hname
  | unreadable hin | unopened hin | undecodable hin | declaredTwice hin =>
    obtain rfl : name = _ := by simpa [readNames] using hname
    exact hin
  | kept _ _ _ _ ih => exact ih hname
  | failed hin _ _ _ _ _ ih =>
    rcases List.mem_cons.1 hname with rfl | hname
    · exact hin
    · exact ih hname
  | expanded hin _ _ _ _ _ _ ihsub ih =>
    simp only [readNames_testing, readNames_reading, readNames_append, readNames_expanding,
      List.mem_cons, List.mem_append] at hname
    rcases hname with rfl | hname | hname
    · exact hin
    · exact ihsub hname
    · exact ih hname

theorem Resolves.isInside_of_mem_readNames {template : String} {events : List Event}
    {r : Except Failure (List Char)} (h : s.Resolves template events r)
    (hname : name ∈ readNames events) : s.isInside name = .ok true := by
  cases h with
  | refused | outside => simp [readNames] at hname
  | unreadable hin | unopened hin | undecodable hin | declaredTwice hin =>
    obtain rfl : name = _ := by simpa [readNames] using hname
    exact hin
  | expanded hin _ _ walk =>
    rcases List.mem_cons.1 hname with rfl | hname
    · exact hin
    · exact walk.isInside_of_mem_readNames hname

/-- A template that imports nothing is resolved to its text. -/
theorem Resolves.eq_of_no_targets {template : String} {events : List Event}
    {r : Except Failure (List Char)} (h : s.Resolves template events r)
    (hin : s.isInside (Path.normalise template) = .ok true) {text : List Char} {d : Directives}
    (hread : s.read (Path.normalise template) = .ok text) (hscan : Directives.ofText text = .ok d)
    (htargets : d.targets = []) : r = .ok text := by
  cases h with
  | refused hout | outside hout => cases hin.symm.trans hout
  | unreadable _ hfile | unopened _ hfile | undecodable _ hfile => cases hread.symm.trans hfile
  | declaredTwice _ hfile htwice =>
    obtain rfl := Except.ok.inj (hread.symm.trans hfile)
    cases hscan.symm.trans htwice
  | expanded _ hfile hfound walk =>
    obtain rfl := Except.ok.inj (hread.symm.trans hfile)
    obtain rfl := Except.ok.inj (hscan.symm.trans hfound)
    rw [htargets] at walk
    cases walk
    rfl

end Sources

theorem FileTree.isInside_eq_true_iff {t : FileTree} {root path : String} :
    t.isInside root path = .ok true ↔
      ∃ r p, t.realPlace root = .ok r ∧ t.realPlace path = .ok p ∧ r.isDoubled = false ∧
        r.place t.here <+: p.place t.here := by
  simp only [isInside_eq_ok_iff, Bool.and_eq_true, Bool.not_eq_true', List.isPrefixOf_iff_prefix]

namespace Config

variable (c : Config) (t : FileTree)

theorem isInside_sources (name : String) :
    (c.sources t).isInside name = t.isInside c.assetRoot (c.assetPath name) := rfl

theorem read_sources (name : String) :
    (c.sources t).read name = t.readText (c.assetPath name) := rfl

/-- A file that is read on the way lies at the place to which its path leads, and this place is
inside the real place of the asset root if all links on the way are seen. -/
theorem exists_leads_of_read (template : String) (hhere : ".." ∉ t.here) {name : String}
    {bytes : List UInt8}
    (hname : name ∈ Sources.readNames (c.resolve t template).events)
    (hread : t.read (c.assetPath name) = .ok bytes) :
    ∃ root links goal, t.realPlace c.assetRoot = .ok root ∧
      t.Leads (Trail.start (c.assetPath name)) (Path.pieces (c.assetPath name)) links goal ∧
      t.locate false (c.assetPath name) = .ok (goal.place t.here) ∧
      t.find? (goal.place t.here) = some (.file bytes) ∧
      ((∀ link ∈ links, link.IsSeen) → root.place t.here <+: goal.place t.here) := by
  obtain ⟨place, hlocate, hfind⟩ := FileTree.read_eq_ok_iff.1 hread
  obtain ⟨links, goal, hleads, rfl, hlength⟩ := FileTree.exists_leads_of_locate hhere hlocate
  have hin := (c.resolves t template).isInside_of_mem_readNames hname
  rw [isInside_sources] at hin
  obtain ⟨root, real, hroot, hreal, -, hprefix⟩ := FileTree.isInside_eq_true_iff.1 hin
  refine ⟨root, links, goal, hroot, hleads, hlocate, hfind, fun hseen => ?_⟩
  rw [FileTree.realPlace_of_leads hleads hseen hlength] at hreal
  obtain rfl := Except.ok.inj hreal
  exact hprefix

end Config

/-- A template that is a link to a file beside it. -/
def FileTree.linked : FileTree where
  here := ["w"]
  entries := [(["w"], .directory), (["w", "assets"], .directory),
    (["w", "assets", "main"], .link "../assets/plain"),
    (["w", "assets", "plain"], .file (Text.encode "x".toList))]

theorem Config.exists_leads_linked :
    ".." ∉ FileTree.linked.here ∧
    "main" ∈ Sources.readNames ((Config.mk "assets" false "").resolve .linked "main").events ∧
    FileTree.linked.read ((Config.mk "assets" false "").assetPath "main") =
      .ok (Text.encode "x".toList) ∧
    ∃ links goal,
      FileTree.linked.Leads (Trail.start "assets/main") (Path.pieces "assets/main") links goal ∧
      FileTree.linked.locate false "assets/main" = .ok (goal.place ["w"]) ∧
      FileTree.linked.find? (goal.place ["w"]) = some (.file (Text.encode "x".toList)) ∧
      ((∀ link ∈ links, link.IsSeen) → ["w", "assets"] <+: goal.place ["w"]) := by
  have hhere : ".." ∉ FileTree.linked.here := by decide
  have hname :
      "main" ∈ Sources.readNames ((Config.mk "assets" false "").resolve .linked "main").events := by
    decide +kernel
  have hread : FileTree.linked.read ((Config.mk "assets" false "").assetPath "main") =
      .ok (Text.encode "x".toList) := eq_ok_of_toOption (by decide +kernel)
  have hpath : (Config.mk "assets" false "").assetPath "main" = "assets/main" := by decide
  have hplace : (FileTree.linked.realPlace "assets").toOption.map (·.place ["w"]) =
      some ["w", "assets"] := by
    decide +kernel
  obtain ⟨root, links, goal, hroot, hleads⟩ := exists_leads_of_read _ _ _ hhere hname hread
  rw [hpath] at hleads
  rw [hroot] at hplace
  refine ⟨hhere, hname, hread, links, goal, ?_⟩
  rw [← Option.some.inj hplace]
  exact hleads

/-! ## Links that are not seen -/

theorem Text.byteCount_append (a b : String) : byteCount (a ++ b) = byteCount a + byteCount b := by
  simp [byteCount, encode]

/-- The names of a trail that goes up and then down. -/
def Trail.upThen (n : Nat) (names : List String) : Trail := ⟨false, List.replicate n ".." ++ names⟩

namespace Trail

theorem up_upThen (n : Nat) : (upThen n []).up = upThen (n + 1) [] := by
  cases n with
  | zero => rfl
  | succ n => simp [upThen, up, down, List.replicate_succ']

theorem down_upThen (n : Nat) (names : List String) (name : String) :
    (upThen n names).down name = upThen n (names ++ [name]) := by
  simp [upThen, down]

theorem place_upThen (n : Nat) (names : List String) :
    (upThen n names).place [] = Place.along [] names := by
  induction n with
  | zero => rfl
  | succ n ih =>
    rw [← ih]
    rfl

theorem byteCount_path_upThen (n : Nat) {names : List String} (h : names ≠ []) :
    Text.byteCount (upThen n names).path = 3 * n + Text.byteCount ("/".intercalate names) := by
  induction n with
  | zero => simp [upThen, path]
  | succ n ih =>
    have hpath : (upThen (n + 1) names).path = ".." ++ "/" ++ (upThen n names).path := by
      simp only [path, upThen, Bool.false_eq_true, if_false, String.empty_append,
        List.replicate_succ, List.cons_append]
      exact String.intercalate_cons_of_ne_nil (by simp [h])
    have hup : Text.byteCount (".." ++ "/") = 3 := by decide
    rw [hpath, Text.byteCount_append, ih, hup]
    omega

end Trail

namespace FileTree

variable {t : FileTree}

theorem realPlaceWith_replicate_up
    {goOn : KnownLinks → Trail → String → Except NulInPath (RealPlace × KnownLinks)}
    {known : KnownLinks} (n k : Nat) (rest : List String) :
    t.realPlaceWith goOn known (Trail.upThen k []) (List.replicate n ".." ++ rest) =
      t.realPlaceWith goOn known (Trail.upThen (k + n) []) rest := by
  induction n generalizing k with
  | zero => rfl
  | succ n ih =>
    rw [List.replicate_succ, List.cons_append, realPlaceWith_up, Trail.up_upThen, ih]
    congr 2
    omega

theorem follow_replicate_up (making : Bool) (links n : Nat) (rest : List String) :
    t.follow making links [] (List.replicate n ".." ++ rest) = t.follow making links [] rest := by
  induction n with
  | zero => rfl
  | succ n ih =>
    rw [← ih]
    cases links <;> rfl

/-- A path that goes up by a number of steps, and down to the asset root. -/
def upAndBack (n : Nat) : String := "/".intercalate (List.replicate n ".." ++ ["assets"])

/-- A link that leads up and back, and behind it one that leads out. -/
def astray (n : Nat) : FileTree where
  here := []
  entries := [(["assets"], .directory), (["assets", "far"], .link (upAndBack (n + 1))),
    (["assets", "elsewhere"], .link "../s"), (["s"], .directory),
    (["s", "x"], .file (Text.encode "y".toList))]

theorem pieces_upAndBack (n : Nat) :
    Path.pieces (upAndBack n) = List.replicate n ".." ++ ["assets"] := by
  refine Path.pieces_intercalate (by simp) fun name hname => ?_
  rcases List.mem_append.1 hname with hup | hlast
  · rw [List.eq_of_mem_replicate hup]
    decide
  · rw [List.mem_singleton.1 hlast]
    decide

theorem isAbsolute_upAndBack (n : Nat) : Path.isAbsolute (upAndBack (n + 1)) = false := by
  rw [upAndBack, List.replicate_succ, List.cons_append,
    String.intercalate_cons_of_ne_nil (by simp)]
  simp [Path.isAbsolute]

section Astray

variable {n : Nat}

theorem linkAt?_astray_far :
    (astray n).linkAt? (((Trail.upThen 0 []).down "assets").down "far") =
      some (upAndBack (n + 1)) :=
  linkAt?_eq_some_iff.2 ⟨rfl, by decide⟩

theorem linkAt?_astray_assets (k : Nat) :
    (astray n).linkAt? ((Trail.upThen k []).down "assets") = none := by
  rw [Trail.down_upThen, linkAt?, show (astray n).here = [] from rfl, Trail.place_upThen]
  rfl

theorem linkAt?_astray_of_byteCount {names : List String} (hne : names ≠ [])
    (h : maxPathBytes < 3 * n + Text.byteCount ("/".intercalate names)) :
    (astray n).linkAt? (Trail.upThen n names) = none := by
  refine linkAt?_eq_none_of_not_isSeen ?_
  rw [Trail.IsSeen, Trail.byteCount_path_upThen _ hne]
  omega

/-- The first link leads back to the directory in which it is, by a longer trail. -/
theorem realPlaceUnder_astray_far :
    (astray n).realPlaceUnder 43 [Trail.upThen 0 ["assets", "far"]] []
      ((Trail.upThen 0 ["assets", "far"]).startOfTarget (upAndBack (n + 1)))
      (Path.pieces (upAndBack (n + 1))) = .ok (.found (Trail.upThen n ["assets"]), []) := by
  have hstart : (Trail.upThen 0 ["assets", "far"]).startOfTarget (upAndBack (n + 1)) =
      Trail.upThen 0 ["assets"] := by
    rw [Trail.startOfTarget, isAbsolute_upAndBack]
    rfl
  have hup : (Trail.upThen 0 ["assets"]).up = Trail.upThen 0 [] := rfl
  rw [hstart, pieces_upAndBack, List.replicate_succ, List.cons_append, realPlaceUnder,
    realPlaceWith_up, hup, realPlaceWith_replicate_up, Nat.zero_add,
    realPlaceWith_of_no_link (by decide) (by decide) (linkAt?_astray_assets n), Trail.down_upThen]
  rfl

theorem realPlace_astray (h : maxPathBytes < 3 * n + 16) :
    (astray n).realPlace "assets/far/elsewhere/x" =
      .ok (.found (Trail.upThen n ["assets", "elsewhere", "x"])) := by
  have hlink : Trail.upThen 0 ["assets", "far"] ∉ ([] : List Trail) := List.not_mem_nil
  have helsewhere : (astray n).linkAt? ((Trail.upThen n ["assets"]).down "elsewhere") = none := by
    rw [Trail.down_upThen]
    refine linkAt?_astray_of_byteCount (by simp) (h.trans_le (Nat.add_le_add_left ?_ _))
    decide
  have hx : (astray n).linkAt? ((Trail.upThen n ["assets", "elsewhere"]).down "x") = none := by
    rw [Trail.down_upThen]
    refine linkAt?_astray_of_byteCount (by simp) (h.trans_le (Nat.add_le_add_left ?_ _))
    decide
  have hfound : (astray n).realPlaceUnder 44 [] [] (Trail.upThen 0 [])
      ["assets", "far", "elsewhere", "x"] =
        .ok (.found (Trail.upThen n ["assets", "elsewhere", "x"]),
          [(Trail.upThen 0 ["assets", "far"], Trail.upThen n ["assets"])]) := by
    rw [realPlaceUnder, realPlaceWith_of_no_link (by decide) (by decide) (linkAt?_astray_assets 0)]
    refine (realPlaceWith_of_found (by decide) (by decide) linkAt?_astray_far rfl
      ((if_neg hlink).trans realPlaceUnder_astray_far)).trans ?_
    have hdown : (Trail.upThen n ["assets"]).down "elsewhere" =
        Trail.upThen n ["assets", "elsewhere"] := Trail.down_upThen _ _ _
    rw [realPlaceWith_of_no_link (by decide) (by decide) helsewhere, hdown,
      realPlaceWith_of_no_link (by decide) (by decide) hx,
      Trail.down_upThen n ["assets", "elsewhere"]]
    rfl
  have hpieces : Path.pieces "assets/far/elsewhere/x" = ["assets", "far", "elsewhere", "x"] := by
    decide
  rw [realPlace, hpieces]
  exact congrArg (Except.map Prod.fst) hfound

theorem locate_astray : (astray n).locate false "assets/far/elsewhere/x" = .ok ["s", "x"] := by
  have hpieces : Path.pieces "assets/far/elsewhere/x" = ["assets", "far", "elsewhere", "x"] := by
    decide
  have hassets : (astray n).find? ["assets"] = some .directory := rfl
  have hfar : (astray n).find? (["assets"] ++ ["far"]) = some (.link (upAndBack (n + 1))) := rfl
  have hstart : start ["assets"] (upAndBack (n + 1)) = ["assets"] := by
    rw [start, isAbsolute_upAndBack]
    rfl
  have hback : (astray n).follow false 39 ["assets"]
      (Path.pieces (upAndBack (n + 1)) ++ ["elsewhere", "x"]) =
        (astray n).follow false 39 [] ["assets", "elsewhere", "x"] := by
    rw [pieces_upAndBack, List.replicate_succ, List.append_assoc, List.cons_append, follow,
      followWith_up hassets]
    exact follow_replicate_up false 39 n ["assets", "elsewhere", "x"]
  refine locate_eq_ok_iff.2 ⟨by decide, by decide, by decide, ?_⟩
  rw [hpieces, maxLinks, follow,
    show start (astray n).here "assets/far/elsewhere/x" = [] from rfl,
    followWith_of_name rfl (by decide) (by decide) (by decide) fun target hlink => by cases hlink]
  show (astray n).followWith false _ ["assets"] _ = _
  rw [followWith_of_link hassets (by decide) (by decide) (by decide) hfar, hstart, hback]
  rfl

theorem realPlace_astray_root :
    (astray n).realPlace "assets" = .ok (.found (Trail.upThen 0 ["assets"])) := rfl

theorem isInside_astray (h : maxPathBytes < 3 * n + 16) :
    (astray n).isInside "assets" "assets/far/elsewhere/x" = .ok true := by
  refine isInside_eq_ok_iff.2 ⟨_, _, realPlace_astray_root, realPlace_astray h, ?_⟩
  show List.isPrefixOf ((Trail.upThen 0 ["assets"]).place [])
    ((Trail.upThen n ["assets", "elsewhere", "x"]).place []) = true
  rw [Trail.place_upThen, Trail.place_upThen]
  decide

theorem not_prefix_astray :
    ∃ root, (astray n).realPlace "assets" = .ok root ∧
      ¬ root.place (astray n).here <+: ["s", "x"] := by
  refine ⟨_, realPlace_astray_root, ?_⟩
  show ¬ (Trail.upThen 0 ["assets"]).place [] <+: ["s", "x"]
  rw [Trail.place_upThen]
  decide

theorem readText_astray :
    (astray n).readText "assets/far/elsewhere/x" = .ok "y".toList := by
  have hfind : (astray n).find? ["s", "x"] = some (.file (Text.encode "y".toList)) := rfl
  have htext : textOfBytes (Text.encode "y".toList) = .ok "y".toList :=
    eq_ok_of_toOption (by decide +kernel)
  exact readText_eq_ok_iff.2 ⟨_, read_eq_ok_iff.2 ⟨_, locate_astray, hfind⟩, htext⟩

end Astray

end FileTree

theorem Config.assetPath_astray :
    (Config.mk "assets" false "").assetPath (Path.normalise "far/elsewhere/x") =
      "assets/far/elsewhere/x" := by
  decide +kernel

theorem Config.outcome_resolve_astray {n : Nat} (h : maxPathBytes < 3 * n + 16) :
    ((Config.mk "assets" false "").resolve (.astray n) "far/elsewhere/x").outcome =
      .ok "y".toList := by
  have hin : ((Config.mk "assets" false "").sources (.astray n)).isInside
      (Path.normalise "far/elsewhere/x") = .ok true := by
    rw [isInside_sources, assetPath_astray]
    exact FileTree.isInside_astray h
  have hread : ((Config.mk "assets" false "").sources (.astray n)).read
      (Path.normalise "far/elsewhere/x") = .ok "y".toList := by
    rw [read_sources, assetPath_astray]
    exact FileTree.readText_astray
  have hscan : Directives.ofText "y".toList = .ok {} := by rfl
  exact (Config.resolves _ _ _).eq_of_no_targets hin hread hscan rfl

/-- With as many steps up as the target of a link can have, the second link is not seen, and a file
outside the asset root is read. -/
theorem Config.resolve_astray :
    ((Config.mk "assets" false "").resolve (.astray 1362) "far/elsewhere/x").outcome =
      .ok "y".toList ∧
    (FileTree.astray 1362).locate false
      ((Config.mk "assets" false "").assetPath (Path.normalise "far/elsewhere/x")) =
        .ok ["s", "x"] ∧
    ∃ root, (FileTree.astray 1362).realPlace "assets" = .ok root ∧
      ¬ root.place (FileTree.astray 1362).here <+: ["s", "x"] := by
  refine ⟨outcome_resolve_astray (by decide), ?_, FileTree.not_prefix_astray⟩
  rw [assetPath_astray]
  exact FileTree.locate_astray

end CellShader
