import CellShader.Proofs.Shader.Confined
import CellShader.Proofs.Shader.Effects

/-!
# Where copies are written

The path of a copy is spelled like that of its template, with more behind the last name
(`Config.exists_pieces_debugPath`), and it is not asked whether it leads inside the asset root.  So
a copy lies inside exactly if its path would pass the test that the paths of all files that are read
have to pass.  It does if the template is spelled without needless pieces and its path leads through
the same links as that of the copy, since both then lie in one directory
(`FileTree.Leads.exists_beside`).
-/

namespace CellShader

/-! ## Spelling -/

namespace Path

theorem slash_not_mem_extension (path : String) : '/' ∉ (extension path).toList := by
  have hlast : '/' ∉ lastPiece path := by
    unfold lastPiece
    cases hcut : (Text.cut '/' path.toList).getLast? with
    | none => simp
    | some r => exact Text.not_mem_of_mem_cut (List.mem_of_getLast? hcut)
  have hstem : '/' ∉ (lastPiece path).dropWhile (· = '.') := fun hmem =>
    hlast ((List.dropWhile_sublist _).subset hmem)
  unfold extension
  split
  · simp
  · split
    · rename_i stem _ _
      rw [String.toList_ofList]
      cases hcut : (Text.cut '.' ((lastPiece path).dropWhile (· = '.'))).getLast? with
      | none => simp
      | some r => exact fun hmem => hstem (Text.mem_of_mem_cut (List.mem_of_getLast? hcut) hmem)
    · simp

end Path

namespace Config

/-- What the name of a copy has behind that of its template. -/
def copySuffix (template : String) : String := ".debug." ++ copyExtension template

theorem slash_not_mem_copySuffix (template : String) : '/' ∉ (copySuffix template).toList := by
  rw [copySuffix, String.toList_append, List.mem_append, not_or]
  refine ⟨by decide, ?_⟩
  unfold copyExtension
  dsimp only
  split
  · decide
  · exact Path.slash_not_mem_extension template

theorem debugPath_eq (c : Config) (template : String) :
    c.debugPath template = c.assetPath template ++ copySuffix template := by
  rw [debugPath, String.append_assoc]
  exact Path.join_append _ _ (slash_not_mem_copySuffix template)

/-- The paths of a template and its copy differ in their last pieces only. -/
theorem exists_pieces_debugPath (c : Config) (template : String) :
    ∃ above last, Path.pieces (c.assetPath template) = above ++ [last] ∧
      Path.pieces (c.debugPath template) = above ++ [last ++ copySuffix template] := by
  rw [debugPath_eq]
  exact Path.exists_pieces_append _ (slash_not_mem_copySuffix template)

theorem isName_append_copySuffix (last template : String) :
    Path.IsName (last ++ copySuffix template) := by
  have hlength : 7 ≤ (last ++ copySuffix template).toList.length := by
    have hdebug : ".debug.".toList.length = 7 := by decide
    simp only [copySuffix, String.toList_append, List.length_append, hdebug]
    omega
  refine ⟨?_, ?_, ?_⟩ <;>
  · intro heq
    rw [heq] at hlength
    revert hlength
    decide

end Config

/-! ## Two paths that differ in their last pieces -/

namespace FileTree

variable {t : FileTree} {trail goal goal' : Trail} {piece last other : String}
  {above pieces : List String} {links : List Trail}

theorem Leads.isClean (h : t.Leads trail pieces links goal) (hclean : trail.IsClean) :
    goal.IsClean := by
  induction h with
  | done => exact hclean
  | @step trail _ piece _ _ _ _ ih =>
    apply ih
    rcases Path.stay_or_up_or_isName piece with hstay | rfl | hname
    · rwa [advance_of_stay hstay]
    · rw [advance_up]
      exact hclean.up
    · by_cases hlink : ∃ target, t.find? ((trail.down piece).place t.here) = some (.link target)
      · obtain ⟨target, hentry⟩ := hlink
        rw [advance_of_link hname hentry]
        exact hclean.startOfTarget_down _ _
      · rw [not_exists] at hlink
        rw [advance_of_name hname hlink]
        exact hclean.down hname.1 hname.2.1

theorem Leads.last_of_isName (hname : Path.IsName piece) (h : t.Leads trail [piece] links goal) :
    (∃ links', links = trail.down piece :: links') ∨ links = [] ∧ goal = trail.down piece := by
  by_cases hlink : ∃ target, t.find? ((trail.down piece).place t.here) = some (.link target)
  · obtain ⟨target, hentry⟩ := hlink
    obtain ⟨links, -, rfl⟩ := h.next (advance_of_link hname hentry)
    exact .inl ⟨links, rfl⟩
  · rw [not_exists] at hlink
    obtain ⟨links, next, rfl⟩ := h.next (advance_of_name hname hlink)
    cases next
    exact .inr ⟨rfl, rfl⟩

theorem Leads.last_cases (h : t.Leads trail [piece] links goal) :
    (∃ links', links = trail.down piece :: links') ∨
      links = [] ∧
        (goal = trail ∨ goal = trail.up ∨ goal = trail.down piece ∧ Path.IsName piece) := by
  rcases Path.stay_or_up_or_isName piece with hstay | rfl | hname
  · obtain ⟨links, next, rfl⟩ := h.next (advance_of_stay hstay)
    cases next
    exact .inr ⟨rfl, .inl rfl⟩
  · obtain ⟨links, next, rfl⟩ := h.next advance_up
    cases next
    exact .inr ⟨rfl, .inr (.inl rfl)⟩
  · rcases h.last_of_isName hname with hlink | ⟨hnone, hgoal⟩
    · exact .inl hlink
    · exact .inr ⟨hnone, .inr (.inr ⟨hgoal, hname⟩)⟩

/-- Paths that differ in their last pieces and lead through the same links lead to places in one
directory. -/
theorem Leads.exists_beside (hname : Path.IsName other) (hne : last ≠ other)
    (h : t.Leads trail (above ++ [last]) links goal)
    (h' : t.Leads trail (above ++ [other]) links goal') :
    ∃ directory links', t.Leads trail above links' directory ∧ goal' = directory.down other ∧
      (goal = directory ∨ goal = directory.up ∨
        goal = directory.down last ∧ Path.IsName last) := by
  obtain ⟨first, directory, second, hfirst, hlast, rfl⟩ := h.split
  obtain ⟨first', directory', second', hfirst', hother, hlinks⟩ := h'.split
  obtain ⟨rfl, rfl⟩ := hfirst.unique hfirst'
  obtain rfl := List.append_cancel_left hlinks
  refine ⟨directory, first, hfirst, ?_⟩
  rcases hother.last_of_isName hname with ⟨links, rfl⟩ | ⟨rfl, hgoal'⟩
  · -- both last pieces would have to be the same link
    rcases hlast.last_cases with ⟨links', heq⟩ | ⟨heq, -⟩
    · have hdown := (List.cons.inj heq).1
      simp only [Trail.down, Trail.mk.injEq, true_and] at hdown
      exact absurd (List.singleton_inj.1 (List.append_cancel_left hdown)).symm hne
    · cases heq
  · rcases hlast.last_cases with ⟨links', heq⟩ | ⟨-, hgoal⟩
    · cases heq
    · exact ⟨hgoal', hgoal⟩

/-- What has the place of one of them inside it has the other one too, unless it is that place. -/
theorem Leads.prefix_of_beside (hhere : ".." ∉ t.here) (hclean : trail.IsClean)
    (hname : Path.IsName other) (hne : last ≠ other)
    (h : t.Leads trail (above ++ [last]) links goal)
    (h' : t.Leads trail (above ++ [other]) links goal') {root : Place}
    (hroot : root ≠ goal.place t.here) (hwithin : root <+: goal.place t.here) :
    root <+: goal'.place t.here := by
  obtain ⟨directory, links', habove, rfl, hgoal⟩ := h.exists_beside hname hne h'
  have hin : root <+: directory.place t.here := by
    rcases hgoal with rfl | rfl | ⟨rfl, hlast⟩
    · exact hwithin
    · rw [Trail.place_up (habove.isClean hclean) hhere] at hwithin
      exact hwithin.trans (List.dropLast_prefix _)
    · rw [Trail.place_down hlast] at hroot hwithin
      exact (List.prefix_concat_iff.1 hwithin).resolve_left hroot
  rw [Trail.place_down hname]
  exact hin.trans (List.prefix_append _ _)

end FileTree

/-! ## What has been asked before the copy is written -/

namespace Sources

theorem Resolves.isInside_and_read {s : Sources} {template : String} {events : List Event}
    {text : List Char} (h : s.Resolves template events (.ok text)) :
    s.isInside (Path.normalise template) = .ok true ∧
      ∃ text, s.read (Path.normalise template) = .ok text := by
  generalize hr : (Except.ok text : Except Failure (List Char)) = r at h
  cases h with
  | refused | outside | unreadable | unopened | undecodable | declaredTwice => cases hr
  | expanded hin hread => exact ⟨hin, _, hread⟩

end Sources

namespace Config

variable (c : Config) (t : FileTree) (template : String) (rule : Value) (label? : Option String)

theorem isInside_and_read_of_outcome {source : ShaderSource}
    (h : (c.assemble t template rule label?).1.outcome = .ok source) :
    t.isInside c.assetRoot (c.assetPath (Path.normalise template)) = .ok true ∧
      ∃ bytes, t.read (c.assetPath (Path.normalise template)) = .ok bytes := by
  obtain ⟨htext, -, -⟩ := (c.outcome_assemble_eq_ok_iff t template rule label?).1 h
  obtain ⟨text, htext⟩ := c.exists_resolve_of_textOf t template rule htext
  obtain ⟨hin, text', hread⟩ := (htext ▸ c.resolves t template).isInside_and_read
  rw [read_sources] at hread
  obtain ⟨bytes, hbytes, -⟩ := FileTree.readText_eq_ok_iff.1 hread
  exact ⟨hin, bytes, hbytes⟩

/-- A copy is where its path leads, and all links on the way being seen this is inside the asset
root exactly if its path passes the test for files that are read.  It passes if the template is
spelled in its normal form and reached through the same links, the asset root being a directory. -/
theorem copy_inside_iff (hhere : ".." ∉ t.here) (hdebug : c.debugShader = true)
    {source : ShaderSource} (h : (c.assemble t template rule label?).1.outcome = .ok source) :
    ∃ root links goal, t.realPlace c.assetRoot = .ok root ∧
      t.Leads (Trail.start (c.debugPath template)) (Path.pieces (c.debugPath template)) links goal ∧
      (c.assemble t template rule label?).2.IsWith t (goal.place t.here)
        (Text.encode source.text) ∧
      ((∀ link ∈ links, link.IsSeen) →
        (root.place t.here <+: goal.place t.here ↔
          t.isInside c.assetRoot (c.debugPath template) = .ok true) ∧
        ∀ goal', Path.normalise template = template →
          t.Leads (Trail.start (c.assetPath template)) (Path.pieces (c.assetPath template)) links
            goal' →
          t.find? (root.place t.here) = some .directory →
            root.place t.here <+: goal.place t.here) := by
  have hwrite := c.write_of_outcome t template rule label? hdebug h
  obtain ⟨place, hlocate, -, hwith⟩ := FileTree.exists_isWith_of_write hwrite
  obtain ⟨links, goal, hleads, rfl, hlength⟩ :=
    FileTree.exists_leads_of_locate hhere (FileTree.locate_of_making hlocate)
  obtain ⟨hin, bytes, hread⟩ := c.isInside_and_read_of_outcome t template rule label? h
  obtain ⟨root, real, hroot, hreal, hdoubled, hwithin⟩ := FileTree.isInside_eq_true_iff.1 hin
  refine ⟨root, links, goal, hroot, hleads, hwith,
    fun hseen => ⟨?_, fun goal' hnormal hleads' hdirectory => ?_⟩⟩
  · rw [FileTree.isInside_eq_true_iff, hroot, FileTree.realPlace_of_leads hleads hseen hlength]
    constructor
    · exact fun h => ⟨_, _, rfl, rfl, hdoubled, h⟩
    · rintro ⟨_, _, ⟨⟩, ⟨⟩, -, h⟩
      exact h
  · rw [hnormal] at hread hreal
    rw [FileTree.realPlace_of_leads hleads' hseen hlength] at hreal
    obtain rfl := Except.ok.inj hreal
    -- the template is a file, so that the asset root is another place
    obtain ⟨place, hlocate', hfile⟩ := FileTree.read_eq_ok_iff.1 hread
    obtain ⟨_, goal'', hleads'', rfl, -⟩ := FileTree.exists_leads_of_locate hhere hlocate'
    obtain ⟨-, rfl⟩ := hleads''.unique hleads'
    have hne : root.place t.here ≠ goal''.place t.here := by
      intro heq
      rw [heq, hfile] at hdirectory
      cases hdirectory
    obtain ⟨above, last, hpieces, hcopy⟩ := c.exists_pieces_debugPath template
    have hstart : Trail.start (c.debugPath template) = Trail.start (c.assetPath template) := by
      rw [Trail.start, Trail.start, debugPath_eq,
        Path.isAbsolute_append _ (slash_not_mem_copySuffix template)]
    rw [hstart, hcopy] at hleads
    rw [hpieces] at hleads'
    refine hleads'.prefix_of_beside hhere (Trail.isClean_start _)
      (isName_append_copySuffix last template) ?_ hleads hne hwithin
    intro heq
    have hlength := congrArg (fun s => s.toList.length) heq
    simp [copySuffix] at hlength

end Config

/-- A link beside a template that leads to a directory outside the asset root. -/
def FileTree.detour : FileTree where
  here := ["w"]
  entries := [(["w"], .directory), (["w", "assets"], .directory),
    (["w", "assets", "main"], .file (Text.encode "x".toList)),
    (["w", "assets", "k"], .link "../out/d"), (["w", "out"], .directory),
    (["w", "out", "d"], .directory)]

theorem Config.outcome_assemble_detour :
    ((Config.mk "assets" true "").assemble .detour "k/../main" .nothing none).1.outcome =
      .ok ⟨"k/../main", "x".toList, none⟩ :=
  eq_ok_of_toOption (by decide +kernel)

theorem Config.copy_leads_outside_detour :
    ".." ∉ FileTree.detour.here ∧ (Config.mk "assets" true "").debugShader = true ∧
    ((Config.mk "assets" true "").assemble .detour "k/../main" .nothing none).1.outcome =
      .ok ⟨"k/../main", "x".toList, none⟩ ∧
    ∃ links goal,
      FileTree.detour.Leads (Trail.start "assets/k/../main.debug.wgsl")
        (Path.pieces "assets/k/../main.debug.wgsl") links goal ∧
      ((Config.mk "assets" true "").assemble .detour "k/../main" .nothing none).2.IsWith .detour
        (goal.place ["w"]) (Text.encode "x".toList) ∧
      ((∀ link ∈ links, link.IsSeen) → ¬ ["w", "assets"] <+: goal.place ["w"]) := by
  have hhere : ".." ∉ FileTree.detour.here := by decide
  obtain ⟨root, links, goal, hroot, hleads, hwith, hinside⟩ :=
    copy_inside_iff _ _ _ _ _ hhere rfl outcome_assemble_detour
  have hpath : (Config.mk "assets" true "").debugPath "k/../main" =
      "assets/k/../main.debug.wgsl" := by
    decide +kernel
  have hplace : (FileTree.detour.realPlace "assets").toOption.map (·.place ["w"]) =
      some ["w", "assets"] := by
    decide +kernel
  have hout : FileTree.detour.isInside "assets" "assets/k/../main.debug.wgsl" = .ok false :=
    eq_ok_of_toOption (by decide +kernel)
  rw [hpath] at hleads hinside
  refine ⟨hhere, rfl, outcome_assemble_detour, links, goal, hleads, hwith, fun hseen hwithin => ?_⟩
  rw [hroot] at hplace
  rw [← Option.some.inj hplace] at hwithin
  have hin := (hinside hseen).1.1 hwithin
  cases hout.symm.trans hin

/-- A template whose name leads through a link and back has its copy written outside the asset root,
though the template itself is inside. -/
theorem Config.assemble_detour :
    ((Config.mk "assets" true "").assemble .detour "k/../main" .nothing none).1.outcome =
      .ok ⟨"k/../main", "x".toList, none⟩ ∧
    FileTree.detour.find? ["w", "out", "main.debug.wgsl"] = none ∧
    ((Config.mk "assets" true "").assemble .detour "k/../main" .nothing none).2.find?
      ["w", "out", "main.debug.wgsl"] = some (.file (Text.encode "x".toList)) ∧
    ∃ root, FileTree.detour.realPlace "assets" = .ok root ∧
      ¬ root.place FileTree.detour.here <+: ["w", "out", "main.debug.wgsl"] := by
  have hroot : FileTree.detour.realPlace "assets" = .ok (.found ⟨false, ["assets"]⟩) :=
    eq_ok_of_toOption (by decide +kernel)
  exact ⟨outcome_assemble_detour, by decide +kernel, by decide +kernel, _, hroot, by decide +kernel⟩

end CellShader
