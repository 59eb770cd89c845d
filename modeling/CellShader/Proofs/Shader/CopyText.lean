import CellShader.Proofs.Shader.CopyPlace
import CellShader.Proofs.Shader.Splicing
import CellShader.Proofs.Shader.Strays
import CellShader.Proofs.Text.Utf8

/-!
# What a copy holds

Reading takes all carriage returns out of a text, and neither inlining nor the code of a rule brings
any in (`Config.carriageReturn_not_mem_of_textOf`).  So an assembled text is read as it was written
(`FileTree.readText_of_write`).  Its copy is its own, too: the last dot of the path tells where the
name of the template ends (`Config.append_copySuffix_inj`), so no other template has a copy there.
-/

namespace CellShader

/-! ## Reading what was written -/

theorem textOfBytes_encode {text : List Char} (h : '\r' ∉ text) :
    textOfBytes (Text.encode text) = .ok text := by
  rw [textOfBytes, Text.decode_encode]
  exact congrArg Except.ok (Text.unifyNewlines_eq_self h)

/-- A text without carriage returns is read as it was written. -/
theorem FileTree.readText_of_write {t t' : FileTree} {path : String} {text : List Char}
    (htext : '\r' ∉ text) (h : t.write path (Text.encode text) = .ok t') :
    t'.readText path = .ok text :=
  readText_eq_ok_iff.2 ⟨_, read_of_write h, textOfBytes_encode htext⟩

namespace Config

section NoReturn

variable (c : Config) (t : FileTree) (template : String) {text : List Char}

theorem carriageReturn_not_mem_of_resolve (h : (c.resolve t template).outcome = .ok text) :
    '\r' ∉ text := by
  have hresolves := c.resolves t template
  rw [h] at hresolves
  exact (hresolves.leaves (Sources.readsUnified_ofTree t c.assetRoot)).noReturn

theorem carriageReturn_not_mem_of_splice {out : List Char} {rule : Value} {file? : Option String}
    (htext : '\r' ∉ text) (h : (c.splice text rule file?).outcome = .ok out) : '\r' ∉ out := by
  obtain ⟨r, rfl⟩ := c.exists_rule_of_splice h
  obtain ⟨-, rfl⟩ := c.splice_rule_eq_ok_iff.1 h
  intro hmem
  rcases Text.mem_or_mem_of_mem_replace hmem with hcode | hold
  · exact r.not_mem_code (by decide) hcode
  · exact htext hold

theorem carriageReturn_not_mem_of_textOf {rule : Value}
    (h : c.textOf t template rule = .ok text) : '\r' ∉ text := by
  unfold textOf at h
  split at h
  · exact c.carriageReturn_not_mem_of_resolve t template h
  · rw [resolveWithRule, Told.outcome_bind_eq_ok_iff] at h
    obtain ⟨resolved, hresolved, hspliced⟩ := h
    exact c.carriageReturn_not_mem_of_splice
      (c.carriageReturn_not_mem_of_resolve t template hresolved) hspliced

end NoReturn

end Config

/-! ## The paths of copies -/

namespace Path

theorem dot_not_mem_extension (path : String) : '.' ∉ (extension path).toList := by
  unfold extension
  split
  · simp
  · split
    · rename_i stem _ _
      rw [String.toList_ofList]
      cases hcut : (Text.cut '.' ((lastPiece path).dropWhile (· = '.'))).getLast? with
      | none => simp
      | some r => exact Text.not_mem_of_mem_cut (List.mem_of_getLast? hcut)
    · simp

/-- Relative paths are told apart from every base. -/
theorem join_inj {base a b : String} (ha : isAbsolute a = false) (hb : isAbsolute b = false) :
    join base a = join base b ↔ a = b := by
  rcases join_eq_or base with hjoin | ⟨up, hjoin⟩
  · rw [hjoin a ha, hjoin b hb]
  · rw [hjoin a ha, hjoin b hb, String.append_right_inj]

end Path

namespace Config

theorem dot_not_mem_copyExtension (template : String) :
    '.' ∉ (copyExtension template).toList := by
  unfold copyExtension
  dsimp only
  split
  · decide
  · exact Path.dot_not_mem_extension template

theorem toList_append_copySuffix (x template : String) :
    (x ++ copySuffix template).toList =
      (x.toList ++ ".debug".toList) ++ '.' :: (copyExtension template).toList := by
  have hmark : ".debug.".toList = ".debug".toList ++ ['.'] := by decide
  rw [copySuffix, String.toList_append, String.toList_append, hmark]
  simp

/-- The extension of a copy has no dot, so it tells where the rest of the path ends. -/
theorem append_copySuffix_inj {x y a b : String}
    (h : x ++ copySuffix a = y ++ copySuffix b) : x = y := by
  have hlist := congrArg String.toList h
  rw [toList_append_copySuffix, toList_append_copySuffix,
    Text.append_cons_inj (dot_not_mem_copyExtension a) (dot_not_mem_copyExtension b)] at hlist
  exact String.toList_injective (List.append_cancel_right hlist.1)

variable (c : Config)

/-- The paths of the copies of relative templates tell these apart. -/
theorem debugPath_inj {a b : String} (ha : Path.isAbsolute a = false)
    (hb : Path.isAbsolute b = false) : c.debugPath a = c.debugPath b ↔ a = b := by
  refine ⟨fun h => ?_, congrArg c.debugPath⟩
  rw [debugPath_eq, debugPath_eq] at h
  exact (Path.join_inj ha hb).1 (append_copySuffix_inj h)

theorem debugPath_ne_assetPath (template : String) :
    c.debugPath template ≠ c.assetPath template := by
  rw [debugPath_eq]
  intro h
  have hlength := congrArg (fun s => s.toList.length) h
  simp [copySuffix] at hlength

/-! ## Copies -/

/-- A copy reads back as the text that was assembled, in which there are no carriage returns, and
each relative template has the path of its copy for itself, next to its own. -/
theorem copy_reads_back_and_paths_differ (c : Config) :
    (∀ t template rule label? source, c.debugShader = true →
      (c.assemble t template rule label?).1.outcome = .ok source →
        '\r' ∉ source.text ∧
        (c.assemble t template rule label?).2.readText (c.debugPath template) =
          .ok source.text) ∧
    (∀ a b, Path.isAbsolute a = false → Path.isAbsolute b = false → a ≠ b →
      c.debugPath a ≠ c.debugPath b) ∧
    ∀ template, c.debugPath template ≠ c.assetPath template := by
  refine ⟨fun t template rule label? source hdebug h => ?_, fun a b ha hb hne heq => ?_,
    c.debugPath_ne_assetPath⟩
  · obtain ⟨htext, -, -⟩ := (c.outcome_assemble_eq_ok_iff t template rule label?).1 h
    have hreturn := c.carriageReturn_not_mem_of_textOf t template htext
    exact ⟨hreturn,
      FileTree.readText_of_write hreturn (c.write_of_outcome t template rule label? hdebug h)⟩
  · exact hne ((c.debugPath_inj ha hb).1 heq)

end Config

/-- Files with lines that end in each of the three ways. -/
def FileTree.mixedEnds : FileTree where
  here := []
  entries := [
    (["main.wgsl"], .file (Text.encode "é\r\n#import a\r\x7bPLACEHOLDER\x7d".toList)),
    (["a"], .file (Text.encode "x\ry\n".toList))]

theorem Config.copy_reads_back_mixedEnds :
    let c := Config.mk "/" true defaultPlaceholder
    let rule := Value.rule (.statement (.setResult .alive))
    let assembled := c.assemble .mixedEnds "main.wgsl" rule none
    let text := "é\nx\ny\n\nresult = is_alive;".toList
    c.debugShader = true ∧ assembled.1.outcome = .ok ⟨"main.wgsl", text, none⟩ ∧
      assembled.2.readText "/main.wgsl.debug.wgsl" = .ok text ∧
      Path.isAbsolute "main.wgsl" = false ∧ Path.isAbsolute "main" = false ∧
      c.debugPath "main.wgsl" ≠ c.debugPath "main" := by
  intro c rule assembled text
  have houtcome : assembled.1.outcome = .ok ⟨"main.wgsl", text, none⟩ :=
    eq_ok_of_toOption (by decide +kernel)
  have hpath : c.debugPath "main.wgsl" = "/main.wgsl.debug.wgsl" := by decide +kernel
  have hreads := (c.copy_reads_back_and_paths_differ).1 _ _ _ _ _ rfl houtcome
  have hdiffer := (c.copy_reads_back_and_paths_differ).2.1 "main.wgsl" "main" (by decide)
    (by decide) (by decide)
  exact ⟨rfl, houtcome, hpath ▸ hreads.2, by decide, by decide, hdiffer⟩

end CellShader
