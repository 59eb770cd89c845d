import CellShader.Proofs.Shader.Walk

/-!
# What the log says of a run

A run that fails in a way of the assembly's own says so once, and says nothing after that; no other
run says it.  `Reports` is this property of what is told and what comes out.  It passes from parts
to the whole (`Reports.bind`), so that no failure is told again on its way out, and every rule of
the walk through the imports has it (`Walks.reports`).  Warnings are counted apart from that: none
is given before the template is resolved (`Walks.ne_warning`), and at most one after it.
-/

namespace CellShader

/-! ## Levels of steps -/

namespace Event

/-- The level at which a step is logged, if it is. -/
def level? (e : Event) : Option Level := e.report?.map Prod.fst

@[simp] theorem level?_testing (name : String) : (testing name).level? = none := rfl

@[simp] theorem level?_reading (root name : String) : (reading root name).level? = some .verbose :=
  rfl

@[simp] theorem level?_expanding (target file : String) :
    (expanding target file).level? = some .info := rfl

@[simp] theorem level?_wroteCopy (path : String) : (wroteCopy path).level? = some .info := rfl

@[simp] theorem level?_placeholderLeft (template placeholder : String) :
    (placeholderLeft template placeholder).level? = some .warning := rfl

/-- The level of a step is that of its record. -/
theorem map_level_record? (e : Event) : e.record?.map Record.level = e.level? := by
  rw [record?, level?, Option.map_map]
  rfl

end Event

variable {α β : Type}

/-- Whether a failure in a way of the assembly's own, and none other, is told of at the level for
errors, once and at the end. -/
inductive Reports : List Event → Except Failure α → Prop
  | quiet {events : List Event} {r : Except Failure α}
      (hevents : ∀ e ∈ events, e.level? ≠ some .error) (hr : ∀ e, r ≠ .error (.assembly e)) :
      Reports events r
  | failed {before : List Event} {last : Event} {e : AssemblyError}
      (hbefore : ∀ e ∈ before, e.level? ≠ some .error) (hlast : last.level? = some .error) :
      Reports (before ++ [last]) (.error (.assembly e))

namespace Reports

variable {events events' : List Event} {r : Except Failure α}

theorem append (hevents : ∀ e ∈ events, e.level? ≠ some .error) (h : Reports events' r) :
    Reports (events ++ events') r := by
  cases h with
  | quiet hevents' hr => exact .quiet (List.forall_mem_append.2 ⟨hevents, hevents'⟩) hr
  | failed hbefore hlast =>
    rw [← List.append_assoc]
    exact .failed (List.forall_mem_append.2 ⟨hevents, hbefore⟩) hlast

theorem cons {e : Event} (he : e.level? ≠ some .error) (h : Reports events r) :
    Reports (e :: events) r :=
  append (List.forall_mem_singleton.2 he) h

theorem testing (name : String) (h : Reports events r) : Reports (.testing name :: events) r :=
  cons (by simp) h

theorem reading (root name : String) (h : Reports events r) :
    Reports (.reading root name :: events) r :=
  cons (by simp) h

theorem expanding (target file : String) (h : Reports events r) :
    Reports (.expanding target file :: events) r :=
  cons (by simp) h

theorem single {e : Event} {f : AssemblyError} (he : e.level? = some .error) :
    Reports [e] (.error (.assembly f) : Except Failure α) := by
  show Reports ([] ++ [e]) _
  exact failed (by simp) he

theorem ne_error_of_ok {a : α} (h : Reports events (.ok a)) :
    ∀ e ∈ events, e.level? ≠ some .error := by
  cases h with
  | quiet hevents => exact hevents

theorem of_error {f : Failure} (h : Reports events (.error f : Except Failure α)) :
    Reports events (.error f : Except Failure β) := by
  cases h with
  | quiet hevents hr =>
    refine .quiet hevents ?_
    rintro e ⟨⟩
    exact hr e rfl
  | failed hbefore hlast => exact .failed hbefore hlast

end Reports

/-! ## The walk through the imports -/

namespace Sources

variable {s : Sources} {file template : String} {d : Directives} {stack targets : List String}
  {text : List Char} {known : Expanded} {events : List Event}

theorem Walks.reports {r : Except Failure (List Char × Expanded)}
    (h : s.Walks file d stack targets text known events r) : Reports events r := by
  induction h with
  | done => exact .quiet (by simp) (by simp)
  | refused => exact .testing _ (.quiet (by simp) (by simp))
  | outside | cycle => exact .testing _ (.single rfl)
  | unreadable | declaredTwice => exact .testing _ (.reading _ _ (.single rfl))
  | unopened | undecodable => exact .testing _ (.reading _ _ (.quiet (by simp) (by simp)))
  | kept _ _ _ _ ih => exact .testing _ (.expanding _ _ ih)
  | failed _ _ _ _ _ _ ih => exact .testing _ (.reading _ _ ih)
  | expanded _ _ _ _ _ _ _ ihsub ih =>
    -- the inner file came out, so that no error was told of inside it
    exact .testing _ (.reading _ _ (.append ihsub.ne_error_of_ok (.expanding _ _ ih)))

theorem Resolves.reports {r : Except Failure (List Char)} (h : s.Resolves template events r) :
    Reports events r := by
  cases h with
  | refused => exact .testing _ (.quiet (by simp) (by simp))
  | outside => exact .testing _ (.single rfl)
  | unreadable | declaredTwice => exact .testing _ (.reading _ _ (.single rfl))
  | unopened | undecodable => exact .testing _ (.reading _ _ (.quiet (by simp) (by simp)))
  | @expanded _ _ _ result _ _ _ walk =>
    refine .testing _ (.reading _ _ ?_)
    cases result with
    | ok x => exact .quiet walk.reports.ne_error_of_ok (by simp [Except.map])
    | error e => exact walk.reports.of_error

theorem Walks.ne_warning {r : Except Failure (List Char × Expanded)}
    (h : s.Walks file d stack targets text known events r) :
    ∀ e ∈ events, e.level? ≠ some .warning := by
  induction h with
  | done => simp
  | refused | outside | cycle | unreadable | declaredTwice | unopened | undecodable =>
    simp [Event.level?, Event.report?]
  | kept _ _ _ _ ih | failed _ _ _ _ _ _ ih => simpa using ih
  | expanded _ _ _ _ _ _ _ ihsub ih =>
    simp only [List.forall_mem_cons, List.forall_mem_append]
    exact ⟨by simp, by simp, ihsub, by simp, ih⟩

theorem Resolves.ne_warning {r : Except Failure (List Char)} (h : s.Resolves template events r) :
    ∀ e ∈ events, e.level? ≠ some .warning := by
  cases h with
  | refused | outside | unreadable | declaredTwice | unopened | undecodable =>
    simp [Event.level?, Event.report?]
  | expanded _ _ _ walk => simpa using walk.ne_warning

end Sources

/-! ## From the text to the copy -/

namespace Told

/-- Whether a computation tells of its failure, if this is one of the assembly's own, once and at
the end. -/
def Reports (x : Told Failure α) : Prop := CellShader.Reports x.events x.outcome

/-- How many warnings a computation gives. -/
def warnings (x : Told Failure α) : Nat := x.events.countP (fun e => e.level? = some .warning)

/-- A failure is not told again on its way out. -/
theorem Reports.bind {x : Told Failure α} {f : α → Told Failure β} (hx : x.Reports)
    (hf : ∀ a, x.outcome = .ok a → (f a).Reports) : (x >>= f).Reports := by
  rw [Reports] at hx ⊢
  cases h : x.outcome with
  | error e =>
    rw [bind_of_error h]
    rw [h] at hx
    exact hx.of_error
  | ok a =>
    rw [bind_of_ok h]
    rw [h] at hx
    exact (hf a h).append hx.ne_error_of_ok

theorem reports_pure (a : α) : (pure a : Told Failure α).Reports := .quiet (by simp [pure]) nofun

theorem warnings_bind_of_ok {x : Told Failure α} {a : α} (h : x.outcome = .ok a)
    (f : α → Told Failure β) : (x >>= f).warnings = x.warnings + (f a).warnings := by
  rw [warnings, events_bind_of_ok h, List.countP_append]
  rfl

end Told

namespace Config

variable (c : Config) (t : FileTree) (template : String) (rule : Value) (label? : Option String)

theorem reports_splice (text : List Char) (file? : Option String) :
    (c.splice text rule file?).Reports := by
  rw [splice]
  split
  · cases rule.asRule with
    | ok r => exact Told.reports_pure _
    | error fault => exact .quiet (by simp [Told.fail]) nofun
  · exact .single rfl

theorem reports_resolve : (c.resolve t template).Reports := (c.resolves t template).reports

theorem reports_resolveWithRule : (c.resolveWithRule t template rule).Reports :=
  (c.reports_resolve t template).bind fun text _ => c.reports_splice rule text _

theorem reports_compose : (c.compose t template rule).Reports := by
  unfold compose
  split
  · refine (c.reports_resolve t template).bind fun text _ => ?_
    split
    · refine Told.Reports.bind (x := .tell _) ?_ fun _ _ => Told.reports_pure text
      exact .quiet (by simp [Told.tell]) nofun
    · exact Told.reports_pure text
  · exact c.reports_resolveWithRule t template rule

theorem reports_writeCopy (text : List Char) : (c.writeCopy t template text).1.Reports := by
  rw [writeCopy]
  rcases t.write (c.debugPath template) (Text.encode text) with (refusal | e) | t'
  · exact .quiet (by simp [Told.fail]) nofun
  · exact .single rfl
  · exact .quiet (by simp) nofun

theorem reports_keepCopy (text : List Char) : (c.keepCopy t template text).1.Reports := by
  rw [keepCopy]
  split
  · exact (c.reports_writeCopy t template text).bind fun _ _ => Told.reports_pure ()
  · exact Told.reports_pure ()

theorem reports_assemble : (c.assemble t template rule label?).1.Reports := by
  have hcompose := c.reports_compose t template rule
  rw [assemble]
  cases h : (c.compose t template rule).outcome with
  | error e =>
    -- the failure goes out as it is, and nothing is told after it
    rw [Told.Reports, h] at hcompose
    exact hcompose.of_error
  | ok text =>
    exact hcompose.bind fun _ _ => (c.reports_keepCopy t template text).bind fun _ _ =>
      Told.reports_pure _

/-! ## Warnings -/

theorem warnings_resolve : (c.resolve t template).warnings = 0 := by
  rw [Told.warnings, List.countP_eq_zero]
  exact fun e he => by simpa using (c.resolves t template).ne_warning e he

theorem warnings_splice (text : List Char) (file? : Option String) :
    (c.splice text rule file?).warnings = 0 := by
  rw [splice]
  split
  · cases rule.asRule <;> rfl
  · rfl

theorem warnings_keepCopy (text : List Char) : (c.keepCopy t template text).1.warnings = 0 := by
  rw [keepCopy]
  split
  · rw [writeCopy]
    rcases t.write (c.debugPath template) (Text.encode text) with (refusal | e) | t' <;> rfl
  · rfl

theorem warnings_compose_nothing {text : List Char}
    (h : (c.compose t template .nothing).outcome = .ok text) :
    (c.compose t template .nothing).warnings =
      if Text.occurs c.placeholder.toList text then 1 else 0 := by
  rw [compose] at h ⊢
  obtain ⟨text', htext, h⟩ := Told.outcome_bind_eq_ok_iff.1 h
  rw [Told.warnings_bind_of_ok htext, warnings_resolve, Nat.zero_add]
  by_cases hleft : Text.occurs c.placeholder.toList text' = true
  · rw [if_pos hleft] at h ⊢
    obtain rfl : text' = text := Except.ok.inj h
    rw [if_pos hleft]
    rfl
  · rw [if_neg hleft] at h ⊢
    obtain rfl : text' = text := Except.ok.inj h
    rw [if_neg hleft]
    rfl

theorem warnings_compose_of_ne_nothing {text : List Char} (hrule : rule ≠ .nothing)
    (h : (c.compose t template rule).outcome = .ok text) :
    (c.compose t template rule).warnings = 0 := by
  have hcompose : c.compose t template rule = c.resolveWithRule t template rule := by
    cases rule with
    | nothing => exact absurd rfl hrule
    | _ => rfl
  rw [hcompose, resolveWithRule] at h ⊢
  obtain ⟨text', htext, -⟩ := Told.outcome_bind_eq_ok_iff.1 h
  rw [Told.warnings_bind_of_ok htext, warnings_resolve, warnings_splice]

/-- Writing the copy adds no warning. -/
theorem warnings_assemble {source : ShaderSource}
    (h : (c.assemble t template rule label?).1.outcome = .ok source) :
    (c.compose t template rule).outcome = .ok source.text ∧
      (c.assemble t template rule label?).1.warnings = (c.compose t template rule).warnings := by
  rw [assemble] at h ⊢
  cases htext : (c.compose t template rule).outcome with
  | error f =>
    rw [htext] at h
    cases h
  | ok text =>
    rw [htext] at h
    obtain ⟨-, -, h⟩ := Told.outcome_bind_eq_ok_iff.1 h
    obtain ⟨u, hkept, h⟩ := Told.outcome_bind_eq_ok_iff.1 h
    obtain rfl := Except.ok.inj h
    refine ⟨rfl, ?_⟩
    show (c.compose t template rule >>= _).warnings = _
    rw [Told.warnings_bind_of_ok htext, Told.warnings_bind_of_ok hkept, warnings_keepCopy]
    rfl

end Config

/-! ## The log -/

namespace Told

/-- What a logger has of a computation when its level is set to the lowest. -/
def verboseLog (l : Logger) (x : Told Failure α) : List Record :=
  (l.setLevel .verbose).pass x.records

/-- At the lowest level everything is let through. -/
theorem verboseLog_eq (l : Logger) (x : Told Failure α) : x.verboseLog l = x.records :=
  List.filter_eq_self.2 fun _ _ => decide_eq_true (Nat.zero_le _)

theorem level_ne_of_mem_filterMap {events : List Event} {level : Level}
    (h : ∀ e ∈ events, e.level? ≠ some level) :
    ∀ r ∈ events.filterMap Event.record?, r.level ≠ level := by
  rintro r hr rfl
  obtain ⟨e, he, hrecord⟩ := List.mem_filterMap.1 hr
  exact h e he (by rw [← e.map_level_record?, hrecord]; rfl)

theorem countP_warning_records (x : Told Failure α) :
    x.records.countP (fun r => r.level = .warning) = x.warnings := by
  rw [records, warnings, List.countP_filterMap]
  refine List.countP_congr fun e _ => ?_
  rw [← e.map_level_record?]
  cases e.record? <;> simp

/-- Such a failure is logged as an error once, by the last record. -/
theorem Reports.exists_last_record {x : Told Failure α} (h : x.Reports) {e : AssemblyError}
    (hfailed : x.outcome = .error (.assembly e)) :
    ∃ before last, x.records = before ++ [last] ∧ last.level = .error ∧
      ∀ r ∈ before, r.level ≠ .error := by
  obtain ⟨events, outcome⟩ := x
  cases h with
  | quiet _ hr => exact absurd hfailed (hr e)
  | @failed before last _ hbefore hlast =>
    rw [← last.map_level_record?] at hlast
    obtain ⟨r, hrecord, hlevel⟩ := Option.map_eq_some_iff.1 hlast
    refine ⟨before.filterMap Event.record?, r, ?_, hlevel, level_ne_of_mem_filterMap hbefore⟩
    simp [records, List.filterMap_append, hrecord]

theorem Reports.level_ne_error {x : Told Failure α} (h : x.Reports) {a : α}
    (hok : x.outcome = .ok a) : ∀ r ∈ x.records, r.level ≠ .error := by
  rw [Reports, hok] at h
  exact level_ne_of_mem_filterMap h.ne_error_of_ok

end Told

namespace Config

variable (c : Config) (t : FileTree) (template : String) (rule : Value) (label? : Option String)

/-- A failure in a way of the assembly's own is logged as an error once, and nothing after it.  A
run that succeeds logs no error, and one warning if no rule was given and the placeholder is left in
the text, or else none. -/
theorem assemble_logs_error_once_and_last (l : Logger) :
    (∀ e, (c.assemble t template rule label?).1.outcome = .error (.assembly e) →
      ∃ before last,
        (c.assemble t template rule label?).1.verboseLog l = before ++ [last] ∧
          last.level = .error ∧ ∀ r ∈ before, r.level ≠ .error) ∧
    ∀ source, (c.assemble t template rule label?).1.outcome = .ok source →
      (∀ r ∈ (c.assemble t template rule label?).1.verboseLog l, r.level ≠ .error) ∧
      (rule = .nothing ∧ c.placeholder.toList <:+: source.text →
        ((c.assemble t template rule label?).1.verboseLog l).countP
          (fun r => r.level = .warning) = 1) ∧
      (¬(rule = .nothing ∧ c.placeholder.toList <:+: source.text) →
        ((c.assemble t template rule label?).1.verboseLog l).countP
          (fun r => r.level = .warning) = 0) := by
  have hreports := c.reports_assemble t template rule label?
  rw [Told.verboseLog_eq, Told.countP_warning_records]
  refine ⟨fun e hfailed => hreports.exists_last_record hfailed, fun source hok =>
    ⟨hreports.level_ne_error hok, ?_⟩⟩
  obtain ⟨htext, hwarnings⟩ := c.warnings_assemble t template rule label? hok
  rw [hwarnings]
  by_cases hrule : rule = .nothing
  · subst hrule
    rw [c.warnings_compose_nothing t template htext]
    exact ⟨fun h => if_pos (Text.occurs_iff.2 h.2),
      fun h => if_neg fun hleft => h ⟨rfl, Text.occurs_iff.1 hleft⟩⟩
  · rw [c.warnings_compose_of_ne_nothing t template rule hrule htext]
    exact ⟨fun h => absurd h.1 hrule, fun _ => rfl⟩

end Config

end CellShader
