import CellShader.Log.Logger
import Mathlib.Data.List.Induction
import Mathlib.Data.List.TakeWhile

/-!
# Which messages get through

What a run of calls to a logger writes, call by call.  The level in force can be read off the calls
made so far, without a logger (`levelInForce`), and a logger that was made for them has it
(`Logger.level?_after`).  So a message is written exactly when its level is not below that one
(`Logger.written_by_levelInForce`).

The logger is put together from a flag, a level and the consoles to which it hands what it lets
through, and each time that logging begins a console is added (`LogSetup`).  Logging begins once
however it begins, so there is one console from then on, and nothing is written twice
(`LogSetup.written_eq`).
-/

namespace CellShader

/-! ## Runs of calls -/

/-- What each of some calls writes, made one after another from a state. -/
def writtenFrom {σ : Type} (call : σ → LogCall → σ × List Record) : σ → List LogCall →
    List (List Record)
  | _, [] => []
  | s, c :: cs => (call s c).2 :: writtenFrom call (call s c).1 cs

/-- The state after some calls. -/
def stateAfter {σ : Type} (call : σ → LogCall → σ × List Record) (s : σ) (calls : List LogCall) :
    σ :=
  calls.foldl (fun s c => (call s c).1) s

theorem stateAfter_concat {σ : Type} (call : σ → LogCall → σ × List Record) (s : σ)
    (calls : List LogCall) (c : LogCall) :
    stateAfter call s (calls ++ [c]) = (call (stateAfter call s calls) c).1 := by
  rw [stateAfter, List.foldl_append]
  rfl

theorem getElem?_writtenFrom {σ : Type} (call : σ → LogCall → σ × List Record) (s : σ)
    (before after : List LogCall) (c : LogCall) :
    (writtenFrom call s (before ++ c :: after))[before.length]? =
      some (call (stateAfter call s before) c).2 := by
  induction before generalizing s with
  | nil => rfl
  | cons b before ih =>
    rw [List.cons_append, writtenFrom, List.length_cons, List.getElem?_cons_succ, ih]
    rfl

/-! ## The level in force -/

namespace LogCall

/-- The level that a call sets whatever was set before. -/
def setLevel? : LogCall → Option Level
  | setLevel level => some level
  | _ => none

/-- The level at which logging begins with a call that does not set one. -/
def startLevel? : LogCall → Option Level
  | start level => some level
  | setLevel _ => none
  | log _ _ _ => some defaultLevel

end LogCall

/-- The level that some calls leave: the one that was set last, or else the one at which logging
began. -/
def levelLeft? (calls : List LogCall) : Option Level :=
  (calls.filterMap LogCall.setLevel?).getLast?.or (calls.filterMap LogCall.startLevel?).head?

/-- The level in force for the call after the given ones. -/
def levelInForce (calls : List LogCall) : Level := (levelLeft? calls).getD defaultLevel

theorem levelLeft?_concat (calls : List LogCall) (c : LogCall) :
    levelLeft? (calls ++ [c]) =
      match c with
      | .setLevel level => some level
      | .start level => (levelLeft? calls).or (some level)
      | .log _ _ _ => (levelLeft? calls).or (some defaultLevel) := by
  cases c <;>
    simp [levelLeft?, LogCall.setLevel?, LogCall.startLevel?, List.filterMap_append,
      List.head?_append]

/-- A logger that was made for some calls has the level that they leave. -/
theorem Logger.level?_after (calls : List LogCall) :
    (stateAfter Logger.call {} calls).level? = levelLeft? calls := by
  induction calls using List.reverseRecOn with
  | nil => rfl
  | append_singleton calls c ih =>
    rw [levelLeft?_concat, ← ih, stateAfter_concat]
    generalize stateAfter Logger.call {} calls = l
    obtain ⟨level?⟩ := l
    cases c with
    | setLevel level => rfl
    | start level | log level text ending => cases level? <;> rfl

/-! ## Messages -/

/-- Whether a message is what is to be logged with its ending, less all line feeds at the end. -/
structure IsMessage (text ending message : String) : Prop where
  append_lineFeeds : ∃ n, message.toList ++ List.replicate n '\n' = (text ++ ending).toList
  getLast?_ne : message.toList.getLast? ≠ some '\n'

theorem isMessage_messageText (text ending : String) :
    IsMessage text ending (messageText text ending) := by
  have htoList : (messageText text ending).toList =
      Text.dropEndWhile (· = '\n') (text ++ ending).toList := String.toList_ofList
  generalize hcs : (text ++ ending).toList = cs at htoList
  refine ⟨⟨(cs.reverse.takeWhile (· = '\n')).length, ?_⟩, ?_⟩
  · have hfeeds : (cs.reverse.takeWhile (· = '\n')).reverse =
        List.replicate (cs.reverse.takeWhile (· = '\n')).length '\n' := by
      refine List.eq_replicate_iff.2 ⟨List.length_reverse, fun c hc => ?_⟩
      rw [List.mem_reverse] at hc
      simpa using List.mem_takeWhile_imp hc
    rw [htoList, hcs, ← hfeeds, Text.dropEndWhile, ← List.reverse_append,
      List.takeWhile_append_dropWhile, List.reverse_reverse]
  · intro hlast
    rw [htoList, Text.dropEndWhile, List.getLast?_reverse] at hlast
    have hhead := List.head?_dropWhile_not (· = '\n') cs.reverse
    simp [hlast] at hhead

/-! ## How the logger is put together -/

/-- The parts of a logger: whether logging has begun, a level, and how many consoles there are that
each take what is let through. -/
structure LogSetup where
  hasBegun : Bool := false
  level : Level := defaultLevel
  consoles : Nat := 0

namespace LogSetup

/-- Begin logging, with one console more, unless it has begun. -/
def start (s : LogSetup) (level : Level) : LogSetup :=
  if s.hasBegun then s else ⟨true, level, s.consoles + 1⟩

/-- Begin logging, unless it has begun, and set the level. -/
def setLevel (s : LogSetup) (level : Level) : LogSetup := ⟨true, level, (s.start level).consoles⟩

/-- The parts after a call, and what the call writes to all consoles. -/
def call (s : LogSetup) : LogCall → LogSetup × List Record
  | .start level => (s.start level, [])
  | .setLevel level => (s.setLevel level, [])
  | .log level text ending =>
    let s := s.start defaultLevel
    (s, if s.level.passes level then
        List.replicate s.consoles ⟨level, messageText text ending⟩
      else [])

/-- The loggers that parts make up: one that has not begun, or one with a level and one console. -/
inductive Makes : LogSetup → Logger → Prop
  | fresh : Makes {} {}
  | begun (level : Level) : Makes ⟨true, level, 1⟩ ⟨some level⟩

variable {s : LogSetup} {l : Logger}

theorem Makes.consoles_le (h : s.Makes l) : s.consoles ≤ 1 := by
  cases h with
  | fresh => exact Nat.zero_le 1
  | begun level => exact Nat.le_refl 1

/-- The parts do what the logger does. -/
theorem Makes.call (h : s.Makes l) (c : LogCall) :
    (s.call c).1.Makes (l.call c).1 ∧ (s.call c).2 = (l.call c).2 := by
  cases c with
  | start level | setLevel level =>
    cases h <;> exact ⟨.begun _, rfl⟩
  | log level text ending =>
    cases h with
    | fresh =>
      refine ⟨.begun defaultLevel, ?_⟩
      by_cases hpass : defaultLevel.passes level = true <;>
        simp [LogSetup.call, LogSetup.start, Logger.call, Logger.start, Logger.pass, Logger.level,
          hpass]
    | begun current =>
      refine ⟨.begun current, ?_⟩
      by_cases hpass : current.passes level = true <;>
        simp [LogSetup.call, LogSetup.start, Logger.call, Logger.start, Logger.pass, Logger.level,
          hpass]

theorem Makes.written_eq (h : s.Makes l) (calls : List LogCall) :
    writtenFrom LogSetup.call s calls = writtenFrom Logger.call l calls := by
  induction calls generalizing s l with
  | nil => rfl
  | cons c calls ih => rw [writtenFrom, writtenFrom, (h.call c).2, ih (h.call c).1]

theorem Makes.after (h : s.Makes l) (calls : List LogCall) :
    (stateAfter LogSetup.call s calls).Makes (stateAfter Logger.call l calls) := by
  induction calls generalizing s l with
  | nil => exact h
  | cons c calls ih => exact ih (h.call c).1

end LogSetup

/-- A message is written once if its level is not below the level in force for it, and otherwise not
at all; the calls that set a level write nothing.  It makes no difference that each beginning adds a
console, since there is never more than one. -/
theorem Logger.written_by_levelInForce (before after : List LogCall) :
    (∀ level text ending, ∃ message, IsMessage text ending message ∧
      (writtenFrom Logger.call {} (before ++ .log level text ending :: after))[before.length]? =
        some (if (levelInForce before).rank ≤ level.rank then [⟨level, message⟩] else [])) ∧
    (∀ level,
      (writtenFrom Logger.call {} (before ++ .start level :: after))[before.length]? = some [] ∧
      (writtenFrom Logger.call {} (before ++ .setLevel level :: after))[before.length]? =
        some []) ∧
    ∀ calls, writtenFrom LogSetup.call {} calls = writtenFrom Logger.call {} calls ∧
      (stateAfter LogSetup.call {} calls).consoles ≤ 1 := by
  refine ⟨fun level text ending => ⟨_, isMessage_messageText text ending, ?_⟩, fun level => ?_,
    fun calls => ⟨LogSetup.Makes.fresh.written_eq calls,
      (LogSetup.Makes.fresh.after calls).consoles_le⟩⟩
  · rw [getElem?_writtenFrom]
    have hlevel : ((stateAfter Logger.call {} before).start defaultLevel).level =
        levelInForce before := by
      rw [level_start, Logger.level?_after]
      rfl
    show some (Logger.pass _ [_]) = _
    rw [Logger.pass, hlevel]
    by_cases hpass : (levelInForce before).rank ≤ level.rank <;>
      simp [Level.passes, hpass]
  · rw [getElem?_writtenFrom, getElem?_writtenFrom]
    exact ⟨rfl, rfl⟩

end CellShader
