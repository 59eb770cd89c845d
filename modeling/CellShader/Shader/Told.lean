import CellShader.Shader.Event

/-!
# Computations that tell what they do

A computation goes on until something fails, and what it told up to then is kept.
-/

namespace CellShader

/-- What a computation told on its way, and what came out. -/
structure Told (ε α : Type) where
  events : List Event
  outcome : Except ε α

namespace Told

variable {ε α β : Type}

/-- Go on with what came out, if anything did. -/
def andThen (x : Told ε α) (f : α → Told ε β) : Told ε β :=
  match x.outcome with
  | .ok a =>
    let y := f a
    ⟨x.events ++ y.events, y.outcome⟩
  | .error e => ⟨x.events, .error e⟩

instance : Monad (Told ε) where
  pure a := ⟨[], .ok a⟩
  bind := andThen

/-- Tell one step. -/
def tell (e : Event) : Told ε Unit := ⟨[e], .ok ()⟩

/-- Fail. -/
def fail (e : ε) : Told ε α := ⟨[], .error e⟩

/-- Tell one step and fail. -/
def failWith (event : Event) (e : ε) : Told ε α := ⟨[event], .error e⟩

/-- What the log has of a computation. -/
def records (x : Told ε α) : List Record := x.events.filterMap Event.record?

theorem outcome_bind_eq_ok_iff {x : Told ε α} {f : α → Told ε β} {b : β} :
    (x >>= f).outcome = .ok b ↔ ∃ a, x.outcome = .ok a ∧ (f a).outcome = .ok b := by
  show (andThen x f).outcome = .ok b ↔ _
  unfold andThen
  cases h : x.outcome <;> simp

theorem outcome_bind_eq_error_iff {x : Told ε α} {f : α → Told ε β} {e : ε} :
    (x >>= f).outcome = .error e ↔
      x.outcome = .error e ∨ ∃ a, x.outcome = .ok a ∧ (f a).outcome = .error e := by
  show (andThen x f).outcome = .error e ↔ _
  unfold andThen
  cases h : x.outcome <;> simp

theorem events_bind_of_ok {x : Told ε α} {a : α} (h : x.outcome = .ok a) (f : α → Told ε β) :
    (x >>= f).events = x.events ++ (f a).events := by
  show (andThen x f).events = _
  unfold andThen
  rw [h]

theorem events_bind_of_error {x : Told ε α} {e : ε} (h : x.outcome = .error e) (f : α → Told ε β) :
    (x >>= f).events = x.events := by
  show (andThen x f).events = _
  unfold andThen
  rw [h]

end Told

end CellShader
