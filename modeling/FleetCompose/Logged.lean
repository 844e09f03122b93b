import FleetCompose.Text.Quoted

/-!
# Logged computations

The steps from a document to its artifacts may fail, and they report what they notice on
the way as log events. A `Logged` computation is its events and its outcome; events logged
before a failure are kept.
-/

namespace FleetCompose

/-- How severe a log event is, the most severe first. -/
inductive Level where
  | warn
  | info
  | debug
  deriving DecidableEq, Repr

/-- The step that logs an event. -/
inductive Stage where
  | reading
  | loading
  | expanding
  | converting
  | wiring
  | compiling
  | rendering
  | writing
  deriving DecidableEq, Repr

/-- The value of a field of a log event. A `name` is shown between quotes in a log line. -/
inductive LogValue where
  | shown (text : String)
  | name (text : String)
  deriving DecidableEq, Repr

/-- The text of a field. -/
def LogValue.text : LogValue → String
  | .shown text => text
  | .name text => text

/-- The text of a field in a log line. -/
def LogValue.lineText : LogValue → String
  | .shown text => text
  | .name text => Text.quoted text

/-- A log event: a message and named fields. -/
structure LogEvent where
  level : Level
  stage : Stage
  message : String
  fields : List (String × LogValue)
  deriving DecidableEq, Repr

/-- The events and the outcome of a computation that may fail. -/
structure Logged (ε α : Type) where
  log : List LogEvent
  outcome : Except ε α

namespace Logged

variable {ε δ α β : Type}

/-- Succeed without logging anything. -/
def pure (value : α) : Logged ε α := ⟨[], .ok value⟩

/-- Run one computation after the other; after a failure the second one does not run. -/
def bind (first : Logged ε α) (next : α → Logged ε β) : Logged ε β :=
  match first.outcome with
  | .error failure => ⟨first.log, .error failure⟩
  | .ok value => ⟨first.log ++ (next value).log, (next value).outcome⟩

instance : Monad (Logged ε) where
  pure := Logged.pure
  bind := Logged.bind

/-- A computation that logs nothing. -/
def ofExcept (outcome : Except ε α) : Logged ε α := ⟨[], outcome⟩

/-- Log events. -/
def tell (events : List LogEvent) : Logged ε Unit := ⟨events, .ok ()⟩

/-- Turn the failure into another one. -/
def mapError (f : ε → δ) (x : Logged ε α) : Logged δ α := ⟨x.log, x.outcome.mapError f⟩

@[simp] theorem outcome_pure (value : α) :
    (Pure.pure value : Logged ε α).outcome = .ok value := rfl

@[simp] theorem outcome_bind (first : Logged ε α) (next : α → Logged ε β) :
    (first >>= next).outcome = first.outcome.bind fun value => (next value).outcome := by
  change (Logged.bind first next).outcome = _
  unfold Logged.bind
  split <;> next h => simp [h, Except.bind]

@[simp] theorem outcome_ofExcept (outcome : Except ε α) :
    (ofExcept outcome).outcome = outcome := rfl

@[simp] theorem outcome_tell (events : List LogEvent) :
    (tell events : Logged ε Unit).outcome = .ok () := rfl

@[simp] theorem outcome_mapError (f : ε → δ) (x : Logged ε α) :
    (x.mapError f).outcome = x.outcome.mapError f := rfl

@[simp] theorem log_pure (value : α) : (Pure.pure value : Logged ε α).log = [] := rfl

@[simp] theorem log_ofExcept (outcome : Except ε α) : (ofExcept outcome).log = [] := rfl

@[simp] theorem log_tell (events : List LogEvent) :
    (tell events : Logged ε Unit).log = events := rfl

/-- After a success the events of the second computation follow those of the first. -/
theorem log_bind_of_ok {first : Logged ε α} {value : α} (next : α → Logged ε β)
    (h : first.outcome = .ok value) :
    (first >>= next).log = first.log ++ (next value).log := by
  change (Logged.bind first next).log = _
  unfold Logged.bind
  split <;> simp_all

end Logged

end FleetCompose
