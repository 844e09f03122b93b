import FleetCompose.Toml.Fault

/-!
# Attempts to read a form

An attempt to read a form has three outcomes: the form is there; something else is there; or
the form begins there and is malformed. Only in the second case may another form be tried in
its place.
-/

namespace FleetCompose.Toml

/-- The outcome of an attempt to read a form. -/
inductive Attempt (α : Type) where
  | found (value : α)
  | absent (fault : Fault)
  | broken (fault : Fault)

namespace Attempt

variable {α β : Type}

/-- Go on behind a form that was found. -/
def bind (attempt : Attempt α) (next : α → Attempt β) : Attempt β :=
  match attempt with
  | .found value => next value
  | .absent fault => .absent fault
  | .broken fault => .broken fault

instance : Monad Attempt where
  pure := .found
  bind := bind

@[simp] theorem found_bind (value : α) (next : α → Attempt β) :
    (Attempt.found value >>= next) = next value := rfl

@[simp] theorem absent_bind (fault : Fault) (next : α → Attempt β) :
    (Attempt.absent fault >>= next) = .absent fault := rfl

@[simp] theorem broken_bind (fault : Fault) (next : α → Attempt β) :
    (Attempt.broken fault >>= next) = .broken fault := rfl

/-- The form has to be there. -/
def require : Attempt α → Attempt α
  | .absent fault => .broken fault
  | attempt => attempt

/-- Try another form where the first one is absent. -/
def orElse (attempt : Attempt α) (other : Unit → Attempt α) : Attempt α :=
  match attempt with
  | .absent _ => other ()
  | attempt => attempt

/-- Is the form there? A malformed form stays one. -/
def optional (attempt : Attempt α) : Attempt (Option α) :=
  match attempt with
  | .found value => .found (some value)
  | .absent _ => .found none
  | .broken fault => .broken fault

/-- Change the fault. -/
def mapFault (f : Fault → Fault) : Attempt α → Attempt α
  | .found value => .found value
  | .absent fault => .absent (f fault)
  | .broken fault => .broken (f fault)

/-- Say in which form a fault is. -/
def within (form : Form) (attempt : Attempt α) : Attempt α :=
  attempt.mapFault fun fault => { fault with problem := fault.problem.within form }

/-- Say what could have stood there. -/
def expecting (expected : List String) (attempt : Attempt α) : Attempt α :=
  attempt.mapFault fun fault => { fault with problem := fault.problem.orElse expected }

/-- The outcome where the form has to be there. -/
def toExcept : Attempt α → Except Fault α
  | .found value => .ok value
  | .absent fault => .error fault
  | .broken fault => .error fault

end Attempt

/-- Refuse something else at a cursor. -/
def absentAt {α : Type} (cursor : Cursor) (problem : Problem) : Attempt α :=
  .absent (Fault.atCursor cursor problem)

/-- Refuse something malformed at a cursor. -/
def brokenAt {α : Type} (cursor : Cursor) (problem : Problem) : Attempt α :=
  .broken (Fault.atCursor cursor problem)

/-- Go over a character. -/
def character (c : Char) (cursor : Cursor) : Attempt Cursor :=
  if cursor.next? = some c then .found (cursor.advance 1) else absentAt cursor .bare

end FleetCompose.Toml
