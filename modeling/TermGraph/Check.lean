import TermGraph.Rejection

/-!
# Checks that log

A check looks at the contents of a node and passes or refuses. On the way it may write to the log.
Rejections are built by `typeMismatch` and `invalid` alone, and each of the two logs the rejection as
it builds it; what becomes of the rejection then is up to the caller.
-/

namespace TermGraph

/-- A line of the log. A rejection is logged in texts, as it stood when it was built. -/
inductive Event where
  /-- A rejection was built because of a type. -/
  | mismatch (kind field expected found : String)
  /-- A rejection was built because of the contents. -/
  | invalid (kind reason : String)
  /-- A table took a node into one of its shards and has `total` nodes now. -/
  | inserted (shard total : Nat)

/-- What came of a check, and what it logged. -/
structure Checked (α : Type) where
  outcome : Except Rejection α
  /-- The events, oldest first. -/
  events : List Event := []

/-- A check goes on with the value it has found so far, and stops at the first refusal. -/
instance : Monad Checked where
  pure a := { outcome := .ok a }
  bind first next :=
    match first.outcome with
    | .ok a =>
      let rest := next a
      { outcome := rest.outcome, events := first.events ++ rest.events }
    | .error rejection => { outcome := .error rejection, events := first.events }

namespace Checked

variable {α β : Type}

@[simp] theorem outcome_pure (a : α) : (pure a : Checked α).outcome = .ok a := rfl

/-- What comes of a sequence depends on what comes of its parts, not on what they log. -/
theorem outcome_bind (first : Checked α) (next : α → Checked β) :
    (first >>= next).outcome = first.outcome >>= fun a => (next a).outcome := by
  obtain ⟨outcome, events⟩ := first
  cases outcome <;> rfl

/-- What was logged before a refusal stays, and nothing is logged after it. -/
theorem events_bind (first : Checked α) (next : α → Checked β) :
    (first >>= next).events =
      first.events ++ first.outcome.toOption.elim [] fun a => (next a).events := by
  obtain ⟨outcome, events⟩ := first
  cases outcome with
  | ok a => rfl
  | error rejection => exact (List.append_nil events).symm

end Checked

/-- A check that finds no value. -/
abbrev Check := Checked Unit

namespace Check

/-- Writes to the log. -/
def emit (event : Event) : Check :=
  { outcome := .ok (), events := [event] }

/-- Refuses for a rejection that was built before. -/
def refuse {α : Type} (rejection : Rejection) : Checked α :=
  { outcome := .error rejection }

/-- Builds and logs the rejection of a type. -/
def typeMismatch (kind : Kind) (field : String) (expected : Expected) (found : Ty) :
    Checked Rejection := do
  emit (.mismatch kind.name field expected.text found.compact)
  return .mismatch kind field expected found

/-- Builds and logs the rejection of other contents. -/
def invalid (kind : Kind) (reason : Reason) : Checked Rejection := do
  emit (.invalid kind.name reason.text)
  return .invalid kind reason

/-- The type found in a field must be as expected. -/
def require (kind : Kind) (field : String) (expected : Expected) (found : Ty) : Check := do
  if expected.accepts found then
    return ()
  else
    refuse (← typeMismatch kind field expected found)

/-- The contents must satisfy a condition. -/
def ensure (condition : Bool) (kind : Kind) (reason : Reason) : Check := do
  if condition then
    return ()
  else
    refuse (← invalid kind reason)

end Check

end TermGraph
