import TermGraph.Typing
import TermGraph.Visitor

/-!
# Stores

Nodes are made by a store, which numbers them, and checks the rule of their kind first. A store
keeps the log, to which checks and tables write. It can also copy a node: a copy shares nothing, not
even where the copied node shares with itself.
-/

namespace TermGraph

/-- Where nodes are made. -/
structure Store where
  hasher : Hasher := .fnv
  /-- The identity of the next node. -/
  next : Nat := 0
  /-- The events so far, oldest first. -/
  events : Array Event := #[]

namespace Store

/-- Appends to the log. -/
def log (s : Store) (events : List Event) : Store :=
  { s with events := s.events ++ events }

theorem log_nil (s : Store) : s.log [] = s := by
  simp [log]

/-- Makes a node if its check passes. What the check has logged is in the log either way. -/
def make {α : Type} (s : Store) (checked : Check) (build : Hasher → Nat → α) :
    Except Rejection α × Store :=
  let s := s.log checked.events
  match checked.outcome with
  | .ok () => (.ok (build s.hasher s.next), { s with next := s.next + 1 })
  | .error rejection => (.error rejection, s)

theorem make_of_ok {α : Type} {s : Store} {checked : Check} (h : checked.outcome = .ok ())
    (build : Hasher → Nat → α) :
    s.make checked build =
      (.ok (build s.hasher s.next), { s.log checked.events with next := s.next + 1 }) := by
  rw [make, h]
  rfl

theorem make_of_error {α : Type} {s : Store} {checked : Check} {rejection : Rejection}
    (h : checked.outcome = .error rejection) (build : Hasher → Nat → α) :
    s.make checked build = (.error rejection, s.log checked.events) := by
  rw [make, h]

/-- Makes a type if its rule holds. -/
def makeType (s : Store) (shape : TyShape Ty Expr) : Except Rejection Ty × Store :=
  s.make (Ty.check shape) fun hasher id => .build hasher id shape

/-- Makes an expression of a given result type if its rule holds. -/
def makeExpr (s : Store) (type : Ty) (shape : ExprShape Expr) : Except Rejection Expr × Store :=
  s.make (Expr.check type shape) fun hasher id => .build hasher id type shape

end Store

/-! ## Copies -/

/-- Copies that still wait for the node around them, first the one that comes first, and the
identity of the next copy. -/
structure Copies where
  next : Nat
  types : List Ty := []
  exprs : List Expr := []

namespace Copies

/-- Takes the copy of a type. -/
def takeType (t : Ty) : StateM Copies Ty := do
  match (← get).types with
  | copy :: rest => do
    modify fun c => { c with types := rest }
    return copy
  -- never: what is inside a node is copied before the node
  | [] => return t

/-- Takes the copy of an expression. -/
def takeExpr (e : Expr) : StateM Copies Expr := do
  match (← get).exprs with
  | copy :: rest => do
    modify fun c => { c with exprs := rest }
    return copy
  | [] => return e

/-- Puts the copies of what is inside a node back together under a new identity. The digest and the
flags depend on the contents alone and are kept. -/
def assemble (n : Node) (copies : Copies) : Copies :=
  match n with
  | .type t =>
    let (shape, rest) := (t.shape.traverse takeType takeExpr).run copies
    { rest with next := rest.next + 1, types := .node rest.next t.digest shape :: rest.types }
  | .expr e =>
    -- the walk visits the result type after the operands
    let (shape, rest) := (e.shape.traverse takeExpr).run copies
    let (type, rest) := (takeType e.type).run rest
    { rest with
      next := rest.next + 1
      exprs := .node rest.next e.digest e.flags type shape :: rest.exprs }

/-- Copies every visit of the walk from a node, the last visit first. -/
def ofNode (next : Nat) (n : Node) : Copies :=
  n.visits.foldr assemble { next }

end Copies

namespace Store

/-- A copy of a type in which every visit became a new node. -/
def copyType (s : Store) (t : Ty) : Ty × Store :=
  let copies := Copies.ofNode s.next (.type t)
  (copies.types.headD t, { s with next := copies.next })

/-- A copy of an expression in which every visit became a new node. -/
def copyExpr (s : Store) (e : Expr) : Expr × Store :=
  let copies := Copies.ofNode s.next (.expr e)
  (copies.exprs.headD e, { s with next := copies.next })

end Store

end TermGraph
