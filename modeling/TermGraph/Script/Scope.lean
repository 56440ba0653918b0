import TermGraph.Store
import Std.Data.HashMap

/-!
# Scopes

A script gives names to what it makes. A scope says what the names in a spec stand for, and how a
spec or a step can fail.
-/

namespace TermGraph

namespace Category

def name : Category → String
  | .type => "type"
  | .expr => "expr"

def ofName? : String → Option Category
  | "type" => some .type
  | "expr" => some .expr
  | _ => none

end Category

/-- A way to reach a table. -/
structure Handle where
  category : Category
  /-- The position of the table among all tables of the session. -/
  index : Nat
  /-- Other handles to the same table may be made. -/
  shared : Bool
deriving Repr

/-- What a name stands for. -/
inductive Slot where
  | type (t : Ty)
  | expr (e : Expr)
  | table (handle : Handle)

/-- The node that a name stands for. -/
def Slot.node? : Slot → Option Node
  | .type t => some (.type t)
  | .expr e => some (.expr e)
  | .table _ => none

def Slot.ofNode : Node → Slot
  | .type t => .type t
  | .expr e => .expr e

/-- Why there is no result. -/
inductive Failure where
  /-- The request has no meaning. -/
  | malformed
  /-- Nothing has that name. -/
  | unbound (name : String)
  /-- What has that name is not of the category that the spec needs. -/
  | wrongCategory (name : String)
  /-- A node was not built. -/
  | rejected (rejection : Rejection)

abbrev Slots := Std.HashMap String Slot

/-- What the names in a spec stand for. -/
structure Scope where
  slots : Slots := {}
  /-- The node made last in a chain, which goes by the name `_`. -/
  last : Option Node := none
  /-- The position in a chain, from one; zero outside. -/
  index : Nat := 0

namespace Scope

def find? (scope : Scope) (name : String) : Option Slot :=
  match scope.last with
  | some n => if name == "_" then some (.ofNode n) else scope.slots.get? name
  | none => scope.slots.get? name

end Scope

/-- Making nodes, which may fail. -/
abbrev Build := ExceptT Failure (StateM Store)

namespace Build

def malformed {α : Type} : Build α :=
  throw .malformed

/-- What was read, unless reading failed. -/
def expect {α : Type} : Option α → Build α
  | some a => pure a
  | none => malformed

def makeType (shape : TyShape Ty Expr) : Build Ty := do
  match ← modifyGet fun store => store.makeType shape with
  | .ok t => return t
  | .error rejection => throw (.rejected rejection)

def makeExpr (type : Ty) (shape : ExprShape Expr) : Build Expr := do
  match ← modifyGet fun store => store.makeExpr type shape with
  | .ok e => return e
  | .error rejection => throw (.rejected rejection)

/-- The type of that name. -/
def slotType (scope : Scope) (name : String) : Build Ty :=
  match scope.find? name with
  | some (.type t) => pure t
  | some _ => throw (.wrongCategory name)
  | none => throw (.unbound name)

/-- The expression of that name. -/
def slotExpr (scope : Scope) (name : String) : Build Expr :=
  match scope.find? name with
  | some (.expr e) => pure e
  | some _ => throw (.wrongCategory name)
  | none => throw (.unbound name)

end Build

end TermGraph
