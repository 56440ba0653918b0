import TermGraph.Node
import TermGraph.Unfold
import Std.Data.HashSet

/-!
# Visitors

A visitor says, for each node it meets, what it records before and after the nodes inside and
whether it looks inside at all. The walk meets the nodes inside a node in field order, so that the
result type of an expression comes after its operands and the size of an array after its elements.
-/

namespace TermGraph

/-- What a visitor does at one node. -/
structure Visit (ω : Type) where
  before : List ω := []
  descend : Bool := true
  after : List ω := []

/-- A visitor that records values of type `ω`. Where it says nothing of a category it passes through
and records nothing. -/
structure Visitor (ω : Type) where
  onType : Ty → Visit ω := fun _ => {}
  onExpr : Expr → Visit ω := fun _ => {}

namespace Visitor

variable {ω : Type}

def visit (v : Visitor ω) : Node → Visit ω
  | .type t => v.onType t
  | .expr e => v.onExpr e

/-- The steps of a visitor at one node. -/
def expand (v : Visitor ω) (n : Node) : List (Item Node ω) :=
  let visit := v.visit n
  visit.before.map .emit ++ (if visit.descend then n.children.map .seed else [])
    ++ visit.after.map .emit

theorem weight_expand_lt (v : Visitor ω) (n : Node) :
    Item.weight Node.size (v.expand n) < n.size := by
  have inside := Node.sum_size_children_lt n
  simp only [Node.sizes] at inside
  simp only [expand, Item.weight_append, Item.weight_map_emit]
  split
  · simpa using inside
  · simp only [Item.weight]
    omega

/-- The walk of a visitor. -/
def unfolding (v : Visitor ω) : Unfolding Node ω where
  expand := v.expand
  falls := ⟨Node.size, v.weight_expand_lt⟩

/-- Walks from a node and gives what was recorded, in order. -/
def walk (v : Visitor ω) (n : Node) : List ω :=
  v.unfolding.yield n

/-- Records every node before the nodes inside it; does not look inside nodes where `stop` holds. -/
def preorder (stop : Node → Bool) : Visitor Node where
  onType t := { before := [.type t], descend := !stop (.type t) }
  onExpr e := { before := [.expr e], descend := !stop (.expr e) }

/-- Records every node after the nodes inside it; does not look inside nodes where `stop` holds. -/
def postorder (stop : Node → Bool) : Visitor Node where
  onType t := { descend := !stop (.type t), after := [.type t] }
  onExpr e := { descend := !stop (.expr e), after := [.expr e] }

/-- Records expressions only. -/
def exprs : Visitor Expr where
  onExpr e := { before := [e] }

/-- Records types only. -/
def types : Visitor Ty where
  onType t := { before := [t] }

end Visitor

/-- Every visit of the full walk from a node, in preorder. A node that is reached in two ways is
visited twice. -/
def Node.visits (n : Node) : List Node :=
  (Visitor.preorder fun _ => false).walk n

/-- The identities of the nodes reached from a node, itself included. -/
def Node.reachable (n : Node) : Std.HashSet Nat :=
  Std.HashSet.ofList (n.visits.map Node.id)

/-- The number of nodes that are reached from both. -/
def Node.sharedCount (m n : Node) : Nat :=
  (m.reachable.filter n.reachable.contains).size

end TermGraph
