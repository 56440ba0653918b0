import TermGraph.Node
import TermGraph.Text.Decimal
import TermGraph.Unfold

/-!
# The outline of a node

A node is written as the name of its kind and one line for each field, indented by two spaces a
level. A list is written as one line for each element, numbered from zero. Names are written as
they are.
-/

namespace TermGraph.Outline

open Text

/-- A node whose field lines stand at a level. -/
structure Seed where
  level : Nat
  node : Node

abbrev Items := List (Item Seed String)

/-- Starts a line at a level: what it is about, and a colon. -/
def line (level : Nat) (about : String) : Item Seed String :=
  .emit ("\n" ++ spaces (2 * level) ++ "* " ++ about ++ " : ")

/-- Elements on lines of their own at `level`, numbered from `i`. -/
def numbered (level : Nat) : Nat → Items → Items
  | _, [] => []
  | i, element :: elements => line level (decimal i) :: element :: numbered level (i + 1) elements

/-- The elements of a list below a line at `level`. -/
def list (level : Nat) (elements : Items) : Items :=
  if elements.isEmpty then [.emit "[]"] else numbered (level + 1) 0 elements

/-- A value whose line stands at `level`. -/
def value (level : Nat) : Value Ty Expr → Items
  | .bool b => [.emit (truth b)]
  | .uint n => [.emit (decimal n.toNat)]
  | .int i => [.emit (decimalInt i)]
  | .name n => [.emit n.text]
  | .names ns => list level (ns.map (.emit ·.text))
  | .type t => [.seed ⟨level + 1, .type t⟩]
  | .types ts => list level (ts.map fun t => .seed ⟨level + 2, .type t⟩)
  | .expr e => [.seed ⟨level + 1, .expr e⟩]
  | .optExpr none => [.emit "nil"]
  | .optExpr (some e) => [.seed ⟨level + 1, .expr e⟩]
  | .exprs es => list level (es.map fun e => .seed ⟨level + 2, .expr e⟩)

/-- The pieces of an outline. -/
def expand (s : Seed) : Items :=
  .emit s.node.kind.name
    :: s.node.fields.flatMap fun f => line s.level f.name :: value s.level f.value

/-- The size of the node of a seed. -/
noncomputable def size (s : Seed) : Nat :=
  s.node.size

theorem weight_numbered (level i : Nat) (elements : Items) :
    Item.weight size (numbered level i elements) = Item.weight size elements := by
  induction elements generalizing i with
  | nil => rfl
  | cons element elements ih => cases element <;> simp [numbered, Item.weight, line, ih]

theorem weight_list (level : Nat) (elements : Items) :
    Item.weight size (list level elements) = Item.weight size elements := by
  unfold list
  split
  · simp_all [Item.weight]
  · exact weight_numbered (level + 1) 0 elements

theorem weight_value (level : Nat) (v : Value Ty Expr) :
    Item.weight size (value level v) = Node.sizes v.nodes := by
  fun_cases value level v with
  | case5 ns => rw [weight_list, Item.weight_map_emit_of]; rfl
  | case7 ts =>
    rw [weight_list, Item.weight_map_seed_of]
    simp [Value.nodes, Value.heldTypes, Value.heldExprs, Node.sizes, size]
  | case11 es =>
    rw [weight_list, Item.weight_map_seed_of]
    simp [Value.nodes, Value.heldTypes, Value.heldExprs, Node.sizes, size]
  | _ => simp [Item.weight, Value.nodes, Value.heldTypes, Value.heldExprs, size]

theorem weight_expand_lt (s : Seed) : Item.weight size (expand s) < size s := by
  have inside := Node.sum_size_children_lt s.node
  have fields : Item.weight size
      (s.node.fields.flatMap fun f => line s.level f.name :: value s.level f.value) =
      Node.sizes s.node.children := by
    unfold Node.children
    induction s.node.fields with
    | nil => rfl
    | cons f fs ih => simp_all [Item.weight, line, weight_value]
  simp only [expand, Item.weight, fields, size]
  exact inside

/-- The outline as an unfolding. -/
def unfolding : Unfolding Seed String where
  expand := expand
  falls := ⟨size, weight_expand_lt⟩

end TermGraph.Outline

namespace TermGraph

/-- Appends the outline of a node, its field lines at a level, to a text. -/
def Node.outlineInto (n : Node) (level : Nat) (start : String) : String :=
  Outline.unfolding.text start [.seed ⟨level, n⟩]

/-- The outline of a node, its field lines at a level. -/
def Node.outline (n : Node) (level : Nat) : String :=
  n.outlineInto level ""

end TermGraph
