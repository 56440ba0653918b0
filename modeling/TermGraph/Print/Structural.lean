import TermGraph.Node
import TermGraph.Text.Decimal
import TermGraph.Text.Quoted
import TermGraph.Unfold

/-!
# The structural text of a node

A node is written as the name of its kind and its fields between braces, a value as the label of
its sort around its contents, a list between brackets, a name in quotes. The text comes in two
layouts: on one line, or with every part on a line of its own, indented by four spaces a level and
followed by a comma.
-/

namespace TermGraph

/-- How the parts of a structural text are set out. -/
inductive Layout where
  | line
  | block
deriving DecidableEq, Repr

namespace Structural

open Text

/-- A node whose closing brace stands at a level. -/
structure Seed where
  level : Nat
  node : Node

abbrev Items := List (Item Seed String)

/-- Some parts between two delimiters, the closing one at `level`. On one line the parts are
separated by commas and `pad` stands inside the delimiters. -/
def group (layout : Layout) (level : Nat) (opening closing pad : String) (parts : List Items) :
    Items :=
  match layout with
  | .line => .emit (opening ++ pad) :: [.emit ", "].intercalate parts ++ [.emit (pad ++ closing)]
  | .block =>
    -- every part has a line of its own, one level further in
    .emit (opening ++ "\n")
      :: parts.flatMap (fun part => .emit (spaces (4 * (level + 1))) :: part ++ [.emit ",\n"])
      ++ [.emit (spaces (4 * level) ++ closing)]

/-- A label around one part. -/
def labelled (layout : Layout) (level : Nat) (label : String) (part : Items) : Items :=
  group layout level (label ++ "(") ")" "" [part]

/-- A list of parts. -/
def list (layout : Layout) (level : Nat) (parts : List Items) : Items :=
  if parts.isEmpty then [.emit "[]"] else group layout level "[" "]" "" parts

/-- A name stays on one line in either layout. -/
def name (n : Name) : String :=
  "Name(" ++ quoted n.text ++ ")"

/-- The contents of a value whose closing parenthesis stands at `level - 1`. -/
def contents (layout : Layout) (level : Nat) : Value Ty Expr → Items
  | .bool b => [.emit (truth b)]
  | .uint n => [.emit (decimal n.toNat)]
  | .int i => [.emit (decimalInt i)]
  | .name n => [.emit (name n)]
  | .names ns => list layout level (ns.map fun n => [.emit (name n)])
  | .type t => [.seed ⟨level, .type t⟩]
  | .types ts => list layout level (ts.map fun t => [.seed ⟨level + 1, .type t⟩])
  | .expr e => [.seed ⟨level, .expr e⟩]
  | .optExpr none => [.emit "None"]
  | .optExpr (some e) => labelled layout level "Some" [.seed ⟨level + 1, .expr e⟩]
  | .exprs es => list layout level (es.map fun e => [.seed ⟨level + 1, .expr e⟩])

/-- A value whose closing parenthesis stands at `level`. -/
def value (layout : Layout) (level : Nat) (v : Value Ty Expr) : Items :=
  labelled layout level v.label (contents layout (level + 1) v)

/-- The pieces of a structural text. A node without fields is its kind's name alone. -/
def expand (layout : Layout) (s : Seed) : Items :=
  if s.node.fields.isEmpty then [.emit s.node.kind.name]
  else
    group layout s.level (s.node.kind.name ++ " \x7b") "\x7d" " "
      (s.node.fields.map fun f => .emit (f.name ++ ": ") :: value layout (s.level + 1) f.value)

/-- The size of the node of a seed. -/
noncomputable def size (s : Seed) : Nat :=
  s.node.size

theorem weight_group (layout : Layout) (level : Nat) (opening closing pad : String)
    (parts : List Items) :
    Item.weight size (group layout level opening closing pad parts) =
      total (Item.weight size) parts := by
  cases layout with
  | line =>
    have joined : Item.weight size ([.emit ", "].intercalate parts : Items) =
        total (Item.weight size) parts := by
      induction parts with
      | nil => rfl
      | cons part parts ih =>
        cases parts with
        | nil => simp [List.intercalate]
        | cons next parts =>
          change Item.weight size (part ++ ([.emit ", "] ++ [.emit ", "].intercalate (next :: parts)))
            = _
          simp only [Item.weight_append, Item.weight, ih, total_cons]
          omega
    simp [group, Item.weight, joined]
  | block =>
    simp [group, Item.weight, Item.weight_flatMap]

theorem weight_labelled (layout : Layout) (level : Nat) (label : String) (part : Items) :
    Item.weight size (labelled layout level label part) = Item.weight size part := by
  simp [labelled, weight_group]

theorem weight_list (layout : Layout) (level : Nat) (parts : List Items) :
    Item.weight size (list layout level parts) = total (Item.weight size) parts := by
  unfold list
  split
  · simp_all [Item.weight]
  · exact weight_group ..

theorem sum_weight_names (ns : List Name) :
    total (Item.weight size) (ns.map fun n => ([.emit (name n)] : Items)) = 0 := by
  induction ns with
  | nil => rfl
  | cons n ns ih => simp only [List.map_cons, total_cons, Item.weight, ih, Nat.add_zero]

theorem weight_contents (layout : Layout) (level : Nat) (v : Value Ty Expr) :
    Item.weight size (contents layout level v) = Node.sizes v.nodes := by
  fun_cases contents layout level v with
  | case5 ns => rw [weight_list, sum_weight_names]; rfl
  | _ =>
    simp [weight_list, weight_labelled, Item.weight, Value.nodes, Value.heldTypes,
      Value.heldExprs, size, Node.sizes]

theorem weight_value (layout : Layout) (level : Nat) (v : Value Ty Expr) :
    Item.weight size (value layout level v) = Node.sizes v.nodes := by
  rw [value, weight_labelled, weight_contents]

theorem weight_expand_lt (layout : Layout) (s : Seed) :
    Item.weight size (expand layout s) < size s := by
  have inside := Node.sum_size_children_lt s.node
  have fields : total (Item.weight size) (s.node.fields.map fun f =>
      .emit (f.name ++ ": ") :: value layout (s.level + 1) f.value) =
        Node.sizes s.node.children := by
    unfold Node.children
    induction s.node.fields with
    | nil => rfl
    | cons f fs ih => simp_all [Item.weight, weight_value]
  unfold expand
  split
  · simp only [Item.weight, size]
    omega
  · rw [weight_group, fields]
    exact inside

/-- The structural text as an unfolding. -/
def unfolding (layout : Layout) : Unfolding Seed String where
  expand := expand layout
  falls := ⟨size, weight_expand_lt layout⟩

/-- The structural text of a value on one line. -/
def ofValue (v : Value Ty Expr) : String :=
  (unfolding .line).text "" (value .line 0 v)

end Structural

/-- The structural text of a node. -/
def Node.structural (n : Node) (layout : Layout) : String :=
  (Structural.unfolding layout).text "" [.seed ⟨0, n⟩]

end TermGraph
