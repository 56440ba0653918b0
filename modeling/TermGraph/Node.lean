import TermGraph.Digest
import TermGraph.Field
import TermGraph.Flags
import TermGraph.Total

/-!
# Nodes

Types and expressions are immutable nodes. A node carries its identity, a number that no other
node has, and a digest of its contents; an expression also carries its flags. Because a type may
hold an expression, the size of an array, the two categories are defined together.

Main statement: the nodes directly inside a node are together smaller than it
(`Node.sum_size_children_lt`), which is why every walk over nodes ends and why facts about nodes can
be proved from the inside out (`Node.induction_children`).
-/

namespace TermGraph

mutual

/-- A type. -/
inductive Ty where
  | node (id : Nat) (digest : Digest) (shape : TyShape Ty Expr)

/-- An expression with its result type. -/
inductive Expr where
  | node (id : Nat) (digest : Digest) (flags : Flags) (type : Ty) (shape : ExprShape Expr)

end

namespace Ty

def id : Ty → Nat
  | .node id _ _ => id

/-- The digest computed when the type was built. -/
def digest : Ty → Digest
  | .node _ digest _ => digest

def shape : Ty → TyShape Ty Expr
  | .node _ _ shape => shape

def kind (t : Ty) : TypeKind :=
  t.shape.kind

def fields (t : Ty) : List (Field Ty Expr) :=
  t.shape.fields

/-- The value of the field of that name. -/
def field? (t : Ty) (name : String) : Option (Value Ty Expr) :=
  (t.fields.find? (·.name == name)).map (·.value)

end Ty

namespace Expr

def id : Expr → Nat
  | .node id _ _ _ _ => id

/-- The digest computed when the expression was built. -/
def digest : Expr → Digest
  | .node _ digest _ _ _ => digest

/-- The flags computed when the expression was built. -/
def flags : Expr → Flags
  | .node _ _ flags _ _ => flags

/-- The result type. -/
def type : Expr → Ty
  | .node _ _ _ type _ => type

def shape : Expr → ExprShape Expr
  | .node _ _ _ _ shape => shape

def kind (e : Expr) : ExprKind :=
  e.shape.kind

/-- The fields of the expression's kind, its result type left out. -/
def ownFields (e : Expr) : List (Field Ty Expr) :=
  e.shape.fields

/-- All fields; the result type comes last. -/
def fields (e : Expr) : List (Field Ty Expr) :=
  e.ownFields ++ [⟨"type", .type e.type⟩]

/-- The value of the field of that name. -/
def field? (e : Expr) (name : String) : Option (Value Ty Expr) :=
  (e.fields.find? (·.name == name)).map (·.value)

def operands (e : Expr) : List Expr :=
  e.shape.operands

end Expr

/-! ## Building nodes -/

namespace Value

/-- A value as digest tokens; a node inside counts by its digest. -/
def tokens (v : Value Ty Expr) : List Token :=
  .number v.rank :: match v with
    | .bool b => [.number b.toNat]
    | .uint n => [.number n.toNat]
    | .int i => [.integer i]
    | .name n => [.text n.text]
    | .names ns => .number ns.length :: ns.map (.text ·.text)
    | .type t => [.digest t.digest]
    | .types ts => .number ts.length :: ts.map (.digest ·.digest)
    | .expr e => [.digest e.digest]
    | .optExpr none => [.number 0]
    | .optExpr (some e) => [.number 1, .digest e.digest]
    | .exprs es => .number es.length :: es.map (.digest ·.digest)

end Value

/-- The type of a given shape under a new identity. -/
def Ty.build (hasher : Hasher) (id : Nat) (shape : TyShape Ty Expr) : Ty :=
  .node id (hasher.digest (.number shape.kind.rank :: shape.fields.flatMap (·.value.tokens))) shape

/-- The expression of a given type and shape under a new identity. -/
def Expr.build (hasher : Hasher) (id : Nat) (type : Ty) (shape : ExprShape Expr) : Expr :=
  let own : List (Field Ty Expr) := shape.fields
  .node id
    (hasher.digest (.number shape.kind.rank :: .digest type.digest :: own.flatMap (·.value.tokens)))
    (Flags.compute shape.kind (shape.operands.map Expr.flags)) type shape

/-! ## Nodes of either category -/

/-- A type or an expression. -/
inductive Node where
  | type (t : Ty)
  | expr (e : Expr)

/-- Types or expressions. -/
inductive Category where
  | type
  | expr
deriving DecidableEq, Repr

namespace Category

/-- The nodes of a category. -/
@[reducible] def Carrier : Category → Type
  | .type => Ty
  | .expr => Expr

/-- A node of a category among all nodes. -/
@[reducible] def node : (c : Category) → c.Carrier → Node
  | .type, t => .type t
  | .expr, e => .expr e

end Category

/-- The nodes directly inside a value. -/
def Value.nodes (v : Value Ty Expr) : List Node :=
  v.heldTypes.map .type ++ v.heldExprs.map .expr

@[simp] theorem Value.nodes_type (t : Ty) : (Value.type t).nodes = [.type t] := rfl

namespace Node

def id : Node → Nat
  | .type t => t.id
  | .expr e => e.id

def kind : Node → Kind
  | .type t => .type t.kind
  | .expr e => .expr e.kind

def fields : Node → List (Field Ty Expr)
  | .type t => t.fields
  | .expr e => e.fields

def isExpr : Node → Bool
  | .type _ => false
  | .expr _ => true

def asType? : Node → Option Ty
  | .type t => some t
  | .expr _ => none

def asExpr? : Node → Option Expr
  | .type _ => none
  | .expr e => some e

/-- The node as one of a category, if it is. -/
def as? (n : Node) : (c : Category) → Option c.Carrier
  | .type => n.asType?
  | .expr => n.asExpr?

/-- The nodes directly inside a node, in field order. -/
def children (n : Node) : List Node :=
  n.fields.flatMap (·.value.nodes)

/-! ## A size that shrinks from a node to its children -/

/-- A measure of the tree below a node. -/
noncomputable def size : Node → Nat
  | .type t => sizeOf t
  | .expr e => sizeOf e

/-- The sizes of some nodes added up. -/
noncomputable def sizes (ns : List Node) : Nat :=
  total size ns

@[simp] theorem sizes_nil : sizes [] = 0 := rfl

@[simp] theorem sizes_cons (n : Node) (ns : List Node) : sizes (n :: ns) = n.size + sizes ns := rfl

@[simp] theorem sizes_append (ms ns : List Node) : sizes (ms ++ ns) = sizes ms + sizes ns :=
  total_append size ms ns

theorem sizes_map_type_le (ts : List Ty) : sizes (ts.map .type) ≤ sizeOf ts := by
  induction ts with
  | nil => simp
  | cons t ts ih => simp [size]; omega

theorem sizes_map_expr_le (es : List Expr) : sizes (es.map .expr) ≤ sizeOf es := by
  induction es with
  | nil => simp
  | cons e es ih => simp [size]; omega

theorem sizes_option_le (e : Option Expr) : sizes (e.toList.map .expr) ≤ sizeOf e := by
  cases e with
  | none => simp
  | some e => simp [size]

/-- What is inside a type is smaller than the type. -/
theorem sizes_fields_type (shape : TyShape Ty Expr) :
    sizes (shape.fields.flatMap (·.value.nodes)) ≤ sizeOf shape := by
  cases shape with
  | aggregate form members names name =>
    have := sizes_map_type_le members
    simp [TyShape.fields, Value.nodes, Value.heldTypes, Value.heldExprs]
    omega
  | code arguments result names ellipsis =>
    have := sizes_map_type_le arguments
    simp [TyShape.fields, Value.nodes, Value.heldTypes, Value.heldExprs, size]
    omega
  | array element length infinite =>
    have := sizes_option_le length
    simp [TyShape.fields, Value.nodes, Value.heldTypes, Value.heldExprs, size]
    omega
  | cppName name arguments =>
    have := sizes_map_type_le arguments
    simp [TyShape.fields, Value.nodes, Value.heldTypes, Value.heldExprs]
    omega
  | _ => simp [TyShape.fields, Value.nodes, Value.heldTypes, Value.heldExprs, size]

/-- What is inside an expression, its result type apart, is smaller than the expression. -/
theorem sizes_fields_expr (shape : ExprShape Expr) :
    sizes ((shape.fields : List (Field Ty Expr)).flatMap (·.value.nodes)) ≤ sizeOf shape := by
  cases shape with
  | constantStruct members =>
    have := sizes_map_expr_le members
    simp [ExprShape.fields, Value.nodes, Value.heldTypes, Value.heldExprs]
    omega
  | constantUnion members initField =>
    have := sizes_map_expr_le members
    simp [ExprShape.fields, Value.nodes, Value.heldTypes, Value.heldExprs]
    omega
  | constantArray members =>
    have := sizes_map_expr_le members
    simp [ExprShape.fields, Value.nodes, Value.heldTypes, Value.heldExprs]
    omega
  | _ =>
    simp [ExprShape.fields, Value.nodes, Value.heldTypes, Value.heldExprs, size]
    try omega

theorem sum_size_children_lt (n : Node) : sizes n.children < n.size := by
  cases n with
  | type t =>
    obtain ⟨id, digest, shape⟩ := t
    have := sizes_fields_type shape
    simp only [children, fields, Ty.fields, Ty.shape, size, Ty.node.sizeOf_spec]
    omega
  | expr e =>
    obtain ⟨id, digest, flags, type, shape⟩ := e
    have := sizes_fields_expr shape
    simp only [children, fields, Expr.fields, Expr.ownFields, Expr.shape, Expr.type, size,
      List.flatMap_append, List.flatMap_cons, List.flatMap_nil, Value.nodes_type, sizes_append,
      sizes_cons, sizes_nil, Expr.node.sizeOf_spec]
    omega

/-- A node is larger than each node directly inside it. -/
theorem size_lt_of_mem_children {n c : Node} (h : c ∈ n.children) : c.size < n.size := by
  have inside := sum_size_children_lt n
  have part : ∀ ns : List Node, c ∈ ns → c.size ≤ sizes ns := by
    intro ns hc
    induction ns with
    | nil => cases hc
    | cons m ns ih =>
      rw [sizes_cons]
      rcases List.mem_cons.mp hc with rfl | hc
      · omega
      · have := ih hc
        omega
  exact Nat.lt_of_le_of_lt (part n.children h) inside

/-- What holds of a node whenever it holds of the nodes directly inside it holds of all nodes. -/
theorem induction_children {motive : Node → Prop}
    (step : ∀ n, (∀ c ∈ n.children, motive c) → motive n) (n : Node) : motive n :=
  step n fun c _ => induction_children step c
termination_by n.size
decreasing_by exact size_lt_of_mem_children ‹_›

end Node

end TermGraph
