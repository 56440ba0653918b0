import TermGraph.Proofs.Tree
import TermGraph.Visitor

/-!
# Everything inside a node

A visitor records something before and after what it records inside, child by child
(`Visitor.walk_eq`). The full walk visits a node and then everything inside (`Node.visits_eq`). What
it visits is therefore all that can be reached from the node by going to children again and again,
and `m ∈ n.visits` is how "`m` occurs anywhere inside `n`" is said in this library.

The second half brings trees in: the trees of a node's children are the children of its tree
(`Node.children_tree`).
-/

namespace TermGraph

-- ---------------------------------------------------------------------------
-- The walk
-- ---------------------------------------------------------------------------

/-- Nodes that wait give what each of them yields, one after the other. -/
theorem Unfolding.flatten_map_seed {σ ω : Type} (u : Unfolding σ ω) (ss : List σ) :
    u.flatten (ss.map .seed) = ss.flatMap u.yield := by
  induction ss with
  | nil => simp
  | cons s ss ih => rw [List.map_cons, Unfolding.flatten_seed_cons, ih, List.flatMap_cons]

/-- What was recorded stands as it is. -/
theorem Unfolding.flatten_map_emit {σ ω : Type} (u : Unfolding σ ω) (ws : List ω) :
    u.flatten (ws.map .emit) = ws := by
  induction ws with
  | nil => simp
  | cons w ws ih => rw [List.map_cons, Unfolding.flatten_emit, ih]

/-- A walk records what the visitor says of the node itself around what it records inside. -/
theorem Visitor.walk_eq {ω : Type} (v : Visitor ω) (n : Node) :
    v.walk n = (v.visit n).before ++
      (if (v.visit n).descend then n.children.flatMap v.walk else []) ++ (v.visit n).after := by
  have hInside : v.unfolding.flatten (if (v.visit n).descend then n.children.map .seed else []) =
      if (v.visit n).descend then n.children.flatMap v.walk else [] := by
    split
    · exact v.unfolding.flatten_map_seed n.children
    · exact v.unfolding.flatten_nil
  rw [walk, Unfolding.yield_eq_flatten_expand]
  change v.unfolding.flatten (v.expand n) = _
  rw [expand, Unfolding.flatten_append, Unfolding.flatten_append, Unfolding.flatten_map_emit,
    Unfolding.flatten_map_emit, hInside]

/-- A visitor that records on the way in records the node first, and then what is inside unless it
stops there. -/
theorem Visitor.walk_preorder (stop : Node → Bool) (n : Node) :
    (preorder stop).walk n =
      n :: if stop n then [] else n.children.flatMap (preorder stop).walk := by
  have hVisit : (preorder stop).visit n = { before := [n], descend := !stop n } := by
    cases n <;> rfl
  rw [walk_eq, hVisit]
  cases stop n <;> simp

/-- A visitor that records on the way back records the node last. -/
theorem Visitor.walk_postorder (stop : Node → Bool) (n : Node) :
    (postorder stop).walk n =
      (if stop n then [] else n.children.flatMap (postorder stop).walk) ++ [n] := by
  have hVisit : (postorder stop).visit n = { descend := !stop n, after := [n] } := by
    cases n <;> rfl
  rw [walk_eq, hVisit]
  cases stop n <;> simp

namespace Node

/-- The full walk visits a node and then all that is inside, child by child. -/
theorem visits_eq (n : Node) : n.visits = n :: n.children.flatMap visits :=
  Visitor.walk_preorder _ n

theorem mem_visits_self (n : Node) : n ∈ n.visits := by
  rw [visits_eq]
  exact List.mem_cons_self

/-- What occurs in a node is the node or occurs in one of its children. -/
theorem mem_visits_iff {m n : Node} : m ∈ n.visits ↔ m = n ∨ ∃ c ∈ n.children, m ∈ c.visits := by
  rw [visits_eq, List.mem_cons, List.mem_flatMap]

/-- What is directly inside a node occurs in it. -/
theorem mem_visits_of_mem_children {c n : Node} (h : c ∈ n.children) : c ∈ n.visits :=
  mem_visits_iff.mpr (.inr ⟨c, h, mem_visits_self c⟩)

/-- What occurs in a node that occurs in a third occurs in the third. -/
theorem mem_visits_trans {k m n : Node} (hkm : k ∈ m.visits) (hmn : m ∈ n.visits) :
    k ∈ n.visits := by
  induction n using induction_children with
  | step n ih =>
    rcases mem_visits_iff.mp hmn with rfl | ⟨c, hc, hmc⟩
    · exact hkm
    · exact mem_visits_iff.mpr (.inr ⟨c, hc, ih c hc hmc⟩)

-- The children of one category, in order. A walk meets both categories; the typing rules and the
-- copies look at one at a time.

/-- The types among the nodes in some fields are the types that the values hold. -/
theorem filterMap_asType_fields (fs : List (Field Ty Expr)) :
    (fs.flatMap (·.value.nodes)).filterMap asType? = fs.flatMap (·.value.heldTypes) := by
  induction fs with
  | nil => rfl
  | cons f fs ih =>
    have hOwn : f.value.nodes.filterMap asType? = f.value.heldTypes := by
      simp [Value.nodes, List.filterMap_map, Function.comp_def, asType?]
    rw [List.flatMap_cons, List.filterMap_append, hOwn, ih, List.flatMap_cons]

/-- The expressions among the nodes in some fields are the expressions that the values hold. -/
theorem filterMap_asExpr_fields (fs : List (Field Ty Expr)) :
    (fs.flatMap (·.value.nodes)).filterMap asExpr? = fs.flatMap (·.value.heldExprs) := by
  induction fs with
  | nil => rfl
  | cons f fs ih =>
    have hOwn : f.value.nodes.filterMap asExpr? = f.value.heldExprs := by
      simp [Value.nodes, List.filterMap_map, Function.comp_def, asExpr?]
    rw [List.flatMap_cons, List.filterMap_append, hOwn, ih, List.flatMap_cons]

/-- The types among the children of a type are those that its shape has. -/
theorem types_children_type (t : Ty) :
    (Node.type t).children.filterMap asType? = t.shape.types :=
  filterMap_asType_fields t.fields

/-- The expressions among the children of a type are those that its shape has. -/
theorem exprs_children_type (t : Ty) :
    (Node.type t).children.filterMap asExpr? = t.shape.exprs :=
  filterMap_asExpr_fields t.fields

/-- The only type among the children of an expression is its result type. -/
theorem types_children_expr (e : Expr) :
    (Node.expr e).children.filterMap asType? = [e.type] := by
  rw [children, filterMap_asType_fields]
  simp only [fields, Expr.fields, Expr.ownFields, List.flatMap_append,
    ExprShape.flatMap_heldTypes]
  rfl

/-- The expressions among the children of an expression are its operands. -/
theorem exprs_children_expr (e : Expr) :
    (Node.expr e).children.filterMap asExpr? = e.operands := by
  rw [children, filterMap_asExpr_fields]
  simp only [fields, Expr.fields, Expr.ownFields, List.flatMap_append,
    ExprShape.flatMap_heldExprs]
  simp [Value.heldExprs, Expr.operands]

/-- A type is among the types of a list of nodes if and only if it is a node of the list. -/
theorem mem_asType_iff {ns : List Node} {t : Ty} : t ∈ ns.filterMap asType? ↔ .type t ∈ ns := by
  rw [List.mem_filterMap]
  constructor
  · rintro ⟨n, hn, h⟩
    cases n with
    | type u => exact Option.some.inj h ▸ hn
    | expr e => cases h
  · intro h
    exact ⟨.type t, h, rfl⟩

/-- An expression is among the expressions of a list of nodes if and only if it is a node of the
list. -/
theorem mem_asExpr_iff {ns : List Node} {e : Expr} : e ∈ ns.filterMap asExpr? ↔ .expr e ∈ ns := by
  rw [List.mem_filterMap]
  constructor
  · rintro ⟨n, hn, h⟩
    cases n with
    | type u => cases h
    | expr d => exact Option.some.inj h ▸ hn
  · intro h
    exact ⟨.expr e, h, rfl⟩

/-- A type inside a type is one that its shape has. -/
theorem type_mem_children_type {a t : Ty} :
    .type t ∈ (Node.type a).children ↔ t ∈ a.shape.types := by
  rw [← mem_asType_iff, types_children_type]

/-- An expression inside a type is one that its shape has. -/
theorem expr_mem_children_type {a : Ty} {e : Expr} :
    .expr e ∈ (Node.type a).children ↔ e ∈ a.shape.exprs := by
  rw [← mem_asExpr_iff, exprs_children_type]

/-- The type inside an expression is its result type. -/
theorem type_mem_children_expr {a : Expr} {t : Ty} :
    .type t ∈ (Node.expr a).children ↔ t = a.type := by
  rw [← mem_asType_iff, types_children_expr, List.mem_singleton]

/-- An expression inside an expression is an operand. -/
theorem expr_mem_children_expr {a e : Expr} :
    .expr e ∈ (Node.expr a).children ↔ e ∈ a.operands := by
  rw [← mem_asExpr_iff, exprs_children_expr]

/-- A list of nodes is given by its types, its expressions, and which places are expressions. -/
theorem eq_of_categories {ms ns : List Node} (hPlaces : ms.map isExpr = ns.map isExpr)
    (hTypes : ms.filterMap asType? = ns.filterMap asType?)
    (hExprs : ms.filterMap asExpr? = ns.filterMap asExpr?) : ms = ns := by
  induction ms generalizing ns with
  | nil => exact (List.map_eq_nil_iff.mp hPlaces.symm).symm
  | cons m ms ih =>
    cases ns with
    | nil => cases hPlaces
    | cons n ns =>
      rw [List.map_cons, List.map_cons, List.cons.injEq] at hPlaces
      obtain ⟨hPlace, hPlaces⟩ := hPlaces
      cases m with
      | type t =>
        cases n with
        | type u =>
          simp only [List.filterMap_cons, asType?, asExpr?, List.cons.injEq] at hTypes hExprs
          rw [hTypes.1, ih hPlaces hTypes.2 hExprs]
        | expr e => cases hPlace
      | expr e =>
        cases n with
        | type u => cases hPlace
        | expr d =>
          simp only [List.filterMap_cons, asType?, asExpr?, List.cons.injEq] at hTypes hExprs
          rw [hExprs.1, ih hPlaces hTypes hExprs.2]

end Node

-- ---------------------------------------------------------------------------
-- Trees of either category
-- ---------------------------------------------------------------------------

/-- The trees of a category. -/
@[reducible] def Category.TreeOf : Category → Type
  | .type => TyTree
  | .expr => ExprTree

/-- The tree of a node of a category. -/
@[reducible] def Category.tree : (c : Category) → c.Carrier → c.TreeOf
  | .type => Ty.tree
  | .expr => Expr.tree

/-- A type or an expression without identities. -/
inductive Tree where
  | type (t : TyTree)
  | expr (e : ExprTree)

namespace Tree

def isExpr : Tree → Bool
  | .type _ => false
  | .expr _ => true

/-- The field table of a tree, which is that of its nodes; the result type comes last. -/
def fields : Tree → List (Field TyTree ExprTree)
  | .type t => t.shape.fields
  | .expr e => e.shape.fields ++ [⟨"type", .type e.type⟩]

/-- The trees directly inside a tree, in field order. -/
def children (t : Tree) : List Tree :=
  t.fields.flatMap fun f => f.value.heldTypes.map .type ++ f.value.heldExprs.map .expr

end Tree

namespace Node

/-- What is left of a node when identities, digests and flags are forgotten. -/
def tree : Node → Tree
  | .type t => .type t.tree
  | .expr e => .expr e.tree

@[simp] theorem isExpr_tree (n : Node) : n.tree.isExpr = n.isExpr := by
  cases n <;> rfl

/-- The field table of the tree is that of the node, with trees in the places of nodes. -/
theorem fields_tree (n : Node) : n.tree.fields = n.fields.map (Field.map Ty.tree Expr.tree) := by
  cases n with
  | type t => simp [tree, Tree.fields, fields, Ty.fields]
  | expr e =>
    simp only [tree, Tree.fields, Expr.shape_tree, Expr.type_tree, fields, Expr.fields,
      Expr.ownFields, List.map_append, List.map_cons, List.map_nil,
      ExprShape.fields_map Ty.tree Expr.tree]
    rfl

/-- The trees directly inside the tree of a node are the trees of its children, in order. -/
theorem children_tree (n : Node) : n.tree.children = n.children.map tree := by
  rw [Tree.children, fields_tree, children, List.flatMap_map, List.map_flatMap]
  congr 1
  funext f
  simp [Field.map, Value.nodes, tree, Function.comp_def]

end Node

end TermGraph
