import TermGraph.Node

/-!
# Trees

A tree is what is left of a node when identities, digests and flags are forgotten: its kind and its
contents, all the way down. Two nodes are *the same* if they have the same tree, whatever they
share. The order of nodes, the typing rules and the summaries kept in nodes are all about trees, so
this is where the specifications of the library live.

* `TyShape.map`, `ExprShape.map`, `Value.map` replace the nodes in one level; the field table
  commutes with them (`TyShape.fields_map`, `ExprShape.fields_map`).
* `TyTree`, `ExprTree` are the trees, `Ty.tree` and `Expr.tree` the trees of nodes.
* `TyTree.fold`, `ExprTree.fold` compute from the inside out.
* `TyShape.eq_of_fields`, `ExprShape.eq_of_fields`: kind and field values determine a shape.
-/

namespace TermGraph

-- ---------------------------------------------------------------------------
-- One level at a time
-- ---------------------------------------------------------------------------

variable {τ τ' ε ε' : Type}

/-- Replaces the types by `f` and the expressions by `g`. -/
def TyShape.map (f : τ → τ') (g : ε → ε') : TyShape τ ε → TyShape τ' ε'
  | .bool => .bool
  | .empty => .empty
  | .symbol name => .symbol name
  | .aggregate form members names name => .aggregate form (members.map f) names name
  | .code arguments result names ellipsis => .code (arguments.map f) (f result) names ellipsis
  | .array element size infinite => .array (f element) (size.map g) infinite
  | .pointer target => .pointer (f target)
  | .unsignedbv width => .unsignedbv width
  | .signedbv width => .signedbv width
  | .fixedbv width integerBits => .fixedbv width integerBits
  | .floatbv fraction exponent => .floatbv fraction exponent
  | .string width => .string width
  | .cppName name arguments => .cppName name (arguments.map f)

/-- Replaces the expressions by `g`. -/
def ExprShape.map (g : ε → ε') : ExprShape ε → ExprShape ε'
  | .constantInt value => .constantInt value
  | .constantBool value => .constantBool value
  | .constantString value => .constantString value
  | .constantStruct members => .constantStruct (members.map g)
  | .constantUnion members initField => .constantUnion (members.map g) initField
  | .constantArray members => .constantArray (members.map g)
  | .constantArrayOf initializer => .constantArrayOf (g initializer)
  | .symbol name => .symbol name
  | .ite cond onTrue onFalse => .ite (g cond) (g onTrue) (g onFalse)
  | .binary op left right => .binary op (g left) (g right)
  | .unary op operand => .unary op (g operand)
  | .update source field value => .update (g source) (g field) (g value)
  | .member source name => .member (g source) name
  | .index source position => .index (g source) (g position)

/-- Replaces the types by `f` and the expressions by `g`. -/
def Value.map (f : τ → τ') (g : ε → ε') : Value τ ε → Value τ' ε'
  | .bool value => .bool value
  | .uint value => .uint value
  | .int value => .int value
  | .name value => .name value
  | .names values => .names values
  | .type value => .type (f value)
  | .types values => .types (values.map f)
  | .expr value => .expr (g value)
  | .optExpr value => .optExpr (value.map g)
  | .exprs values => .exprs (values.map g)

/-- Replaces the nodes in a field's value. -/
def Field.map (f : τ → τ') (g : ε → ε') (field : Field τ ε) : Field τ' ε' :=
  ⟨field.name, field.value.map f g⟩

section Map

variable (f : τ → τ') (g : ε → ε')

/-- The kind of a type does not depend on the nodes inside. -/
@[simp] theorem TyShape.kind_map (s : TyShape τ ε) : (s.map f g).kind = s.kind := by
  cases s <;> rfl

/-- The kind of an expression does not depend on the nodes inside. -/
@[simp] theorem ExprShape.kind_map (s : ExprShape ε) : (s.map g).kind = s.kind := by
  cases s <;> rfl

/-- Replacing the nodes of a shape replaces them in its field table. -/
@[simp] theorem TyShape.fields_map (s : TyShape τ ε) :
    (s.map f g).fields = s.fields.map (Field.map f g) := by
  cases s <;> rfl

/-- Replacing the operands of a shape replaces them in its field table. -/
@[simp] theorem ExprShape.fields_map (s : ExprShape ε) :
    ((s.map g).fields : List (Field τ' ε')) = s.fields.map (Field.map f g) := by
  cases s <;> rfl

/-- The types that a value holds are replaced one by one. -/
@[simp] theorem Value.heldTypes_map (v : Value τ ε) :
    (v.map f g).heldTypes = v.heldTypes.map f := by
  cases v <;> rfl

/-- The expressions that a value holds are replaced one by one. -/
@[simp] theorem Value.heldExprs_map (v : Value τ ε) :
    (v.map f g).heldExprs = v.heldExprs.map g := by
  cases v with
  | optExpr value => cases value <;> rfl
  | _ => rfl

@[simp] theorem Value.map_id (v : Value τ ε) : v.map id id = v := by
  cases v <;> simp [Value.map]

/-- The operands are replaced one by one. -/
@[simp] theorem ExprShape.operands_map (s : ExprShape ε) :
    (s.map g).operands = s.operands.map g := by
  cases s <;> simp [ExprShape.operands, ExprShape.fields, ExprShape.map, Value.heldExprs]

end Map

@[simp] theorem Form.kind_inj {a b : Form} : a.kind = b.kind ↔ a = b := by
  cases a <;> cases b <;> simp [Form.kind]

/-- The kind of a struct or a union is no other kind. -/
theorem Form.kind_ne (form : Form) {k : TypeKind} (hStruct : k ≠ .struct) (hUnion : k ≠ .union) :
    form.kind ≠ k := by
  cases form with
  | struct => exact hStruct.symm
  | union => exact hUnion.symm

/-- Kind and field values determine the shape of a type. -/
theorem TyShape.eq_of_fields {s s' : TyShape τ ε} (hKind : s.kind = s'.kind)
    (hFields : s.fields.map (·.value) = s'.fields.map (·.value)) : s = s' := by
  cases s <;> cases s' <;>
    simp_all [TyShape.kind, TyShape.fields, Form.kind_ne, (Form.kind_ne _ _ _).symm]

/-- Kind and field values determine the shape of an expression. The operator is no field: it is
part of the kind. -/
theorem ExprShape.eq_of_fields {s s' : ExprShape ε} (hKind : s.kind = s'.kind)
    (hFields : (s.fields : List (Field τ ε)).map (·.value) = s'.fields.map (·.value)) :
    s = s' := by
  cases s <;> cases s' <;> simp_all [ExprShape.kind, ExprShape.fields]

-- ---------------------------------------------------------------------------
-- Trees
-- ---------------------------------------------------------------------------

mutual

/-- A type without identities. -/
inductive TyTree where
  | node (shape : TyShape TyTree ExprTree)

/-- An expression without identities. -/
inductive ExprTree where
  | node (type : TyTree) (shape : ExprShape ExprTree)

end

/-- The contents of a type's tree. -/
def TyTree.shape : TyTree → TyShape TyTree ExprTree
  | .node shape => shape

/-- The kind that a tree was made as. -/
def TyTree.kind (t : TyTree) : TypeKind :=
  t.shape.kind

/-- The tree of the result type. -/
def ExprTree.type : ExprTree → TyTree
  | .node type _ => type

/-- The contents of an expression's tree, its result type left out. -/
def ExprTree.shape : ExprTree → ExprShape ExprTree
  | .node _ shape => shape

/-- The kind that a tree was made as. -/
def ExprTree.kind (e : ExprTree) : ExprKind :=
  e.shape.kind

-- What is inside a tree is smaller. The field table is the only way in, so the bounds are stated
-- for what it lists.

/-- The types directly inside a type, in field order. -/
def TyShape.types (s : TyShape τ ε) : List τ :=
  s.fields.flatMap (·.value.heldTypes)

/-- The expressions directly inside a type, in field order. -/
def TyShape.exprs (s : TyShape τ ε) : List ε :=
  s.fields.flatMap (·.value.heldExprs)

/-- An expression holds no type but its result type, which is no part of its shape. -/
theorem ExprShape.flatMap_heldTypes (s : ExprShape ε) :
    (s.fields : List (Field τ ε)).flatMap (·.value.heldTypes) = [] := by
  cases s <;> rfl

/-- All expressions that the fields hold are operands, in order. -/
theorem ExprShape.flatMap_heldExprs (s : ExprShape ε) :
    (s.fields : List (Field τ ε)).flatMap (·.value.heldExprs) = s.operands := by
  cases s <;> rfl

/-- What a field of an expression holds is an operand. -/
theorem ExprShape.mem_operands_of_field {s : ExprShape ε} {f : Field τ ε} {e : ε}
    (hField : f ∈ (s.fields : List (Field τ ε))) (he : e ∈ f.value.heldExprs) : e ∈ s.operands := by
  rw [← ExprShape.flatMap_heldExprs]
  exact List.mem_flatMap_of_mem hField he

/-- Replacing nodes twice is replacing them once by what comes of both. -/
theorem TyShape.map_map {τ'' ε'' : Type} (f : τ → τ') (g : ε → ε') (f' : τ' → τ'') (g' : ε' → ε'')
    (s : TyShape τ ε) : (s.map f g).map f' g' = s.map (f' ∘ f) (g' ∘ g) := by
  cases s <;> simp [TyShape.map]

/-- Replacing operands twice is replacing them once by what comes of both. -/
theorem ExprShape.map_map {ε'' : Type} (g : ε → ε') (g' : ε' → ε'') (s : ExprShape ε) :
    (s.map g).map g' = s.map (g' ∘ g) := by
  cases s <;> simp [ExprShape.map]

/-- What is put in matters only for the nodes that are there. -/
theorem TyShape.map_congr {f f' : τ → τ'} {g g' : ε → ε'} {s : TyShape τ ε}
    (hTy : ∀ t ∈ s.types, f t = f' t) (hExpr : ∀ e ∈ s.exprs, g e = g' e) :
    s.map f g = s.map f' g' := by
  cases s <;> simp_all [TyShape.map, TyShape.types, TyShape.exprs, TyShape.fields,
    Value.heldTypes, Value.heldExprs]
  case array element size infinite =>
    exact Option.map_congr hExpr

/-- What is put in matters only for the operands that are there. -/
theorem ExprShape.map_congr {g g' : ε → ε'} {s : ExprShape ε}
    (hExpr : ∀ e ∈ s.operands, g e = g' e) : s.map g = s.map g' := by
  cases s <;> simp_all [ExprShape.map, ExprShape.operands, ExprShape.fields, Value.heldExprs]

/-- A type inside a shape is smaller than the shape. -/
theorem TyShape.sizeOf_lt_of_mem_types [SizeOf τ] [SizeOf ε] {s : TyShape τ ε} {t : τ}
    (ht : t ∈ s.types) : sizeOf t < sizeOf s := by
  cases s <;> simp [TyShape.types, TyShape.fields, Value.heldTypes] at ht ⊢
  case aggregate form members names name =>
    have := List.sizeOf_lt_of_mem ht
    omega
  case code arguments result names ellipsis =>
    rcases ht with ht | rfl
    · have := List.sizeOf_lt_of_mem ht
      omega
    · omega
  case cppName name arguments =>
    have := List.sizeOf_lt_of_mem ht
    omega
  all_goals subst ht; omega

/-- An expression inside the shape of a type is smaller than the shape. -/
theorem TyShape.sizeOf_lt_of_mem_exprs [SizeOf τ] [SizeOf ε] {s : TyShape τ ε} {e : ε}
    (he : e ∈ s.exprs) : sizeOf e < sizeOf s := by
  cases s <;> simp [TyShape.exprs, TyShape.fields, Value.heldExprs] at he ⊢
  case array element size infinite =>
    subst he
    simp
    omega

/-- An operand is smaller than the shape it is in. -/
theorem ExprShape.sizeOf_lt_of_mem_operands [SizeOf ε] {s : ExprShape ε} {e : ε}
    (he : e ∈ s.operands) : sizeOf e < sizeOf s := by
  cases s <;> simp [ExprShape.operands, ExprShape.fields, Value.heldExprs] at he ⊢
  case constantStruct members => have := List.sizeOf_lt_of_mem he; omega
  case constantUnion members initField => have := List.sizeOf_lt_of_mem he; omega
  case constantArray members => have := List.sizeOf_lt_of_mem he; omega
  all_goals grind

-- ---------------------------------------------------------------------------
-- Computing from the inside out
-- ---------------------------------------------------------------------------

section Fold

variable {α β : Type} (f : TyShape α β → α) (g : α → ExprShape β → β)

mutual

/-- Replaces every type by what `f` makes of its contents and every expression by what `g` makes of
its. -/
def TyTree.fold : TyTree → α
  | .node shape => f (TyTree.foldShape shape)

/-- The contents of a type after each tree inside was replaced. -/
def TyTree.foldShape : TyShape TyTree ExprTree → TyShape α β
  | .bool => .bool
  | .empty => .empty
  | .symbol name => .symbol name
  | .aggregate form members names name => .aggregate form (TyTree.foldList members) names name
  | .code arguments result names ellipsis =>
    .code (TyTree.foldList arguments) (TyTree.fold result) names ellipsis
  | .array element size infinite => .array (TyTree.fold element) (ExprTree.foldOption size) infinite
  | .pointer target => .pointer (TyTree.fold target)
  | .unsignedbv width => .unsignedbv width
  | .signedbv width => .signedbv width
  | .fixedbv width integerBits => .fixedbv width integerBits
  | .floatbv fraction exponent => .floatbv fraction exponent
  | .string width => .string width
  | .cppName name arguments => .cppName name (TyTree.foldList arguments)

/-- Types after each tree was replaced. -/
def TyTree.foldList : List TyTree → List α
  | [] => []
  | t :: ts => TyTree.fold t :: TyTree.foldList ts

@[inherit_doc TyTree.fold]
def ExprTree.fold : ExprTree → β
  | .node type shape => g (TyTree.fold type) (ExprTree.foldShape shape)

/-- The contents of an expression after each operand was replaced. -/
def ExprTree.foldShape : ExprShape ExprTree → ExprShape β
  | .constantInt value => .constantInt value
  | .constantBool value => .constantBool value
  | .constantString value => .constantString value
  | .constantStruct members => .constantStruct (ExprTree.foldList members)
  | .constantUnion members initField => .constantUnion (ExprTree.foldList members) initField
  | .constantArray members => .constantArray (ExprTree.foldList members)
  | .constantArrayOf initializer => .constantArrayOf (ExprTree.fold initializer)
  | .symbol name => .symbol name
  | .ite cond onTrue onFalse => .ite (ExprTree.fold cond) (ExprTree.fold onTrue) (ExprTree.fold onFalse)
  | .binary op left right => .binary op (ExprTree.fold left) (ExprTree.fold right)
  | .unary op operand => .unary op (ExprTree.fold operand)
  | .update source field value => .update (ExprTree.fold source) (ExprTree.fold field) (ExprTree.fold value)
  | .member source name => .member (ExprTree.fold source) name
  | .index source position => .index (ExprTree.fold source) (ExprTree.fold position)

/-- An expression that may be missing, after its tree was replaced. -/
def ExprTree.foldOption : Option ExprTree → Option β
  | none => none
  | some e => some (ExprTree.fold e)

/-- Expressions after each tree was replaced. -/
def ExprTree.foldList : List ExprTree → List β
  | [] => []
  | e :: es => ExprTree.fold e :: ExprTree.foldList es

end

theorem TyTree.foldList_eq_map (ts : List TyTree) :
    TyTree.foldList f g ts = ts.map (TyTree.fold f g) := by
  induction ts with
  | nil => rfl
  | cons t ts ih => rw [TyTree.foldList, ih, List.map_cons]

theorem ExprTree.foldList_eq_map (es : List ExprTree) :
    ExprTree.foldList f g es = es.map (ExprTree.fold f g) := by
  induction es with
  | nil => rfl
  | cons e es ih => rw [ExprTree.foldList, ih, List.map_cons]

theorem ExprTree.foldOption_eq_map (e : Option ExprTree) :
    ExprTree.foldOption f g e = e.map (ExprTree.fold f g) := by
  cases e <;> rfl

/-- The replacement of a type is made of the replacements of what is inside. -/
theorem TyTree.fold_node (s : TyShape TyTree ExprTree) :
    TyTree.fold f g (.node s) = f (s.map (TyTree.fold f g) (ExprTree.fold f g)) := by
  cases s <;>
    simp only [TyTree.fold, TyTree.foldShape, TyShape.map, TyTree.foldList_eq_map,
      ExprTree.foldOption_eq_map]

/-- The replacement of an expression is made of those of its result type and its operands. -/
theorem ExprTree.fold_node (t : TyTree) (s : ExprShape ExprTree) :
    ExprTree.fold f g (.node t s) = g (t.fold f g) (s.map (ExprTree.fold f g)) := by
  cases s <;>
    simp only [ExprTree.fold, ExprTree.foldShape, ExprShape.map, ExprTree.foldList_eq_map]

end Fold

-- ---------------------------------------------------------------------------
-- The tree of a node
-- ---------------------------------------------------------------------------

mutual

/-- A type with identities and digests forgotten. -/
def Ty.tree : Ty → TyTree
  | .node _ _ shape => .node (Ty.treeShape shape)

/-- The contents of a type with identities forgotten inside. -/
def Ty.treeShape : TyShape Ty Expr → TyShape TyTree ExprTree
  | .bool => .bool
  | .empty => .empty
  | .symbol name => .symbol name
  | .aggregate form members names name => .aggregate form (Ty.treeList members) names name
  | .code arguments result names ellipsis =>
    .code (Ty.treeList arguments) (Ty.tree result) names ellipsis
  | .array element size infinite => .array (Ty.tree element) (Expr.treeOption size) infinite
  | .pointer target => .pointer (Ty.tree target)
  | .unsignedbv width => .unsignedbv width
  | .signedbv width => .signedbv width
  | .fixedbv width integerBits => .fixedbv width integerBits
  | .floatbv fraction exponent => .floatbv fraction exponent
  | .string width => .string width
  | .cppName name arguments => .cppName name (Ty.treeList arguments)

/-- Types with identities forgotten. -/
def Ty.treeList : List Ty → List TyTree
  | [] => []
  | t :: ts => t.tree :: Ty.treeList ts

/-- An expression with identities, digests and flags forgotten. -/
def Expr.tree : Expr → ExprTree
  | .node _ _ _ type shape => .node type.tree (Expr.treeShape shape)

/-- The contents of an expression with identities forgotten inside. -/
def Expr.treeShape : ExprShape Expr → ExprShape ExprTree
  | .constantInt value => .constantInt value
  | .constantBool value => .constantBool value
  | .constantString value => .constantString value
  | .constantStruct members => .constantStruct (Expr.treeList members)
  | .constantUnion members initField => .constantUnion (Expr.treeList members) initField
  | .constantArray members => .constantArray (Expr.treeList members)
  | .constantArrayOf initializer => .constantArrayOf (Expr.tree initializer)
  | .symbol name => .symbol name
  | .ite cond onTrue onFalse => .ite (Expr.tree cond) (Expr.tree onTrue) (Expr.tree onFalse)
  | .binary op left right => .binary op (Expr.tree left) (Expr.tree right)
  | .unary op operand => .unary op (Expr.tree operand)
  | .update source field value => .update (Expr.tree source) (Expr.tree field) (Expr.tree value)
  | .member source name => .member (Expr.tree source) name
  | .index source position => .index (Expr.tree source) (Expr.tree position)

/-- An expression that may be missing, with identities forgotten. -/
def Expr.treeOption : Option Expr → Option ExprTree
  | none => none
  | some e => some e.tree

/-- Expressions with identities forgotten. -/
def Expr.treeList : List Expr → List ExprTree
  | [] => []
  | e :: es => e.tree :: Expr.treeList es

end

theorem Ty.treeList_eq_map (ts : List Ty) : Ty.treeList ts = ts.map Ty.tree := by
  induction ts with
  | nil => rfl
  | cons t ts ih => rw [Ty.treeList, ih, List.map_cons]

theorem Expr.treeList_eq_map (es : List Expr) : Expr.treeList es = es.map Expr.tree := by
  induction es with
  | nil => rfl
  | cons e es ih => rw [Expr.treeList, ih, List.map_cons]

theorem Expr.treeOption_eq_map (e : Option Expr) : Expr.treeOption e = e.map Expr.tree := by
  cases e <;> rfl

/-- The tree of a type has the trees of what is inside, in the same places. -/
theorem Ty.tree_eq (t : Ty) : t.tree = .node (t.shape.map Ty.tree Expr.tree) := by
  obtain ⟨id, digest, shape⟩ := t
  cases shape <;>
    simp only [Ty.tree, Ty.treeShape, Ty.shape, TyShape.map, Ty.treeList_eq_map,
      Expr.treeOption_eq_map]

/-- The tree of an expression has the trees of its result type and of its operands. -/
theorem Expr.tree_eq (e : Expr) : e.tree = .node e.type.tree (e.shape.map Expr.tree) := by
  obtain ⟨id, digest, flags, type, shape⟩ := e
  cases shape <;>
    simp only [Expr.tree, Expr.treeShape, Expr.type, Expr.shape, ExprShape.map,
      Expr.treeList_eq_map]

@[simp] theorem Ty.shape_tree (t : Ty) : t.tree.shape = t.shape.map Ty.tree Expr.tree := by
  rw [Ty.tree_eq, TyTree.shape]

/-- The tree of a type of known contents. -/
theorem Ty.tree_of_shape {t : Ty} {s : TyShape Ty Expr} (h : t.shape = s) :
    t.tree = .node (s.map Ty.tree Expr.tree) := by
  rw [Ty.tree_eq, h]

/-- A tree is of the kind of its type. -/
@[simp] theorem Ty.kind_tree (t : Ty) : t.tree.kind = t.kind := by
  rw [TyTree.kind, Ty.shape_tree, TyShape.kind_map, Ty.kind]

@[simp] theorem Expr.type_tree (e : Expr) : e.tree.type = e.type.tree := by
  rw [Expr.tree_eq, ExprTree.type]

@[simp] theorem Expr.shape_tree (e : Expr) : e.tree.shape = e.shape.map Expr.tree := by
  rw [Expr.tree_eq, ExprTree.shape]

/-- A tree is of the kind of its expression. -/
@[simp] theorem Expr.kind_tree (e : Expr) : e.tree.kind = e.kind := by
  rw [ExprTree.kind, Expr.shape_tree, ExprShape.kind_map, Expr.kind]

/-- What is built has the tree of its contents, whatever its identity. -/
theorem Ty.tree_build (h : Hasher) (id : Nat) (s : TyShape Ty Expr) :
    (Ty.build h id s).tree = .node (s.map Ty.tree Expr.tree) :=
  Ty.tree_eq _

/-- What is built has the tree of its contents, whatever its identity. -/
theorem Expr.tree_build (h : Hasher) (id : Nat) (type : Ty) (s : ExprShape Expr) :
    (Expr.build h id type s).tree = .node type.tree (s.map Expr.tree) :=
  Expr.tree_eq _

end TermGraph
