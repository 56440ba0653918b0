import TermGraph.Proofs.Reading
import TermGraph.Proofs.TreeOrder
import TermGraph.Proofs.Walk
import Mathlib.Data.List.Nodup

/-!
# What the field table tells

Texts are written from a node's kind and its field table and never from its shape. This loses
nothing: the kind fixes which fields there are and of which sort each value is (`Node.slots_eq`),
and kind and values together are as good as the tree (`Node.tree_eq_iff`).

Conversely, whatever is computed from kinds and fields, from the inside out, is the same for nodes
with one tree, however they share (`Node.eq_of_tree`).
-/

namespace TermGraph

variable {τ τ' ε ε' : Type}

-- ---------------------------------------------------------------------------
-- Names of kinds
-- ---------------------------------------------------------------------------

theorem TypeKind.mem_all (k : TypeKind) : k ∈ all :=
  List.mem_of_getElem? k.getElem?_all_rank

theorem ExprKind.mem_all (k : ExprKind) : k ∈ all :=
  List.mem_of_getElem? k.getElem?_all_rank

/-- No two kinds of types have one name. -/
theorem TypeKind.name_injective {a b : TypeKind} (h : a.name = b.name) : a = b := by
  have hNodup : (all.map name).Nodup := by decide
  exact List.inj_on_of_nodup_map hNodup a.mem_all b.mem_all h

/-- No two kinds of expressions have one name. -/
theorem ExprKind.name_injective {a b : ExprKind} (h : a.name = b.name) : a = b := by
  have hNodup : (all.map name).Nodup := by decide
  exact List.inj_on_of_nodup_map hNodup a.mem_all b.mem_all h

/-- The names of kinds are written without spaces and punctuation. -/
theorem Kind.isWord_name (k : Kind) : ∀ c ∈ k.name.toList, Text.isWord c = true := by
  rw [← List.all_eq_true]
  cases k with
  | type k => cases k <;> rfl
  | expr k =>
    cases k with
    | binary op => cases op <;> rfl
    | unary op => cases op <;> rfl
    | _ => rfl

theorem Kind.toList_name_ne_nil (k : Kind) : k.name.toList ≠ [] := by
  have hTypes : ∀ k ∈ TypeKind.all, k.name ≠ "" := by decide
  have hExprs : ∀ k ∈ ExprKind.all, k.name ≠ "" := by decide
  rw [ne_eq, String.toList_eq_nil_iff]
  cases k with
  | type k => exact hTypes k k.mem_all
  | expr k => exact hExprs k k.mem_all

/-- In one category, the name tells the kind. -/
theorem Node.kind_eq_of_name {a b : Node} (hCategory : a.isExpr = b.isExpr)
    (hName : a.kind.name = b.kind.name) : a.kind = b.kind := by
  cases a <;> cases b
  case type.type a b => exact congrArg Kind.type (TypeKind.name_injective hName)
  case expr.expr a b => exact congrArg Kind.expr (ExprKind.name_injective hName)
  all_goals cases hCategory

-- ---------------------------------------------------------------------------
-- Kinds and sorts
-- ---------------------------------------------------------------------------

/-- Two values of one sort. -/
inductive Value.SameSort : Value τ ε → Value τ ε → Prop
  | bool (a b : Bool) : SameSort (.bool a) (.bool b)
  | uint (m n : UInt32) : SameSort (.uint m) (.uint n)
  | int (i j : Int) : SameSort (.int i) (.int j)
  | name (m n : Name) : SameSort (.name m) (.name n)
  | names (ms ns : List Name) : SameSort (.names ms) (.names ns)
  | type (t u : τ) : SameSort (.type t) (.type u)
  | types (ts us : List τ) : SameSort (.types ts) (.types us)
  | expr (d e : ε) : SameSort (.expr d) (.expr e)
  | optExpr (d e : Option ε) : SameSort (.optExpr d) (.optExpr e)
  | exprs (ds es : List ε) : SameSort (.exprs ds) (.exprs es)

/-- The rank of a value tells its sort. -/
theorem Value.sameSort_of_rank {v w : Value τ ε} (hRank : v.rank = w.rank) : v.SameSort w := by
  cases v <;> cases w <;> cases hRank <;> constructor

/-- Values that look the same in a view of their nodes are of one sort. -/
theorem Value.sameSort_of_map {v w : Value τ ε} {f : τ → τ'} {g : ε → ε'}
    (h : v.map f g = w.map f g) : v.SameSort w := by
  have hMap : ∀ v : Value τ ε, (v.map f g).rank = v.rank := fun v => by cases v <;> rfl
  exact sameSort_of_rank (by rw [← hMap v, ← hMap w, h])

/-- The name of a field and the sort of its value. -/
def Field.slot (f : Field τ ε) : String × Nat :=
  (f.name, f.value.rank)

/-- The fields have one name and values of one sort. -/
structure Field.SameSlot (f g : Field τ ε) : Prop where
  name : f.name = g.name
  sort : f.value.SameSort g.value

/-- Where the lists of slots are equal, the fields are so place by place. -/
theorem Field.forall₂_sameSlot {fs gs : List (Field τ ε)}
    (h : fs.map Field.slot = gs.map Field.slot) : List.Forall₂ Field.SameSlot fs gs := by
  have hSlots : List.Forall₂ (fun f g => f.slot = g.slot) fs gs := by
    rwa [← List.forall₂_eq_eq_eq, List.forall₂_map_left_iff, List.forall₂_map_right_iff] at h
  refine hSlots.imp fun f g hSlot => ?_
  obtain ⟨hName, hRank⟩ := Prod.mk.inj hSlot
  exact ⟨hName, Value.sameSort_of_rank hRank⟩

/-- The slots of a type are told by its kind. -/
theorem TyShape.slots_eq {s s' : TyShape τ ε} (hKind : s.kind = s'.kind) :
    s.fields.map Field.slot = s'.fields.map Field.slot := by
  cases s <;> cases s' <;>
    simp [TyShape.kind, Form.kind_ne, (Form.kind_ne _ _ _).symm] at hKind <;> rfl

/-- The slots of an expression are told by its kind. -/
theorem ExprShape.slots_eq {s s' : ExprShape ε} (hKind : s.kind = s'.kind) :
    (s.fields : List (Field τ ε)).map Field.slot =
      (s'.fields : List (Field τ ε)).map Field.slot := by
  cases s <;> cases s' <;> cases hKind <;> rfl

namespace Node

/-- The kind of a node fixes the names of its fields and the sorts of their values. -/
theorem slots_eq {a b : Node} (hKind : a.kind = b.kind) :
    a.fields.map Field.slot = b.fields.map Field.slot := by
  cases a <;> cases b
  case type.type a b => exact TyShape.slots_eq (Kind.type.inj hKind)
  case expr.expr a b =>
    have hOwn : a.ownFields.map Field.slot = b.ownFields.map Field.slot :=
      ExprShape.slots_eq (Kind.expr.inj hKind)
    simp only [fields, Expr.fields, List.map_append, hOwn]
    rfl
  all_goals cases hKind

/-- Fields in the same place of two nodes of one kind have one name and values of one sort. -/
theorem slot_eq_of_mem_zip {a b : Node} (hKind : a.kind = b.kind) :
    ∀ p ∈ a.fields.zip b.fields, p.1.name = p.2.name ∧ p.1.value.SameSort p.2.value := by
  intro p hp
  have hSlot := List.forall₂_zip (Field.forall₂_sameSlot (slots_eq hKind)) hp
  exact ⟨hSlot.name, hSlot.sort⟩

/-- Nodes have one tree if and only if they have one kind and, up to trees, the same fields. -/
theorem tree_eq_iff {a b : Node} :
    a.tree = b.tree ↔ a.kind = b.kind ∧
      a.fields.map (Field.map Ty.tree Expr.tree) = b.fields.map (Field.map Ty.tree Expr.tree) := by
  have hValues : ∀ fs gs : List (Field TyTree ExprTree), fs = gs →
      fs.map (·.value) = gs.map (·.value) := fun _ _ h => congrArg _ h
  constructor
  · intro hTree
    refine ⟨?_, by rw [← fields_tree, ← fields_tree, hTree]⟩
    cases a <;> cases b
    case type.type a b => rw [kind, kind, ← Ty.kind_tree, ← Ty.kind_tree, Tree.type.inj hTree]
    case expr.expr a b => rw [kind, kind, ← Expr.kind_tree, ← Expr.kind_tree, Tree.expr.inj hTree]
    all_goals cases hTree
  · rintro ⟨hKind, hFields⟩
    cases a <;> cases b
    case type.type a b =>
      have hShape : a.shape.map Ty.tree Expr.tree = b.shape.map Ty.tree Expr.tree := by
        apply TyShape.eq_of_fields
        · rw [TyShape.kind_map, TyShape.kind_map]
          exact Kind.type.inj hKind
        · rw [TyShape.fields_map, TyShape.fields_map]
          exact hValues _ _ hFields
      rw [tree, tree, Ty.tree_eq, Ty.tree_eq, hShape]
    case expr.expr a b =>
      -- the result type is the last field
      simp only [fields, Expr.fields, List.map_append, List.map_cons, List.map_nil] at hFields
      obtain ⟨hOwn, hLast⟩ := List.append_inj' hFields rfl
      have hType : a.type.tree = b.type.tree :=
        Value.type.inj (congrArg Field.value (List.cons.inj hLast).1)
      have hShape : a.shape.map Expr.tree = b.shape.map Expr.tree := by
        apply ExprShape.eq_of_fields (τ := TyTree)
        · rw [ExprShape.kind_map, ExprShape.kind_map]
          exact Kind.expr.inj hKind
        · rw [ExprShape.fields_map Ty.tree Expr.tree, ExprShape.fields_map Ty.tree Expr.tree]
          exact hValues _ _ hOwn
      rw [tree, tree, Expr.tree_eq, Expr.tree_eq, hType, hShape]
    all_goals cases hKind

end Node

-- ---------------------------------------------------------------------------
-- Names of fields
-- ---------------------------------------------------------------------------

/-- The names of the fields of a type, in order. -/
def TypeKind.fieldNames : TypeKind → List String
  | .bool | .empty => []
  | .symbol => ["symbol_name"]
  | .struct | .union => ["members", "member_names", "name"]
  | .code => ["arguments", "ret_type", "argument_names", "ellipsis"]
  | .array => ["subtype", "array_size", "size_is_infinite"]
  | .pointer => ["subtype"]
  | .unsignedbv | .signedbv | .string => ["width"]
  | .fixedbv => ["width", "integer_bits"]
  | .floatbv => ["fraction", "exponent"]
  | .cppName => ["name", "template_args"]

/-- The names of the fields of an expression, its result type left out, in order. -/
def ExprKind.fieldNames : ExprKind → List String
  | .constantInt => ["constant_value"]
  | .constantBool | .constantString => ["value"]
  | .constantStruct | .constantArray => ["datatype_members"]
  | .constantUnion => ["datatype_members", "init_field"]
  | .constantArrayOf => ["initializer"]
  | .symbol => ["name"]
  | .ite => ["cond", "true_value", "false_value"]
  | .binary _ => ["side_1", "side_2"]
  | .unary .typecast => ["from"]
  | .unary .pointerOffset | .unary .pointerObject | .unary .addressOf => ["ptr_obj"]
  | .unary .overflow => ["operand"]
  | .unary _ => ["value"]
  | .update => ["source_value", "update_field", "update_value"]
  | .member => ["source_value", "member"]
  | .index => ["source_value", "index"]

/-- The names of all fields of a node, in order. -/
def Kind.fieldNames : Kind → List String
  | .type k => k.fieldNames
  | .expr k => k.fieldNames ++ ["type"]

/-- The fields of a type have the names that its kind lists. -/
theorem TyShape.names_fields (s : TyShape τ ε) : s.fields.map (·.name) = s.kind.fieldNames := by
  cases s with
  | aggregate form members names name => cases form <;> rfl
  | _ => rfl

/-- The fields of an expression have the names that its kind lists. -/
theorem ExprShape.names_fields (s : ExprShape ε) :
    (s.fields : List (Field τ ε)).map (·.name) = s.kind.fieldNames := by
  cases s with
  | unary op operand => cases op <;> rfl
  | _ => rfl

/-- The fields of a node have the names that its kind lists. -/
theorem Node.names_fields (n : Node) : n.fields.map (·.name) = n.kind.fieldNames := by
  cases n with
  | type t => exact t.shape.names_fields
  | expr e =>
    rw [fields, Expr.fields, List.map_append, Expr.ownFields, ExprShape.names_fields]
    rfl

/-- No kind lists a name twice. -/
theorem Kind.nodup_fieldNames (k : Kind) : k.fieldNames.Nodup := by
  have hTypes : ∀ k ∈ TypeKind.all, k.fieldNames.Nodup := by decide
  have hExprs : ∀ k ∈ ExprKind.all, (k.fieldNames ++ ["type"]).Nodup := by decide
  cases k with
  | type k => exact hTypes k k.mem_all
  | expr k => exact hExprs k k.mem_all

/-- The names of fields are written without spaces and punctuation. -/
theorem Kind.isWord_fieldNames (k : Kind) :
    ∀ name ∈ k.fieldNames, ∀ c ∈ name.toList, Text.isWord c = true := by
  have hAll : k.fieldNames.all (fun name => name.toList.all Text.isWord) = true := by
    cases k with
    | type k => cases k <;> rfl
    | expr k =>
      cases k with
      | unary op => cases op <;> rfl
      | _ => rfl
  intro name hName
  exact List.all_eq_true.mp (List.all_eq_true.mp hAll name hName)

-- ---------------------------------------------------------------------------
-- What is computed from the inside out
-- ---------------------------------------------------------------------------

section Transfer

variable {α β : Type} {p : τ → τ'} {q : ε → ε'} {f : τ → α} {g : ε → β}

theorem map_eq_map_of {xs ys : List τ} (h : xs.map p = ys.map p)
    (hEach : ∀ x ∈ xs, ∀ y, p x = p y → f x = f y) : xs.map f = ys.map f := by
  induction xs generalizing ys with
  | nil => rw [List.map_eq_nil_iff.mp h.symm]
  | cons x xs ih =>
    obtain ⟨y, ys, rfl, hx, hxs⟩ := List.map_eq_cons_iff.mp h.symm
    rw [List.map_cons, List.map_cons, hEach x List.mem_cons_self y hx.symm,
      ih hxs.symm fun z hz => hEach z (List.mem_cons_of_mem x hz)]

/-- Values that look the same in one view look the same in a view that sees no more. -/
theorem Value.map_eq_map_of {v w : Value τ ε} (h : v.map p q = w.map p q)
    (hTypes : ∀ t ∈ v.heldTypes, ∀ u, p t = p u → f t = f u)
    (hExprs : ∀ e ∈ v.heldExprs, ∀ d, q e = q d → g e = g d) : v.map f g = w.map f g := by
  cases Value.sameSort_of_map h with
  | type t u => rw [Value.map, Value.map, hTypes t List.mem_cons_self u (Value.type.inj h)]
  | types ts us => rw [Value.map, Value.map, TermGraph.map_eq_map_of (Value.types.inj h) hTypes]
  | expr e d => rw [Value.map, Value.map, hExprs e List.mem_cons_self d (Value.expr.inj h)]
  | exprs es ds => rw [Value.map, Value.map, TermGraph.map_eq_map_of (Value.exprs.inj h) hExprs]
  | optExpr e d =>
    cases e with
    | none =>
      cases d with
      | none => rfl
      | some d => cases Value.optExpr.inj h
    | some e =>
      cases d with
      | none => cases Value.optExpr.inj h
      | some d =>
        have hSome := hExprs e List.mem_cons_self d (Option.some.inj (Value.optExpr.inj h))
        rw [Value.map, Value.map, Option.map_some, Option.map_some, hSome]
  | _ => cases h; rfl

/-- Fields that look the same in one view look the same in a view that sees no more. -/
theorem Field.map_eq_map_of {fs gs : List (Field τ ε)}
    (h : fs.map (Field.map p q) = gs.map (Field.map p q))
    (hTypes : ∀ x ∈ fs, ∀ t ∈ x.value.heldTypes, ∀ u, p t = p u → f t = f u)
    (hExprs : ∀ x ∈ fs, ∀ e ∈ x.value.heldExprs, ∀ d, q e = q d → g e = g d) :
    fs.map (Field.map f g) = gs.map (Field.map f g) := by
  refine TermGraph.map_eq_map_of h fun x hx y hxy => ?_
  obtain ⟨hName, hView⟩ := Field.mk.inj hxy
  have hValue : x.value.map f g = y.value.map f g :=
    Value.map_eq_map_of hView (hTypes x hx) (hExprs x hx)
  rw [Field.map, Field.map, hName, hValue]

end Transfer

/-- A type that a field holds is a child of the node. -/
theorem Node.type_mem_children_of_field {n : Node} {f : Field Ty Expr} {t : Ty}
    (hf : f ∈ n.fields) (ht : t ∈ f.value.heldTypes) : .type t ∈ n.children := by
  rw [← mem_asType_iff, children, filterMap_asType_fields]
  exact List.mem_flatMap_of_mem hf ht

/-- An expression that a field holds is a child of the node. -/
theorem Node.expr_mem_children_of_field {n : Node} {f : Field Ty Expr} {e : Expr}
    (hf : f ∈ n.fields) (he : e ∈ f.value.heldExprs) : .expr e ∈ n.children := by
  rw [← mem_asExpr_iff, children, filterMap_asExpr_fields]
  exact List.mem_flatMap_of_mem hf he

/-- What is computed from the kind and the fields, with everything inside computed already, depends
on the tree alone. -/
theorem Node.eq_of_tree {α : Type} (compute : Node → α)
    (hStep : ∀ a b : Node, a.kind = b.kind →
      a.fields.map (Field.map (fun t => compute (.type t)) fun e => compute (.expr e)) =
        b.fields.map (Field.map (fun t => compute (.type t)) fun e => compute (.expr e)) →
      compute a = compute b)
    {a b : Node} (hTree : a.tree = b.tree) : compute a = compute b := by
  induction a using Node.induction_children generalizing b with
  | step a ih =>
    obtain ⟨hKind, hFields⟩ := Node.tree_eq_iff.mp hTree
    refine hStep a b hKind (Field.map_eq_map_of hFields ?_ ?_)
    · intro f hf t ht u htu
      exact ih _ (Node.type_mem_children_of_field hf ht) (congrArg Tree.type htu)
    · intro f hf e he d hed
      exact ih _ (Node.expr_mem_children_of_field hf he) (congrArg Tree.expr hed)

end TermGraph
