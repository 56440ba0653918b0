import TermGraph.Proofs.FieldTable
import TermGraph.Proofs.Guarantees
import TermGraph.Proofs.Related

/-!
# The result type, from the operands

An expression is made of a result type and of operands, and its rule says how they go together. For
most kinds the rule leaves no choice: the type is boolean, or that of an operand, or found inside the
type of an operand. `ExprShape.FixesType` lists these kinds. A number or a symbol may be of many
types, a cast of any, and the parts of a pointer or the characters of a string may have any width.

* One name, one member: in a lawful type no two members answer to a name (`HasMember.unique`).
* One shape, one type: where a kind fixes the type, two lawful expressions of one shape have one
  result type (`ExprRule.type_unique`), with one case for each kind.

Main statement: `operands_fix_type`, where the operands are equal and need not be the same nodes.
-/

namespace TermGraph

-- ---------------------------------------------------------------------------
-- Kinds that fix the type
-- ---------------------------------------------------------------------------

/-- The kind fixes the result type once the operands are given; `isArray` says which operands are
arrays. -/
def ExprShape.FixesType {ε : Type} (isArray : ε → Prop) : ExprShape ε → Prop
  | .constantBool _ | .ite .. | .binary .. | .update .. | .member .. => True
  | .unary op _ => op ≠ .typecast ∧ op ≠ .pointerOffset ∧ op ≠ .pointerObject
  | .index source _ => isArray source
  | .constantInt _ | .constantString _ | .constantStruct _ | .constantUnion .. | .constantArray _
  | .constantArrayOf _ | .symbol _ => False

/-- Whether a kind fixes the type is seen in the tree. -/
theorem ExprShape.fixesType_map {ε ε' : Type} {isArray : ε' → Prop} (g : ε → ε')
    (s : ExprShape ε) : (s.map g).FixesType isArray ↔ s.FixesType fun e => isArray (g e) := by
  cases s <;> exact Iff.rfl

-- ---------------------------------------------------------------------------
-- Rules that leave no choice
-- ---------------------------------------------------------------------------

/-- The names of a lawful struct or union are distinct, so that a name leads to one member. -/
theorem TyTree.HasMember.unique {t u v : TyTree} {name : Name} (hRule : TyRule t.shape)
    (hu : t.HasMember name u) (hv : t.HasMember name v) : u = v := by
  obtain ⟨form, members, names, tag, rfl⟩ := hu.aggregate
  obtain ⟨i, hName, hMember⟩ := hasMember_iff.mp hu
  obtain ⟨j, hName', hMember'⟩ := hasMember_iff.mp hv
  have hDistinct : names.Nodup := by
    cases hRule with
    | aggregate _ _ _ _ hDistinct => exact hDistinct
  have hBound : i < names.length := (List.getElem?_eq_some_iff.mp hName).1
  have hSame : i = j := (List.getElem?_inj hBound hDistinct).mp (hName.trans hName'.symm)
  rw [hSame, hMember'] at hMember
  exact (Option.some.inj hMember).symm

namespace ExprRule

variable {t u : TyTree}

/-- Comparisons are boolean; all other operators have the type of their first operand. -/
theorem binary_type_unique {op : BinaryOp} {left right : ExprTree}
    (ht : ExprRule t (.binary op left right)) (hu : ExprRule u (.binary op left right)) : t = u := by
  rw [binary_iff] at ht hu
  cases hFamily : op.family with
  | relation | logical | pointer =>
    rw [hFamily] at ht hu
    rw [ht.1, hu.1]
  | bitwise | shift | arithmetic =>
    rw [hFamily] at ht hu
    rw [← ht.2.1, ← hu.2.1]

/-- Three unary operators leave a choice of the result type; the others do not. -/
theorem unary_type_unique {op : UnaryOp} {operand : ExprTree} (hCast : op ≠ .typecast)
    (hOffset : op ≠ .pointerOffset) (hObject : op ≠ .pointerObject)
    (ht : ExprRule t (.unary op operand)) (hu : ExprRule u (.unary op operand)) : t = u := by
  rw [unary_iff] at ht hu
  cases op with
  | typecast => exact absurd rfl hCast
  | pointerOffset => exact absurd rfl hOffset
  | pointerObject => exact absurd rfl hObject
  | not | isNan | overflow => rw [ht.1, hu.1]
  | bitNot | neg | abs => rw [← ht.2, ← hu.2]
  | addressOf => rw [ht, hu]
  | dereference =>
    have hTarget : TyTree.node (.pointer t) = .node (.pointer u) := ht.symm.trans hu
    exact TyShape.pointer.inj (TyTree.node.inj hTarget)

/-- An access to an array has the element type. -/
theorem index_type_unique {source position : ExprTree} (hArray : source.type.kind = .array)
    (ht : ExprRule t (.index source position)) (hu : ExprRule u (.index source position)) :
    t = u := by
  obtain ⟨element, size, infinite, hSource⟩ := TyTree.kind_eq_array.mp hArray
  -- the rule for strings does not apply
  have hElement : ∀ v, ExprRule v (.index source position) → v = element := by
    intro v hv
    obtain ⟨-, ⟨size', infinite', hSource'⟩ | ⟨⟨width, hString⟩, -⟩⟩ := index_iff.mp hv
    · rw [hSource] at hSource'
      exact (TyShape.array.inj (TyTree.node.inj hSource')).1.symm
    · rw [hSource] at hString
      cases hString
  rw [hElement t ht, hElement u hu]

/-- Where the kind fixes the type, the rule holds of one type at most. -/
theorem type_unique {s : ExprShape ExprTree} (hTypes : ∀ e ∈ s.operands, TyRule e.type.shape)
    (hFixes : s.FixesType fun source => source.type.kind = .array) (ht : ExprRule t s)
    (hu : ExprRule u s) : t = u := by
  cases s with
  | constantBool value => rw [constantBool_iff.mp ht, constantBool_iff.mp hu]
  | ite cond onTrue onFalse =>
    obtain ⟨-, hTrue, -⟩ := ite_iff.mp ht
    obtain ⟨-, hTrue', -⟩ := ite_iff.mp hu
    exact hTrue.symm.trans hTrue'
  | binary op left right => exact binary_type_unique ht hu
  | unary op operand =>
    obtain ⟨hCast, hOffset, hObject⟩ := hFixes
    exact unary_type_unique hCast hOffset hObject ht hu
  | update source field value =>
    obtain ⟨hSource, -⟩ := update_iff.mp ht
    obtain ⟨hSource', -⟩ := update_iff.mp hu
    exact hSource.symm.trans hSource'
  | member source name =>
    exact (member_iff.mp ht).unique (hTypes source List.mem_cons_self) (member_iff.mp hu)
  | index source position => exact index_type_unique hFixes ht hu
  | _ => exact hFixes.elim

end ExprRule

-- ---------------------------------------------------------------------------
-- Equal fields
-- ---------------------------------------------------------------------------

/-- The fields have one name, and their values are equal. -/
abbrev Field.Equal : Field Ty Expr → Field Ty Expr → Prop :=
  Field.Rel (fun t u => (t == u) = true) (fun e d => (e == d) = true)

variable {h : Hasher} {w : World}

/-- Expressions of one kind with equal fields of their own have one shape, up to trees. -/
theorem Reached.shape_tree_eq (hw : Reached h w) {a b : Expr} (ha : w.Occurs (.expr a))
    (hb : w.Occurs (.expr b)) (hKind : a.kind = b.kind)
    (hFields : List.Forall₂ Field.Equal a.ownFields b.ownFields) :
    a.shape.map Expr.tree = b.shape.map Expr.tree := by
  have hRegular := hw.sound.regular
  have hTrees : a.ownFields.map (fun f => f.value.map Ty.tree Expr.tree) =
      b.ownFields.map fun f => f.value.map Ty.tree Expr.tree := by
    refine map_eq_of_forall₂ (forall₂_imp_mem hFields fun f hf g hg hEqual => ?_)
    refine Value.Rel.map_eq (hEqual.value.imp_held (fun t ht => ?_) fun e he d hd => ?_)
    · -- no field of its own holds a type
      have hNone : t ∈ a.ownFields.flatMap (·.value.heldTypes) := List.mem_flatMap_of_mem hf ht
      rw [Expr.ownFields, ExprShape.flatMap_heldTypes] at hNone
      cases hNone
    · have hOccurs : w.Occurs (.expr e) :=
        hRegular.operand_of_expr ha (ExprShape.mem_operands_of_field hf he)
      have hOccurs' : w.Occurs (.expr d) :=
        hRegular.operand_of_expr hb (ExprShape.mem_operands_of_field hg hd)
      exact ((hw.equalityBy .expr).beq_iff hOccurs hOccurs').mp
  apply ExprShape.eq_of_fields (τ := TyTree)
  · rw [ExprShape.kind_map, ExprShape.kind_map]
    exact hKind
  · rw [ExprShape.fields_map Ty.tree Expr.tree, ExprShape.fields_map Ty.tree Expr.tree,
      List.map_map, List.map_map]
    exact hTrees

-- ---------------------------------------------------------------------------
-- Expressions in use
-- ---------------------------------------------------------------------------

/-- Two expressions in use, of one kind and with equal fields of their own, have equal result types
and are equal, if the kind is one that fixes the type. -/
theorem operands_fix_type (hw : Reached h w) {a b : Expr} (ha : w.Occurs (.expr a))
    (hb : w.Occurs (.expr b)) (hKind : a.kind = b.kind)
    (hFields : List.Forall₂ Field.Equal a.ownFields b.ownFields)
    (hFixes : a.shape.FixesType fun source => source.type.isArray = true) :
    (a.type == b.type) = true ∧ (a == b) = true := by
  have hRegular := hw.sound.regular
  have hShape := hw.shape_tree_eq ha hb hKind hFields
  have hRule : ExprRule a.type.tree (a.shape.map Expr.tree) := by
    rw [← Expr.type_tree, ← Expr.shape_tree]
    exact hRegular.lawful _ ha
  have hRule' : ExprRule b.type.tree (a.shape.map Expr.tree) := by
    rw [hShape, ← Expr.type_tree, ← Expr.shape_tree]
    exact hRegular.lawful _ hb
  have hTypes : ∀ e ∈ (a.shape.map Expr.tree).operands, TyRule e.type.shape := by
    intro e he
    rw [ExprShape.operands_map] at he
    obtain ⟨d, hd, rfl⟩ := List.mem_map.mp he
    rw [Expr.type_tree]
    exact hRegular.lawful _ (hRegular.type_of_expr (hRegular.operand_of_expr ha hd))
  have hFixes' : (a.shape.map Expr.tree).FixesType fun source => source.type.kind = .array := by
    rw [ExprShape.fixesType_map]
    simpa only [Ty.isArray, beq_iff_eq, Expr.type_tree, Ty.kind_tree] using hFixes
  have hType : a.type.tree = b.type.tree := ExprRule.type_unique hTypes hFixes' hRule hRule'
  constructor
  · exact ((hw.equalityBy .type).beq_iff (hRegular.type_of_expr ha) (hRegular.type_of_expr hb)).mpr
      hType
  · refine ((hw.equalityBy .expr).beq_iff ha hb).mpr ?_
    show a.tree = b.tree
    rw [Expr.tree_eq, Expr.tree_eq, hType, hShape]

namespace Sample

/-- A struct with one member. -/
def box : Ty := .build .fnv 5 (.aggregate .struct [byte] [⟨"inner"⟩] ⟨"box"⟩)

/-- Equal to `box`, around the type that is equal to `byte`. -/
def carton : Ty := .build .fnv 6 (.aggregate .struct [octet] [⟨"inner"⟩] ⟨"box"⟩)

def boxed : Expr := .build .fnv 7 box (.symbol ⟨"it"⟩)

def packed : Expr := .build .fnv 8 carton (.symbol ⟨"it"⟩)

def fromBox : Expr := .build .fnv 9 byte (.member boxed ⟨"inner"⟩)

def fromCarton : Expr := .build .fnv 10 octet (.member packed ⟨"inner"⟩)

def boxes : World where
  store := { next := 11 }
  held := [.expr fromCarton, .expr fromBox, .expr packed, .expr boxed, .type carton, .type box]
    ++ world.held

/-- Some calls lead there. -/
theorem reached_boxes : Reached .fnv boxes := by
  have hForBox : ∀ n ∈ [Node.type byte], n ∈ world.held := by simp [world]
  have hBox := reached.call (c := .makeType box.shape) hForBox
  have hForCarton : ∀ n ∈ [Node.type octet], n ∈ [.type box] ++ world.held := by simp [world]
  have hCarton := hBox.call (c := .makeType carton.shape) hForCarton
  have hForBoxed : ∀ n ∈ [Node.type box], n ∈ [.type carton, .type box] ++ world.held := by simp
  have hBoxed := hCarton.call (c := .makeExpr box boxed.shape) hForBoxed
  have hForPacked : ∀ n ∈ [Node.type carton],
      n ∈ [.expr boxed, .type carton, .type box] ++ world.held := by simp
  have hPacked := hBoxed.call (c := .makeExpr carton packed.shape) hForPacked
  have hForMember : ∀ n ∈ [Node.type byte, .expr boxed],
      n ∈ [.expr packed, .expr boxed, .type carton, .type box] ++ world.held := by simp [world]
  have hFromBox := hPacked.call (c := .makeExpr byte fromBox.shape) hForMember
  have hForMember' : ∀ n ∈ [Node.type octet, .expr packed],
      n ∈ [.expr fromBox, .expr packed, .expr boxed, .type carton, .type box] ++ world.held := by
    simp [world]
  exact hFromBox.call (c := .makeExpr octet fromCarton.shape) hForMember'

end Sample

/-- The members of two structs that are equal and not one, around types that are equal and not
one. -/
theorem operands_fix_type_sample :
    Sample.boxes.Occurs (.expr Sample.fromBox) ∧ Sample.boxes.Occurs (.expr Sample.fromCarton) ∧
      List.Forall₂ Field.Equal Sample.fromBox.ownFields Sample.fromCarton.ownFields ∧
      Sample.fromBox.type.id ≠ Sample.fromCarton.type.id ∧
      (Sample.fromBox.type == Sample.fromCarton.type) = true ∧
      (Sample.fromBox == Sample.fromCarton) = true := by
  have hBox : Sample.boxes.Occurs (.expr Sample.fromBox) := .of_held (by simp [Sample.boxes])
  have hCarton : Sample.boxes.Occurs (.expr Sample.fromCarton) := .of_held (by simp [Sample.boxes])
  have hBoxed : Sample.boxes.Occurs (.expr Sample.boxed) := .of_held (by simp [Sample.boxes])
  have hPacked : Sample.boxes.Occurs (.expr Sample.packed) := .of_held (by simp [Sample.boxes])
  have hSource : (Sample.boxed == Sample.packed) = true :=
    ((Sample.reached_boxes.equalityBy .expr).beq_iff hBoxed hPacked).mpr rfl
  have hFields : List.Forall₂ Field.Equal Sample.fromBox.ownFields Sample.fromCarton.ownFields :=
    .cons ⟨rfl, .expr hSource⟩ (.cons ⟨rfl, .name _⟩ .nil)
  exact ⟨hBox, hCarton, hFields, by decide,
    operands_fix_type Sample.reached_boxes hBox hCarton rfl hFields trivial⟩

end TermGraph
