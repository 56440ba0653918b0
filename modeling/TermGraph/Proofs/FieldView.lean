import TermGraph.Proofs.FieldTable
import TermGraph.Proofs.ResultType

/-!
# Fields of nodes of one kind

The kind of a node is what its field table leaves out. Put the two together and nothing is missing:
nodes of one kind have the same fields, of the same sorts, in the same order, and where the values
agree, so do the shapes. What agreement is for the nodes inside is left open (`R` and `S` below): it
may be that they are one, or that they are equal, or that they have one tree.

The order of nodes reads its fields in pairs and has an answer for two values of different sorts. No
comparison ever asks for it: any other answer would give the same order (`Value.orderOr`).

Main statement: `field_table_faithful`.
-/

namespace TermGraph

variable {τ τ' ε ε' : Type}

-- ---------------------------------------------------------------------------
-- The order of values of different sorts
-- ---------------------------------------------------------------------------

/-- Orders values of one sort as they are ordered in nodes, and leaves all others to `other`. -/
def Value.orderOr (other : Value Ty Expr → Value Ty Expr → Ordering) (v w : Value Ty Expr) :
    Ordering :=
  if v.rank = w.rank then v.orderWith compare compare w else other v w

theorem Value.SameSort.orderOr_eq {v w : Value Ty Expr} (h : v.SameSort w)
    (other : Value Ty Expr → Value Ty Expr → Ordering) :
    v.orderOr other w = v.orderWith compare compare w := by
  have hRank : v.rank = w.rank := by cases h <;> rfl
  rw [Value.orderOr, if_pos hRank]

/-- Lists of the same fields leave nothing to `other`. -/
theorem Field.orderWith_eq_orderOr {fs gs : List (Field Ty Expr)}
    (h : List.Forall₂ Field.SameSlot fs gs) (other : Value Ty Expr → Value Ty Expr → Ordering) :
    Field.orderWith compare compare fs gs =
      List.compareLex (fun f g => f.value.orderOr other g.value) fs gs := by
  induction h with
  | nil => rfl
  | cons hSlot _ ih =>
    rw [Field.orderWith] at ih ⊢
    rw [List.compareLex_cons_cons, List.compareLex_cons_cons, ih, hSlot.sort.orderOr_eq]

-- ---------------------------------------------------------------------------
-- From values back to shapes
-- ---------------------------------------------------------------------------

section Values

variable {R : τ → τ' → Prop} {S : ε → ε' → Prop}

/-- What relates two values, read off their sorts. -/
def Value.Agrees (R : τ → τ' → Prop) (S : ε → ε' → Prop) : Value τ ε → Value τ' ε' → Prop
  | .bool a, .bool b => a = b
  | .uint m, .uint n => m = n
  | .int i, .int j => i = j
  | .name a, .name b => a = b
  | .names as, .names bs => as = bs
  | .type t, .type u => R t u
  | .types ts, .types us => List.Forall₂ R ts us
  | .expr e, .expr d => S e d
  | .optExpr e, .optExpr d => Option.Rel S e d
  | .exprs es, .exprs ds => List.Forall₂ S es ds
  | _, _ => False

theorem Value.Rel.agrees {v : Value τ ε} {v' : Value τ' ε'} (h : v.Rel R S v') :
    v.Agrees R S v' := by
  cases h with
  | type h | types h | expr h | optExpr h | exprs h => exact h
  | _ => rfl

/-- Kind and related values give related shapes. -/
theorem TyShape.rel_of_values {s : TyShape τ ε} {s' : TyShape τ' ε'} (hKind : s.kind = s'.kind)
    (hValues : List.Forall₂ (Value.Rel R S) (s.fields.map (·.value)) (s'.fields.map (·.value))) :
    s.Rel R S s' := by
  have hAgree := hValues.imp fun _ _ => Value.Rel.agrees
  cases s <;> cases s' <;>
    simp [TyShape.kind, Form.kind_ne, (Form.kind_ne _ _ _).symm] at hKind <;>
    simp only [TyShape.fields, List.map_cons, List.map_nil, List.forall₂_cons,
      List.forall₂_nil_left_iff, and_true, Value.Agrees] at hAgree
  case bool.bool => exact .bool
  case empty.empty => exact .empty
  case symbol.symbol => exact hAgree ▸ .symbol _
  case aggregate.aggregate =>
    obtain ⟨hMembers, rfl, rfl⟩ := hAgree
    -- the form is part of the kind and no field
    exact hKind ▸ .aggregate _ _ _ hMembers
  case code.code =>
    obtain ⟨hArguments, hResult, rfl, rfl⟩ := hAgree
    exact .code _ _ hArguments hResult
  case array.array =>
    obtain ⟨hElement, hSize, rfl⟩ := hAgree
    exact .array _ hElement hSize
  case pointer.pointer => exact .pointer hAgree
  case cppName.cppName =>
    obtain ⟨rfl, hArguments⟩ := hAgree
    exact .cppName _ hArguments
  case fixedbv.fixedbv =>
    obtain ⟨rfl, rfl⟩ := hAgree
    exact .fixedbv _ _
  case floatbv.floatbv =>
    obtain ⟨rfl, rfl⟩ := hAgree
    exact .floatbv _ _
  case unsignedbv.unsignedbv => exact hAgree ▸ .unsignedbv _
  case signedbv.signedbv => exact hAgree ▸ .signedbv _
  case string.string => exact hAgree ▸ .string _

theorem ExprShape.rel_of_values {s : ExprShape ε} {s' : ExprShape ε'} (hKind : s.kind = s'.kind)
    (hValues : List.Forall₂ (Value.Rel R S) (s.fields.map (·.value)) (s'.fields.map (·.value))) :
    s.Rel S s' := by
  have hAgree := hValues.imp fun _ _ => Value.Rel.agrees
  -- an operator is part of the kind and no field: it is one on both sides from here on
  cases s <;> cases s' <;> cases hKind <;>
    simp only [ExprShape.fields, List.map_cons, List.map_nil, List.forall₂_cons,
      List.forall₂_nil_left_iff, and_true, Value.Agrees] at hAgree
  case constantInt.constantInt.refl => exact hAgree ▸ .constantInt _
  case constantBool.constantBool.refl => exact hAgree ▸ .constantBool _
  case constantString.constantString.refl => exact hAgree ▸ .constantString _
  case constantStruct.constantStruct.refl => exact .constantStruct hAgree
  case constantUnion.constantUnion.refl =>
    obtain ⟨hMembers, rfl⟩ := hAgree
    exact .constantUnion _ hMembers
  case constantArray.constantArray.refl => exact .constantArray hAgree
  case constantArrayOf.constantArrayOf.refl => exact .constantArrayOf hAgree
  case symbol.symbol.refl => exact hAgree ▸ .symbol _
  case ite.ite.refl =>
    obtain ⟨hCond, hTrue, hFalse⟩ := hAgree
    exact .ite hCond hTrue hFalse
  case binary.binary.refl op _ _ _ _ =>
    obtain ⟨hLeft, hRight⟩ := hAgree
    exact .binary op hLeft hRight
  case unary.unary.refl op _ _ => exact .unary op hAgree
  case update.update.refl =>
    obtain ⟨hSource, hField, hValue⟩ := hAgree
    exact .update hSource hField hValue
  case member.member.refl =>
    obtain ⟨hSource, rfl⟩ := hAgree
    exact .member _ hSource
  case index.index.refl =>
    obtain ⟨hSource, hPosition⟩ := hAgree
    exact .index hSource hPosition

/-- The fields of related shapes have related values. -/
theorem Field.forall₂_values {fs : List (Field τ ε)} {gs : List (Field τ' ε')}
    (h : List.Forall₂ (Field.Rel R S) fs gs) :
    List.Forall₂ (Value.Rel R S) (fs.map (·.value)) (gs.map (·.value)) := by
  rw [List.forall₂_map_left_iff, List.forall₂_map_right_iff]
  exact h.imp fun _ _ hField => hField.value

end Values

-- ---------------------------------------------------------------------------
-- Nodes of one kind
-- ---------------------------------------------------------------------------

/-- What the fields of two types tell. -/
structure Ty.Faithful (a b : Ty) : Prop where
  /-- The same fields, with values of the same sorts, in the same order. -/
  aligned : List.Forall₂ Field.SameSlot a.fields b.fields
  /-- Comparing does not depend on how values of different sorts would be ordered. -/
  order : ∀ other, compare a b = if a.id = b.id then .eq else
    List.compareLex (fun f g => f.value.orderOr other g.value) a.fields b.fields
  /-- The values agree if and only if the constructors are one and what they are applied to
  agrees. -/
  values_iff : ∀ R S, List.Forall₂ (Value.Rel R S) (a.fields.map (·.value))
    (b.fields.map (·.value)) ↔ a.shape.Rel R S b.shape

/-- What the fields of two expressions tell. -/
structure Expr.Faithful (a b : Expr) : Prop where
  /-- The same fields, with values of the same sorts, in the same order. -/
  aligned : List.Forall₂ Field.SameSlot a.fields b.fields
  /-- Comparing does not depend on how values of different sorts would be ordered. -/
  order : ∀ other, compare a b = if a.id = b.id then .eq else (compare a.type b.type).then
    (List.compareLex (fun f g => f.value.orderOr other g.value) a.ownFields b.ownFields)
  /-- The values agree if and only if the result types do, the constructors are one, with one
  operator, and what they are applied to agrees. -/
  values_iff : ∀ R S, List.Forall₂ (Value.Rel R S) (a.fields.map (·.value))
    (b.fields.map (·.value)) ↔ R a.type b.type ∧ a.shape.Rel S b.shape

theorem Ty.faithful_of_kind {a b : Ty} (hKind : a.kind = b.kind) : a.Faithful b := by
  have hAligned : List.Forall₂ Field.SameSlot a.fields b.fields :=
    Field.forall₂_sameSlot (TyShape.slots_eq hKind)
  refine ⟨hAligned, fun other => ?_, fun R S => ?_⟩
  · split
    · exact Ty.compare_of_id ‹_›
    · rw [Ty.compare_eq a b ‹_›, hKind, Nat.compare_eq_eq.mpr rfl,
        Field.orderWith_eq_orderOr hAligned other]
      rfl
  · exact ⟨TyShape.rel_of_values hKind, fun hRel => Field.forall₂_values hRel.fields⟩

theorem Expr.faithful_of_kind {a b : Expr} (hKind : a.kind = b.kind) : a.Faithful b := by
  have hOwn : List.Forall₂ Field.SameSlot a.ownFields b.ownFields :=
    Field.forall₂_sameSlot (ExprShape.slots_eq hKind)
  have hAligned : List.Forall₂ Field.SameSlot a.fields b.fields :=
    List.rel_append hOwn (.cons ⟨rfl, .type _ _⟩ .nil)
  refine ⟨hAligned, fun other => ?_, fun R S => ?_⟩
  · split
    · exact Expr.compare_of_id ‹_›
    · rw [Expr.compare_eq a b ‹_›, hKind, Nat.compare_eq_eq.mpr rfl,
        Field.orderWith_eq_orderOr hOwn other]
      rfl
  · constructor
    · intro hValues
      rw [Expr.fields, Expr.fields, List.map_append, List.map_append] at hValues
      have hLength : (a.ownFields.map (·.value)).length = (b.ownFields.map (·.value)).length := by
        rw [List.length_map, List.length_map, hOwn.length_eq]
      -- the result type is the last field
      have hFront := List.forall₂_take_append _ _ _ hValues
      have hLast := List.forall₂_drop_append _ _ _ hValues
      rw [List.take_left' hLength] at hFront
      rw [List.drop_left' hLength] at hLast
      have hType : R a.type b.type := (List.forall₂_cons.mp hLast).1.agrees
      exact ⟨hType, ExprShape.rel_of_values hKind hFront⟩
    · rintro ⟨hType, hRel⟩
      exact Field.forall₂_values (List.rel_append hRel.fields (.cons ⟨rfl, .type hType⟩ .nil))

/-- Nodes with one place in the list of kinds have the same fields, which make the order no
question of sorts, and whose values tell everything else about them. -/
theorem field_table_faithful :
    (∀ a b : Ty, a.kind.rank = b.kind.rank → a.Faithful b) ∧
      ∀ a b : Expr, a.kind.rank = b.kind.rank → a.Faithful b := by
  refine ⟨fun a b hRank => ?_, fun a b hRank => ?_⟩
  · exact Ty.faithful_of_kind (TypeKind.rank_injective hRank)
  · exact Expr.faithful_of_kind (ExprKind.rank_injective hRank)

/-- Adds what `Sample.sum` adds, with a result type that is equal and not one. -/
def Sample.total : Expr := .build .fnv 5 octet (.binary .add four four)

/-- Two structs around types that are equal and not one, and two sums of such types. -/
theorem field_table_faithful_sample :
    let equalTypes : Ty → Ty → Prop := fun t u => (t == u) = true
    let equalExprs : Expr → Expr → Prop := fun e d => (e == d) = true
    Sample.box.kind.rank = Sample.carton.kind.rank ∧ Sample.box.id ≠ Sample.carton.id ∧
      List.Forall₂ Field.SameSlot Sample.box.fields Sample.carton.fields ∧
      Sample.box.shape.Rel equalTypes equalExprs Sample.carton.shape ∧
      (∀ other, compare Sample.box Sample.carton = List.compareLex
        (fun f g => f.value.orderOr other g.value) Sample.box.fields Sample.carton.fields) ∧
      Sample.sum.kind.rank = Sample.total.kind.rank ∧ Sample.sum.type ≠ Sample.total.type ∧
      Sample.sum.shape.Rel equalExprs Sample.total.shape := by
  intro equalTypes equalExprs
  have hByte : Sample.world.Occurs (.type Sample.byte) := .of_held (by simp [Sample.world])
  have hOctet : Sample.world.Occurs (.type Sample.octet) := .of_held (by simp [Sample.world])
  have hFour : Sample.world.Occurs (.expr Sample.four) := .of_held (by simp [Sample.world])
  have hTypes : equalTypes Sample.byte Sample.octet :=
    ((Sample.reached.equalityBy .type).beq_iff hByte hOctet).mpr rfl
  have hExprs : equalExprs Sample.four Sample.four :=
    ((Sample.reached.equalityBy .expr).beq_iff hFour hFour).mpr rfl
  have hStructs := field_table_faithful.1 Sample.box Sample.carton rfl
  have hSums := field_table_faithful.2 Sample.sum Sample.total rfl
  have hDistinct : Sample.box.id ≠ Sample.carton.id := by decide
  refine ⟨rfl, hDistinct, hStructs.aligned, ?_, fun other => ?_, rfl, ?_, ?_⟩
  · refine (hStructs.values_iff equalTypes equalExprs).mp ?_
    exact .cons (.types (.cons hTypes .nil)) (.cons (.names _) (.cons (.name _) .nil))
  · rw [hStructs.order other, if_neg hDistinct]
  · intro hSame
    cases congrArg Ty.id hSame
  · refine ((hSums.values_iff equalTypes equalExprs).mp ?_).2
    exact .cons (.expr hExprs) (.cons (.expr hExprs) (.cons (.type hTypes) .nil))

end TermGraph
