import TermGraph.Proofs.Checks
import TermGraph.Proofs.CompactText

/-!
# Checks see trees

Nodes that live together and have one tree are *twins*. The checks look at identities, through the
shortcuts of equality, and their complaints quote types; yet two checks on twins come out the same
(`Regular.check_type_same`, `Regular.check_expr_same`): both succeed, or both complain, with equal
rejections and one message.
-/

namespace TermGraph

open Check

/-- Two nodes with one tree, both among the nodes `P`. -/
structure Twins (P : Node → Prop) (m n : Node) : Prop where
  left : P m
  right : P n
  tree_eq : m.tree = n.tree

/-- Types that are twins. -/
abbrev TyTwins (P : Node → Prop) (t u : Ty) : Prop :=
  Twins P (.type t) (.type u)

/-- Expressions that are twins. -/
abbrev ExprTwins (P : Node → Prop) (e d : Expr) : Prop :=
  Twins P (.expr e) (.expr d)

theorem Twins.type_tree {P : Node → Prop} {t u : Ty} (hTwins : TyTwins P t u) : t.tree = u.tree :=
  Tree.type.inj hTwins.tree_eq

theorem Twins.expr_tree {P : Node → Prop} {e d : Expr} (hTwins : ExprTwins P e d) :
    e.tree = d.tree :=
  Tree.expr.inj hTwins.tree_eq

-- ---------------------------------------------------------------------------
-- Rejections
-- ---------------------------------------------------------------------------

/-- A type equals itself by its identity. -/
theorem Ty.beq_self (t : Ty) : (t == t) = true := by
  show (t.id == t.id || _) = true
  rw [beq_self_eq_true, Bool.true_or]

/-- An expectation is the same as itself. -/
theorem Expected.same_self (e : Expected) : e.same e = true := by
  cases e with
  | type t => exact t.beq_self
  | pointerTo t => exact t.beq_self
  | _ => rfl

/-- The one reason that quotes a type, by its compact text. -/
theorem Reason.text_unknownMember (name : Name) (type : Ty) :
    (unknownMember name type).text =
      "no member `" ++ name.text ++ "` in `" ++ type.compact ++ "`" :=
  rfl

namespace Rejection

/-- Two mismatches are equal if they agree in kind, field, expectation and type found. -/
theorem beq_mismatch (k k' : Kind) (f f' : String) (e e' : Expected) (t t' : Ty) :
    (mismatch k f e t == mismatch k' f' e' t') =
      (k.name == k'.name && f == f' && e.same e' && t == t') := rfl

/-- Two complaints about contents are equal if they agree in kind and in the text of the reason. -/
theorem beq_invalid (k k' : Kind) (r r' : Reason) :
    (invalid k r == invalid k' r') = (k.name == k'.name && r.text == r'.text) := rfl

/-- The message of a mismatch quotes what was expected and found. -/
theorem message_mismatch (k : Kind) (field : String) (e : Expected) (t : Ty) :
    (mismatch k field e t).message =
      "type mismatch in `" ++ k.name ++ "` field `" ++ field ++ "`: expected " ++ e.text
        ++ ", found `" ++ t.compact ++ "`" := rfl

/-- The message of a complaint about contents quotes the reason. -/
theorem message_invalid (k : Kind) (r : Reason) :
    (invalid k r).message = "invalid `" ++ k.name ++ "`: " ++ r.text := rfl

/-- A rejection equals itself. -/
theorem beq_self (r : Rejection) : (r == r) = true := by
  cases r with
  | mismatch kind field expected found =>
    simp [beq_mismatch, expected.same_self, found.beq_self]
  | invalid kind reason => simp [beq_invalid]

end Rejection

-- ---------------------------------------------------------------------------
-- Outcomes
-- ---------------------------------------------------------------------------

/-- Both succeed, with related results, or both are refused, with equal rejections that read the
same. -/
inductive SameOutcome {α : Type} (R : α → α → Prop) :
    Except Rejection α → Except Rejection α → Prop
  | made {a b : α} (h : R a b) : SameOutcome R (.ok a) (.ok b)
  | refused {r r' : Rejection} (hEq : (r == r') = true) (hMessage : r.message = r'.message) :
      SameOutcome R (.error r) (.error r')

/-- Checks that come out the same, with related values. What they log is not compared. -/
def SameChecked {α : Type} (R : α → α → Prop) (x y : Checked α) : Prop :=
  SameOutcome R x.outcome y.outcome

/-- Checks that come out the same. -/
abbrev SameCheck : Check → Check → Prop :=
  SameChecked fun _ _ => True

namespace SameChecked

variable {α β : Type} {R : α → α → Prop} {S : β → β → Prop}

/-- Nothing is left to check. -/
theorem pure {a b : α} (h : R a b) : SameChecked R (pure a) (pure b) :=
  .made h

/-- Sequences come out the same if they start the same and go on the same with related values. -/
theorem bind {x y : Checked α} {f g : α → Checked β} (h : SameChecked R x y)
    (hNext : ∀ a b, R a b → SameChecked S (f a) (g b)) : SameChecked S (x >>= f) (y >>= g) := by
  rw [SameChecked] at h ⊢
  rw [Checked.outcome_bind, Checked.outcome_bind]
  generalize x.outcome = first, y.outcome = first' at h
  cases h with
  | made hR => exact hNext _ _ hR
  | refused hEq hMessage => exact .refused hEq hMessage

/-- The same for checks that find no value. -/
theorem seq {x y : Check} {f g : Unit → Checked β} (h : SameCheck x y)
    (hNext : SameChecked S (f ()) (g ())) : SameChecked S (x >>= f) (y >>= g) :=
  h.bind fun _ _ _ => hNext

/-- A check comes out the same as itself: a rejection equals itself. -/
theorem self (x : Check) : SameCheck x x := by
  show SameOutcome _ x.outcome x.outcome
  cases x.outcome with
  | ok _ => exact .made trivial
  | error r => exact .refused r.beq_self rfl

/-- Refusals for reasons that read the same. -/
theorem invalid (kind : Kind) {reason reason' : Reason} (hText : reason.text = reason'.text) :
    SameChecked R (do refuse (← Check.invalid kind reason))
      (do refuse (← Check.invalid kind reason')) := by
  refine .refused ?_ ?_
  · simp [Rejection.beq_invalid, hText]
  · rw [Rejection.message_invalid, Rejection.message_invalid, hText]

/-- One condition, with reasons that read the same. -/
theorem ensure {c c' : Bool} (kind : Kind) {reason reason' : Reason} (hCondition : c = c')
    (hText : reason.text = reason'.text) :
    SameCheck (Check.ensure c kind reason) (Check.ensure c' kind reason') := by
  subst hCondition
  cases c with
  | true => exact .pure trivial
  | false => exact .invalid kind hText

end SameChecked

/-- The expectations name related types, or are one class of types. -/
inductive Expected.Rel (R : Ty → Ty → Prop) : Expected → Expected → Prop
  | type {t u : Ty} (h : R t u) : Rel R (.type t) (.type u)
  | pointerTo {t u : Ty} (h : R t u) : Rel R (.pointerTo t) (.pointerTo u)
  | plain {e : Expected} (hClass : e.named = []) : Rel R e e

namespace Regular

variable {h : Hasher} {P : Node → Prop} (hP : Regular h P)

include hP

-- ---------------------------------------------------------------------------
-- What twins have inside
-- ---------------------------------------------------------------------------

/-- Twins are equal. -/
theorem beq_of_twins {t u : Ty} (hTwins : TyTwins P t u) : (t == u) = true :=
  (hP.beq_type_iff hP.faithful hTwins.left hTwins.right).mpr hTwins.type_tree

/-- The result types of twins are twins. -/
theorem twins_type {e d : Expr} (hTwins : ExprTwins P e d) :
    TyTwins P e.type d.type := by
  refine ⟨hP.type_of_expr hTwins.left, hP.type_of_expr hTwins.right, ?_⟩
  rw [Node.tree, Node.tree, ← Expr.type_tree, ← Expr.type_tree, hTwins.expr_tree]

/-- The nodes inside twin types are twins, place by place. -/
theorem twins_shape_type {t u : Ty} (hTwins : TyTwins P t u) :
    t.shape.Rel (TyTwins P) (ExprTwins P) u.shape := by
  refine (Ty.shape_rel hTwins.type_tree).imp ?_ ?_
  · rintro a b ⟨ha, hb, hTree⟩
    exact ⟨hP.type_of_mem hTwins.left ha, hP.type_of_mem hTwins.right hb, congrArg Tree.type hTree⟩
  · rintro a b ⟨ha, hb, hTree⟩
    exact ⟨hP.closed _ hTwins.left _ (Node.expr_mem_children_type.mpr ha),
      hP.closed _ hTwins.right _ (Node.expr_mem_children_type.mpr hb), congrArg Tree.expr hTree⟩

/-- The operands of twin expressions are twins, place by place. -/
theorem twins_shape_expr {e d : Expr} (hTwins : ExprTwins P e d) :
    e.shape.Rel (ExprTwins P) d.shape := by
  refine (Expr.shape_rel hTwins.expr_tree).imp ?_
  rintro a b ⟨ha, hb, hTree⟩
  exact ⟨hP.closed _ hTwins.left _ (Node.expr_mem_children_expr.mpr ha),
    hP.closed _ hTwins.right _ (Node.expr_mem_children_expr.mpr hb), congrArg Tree.expr hTree⟩

-- ---------------------------------------------------------------------------
-- Expectations
-- ---------------------------------------------------------------------------

/-- Twins are accepted by the same expectations. -/
theorem accepts_same {e e' : Expected} {t t' : Ty} (hExpected : e.Rel (TyTwins P) e')
    (hFound : TyTwins P t t') : e.accepts t = e'.accepts t' := by
  have hTree := hFound.type_tree
  rw [Bool.eq_iff_iff]
  cases hExpected with
  | type hTypes =>
    rw [hP.accepts_type hFound.left hTypes.left, hP.accepts_type hFound.right hTypes.right, hTree,
      hTypes.type_tree]
  | pointerTo hTypes =>
    rw [hP.accepts_pointerTo hFound.left hTypes.left,
      hP.accepts_pointerTo hFound.right hTypes.right, hTree, hTypes.type_tree]
  | plain hClass => rw [Expected.accepts_class hClass, Expected.accepts_class hClass, hTree]

/-- Expectations that name twins are the same. -/
theorem same_of_rel {e e' : Expected} (hExpected : e.Rel (TyTwins P) e') :
    e.same e' = true := by
  cases hExpected with
  | type hTypes => exact hP.beq_of_twins hTypes
  | pointerTo hTypes => exact hP.beq_of_twins hTypes
  | plain => exact e.same_self

omit hP in
/-- Expectations that name twins read the same. -/
theorem text_same {e e' : Expected} (hExpected : e.Rel (TyTwins P) e') : e.text = e'.text := by
  cases hExpected with
  | type hTypes =>
    rw [Expected.text, Expected.text, Ty.compact_eq_of_tree hTypes.type_tree]
  | pointerTo hTypes =>
    rw [Expected.text, Expected.text, Ty.compact_eq_of_tree hTypes.type_tree]
  | plain => rfl

/-- A requirement on twins, where what is expected are twins as well. -/
theorem require_same (kind : Kind) (field : String) {e e' : Expected} {t t' : Ty}
    (hExpected : e.Rel (TyTwins P) e') (hFound : TyTwins P t t') :
    SameCheck (require kind field e t) (require kind field e' t') := by
  show SameOutcome _ (require kind field e t).outcome (require kind field e' t').outcome
  rw [outcome_require, outcome_require, hP.accepts_same hExpected hFound]
  split
  · exact .made trivial
  · refine .refused ?_ ?_
    · simp [Rejection.beq_mismatch, hP.same_of_rel hExpected, hP.beq_of_twins hFound]
    · rw [Rejection.message_mismatch, Rejection.message_mismatch, text_same hExpected,
        Ty.compact_eq_of_tree hFound.type_tree]

-- ---------------------------------------------------------------------------
-- Types
-- ---------------------------------------------------------------------------

/-- The check of a type comes out the same for twins inside. -/
theorem check_type_same {s s' : TyShape Ty Expr}
    (hShape : s.Rel (TyTwins P) (ExprTwins P) s') :
    SameCheck (Ty.check s) (Ty.check s') := by
  cases hShape with
  | aggregate form names name hMembers =>
    rw [Ty.check, Ty.check, hMembers.length_eq]
    exact .self _
  | code names ellipsis hArguments hResult =>
    rw [Ty.check, Ty.check, hArguments.length_eq]
    exact .self _
  | array infinite hElement hSize =>
    cases hSize with
    | none => cases infinite <;> exact .self _
    | some hSize =>
      cases infinite with
      | true => exact .self _
      | false => exact hP.require_same _ _ (.plain rfl) (hP.twins_type hSize)
  | _ => exact .self _

-- ---------------------------------------------------------------------------
-- Expressions
-- ---------------------------------------------------------------------------

/-- The values of a struct, one after the other. -/
theorem checkMembers_same (kind : Kind) {values values' : List Expr} {members members' : List Ty}
    (hValues : List.Forall₂ (ExprTwins P) values values')
    (hMembers : List.Forall₂ (TyTwins P) members members') :
    SameCheck (Expr.checkMembers kind values members)
      (Expr.checkMembers kind values' members') := by
  induction hValues generalizing members members' with
  | nil => exact .pure trivial
  | cons hValue _ ih =>
    cases hMembers with
    | nil => exact .pure trivial
    | cons hMember hMembers =>
      have hFirst := hP.require_same kind "datatype_members" (.type hMember) (hP.twins_type hValue)
      exact hFirst.seq (ih hMembers)

/-- The elements of an array, one after the other. -/
theorem checkElements_same (kind : Kind) {element element' : Ty} {values values' : List Expr}
    (hElement : TyTwins P element element') (hValues : List.Forall₂ (ExprTwins P) values values') :
    SameCheck (Expr.checkElements kind element values)
      (Expr.checkElements kind element' values') := by
  induction hValues with
  | nil => exact .pure trivial
  | cons hValue _ ih =>
    have hFirst := hP.require_same kind "datatype_members" (.type hElement) (hP.twins_type hValue)
    exact hFirst.seq ih

/-- The binary operators, by family. -/
theorem checkBinary_same (op : BinaryOp) {type type' left left' right right' : Ty}
    (hType : TyTwins P type type') (hLeft : TyTwins P left left')
    (hRight : TyTwins P right right') :
    SameCheck (Expr.checkBinary op type left right) (Expr.checkBinary op type' left' right') := by
  unfold Expr.checkBinary
  cases op.family with
  | relation =>
    exact (hP.require_same _ _ (.plain rfl) hType).seq (hP.require_same _ _ (.type hLeft) hRight)
  | logical =>
    refine (hP.require_same _ _ (.plain rfl) hType).seq ?_
    exact (hP.require_same _ _ (.plain rfl) hLeft).seq (hP.require_same _ _ (.plain rfl) hRight)
  | shift =>
    refine (hP.require_same _ _ (.plain rfl) hType).seq ?_
    exact (hP.require_same _ _ (.type hType) hLeft).seq (hP.require_same _ _ (.plain rfl) hRight)
  | pointer =>
    refine (hP.require_same _ _ (.plain rfl) hType).seq ?_
    exact (hP.require_same _ _ (.plain rfl) hLeft).seq (hP.require_same _ _ (.plain rfl) hRight)
  | bitwise =>
    refine (hP.require_same _ _ (.plain rfl) hType).seq ?_
    exact (hP.require_same _ _ (.type hType) hLeft).seq (hP.require_same _ _ (.type hType) hRight)
  | arithmetic =>
    refine (hP.require_same _ _ (.plain ?_) hType).seq ?_
    · split <;> rfl
    · exact (hP.require_same _ _ (.type hType) hLeft).seq (hP.require_same _ _ (.type hType) hRight)

/-- The unary operators. An overflow check also looks at the kind of its operand, which twins
share. -/
theorem checkUnary_same (op : UnaryOp) {type type' : Ty} {operand operand' : Expr}
    (hType : TyTwins P type type') (hOperand : ExprTwins P operand operand') :
    SameCheck (Expr.checkUnary op type operand) (Expr.checkUnary op type' operand') := by
  have hOperandType := hP.twins_type hOperand
  have hKind : operand.kind = operand'.kind := (hP.twins_shape_expr hOperand).kind_eq
  cases op with
  | typecast => exact .pure trivial
  | addressOf => exact hP.require_same _ _ (.pointerTo hOperandType) hType
  | dereference => exact hP.require_same _ _ (.pointerTo hType) hOperandType
  | overflow =>
    have hCan : operand.canOverflow = operand'.canOverflow := by
      rw [Bool.eq_iff_iff, Expr.canOverflow_iff, Expr.canOverflow_iff, hKind]
    exact (hP.require_same _ _ (.plain rfl) hType).seq (.ensure _ hCan (by rw [hKind]))
  | bitNot | neg | abs =>
    refine (hP.require_same _ _ (.plain rfl) hType).seq ?_
    exact hP.require_same _ _ (.type hType) hOperandType
  | _ =>
    refine (hP.require_same _ _ (.plain rfl) hType).seq ?_
    exact hP.require_same _ _ (.plain rfl) hOperandType

/-- An array of given elements. The literal size is read off the tree. -/
theorem checkArray_same {type type' : Ty} {members members' : List Expr}
    (hType : TyTwins P type type') (hMembers : List.Forall₂ (ExprTwins P) members members') :
    SameCheck (Expr.checkArray type members) (Expr.checkArray type' members') := by
  have hShape := hP.twins_shape_type hType
  unfold Expr.checkArray
  generalize hLeft : type.shape = s, hRight : type'.shape = s' at hShape
  cases hShape with
  | @array infinite _ _ size size' hElement hSize =>
    have hLiteral : size.bind Expr.constantInt? = size'.bind Expr.constantInt? := by
      cases hSize with
      | none => rfl
      | some hSize => exact Expr.constantInt?_congr (hP.twins_shape_expr hSize)
    refine SameChecked.seq (.self _) ?_
    dsimp only
    rw [hLiteral, hMembers.length_eq]
    cases size'.bind Expr.constantInt? with
    | none => exact hP.checkElements_same _ hElement hMembers
    | some n => exact SameChecked.seq (.self _) (hP.checkElements_same _ hElement hMembers)
  | _ => exact hP.require_same _ _ (.plain rfl) hType

/-- A name finds twins among the members of twins, or is unknown to both. -/
theorem memberType_same (kind : Kind) {type type' : Ty} (hType : TyTwins P type type')
    (name : Name) :
    SameChecked (TyTwins P) (Expr.memberType kind type name) (Expr.memberType kind type' name) := by
  have hMember := Ty.memberType?_rel (hP.twins_shape_type hType) name
  unfold Expr.memberType
  generalize type.memberType? name = x, type'.memberType? name = y at hMember
  cases hMember with
  | some hTwins => exact .pure hTwins
  | none =>
    refine .invalid kind ?_
    rw [Reason.text_unknownMember, Reason.text_unknownMember,
      Ty.compact_eq_of_tree hType.type_tree]

/-- An update, by position or by the name of a member. -/
theorem checkUpdate_same {type type' : Ty} {source source' field field' value value' : Expr}
    (hType : TyTwins P type type') (hSource : ExprTwins P source source')
    (hField : ExprTwins P field field') (hValue : ExprTwins P value value') :
    SameCheck (Expr.checkUpdate type source field value)
      (Expr.checkUpdate type' source' field' value') := by
  have hElement := Ty.subtype?_rel (hP.twins_shape_type hType)
  have hFieldShape := hP.twins_shape_expr hField
  have hKind : field.kind = field'.kind := hFieldShape.kind_eq
  unfold Expr.checkUpdate
  refine (hP.require_same _ _ (.plain rfl) hType).seq ?_
  refine (hP.require_same _ _ (.type hType) (hP.twins_type hSource)).seq ?_
  generalize type.subtype? = x, type'.subtype? = y at hElement
  cases hElement with
  | some hElement =>
    refine (hP.require_same _ _ (.plain rfl) (hP.twins_type hField)).seq ?_
    exact hP.require_same _ _ (.type hElement) (hP.twins_type hValue)
  | none =>
    dsimp only
    rw [Expr.constantString?_congr hFieldShape, hKind]
    split
    · refine (hP.memberType_same _ hType _).bind fun member member' hMember => ?_
      exact hP.require_same _ _ (.type hMember) (hP.twins_type hValue)
    · exact .self _

/-- The check of an expression comes out the same for twins as result types and operands. -/
theorem check_expr_same {type type' : Ty} {s s' : ExprShape Expr} (hType : TyTwins P type type')
    (hShape : s.Rel (ExprTwins P) s') : SameCheck (Expr.check type s) (Expr.check type' s') := by
  cases hShape with
  | constantInt value => exact hP.require_same _ _ (.plain rfl) hType
  | constantBool value => exact hP.require_same _ _ (.plain rfl) hType
  | constantString value => exact hP.require_same _ _ (.plain rfl) hType
  | constantStruct hMembers =>
    have hTypes := Ty.members?_rel (hP.twins_shape_type hType)
    unfold Expr.check
    refine (hP.require_same _ _ (.plain rfl) hType).seq ?_
    generalize type.members? = x, type'.members? = y at hTypes
    cases hTypes with
    | none => exact .pure trivial
    | @some a b hBoth =>
      dsimp only
      rw [hBoth.1.length_eq, hMembers.length_eq]
      exact SameChecked.seq (.self _) (hP.checkMembers_same _ hMembers hBoth.1)
  | constantUnion initField hMembers =>
    unfold Expr.check
    refine (hP.require_same _ _ (.plain rfl) hType).seq ?_
    cases hMembers with
    | nil => exact .self _
    | cons hValue hRest =>
      cases hRest with
      | nil =>
        refine (hP.memberType_same _ hType _).bind fun member member' hMember => ?_
        exact hP.require_same _ _ (.type hMember) (hP.twins_type hValue)
      | cons _ hRest =>
        dsimp only [List.length_cons]
        rw [hRest.length_eq]
        exact .self _
  | constantArray hMembers => exact hP.checkArray_same hType hMembers
  | constantArrayOf hInitializer =>
    have hTypeShape := hP.twins_shape_type hType
    unfold Expr.check
    generalize type.shape = x, type'.shape = y at hTypeShape
    cases hTypeShape with
    | array infinite hElement hSize =>
      exact hP.require_same _ _ (.type hElement) (hP.twins_type hInitializer)
    | _ => exact hP.require_same _ _ (.plain rfl) hType
  | symbol name => exact .self _
  | ite hCond hTrue hFalse =>
    refine (hP.require_same _ _ (.plain rfl) (hP.twins_type hCond)).seq ?_
    refine (hP.require_same _ _ (.type hType) (hP.twins_type hTrue)).seq ?_
    exact hP.require_same _ _ (.type hType) (hP.twins_type hFalse)
  | binary op hLeft hRight =>
    exact hP.checkBinary_same op hType (hP.twins_type hLeft) (hP.twins_type hRight)
  | unary op hOperand => exact hP.checkUnary_same op hType hOperand
  | update hSource hField hValue => exact hP.checkUpdate_same hType hSource hField hValue
  | member name hSource =>
    refine (hP.require_same _ _ (.plain rfl) (hP.twins_type hSource)).seq ?_
    refine (hP.memberType_same _ (hP.twins_type hSource) _).bind fun member member' hMember => ?_
    exact hP.require_same _ _ (.type hMember) hType
  | @index source _ source' _ hSource hPosition =>
    have hElement := Ty.subtype?_rel (hP.twins_shape_type (hP.twins_type hSource))
    unfold Expr.check
    refine (hP.require_same _ _ (.plain rfl) (hP.twins_type hSource)).seq ?_
    refine (hP.require_same _ _ (.plain rfl) (hP.twins_type hPosition)).seq ?_
    generalize source.type.subtype? = x, source'.type.subtype? = y at hElement
    cases hElement with
    | some hElement => exact hP.require_same _ _ (.type hElement) hType
    | none => exact hP.require_same _ _ (.plain rfl) hType

end Regular

end TermGraph
