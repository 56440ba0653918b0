import TermGraph.Proofs.Guarantees

/-!
# What a rejection blames

A rejection names a kind and, where a type does not fit, a field, what was expected there and what
was found. The checks raise it in many places, and what they test is often not written in the same
words as what they report.

* `Supplied` says which type the arguments supply for a field. In a list of values it is the type of
  the first that is not as asked.
* `Rejection.Justified` says that a rejection is about the kind to be made, and that the type it
  blames was supplied for the field it names and is not what it says was expected.
* `Check.Blames` lifts this to checks; it goes through sequences of checks (`Blames.bind`).

Main statement: whatever is refused, the rejection is justified (`rejections_are_justified`).
-/

namespace TermGraph

-- ---------------------------------------------------------------------------
-- What a rejection should say
-- ---------------------------------------------------------------------------

/-- The type that the arguments supply for a field, where `asked` gives the type that a value must
have at each position of a list. -/
inductive Supplied (fields : List (Field Ty Expr)) (asked : Nat → Option Ty) : String → Ty → Prop
  | itself {field : String} {t : Ty} (hField : ⟨field, .type t⟩ ∈ fields) :
    Supplied fields asked field t
  | operand {field : String} {e : Expr} (hField : ⟨field, .expr e⟩ ∈ fields) :
    Supplied fields asked field e.type
  | optional {field : String} {e : Expr} (hField : ⟨field, .optExpr (some e)⟩ ∈ fields) :
    Supplied fields asked field e.type
  /-- All values before are as asked, and this one is not. -/
  | element {field : String} {before : List Expr} {e : Expr} {after : List Expr} {t : Ty}
    (hField : ⟨field, .exprs (before ++ e :: after)⟩ ∈ fields)
    (hBefore : ∀ i e', before[i]? = some e' → ∃ t', asked i = some t' ∧ e'.type.tree = t'.tree)
    (hAsked : asked before.length = some t) (hOther : e.type.tree ≠ t.tree) :
    Supplied fields asked field e.type

/-- A rejection that is to the point: it is about the kind to be made, and the type that it blames
was supplied for the field that it names and is not as expected. -/
inductive Rejection.Justified (kind : Kind) (fields : List (Field Ty Expr))
    (asked : Nat → Option Ty) : Rejection → Prop
  | mismatch {field : String} {expected : Expected} {found : Ty}
    (hSupplied : Supplied fields asked field found) (hRefused : expected.accepts found = false)
    (hUnmet : ¬ expected.Meets found.tree) :
    Justified kind fields asked (.mismatch kind field expected found)
  | invalid {reason : Reason} : Justified kind fields asked (.invalid kind reason)

/-- The type that a literal of a given type asks of its value at a position. -/
def ExprShape.asked (type : Ty) : ExprShape Expr → Nat → Option Ty
  | .constantStruct _, i => type.members?.bind (·.1[i]?)
  | .constantUnion _ initField, _ => type.memberType? initField
  | .constantArray _, _ => type.subtype?
  | _, _ => none

/-- The rejection of a type that was to be made is justified. -/
def TyShape.Justifies (shape : TyShape Ty Expr) : Rejection → Prop :=
  Rejection.Justified (.type shape.kind) shape.fields fun _ => none

/-- The rejection of an expression that was to be made is justified. -/
def ExprShape.Justifies (type : Ty) (shape : ExprShape Expr) : Rejection → Prop :=
  Rejection.Justified (.expr shape.kind) (shape.fields ++ [⟨"type", .type type⟩])
    (shape.asked type)

-- ---------------------------------------------------------------------------
-- Checks one after the other
-- ---------------------------------------------------------------------------

namespace Check

variable {α : Type} {Q : Rejection → Prop}

/-- If the check fails, `Q` holds of the rejection. -/
def Blames (Q : Rejection → Prop) (x : Checked α) : Prop :=
  ∀ r, x.outcome = .error r → Q r

/-- What passes blames nothing. -/
theorem blames_pure (a : α) : Blames Q (pure a : Checked α) :=
  fun _ h => nomatch h

/-- A refusal for a reason blames the contents. -/
theorem blames_invalid {kind : Kind} {reason : Reason} (h : Q (.invalid kind reason)) :
    Blames Q (do refuse (← invalid kind reason) : Checked α) := by
  intro r hr
  rwa [← Except.error.inj hr]

/-- What is checked later may use that the check before succeeded. -/
theorem Blames.bind {x : Checked α} {f : α → Check} (hx : Blames Q x)
    (hf : ∀ a, x.outcome = .ok a → Blames Q (f a)) : Blames Q (x >>= f) := by
  intro r hr
  rw [Checked.outcome_bind] at hr
  cases hFirst : x.outcome with
  | error r' =>
    rw [hFirst] at hr
    exact hx r (hFirst.trans (congrArg Except.error (Except.error.inj hr)))
  | ok a =>
    rw [hFirst] at hr
    exact hf a hFirst r hr

/-- A requirement blames a type that is not as expected. -/
theorem blames_require_of {kind : Kind} {field : String} {expected : Expected} {found : Ty}
    (h : expected.accepts found = false → Q (.mismatch kind field expected found)) :
    Blames Q (require kind field expected found) := by
  intro r hr
  rw [outcome_require] at hr
  split at hr
  · cases hr
  · rw [← Except.error.inj hr]
    exact h (Bool.eq_false_iff.mpr ‹_›)

/-- A condition blames contents that do not satisfy it. -/
theorem blames_ensure_of {condition : Bool} {kind : Kind} {reason : Reason}
    (h : condition = false → Q (.invalid kind reason)) :
    Blames Q (ensure condition kind reason) := by
  intro r hr
  rw [outcome_ensure] at hr
  split at hr
  · cases hr
  · rw [← Except.error.inj hr]
    exact h (Bool.eq_false_iff.mpr ‹_›)

/-- A condition blames contents at most. -/
theorem blames_ensure {condition : Bool} {kind : Kind} {reason : Reason}
    (h : Q (.invalid kind reason)) : Blames Q (ensure condition kind reason) :=
  blames_ensure_of fun _ => h

end Check

open Check

-- ---------------------------------------------------------------------------
-- Types
-- ---------------------------------------------------------------------------

/-- The names of members are blamed as contents. -/
theorem Ty.blames_checkMemberNames {Q : Rejection → Prop} {kind : Kind}
    (h : ∀ reason, Q (.invalid kind reason)) (seen names : List Name) :
    Blames Q (checkMemberNames kind seen names) := by
  induction names generalizing seen with
  | nil => exact blames_pure ()
  | cons name names ih =>
    rw [checkMemberNames]
    exact (blames_ensure (h _)).bind fun _ _ => (blames_ensure (h _)).bind fun _ _ => ih _

/-- The size of an array is all that can mismatch in a type. -/
theorem Ty.blames_check (shape : TyShape Ty Expr) : Blames shape.Justifies (Ty.check shape) := by
  have hInvalid : ∀ reason, shape.Justifies (.invalid (.type shape.kind) reason) :=
    fun _ => .invalid
  cases shape with
  | bool => exact blames_pure ()
  | empty => exact blames_pure ()
  | pointer target => exact blames_pure ()
  | symbol name => exact blames_ensure .invalid
  | cppName name arguments => exact blames_ensure .invalid
  | aggregate form members names name =>
    exact (blames_ensure .invalid).bind fun _ _ => blames_checkMemberNames hInvalid [] names
  | code arguments result names ellipsis => exact blames_ensure .invalid
  | array element size infinite =>
    cases infinite with
    | true =>
      cases size with
      | none => exact blames_pure ()
      | some size => exact blames_invalid .invalid
    | false =>
      cases size with
      | none => exact blames_invalid .invalid
      | some size =>
        have hSupplied : Supplied (TyShape.array element (some size) false).fields (fun _ => none)
            "array_size" size.type := .optional (by simp [TyShape.fields])
        refine blames_require_of fun hRefused => .mismatch hSupplied hRefused ?_
        rwa [← Expected.accepts_class rfl, Bool.not_eq_true]
  | unsignedbv width => exact blames_ensure .invalid
  | signedbv width => exact blames_ensure .invalid
  | string width => exact blames_ensure .invalid
  | fixedbv width integerBits =>
    exact (blames_ensure .invalid).bind fun _ _ => blames_ensure .invalid
  | floatbv fraction exponent =>
    exact (blames_ensure .invalid).bind fun _ _ => blames_ensure .invalid

-- ---------------------------------------------------------------------------
-- Expressions
-- ---------------------------------------------------------------------------

namespace Regular

variable {h : Hasher} {P : Node → Prop} (hP : Regular h P)

include hP

/-- A type is accepted if its tree meets the expectation, where the types that are named are among
the nodes in question. -/
theorem accepts_iff_meets {expected : Expected} {found : Ty}
    (hNamed : ∀ t ∈ expected.named, P (.type t)) (hFound : P (.type found)) :
    expected.accepts found = true ↔ expected.Meets found.tree := by
  cases expected with
  | type t => exact hP.accepts_type hFound (hNamed t List.mem_cons_self)
  | pointerTo t => exact hP.accepts_pointerTo hFound (hNamed t List.mem_cons_self)
  | _ => exact Expected.accepts_class rfl found

/-- A requirement blames a type that was supplied and does not meet the expectation. -/
theorem blames_require {kind : Kind} {fields : List (Field Ty Expr)} {asked : Nat → Option Ty}
    {field : String} {expected : Expected} {found : Ty}
    (hNamed : ∀ t ∈ expected.named, P (.type t)) (hFound : P (.type found))
    (hSupplied : ¬ expected.Meets found.tree → Supplied fields asked field found) :
    Blames (Rejection.Justified kind fields asked) (require kind field expected found) := by
  refine blames_require_of fun hRefused => ?_
  have hUnmet : ¬ expected.Meets found.tree := by
    rwa [← hP.accepts_iff_meets hNamed hFound, Bool.not_eq_true]
  exact .mismatch (hSupplied hUnmet) hRefused hUnmet

/-- The first value that is not of the type asked is blamed. The induction is on the values that
are left; `before` are those that were found to be as asked. -/
theorem blames_checkMembers {kind : Kind} {fields : List (Field Ty Expr)}
    {asked : Nat → Option Ty} {before values : List Expr} {members : List Ty}
    (hField : ⟨"datatype_members", .exprs (before ++ values)⟩ ∈ fields)
    (hBefore : ∀ i e, before[i]? = some e → ∃ t, asked i = some t ∧ e.type.tree = t.tree)
    (hAsked : ∀ i, i < members.length → asked (before.length + i) = members[i]?)
    (hValues : ∀ v ∈ values, P (.expr v)) (hMembers : ∀ m ∈ members, P (.type m)) :
    Blames (Rejection.Justified kind fields asked) (Expr.checkMembers kind values members) := by
  induction values generalizing before members with
  | nil => exact blames_pure ()
  | cons value values ih =>
    cases members with
    | nil => exact blames_pure ()
    | cons member members =>
      obtain ⟨hValue, hValues'⟩ := List.forall_mem_cons.mp hValues
      obtain ⟨hMember, hMembers'⟩ := List.forall_mem_cons.mp hMembers
      have hNamed : ∀ t ∈ (Expected.type member).named, P (.type t) :=
        List.forall_mem_singleton.mpr hMember
      have hFound : P (.type value.type) := hP.type_of_expr hValue
      have hHere : asked before.length = some member := hAsked 0 (by simp)
      rw [Expr.checkMembers]
      refine (hP.blames_require hNamed hFound (.element hField hBefore hHere)).bind fun _ hOk => ?_
      have hSame : value.type.tree = member.tree :=
        (hP.accepts_iff_meets hNamed hFound).mp ((require_eq_ok ..).mp hOk)
      have hField' : ⟨"datatype_members", .exprs ((before ++ [value]) ++ values)⟩ ∈ fields := by
        rwa [List.append_assoc]
      refine ih hField' (fun i e he => ?_) (fun i hi => ?_) hValues' hMembers'
      · rcases Nat.lt_trichotomy i before.length with hlt | rfl | hgt
        · rw [List.getElem?_append_left hlt] at he
          exact hBefore i e he
        · rw [List.getElem?_concat_length] at he
          cases he
          exact ⟨member, hHere, hSame⟩
        · rw [List.getElem?_eq_none (by simp; omega)] at he
          cases he
      · rw [List.length_append, List.length_singleton, Nat.add_assoc, Nat.add_comm 1 i]
        exact hAsked (i + 1) (by simpa using hi)

omit hP in
/-- Elements are checked as the values of a struct whose members are all of the element type. -/
theorem checkElements_eq_checkMembers (kind : Kind) (element : Ty) (values : List Expr) :
    Expr.checkElements kind element values =
      Expr.checkMembers kind values (List.replicate values.length element) := by
  induction values with
  | nil => rfl
  | cons value values ih => rw [Expr.checkElements, ih]; rfl

-- ---------------------------------------------------------------------------
-- One lemma for each form of expression
-- ---------------------------------------------------------------------------

section Call

variable {type : Ty} {shape : ExprShape Expr} (hType : P (.type type))
  (hOperands : ∀ e ∈ shape.operands, P (.expr e))

omit hP in
theorem named_none {expected : Expected} (h : expected.named = []) :
    ∀ t ∈ expected.named, P (.type t) := by
  rw [h]
  exact List.forall_mem_nil _

omit hP in
theorem named_type {t : Ty} (ht : P (.type t)) : ∀ u ∈ (Expected.type t).named, P (.type u) :=
  List.forall_mem_singleton.mpr ht

include hType in
/-- The result type is blamed as the field `type`. -/
theorem blames_result {expected : Expected} (hNamed : ∀ t ∈ expected.named, P (.type t)) :
    Blames (shape.Justifies type) (require (.expr shape.kind) "type" expected type) :=
  hP.blames_require hNamed hType fun _ =>
    .itself (List.mem_append_right _ (List.mem_singleton.mpr rfl))

include hOperands in
/-- The type of an operand is blamed as the field of the operand. -/
theorem blames_operand {field : String} {e : Expr} {expected : Expected}
    (hField : ⟨field, .expr e⟩ ∈ (shape.fields : List (Field Ty Expr)))
    (hNamed : ∀ t ∈ expected.named, P (.type t)) :
    Blames (shape.Justifies type) (require (.expr shape.kind) field expected e.type) :=
  hP.blames_require hNamed
    (hP.type_of_expr (hOperands e (ExprShape.mem_operands_of_field hField List.mem_cons_self)))
    fun _ => .operand (List.mem_append_left _ hField)

end Call

section Forms

variable {type : Ty} (hType : P (.type type))

include hType

/-- A name that finds no member is blamed as contents. -/
theorem blames_memberType {kind : Kind} {fields : List (Field Ty Expr)} {asked : Nat → Option Ty}
    {name : Name} {rest : Ty → Check}
    (hRest : ∀ m, type.memberType? name = some m → P (.type m) →
      Blames (Rejection.Justified kind fields asked) (rest m)) :
    Blames (Rejection.Justified kind fields asked) (Expr.memberType kind type name >>= rest) := by
  rw [Expr.memberType]
  cases hMember : type.memberType? name with
  | none => exact blames_invalid .invalid
  | some m => exact hRest m hMember (hP.type_of_mem hType (Ty.mem_types_of_memberType? hMember))

omit hType in
/-- The values of a literal are blamed in order, from the first one on. -/
theorem blames_values {shape : ExprShape Expr} {values : List Expr} {members : List Ty}
    (hField : ⟨"datatype_members", .exprs values⟩ ∈ (shape.fields : List (Field Ty Expr)))
    (hAsked : ∀ i, i < members.length → shape.asked type i = members[i]?)
    (hValues : ∀ v ∈ values, P (.expr v)) (hMembers : ∀ m ∈ members, P (.type m)) :
    Blames (shape.Justifies type) (Expr.checkMembers (.expr shape.kind) values members) := by
  have hField' : ⟨"datatype_members", .exprs ([] ++ values)⟩ ∈
      shape.fields ++ [⟨"type", Value.type type⟩] := List.mem_append_left _ hField
  refine hP.blames_checkMembers hField' (fun i e he => ?_) (fun i hi => ?_) hValues hMembers
  · cases he
  · rw [List.length_nil, Nat.zero_add]
    exact hAsked i hi

/-- A literal struct: its type, the number of its values, the values. -/
theorem blames_struct {members : List Expr} (hMembers : ∀ e ∈ members, P (.expr e)) :
    Blames ((ExprShape.constantStruct members).Justifies type)
      (Expr.check type (.constantStruct members)) := by
  rw [Expr.check]
  refine Blames.bind (hP.blames_result hType (named_none rfl)) fun _ _ => ?_
  rw [Ty.members?]
  cases hShape : type.shape with
  | aggregate form types names tag =>
    have hTypes : ∀ m ∈ types, P (.type m) := by
      intro m hm
      apply hP.type_of_mem hType
      simpa [hShape, TyShape.types, TyShape.fields, Value.heldTypes] using hm
    refine Blames.bind (blames_ensure .invalid) fun _ _ => ?_
    refine hP.blames_values List.mem_cons_self (fun i _ => ?_) hMembers hTypes
    rw [ExprShape.asked, Ty.members?, hShape]
    rfl
  | _ => exact blames_pure ()

/-- A literal union: its type, the number of its values, the name of the member, the value. -/
theorem blames_union {members : List Expr} {initField : Name}
    (hMembers : ∀ e ∈ members, P (.expr e)) :
    Blames ((ExprShape.constantUnion members initField).Justifies type)
      (Expr.check type (.constantUnion members initField)) := by
  rcases members with _ | ⟨value, _ | ⟨value', rest⟩⟩
  · exact Blames.bind (hP.blames_result hType (named_none rfl)) fun _ _ => blames_invalid .invalid
  · refine Blames.bind (hP.blames_result hType (named_none rfl)) fun _ _ => ?_
    refine hP.blames_memberType hType fun m hMember hm => ?_
    have hField : ⟨"datatype_members", .exprs ([] ++ value :: [])⟩ ∈
        (ExprShape.constantUnion [value] initField).fields ++ [⟨"type", Value.type type⟩] :=
      List.mem_append_left _ List.mem_cons_self
    refine hP.blames_require (named_type hm) (hP.type_of_expr (hMembers _ List.mem_cons_self))
      (.element hField (fun i e he => ?_) hMember)
    cases he
  · exact Blames.bind (hP.blames_result hType (named_none rfl)) fun _ _ => blames_invalid .invalid

/-- An array of given elements: its type, its size, the elements. -/
theorem blames_array {members : List Expr} (hMembers : ∀ e ∈ members, P (.expr e)) :
    Blames ((ExprShape.constantArray members).Justifies type)
      (Expr.check type (.constantArray members)) := by
  rw [Expr.check, Expr.checkArray]
  split
  · rename_i element size infinite hShape
    have hElement : P (.type element) := hP.element_of_array hType hShape
    have hElements : Blames ((ExprShape.constantArray members).Justifies type)
        (Expr.checkElements (.expr .constantArray) element members) := by
      rw [checkElements_eq_checkMembers]
      refine hP.blames_values List.mem_cons_self (fun i hi => ?_) hMembers fun m hm => ?_
      · rw [ExprShape.asked, Ty.subtype?, hShape, List.getElem?_eq_getElem hi,
          List.getElem_replicate]
      · rwa [(List.mem_replicate.mp hm).2]
    refine Blames.bind (blames_ensure .invalid) fun _ _ => ?_
    cases size.bind Expr.constantInt? with
    | some n => exact Blames.bind (blames_ensure .invalid) fun _ _ => hElements
    | none => exact hElements
  · exact hP.blames_result hType (named_none rfl)

/-- An array of one element: its type, the element. -/
theorem blames_arrayOf {initializer : Expr}
    (hOperands : ∀ e ∈ (ExprShape.constantArrayOf initializer).operands, P (.expr e)) :
    Blames ((ExprShape.constantArrayOf initializer).Justifies type)
      (Expr.check type (.constantArrayOf initializer)) := by
  rw [Expr.check]
  split
  · rename_i element size infinite hShape
    exact hP.blames_operand hOperands List.mem_cons_self
      (named_type (hP.element_of_array hType hShape))
  · exact hP.blames_result hType (named_none rfl)

/-- The binary operators, by family. -/
theorem blames_binary {op : BinaryOp} {left right : Expr}
    (hOperands : ∀ e ∈ (ExprShape.binary op left right).operands, P (.expr e)) :
    Blames ((ExprShape.binary op left right).Justifies type)
      (Expr.check type (.binary op left right)) := by
  have hSide1 : ⟨"side_1", .expr left⟩ ∈
      ((ExprShape.binary op left right).fields : List (Field Ty Expr)) := by simp [ExprShape.fields]
  have hSide2 : ⟨"side_2", .expr right⟩ ∈
      ((ExprShape.binary op left right).fields : List (Field Ty Expr)) := by simp [ExprShape.fields]
  have hLeft : P (.type left.type) :=
    hP.type_of_expr (hOperands left (ExprShape.mem_operands_of_field hSide1 List.mem_cons_self))
  rw [Expr.check, Expr.checkBinary]
  cases op.family with
  | relation =>
    exact Blames.bind (hP.blames_result hType (named_none rfl)) fun _ _ =>
      hP.blames_operand hOperands hSide2 (named_type hLeft)
  | logical | pointer =>
    exact Blames.bind (hP.blames_result hType (named_none rfl)) fun _ _ =>
      Blames.bind (hP.blames_operand hOperands hSide1 (named_none rfl)) fun _ _ =>
        hP.blames_operand hOperands hSide2 (named_none rfl)
  | shift =>
    exact Blames.bind (hP.blames_result hType (named_none rfl)) fun _ _ =>
      Blames.bind (hP.blames_operand hOperands hSide1 (named_type hType)) fun _ _ =>
        hP.blames_operand hOperands hSide2 (named_none rfl)
  | bitwise =>
    exact Blames.bind (hP.blames_result hType (named_none rfl)) fun _ _ =>
      Blames.bind (hP.blames_operand hOperands hSide1 (named_type hType)) fun _ _ =>
        hP.blames_operand hOperands hSide2 (named_type hType)
  | arithmetic =>
    refine Blames.bind (hP.blames_result hType ?_) fun _ _ =>
      Blames.bind (hP.blames_operand hOperands hSide1 (named_type hType)) fun _ _ =>
        hP.blames_operand hOperands hSide2 (named_type hType)
    split <;> exact named_none rfl

/-- The unary operators. An overflow check blames an operand that cannot overflow as contents. -/
theorem blames_unary {op : UnaryOp} {operand : Expr}
    (hOperands : ∀ e ∈ (ExprShape.unary op operand).operands, P (.expr e)) :
    Blames ((ExprShape.unary op operand).Justifies type)
      (Expr.check type (.unary op operand)) := by
  have hField : ⟨op.operandField, .expr operand⟩ ∈
      ((ExprShape.unary op operand).fields : List (Field Ty Expr)) := List.mem_cons_self
  have hOperand : P (.type operand.type) :=
    hP.type_of_expr (hOperands _ (ExprShape.mem_operands_of_field hField List.mem_cons_self))
  cases op with
  | typecast => exact blames_pure ()
  | not | pointerOffset | pointerObject | isNan =>
    exact Blames.bind (hP.blames_result hType (named_none rfl)) fun _ _ =>
      hP.blames_operand hOperands hField (named_none rfl)
  | bitNot | neg | abs =>
    exact Blames.bind (hP.blames_result hType (named_none rfl)) fun _ _ =>
      hP.blames_operand hOperands hField (named_type hType)
  -- the test looks at the target alone, the report is about the pointer type around it
  | addressOf => exact hP.blames_result hType (List.forall_mem_singleton.mpr hOperand)
  | dereference =>
    exact hP.blames_operand hOperands hField (List.forall_mem_singleton.mpr hType)
  | overflow =>
    exact Blames.bind (hP.blames_result hType (named_none rfl)) fun _ _ => blames_ensure .invalid

/-- An update: its type, its source, the field and the value. -/
theorem blames_update {source field value : Expr}
    (hOperands : ∀ e ∈ (ExprShape.update source field value).operands, P (.expr e)) :
    Blames ((ExprShape.update source field value).Justifies type)
      (Expr.check type (.update source field value)) := by
  rw [Expr.check, Expr.checkUpdate]
  refine Blames.bind (hP.blames_result hType (named_none rfl)) fun _ _ =>
    Blames.bind (hP.blames_operand hOperands (by simp [ExprShape.fields]) (named_type hType))
      fun _ _ => ?_
  cases hSubtype : type.subtype? with
  | some element =>
    have hElement : P (.type element) := hP.type_of_mem hType (Ty.mem_types_of_subtype? hSubtype)
    exact Blames.bind (hP.blames_operand hOperands (by simp [ExprShape.fields]) (named_none rfl))
      fun _ _ => hP.blames_operand hOperands (by simp [ExprShape.fields]) (named_type hElement)
  | none =>
    cases field.constantString? with
    | some name =>
      exact hP.blames_memberType hType fun m _ hm =>
        hP.blames_operand hOperands (by simp [ExprShape.fields]) (named_type hm)
    | none => exact blames_invalid .invalid

/-- An access by name: its source, the name, the result type. -/
theorem blames_member {source : Expr} {name : Name}
    (hOperands : ∀ e ∈ (ExprShape.member source name).operands, P (.expr e)) :
    Blames ((ExprShape.member source name).Justifies type)
      (Expr.check type (.member source name)) := by
  have hField : ⟨"source_value", .expr source⟩ ∈
      ((ExprShape.member source name).fields : List (Field Ty Expr)) := List.mem_cons_self
  have hSource : P (.type source.type) :=
    hP.type_of_expr (hOperands _ (ExprShape.mem_operands_of_field hField List.mem_cons_self))
  rw [Expr.check]
  exact Blames.bind (hP.blames_operand hOperands hField (named_none rfl)) fun _ _ =>
    hP.blames_memberType hSource fun m _ hm => hP.blames_result hType (named_type hm)

/-- An access by position: its source, the position, the result type. -/
theorem blames_index {source position : Expr}
    (hOperands : ∀ e ∈ (ExprShape.index source position).operands, P (.expr e)) :
    Blames ((ExprShape.index source position).Justifies type)
      (Expr.check type (.index source position)) := by
  have hField : ⟨"source_value", .expr source⟩ ∈
      ((ExprShape.index source position).fields : List (Field Ty Expr)) := List.mem_cons_self
  have hSource : P (.type source.type) :=
    hP.type_of_expr (hOperands _ (ExprShape.mem_operands_of_field hField List.mem_cons_self))
  rw [Expr.check]
  refine Blames.bind (hP.blames_operand hOperands hField (named_none rfl)) fun _ _ =>
    Blames.bind (hP.blames_operand hOperands (by simp [ExprShape.fields]) (named_none rfl))
      fun _ _ => ?_
  cases hSubtype : source.type.subtype? with
  | some element =>
    have hElement := hP.type_of_mem hSource (Ty.mem_types_of_subtype? hSubtype)
    exact hP.blames_result hType (named_type hElement)
  | none => exact hP.blames_result hType (named_none rfl)

/-- Whatever the check of an expression says about it is justified. -/
theorem blames_check {shape : ExprShape Expr} (hOperands : ∀ e ∈ shape.operands, P (.expr e)) :
    Blames (shape.Justifies type) (Expr.check type shape) := by
  have hList : ∀ {field : String} {es : List Expr},
      ⟨field, .exprs es⟩ ∈ (shape.fields : List (Field Ty Expr)) → ∀ e ∈ es, P (.expr e) :=
    fun hField e he => hOperands e (ExprShape.mem_operands_of_field hField he)
  cases shape with
  | constantInt value => exact hP.blames_result hType (named_none rfl)
  | constantBool value => exact hP.blames_result hType (named_none rfl)
  | constantString value => exact hP.blames_result hType (named_none rfl)
  | constantStruct members =>
    exact hP.blames_struct hType (hList List.mem_cons_self)
  | constantUnion members initField =>
    exact hP.blames_union hType (hList List.mem_cons_self)
  | constantArray members =>
    exact hP.blames_array hType (hList List.mem_cons_self)
  | constantArrayOf initializer => exact hP.blames_arrayOf hType hOperands
  | symbol name => exact blames_ensure .invalid
  | ite cond onTrue onFalse =>
    exact Blames.bind (hP.blames_operand hOperands (by simp [ExprShape.fields]) (named_none rfl))
      fun _ _ => Blames.bind (hP.blames_operand hOperands (by simp [ExprShape.fields])
        (named_type hType)) fun _ _ => hP.blames_operand hOperands (by simp [ExprShape.fields])
          (named_type hType)
  | binary op left right => exact hP.blames_binary hType hOperands
  | unary op operand => exact hP.blames_unary hType hOperands
  | update source field value => exact hP.blames_update hType hOperands
  | member source name => exact hP.blames_member hType hOperands
  | index source position => exact hP.blames_index hType hOperands

end Forms

end Regular

-- ---------------------------------------------------------------------------
-- Nodes that are refused
-- ---------------------------------------------------------------------------

/-- What is returned is the rejection of the check. -/
theorem Store.outcome_of_make_error {α : Type} {s : Store} {checked : Check}
    {build : Hasher → Nat → α} {r : Rejection} (h : (s.make checked build).1 = .error r) :
    checked.outcome = .error r := by
  cases hOutcome : checked.outcome with
  | error r' =>
    rw [Store.make_of_error hOutcome] at h
    rw [Except.error.inj h]
  | ok _ =>
    rw [Store.make_of_ok hOutcome] at h
    cases h

variable {h : Hasher} {w : World}

/-- Whatever type or expression is refused, the rejection is about the kind that was to be made; and
if it says that a type does not fit, that type was supplied for the field that it names, and is not
what it says was expected. -/
theorem rejections_are_justified (hw : Reached h w) :
    (∀ (shape : TyShape Ty Expr) (r : Rejection),
      (w.store.makeType shape).1 = .error r → shape.Justifies r) ∧
    (∀ (type : Ty) (shape : ExprShape Expr) (r : Rejection), w.Occurs (.type type) →
      (∀ e ∈ shape.operands, w.Occurs (.expr e)) →
        (w.store.makeExpr type shape).1 = .error r → shape.Justifies type r) := by
  constructor
  · intro shape r hError
    exact Ty.blames_check shape r (Store.outcome_of_make_error hError)
  · intro type shape r hType hOperands hError
    exact hw.sound.regular.blames_check hType hOperands r (Store.outcome_of_make_error hError)

/-- In an array literal the first value is a byte, as asked, and the second is not. -/
theorem rejections_are_justified_sample :
    let bool : Ty := .build .fnv 5 .bool
    let truth : Expr := .build .fnv 6 bool (.constantBool true)
    let w := (Sample.world.perform (.makeType .bool)).perform (.makeExpr bool (.constantBool true))
    let blamed : Rejection :=
      .mismatch (.expr .constantArray) "datatype_members" (.type Sample.byte) bool
    Reached .fnv w ∧ w.Occurs (.expr truth) ∧
      (w.store.makeExpr Sample.row (.constantArray [Sample.four, truth])).1 = .error blamed ∧
      (ExprShape.constantArray [Sample.four, truth]).Justifies Sample.row blamed := by
  intro bool truth w blamed
  have hBoolMade : Reached .fnv (Sample.world.perform (.makeType .bool)) :=
    Sample.reached.call nofun
  have hForTruth : ∀ n ∈ [Node.type bool], n ∈ (Sample.world.perform (.makeType .bool)).held :=
    List.forall_mem_singleton.mpr (.head _)
  have hReached : Reached .fnv w := hBoolMade.call hForTruth
  have hOld : ∀ n ∈ Sample.world.held, w.Occurs n := fun n hn => .of_held (.tail _ (.tail _ hn))
  have hTruth : w.Occurs (.expr truth) := .of_held (.head _)
  have hBool : w.Occurs (.type bool) := .of_held (.tail _ (.head _))
  have hRow : w.Occurs (.type Sample.row) := hOld _ (by simp [Sample.world])
  have hFour : w.Occurs (.expr Sample.four) := hOld _ (by simp [Sample.world])
  have hByte : w.Occurs (.type Sample.byte) := hOld _ (by simp [Sample.world])
  have hRegular := hReached.sound.regular
  have hFits : (Expected.type Sample.byte).accepts Sample.byte = true :=
    (hRegular.accepts_type hByte hByte).mpr rfl
  have hMisfit : ¬ (Expected.type Sample.byte).accepts bool = true := by
    rw [hRegular.accepts_type hBool hByte]
    intro hTree
    cases congrArg TyTree.shape hTree
  have hCheck : (w.store.makeExpr Sample.row (.constantArray [Sample.four, truth])).1 =
      .error blamed := by
    have hElements : (Expr.check Sample.row (.constantArray [Sample.four, truth])).outcome =
        .error blamed := by
      show (require (.expr .constantArray) "datatype_members" (.type Sample.byte) Sample.byte >>=
        fun _ => require (.expr .constantArray) "datatype_members" (.type Sample.byte) bool >>=
          fun _ => pure ()).outcome = .error blamed
      rw [Checked.outcome_bind, outcome_require, if_pos hFits]
      show (require _ _ _ _ >>= fun _ => pure ()).outcome = .error blamed
      rw [Checked.outcome_bind, outcome_require, if_neg hMisfit]
      rfl
    rw [Store.makeExpr, Store.make_of_error hElements]
  have hOperands : ∀ e ∈ [Sample.four, truth], w.Occurs (.expr e) := by
    simpa using ⟨hFour, hTruth⟩
  exact ⟨hReached, hTruth, hCheck,
    (rejections_are_justified hReached).2 _ _ _ hRow hOperands hCheck⟩

end TermGraph
