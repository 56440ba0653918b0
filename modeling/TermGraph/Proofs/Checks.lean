import TermGraph.Proofs.Comparison
import TermGraph.Proofs.Rules
import TermGraph.Typing

/-!
# The checks accept what the rules allow

A check goes through the fields of a node and stops at the first that is wrong. Among nodes that are
themselves faithful and lawful (`Regular`) it succeeds if and only if the rule of the kind holds:
`Ty.check_iff` for types, `Expr.check_iff` for expressions. Where a check compares types it asks
whether they are equal, and there equal means the same tree.
-/

namespace TermGraph

open Check

/-- Nodes that live together, each of which carries what its tree gives and satisfies the rule of its
kind. -/
structure Regular (h : Hasher) (P : Node → Prop) : Prop extends Coherent P where
  faithful : ∀ n, P n → n.Faithful h
  lawful : ∀ n, P n → n.Lawful

-- ---------------------------------------------------------------------------
-- Checks one after the other
-- ---------------------------------------------------------------------------

namespace Check

/-- Contents are refused with the rejection that was built for them. -/
@[simp] theorem outcome_invalid {α : Type} (kind : Kind) (reason : Reason) :
    (do refuse (← invalid kind reason) : Checked α).outcome = .error (.invalid kind reason) :=
  rfl

/-- A type that is not as expected is refused with what was expected and found. -/
theorem outcome_require (kind : Kind) (field : String) (expected : Expected) (found : Ty) :
    (require kind field expected found).outcome =
      if expected.accepts found then .ok () else .error (.mismatch kind field expected found) := by
  rw [require]
  split <;> rfl

/-- Contents that do not satisfy the condition are refused with the reason. -/
theorem outcome_ensure (condition : Bool) (kind : Kind) (reason : Reason) :
    (ensure condition kind reason).outcome =
      if condition then .ok () else .error (.invalid kind reason) := by
  rw [ensure]
  split <;> rfl

/-- A type passes where it is asked for if and only if it is as expected. -/
@[simp] theorem require_eq_ok (kind : Kind) (field : String) (expected : Expected) (found : Ty) :
    (require kind field expected found).outcome = .ok () ↔ expected.accepts found = true := by
  rw [outcome_require]
  split <;> simp_all

/-- A condition passes where it is asked for if and only if it holds. -/
@[simp] theorem ensure_eq_ok (condition : Bool) (kind : Kind) (reason : Reason) :
    (ensure condition kind reason).outcome = .ok () ↔ condition = true := by
  rw [outcome_ensure]
  split <;> simp_all

/-- A check after a search succeeds if something was found and the check of it succeeds. -/
theorem bind_eq_ok {α : Type} (x : Checked α) (f : α → Check) :
    (x >>= f).outcome = .ok () ↔ ∃ a, x.outcome = .ok a ∧ (f a).outcome = .ok () := by
  rw [Checked.outcome_bind]
  cases x.outcome with
  | error r => simp [bind, Except.bind]
  | ok a => simp [bind, Except.bind]

/-- Two checks in a row succeed if both do. -/
theorem seq_eq_ok (x : Check) (f : Unit → Check) :
    (x >>= f).outcome = .ok () ↔ x.outcome = .ok () ∧ (f ()).outcome = .ok () := by
  rw [bind_eq_ok]
  constructor
  · rintro ⟨_, hx, hf⟩
    exact ⟨hx, hf⟩
  · rintro ⟨hx, hf⟩
    exact ⟨(), hx, hf⟩

end Check

-- ---------------------------------------------------------------------------
-- What is expected of a type
-- ---------------------------------------------------------------------------

namespace TyTree

/-- The kinds tell the forms of trees apart: what is of the kind of truth values is that type. -/
theorem kind_eq_bool {t : TyTree} : t.kind = .bool ↔ t = .node .bool := by
  obtain ⟨s⟩ := t
  cases s <;> simp [kind, shape, TyShape.kind, Form.kind_ne]

/-- What is of the kind of pointers is a pointer to something. -/
theorem kind_eq_pointer {t : TyTree} : t.kind = .pointer ↔ ∃ target, t = .node (.pointer target) := by
  obtain ⟨s⟩ := t
  cases s <;> simp [kind, shape, TyShape.kind, Form.kind_ne]

/-- What is of the kind of strings is a string of some width. -/
theorem kind_eq_string {t : TyTree} : t.kind = .string ↔ ∃ width, t = .node (.string width) := by
  obtain ⟨s⟩ := t
  cases s <;> simp [kind, shape, TyShape.kind, Form.kind_ne]

/-- What is of the kind of floats has a fraction and an exponent. -/
theorem kind_eq_floatbv {t : TyTree} :
    t.kind = .floatbv ↔ ∃ fraction exponent, t = .node (.floatbv fraction exponent) := by
  obtain ⟨s⟩ := t
  cases s <;> simp [kind, shape, TyShape.kind, Form.kind_ne]

/-- What is of the kind of arrays has elements. -/
theorem kind_eq_array {t : TyTree} :
    t.kind = .array ↔ ∃ element size infinite, t = .node (.array element size infinite) := by
  obtain ⟨s⟩ := t
  cases s with
  | array element size infinite => exact ⟨fun _ => ⟨element, size, infinite, rfl⟩, fun _ => rfl⟩
  | _ => simp [kind, shape, TyShape.kind, Form.kind_ne]

/-- What is of the kind of structs, or of unions, has members. -/
theorem kind_eq_form {t : TyTree} {form : Form} :
    t.kind = form.kind ↔ ∃ members names name, t = .node (.aggregate form members names name) := by
  obtain ⟨s⟩ := t
  cases s <;> simp [kind, shape, TyShape.kind, (Form.kind_ne _ _ _).symm]

/-- Bit vectors are of two kinds. -/
theorem isBitVector_iff {t : TyTree} :
    t.IsBitVector ↔ t.kind = .unsignedbv ∨ t.kind = .signedbv := by
  constructor
  · rintro (width | width)
    · exact .inl rfl
    · exact .inr rfl
  · obtain ⟨s⟩ := t
    cases s <;> simp [kind, shape, TyShape.kind, Form.kind_ne]
    · exact .unsigned _
    · exact .signed _

/-- The rules and the checks mean the same by a numeric type. -/
theorem isNumeric_iff {t : TyTree} : t.IsNumeric ↔ t.kind.isBitVectorLike = true := by
  constructor
  · rintro ((width | width) | _ | _) <;> rfl
  · obtain ⟨s⟩ := t
    cases s with
    | unsignedbv width => exact fun _ => .bitVector (.unsigned width)
    | signedbv width => exact fun _ => .bitVector (.signed width)
    | fixedbv width integerBits => exact fun _ => .fixed width integerBits
    | floatbv fraction exponent => exact fun _ => .float fraction exponent
    | aggregate form members names name => cases form <;> intro h <;> cases h
    | _ => intro h; cases h

end TyTree

/-- An aggregate is a struct or a union. -/
theorem Form.exists_iff {p : Form → Prop} : (∃ form, p form) ↔ p .struct ∨ p .union := by
  constructor
  · rintro ⟨_ | _, h⟩
    · exact .inl h
    · exact .inr h
  · rintro (h | h)
    · exact ⟨_, h⟩
    · exact ⟨_, h⟩

namespace Expected

/-- What an expectation says of a tree. -/
def Meets : Expected → TyTree → Prop
  | .type expected, t => t = expected.tree
  | .pointerTo target, t => t = .node (.pointer target.tree)
  | .bool, t => t = .node .bool
  | .bitVector, t => t.IsBitVector
  | .numeric, t => t.IsNumeric
  | .float, t => ∃ fraction exponent, t = .node (.floatbv fraction exponent)
  | .pointer, t => ∃ target, t = .node (.pointer target)
  | .array, t => ∃ element size infinite, t = .node (.array element size infinite)
  | .struct, t => ∃ members names name, t = .node (.aggregate .struct members names name)
  | .union, t => ∃ members names name, t = .node (.aggregate .union members names name)
  | .structOrUnion, t => ∃ form members names name, t = .node (.aggregate form members names name)
  | .aggregate, t => (∃ element size infinite, t = .node (.array element size infinite)) ∨
      ∃ form members names name, t = .node (.aggregate form members names name)
  | .indexable, t => (∃ element size infinite, t = .node (.array element size infinite)) ∨
      ∃ width, t = .node (.string width)
  | .string, t => ∃ width, t = .node (.string width)

/-- The types that an expectation names. -/
@[reducible] def named : Expected → List Ty
  | .type t => [t]
  | .pointerTo t => [t]
  | _ => []

/-- A class of types is told by the kind, so the tree decides. -/
theorem accepts_class {expected : Expected} (hClass : expected.named = []) (t : Ty) :
    expected.accepts t = true ↔ expected.Meets t.tree := by
  cases expected with
  | type u => cases hClass
  | pointerTo u => cases hClass
  | bool => simp only [accepts, Meets, Ty.isBool, beq_iff_eq, ← TyTree.kind_eq_bool, Ty.kind_tree]
  | bitVector =>
    simp only [accepts, Meets, Ty.isBitVector, Bool.or_eq_true, beq_iff_eq,
      TyTree.isBitVector_iff, Ty.kind_tree]
  | numeric => simp only [accepts, Meets, Ty.isNumeric, TyTree.isNumeric_iff, Ty.kind_tree]
  | float =>
    simp only [accepts, Meets, Ty.isFloat, beq_iff_eq, ← TyTree.kind_eq_floatbv, Ty.kind_tree]
  | pointer =>
    simp only [accepts, Meets, Ty.isPointer, beq_iff_eq, ← TyTree.kind_eq_pointer, Ty.kind_tree]
  | array =>
    simp only [accepts, Meets, Ty.isArray, beq_iff_eq, ← TyTree.kind_eq_array, Ty.kind_tree]
  | struct =>
    simp only [accepts, Meets, Ty.isStruct, beq_iff_eq, ← TyTree.kind_eq_form, Ty.kind_tree,
      Form.kind]
  | union =>
    simp only [accepts, Meets, Ty.isUnion, beq_iff_eq, ← TyTree.kind_eq_form, Ty.kind_tree,
      Form.kind]
  | structOrUnion =>
    simp only [accepts, Meets, Ty.isStructOrUnion, Ty.isStruct, Ty.isUnion, Bool.or_eq_true,
      beq_iff_eq, Form.exists_iff, ← TyTree.kind_eq_form, Ty.kind_tree, Form.kind]
  | aggregate =>
    simp only [accepts, Meets, Ty.isArray, Ty.isStructOrUnion, Ty.isStruct, Ty.isUnion,
      Bool.or_eq_true, beq_iff_eq, Form.exists_iff, ← TyTree.kind_eq_form,
      ← TyTree.kind_eq_array, Ty.kind_tree, Form.kind]
  | indexable =>
    simp only [accepts, Meets, Ty.isArray, Ty.isString, Bool.or_eq_true, beq_iff_eq,
      ← TyTree.kind_eq_array, ← TyTree.kind_eq_string, Ty.kind_tree]
  | string =>
    simp only [accepts, Meets, Ty.isString, beq_iff_eq, ← TyTree.kind_eq_string, Ty.kind_tree]

end Expected

-- ---------------------------------------------------------------------------
-- Types
-- ---------------------------------------------------------------------------

namespace Ty

/-- A type is a bit vector if and only if its tree is. -/
theorem isBitVector_iff {t : Ty} : t.isBitVector = true ↔ t.tree.IsBitVector := by
  rw [TyTree.isBitVector_iff, Ty.kind_tree, Ty.isBitVector, Bool.or_eq_true, beq_iff_eq, beq_iff_eq]

theorem not_isEmpty_iff {name : Name} : (!name.isEmpty) = true ↔ name.text ≠ "" := by
  simp [Name.isEmpty]

/-- Names pass if none is empty, none comes twice and none was seen before. -/
theorem checkMemberNames_eq_ok (kind : Kind) (seen names : List Name) :
    (checkMemberNames kind seen names).outcome = .ok () ↔
      (∀ n ∈ names, n.text ≠ "") ∧ names.Nodup ∧ ∀ n ∈ names, n ∉ seen := by
  induction names generalizing seen with
  | nil => simp [checkMemberNames]
  | cons name names ih =>
    simp only [checkMemberNames, seq_eq_ok, ensure_eq_ok, ih, not_isEmpty_iff]
    simp only [List.mem_cons, List.nodup_cons, Bool.not_eq_true', List.contains_eq_mem,
      decide_eq_false_iff_not]
    grind

/-- A width passes if it is not zero. -/
theorem checkWidth_eq_ok (kind : Kind) (field : String) (width : UInt32) :
    (checkWidth kind field width).outcome = .ok () ↔ 0 < width := by
  rw [checkWidth, ensure_eq_ok, bne_iff_ne, UInt32.pos_iff_ne_zero]

/-- A type is accepted if and only if its rule holds. -/
theorem check_iff (s : TyShape Ty Expr) :
    (check s).outcome = .ok () ↔ TyRule (s.map Ty.tree Expr.tree) := by
  cases s with
  | bool => exact ⟨fun _ => .bool, fun _ => rfl⟩
  | empty => exact ⟨fun _ => .empty, fun _ => rfl⟩
  | symbol name =>
    simp only [check, ensure_eq_ok, not_isEmpty_iff, TyShape.map]
    exact ⟨.symbol, fun h => by cases h with | symbol hName => exact hName⟩
  | aggregate form members names name =>
    simp only [check, seq_eq_ok, ensure_eq_ok, beq_iff_eq, checkMemberNames_eq_ok, TyShape.map]
    constructor
    · rintro ⟨hCount, hNames, hDistinct, _⟩
      exact .aggregate form name (by rw [List.length_map, hCount]) hNames hDistinct
    · intro h
      cases h with
      | aggregate _ _ hCount hNames hDistinct =>
        rw [List.length_map] at hCount
        exact ⟨hCount, hNames, hDistinct, by simp⟩
  | code arguments result names ellipsis =>
    simp only [check, ensure_eq_ok, Bool.or_eq_true, List.isEmpty_iff, beq_iff_eq, TyShape.map]
    constructor
    · intro hNames
      exact .code _ ellipsis (by rwa [List.length_map])
    · intro h
      cases h with
      | code _ _ hNames => rwa [List.length_map] at hNames
  | array element size infinite =>
    cases size with
    | none =>
      cases infinite with
      | true => exact ⟨fun _ => .infiniteArray _, fun _ => rfl⟩
      | false =>
        constructor
        · rintro ⟨⟩
        · rintro ⟨⟩
    | some size =>
      cases infinite with
      | true =>
        constructor
        · rintro ⟨⟩
        · rintro ⟨⟩
      | false =>
        simp only [check, require_eq_ok, Expected.accepts, isBitVector_iff, TyShape.map,
          Option.map_some]
        constructor
        · intro hSize
          exact .finiteArray _ (by rwa [Expr.type_tree])
        · intro h
          cases h with
          | finiteArray _ hSize => rwa [Expr.type_tree] at hSize
  | pointer target => exact ⟨fun _ => .pointer _, fun _ => rfl⟩
  | unsignedbv width =>
    simp only [check, checkWidth_eq_ok, TyShape.map]
    exact ⟨.unsignedbv, fun h => by cases h with | unsignedbv hWidth => exact hWidth⟩
  | signedbv width =>
    simp only [check, checkWidth_eq_ok, TyShape.map]
    exact ⟨.signedbv, fun h => by cases h with | signedbv hWidth => exact hWidth⟩
  | fixedbv width integerBits =>
    simp only [check, seq_eq_ok, checkWidth_eq_ok, ensure_eq_ok, decide_eq_true_eq, TyShape.map]
    constructor
    · rintro ⟨hWidth, hBits⟩
      exact .fixedbv hWidth hBits
    · intro h
      cases h with
      | fixedbv hWidth hBits => exact ⟨hWidth, hBits⟩
  | floatbv fraction exponent =>
    simp only [check, seq_eq_ok, checkWidth_eq_ok, TyShape.map]
    constructor
    · rintro ⟨hFraction, hExponent⟩
      exact .floatbv hFraction hExponent
    · intro h
      cases h with
      | floatbv hFraction hExponent => exact ⟨hFraction, hExponent⟩
  | string width =>
    simp only [check, checkWidth_eq_ok, TyShape.map]
    exact ⟨.string, fun h => by cases h with | string hWidth => exact hWidth⟩
  | cppName name arguments =>
    simp only [check, ensure_eq_ok, not_isEmpty_iff, TyShape.map]
    exact ⟨.cppName _, fun h => by cases h with | cppName _ hName => exact hName⟩

-- The names of a lawful aggregate are distinct, so a name stands at one position at most and finding
-- the first is finding the only one.

/-- Where names are distinct, the first position of a name is its position. -/
theorem findIdx?_eq_some_iff {names : List Name} (hDistinct : names.Nodup) {name : Name} {i : Nat} :
    names.findIdx? (· == name) = some i ↔ names[i]? = some name := by
  rw [List.findIdx?_eq_some_iff_getElem, List.getElem?_eq_some_iff]
  constructor
  · rintro ⟨hi, hName, -⟩
    exact ⟨hi, beq_iff_eq.mp hName⟩
  · rintro ⟨hi, hName⟩
    refine ⟨hi, beq_iff_eq.mpr hName, fun j hj hSame => ?_⟩
    exact List.pairwise_iff_getElem.mp hDistinct j i (by omega) hi hj
      (by rw [beq_iff_eq.mp hSame, hName])

/-- Looking a member up goes by the position of its name. -/
theorem memberType?_eq (t : Ty) (name : Name) :
    t.memberType? name = match t.shape with
      | .aggregate _ members names _ => (names.findIdx? (· == name)).bind (members[·]?)
      | _ => none := by
  rw [memberType?, members?]
  cases t.shape <;> rfl

/-- Looking up a member of a lawful type finds the member that the tree has under that name. -/
theorem hasMember_tree_iff {t : Ty} (hLawful : (Node.type t).Lawful) {name : Name} {u : TyTree} :
    t.tree.HasMember name u ↔ ∃ m, t.memberType? name = some m ∧ m.tree = u := by
  have hRule : TyRule (t.shape.map Ty.tree Expr.tree) := by
    rw [← Ty.shape_tree]
    exact hLawful
  rw [Ty.tree_eq, memberType?_eq]
  cases hShape : t.shape with
  | aggregate form members names tag =>
    rw [hShape] at hRule
    cases hRule with
    | aggregate _ _ hCount hNames hDistinct =>
      simp only [TyShape.map, TyTree.hasMember_iff, Option.bind_eq_some_iff,
        findIdx?_eq_some_iff hDistinct, List.getElem?_map, Option.map_eq_some_iff]
      constructor
      · rintro ⟨i, hName, m, hMember, rfl⟩
        exact ⟨m, ⟨i, hName, hMember⟩, rfl⟩
      · rintro ⟨m, ⟨i, hName, hMember⟩, rfl⟩
        exact ⟨i, hName, m, hMember, rfl⟩
  | _ =>
    constructor
    · rintro ⟨⟩
    · rintro ⟨m, hNone, -⟩
      cases hNone

/-- A member that was looked up is among the types inside. -/
theorem mem_types_of_memberType? {t m : Ty} {name : Name} (h : t.memberType? name = some m) :
    m ∈ t.shape.types := by
  rw [memberType?_eq] at h
  split at h
  · obtain ⟨i, -, hMember⟩ := Option.bind_eq_some_iff.mp h
    have hMem := List.mem_of_getElem? hMember
    simpa [TyShape.types, ‹t.shape = _›, TyShape.fields, Value.heldTypes] using hMem
  · cases h

/-- An element type or target is among the types inside. -/
theorem mem_types_of_subtype? {t m : Ty} (h : t.subtype? = some m) : m ∈ t.shape.types := by
  rw [subtype?] at h
  split at h <;> cases h
  · simp [TyShape.types, ‹t.shape = _›, TyShape.fields, Value.heldTypes]
  · simp [TyShape.types, ‹t.shape = _›, TyShape.fields, Value.heldTypes]

end Ty

-- ---------------------------------------------------------------------------
-- Expressions
-- ---------------------------------------------------------------------------

/-- Whether an expression can overflow is a question of its kind. -/
theorem Expr.canOverflow_iff {e : Expr} :
    e.canOverflow = true ↔ e.kind ∈ ExprKind.overflowing := by
  rw [Expr.canOverflow, Expr.kind]
  cases e.shape <;> dsimp only [ExprShape.kind]
  case binary op left right => cases op <;> decide
  case unary op operand => cases op <;> decide
  all_goals decide

/-- The literal string of an expression, seen in its tree. -/
theorem Expr.constantString?_eq_some {e : Expr} {name : Name} :
    e.constantString? = some name ↔ e.tree.shape = .constantString name := by
  rw [Expr.shape_tree, Expr.constantString?]
  cases e.shape <;> simp [ExprShape.map]

/-- The literal size of an array, seen in its tree. -/
theorem Expr.bind_constantInt?_eq_some {size : Option Expr} {n : Int} :
    size.bind Expr.constantInt? = some n ↔
      ∃ t, size.map Expr.tree = some (.node t (.constantInt n)) := by
  cases size with
  | none => simp
  | some e =>
    simp only [Option.bind_some, Option.map_some, Option.some.injEq, Expr.constantInt?, Expr.tree_eq]
    cases e.shape <;> simp [ExprShape.map]

namespace Regular

variable {h : Hasher} {P : Node → Prop} (hP : Regular h P)

include hP

/-- The nodes in question are closed under what is inside, such as the result type of an
expression. -/
theorem type_of_expr {e : Expr} (he : P (.expr e)) : P (.type e.type) :=
  hP.closed _ he _ (Node.type_mem_children_expr.mpr rfl)

theorem operand_of_expr {e o : Expr} (he : P (.expr e)) (ho : o ∈ e.operands) : P (.expr o) :=
  hP.closed _ he _ (Node.expr_mem_children_expr.mpr ho)

theorem type_of_mem {t u : Ty} (ht : P (.type t)) (hu : u ∈ t.shape.types) : P (.type u) :=
  hP.closed _ ht _ (Node.type_mem_children_type.mpr hu)

/-- The element type of an array is among the nodes in question. -/
theorem element_of_array {t element : Ty} {size : Option Expr} {infinite : Bool}
    (ht : P (.type t)) (hShape : t.shape = .array element size infinite) : P (.type element) := by
  apply hP.type_of_mem ht
  simp [hShape, TyShape.types, TyShape.fields, Value.heldTypes]

/-- Asking for a type is asking for its tree, among the nodes in question. -/
theorem accepts_type {t u : Ty} (ht : P (.type t)) (hu : P (.type u)) :
    (Expected.type u).accepts t = true ↔ t.tree = u.tree :=
  hP.beq_type_iff hP.faithful ht hu

/-- Asking for a pointer to a type is asking for the tree of such a pointer. -/
theorem accepts_pointerTo {t u : Ty} (ht : P (.type t)) (hu : P (.type u)) :
    (Expected.pointerTo u).accepts t = true ↔ t.tree = .node (.pointer u.tree) := by
  rw [Expected.accepts, Expected.pointsTo, Ty.target?, Ty.tree_eq]
  cases hShape : t.shape with
  | pointer target =>
    have hTarget : P (.type target) := by
      apply hP.type_of_mem ht
      simp [hShape, TyShape.types, TyShape.fields, Value.heldTypes]
    simpa [TyShape.map] using hP.beq_type_iff hP.faithful hTarget hu
  | _ => simp [TyShape.map]

/-- The values of a struct pass if each has the type of the member at its position. -/
theorem checkMembers_iff {kind : Kind} {values : List Expr} {members : List Ty}
    (hValues : ∀ v ∈ values, P (.expr v)) (hMembers : ∀ m ∈ members, P (.type m))
    (hCount : members.length = values.length) :
    (Expr.checkMembers kind values members).outcome = .ok () ↔
      values.map (·.type.tree) = members.map Ty.tree := by
  induction values generalizing members with
  | nil =>
    rw [List.length_eq_zero_iff.mp hCount]
    exact ⟨fun _ => rfl, fun _ => rfl⟩
  | cons value values ih =>
    cases members with
    | nil => cases hCount
    | cons member members =>
      have hRest := ih (fun v hv => hValues v (List.mem_cons_of_mem _ hv))
        (fun m hm => hMembers m (List.mem_cons_of_mem _ hm)) (Nat.succ.inj hCount)
      have hFirst := hP.accepts_type (hP.type_of_expr (hValues value List.mem_cons_self))
        (hMembers member List.mem_cons_self)
      rw [Expr.checkMembers, seq_eq_ok, require_eq_ok, hFirst, hRest, List.map_cons, List.map_cons,
        List.cons.injEq]

/-- The elements of an array pass if each has the element type. -/
theorem checkElements_iff {kind : Kind} {element : Ty} {values : List Expr}
    (hElement : P (.type element)) (hValues : ∀ v ∈ values, P (.expr v)) :
    (Expr.checkElements kind element values).outcome = .ok () ↔
      ∀ v ∈ values, v.type.tree = element.tree := by
  induction values with
  | nil =>
    simp only [Expr.checkElements, Checked.outcome_pure, List.not_mem_nil, false_imp_iff,
      implies_true]
  | cons value values ih =>
    have hRest := ih fun v hv => hValues v (List.mem_cons_of_mem _ hv)
    have hFirst := hP.accepts_type (hP.type_of_expr (hValues value List.mem_cons_self)) hElement
    rw [Expr.checkElements, seq_eq_ok, require_eq_ok, hFirst, hRest, List.forall_mem_cons]

/-- The check of a binary operator decides its rule. -/
theorem checkBinary_iff {op : BinaryOp} {type : Ty} {left right : Expr} (hType : P (.type type))
    (hLeft : P (.expr left)) (hRight : P (.expr right)) :
    (Expr.checkBinary op type left.type right.type).outcome = .ok () ↔
      ExprRule type.tree (.binary op left.tree right.tree) := by
  have hLeftType := hP.accepts_type (hP.type_of_expr hLeft) hType
  have hRightType := hP.accepts_type (hP.type_of_expr hRight) hType
  have hSides := (hP.accepts_type (hP.type_of_expr hRight) (hP.type_of_expr hLeft)).trans eq_comm
  rw [ExprRule.binary_iff, Expr.checkBinary]
  cases op.family with
  | relation =>
    simp only [seq_eq_ok, require_eq_ok, hSides, Expected.accepts_class, Expected.named,
      Expected.Meets, Expr.type_tree]
  | arithmetic =>
    simp only [seq_eq_ok, require_eq_ok, hLeftType, hRightType, beq_iff_eq, Expr.type_tree]
    split <;> simp only [Expected.accepts_class, Expected.named, Expected.Meets]
  | _ =>
    simp only [seq_eq_ok, require_eq_ok, hLeftType, hRightType, Expected.accepts_class,
      Expected.named, Expected.Meets, Expr.type_tree]

/-- The check of a unary operator decides its rule. -/
theorem checkUnary_iff {op : UnaryOp} {type : Ty} {operand : Expr} (hType : P (.type type))
    (hOperand : P (.expr operand)) :
    (Expr.checkUnary op type operand).outcome = .ok () ↔
      ExprRule type.tree (.unary op operand.tree) := by
  have hOperandType := hP.type_of_expr hOperand
  have hSame := hP.accepts_type hOperandType hType
  have hAddress := hP.accepts_pointerTo hType hOperandType
  have hTarget := hP.accepts_pointerTo hOperandType hType
  rw [ExprRule.unary_iff]
  cases op <;>
    simp only [Expr.checkUnary, Checked.outcome_pure, seq_eq_ok, require_eq_ok, ensure_eq_ok,
      hSame, hAddress, hTarget, Expected.accepts_class, Expected.named, Expected.Meets,
      Expr.type_tree, Expr.kind_tree, Expr.canOverflow_iff]

/-- The check of an array of given elements decides its rule. -/
theorem checkArray_iff {type : Ty} {values : List Expr} (hType : P (.type type))
    (hValues : ∀ v ∈ values, P (.expr v)) :
    (Expr.checkArray type values).outcome = .ok () ↔
      ExprRule type.tree (.constantArray (values.map Expr.tree)) := by
  rw [Expr.checkArray, Ty.tree_eq]
  cases hShape : type.shape with
  | array element size infinite =>
    have hElement := hP.element_of_array hType hShape
    have hElements : (∀ v ∈ values.map Expr.tree, v.type = element.tree) ↔
        ∀ v ∈ values, v.type.tree = element.tree := by
      simp [Expr.type_tree]
    have hCount : (∀ t n, size.map Expr.tree = some (.node t (.constantInt n)) →
        n = (values.map Expr.tree).length) ↔
        ∀ n, size.bind Expr.constantInt? = some n → n = values.length := by
      simp only [Expr.bind_constantInt?_eq_some, List.length_map]
      constructor
      · rintro hAll n ⟨t, ht⟩
        exact hAll t n ht
      · intro hAll t n ht
        exact hAll n ⟨t, ht⟩
    rw [TyShape.map, ExprRule.constantArray_iff, hElements, hCount, seq_eq_ok, ensure_eq_ok,
      Bool.not_eq_true']
    -- the number of values matters only where the size is a literal
    cases size.bind Expr.constantInt? with
    | none => simp [hP.checkElements_iff hElement hValues]
    | some n =>
      simp only [seq_eq_ok, ensure_eq_ok, hP.checkElements_iff hElement hValues, beq_iff_eq,
        Option.some.injEq, forall_eq']
  | _ =>
    simp only [TyShape.map, require_eq_ok, Expected.accepts, Ty.isArray, Ty.kind, hShape,
      TyShape.kind, beq_iff_eq, Form.kind_ne, reduceCtorEq, ne_eq, not_false_eq_true, false_iff]
    rintro ⟨⟩

/-- The check of an array of one element decides its rule. -/
theorem checkArrayOf_iff {kind : Kind} {type : Ty} {initializer : Expr} (hType : P (.type type))
    (hInitializer : P (.expr initializer)) :
    (match type.shape with
      | .array element _ _ => require kind "initializer" (.type element) initializer.type
      | _ => require kind "type" .array type).outcome = .ok () ↔
      ExprRule type.tree (.constantArrayOf initializer.tree) := by
  rw [Ty.tree_eq]
  cases hShape : type.shape with
  | array element size infinite =>
    have hElement := hP.element_of_array hType hShape
    rw [TyShape.map, ExprRule.constantArrayOf_iff, require_eq_ok,
      hP.accepts_type (hP.type_of_expr hInitializer) hElement, Expr.type_tree]
  | _ =>
    simp only [TyShape.map, require_eq_ok, Expected.accepts, Ty.isArray, Ty.kind, hShape,
      TyShape.kind, beq_iff_eq, Form.kind_ne, reduceCtorEq, ne_eq, not_false_eq_true, false_iff]
    rintro ⟨⟩

/-- Looking a member up and asking for its type is asking for the member in the tree. -/
theorem memberType_iff {kind : Kind} {field : String} {type found : Ty} {name : Name}
    (hType : P (.type type)) (hFound : P (.type found)) :
    (do require kind field (.type (← Expr.memberType kind type name)) found : Check).outcome =
        .ok () ↔
      type.tree.HasMember name found.tree := by
  rw [bind_eq_ok, Ty.hasMember_tree_iff (hP.lawful _ hType)]
  have hLookup : ∀ m, (Expr.memberType kind type name).outcome = .ok m ↔
      type.memberType? name = some m := by
    intro m
    rw [Expr.memberType]
    cases type.memberType? name with
    | none => exact ⟨nofun, nofun⟩
    | some found => simp
  constructor
  · rintro ⟨m, hm, hSame⟩
    rw [hLookup] at hm
    have hMember := hP.type_of_mem hType (Ty.mem_types_of_memberType? hm)
    rw [require_eq_ok, hP.accepts_type hFound hMember] at hSame
    exact ⟨m, hm, hSame.symm⟩
  · rintro ⟨m, hm, hSame⟩
    have hMember := hP.type_of_mem hType (Ty.mem_types_of_memberType? hm)
    refine ⟨m, (hLookup m).mpr hm, ?_⟩
    rw [require_eq_ok, hP.accepts_type hFound hMember]
    exact hSame.symm

/-- The check of a literal struct decides its rule. -/
theorem checkStruct_iff {kind : Kind} {type : Ty} {values : List Expr} (hType : P (.type type))
    (hValues : ∀ v ∈ values, P (.expr v)) :
    (do
      require kind "type" .struct type
      match type.members? with
      | some (types, _) =>
        ensure (types.length == values.length) kind (.structCount values.length types.length)
        Expr.checkMembers kind values types
      | none => pure () : Check).outcome = .ok () ↔
      ExprRule type.tree (.constantStruct (values.map Expr.tree)) := by
  rw [seq_eq_ok, require_eq_ok, Expected.accepts_class rfl, ExprRule.constantStruct_iff]
  have hTypes : (values.map Expr.tree).map ExprTree.type = values.map (·.type.tree) := by
    simp [Function.comp_def]
  rw [hTypes, Ty.members?, Ty.tree_eq, Expected.Meets]
  cases hShape : type.shape with
  | aggregate form members names tag =>
    have hMembers : ∀ m ∈ members, P (.type m) := by
      intro m hm
      apply hP.type_of_mem hType
      simpa [hShape, TyShape.types, TyShape.fields, Value.heldTypes] using hm
    cases form with
    | struct =>
      simp only [TyShape.map, seq_eq_ok, ensure_eq_ok, beq_iff_eq]
      constructor
      · rintro ⟨-, hCount, hCheck⟩
        rw [hP.checkMembers_iff hValues hMembers hCount] at hCheck
        exact ⟨names, tag, by rw [hCheck]⟩
      · rintro ⟨names', tag', hEq⟩
        simp only [TyTree.node.injEq, TyShape.aggregate.injEq, true_and] at hEq
        have hCount : members.length = values.length := by
          simpa using congrArg List.length hEq.1
        exact ⟨⟨_, _, _, rfl⟩, hCount,
          (hP.checkMembers_iff hValues hMembers hCount).mpr hEq.1.symm⟩
    | union => simp [TyShape.map]
  | _ => simp [TyShape.map]

/-- The check of a literal union decides its rule: there is one value, of the type of the member
that is named. -/
theorem checkUnion_iff {kind : Kind} {type : Ty} {values : List Expr} {field : Name}
    (hType : P (.type type)) (hValues : ∀ v ∈ values, P (.expr v)) :
    (do
      require kind "type" .union type
      match values with
      | [value] =>
        let member ← Expr.memberType kind type field
        require kind "datatype_members" (.type member) value.type
      | _ => refuse (← invalid kind (.unionCount values.length)) : Check).outcome = .ok () ↔
      ExprRule type.tree (.constantUnion (values.map Expr.tree) field) := by
  rw [seq_eq_ok, require_eq_ok, Expected.accepts_class rfl, ExprRule.constantUnion_iff,
    Expected.Meets]
  match values with
  | [] => simp
  | [value] =>
    have hValue := hP.type_of_expr (hValues value List.mem_cons_self)
    simp only [hP.memberType_iff hType hValue]
    constructor
    · rintro ⟨⟨members, names, tag, hUnion⟩, hMember⟩
      exact ⟨members, names, tag, value.tree, hUnion, rfl, by rwa [Expr.type_tree]⟩
    · rintro ⟨members, names, tag, _, hUnion, hSingle, hMember⟩
      rw [← List.singleton_inj.mp hSingle, Expr.type_tree] at hMember
      exact ⟨⟨members, names, tag, hUnion⟩, hMember⟩
  | _ :: _ :: _ => simp

/-- The check of an update decides its rule. The field is a position in an array or names a
member. -/
theorem checkUpdate_iff {type : Ty} {source field value : Expr} (hType : P (.type type))
    (hSource : P (.expr source)) (hValue : P (.expr value)) :
    (Expr.checkUpdate type source field value).outcome = .ok () ↔
      ExprRule type.tree (.update source.tree field.tree value.tree) := by
  have hSame := hP.accepts_type (hP.type_of_expr hSource) hType
  rw [ExprRule.update_iff, Expr.checkUpdate, seq_eq_ok, seq_eq_ok, require_eq_ok, require_eq_ok,
    hSame, Expected.accepts_class rfl, Expr.type_tree, Expr.type_tree, Expr.type_tree,
    Ty.subtype?]
  cases hShape : type.shape with
  | array element size infinite =>
    have hElement := hP.element_of_array hType hShape
    have hElementType := hP.accepts_type (hP.type_of_expr hValue) hElement
    simp only [seq_eq_ok, require_eq_ok, hElementType, Expected.accepts_class, Expected.named,
      Expected.Meets, Ty.tree_of_shape hShape, TyShape.map]
    constructor
    · rintro ⟨-, hSource, hField, hValue⟩
      exact ⟨hSource, .inl ⟨_, _, by rw [hValue], hField⟩⟩
    · rintro ⟨hSource, ⟨_, _, hArray, hField⟩ | ⟨_, _, ⟨⟩⟩⟩
      simp only [TyTree.node.injEq, TyShape.array.injEq] at hArray
      exact ⟨.inl ⟨_, _, _, rfl⟩, hSource, hField, hArray.1.symm⟩
  | aggregate form members names tag =>
    constructor
    · rintro ⟨-, hSource, hCheck⟩
      cases hName : field.constantString? with
      | none =>
        rw [hName] at hCheck
        cases hCheck
      | some name =>
        rw [hName] at hCheck
        exact ⟨hSource, .inr ⟨name, Expr.constantString?_eq_some.mp hName,
          (hP.memberType_iff hType (hP.type_of_expr hValue)).mp hCheck⟩⟩
    · rintro ⟨hSource, ⟨_, _, hArray, _⟩ | ⟨name, hName, hMember⟩⟩
      · rw [Ty.tree_of_shape hShape] at hArray
        cases hArray
      · refine ⟨.inr ⟨_, _, _, _, Ty.tree_of_shape hShape⟩, hSource, ?_⟩
        rw [Expr.constantString?_eq_some.mpr hName]
        exact (hP.memberType_iff hType (hP.type_of_expr hValue)).mpr hMember
  | _ =>
    simp only [Ty.tree_of_shape hShape, TyShape.map, Expected.Meets]
    constructor
    · rintro ⟨⟨_, _, _, ⟨⟩⟩ | ⟨_, _, _, _, ⟨⟩⟩, -⟩
    · rintro ⟨-, ⟨_, _, ⟨⟩, _⟩ | ⟨_, _, ⟨⟩⟩⟩

/-- The check of an access by name decides its rule. -/
theorem checkMember_iff {kind : Kind} {type : Ty} {source : Expr} {name : Name}
    (hType : P (.type type)) (hSource : P (.expr source)) :
    (do
      require kind "source_value" .structOrUnion source.type
      let member ← Expr.memberType kind source.type name
      require kind "type" (.type member) type : Check).outcome = .ok () ↔
      ExprRule type.tree (.member source.tree name) := by
  rw [seq_eq_ok, require_eq_ok, Expected.accepts_class rfl, ExprRule.member_iff, Expr.type_tree,
    hP.memberType_iff (hP.type_of_expr hSource) hType]
  exact and_iff_right_of_imp TyTree.HasMember.aggregate

/-- The check of an access by position decides its rule. -/
theorem checkIndex_iff {kind : Kind} {type : Ty} {source position : Expr} (hType : P (.type type))
    (hSource : P (.expr source)) :
    (do
      require kind "source_value" .indexable source.type
      require kind "index" .bitVector position.type
      match source.type.subtype? with
      | some element => require kind "type" (.type element) type
      | none => require kind "type" .bitVector type : Check).outcome = .ok () ↔
      ExprRule type.tree (.index source.tree position.tree) := by
  rw [seq_eq_ok, seq_eq_ok, require_eq_ok, require_eq_ok, Expected.accepts_class rfl,
    Expected.accepts_class rfl, ExprRule.index_iff, Expr.type_tree, Expr.type_tree, Ty.subtype?]
  cases hShape : source.type.shape with
  | array element size infinite =>
    have hElement := hP.element_of_array (hP.type_of_expr hSource) hShape
    simp only [require_eq_ok, hP.accepts_type hType hElement, Expected.Meets,
      Ty.tree_of_shape hShape, TyShape.map]
    constructor
    · rintro ⟨-, hPosition, hSame⟩
      exact ⟨hPosition, .inl ⟨_, _, by rw [hSame]⟩⟩
    · rintro ⟨hPosition, ⟨_, _, hArray⟩ | ⟨⟨_, ⟨⟩⟩, _⟩⟩
      simp only [TyTree.node.injEq, TyShape.array.injEq] at hArray
      exact ⟨.inl ⟨_, _, _, rfl⟩, hPosition, hArray.1.symm⟩
  | string width =>
    simp only [require_eq_ok, Expected.accepts_class, Expected.named, Expected.Meets,
      Ty.tree_of_shape hShape, TyShape.map]
    constructor
    · rintro ⟨-, hPosition, hBits⟩
      exact ⟨hPosition, .inr ⟨⟨width, rfl⟩, hBits⟩⟩
    · rintro ⟨hPosition, ⟨_, _, ⟨⟩⟩ | ⟨-, hBits⟩⟩
      exact ⟨.inr ⟨width, rfl⟩, hPosition, hBits⟩
  | _ =>
    simp only [Ty.tree_of_shape hShape, TyShape.map, Expected.Meets]
    constructor
    · rintro ⟨⟨_, _, _, ⟨⟩⟩ | ⟨_, ⟨⟩⟩, -⟩
    · rintro ⟨-, ⟨_, _, ⟨⟩⟩ | ⟨⟨_, ⟨⟩⟩, _⟩⟩

/-- An expression is accepted if and only if the rule of its kind holds. -/
theorem check_iff {type : Ty} {s : ExprShape Expr} (hType : P (.type type))
    (hOperands : ∀ e ∈ s.operands, P (.expr e)) :
    (Expr.check type s).outcome = .ok () ↔ ExprRule type.tree (s.map Expr.tree) := by
  cases s <;>
    simp only [ExprShape.operands, ExprShape.fields, Value.heldExprs, List.flatMap_cons,
      List.flatMap_nil, List.append_nil, List.nil_append, List.cons_append, List.forall_mem_cons,
      List.not_mem_nil, false_imp_iff, implies_true, and_true] at hOperands
  case constantInt value =>
    rw [Expr.check, require_eq_ok, Expected.accepts_class rfl]
    exact ExprRule.constantInt_iff.symm
  case constantBool value =>
    rw [Expr.check, require_eq_ok, Expected.accepts_class rfl]
    exact ExprRule.constantBool_iff.symm
  case constantString value =>
    rw [Expr.check, require_eq_ok, Expected.accepts_class rfl]
    exact ExprRule.constantString_iff.symm
  case constantStruct members => exact hP.checkStruct_iff hType hOperands
  case constantUnion members initField => exact hP.checkUnion_iff hType hOperands
  case constantArray members => exact hP.checkArray_iff hType hOperands
  case constantArrayOf initializer => exact hP.checkArrayOf_iff hType hOperands
  case symbol name =>
    rw [Expr.check, ensure_eq_ok, Ty.not_isEmpty_iff]
    exact ExprRule.symbol_iff.symm
  case ite cond onTrue onFalse =>
    have hTrue := hP.accepts_type (hP.type_of_expr hOperands.2.1) hType
    have hFalse := hP.accepts_type (hP.type_of_expr hOperands.2.2) hType
    rw [Expr.check, seq_eq_ok, seq_eq_ok, require_eq_ok, require_eq_ok, require_eq_ok,
      Expected.accepts_class rfl, hTrue, hFalse, ExprShape.map, ExprRule.ite_iff, Expr.type_tree,
      Expr.type_tree, Expr.type_tree]
    rfl
  case binary op left right => exact hP.checkBinary_iff hType hOperands.1 hOperands.2
  case unary op operand => exact hP.checkUnary_iff hType hOperands
  case update source field value => exact hP.checkUpdate_iff hType hOperands.1 hOperands.2.2
  case member source name => exact hP.checkMember_iff hType hOperands
  case index source position => exact hP.checkIndex_iff hType hOperands.1

end Regular

end TermGraph
