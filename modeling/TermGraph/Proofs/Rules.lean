import TermGraph.Proofs.Walk

/-!
# The rules, declaratively

What the contents of a node must satisfy, as rules over trees: `TyRule` for types, `ExprRule` for
expressions of a given result type. A rule names the forms that types may have and says which types
are the same; it knows neither identities, nor the order in which a check looks at the fields, nor
errors. That the checks accept exactly what the rules allow is proved in
`TermGraph.Proofs.Checks`.
-/

namespace TermGraph

-- ---------------------------------------------------------------------------
-- Classes of types
-- ---------------------------------------------------------------------------

namespace TyTree

/-- A bit vector, with or without sign. -/
inductive IsBitVector : TyTree → Prop where
  | unsigned (width : UInt32) : IsBitVector (.node (.unsignedbv width))
  | signed (width : UInt32) : IsBitVector (.node (.signedbv width))

/-- A bit vector, a fixed-point number or a float. -/
inductive IsNumeric : TyTree → Prop where
  | bitVector {t : TyTree} (h : t.IsBitVector) : IsNumeric t
  | fixed (width integerBits : UInt32) : IsNumeric (.node (.fixedbv width integerBits))
  | float (fraction exponent : UInt32) : IsNumeric (.node (.floatbv fraction exponent))

/-- A struct or union has a member of that name and type. -/
inductive HasMember : TyTree → Name → TyTree → Prop where
  | at (form : Form) {members : List TyTree} {names : List Name} (name : Name) {i : Nat}
      {field : Name} {member : TyTree} (hName : names[i]? = some field)
      (hMember : members[i]? = some member) :
      HasMember (.node (.aggregate form members names name)) field member

end TyTree

-- ---------------------------------------------------------------------------
-- Types
-- ---------------------------------------------------------------------------

/-- The rule of a type. -/
inductive TyRule : TyShape TyTree ExprTree → Prop where
  | bool : TyRule .bool
  | empty : TyRule .empty
  | symbol {name : Name} (hName : name.text ≠ "") : TyRule (.symbol name)
  | aggregate (form : Form) {members : List TyTree} {names : List Name} (name : Name)
      (hCount : members.length = names.length) (hNames : ∀ n ∈ names, n.text ≠ "")
      (hDistinct : names.Nodup) : TyRule (.aggregate form members names name)
  | code {arguments : List TyTree} (result : TyTree) {names : List Name} (ellipsis : Bool)
      (hNames : names = [] ∨ names.length = arguments.length) :
      TyRule (.code arguments result names ellipsis)
  | finiteArray (element : TyTree) {size : ExprTree} (hSize : size.type.IsBitVector) :
      TyRule (.array element (some size) false)
  | infiniteArray (element : TyTree) : TyRule (.array element none true)
  | pointer (target : TyTree) : TyRule (.pointer target)
  | unsignedbv {width : UInt32} (hWidth : 0 < width) : TyRule (.unsignedbv width)
  | signedbv {width : UInt32} (hWidth : 0 < width) : TyRule (.signedbv width)
  | fixedbv {width integerBits : UInt32} (hWidth : 0 < width) (hBits : integerBits ≤ width) :
      TyRule (.fixedbv width integerBits)
  | floatbv {fraction exponent : UInt32} (hFraction : 0 < fraction) (hExponent : 0 < exponent) :
      TyRule (.floatbv fraction exponent)
  | string {width : UInt32} (hWidth : 0 < width) : TyRule (.string width)
  | cppName {name : Name} (arguments : List TyTree) (hName : name.text ≠ "") :
      TyRule (.cppName name arguments)

-- ---------------------------------------------------------------------------
-- Expressions
-- ---------------------------------------------------------------------------

namespace BinaryOp

/-- The operators that compare. -/
def relations : List BinaryOp :=
  [.equality, .notEqual, .lessThan, .greaterThan, .lessThanEqual, .greaterThanEqual]

/-- The operators on truth values. -/
def logicals : List BinaryOp :=
  [.and, .or, .xor, .implies]

/-- The operators on numbers of any class. -/
def numerics : List BinaryOp :=
  [.add, .sub, .mul, .div]

/-- The operators on bit-vectors of one type. -/
def bitwises : List BinaryOp :=
  [.modulus, .bitAnd, .bitOr, .bitXor]

/-- The operators that shift by a number of bits. -/
def shifts : List BinaryOp :=
  [.shl, .ashr, .lshr]

/-- The operators that compare are one family. -/
theorem mem_relations {op : BinaryOp} : op ∈ relations ↔ op.family = .relation := by
  cases op <;> decide

/-- The operators on truth values are one family. -/
theorem mem_logicals {op : BinaryOp} : op ∈ logicals ↔ op.family = .logical := by
  cases op <;> decide

/-- The remainder is of the family of the operators on numbers, but is not for all of them. -/
theorem mem_numerics {op : BinaryOp} : op ∈ numerics ↔ op.family = .arithmetic ∧ op ≠ .modulus := by
  cases op <;> decide

/-- The remainder obeys the rule of the operators on bits. -/
theorem mem_bitwises {op : BinaryOp} : op ∈ bitwises ↔ op.family = .bitwise ∨ op = .modulus := by
  cases op <;> decide

/-- The operators that shift are one family. -/
theorem mem_shifts {op : BinaryOp} : op ∈ shifts ↔ op.family = .shift := by
  cases op <;> decide

/-- One operator compares where pointers lead. -/
theorem eq_sameObject {op : BinaryOp} (h : op.family = .pointer) : op = .sameObject := by
  revert h
  cases op <;> decide

end BinaryOp

/-- The kinds of expressions that can overflow. -/
def ExprKind.overflowing : List ExprKind :=
  [.binary .add, .binary .sub, .binary .mul, .binary .div, .binary .modulus, .binary .shl,
    .unary .neg]

/-- The rule of an expression of a given result type. -/
inductive ExprRule : TyTree → ExprShape ExprTree → Prop where
  | constantInt {type : TyTree} (value : Int) (hType : type.IsBitVector) :
      ExprRule type (.constantInt value)
  | constantBool (value : Bool) : ExprRule (.node .bool) (.constantBool value)
  | constantString (width : UInt32) (value : Name) :
      ExprRule (.node (.string width)) (.constantString value)
  /-- One value for each member, of the type of the member at its position. -/
  | constantStruct {members : List TyTree} (names : List Name) (name : Name)
      {values : List ExprTree} (hValues : values.map ExprTree.type = members) :
      ExprRule (.node (.aggregate .struct members names name)) (.constantStruct values)
  /-- One value, of the type of the member that is named. -/
  | constantUnion {members : List TyTree} {names : List Name} {name : Name} {field : Name}
      {value : ExprTree}
      (hMember : TyTree.HasMember (.node (.aggregate .union members names name)) field value.type) :
      ExprRule (.node (.aggregate .union members names name)) (.constantUnion [value] field)
  /-- As many values as a literal size says; a size that is no literal fits any number. -/
  | constantArray {element : TyTree} {size : Option ExprTree} {values : List ExprTree}
      (hValues : ∀ v ∈ values, v.type = element)
      (hCount : ∀ t n, size = some (.node t (.constantInt n)) → n = values.length) :
      ExprRule (.node (.array element size false)) (.constantArray values)
  | constantArrayOf {element : TyTree} (size : Option ExprTree) (infinite : Bool)
      {initializer : ExprTree} (hInitializer : initializer.type = element) :
      ExprRule (.node (.array element size infinite)) (.constantArrayOf initializer)
  | symbol (type : TyTree) {name : Name} (hName : name.text ≠ "") : ExprRule type (.symbol name)
  | ite {type : TyTree} {cond onTrue onFalse : ExprTree} (hCond : cond.type = .node .bool)
      (hTrue : onTrue.type = type) (hFalse : onFalse.type = type) :
      ExprRule type (.ite cond onTrue onFalse)
  | relation {op : BinaryOp} {left right : ExprTree} (hOp : op ∈ BinaryOp.relations)
      (hSides : left.type = right.type) : ExprRule (.node .bool) (.binary op left right)
  | logical {op : BinaryOp} {left right : ExprTree} (hOp : op ∈ BinaryOp.logicals)
      (hLeft : left.type = .node .bool) (hRight : right.type = .node .bool) :
      ExprRule (.node .bool) (.binary op left right)
  | numeric {type : TyTree} {op : BinaryOp} {left right : ExprTree} (hOp : op ∈ BinaryOp.numerics)
      (hType : type.IsNumeric) (hLeft : left.type = type) (hRight : right.type = type) :
      ExprRule type (.binary op left right)
  | bitwise {type : TyTree} {op : BinaryOp} {left right : ExprTree} (hOp : op ∈ BinaryOp.bitwises)
      (hType : type.IsBitVector) (hLeft : left.type = type) (hRight : right.type = type) :
      ExprRule type (.binary op left right)
  | shift {type : TyTree} {op : BinaryOp} {left right : ExprTree} (hOp : op ∈ BinaryOp.shifts)
      (hType : type.IsBitVector) (hLeft : left.type = type) (hRight : right.type.IsBitVector) :
      ExprRule type (.binary op left right)
  | sameObject {left right : ExprTree} {t u : TyTree} (hLeft : left.type = .node (.pointer t))
      (hRight : right.type = .node (.pointer u)) :
      ExprRule (.node .bool) (.binary .sameObject left right)
  | typecast (type : TyTree) (operand : ExprTree) : ExprRule type (.unary .typecast operand)
  | not {operand : ExprTree} (hOperand : operand.type = .node .bool) :
      ExprRule (.node .bool) (.unary .not operand)
  | bitNot {type : TyTree} {operand : ExprTree} (hType : type.IsBitVector)
      (hOperand : operand.type = type) : ExprRule type (.unary .bitNot operand)
  | negOrAbs {type : TyTree} {op : UnaryOp} {operand : ExprTree} (hOp : op = .neg ∨ op = .abs)
      (hType : type.IsNumeric) (hOperand : operand.type = type) :
      ExprRule type (.unary op operand)
  | pointerPart {type target : TyTree} {op : UnaryOp} {operand : ExprTree}
      (hOp : op = .pointerOffset ∨ op = .pointerObject) (hType : type.IsBitVector)
      (hOperand : operand.type = .node (.pointer target)) : ExprRule type (.unary op operand)
  | addressOf {target : TyTree} {operand : ExprTree} (hOperand : operand.type = target) :
      ExprRule (.node (.pointer target)) (.unary .addressOf operand)
  | dereference {type : TyTree} {operand : ExprTree}
      (hOperand : operand.type = .node (.pointer type)) :
      ExprRule type (.unary .dereference operand)
  | isNan {operand : ExprTree} {fraction exponent : UInt32}
      (hOperand : operand.type = .node (.floatbv fraction exponent)) :
      ExprRule (.node .bool) (.unary .isNan operand)
  | overflow {operand : ExprTree} (hKind : operand.kind ∈ ExprKind.overflowing) :
      ExprRule (.node .bool) (.unary .overflow operand)
  | updateElement {element : TyTree} {size : Option ExprTree} {infinite : Bool}
      {source field value : ExprTree}
      (hSource : source.type = .node (.array element size infinite))
      (hField : field.type.IsBitVector) (hValue : value.type = element) :
      ExprRule (.node (.array element size infinite)) (.update source field value)
  /-- The member is named by a string literal. -/
  | updateMember {type : TyTree} {source field value : ExprTree} {name : Name}
      (hSource : source.type = type) (hField : field.shape = .constantString name)
      (hMember : type.HasMember name value.type) : ExprRule type (.update source field value)
  | member {type : TyTree} {source : ExprTree} {name : Name}
      (hMember : source.type.HasMember name type) : ExprRule type (.member source name)
  | indexArray {element : TyTree} {size : Option ExprTree} {infinite : Bool}
      {source position : ExprTree}
      (hSource : source.type = .node (.array element size infinite))
      (hPosition : position.type.IsBitVector) : ExprRule element (.index source position)
  /-- The characters of a string. -/
  | indexString {type : TyTree} {width : UInt32} {source position : ExprTree}
      (hSource : source.type = .node (.string width)) (hPosition : position.type.IsBitVector)
      (hType : type.IsBitVector) : ExprRule type (.index source position)

/-- The contents satisfy the rule of their kind. -/
def Tree.Lawful : Tree → Prop
  | .type t => TyRule t.shape
  | .expr e => ExprRule e.type e.shape

/-- The contents of the node satisfy the rule of its kind, seen through their trees. -/
def Node.Lawful (n : Node) : Prop :=
  n.tree.Lawful

-- ---------------------------------------------------------------------------
-- What a rule says of one kind
-- ---------------------------------------------------------------------------

namespace TyTree

/-- A member is found at the position of its name. -/
theorem hasMember_iff {form : Form} {members : List TyTree} {names : List Name} {name field : Name}
    {member : TyTree} :
    HasMember (.node (.aggregate form members names name)) field member ↔
      ∃ i : Nat, names[i]? = some field ∧ members[i]? = some member := by
  constructor
  · rintro ⟨_, _, hName, hMember⟩
    exact ⟨_, hName, hMember⟩
  · rintro ⟨i, hName, hMember⟩
    exact .at form name hName hMember

/-- What has members is a struct or a union. -/
theorem HasMember.aggregate {t : TyTree} {field : Name} {member : TyTree}
    (h : t.HasMember field member) :
    ∃ form members names name, t = .node (.aggregate form members names name) := by
  obtain ⟨form, name, _, _⟩ := h
  exact ⟨form, _, _, name, rfl⟩

end TyTree

namespace ExprRule

variable {type : TyTree} {left right operand : ExprTree}

theorem constantInt_iff {value : Int} : ExprRule type (.constantInt value) ↔ type.IsBitVector :=
  ⟨fun h => by cases h with | constantInt _ hType => exact hType, .constantInt value⟩

theorem constantBool_iff {value : Bool} :
    ExprRule type (.constantBool value) ↔ type = .node .bool :=
  ⟨fun h => by cases h with | constantBool => rfl, fun h => h ▸ .constantBool value⟩

theorem constantString_iff {value : Name} :
    ExprRule type (.constantString value) ↔ ∃ width, type = .node (.string width) := by
  constructor
  · intro h
    cases h with
    | constantString width => exact ⟨width, rfl⟩
  · rintro ⟨width, rfl⟩
    exact .constantString width value

/-- A literal struct has a struct type with the types of its values as members. -/
theorem constantStruct_iff {values : List ExprTree} :
    ExprRule type (.constantStruct values) ↔
      ∃ names name, type = .node (.aggregate .struct (values.map ExprTree.type) names name) := by
  constructor
  · rintro (_ | _ | _ | ⟨names, name, rfl⟩)
    exact ⟨names, name, rfl⟩
  · rintro ⟨names, name, rfl⟩
    exact .constantStruct names name rfl

/-- A literal union has one value, of the type of the member that is named. -/
theorem constantUnion_iff {values : List ExprTree} {field : Name} :
    ExprRule type (.constantUnion values field) ↔
      ∃ members names name value, type = .node (.aggregate .union members names name) ∧
        values = [value] ∧ type.HasMember field value.type := by
  constructor
  · rintro (_ | _ | _ | _ | hMember)
    exact ⟨_, _, _, _, rfl, rfl, hMember⟩
  · rintro ⟨members, names, name, value, rfl, rfl, hMember⟩
    exact .constantUnion hMember

/-- An array of given elements is finite, all elements have the element type, and their number is
the size wherever that is a literal. -/
theorem constantArray_iff {element : TyTree} {size : Option ExprTree} {infinite : Bool}
    {values : List ExprTree} :
    ExprRule (.node (.array element size infinite)) (.constantArray values) ↔
      infinite = false ∧ (∀ t n, size = some (.node t (.constantInt n)) → n = values.length) ∧
        ∀ v ∈ values, v.type = element := by
  constructor
  · rintro (_ | _ | _ | _ | _ | ⟨hValues, hCount⟩)
    exact ⟨rfl, hCount, hValues⟩
  · rintro ⟨rfl, hCount, hValues⟩
    exact .constantArray hValues hCount

/-- An array of one element repeated may be infinite. -/
theorem constantArrayOf_iff {element : TyTree} {size : Option ExprTree} {infinite : Bool}
    {initializer : ExprTree} :
    ExprRule (.node (.array element size infinite)) (.constantArrayOf initializer) ↔
      initializer.type = element := by
  constructor
  · rintro ⟨⟩
    assumption
  · exact .constantArrayOf size infinite

theorem symbol_iff {name : Name} : ExprRule type (.symbol name) ↔ name.text ≠ "" :=
  ⟨fun h => by cases h with | symbol _ hName => exact hName, .symbol type⟩

/-- Both branches have the result type. -/
theorem ite_iff {cond onTrue onFalse : ExprTree} :
    ExprRule type (.ite cond onTrue onFalse) ↔
      cond.type = .node .bool ∧ onTrue.type = type ∧ onFalse.type = type := by
  constructor
  · intro h
    cases h with
    | ite hCond hTrue hFalse => exact ⟨hCond, hTrue, hFalse⟩
  · rintro ⟨hCond, hTrue, hFalse⟩
    exact .ite hCond hTrue hFalse

/-- The rule of an operator with two operands depends on its family; of the arithmetic operators only
the remainder asks for bit-vectors. -/
theorem binary_iff {op : BinaryOp} :
    ExprRule type (.binary op left right) ↔
      match op.family with
      | .relation => type = .node .bool ∧ left.type = right.type
      | .logical => type = .node .bool ∧ left.type = .node .bool ∧ right.type = .node .bool
      | .bitwise => type.IsBitVector ∧ left.type = type ∧ right.type = type
      | .shift => type.IsBitVector ∧ left.type = type ∧ right.type.IsBitVector
      | .arithmetic => (if op = .modulus then type.IsBitVector else type.IsNumeric) ∧
          left.type = type ∧ right.type = type
      | .pointer => type = .node .bool ∧ (∃ t, left.type = .node (.pointer t)) ∧
          ∃ u, right.type = .node (.pointer u) := by
  constructor
  · intro h
    cases h with
    | relation hOp hSides =>
      rw [BinaryOp.mem_relations.mp hOp]
      exact ⟨rfl, hSides⟩
    | logical hOp hLeft hRight =>
      rw [BinaryOp.mem_logicals.mp hOp]
      exact ⟨rfl, hLeft, hRight⟩
    | numeric hOp hType hLeft hRight =>
      obtain ⟨hFamily, hNe⟩ := BinaryOp.mem_numerics.mp hOp
      rw [hFamily]
      exact ⟨(if_neg hNe).mpr hType, hLeft, hRight⟩
    | bitwise hOp hType hLeft hRight =>
      rcases BinaryOp.mem_bitwises.mp hOp with hFamily | rfl
      · rw [hFamily]
        exact ⟨hType, hLeft, hRight⟩
      · exact ⟨hType, hLeft, hRight⟩
    | shift hOp hType hLeft hRight =>
      rw [BinaryOp.mem_shifts.mp hOp]
      exact ⟨hType, hLeft, hRight⟩
    | sameObject hLeft hRight => exact ⟨rfl, ⟨_, hLeft⟩, _, hRight⟩
  · cases hFamily : op.family with
    | relation =>
      rintro ⟨rfl, hSides⟩
      exact .relation (BinaryOp.mem_relations.mpr hFamily) hSides
    | logical =>
      rintro ⟨rfl, hLeft, hRight⟩
      exact .logical (BinaryOp.mem_logicals.mpr hFamily) hLeft hRight
    | bitwise =>
      rintro ⟨hType, hLeft, hRight⟩
      exact .bitwise (BinaryOp.mem_bitwises.mpr (.inl hFamily)) hType hLeft hRight
    | shift =>
      rintro ⟨hType, hLeft, hRight⟩
      exact .shift (BinaryOp.mem_shifts.mpr hFamily) hType hLeft hRight
    | arithmetic =>
      rintro ⟨hType, hLeft, hRight⟩
      by_cases hOp : op = .modulus
      · rw [if_pos hOp] at hType
        exact .bitwise (BinaryOp.mem_bitwises.mpr (.inr hOp)) hType hLeft hRight
      · rw [if_neg hOp] at hType
        exact .numeric (BinaryOp.mem_numerics.mpr ⟨hFamily, hOp⟩) hType hLeft hRight
    | pointer =>
      rintro ⟨rfl, ⟨t, hLeft⟩, u, hRight⟩
      cases BinaryOp.eq_sameObject hFamily
      exact .sameObject hLeft hRight

/-- What the rule of a unary operator says, operator by operator. -/
theorem unary_iff {op : UnaryOp} :
    ExprRule type (.unary op operand) ↔
      match op with
      | .typecast => True
      | .not => type = .node .bool ∧ operand.type = .node .bool
      | .bitNot => type.IsBitVector ∧ operand.type = type
      | .neg | .abs => type.IsNumeric ∧ operand.type = type
      | .pointerOffset | .pointerObject =>
        type.IsBitVector ∧ ∃ target, operand.type = .node (.pointer target)
      | .addressOf => type = .node (.pointer operand.type)
      | .dereference => operand.type = .node (.pointer type)
      | .isNan => type = .node .bool ∧
          ∃ fraction exponent, operand.type = .node (.floatbv fraction exponent)
      | .overflow => type = .node .bool ∧ operand.kind ∈ ExprKind.overflowing := by
  constructor
  · intro h
    cases h with
    | typecast => trivial
    | not hOperand => exact ⟨rfl, hOperand⟩
    | bitNot hType hOperand => exact ⟨hType, hOperand⟩
    | negOrAbs hOp hType hOperand => rcases hOp with rfl | rfl <;> exact ⟨hType, hOperand⟩
    | pointerPart hOp hType hOperand => rcases hOp with rfl | rfl <;> exact ⟨hType, _, hOperand⟩
    | addressOf hOperand => rw [hOperand]
    | dereference hOperand => exact hOperand
    | isNan hOperand => exact ⟨rfl, _, _, hOperand⟩
    | overflow hKind => exact ⟨rfl, hKind⟩
  · cases op with
    | typecast => exact fun _ => .typecast type operand
    | not => rintro ⟨rfl, hOperand⟩; exact .not hOperand
    | bitNot => rintro ⟨hType, hOperand⟩; exact .bitNot hType hOperand
    | neg => rintro ⟨hType, hOperand⟩; exact .negOrAbs (.inl rfl) hType hOperand
    | abs => rintro ⟨hType, hOperand⟩; exact .negOrAbs (.inr rfl) hType hOperand
    | pointerOffset => rintro ⟨hType, _, hOperand⟩; exact .pointerPart (.inl rfl) hType hOperand
    | pointerObject => rintro ⟨hType, _, hOperand⟩; exact .pointerPart (.inr rfl) hType hOperand
    | addressOf => rintro rfl; exact .addressOf rfl
    | dereference => exact fun hOperand => .dereference hOperand
    | isNan => rintro ⟨rfl, _, _, hOperand⟩; exact .isNan hOperand
    | overflow => rintro ⟨rfl, hKind⟩; exact .overflow hKind

/-- An update keeps the type of its source and replaces an element or a member. -/
theorem update_iff {source field value : ExprTree} :
    ExprRule type (.update source field value) ↔ source.type = type ∧
      ((∃ size infinite, type = .node (.array value.type size infinite) ∧ field.type.IsBitVector) ∨
        ∃ name, field.shape = .constantString name ∧ type.HasMember name value.type) := by
  constructor
  · intro h
    cases h with
    | updateElement hSource hField hValue =>
      subst hValue
      exact ⟨hSource, .inl ⟨_, _, rfl, hField⟩⟩
    | updateMember hSource hField hMember => exact ⟨hSource, .inr ⟨_, hField, hMember⟩⟩
  · rintro ⟨rfl, ⟨size, infinite, hType, hField⟩ | ⟨name, hField, hMember⟩⟩
    · rw [hType]
      exact .updateElement hType hField rfl
    · exact .updateMember rfl hField hMember

/-- An access by name has the type of the member. -/
theorem member_iff {source : ExprTree} {name : Name} :
    ExprRule type (.member source name) ↔ source.type.HasMember name type :=
  ⟨fun h => by cases h with | member hMember => exact hMember, .member⟩

/-- An access by position has the element type; that to a string has any type of bit vectors. -/
theorem index_iff {source position : ExprTree} :
    ExprRule type (.index source position) ↔ position.type.IsBitVector ∧
      ((∃ size infinite, source.type = .node (.array type size infinite)) ∨
        (∃ width, source.type = .node (.string width)) ∧ type.IsBitVector) := by
  constructor
  · intro h
    cases h with
    | indexArray hSource hPosition => exact ⟨hPosition, .inl ⟨_, _, hSource⟩⟩
    | indexString hSource hPosition hType => exact ⟨hPosition, .inr ⟨⟨_, hSource⟩, hType⟩⟩
  · rintro ⟨hPosition, ⟨size, infinite, hSource⟩ | ⟨⟨width, hSource⟩, hType⟩⟩
    · exact .indexArray hSource hPosition
    · exact .indexString hSource hPosition hType

end ExprRule

end TermGraph
