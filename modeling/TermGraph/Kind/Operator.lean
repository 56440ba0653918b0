/-!
# Operators

The two-operand and one-operand operators of expressions. A two-operand operator belongs to one
family, and the family decides most of its typing rule.
-/

namespace TermGraph

/-- Operators with two operands. -/
inductive BinaryOp where
  | equality | notEqual | lessThan | greaterThan | lessThanEqual | greaterThanEqual
  | and | or | xor | implies
  | bitAnd | bitOr | bitXor
  | lshr | shl | ashr
  | add | sub | mul | div | modulus
  | sameObject
deriving DecidableEq, Repr, Inhabited

/-- What a two-operand operator is about. -/
inductive Family where
  /-- Compares two operands of one type. -/
  | relation
  /-- Combines truth values. -/
  | logical
  /-- Combines bit-vectors bit by bit. -/
  | bitwise
  /-- Moves the bits of its first operand. -/
  | shift
  /-- Computes with numbers. -/
  | arithmetic
  /-- Asks whether two pointers point into one object. -/
  | pointer
deriving DecidableEq, Repr

namespace BinaryOp

def all : List BinaryOp :=
  [.equality, .notEqual, .lessThan, .greaterThan, .lessThanEqual, .greaterThanEqual,
    .and, .or, .xor, .implies, .bitAnd, .bitOr, .bitXor, .lshr, .shl, .ashr,
    .add, .sub, .mul, .div, .modulus, .sameObject]

def family : BinaryOp → Family
  | .equality | .notEqual | .lessThan | .greaterThan | .lessThanEqual | .greaterThanEqual => .relation
  | .and | .or | .xor | .implies => .logical
  | .bitAnd | .bitOr | .bitXor => .bitwise
  | .lshr | .shl | .ashr => .shift
  | .add | .sub | .mul | .div | .modulus => .arithmetic
  | .sameObject => .pointer

/-- The word for the operator in every text form of an expression. -/
def name : BinaryOp → String
  | .equality => "equality"
  | .notEqual => "notequal"
  | .lessThan => "lessthan"
  | .greaterThan => "greaterthan"
  | .lessThanEqual => "lessthanequal"
  | .greaterThanEqual => "greaterthanequal"
  | .and => "and"
  | .or => "or"
  | .xor => "xor"
  | .implies => "implies"
  | .bitAnd => "bitand"
  | .bitOr => "bitor"
  | .bitXor => "bitxor"
  | .lshr => "lshr"
  | .shl => "shl"
  | .ashr => "ashr"
  | .add => "add"
  | .sub => "sub"
  | .mul => "mul"
  | .div => "div"
  | .modulus => "modulus"
  | .sameObject => "same_object"

/-- The operator on its own, as a capitalised label. -/
def label : BinaryOp → String
  | .equality => "Equality"
  | .notEqual => "NotEqual"
  | .lessThan => "LessThan"
  | .greaterThan => "GreaterThan"
  | .lessThanEqual => "LessThanEqual"
  | .greaterThanEqual => "GreaterThanEqual"
  | .and => "And"
  | .or => "Or"
  | .xor => "Xor"
  | .implies => "Implies"
  | .bitAnd => "BitAnd"
  | .bitOr => "BitOr"
  | .bitXor => "BitXor"
  | .lshr => "Lshr"
  | .shl => "Shl"
  | .ashr => "Ashr"
  | .add => "Add"
  | .sub => "Sub"
  | .mul => "Mul"
  | .div => "Div"
  | .modulus => "Modulus"
  | .sameObject => "SameObject"

def ofName? (s : String) : Option BinaryOp :=
  all.find? (·.name == s)

end BinaryOp

/-- Operators with one operand. -/
inductive UnaryOp where
  | typecast | not | bitNot | neg | abs | pointerOffset | pointerObject | addressOf | isNan
  | overflow | dereference
deriving DecidableEq, Repr, Inhabited

namespace UnaryOp

def all : List UnaryOp :=
  [.typecast, .not, .bitNot, .neg, .abs, .pointerOffset, .pointerObject, .addressOf, .isNan,
    .overflow, .dereference]

/-- The word for the operator in every text form of an expression. -/
def name : UnaryOp → String
  | .typecast => "typecast"
  | .not => "not"
  | .bitNot => "bitnot"
  | .neg => "neg"
  | .abs => "abs"
  | .pointerOffset => "pointer_offset"
  | .pointerObject => "pointer_object"
  | .addressOf => "address_of"
  | .isNan => "isnan"
  | .overflow => "overflow"
  | .dereference => "dereference"

/-- The operator on its own, as a capitalised label. -/
def label : UnaryOp → String
  | .typecast => "Typecast"
  | .not => "Not"
  | .bitNot => "BitNot"
  | .neg => "Neg"
  | .abs => "Abs"
  | .pointerOffset => "PointerOffset"
  | .pointerObject => "PointerObject"
  | .addressOf => "AddressOf"
  | .isNan => "IsNan"
  | .overflow => "Overflow"
  | .dereference => "Dereference"

/-- The name of the field that holds the operand. -/
def operandField : UnaryOp → String
  | .typecast => "from"
  | .not | .bitNot | .neg | .abs | .isNan | .dereference => "value"
  | .pointerOffset | .pointerObject | .addressOf => "ptr_obj"
  | .overflow => "operand"

def ofName? (s : String) : Option UnaryOp :=
  all.find? (·.name == s)

end UnaryOp

end TermGraph
