import TermGraph.Kind.Operator

/-!
# Kinds

Every type and every expression is of one kind. Kinds have a fixed order, their *rank*, and a
name; the order of nodes compares ranks first. The kind of an expression with operands names its
operator, so that two expressions of one kind have the same operator.
-/

namespace TermGraph

/-! ## Kinds of types -/

/-- The kinds of types, in order. -/
inductive TypeKind where
  | bool | empty | symbol | struct | union | code | array | pointer
  | unsignedbv | signedbv | fixedbv | floatbv | string | cppName
deriving DecidableEq, Repr, Inhabited

namespace TypeKind

def all : List TypeKind :=
  [.bool, .empty, .symbol, .struct, .union, .code, .array, .pointer,
    .unsignedbv, .signedbv, .fixedbv, .floatbv, .string, .cppName]

def rank : TypeKind → Nat
  | .bool => 0
  | .empty => 1
  | .symbol => 2
  | .struct => 3
  | .union => 4
  | .code => 5
  | .array => 6
  | .pointer => 7
  | .unsignedbv => 8
  | .signedbv => 9
  | .fixedbv => 10
  | .floatbv => 11
  | .string => 12
  | .cppName => 13

def name : TypeKind → String
  | .bool => "bool"
  | .empty => "empty"
  | .symbol => "symbol"
  | .struct => "struct"
  | .union => "union"
  | .code => "code"
  | .array => "array"
  | .pointer => "pointer"
  | .unsignedbv => "unsignedbv"
  | .signedbv => "signedbv"
  | .fixedbv => "fixedbv"
  | .floatbv => "floatbv"
  | .string => "string"
  | .cppName => "cpp_name"

/-- Types whose values are a fixed number of bits. -/
def isBitVectorLike : TypeKind → Bool
  | .unsignedbv | .signedbv | .fixedbv | .floatbv => true
  | _ => false

def ofName? (s : String) : Option TypeKind :=
  all.find? (·.name == s)

end TypeKind

/-! ## Kinds of expressions -/

/-- The kinds of expressions; those with an operator carry it. -/
inductive ExprKind where
  | constantInt | constantBool | constantString | constantStruct | constantUnion
  | constantArray | constantArrayOf
  | symbol
  | ite
  | binary (op : BinaryOp)
  | unary (op : UnaryOp)
  | update | member | index
deriving DecidableEq, Repr, Inhabited

namespace ExprKind

def all : List ExprKind :=
  [.constantInt, .constantBool, .constantString, .constantStruct, .constantUnion,
    .constantArray, .constantArrayOf, .symbol, .unary .typecast, .ite,
    .binary .equality, .binary .notEqual, .binary .lessThan, .binary .greaterThan,
    .binary .lessThanEqual, .binary .greaterThanEqual, .unary .not,
    .binary .and, .binary .or, .binary .xor, .binary .implies,
    .binary .bitAnd, .binary .bitOr, .binary .bitXor, .unary .bitNot, .binary .lshr,
    .unary .neg, .unary .abs, .binary .add, .binary .sub, .binary .mul, .binary .div,
    .binary .modulus, .binary .shl, .binary .ashr, .binary .sameObject,
    .unary .pointerOffset, .unary .pointerObject, .unary .addressOf,
    .update, .member, .index, .unary .isNan, .unary .overflow, .unary .dereference]

def rank : ExprKind → Nat
  | .constantInt => 0
  | .constantBool => 1
  | .constantString => 2
  | .constantStruct => 3
  | .constantUnion => 4
  | .constantArray => 5
  | .constantArrayOf => 6
  | .symbol => 7
  | .unary .typecast => 8
  | .ite => 9
  | .binary .equality => 10
  | .binary .notEqual => 11
  | .binary .lessThan => 12
  | .binary .greaterThan => 13
  | .binary .lessThanEqual => 14
  | .binary .greaterThanEqual => 15
  | .unary .not => 16
  | .binary .and => 17
  | .binary .or => 18
  | .binary .xor => 19
  | .binary .implies => 20
  | .binary .bitAnd => 21
  | .binary .bitOr => 22
  | .binary .bitXor => 23
  | .unary .bitNot => 24
  | .binary .lshr => 25
  | .unary .neg => 26
  | .unary .abs => 27
  | .binary .add => 28
  | .binary .sub => 29
  | .binary .mul => 30
  | .binary .div => 31
  | .binary .modulus => 32
  | .binary .shl => 33
  | .binary .ashr => 34
  | .binary .sameObject => 35
  | .unary .pointerOffset => 36
  | .unary .pointerObject => 37
  | .unary .addressOf => 38
  | .update => 39
  | .member => 40
  | .index => 41
  | .unary .isNan => 42
  | .unary .overflow => 43
  | .unary .dereference => 44

def name : ExprKind → String
  | .constantInt => "constant_int"
  | .constantBool => "constant_bool"
  | .constantString => "constant_string"
  | .constantStruct => "constant_struct"
  | .constantUnion => "constant_union"
  | .constantArray => "constant_array"
  | .constantArrayOf => "constant_array_of"
  | .symbol => "symbol"
  | .ite => "if"
  | .binary op => op.name
  | .unary op => op.name
  | .update => "with"
  | .member => "member"
  | .index => "index"

/-- The kinds of literals. -/
def isConstant : ExprKind → Bool
  | .constantInt | .constantBool | .constantString | .constantStruct | .constantUnion
  | .constantArray | .constantArrayOf => true
  | _ => false

def ofName? (s : String) : Option ExprKind :=
  all.find? (·.name == s)

end ExprKind

/-! ## Kinds of nodes -/

/-- The kind of a node of either category. -/
inductive Kind where
  | type (kind : TypeKind)
  | expr (kind : ExprKind)
deriving DecidableEq, Repr

/-- A kind of types and a kind of expressions may share a name, as `symbol` does. -/
def Kind.name : Kind → String
  | .type k => k.name
  | .expr k => k.name

end TermGraph
