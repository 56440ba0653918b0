import TermGraph.Shape

/-!
# Fields

Each kind lists its contents as named fields, in a fixed order. Whatever treats all kinds alike
(order, digests, texts, traversal) reads a node through this table and never through its shape.
-/

namespace TermGraph

/-- The value of a field. -/
inductive Value (τ ε : Type) where
  | bool (value : Bool)
  | uint (value : UInt32)
  | int (value : Int)
  | name (value : Name)
  | names (values : List Name)
  | type (value : τ)
  | types (values : List τ)
  | expr (value : ε)
  | optExpr (value : Option ε)
  | exprs (values : List ε)
deriving Repr

/-- A field of a node. -/
structure Field (τ ε : Type) where
  name : String
  value : Value τ ε
deriving Repr

namespace Value

variable {τ ε : Type}

/-- The sort of a value, as a capitalised label. -/
def label : Value τ ε → String
  | .bool _ => "Bool"
  | .uint _ => "Uint"
  | .int _ => "Int"
  | .name _ => "Name"
  | .names _ => "Names"
  | .type _ => "Type"
  | .types _ => "Types"
  | .expr _ => "Expr"
  | .optExpr _ => "OptExpr"
  | .exprs _ => "Exprs"

/-- The position of a value's sort among all sorts. -/
def rank : Value τ ε → Nat
  | .bool _ => 0
  | .uint _ => 1
  | .int _ => 2
  | .name _ => 3
  | .names _ => 4
  | .type _ => 5
  | .types _ => 6
  | .expr _ => 7
  | .optExpr _ => 8
  | .exprs _ => 9

/-- The types held directly by a value. -/
def heldTypes : Value τ ε → List τ
  | .type t => [t]
  | .types ts => ts
  | _ => []

/-- The expressions held directly by a value. -/
def heldExprs : Value τ ε → List ε
  | .expr e => [e]
  | .optExpr e => e.toList
  | .exprs es => es
  | _ => []

/-- The type, if the value is exactly one. -/
def asType? : Value τ ε → Option τ
  | .type t => some t
  | _ => none

/-- The expression, if the value is exactly one. -/
def asExpr? : Value τ ε → Option ε
  | .expr e => some e
  | .optExpr e => e
  | _ => none

end Value

variable {τ ε : Type}

/-- The fields of a type. -/
def TyShape.fields : TyShape τ ε → List (Field τ ε)
  | .bool => []
  | .empty => []
  | .symbol name => [⟨"symbol_name", .name name⟩]
  | .aggregate _ members names name =>
    [⟨"members", .types members⟩, ⟨"member_names", .names names⟩, ⟨"name", .name name⟩]
  | .code arguments result names ellipsis =>
    [⟨"arguments", .types arguments⟩, ⟨"ret_type", .type result⟩,
      ⟨"argument_names", .names names⟩, ⟨"ellipsis", .bool ellipsis⟩]
  | .array element size infinite =>
    [⟨"subtype", .type element⟩, ⟨"array_size", .optExpr size⟩,
      ⟨"size_is_infinite", .bool infinite⟩]
  | .pointer target => [⟨"subtype", .type target⟩]
  | .unsignedbv width => [⟨"width", .uint width⟩]
  | .signedbv width => [⟨"width", .uint width⟩]
  | .fixedbv width integerBits => [⟨"width", .uint width⟩, ⟨"integer_bits", .uint integerBits⟩]
  | .floatbv fraction exponent => [⟨"fraction", .uint fraction⟩, ⟨"exponent", .uint exponent⟩]
  | .string width => [⟨"width", .uint width⟩]
  | .cppName name arguments => [⟨"name", .name name⟩, ⟨"template_args", .types arguments⟩]

/-- The fields of an expression, its result type left out. -/
def ExprShape.fields : ExprShape ε → List (Field τ ε)
  | .constantInt value => [⟨"constant_value", .int value⟩]
  | .constantBool value => [⟨"value", .bool value⟩]
  | .constantString value => [⟨"value", .name value⟩]
  | .constantStruct members => [⟨"datatype_members", .exprs members⟩]
  | .constantUnion members initField =>
    [⟨"datatype_members", .exprs members⟩, ⟨"init_field", .name initField⟩]
  | .constantArray members => [⟨"datatype_members", .exprs members⟩]
  | .constantArrayOf initializer => [⟨"initializer", .expr initializer⟩]
  | .symbol name => [⟨"name", .name name⟩]
  | .ite cond onTrue onFalse =>
    [⟨"cond", .expr cond⟩, ⟨"true_value", .expr onTrue⟩, ⟨"false_value", .expr onFalse⟩]
  | .binary _ left right => [⟨"side_1", .expr left⟩, ⟨"side_2", .expr right⟩]
  | .unary op operand => [⟨op.operandField, .expr operand⟩]
  | .update source field value =>
    [⟨"source_value", .expr source⟩, ⟨"update_field", .expr field⟩, ⟨"update_value", .expr value⟩]
  | .member source name => [⟨"source_value", .expr source⟩, ⟨"member", .name name⟩]
  | .index source position => [⟨"source_value", .expr source⟩, ⟨"index", .expr position⟩]

/-- The expressions directly inside an expression, in field order. -/
def ExprShape.operands (shape : ExprShape ε) : List ε :=
  (shape.fields : List (Field Unit ε)).flatMap (·.value.heldExprs)

end TermGraph
