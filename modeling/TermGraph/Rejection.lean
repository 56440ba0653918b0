import TermGraph.Order
import TermGraph.Print.Compact
import TermGraph.Print.Structural

/-!
# Rejections

Why a node was not built: a type that does not meet what the rule expects of a field, or contents
that no rule allows. Every text about a rejection is written here.
-/

namespace TermGraph

open Text

/-! ## What a rule expects of a type -/

/-- What a rule expects of a type. -/
inductive Expected where
  /-- Exactly this type. -/
  | type (t : Ty)
  /-- Exactly the pointer type with this target. -/
  | pointerTo (target : Ty)
  | bool
  /-- An unsigned or signed bit-vector. -/
  | bitVector
  /-- A bit-vector, fixed-point or floating-point type. -/
  | numeric
  | float
  | pointer
  | array
  | struct
  | union
  | structOrUnion
  /-- An array, struct or union. -/
  | aggregate
  /-- An array or string. -/
  | indexable
  | string

namespace Expected

/-- The type is a pointer to `target`. -/
def pointsTo (t target : Ty) : Bool :=
  match t.target? with
  | some found => found == target
  | none => false

/-- The type meets the expectation. -/
def accepts : Expected → Ty → Bool
  | .type expected, t => t == expected
  | .pointerTo target, t => pointsTo t target
  | .bool, t => t.isBool
  | .bitVector, t => t.isBitVector
  | .numeric, t => t.isNumeric
  | .float, t => t.isFloat
  | .pointer, t => t.isPointer
  | .array, t => t.isArray
  | .struct, t => t.isStruct
  | .union, t => t.isUnion
  | .structOrUnion, t => t.isStructOrUnion
  | .aggregate, t => t.isArray || t.isStructOrUnion
  | .indexable, t => t.isArray || t.isString
  | .string, t => t.isString

/-- The expectation in words. -/
def text : Expected → String
  | .type t => "`" ++ t.compact ++ "`"
  | .pointerTo target => "`pointer(" ++ target.compact ++ ")`"
  | .bool => "a boolean type"
  | .bitVector => "a bit-vector type"
  | .numeric => "a numeric type"
  | .float => "a floating-point type"
  | .pointer => "a pointer type"
  | .array => "an array type"
  | .struct => "a struct type"
  | .union => "a union type"
  | .structOrUnion => "a struct or union type"
  | .aggregate => "an array, struct or union type"
  | .indexable => "an array or string type"
  | .string => "a string type"

/-- The structural text of an expectation. -/
def structural : Expected → String
  | .type t => "Type(" ++ (Node.type t).structural .line ++ ")"
  | .pointerTo target =>
    "Type(pointer \x7b subtype: Type(" ++ (Node.type target).structural .line ++ ") \x7d)"
  | .bool => "Bool"
  | .bitVector => "BitVector"
  | .numeric => "Numeric"
  | .float => "FloatBv"
  | .pointer => "Pointer"
  | .array => "Array"
  | .struct => "Struct"
  | .union => "Union"
  | .structOrUnion => "StructOrUnion"
  | .aggregate => "Aggregate"
  | .indexable => "Indexable"
  | .string => "String"

/-- The expectations of a class of types. -/
def classes : List Expected :=
  [.bool, .bitVector, .numeric, .float, .pointer, .array, .struct, .union, .structOrUnion,
    .aggregate, .indexable, .string]

/-- The class of types with that structural text. -/
def ofName? (s : String) : Option Expected :=
  classes.find? (·.structural == s)

/-- The two expect the same of every type. -/
def same : Expected → Expected → Bool
  | .type a, .type b => a == b
  | .pointerTo a, .pointerTo b => a == b
  | .type t, .pointerTo target => pointsTo t target
  | .pointerTo target, .type t => pointsTo t target
  | .bool, .bool => true
  | .bitVector, .bitVector => true
  | .numeric, .numeric => true
  | .float, .float => true
  | .pointer, .pointer => true
  | .array, .array => true
  | .struct, .struct => true
  | .union, .union => true
  | .structOrUnion, .structOrUnion => true
  | .aggregate, .aggregate => true
  | .indexable, .indexable => true
  | .string, .string => true
  | _, _ => false

end Expected

/-! ## Contents that no rule allows -/

/-- What is wrong with the contents of a node. -/
inductive Reason where
  | emptyName
  | memberCount (members names : Nat)
  | duplicateMember (name : Name)
  | argumentCount (names arguments : Nat)
  | infiniteWithSize
  | finiteWithoutSize
  | zeroWidth (field : String)
  | integerBits (bits width : UInt32)
  | structCount (values members : Nat)
  | unionCount (values : Nat)
  | unknownMember (name : Name) (type : Ty)
  | infiniteLiteral
  | arrayCount (values : Nat) (size : Int)
  | unchecked (kind : ExprKind)
  | memberNameNeeded (kind : ExprKind)

def Reason.text : Reason → String
  | .emptyName => "empty name"
  | .memberCount members names =>
    decimal members ++ " members but " ++ decimal names ++ " member names"
  | .duplicateMember name => "duplicate member `" ++ name.text ++ "`"
  | .argumentCount names arguments =>
    decimal names ++ " argument names for " ++ decimal arguments ++ " arguments"
  | .infiniteWithSize => "infinite array with a size"
  | .finiteWithoutSize => "finite array without a size"
  | .zeroWidth field => field ++ " must be positive"
  | .integerBits bits width =>
    decimal bits.toNat ++ " integer bits exceed width " ++ decimal width.toNat
  | .structCount values members =>
    decimal values ++ " members for a struct of " ++ decimal members
  | .unionCount values => "a union literal has exactly one member, found " ++ decimal values
  | .unknownMember name type => "no member `" ++ name.text ++ "` in `" ++ type.compact ++ "`"
  | .infiniteLiteral => "array literal of infinite size"
  | .arrayCount values size =>
    decimal values ++ " members for an array of size " ++ decimalInt size
  | .unchecked kind => "cannot check `" ++ kind.name ++ "` for overflow"
  | .memberNameNeeded kind => "struct update needs a member name, found `" ++ kind.name ++ "`"

/-! ## Rejections -/

/-- Why a node of a kind was not built. -/
inductive Rejection where
  /-- The type of a field is not as expected; the field `type` is the result type. -/
  | mismatch (kind : Kind) (field : String) (expected : Expected) (found : Ty)
  /-- The contents are wrong. -/
  | invalid (kind : Kind) (reason : Reason)

namespace Rejection

def kind : Rejection → Kind
  | .mismatch kind .. => kind
  | .invalid kind _ => kind

def message : Rejection → String
  | .mismatch kind field expected found =>
    "type mismatch in `" ++ kind.name ++ "` field `" ++ field ++ "`: expected " ++ expected.text
      ++ ", found `" ++ found.compact ++ "`"
  | .invalid kind reason => "invalid `" ++ kind.name ++ "`: " ++ reason.text

/-- The structural text of a rejection. -/
def structural : Rejection → String
  | .mismatch kind field expected found =>
    "TypeMismatch \x7b kind: " ++ quoted kind.name ++ ", field: " ++ quoted field ++ ", expected: "
      ++ expected.structural ++ ", found: " ++ (Node.type found).structural .line ++ " \x7d"
  | .invalid kind reason =>
    "InvalidConstruction \x7b kind: " ++ quoted kind.name ++ ", reason: " ++ quoted reason.text
      ++ " \x7d"

/-- Rejections are equal if they say the same: kinds and reasons count by their texts. -/
instance : BEq Rejection where
  beq
    | .mismatch k f e t, .mismatch k' f' e' t' =>
      k.name == k'.name && f == f' && e.same e' && t == t'
    | .invalid k r, .invalid k' r' => k.name == k'.name && r.text == r'.text
    | _, _ => false

end Rejection

end TermGraph
