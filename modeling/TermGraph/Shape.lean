import TermGraph.Kind.Basic
import TermGraph.Name

/-!
# Shapes

The shape of a node is its kind with its contents, where the types and expressions inside are
left as parameters: `τ` stands for types and `ε` for expressions. A node is a shape that holds
nodes, together with an identity (`TermGraph.Node`).
-/

namespace TermGraph

/-- Whether the members of an aggregate lie side by side or overlap. -/
inductive Form where
  | struct
  | union
deriving DecidableEq, Repr

def Form.kind : Form → TypeKind
  | .struct => .struct
  | .union => .union

/-- One level of a type. -/
inductive TyShape (τ ε : Type) where
  | bool
  | empty
  | symbol (name : Name)
  | aggregate (form : Form) (members : List τ) (memberNames : List Name) (name : Name)
  | code (arguments : List τ) (result : τ) (argumentNames : List Name) (ellipsis : Bool)
  | array (element : τ) (size : Option ε) (infinite : Bool)
  | pointer (target : τ)
  | unsignedbv (width : UInt32)
  | signedbv (width : UInt32)
  | fixedbv (width integerBits : UInt32)
  | floatbv (fraction exponent : UInt32)
  | string (width : UInt32)
  | cppName (name : Name) (arguments : List τ)
deriving Repr

/-- One level of an expression; its result type is kept beside the shape. -/
inductive ExprShape (ε : Type) where
  | constantInt (value : Int)
  | constantBool (value : Bool)
  | constantString (value : Name)
  | constantStruct (members : List ε)
  | constantUnion (members : List ε) (initField : Name)
  | constantArray (members : List ε)
  | constantArrayOf (initializer : ε)
  | symbol (name : Name)
  | ite (cond onTrue onFalse : ε)
  | binary (op : BinaryOp) (left right : ε)
  | unary (op : UnaryOp) (operand : ε)
  | update (source field value : ε)
  | member (source : ε) (name : Name)
  | index (source position : ε)
deriving Repr

namespace TyShape

variable {τ τ' ε ε' : Type}

def kind : TyShape τ ε → TypeKind
  | .bool => .bool
  | .empty => .empty
  | .symbol _ => .symbol
  | .aggregate form _ _ _ => form.kind
  | .code .. => .code
  | .array .. => .array
  | .pointer _ => .pointer
  | .unsignedbv _ => .unsignedbv
  | .signedbv _ => .signedbv
  | .fixedbv .. => .fixedbv
  | .floatbv .. => .floatbv
  | .string _ => .string
  | .cppName .. => .cppName

/-- Replaces the types by `f` and the expressions by `g`, from left to right. -/
@[specialize] def traverse {m : Type → Type} [Monad m] (f : τ → m τ') (g : ε → m ε') :
    TyShape τ ε → m (TyShape τ' ε')
  | .bool => pure .bool
  | .empty => pure .empty
  | .symbol name => pure (.symbol name)
  | .aggregate form members names name => do return .aggregate form (← members.mapM f) names name
  | .code arguments result names ellipsis => do
    let arguments ← arguments.mapM f
    return .code arguments (← f result) names ellipsis
  | .array element size infinite => do
    let element ← f element
    return .array element (← size.mapM g) infinite
  | .pointer target => do return .pointer (← f target)
  | .unsignedbv width => pure (.unsignedbv width)
  | .signedbv width => pure (.signedbv width)
  | .fixedbv width integerBits => pure (.fixedbv width integerBits)
  | .floatbv fraction exponent => pure (.floatbv fraction exponent)
  | .string width => pure (.string width)
  | .cppName name arguments => do return .cppName name (← arguments.mapM f)

end TyShape

namespace ExprShape

variable {ε ε' : Type}

def kind : ExprShape ε → ExprKind
  | .constantInt _ => .constantInt
  | .constantBool _ => .constantBool
  | .constantString _ => .constantString
  | .constantStruct _ => .constantStruct
  | .constantUnion .. => .constantUnion
  | .constantArray _ => .constantArray
  | .constantArrayOf _ => .constantArrayOf
  | .symbol _ => .symbol
  | .ite .. => .ite
  | .binary op _ _ => .binary op
  | .unary op _ => .unary op
  | .update .. => .update
  | .member .. => .member
  | .index .. => .index

/-- Replaces the expressions by `g`, from left to right. -/
@[specialize] def traverse {m : Type → Type} [Monad m] (g : ε → m ε') :
    ExprShape ε → m (ExprShape ε')
  | .constantInt value => pure (.constantInt value)
  | .constantBool value => pure (.constantBool value)
  | .constantString value => pure (.constantString value)
  | .constantStruct members => do return .constantStruct (← members.mapM g)
  | .constantUnion members initField => do return .constantUnion (← members.mapM g) initField
  | .constantArray members => do return .constantArray (← members.mapM g)
  | .constantArrayOf initializer => do return .constantArrayOf (← g initializer)
  | .symbol name => pure (.symbol name)
  | .ite cond onTrue onFalse => do
    let cond ← g cond
    let onTrue ← g onTrue
    return .ite cond onTrue (← g onFalse)
  | .binary op left right => do
    let left ← g left
    return .binary op left (← g right)
  | .unary op operand => do return .unary op (← g operand)
  | .update source field value => do
    let source ← g source
    let field ← g field
    return .update source field (← g value)
  | .member source name => do return .member (← g source) name
  | .index source position => do
    let source ← g source
    return .index source (← g position)

end ExprShape

end TermGraph
