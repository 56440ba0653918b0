import TermGraph.Node

/-!
# Questions to types and expressions

What the typing rules and the reports ask of a node: which class a type belongs to, what it is made
of, and the contents of an expression of a given kind.
-/

namespace TermGraph

namespace Ty

def isBool (t : Ty) : Bool :=
  t.kind == .bool

/-- An unsigned or signed bit-vector. -/
def isBitVector (t : Ty) : Bool :=
  t.kind == .unsignedbv || t.kind == .signedbv

/-- A bit-vector, fixed-point or floating-point type. -/
def isNumeric (t : Ty) : Bool :=
  t.kind.isBitVectorLike

def isFloat (t : Ty) : Bool :=
  t.kind == .floatbv

def isPointer (t : Ty) : Bool :=
  t.kind == .pointer

def isArray (t : Ty) : Bool :=
  t.kind == .array

def isStruct (t : Ty) : Bool :=
  t.kind == .struct

def isUnion (t : Ty) : Bool :=
  t.kind == .union

def isStructOrUnion (t : Ty) : Bool :=
  t.isStruct || t.isUnion

def isString (t : Ty) : Bool :=
  t.kind == .string

/-- The sum of two widths, or the largest width if the sum is larger. -/
def addWidths (a b : UInt32) : UInt32 :=
  if a.toNat + b.toNat < UInt32.size then UInt32.ofNat (a.toNat + b.toNat) else 4294967295

/-- The width in bits of numeric and string types; a float has a sign bit besides its fraction and
exponent. -/
def width? (t : Ty) : Option UInt32 :=
  match t.shape with
  | .unsignedbv width | .signedbv width | .fixedbv width _ | .string width => some width
  | .floatbv fraction exponent => some (addWidths (addWidths fraction exponent) 1)
  | _ => none

/-- What a pointer points to, or the type of an array's elements. -/
def subtype? (t : Ty) : Option Ty :=
  match t.shape with
  | .pointer target => some target
  | .array element _ _ => some element
  | _ => none

/-- The target of a pointer type. -/
def target? (t : Ty) : Option Ty :=
  match t.shape with
  | .pointer target => some target
  | _ => none

/-- The members of a struct or union with their names. -/
def members? (t : Ty) : Option (List Ty × List Name) :=
  match t.shape with
  | .aggregate _ members names _ => some (members, names)
  | _ => none

/-- The type of the member of that name. -/
def memberType? (t : Ty) (name : Name) : Option Ty := do
  let (members, names) ← t.members?
  let i ← names.findIdx? (· == name)
  members[i]?

end Ty

namespace Expr

def isConstant (e : Expr) : Bool :=
  e.kind.isConstant

def isConstantInt (e : Expr) : Bool :=
  e.kind == .constantInt

def isSymbol (e : Expr) : Bool :=
  e.kind == .symbol

def constantInt? (e : Expr) : Option Int :=
  match e.shape with
  | .constantInt value => some value
  | _ => none

def constantBool? (e : Expr) : Option Bool :=
  match e.shape with
  | .constantBool value => some value
  | _ => none

def constantString? (e : Expr) : Option Name :=
  match e.shape with
  | .constantString value => some value
  | _ => none

def symbol? (e : Expr) : Option Name :=
  match e.shape with
  | .symbol name => some name
  | _ => none

/-- The operator and the operands of an expression with two operands. -/
def binary? (e : Expr) : Option (BinaryOp × Expr × Expr) :=
  match e.shape with
  | .binary op left right => some (op, left, right)
  | _ => none

/-- The operator and the operand of an expression with one operand. -/
def unary? (e : Expr) : Option (UnaryOp × Expr) :=
  match e.shape with
  | .unary op operand => some (op, operand)
  | _ => none

end Expr

end TermGraph
