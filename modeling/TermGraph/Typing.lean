import TermGraph.Check

/-!
# Typing rules

What the contents of a node must satisfy before it is built. Each kind has one rule; a rule looks at
the node's own contents and at the types directly inside, never further down, and names the first
field that breaks it. Where types could merely be compatible a rule asks for equal types. A rejection
is logged at the place in the rule that builds it.
-/

namespace TermGraph

open Check

/-! ## Types -/

/-- Member names are not empty and do not repeat one that was `seen` before. -/
def Ty.checkMemberNames (kind : Kind) (seen : List Name) : List Name → Check
  | [] => return ()
  | name :: names => do
    ensure (!name.isEmpty) kind .emptyName
    ensure (!seen.contains name) kind (.duplicateMember name)
    checkMemberNames kind (name :: seen) names

/-- A width is positive. -/
def Ty.checkWidth (kind : Kind) (field : String) (width : UInt32) : Check :=
  ensure (width != 0) kind (.zeroWidth field)

/-- The rule of a type. -/
def Ty.check (shape : TyShape Ty Expr) : Check :=
  let kind : Kind := .type shape.kind
  match shape with
  | .bool | .empty | .pointer _ => return ()
  | .symbol name | .cppName name _ => ensure (!name.isEmpty) kind .emptyName
  | .aggregate _ members names _ => do
    ensure (members.length == names.length) kind (.memberCount members.length names.length)
    checkMemberNames kind [] names
  | .code arguments _ names _ =>
    ensure (names.isEmpty || names.length == arguments.length) kind
      (.argumentCount names.length arguments.length)
  | .array _ (some size) false => require kind "array_size" .bitVector size.type
  | .array _ none true => return ()
  | .array _ (some _) true => do refuse (← invalid kind .infiniteWithSize)
  | .array _ none false => do refuse (← invalid kind .finiteWithoutSize)
  | .unsignedbv width | .signedbv width | .string width => checkWidth kind "width" width
  | .fixedbv width integerBits => do
    checkWidth kind "width" width
    ensure (integerBits ≤ width) kind (.integerBits integerBits width)
  | .floatbv fraction exponent => do
    checkWidth kind "fraction" fraction
    checkWidth kind "exponent" exponent

/-! ## Expressions -/

namespace Expr

/-- The type of the member of that name, or the complaint that there is none. -/
def memberType (kind : Kind) (type : Ty) (name : Name) : Checked Ty := do
  match type.memberType? name with
  | some member => return member
  | none => refuse (← invalid kind (.unknownMember name type))

/-- The values have the given types, position by position. -/
def checkMembers (kind : Kind) : List Expr → List Ty → Check
  | value :: values, member :: members => do
    require kind "datatype_members" (.type member) value.type
    checkMembers kind values members
  | _, _ => return ()

/-- All values have the given type. -/
def checkElements (kind : Kind) (element : Ty) : List Expr → Check
  | [] => return ()
  | value :: values => do
    require kind "datatype_members" (.type element) value.type
    checkElements kind element values

/-- The rule of an expression with two operands:

* relations are boolean and compare operands of one type;
* logical operators have boolean operands and result;
* bitwise and arithmetic operators have operands and result of one type;
* shifts have a first operand of the result type and any bit-vector distance;
* asking for the same object takes two pointers. -/
def checkBinary (op : BinaryOp) (type left right : Ty) : Check :=
  let kind : Kind := .expr (.binary op)
  match op.family with
  | .relation => do
    require kind "type" .bool type
    require kind "side_2" (.type left) right
  | .logical => do
    require kind "type" .bool type
    require kind "side_1" .bool left
    require kind "side_2" .bool right
  | .shift => do
    require kind "type" .bitVector type
    require kind "side_1" (.type type) left
    require kind "side_2" .bitVector right
  | .pointer => do
    require kind "type" .bool type
    require kind "side_1" .pointer left
    require kind "side_2" .pointer right
  | .bitwise => do
    require kind "type" .bitVector type
    require kind "side_1" (.type type) left
    require kind "side_2" (.type type) right
  | .arithmetic => do
    require kind "type" (if op == .modulus then .bitVector else .numeric) type
    require kind "side_1" (.type type) left
    require kind "side_2" (.type type) right

/-- The operations whose overflow can be asked about. -/
def canOverflow (e : Expr) : Bool :=
  match e.shape with
  | .binary op _ _ => op.family == .arithmetic || op == .shl
  | .unary op _ => op == .neg
  | _ => false

/-- The rule of an expression with one operand. -/
def checkUnary (op : UnaryOp) (type : Ty) (operand : Expr) : Check :=
  let kind : Kind := .expr (.unary op)
  let field := op.operandField
  match op with
  | .typecast => return ()
  | .not => do
    require kind "type" .bool type
    require kind field .bool operand.type
  | .bitNot => do
    require kind "type" .bitVector type
    require kind field (.type type) operand.type
  | .neg | .abs => do
    require kind "type" .numeric type
    require kind field (.type type) operand.type
  | .pointerOffset | .pointerObject => do
    require kind "type" .bitVector type
    require kind field .pointer operand.type
  | .addressOf => require kind "type" (.pointerTo operand.type) type
  | .dereference => require kind field (.pointerTo type) operand.type
  | .isNan => do
    require kind "type" .bool type
    require kind field .float operand.type
  | .overflow => do
    require kind "type" .bool type
    ensure operand.canOverflow kind (.unchecked operand.kind)

/-- The rule of an array literal: as many values as a literal size says, all of the element type. -/
def checkArray (type : Ty) (members : List Expr) : Check :=
  let kind : Kind := .expr .constantArray
  match type.shape with
  | .array element size infinite => do
    ensure (!infinite) kind .infiniteLiteral
    -- a size that is not a literal fits any number of values
    match size.bind constantInt? with
    | some n => ensure (n == members.length) kind (.arrayCount members.length n)
    | none => pure ()
    checkElements kind element members
  | _ => require kind "type" .array type

/-- The rule of an update: an array at a bit-vector position, a struct or union at a member that a
string literal names. -/
def checkUpdate (type : Ty) (source field value : Expr) : Check := do
  let kind : Kind := .expr .update
  require kind "type" .aggregate type
  require kind "source_value" (.type type) source.type
  match type.subtype? with
  -- an aggregate with a subtype is an array
  | some element =>
    require kind "update_field" .bitVector field.type
    require kind "update_value" (.type element) value.type
  | none =>
    match field.constantString? with
    | some name =>
      let member ← memberType kind type name
      require kind "update_value" (.type member) value.type
    | none => refuse (← invalid kind (.memberNameNeeded field.kind))

/-- The rule of an expression of a given result type. -/
def check (type : Ty) (shape : ExprShape Expr) : Check :=
  let kind : Kind := .expr shape.kind
  match shape with
  | .constantInt _ => require kind "type" .bitVector type
  | .constantBool _ => require kind "type" .bool type
  | .constantString _ => require kind "type" .string type
  | .constantStruct members => do
    require kind "type" .struct type
    match type.members? with
    | some (types, _) =>
      ensure (types.length == members.length) kind (.structCount members.length types.length)
      checkMembers kind members types
    | none => pure ()
  | .constantUnion members initField => do
    require kind "type" .union type
    match members with
    | [value] =>
      let member ← memberType kind type initField
      require kind "datatype_members" (.type member) value.type
    | _ => refuse (← invalid kind (.unionCount members.length))
  | .constantArray members => checkArray type members
  | .constantArrayOf initializer =>
    match type.shape with
    | .array element _ _ => require kind "initializer" (.type element) initializer.type
    | _ => require kind "type" .array type
  | .symbol name => ensure (!name.isEmpty) kind .emptyName
  | .ite cond onTrue onFalse => do
    require kind "cond" .bool cond.type
    require kind "true_value" (.type type) onTrue.type
    require kind "false_value" (.type type) onFalse.type
  | .binary op left right => checkBinary op type left.type right.type
  | .unary op operand => checkUnary op type operand
  | .update source field value => checkUpdate type source field value
  | .member source name => do
    require kind "source_value" .structOrUnion source.type
    let member ← memberType kind source.type name
    require kind "type" (.type member) type
  | .index source position => do
    require kind "source_value" .indexable source.type
    require kind "index" .bitVector position.type
    match source.type.subtype? with
    | some element => require kind "type" (.type element) type
    -- the characters of a string
    | none => require kind "type" .bitVector type

end Expr

end TermGraph
