import TermGraph.Script.Datum
import TermGraph.Script.Scope

/-!
# Specs

A spec describes a node: the name of a slot, or a list of a kind's name and its arguments. The kind
and the number of arguments are looked at first, then the arguments are made from left to right, then
the node. The first failure is the result.
-/

namespace TermGraph.Spec

open Build

/-! ## Arguments that are not nodes -/

def readName (d : Datum) : Build Name := do
  return ⟨← expect d.text?⟩

def readNames (d : Datum) : Build (List Name) := do
  return (← expect d.texts?).map Name.mk

def readBool (d : Datum) : Build Bool :=
  expect d.bool?

/-- A number of at most 32 bits. -/
def readWidth (d : Datum) : Build UInt32 := do
  let n ← expect d.nat?
  if n < UInt32.size then return n.toUInt32 else malformed

/-- The number that some decimal digits stand for, if they are digits and there is one. -/
def digits? (cs : List Char) : Option Nat :=
  if cs.isEmpty || !cs.all Char.isDigit then none
  else some (cs.foldl (fun n c => 10 * n + (c.toNat - '0'.toNat)) 0)

/-- A whole number in digits, with a minus sign if it is negative. -/
def integer? (s : String) : Option Int :=
  match s.toList with
  | '-' :: cs => (digits? cs).map fun n => -(n : Int)
  | cs => (digits? cs).map Int.ofNat

/-- A whole number: as a number of at most 64 bits, in digits, or as the position in a chain. -/
def readInt (scope : Scope) : Datum → Build Int
  | .int i => if Int64.minValue.toInt ≤ i && i ≤ Int64.maxValue.toInt then pure i else malformed
  | .text s => if s == "i" then pure scope.index else expect (integer? s)
  | _ => malformed

/-! ## Nodes -/

mutual

/-- Makes the type that a spec describes. -/
def type (scope : Scope) : Datum → Build Ty
  | .text name => slotType scope name
  | .list (.text kind :: args) =>
    match TypeKind.ofName? kind, args with
    | some .bool, [] => makeType .bool
    | some .empty, [] => makeType .empty
    | some .symbol, [name] => do makeType (.symbol (← readName name))
    | some .struct, [members, names, name] => do
      let members ← types scope members
      let names ← readNames names
      makeType (.aggregate .struct members names (← readName name))
    | some .union, [members, names, name] => do
      let members ← types scope members
      let names ← readNames names
      makeType (.aggregate .union members names (← readName name))
    | some .code, [arguments, result, names, ellipsis] => do
      let arguments ← types scope arguments
      let result ← type scope result
      let names ← readNames names
      makeType (.code arguments result names (← readBool ellipsis))
    | some .array, [element, size, infinite] => do
      let element ← type scope element
      let size ← match size with
        | .null => pure none
        | size => some <$> expr scope size
      makeType (.array element size (← readBool infinite))
    | some .pointer, [target] => do makeType (.pointer (← type scope target))
    | some .unsignedbv, [width] => do makeType (.unsignedbv (← readWidth width))
    | some .signedbv, [width] => do makeType (.signedbv (← readWidth width))
    | some .fixedbv, [width, integerBits] => do
      let width ← readWidth width
      makeType (.fixedbv width (← readWidth integerBits))
    | some .floatbv, [fraction, exponent] => do
      let fraction ← readWidth fraction
      makeType (.floatbv fraction (← readWidth exponent))
    | some .string, [width] => do makeType (.string (← readWidth width))
    | some .cppName, [name, arguments] => do
      let name ← readName name
      makeType (.cppName name (← types scope arguments))
    | _, _ => malformed
  | _ => malformed
termination_by structural d => d

/-- Makes the types that a list of specs describes. -/
def types (scope : Scope) : Datum → Build (List Ty)
  | .list specs => typeList scope specs
  | _ => malformed

def typeList (scope : Scope) : List Datum → Build (List Ty)
  | [] => return []
  | spec :: specs => do
    let t ← type scope spec
    return t :: (← typeList scope specs)

/-- Makes the expression that a spec describes. -/
def expr (scope : Scope) : Datum → Build Expr
  | .text name => slotExpr scope name
  | .list (.text "binary" :: args) =>
    match args with
    | [.text op, ty, left, right] => do
      let op ← expect (BinaryOp.ofName? op)
      let ty ← type scope ty
      let left ← expr scope left
      makeExpr ty (.binary op left (← expr scope right))
    | _ => malformed
  | .list (.text "unary" :: args) =>
    match args with
    | [.text op, ty, operand] => do
      let op ← expect (UnaryOp.ofName? op)
      let ty ← type scope ty
      makeExpr ty (.unary op (← expr scope operand))
    | _ => malformed
  | .list (.text kind :: args) =>
    match ExprKind.ofName? kind, args with
    | some .constantInt, [ty, value] => do
      let ty ← type scope ty
      makeExpr ty (.constantInt (← readInt scope value))
    | some .constantBool, [ty, value] => do
      let ty ← type scope ty
      makeExpr ty (.constantBool (← readBool value))
    | some .constantString, [ty, value] => do
      let ty ← type scope ty
      makeExpr ty (.constantString (← readName value))
    | some .constantStruct, [ty, members] => do
      let ty ← type scope ty
      makeExpr ty (.constantStruct (← exprs scope members))
    | some .constantUnion, [ty, members, initField] => do
      let ty ← type scope ty
      let members ← exprs scope members
      makeExpr ty (.constantUnion members (← readName initField))
    | some .constantArray, [ty, members] => do
      let ty ← type scope ty
      makeExpr ty (.constantArray (← exprs scope members))
    | some .constantArrayOf, [ty, initializer] => do
      let ty ← type scope ty
      makeExpr ty (.constantArrayOf (← expr scope initializer))
    | some .symbol, [ty, name] => do
      let ty ← type scope ty
      makeExpr ty (.symbol (← readName name))
    | some .ite, [ty, cond, onTrue, onFalse] => do
      let ty ← type scope ty
      let cond ← expr scope cond
      let onTrue ← expr scope onTrue
      makeExpr ty (.ite cond onTrue (← expr scope onFalse))
    | some (.binary op), [ty, left, right] => do
      let ty ← type scope ty
      let left ← expr scope left
      makeExpr ty (.binary op left (← expr scope right))
    | some (.unary op), [ty, operand] => do
      let ty ← type scope ty
      makeExpr ty (.unary op (← expr scope operand))
    | some .update, [ty, source, field, value] => do
      let ty ← type scope ty
      let source ← expr scope source
      let field ← expr scope field
      makeExpr ty (.update source field (← expr scope value))
    | some .member, [ty, source, name] => do
      let ty ← type scope ty
      let source ← expr scope source
      makeExpr ty (.member source (← readName name))
    | some .index, [ty, source, position] => do
      let ty ← type scope ty
      let source ← expr scope source
      makeExpr ty (.index source (← expr scope position))
    | _, _ => malformed
  | _ => malformed

/-- Makes the expressions that a list of specs describes. -/
def exprs (scope : Scope) : Datum → Build (List Expr)
  | .list specs => exprList scope specs
  | _ => malformed

def exprList (scope : Scope) : List Datum → Build (List Expr)
  | [] => return []
  | spec :: specs => do
    let e ← expr scope spec
    return e :: (← exprList scope specs)

end

/-- Makes the node of a category that a spec describes. -/
def node (scope : Scope) (category : Category) (spec : Datum) : Build Node :=
  match category with
  | .type => do return .type (← type scope spec)
  | .expr => do return .expr (← expr scope spec)

/-- Makes `count` more nodes from one spec, in which `_` stands for the node made before and `i` for
the position. -/
def chain (scope : Scope) (category : Category) (link : Datum) :
    (count : Nat) → (last : Node) → Store → Except Failure Node × Store
  | 0, last, store => (.ok last, store)
  | count + 1, last, store =>
    let scope := { scope with last := some last, index := scope.index + 1 }
    match (node scope category link).run store with
    | (.ok next, store) => chain scope category link count next store
    | (.error failure, store) => (.error failure, store)

end TermGraph.Spec
