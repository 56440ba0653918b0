import TermGraph.Script.Session

/-!
# Requests

A request names an operation and is answered on its own: nothing is kept from one request to the
next.
-/

namespace TermGraph.Request

open Step

/-- The category of a request and a list of specs of that category, made in order. -/
def items (category : Category) (specs : List Datum) : Step (List Node) := do
  let scope ← scope
  specs.mapM fun spec => build (Spec.node scope category spec)

/-! ## Kinds and flags -/

def typeKind (request : Datum) : Step Datum := do
  match TypeKind.ofName? (← textField request "name") with
  | none => return .null
  | some k =>
    return .record [("index", .nat (TypeKind.all.idxOf k)), ("value", .nat k.rank),
      ("name", .text k.name), ("display", .text k.name), ("debug", .text ("TypeId::" ++ k.name)),
      ("below", .nat (TypeKind.all.countP (·.rank < k.rank))),
      ("bitvector_like", .bool k.isBitVectorLike)]

private def ofFamily (op : BinaryOp) : List String :=
  match op.family with
  | .relation => ["relation"]
  | .logical => ["logical"]
  | .bitwise => ["bitwise"]
  | .shift => ["shift"]
  | .arithmetic => ["arithmetic"]
  | .pointer => []

private def binaryOp : ExprKind → Datum
  | .binary op =>
    .record [("debug", .text op.label), ("name", .text op.name),
      ("id", .text (ExprKind.binary op).name), ("is", .texts (ofFamily op))]
  | _ => .null

private def unaryOp : ExprKind → Datum
  | .unary op =>
    .record [("debug", .text op.label), ("name", .text op.name),
      ("id", .text (ExprKind.unary op).name), ("operand_field", .text op.operandField)]
  | _ => .null

def exprKind (request : Datum) : Step Datum := do
  match ExprKind.ofName? (← textField request "name") with
  | none => return .null
  | some k =>
    return .record [("index", .nat (ExprKind.all.idxOf k)), ("value", .nat k.rank),
      ("name", .text k.name), ("display", .text k.name), ("debug", .text ("ExprId::" ++ k.name)),
      ("below", .nat (ExprKind.all.countP (·.rank < k.rank))),
      ("is_constant", .bool k.isConstant), ("binary", binaryOp k), ("unary", unaryOp k)]

def flags (request : Datum) : Step Datum := do
  let bits ← expect (← field request "bits").nat?
  if bits < 256 then
    let f := Flags.ofBitsTruncate bits.toUInt8
    return .record [("valid", .bool (Flags.ofBits? bits.toUInt8).isSome),
      ("flags", Report.ofFlags f), ("propagated", Report.ofFlags f.propagated)]
  else malformed

/-! ## Names -/

def names (request : Datum) : Step Datum := do
  let items := (← expect (← field request "items").texts?).map Name.mk
  let has := (← expect (← field request "has").texts?).map Name.mk
  let set := Ranking.set compare items
  let ofName (n : Name) : Datum :=
    .record [("text", .text n.text), ("display", .text n.text), ("debug", .text (Structural.name n)),
      ("empty", .bool n.isEmpty), ("bytes", .nat n.bytes.length)]
  return .record (Report.ranking items
    ++ [("names", .list (items.map ofName)),
      ("has", .list (has.map fun n => .bool (set.any (compare n · == .eq))))])

/-! ## Nodes -/

/-- Describes the node that a request makes. -/
def describe (category : Category) (request : Datum) : Step Datum := do
  let spec ← field request "spec"
  let o ← options request
  let n ← build (Spec.node (← scope) category spec)
  return (Report.describe (← get).store o n).1

def order (request : Datum) : Step Datum := do
  let category ← category request
  let specs ← expect (← field request "items").list?
  let nodes ← items category specs
  match category with
  | .type =>
    return .record (Report.ranking (nodes.filterMap fun | .type t => some t | .expr _ => none))
  | .expr =>
    return .record (Report.ranking (nodes.filterMap fun | .expr e => some e | .type _ => none))

/-- A node's category and kind in one word. -/
def tag : Node → String
  | .type t => "t:" ++ t.kind.name
  | .expr e => "e:" ++ e.kind.name

def visit (request : Datum) : Step Datum := do
  let category ← category request
  let spec ← field request "spec"
  let stops ← fieldOr request "stop" Datum.texts? []
  let n ← build (Spec.node (← scope) category spec)
  let stop := fun m => stops.contains (tag m)
  let exprs := Visitor.exprs.walk n
  return .record [("pre", .texts (((Visitor.preorder stop).walk n).map tag)),
    ("post", .texts (((Visitor.postorder stop).walk n).map tag)),
    ("exprs", .texts (exprs.map (·.kind.name))),
    ("types", .texts ((Visitor.types.walk n).map (·.compact))),
    ("symbols", .texts ((exprs.filterMap Expr.symbol?).map (·.text)))]

/-! ## Rejections -/

/-- A node, or the reason why there is none. -/
def attempt (scope : Scope) (category : Category) (spec : Datum) :
    Step (Except Rejection Node) := do
  let result : Except Failure Node ← build (ExceptT.lift (Spec.node scope category spec).run)
  match result with
  | .ok n => return .ok n
  | .error (.rejected rejection) => return .error rejection
  | .error failure => throw failure

def attempts (request : Datum) : Step Datum := do
  let scope ← scope
  let specs ← expect (← field request "items").list?
  let results ← specs.mapM fun
    | .list [.text c, spec] => do attempt scope (← expect (Category.ofName? c)) spec
    | _ => malformed
  let report : Except Rejection Node → Datum
    | .ok n => Report.ofNode n
    | .error r =>
      .record [("display", .text r.message), ("debug", .text r.structural),
        ("kind", .text r.kind.name)]
  let rejections := results.filterMap fun | .error r => some r | .ok _ => none
  return .record [("items", .list (results.map report)),
    ("eq", Report.matrix (fun a b => if a == b then "1" else "0") rejections),
    ("log", ← log)]

def expected (request : Datum) : Step Datum := do
  let scope ← scope
  let wanted : Expected ← match ← field request "expected" with
    | .text name => expect (Expected.ofName? name)
    | spec => do pure (.type (← build (Spec.type scope spec)))
  let types ← build (Spec.types scope (← field request "types"))
  return .record [("display", .text wanted.text), ("debug", .text wanted.structural),
    ("accepts", .list (types.map fun t => .bool (wanted.accepts t))),
    ("self_eq", .bool (wanted.same wanted))]

/-! ## Scripts -/

def run (request : Datum) : Step Datum := do
  let steps ← expect (← field request "steps").list?
  let (answers, s) := (← get).steps steps
  set s
  return .list answers

/-! ## Requests by name -/

def ofRequest (request : Datum) : Step Datum := do
  match ← textField request "op" with
  | "type" => describe .type request
  | "expr" => describe .expr request
  | "order" => order request
  | "visit" => visit request
  | "errors" => attempts request
  | "expected" => expected request
  | "type_id" => typeKind request
  | "expr_id" => exprKind request
  | "flags" => flags request
  | "names" => names request
  | "run" => run request
  | _ => malformed

/-- The answer to a request; a failure is an answer too. -/
def answer (request : Datum) : Datum :=
  match ((ofRequest request).run {}).1 with
  | .ok answer => answer
  | .error failure => Report.ofFailure failure

end TermGraph.Request
