import TermGraph.Print.Outline
import TermGraph.Ranking
import TermGraph.Script.Datum
import TermGraph.Script.Scope
import TermGraph.Text.Decimal

/-!
# Reports

What a script is told about nodes, failures and events, as plain data.
-/

namespace TermGraph.Report

open Text

/-! ## Short answers -/

def ofType (t : Ty) : Datum :=
  .record [("type", .text t.compact)]

def ofExpr (e : Expr) : Datum :=
  .record [("expr", .text e.kind.name), ("of", .text e.type.compact)]

def ofNode : Node → Datum
  | .type t => ofType t
  | .expr e => ofExpr e

def ofHandle (h : Handle) : Datum :=
  .record [("table", .text h.category.name)]

def ofRejection : Rejection → Datum
  | r@(.mismatch kind field expected found) =>
    .record [("error", .text "TypeMismatch"), ("message", .text r.message),
      ("kind", .text kind.name), ("field", .text field), ("expected", .text expected.text),
      ("found", .text found.compact)]
  | r@(.invalid kind reason) =>
    .record [("error", .text "InvalidConstruction"), ("message", .text r.message),
      ("kind", .text kind.name), ("reason", .text reason.text)]

def ofFailure : Failure → Datum
  | .malformed => .record [("error", .text "BadInput")]
  | .unbound name => .record [("error", .text "Unbound"), ("message", .text name)]
  | .wrongCategory name => .record [("error", .text "WrongCategory"), ("message", .text name)]
  | .rejected rejection => ofRejection rejection

/-- A line of the log. The shard that a table chose is its own business. -/
def ofEvent : Event → Datum
  | .mismatch kind field expected found =>
    .record [("level", .text "DEBUG"), ("message", .text "rejected construction: type mismatch"),
      ("kind", .text kind), ("field", .text field), ("expected", .text expected),
      ("found", .text found)]
  | .invalid kind reason =>
    .record [("level", .text "DEBUG"), ("message", .text "rejected construction"),
      ("kind", .text kind), ("reason", .text reason)]
  | .inserted _ total =>
    .record [("level", .text "TRACE"), ("message", .text "inserted canonical node"),
      ("total", .nat total)]

def ofFlags (f : Flags) : Datum :=
  .record [("bits", .nat f.toBits.toNat), ("debug", .text f.text),
    ("is_constant", .bool f.isConstant), ("has_symbols", .bool f.hasSymbol),
    ("touches_memory", .bool f.touchesMemory)]

/-! ## Comparing -/

def sign : Ordering → String
  | .lt => "<"
  | .eq => "="
  | .gt => ">"

private def comparisonFields (order : Ordering) (equal same digestsAgree : Bool) :
    List (String × Datum) :=
  [("cmp", .text (sign order)), ("eq", .bool equal), ("same", .bool same),
    ("hash_ok", .bool (!equal || digestsAgree))]

/-- How two nodes of one category compare. -/
def comparison? : Node → Node → Option (List (String × Datum))
  | .type a, .type b =>
    some (comparisonFields (compare a b) (a == b) (a.id == b.id) (a.digest == b.digest))
  | .expr a, .expr b =>
    some (comparisonFields (compare a b) (a == b) (a.id == b.id) (a.digest == b.digest))
  | _, _ => none

/-- How many visits the full walk makes, how many of them to expressions, and how many nodes there
are. -/
def census (n : Node) : Datum :=
  let visits := n.visits
  .record [("nodes", .nat visits.length), ("exprs", .nat (visits.countP Node.isExpr)),
    ("distinct", .nat n.reachable.size)]

/-- How two nodes of one category compare, and how many nodes they share. -/
def overlap? (a b : Node) : Option Datum := do
  let fields ← comparison? a b
  return .record (fields ++ [("nodes", .nat b.visits.length), ("distinct", .nat b.reachable.size),
    ("shared", .nat (a.sharedCount b))])

/-- The comparison of every element of a list with every other, row by row. -/
def matrix {α : Type} (f : α → α → String) (xs : List α) : Datum :=
  .texts (xs.map fun x => String.join (xs.map (f x)))

/-- A list compared, sorted and counted. -/
def ranking {α : Type} [Ord α] [BEq α] (xs : List α) : List (String × Datum) :=
  let sorted := Ranking.sort (fun (a b : α × Nat) => compare a.1 b.1) xs.zipIdx
  let distinct := Ranking.dropRepeats (fun (a b : α × Nat) => a.1 == b.1) sorted
  [("cmp", matrix (fun a b => sign (compare a b)) xs),
    ("eq", matrix (fun a b => if a == b then "1" else "0") xs),
    ("sorted", .list (sorted.map fun p => .nat p.2)),
    ("dedup", .list (distinct.map fun p => .nat p.2)),
    ("set", .nat (Ranking.set compare xs).length)]

/-! ## Texts -/

/-- The text forms of a node. -/
inductive TextForm where
  | outline (level : Nat)
  | outlineInto (level : Nat) (start : String)
  | compact
  | structural (layout : Layout)

/-- The text of a node in a form; only types have a compact text. -/
def text? : TextForm → Node → Option String
  | .outline level, n => some (n.outline level)
  | .outlineInto level start, n => some (n.outlineInto level start)
  | .compact, .type t => some t.compact
  | .compact, .expr _ => none
  | .structural layout, n => some (n.structural layout)

/-- A number in 16 hexadecimal digits. -/
def hex (n : UInt64) : String :=
  let digits := Nat.toDigits 16 n.toNat
  String.ofList (List.replicate (16 - digits.length) '0' ++ digits)

/-- The length of a text in bytes, its line feeds, its first and last 60 characters and its hash. -/
def summary (s : String) : Datum :=
  .record [("bytes", .nat s.utf8ByteSize),
    ("newlines", .nat (s.foldl (fun n c => if c = '\n' then n + 1 else n) 0)),
    ("head", .text (s.take 60).copy), ("tail", .text (s.takeEnd 60).copy),
    ("fnv", .text (hex (Fnv.ofText s)))]

/-! ## Descriptions -/

/-- What a description holds besides the usual. -/
structure Options where
  /-- The level of the outline. -/
  indent : Nat := 0
  /-- Also the structural text in blocks. -/
  alt : Bool := false
  /-- Also the values of the fields of these names. -/
  lookup : Option (List String) := none
  /-- Also the types of the members of these names. -/
  member : Option (List String) := none

private def ofField (f : Field Ty Expr) : Datum :=
  .record [("name", .text f.name), ("variant", .text f.value.label),
    ("exprs", .texts (f.value.heldExprs.map (·.kind.name))),
    ("types", .texts (f.value.heldTypes.map (·.kind.name))),
    ("as_expr", .option (fun e => .text e.kind.name) f.value.asExpr?),
    ("as_type", .option (fun t => .text t.compact) f.value.asType?)]

private def common (n : Node) (o : Options) (field? : String → Option (Value Ty Expr)) :
    List (String × Datum) :=
  [("debug", .text (n.structural .line)), ("pretty", .text (n.outline o.indent)),
    ("fields", .list (n.fields.map ofField))]
  ++ (if o.alt then [("debug_alt", .text (n.structural .block))] else [])
  ++ (o.lookup.map fun names =>
      ("lookup", .list (names.map fun name =>
        .option (fun v => .text (Structural.ofValue v)) (field? name)))).toList

private def trueOnes (tests : List (String × Bool)) : Datum :=
  .texts ((tests.filter (·.2)).map (·.1))

/-- All there is to say of a type and its copy. -/
def describeType (store : Store) (t : Ty) (o : Options) : Datum × Store :=
  let (copy, store) := store.copyType t
  let fields : List (String × Datum) :=
    [("id", .text t.kind.name), ("id_debug", .text ("TypeId::" ++ t.kind.name)),
      ("bitvector_like", .bool t.kind.isBitVectorLike), ("display", .text t.compact),
      ("width", .option (fun w => .nat w.toNat) t.width?),
      ("subtype", .option (fun s => .text s.compact) t.subtype?),
      ("members", .option (fun (types, names) =>
        .list (List.zipWith (fun name m => .texts [name.text, m.compact]) names types)) t.members?),
      ("is", trueOnes [("bool", t.isBool), ("bitvector", t.isBitVector), ("numeric", t.isNumeric),
        ("floatbv", t.isFloat), ("pointer", t.isPointer), ("array", t.isArray),
        ("struct", t.isStruct), ("union", t.isUnion), ("struct_or_union", t.isStructOrUnion),
        ("string", t.isString)]),
      ("clone", .option id (overlap? (.type t) (.type copy)))]
    ++ (o.member.map fun names =>
        ("member", .list (names.map fun name =>
          .option (fun m => .text m.compact) (t.memberType? ⟨name⟩)))).toList
  (.record (fields ++ common (.type t) o t.field?), store)

/-- All there is to say of an expression and its copy. -/
def describeExpr (store : Store) (e : Expr) (o : Options) : Datum × Store :=
  let (copy, store) := store.copyExpr e
  let fields : List (String × Datum) :=
    [("id", .text e.kind.name), ("id_debug", .text ("ExprId::" ++ e.kind.name)),
      ("type", .text e.type.compact), ("flags", ofFlags e.flags),
      ("is", trueOnes [("constant", e.isConstant), ("constant_int", e.isConstantInt),
        ("symbol", e.isSymbol)]),
      ("constant_int", .option (fun i => .text (decimalInt i)) e.constantInt?),
      ("constant_bool", .option .bool e.constantBool?),
      ("constant_string", .option (fun n => .text n.text) e.constantString?),
      ("symbol", .option (fun n => .text n.text) e.symbol?),
      ("binary", .option (fun (op, left, right) => .list [.text op.name, ofExpr left, ofExpr right])
        e.binary?),
      ("unary", .option (fun (op, operand) =>
        .list [.text op.name, .text op.operandField, ofExpr operand]) e.unary?),
      ("operands", .list (e.operands.map ofExpr)),
      ("own_fields", .texts (e.ownFields.map (·.name))),
      ("clone", .option id (overlap? (.expr e) (.expr copy)))]
  (.record (fields ++ common (.expr e) o e.field?), store)

def describe (store : Store) (o : Options) : Node → Datum × Store
  | .type t => describeType store t o
  | .expr e => describeExpr store e o

end TermGraph.Report
