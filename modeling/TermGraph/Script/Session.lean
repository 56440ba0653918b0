import TermGraph.Script.Report
import TermGraph.Script.Spec
import TermGraph.Table

/-!
# Sessions

A session runs the steps of a script one after the other. It keeps the nodes and tables that were
given names, and the store that made them. A step that fails changes no name; the steps after it run
all the same.
-/

namespace TermGraph

/-- The state of a running script. -/
structure Session where
  store : Store := {}
  slots : Slots := {}
  tables : Tables := {}
  /-- How many events the script has been told of. -/
  reported : Nat := 0

/-- A step of a script. -/
abbrev Step := ExceptT Failure (StateM Session)

namespace Step

def malformed {α : Type} : Step α :=
  throw .malformed

/-- What was read, unless reading failed. -/
def expect {α : Type} : Option α → Step α
  | some a => pure a
  | none => malformed

/-- Makes something in the session's store. -/
def build {α : Type} (b : Build α) : Step α := do
  let (result, store) := b.run (← get).store
  modify fun s => { s with store }
  match result with
  | .ok a => return a
  | .error failure => throw failure

def scope : Step Scope := do
  return { slots := (← get).slots }

def bind (name : String) (slot : Slot) : Step Unit :=
  modify fun s => { s with slots := s.slots.insert name slot }

/-! ## The fields of a step -/

def field (step : Datum) (name : String) : Step Datum :=
  expect (step.field? name)

def textField (step : Datum) (name : String) : Step String := do
  expect (← field step name).text?

/-- A field that may be left out. -/
def fieldOr {α : Type} (step : Datum) (name : String) (read : Datum → Option α) (default : α) :
    Step α :=
  match step.field? name with
  | some d => expect (read d)
  | none => return default

def category (step : Datum) : Step Category := do
  expect (Category.ofName? (← textField step "cat"))

/-- What the name in a field stands for. -/
def slot (step : Datum) (name : String) : Step Slot := do
  let bound ← textField step name
  match (← get).slots.get? bound with
  | some slot => return slot
  | none => throw (.unbound bound)

/-- The node that the name in a field stands for. -/
def node (step : Datum) (name : String) : Step Node := do
  expect (← slot step name).node?

def options (d : Datum) : Step Report.Options := do
  let indent ← fieldOr d "indent" Datum.nat? 0
  let alt ← fieldOr d "alt" Datum.bool? false
  let lookup ← fieldOr d "lookup" (fun x => x.texts?.map some) none
  let member ← fieldOr d "member" (fun x => x.texts?.map some) none
  return { indent, alt, lookup, member }

/-! ## Making and naming nodes -/

def make (step : Datum) : Step Datum := do
  let category ← category step
  let spec ← field step "spec"
  let name ← textField step "as"
  let n ← build (Spec.node (← scope) category spec)
  bind name (.ofNode n)
  return Report.ofNode n

def chain (step : Datum) : Step Datum := do
  let category ← category step
  let base ← field step "base"
  let link ← field step "link"
  let count ← expect (← field step "n").nat?
  let name ← textField step "as"
  let scope ← scope
  let first ← build (Spec.node scope category base)
  let n ← build (Spec.chain scope category link count first)
  bind name (.ofNode n)
  match n with
  | .type t => return .record [("type_id", .text t.kind.name)]
  | .expr e => return .record [("expr", .text e.kind.name)]

def share (step : Datum) : Step Datum := do
  let n ← node step "of"
  bind (← textField step "as") (.ofNode n)
  return .text "ok"

def deepClone (step : Datum) : Step Datum := do
  let n ← node step "of"
  let name ← textField step "as"
  let store := (← get).store
  match n with
  | .type t =>
    let (copy, store) := store.copyType t
    modify fun s => { s with store }
    bind name (.type copy)
  | .expr e =>
    let (copy, store) := store.copyExpr e
    modify fun s => { s with store }
    bind name (.expr copy)
  return .text "ok"

def drop (step : Datum) : Step Datum := do
  let _ ← slot step "of"
  let name ← textField step "of"
  modify fun s => { s with slots := s.slots.erase name }
  return .text "ok"

/-- Names a node that may not be there. -/
def bindFound (step : Datum) : Option Node → Step Datum
  | some n => do
    bind (← textField step "as") (.ofNode n)
    return Report.ofNode n
  | none => return .null

def fieldOf (step : Datum) : Step Datum := do
  let n ← node step "of"
  let name ← textField step "field"
  let index ← fieldOr step "index" Datum.nat? 0
  let found := match n with
    | .type t => t.field? name
    | .expr e => e.field? name
  bindFound step do
    let value ← found
    match value.heldExprs[index]? with
    | some e => return .expr e
    | none => value.heldTypes[index]?.map .type

def operand (step : Datum) : Step Datum := do
  match ← node step "of" with
  | .expr e =>
    let index ← expect (← field step "index").nat?
    bindFound step (e.operands[index]?.map .expr)
  | .type _ => malformed

def typeOf (step : Datum) : Step Datum := do
  match ← node step "of" with
  | .expr e => bindFound step (some (.type e.type))
  | .type _ => malformed

def subtype (step : Datum) : Step Datum := do
  match ← node step "of" with
  | .type t => bindFound step (t.subtype?.map .type)
  | .expr _ => malformed

def memberType (step : Datum) : Step Datum := do
  match ← node step "of" with
  | .type t =>
    let name ← textField step "name"
    bindFound step ((t.memberType? ⟨name⟩).map .type)
  | .expr _ => malformed

/-! ## Looking at nodes -/

/-- The nodes that the names in two fields stand for. -/
def nodePair (step : Datum) : Step (Node × Node) := do
  let a ← slot step "a"
  let b ← slot step "b"
  return (← expect a.node?, ← expect b.node?)

def compareNodes (step : Datum) : Step Datum := do
  let (a, b) ← nodePair step
  return .record (← expect (Report.comparison? a b))

def equalNodes (step : Datum) : Step Datum := do
  match ← nodePair step with
  | (.type a, .type b) => return .bool (a == b)
  | (.expr a, .expr b) => return .bool (a == b)
  | _ => malformed

def overlap (step : Datum) : Step Datum := do
  let (a, b) ← nodePair step
  expect (Report.overlap? a b)

def nodes (step : Datum) : Step Datum := do
  return Report.census (← node step "of")

def flags (step : Datum) : Step Datum := do
  match ← node step "of" with
  | .expr e => return Report.ofFlags e.flags
  | .type _ => malformed

/-- The text of a node in the form that a step asks for. -/
def textOf (step : Datum) : Step String := do
  let n ← node step "of"
  let how ← textField step "how"
  let level ← fieldOr step "indent" Datum.nat? 0
  let form : Report.TextForm ← match how with
    | "pretty" => pure (.outline level)
    | "pretty_into" => do pure (.outlineInto level (← textField step "prefix"))
    | "display" => pure .compact
    | "debug" => pure (.structural .line)
    | "debug_alt" => pure (.structural .block)
    | _ => malformed
  expect (Report.text? form n)

def render (step : Datum) : Step Datum := do
  return .text (← textOf step)

def summary (step : Datum) : Step Datum := do
  return Report.summary (← textOf step)

def describe (step : Datum) : Step Datum := do
  let n ← node step "of"
  let o ← options step
  let (report, store) := Report.describe (← get).store o n
  modify fun s => { s with store }
  return report

/-! ## Tables -/

/-- How a table may be made, and whether it may have more than one handle. -/
def tableSharing : String → Option Bool
  | "new" | "default" => some false
  | "shared" | "shared_default" => some true
  | _ => none

def makeTable (step : Datum) : Step Datum := do
  let category ← category step
  let shared ← expect (tableSharing (← textField step "how"))
  let name ← textField step "as"
  let s ← get
  let handle : Handle := { category, index := s.tables.count category, shared }
  set { s with tables := s.tables.make category s.store.hasher }
  bind name (.table handle)
  return Report.ofHandle handle

def cloneTable (step : Datum) : Step Datum := do
  match ← slot step "of" with
  | .table handle =>
    if handle.shared then
      bind (← textField step "as") (.table handle)
      return Report.ofHandle handle
    else malformed
  | _ => malformed

/-- The number of nodes in a table. -/
def tableSize (handle : Handle) : Step Nat := do
  return (← get).tables.size handle.category handle.index

/-- The node that stands for a node of the table's category. -/
def canonicalize (handle : Handle) (n : Node) : Step Node := do
  let s ← get
  match s.tables.get? handle.category handle.index, n.as? handle.category with
  | some table, some x =>
    let (first, table, store) := s.store.canonicalize table x
    set { s with store, tables := s.tables.set handle.category handle.index table }
    return handle.category.node first
  | _, _ => malformed

/-- The table and the node that a step is about. -/
def tableAndNode (step : Datum) : Step (Handle × Node) := do
  let table ← slot step "table"
  let of ← slot step "of"
  match table, of.node? with
  | .table handle, some n => return (handle, n)
  | _, _ => malformed

def canon (step : Datum) : Step Datum := do
  let (handle, n) ← tableAndNode step
  let name ← fieldOr step "as" (fun d => d.text?.map some) none
  let first ← canonicalize handle n
  if let some name := name then
    bind name (.ofNode first)
  return .record [("same", .bool (first.id == n.id)), ("len", .nat (← tableSize handle))]

def contains (step : Datum) : Step Datum := do
  let (handle, n) ← tableAndNode step
  let s ← get
  match s.tables.get? handle.category handle.index, n.as? handle.category with
  | some table, some x => return .bool (table.contains x)
  | _, _ => malformed

def len (step : Datum) : Step Datum := do
  match ← slot step "table" with
  | .table handle =>
    let size ← tableSize handle
    return .list [.nat size, .bool (size == 0)]
  | _ => malformed

/-! ## The log -/

def log : Step Datum := do
  let s ← get
  set { s with reported := s.store.events.size }
  return .list ((s.store.events.toList.drop s.reported).map Report.ofEvent)

/-! ## Steps by name -/

/-- The step that a record describes. -/
def ofStep (step : Datum) : Step Datum := do
  match ← textField step "do" with
  | "make" => make step
  | "chain" => chain step
  | "share" => share step
  | "deep_clone" => deepClone step
  | "drop" => drop step
  | "field" => fieldOf step
  | "operand" => operand step
  | "type_of" => typeOf step
  | "subtype" => subtype step
  | "member_type" => memberType step
  | "cmp" => compareNodes step
  | "eq" => equalNodes step
  | "overlap" => overlap step
  | "nodes" => nodes step
  | "flags" => flags step
  | "render" => render step
  | "summary" => summary step
  | "describe" => describe step
  | "table" => makeTable step
  | "table_clone" => cloneTable step
  | "canon" => canon step
  | "contains" => contains step
  | "len" => len step
  | "log" => log
  | _ => malformed

end Step

namespace Session

/-- Runs one step; a failure is its answer. -/
def step (s : Session) (d : Datum) : Datum × Session :=
  match (Step.ofStep d).run s with
  | (.ok answer, s) => (answer, s)
  | (.error failure, s) => (Report.ofFailure failure, s)

/-- Runs steps one after the other. -/
def steps (s : Session) : List Datum → List Datum × Session
  | [] => ([], s)
  | d :: ds =>
    let (answer, s) := s.step d
    let (answers, s) := s.steps ds
    (answer :: answers, s)

end Session

end TermGraph
