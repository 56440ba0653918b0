/-!
# Data

Requests and answers are made of plain data: texts, whole numbers, truth values, lists and records.
A reader of data fails with `none` where it finds something else than it looks for.
-/

namespace TermGraph

/-- A piece of plain data. -/
inductive Datum where
  | null
  | bool (value : Bool)
  | int (value : Int)
  /-- A number that is not whole; no request has a use for one. -/
  | real
  | text (value : String)
  | list (items : List Datum)
  | record (fields : List (String × Datum))
deriving Inhabited

namespace Datum

def text? : Datum → Option String
  | .text s => some s
  | _ => none

def bool? : Datum → Option Bool
  | .bool b => some b
  | _ => none

/-- A whole number of at most 64 bits that is not negative. -/
def nat? : Datum → Option Nat
  | .int (.ofNat n) => if n < UInt64.size then some n else none
  | _ => none

def list? : Datum → Option (List Datum)
  | .list items => some items
  | _ => none

/-- A list of texts. -/
def texts? : Datum → Option (List String)
  | .list items => items.mapM text?
  | _ => none

/-- The field of a record of that name. -/
def field? (name : String) : Datum → Option Datum
  | .record fields => fields.lookup name
  | _ => none

/-- A number. -/
def nat (n : Nat) : Datum :=
  .int n

/-- A list of texts. -/
def texts (ss : List String) : Datum :=
  .list (ss.map .text)

/-- What there may be, or null. -/
def option {α : Type} (f : α → Datum) : Option α → Datum
  | some a => f a
  | none => .null

end Datum

end TermGraph
