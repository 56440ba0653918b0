import TermGraph.Kind.Basic

/-!
# Flags

Facts about an expression that are computed when it is built, from its kind and from the flags of
its operands. Four of them say that a kind of expression occurs in it; one says that it is a
literal through and through.
-/

namespace TermGraph

structure Flags where
  /-- The expression and all its operands, at any depth, are literals. -/
  isConstant : Bool := false
  hasSymbol : Bool := false
  hasDeref : Bool := false
  hasAddressOf : Bool := false
  hasOverflowCheck : Bool := false
deriving DecidableEq, Repr, Inhabited

namespace Flags

def empty : Flags := {}

/-- The flags set in either. -/
def union (a b : Flags) : Flags where
  isConstant := a.isConstant || b.isConstant
  hasSymbol := a.hasSymbol || b.hasSymbol
  hasDeref := a.hasDeref || b.hasDeref
  hasAddressOf := a.hasAddressOf || b.hasAddressOf
  hasOverflowCheck := a.hasOverflowCheck || b.hasOverflowCheck

/-- What an operand hands on to the expression around it: all but being a literal. -/
def propagated (f : Flags) : Flags :=
  { f with isConstant := false }

/-- What an expression's own kind adds. -/
def ofKind : ExprKind → Flags
  | .symbol => { hasSymbol := true }
  | .unary .dereference => { hasDeref := true }
  | .unary .addressOf => { hasAddressOf := true }
  | .unary .overflow => { hasOverflowCheck := true }
  | _ => empty

/-- The flags of an expression of a kind whose operands have the flags `operands`. -/
def compute (kind : ExprKind) (operands : List Flags) : Flags :=
  let gathered := operands.foldl (fun acc f => acc.union f.propagated) (ofKind kind)
  { gathered with isConstant := kind.isConstant && operands.all (·.isConstant) }

/-- The expression may read or name a memory location. -/
def touchesMemory (f : Flags) : Bool :=
  f.hasDeref || f.hasAddressOf

/-! ## Flags as bits -/

private def bit (b : Bool) (value : UInt8) : UInt8 :=
  if b then value else 0

/-- The flags as a byte, the first flag in the lowest bit. -/
def toBits (f : Flags) : UInt8 :=
  bit f.isConstant 1 ||| bit f.hasSymbol 2 ||| bit f.hasDeref 4 ||| bit f.hasAddressOf 8
    ||| bit f.hasOverflowCheck 16

/-- Reads the five lowest bits and drops the others. -/
def ofBitsTruncate (bits : UInt8) : Flags where
  isConstant := bits &&& 1 != 0
  hasSymbol := bits &&& 2 != 0
  hasDeref := bits &&& 4 != 0
  hasAddressOf := bits &&& 8 != 0
  hasOverflowCheck := bits &&& 16 != 0

/-- Reads a byte that has no other bits than flags. -/
def ofBits? (bits : UInt8) : Option Flags :=
  let f := ofBitsTruncate bits
  if f.toBits == bits then some f else none

/-- The names of the flags that are set, lowest bit first. -/
def names (f : Flags) : List String :=
  [(f.isConstant, "IS_CONSTANT"), (f.hasSymbol, "HAS_SYMBOL"), (f.hasDeref, "HAS_DEREF"),
    (f.hasAddressOf, "HAS_ADDRESS_OF"), (f.hasOverflowCheck, "HAS_OVERFLOW_CHECK")].filterMap
    fun (set, name) => if set then some name else none

def text (f : Flags) : String :=
  match f.names with
  | [] => "ExprFlags(0x0)"
  | names => "ExprFlags(" ++ " | ".intercalate names ++ ")"

end Flags

end TermGraph
