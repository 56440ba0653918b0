/-!
# Digests

A digest is a 64-bit summary of a sequence of tokens. A `Hasher` may be any function of that
sequence: nothing in the library relies on unequal sequences having unequal digests.
-/

namespace TermGraph

abbrev Digest := UInt64

/-- What a digest is computed from. -/
inductive Token where
  | number (n : Nat)
  | integer (i : Int)
  | text (s : String)
  | digest (d : Digest)
deriving Repr

/-- A way to compute digests. -/
structure Hasher where
  digest : List Token → Digest

/-! ## The FNV-1a hash -/

namespace Fnv

def offsetBasis : UInt64 := 0xcbf29ce484222325

def prime : UInt64 := 0x100000001b3

/-- Takes in one byte. -/
def byte (h : UInt64) (b : UInt8) : UInt64 :=
  (h ^^^ b.toUInt64) * prime

/-- Takes in the bytes of a text. -/
def text (h : UInt64) (s : String) : UInt64 :=
  s.toByteArray.foldl byte h

/-- Takes in the eight bytes of a word, lowest first. -/
def word (h : UInt64) (w : UInt64) : UInt64 :=
  (List.range 8).foldl (fun h i => byte h (w >>> (8 * i.toUInt64)).toUInt8) h

/-- Takes in a token: its sort, then its contents. -/
def token (h : UInt64) : Token → UInt64
  | .number n => word (byte h 0) n.toUInt64
  | .integer i => text (byte h 1) (toString i)
  | .text s => byte (text (byte h 2) s) 255
  | .digest d => word (byte h 3) d

/-- The FNV-1a hash of a text's UTF-8 encoding. -/
def ofText (s : String) : UInt64 :=
  text offsetBasis s

end Fnv

/-- The hasher that is used unless another is asked for. -/
def Hasher.fnv : Hasher where
  digest tokens := tokens.foldl Fnv.token Fnv.offsetBasis

end TermGraph
