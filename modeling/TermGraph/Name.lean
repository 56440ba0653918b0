/-!
# Names

Identifiers, member names and string constants are texts. They are ordered by the bytes of their
UTF-8 encoding; a name that is a proper beginning of another comes first.
-/

namespace TermGraph

/-- The text of an identifier, a member or a string constant. -/
structure Name where
  text : String
deriving DecidableEq, Repr, Inhabited

namespace Name

/-- The UTF-8 encoding of a name. -/
def bytes (n : Name) : List UInt8 :=
  n.text.toByteArray.data.toList

def isEmpty (n : Name) : Bool :=
  n.text.isEmpty

/-- Names compare byte by byte. -/
instance : Ord Name where
  compare a b := compare a.bytes b.bytes

end Name

end TermGraph
