import TermGraph.Text.Printable

/-!
# Quoted text

A quoted text stands between double quotes. A quote, a backslash and the common control characters
are written with a backslash; any other character that is not printable is written by its code
point in hexadecimal digits.
-/

namespace TermGraph.Text

/-- The written form of a character inside quotes. -/
def escape (c : Char) : List Char :=
  match c with
  | '\x00' => ['\\', '0']
  | '\t' => ['\\', 't']
  | '\r' => ['\\', 'r']
  | '\n' => ['\\', 'n']
  | '"' => ['\\', '"']
  | '\\' => ['\\', '\\']
  | c =>
    if isPrintable c then [c]
    else ['\\', 'u', '\x7b'] ++ Nat.toDigits 16 c.toNat ++ ['\x7d']

/-- A text between double quotes. -/
def quoted (s : String) : String :=
  String.ofList ('"' :: s.toList.flatMap escape ++ ['"'])

end TermGraph.Text
