/-!
# Decimal numbers

Numbers are written in decimal digits without leading zeros; a negative one has a minus sign.
-/

namespace TermGraph.Text

/-- The decimal digits of a natural number. -/
def decimal (n : Nat) : String :=
  String.ofList (Nat.toDigits 10 n)

/-- The decimal digits of an integer, after a minus sign if it is negative. -/
def decimalInt : Int → String
  | .ofNat n => decimal n
  | .negSucc n => "-" ++ decimal (n + 1)

/-- A truth value as a word. -/
def truth (b : Bool) : String :=
  if b then "true" else "false"

/-- A run of spaces. -/
def spaces (n : Nat) : String :=
  "".pushn ' ' n

theorem toList_spaces (n : Nat) : (spaces n).toList = List.replicate n ' ' := by
  unfold spaces String.pushn
  induction n with
  | zero => rfl
  | succ n ih => simp [Nat.repeat, ih, List.replicate_succ']

end TermGraph.Text
