/-!
# Ranking a list

Sorting by an order, and the classes of equal elements, for whatever has an order and an equality.
-/

namespace TermGraph.Ranking

variable {α : Type}

/-- Sorts by an order; elements that compare as equal keep their places. -/
def sort (cmp : α → α → Ordering) (xs : List α) : List α :=
  xs.mergeSort fun a b => cmp a b != .gt

/-- Drops every element that equals the one kept last. -/
def dropRepeats (eq : α → α → Bool) : List α → List α
  | [] => []
  | [x] => [x]
  | x :: y :: rest => if eq x y then dropRepeats eq (x :: rest) else x :: dropRepeats eq (y :: rest)
termination_by xs => xs.length

/-- Puts an element into an increasing list unless one that compares as equal is there. -/
def insert (cmp : α → α → Ordering) (x : α) : List α → List α
  | [] => [x]
  | y :: rest =>
    match cmp x y with
    | .lt => x :: y :: rest
    | .eq => y :: rest
    | .gt => y :: insert cmp x rest

/-- The elements as an ordered set, an increasing list. -/
def set (cmp : α → α → Ordering) (xs : List α) : List α :=
  xs.foldl (fun acc x => insert cmp x acc) []

end TermGraph.Ranking
