import TermGraph.Node
import TermGraph.Unfold

/-!
# Order and equality

Nodes are ordered by what they contain. Types compare by kind, then field by field; expressions
compare by kind, then by result type, then by their own fields. Of two booleans `false` is the
smaller, numbers compare by value, names by their bytes, lists element by element with a proper
beginning first, and an absent expression comes before any present one.

A node is equal to itself whatever it contains, so the comparison of a node with itself ends at
once. Equality first looks at identity, then at the digests, and compares contents only when the
digests agree.
-/

namespace TermGraph

/-- Two nodes of one category that are to be compared. -/
inductive Pair where
  | types (a b : Ty)
  | exprs (a b : Expr)

namespace Pair

abbrev Items := List (Item Pair Ordering)

/-- Compares two values: the first verdict other than `eq` decides. -/
def ofValues : Value Ty Expr → Value Ty Expr → Items
  | .bool a, .bool b => [.emit (compare a b)]
  | .uint a, .uint b => [.emit (compare a b)]
  | .int a, .int b => [.emit (compare a b)]
  | .name a, .name b => [.emit (compare a b)]
  | .names a, .names b => [.emit (compare a b)]
  | .type a, .type b => [.seed (types a b)]
  | .types a, .types b =>
    -- the lengths decide only where one list is the beginning of the other
    List.zipWith (fun x y => .seed (types x y)) a b ++ [.emit (compare a.length b.length)]
  | .expr a, .expr b => [.seed (exprs a b)]
  | .optExpr none, .optExpr none => []
  | .optExpr none, .optExpr (some _) => [.emit .lt]
  | .optExpr (some _), .optExpr none => [.emit .gt]
  | .optExpr (some a), .optExpr (some b) => [.seed (exprs a b)]
  | .exprs a, .exprs b =>
    List.zipWith (fun x y => .seed (exprs x y)) a b ++ [.emit (compare a.length b.length)]
  -- nodes of one kind have values of one sort at each position, so this is never reached
  | a, b => [.emit (compare a.rank b.rank)]

/-- Compares the fields of two nodes of one kind, in order. -/
def ofFields (a b : List (Field Ty Expr)) : Items :=
  (List.zipWith (fun f g => ofValues f.value g.value) a b).flatten

/-- The steps that compare two nodes. -/
def expand : Pair → Items
  | .types a b =>
    if a.id = b.id then []
    -- the fields of different kinds are never looked at: the ranks have decided before
    else .emit (compare a.kind.rank b.kind.rank) :: ofFields a.fields b.fields
  | .exprs a b =>
    if a.id = b.id then []
    -- the result type is the last field but the first to be compared
    else
      .emit (compare a.kind.rank b.kind.rank) :: .seed (.types a.type b.type)
        :: ofFields a.ownFields b.ownFields

/-- The size of the left node of a pair. -/
noncomputable def size : Pair → Nat
  | .types a _ => (Node.type a).size
  | .exprs a _ => (Node.expr a).size

theorem weight_zipWith_types_le (as bs : List Ty) :
    Item.weight size (List.zipWith (fun x y => .seed (types x y)) as bs : Items) ≤
      Node.sizes (as.map .type) := by
  induction as generalizing bs with
  | nil => simp [Item.weight]
  | cons a as ih =>
    cases bs with
    | nil => simp [Item.weight]
    | cons b bs => simpa [Item.weight, size] using ih bs

theorem weight_zipWith_exprs_le (as bs : List Expr) :
    Item.weight size (List.zipWith (fun x y => .seed (exprs x y)) as bs : Items) ≤
      Node.sizes (as.map .expr) := by
  induction as generalizing bs with
  | nil => simp [Item.weight]
  | cons a as ih =>
    cases bs with
    | nil => simp [Item.weight]
    | cons b bs => simpa [Item.weight, size] using ih bs

theorem weight_ofValues_le (v w : Value Ty Expr) :
    Item.weight size (ofValues v w) ≤ Node.sizes v.nodes := by
  fun_cases ofValues v w with
  | case7 as bs =>
    simpa [Item.weight, Value.nodes, Value.heldTypes, Value.heldExprs]
      using weight_zipWith_types_le as bs
  | case13 as bs =>
    simpa [Item.weight, Value.nodes, Value.heldTypes, Value.heldExprs]
      using weight_zipWith_exprs_le as bs
  | _ => simp [Item.weight, Value.nodes, Value.heldTypes, Value.heldExprs, size]

theorem weight_ofFields_le (fs gs : List (Field Ty Expr)) :
    Item.weight size (ofFields fs gs) ≤ Node.sizes (fs.flatMap (·.value.nodes)) := by
  induction fs generalizing gs with
  | nil => simp [ofFields, Item.weight]
  | cons f fs ih =>
    cases gs with
    | nil => simp [ofFields, Item.weight]
    | cons g gs =>
      have first := weight_ofValues_le f.value g.value
      have rest := ih gs
      simp only [ofFields] at rest
      simp only [ofFields, List.zipWith_cons_cons, List.flatten_cons, Item.weight_append,
        List.flatMap_cons, Node.sizes_append]
      omega

theorem weight_expand_lt (p : Pair) : Item.weight size p.expand < p.size := by
  cases p with
  | types a b =>
    have inside := Node.sum_size_children_lt (.type a)
    have fields := weight_ofFields_le a.fields b.fields
    simp only [Node.children, Node.fields] at inside
    simp only [expand, size]
    split <;> simp only [Item.weight] <;> omega
  | exprs a b =>
    have inside := Node.sum_size_children_lt (.expr a)
    have fields := weight_ofFields_le a.ownFields b.ownFields
    simp only [Node.children, Node.fields, Expr.fields, List.flatMap_append, List.flatMap_cons,
      List.flatMap_nil, Node.sizes_append, Value.nodes_type, Node.sizes_cons,
      Node.sizes_nil] at inside
    simp only [expand, size]
    split <;> simp only [Item.weight, size] <;> omega

/-- Comparison as an unfolding: a pair emits verdicts, the first other than `eq` decides. -/
def comparison : Unfolding Pair Ordering where
  expand := expand
  falls := ⟨size, weight_expand_lt⟩

/-- The first verdict other than `eq`, if a pair emits one. -/
def verdict (p : Pair) : Ordering :=
  comparison.run (fun _ o => if o = .eq then .yield .eq else .done o)
    [.seed p] .eq

end Pair

instance : Ord Ty where
  compare a b := Pair.verdict (.types a b)

instance : Ord Expr where
  compare a b := Pair.verdict (.exprs a b)

/-- Types are equal if they are one node, or if their digests agree and they compare as equal. -/
instance : BEq Ty where
  beq a b := a.id == b.id || (a.digest == b.digest && compare a b == .eq)

/-- Expressions are equal if they are one node, or if their digests agree and they compare as
equal. -/
instance : BEq Expr where
  beq a b := a.id == b.id || (a.digest == b.digest && compare a b == .eq)

instance : Hashable Ty where
  hash := Ty.digest

instance : Hashable Expr where
  hash := Expr.digest

/-! ## Either category -/

instance : (c : Category) → BEq c.Carrier
  | .type => inferInstanceAs (BEq Ty)
  | .expr => inferInstanceAs (BEq Expr)

instance : (c : Category) → Hashable c.Carrier
  | .type => inferInstanceAs (Hashable Ty)
  | .expr => inferInstanceAs (Hashable Expr)

end TermGraph
