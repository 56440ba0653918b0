import TermGraph.Proofs.Walk

/-!
# What nodes remember

A node carries a digest, and an expression also flags, computed when the node was built from what
the nodes inside carried. Here the same summaries are computed from a tree (`Tree.summary`), by
one pass from the inside out. A node is *faithful* if it carries what its tree gives. A node built
from faithful nodes is faithful (`Node.faithful_build_type`, `Node.faithful_build_expr`), so that
equal trees go with equal digests whatever the hasher is.
-/

namespace TermGraph

/-- A value as digest tokens, where each node inside stands as its digest. -/
def Value.digestTokens (v : Value Digest Digest) : List Token :=
  .number v.rank :: match v with
    | .bool b => [.number b.toNat]
    | .uint n => [.number n.toNat]
    | .int i => [.integer i]
    | .name n => [.text n.text]
    | .names ns => .number ns.length :: ns.map (.text ·.text)
    | .type d => [.digest d]
    | .types ds => .number ds.length :: ds.map .digest
    | .expr d => [.digest d]
    | .optExpr none => [.number 0]
    | .optExpr (some d) => [.number 1, .digest d]
    | .exprs ds => .number ds.length :: ds.map .digest

/-- What a value adds to a digest depends on the nodes inside only through their digests. -/
theorem Value.tokens_eq (v : Value Ty Expr) :
    v.tokens = (v.map Ty.digest Expr.digest).digestTokens := by
  cases v with
  | optExpr e => cases e <;> rfl
  | _ => simp [Value.tokens, Value.map, Value.digestTokens, Value.rank]

/-- The digest of a type whose contents have the given digests. -/
def Hasher.ofType (h : Hasher) (s : TyShape Digest Digest) : Digest :=
  h.digest (.number s.kind.rank :: s.fields.flatMap (·.value.digestTokens))

/-- The digest of an expression whose result type and contents have the given digests. -/
def Hasher.ofExpr (h : Hasher) (type : Digest) (s : ExprShape Digest) : Digest :=
  h.digest (.number s.kind.rank :: .digest type ::
    (s.fields : List (Field Digest Digest)).flatMap (·.value.digestTokens))

/-- The digest of a type with that tree. -/
def TyTree.digest (h : Hasher) : TyTree → Digest :=
  TyTree.fold h.ofType h.ofExpr

/-- The digest of an expression with that tree. -/
def ExprTree.digest (h : Hasher) : ExprTree → Digest :=
  ExprTree.fold h.ofType h.ofExpr

/-- The flags that the kinds occurring in an expression give; types are not looked into. -/
def ExprTree.flags : ExprTree → Flags :=
  ExprTree.fold (fun _ => ()) fun _ s => Flags.compute s.kind s.operands

/-- The digest of a type is computed from the digests inside. -/
theorem TyTree.digest_node (h : Hasher) (s : TyShape TyTree ExprTree) :
    (TyTree.node s).digest h = h.ofType (s.map (TyTree.digest h) (ExprTree.digest h)) :=
  TyTree.fold_node _ _ s

/-- The digest of an expression is computed from those of its result type and its operands. -/
theorem ExprTree.digest_node (h : Hasher) (t : TyTree) (s : ExprShape ExprTree) :
    (ExprTree.node t s).digest h = h.ofExpr (t.digest h) (s.map (ExprTree.digest h)) :=
  ExprTree.fold_node _ _ t s

/-- The flags of an expression are computed from those of its operands. -/
theorem ExprTree.flags_node (t : TyTree) (s : ExprShape ExprTree) :
    (ExprTree.node t s).flags = Flags.compute s.kind (s.operands.map ExprTree.flags) := by
  rw [ExprTree.flags, ExprTree.fold_node, ExprShape.kind_map, ExprShape.operands_map]

-- ---------------------------------------------------------------------------
-- Faithful nodes
-- ---------------------------------------------------------------------------

/-- What a node carries besides its identity and contents; a type has no flags. -/
structure Summary where
  digest : Digest
  flags : Option Flags

/-- What a node carries. -/
def Node.summary : Node → Summary
  | .type t => ⟨t.digest, none⟩
  | .expr e => ⟨e.digest, some e.flags⟩

/-- What a node with that tree ought to carry. -/
def Tree.summary (h : Hasher) : Tree → Summary
  | .type t => ⟨t.digest h, none⟩
  | .expr e => ⟨e.digest h, some e.flags⟩

/-- The node carries what its tree gives. -/
def Node.Faithful (h : Hasher) (n : Node) : Prop :=
  n.summary = n.tree.summary h

theorem Ty.digest_of_faithful {h : Hasher} {t : Ty} (ht : (Node.type t).Faithful h) :
    t.digest = t.tree.digest h :=
  congrArg Summary.digest ht

theorem Expr.digest_of_faithful {h : Hasher} {e : Expr} (he : (Node.expr e).Faithful h) :
    e.digest = e.tree.digest h :=
  congrArg Summary.digest he

theorem Expr.flags_of_faithful {h : Hasher} {e : Expr} (he : (Node.expr e).Faithful h) :
    e.flags = e.tree.flags :=
  Option.some.inj (congrArg Summary.flags he)

/-- A type built from faithful nodes is faithful. -/
theorem Node.faithful_build_type (h : Hasher) (id : Nat) {s : TyShape Ty Expr}
    (hTypes : ∀ t ∈ s.types, (Node.type t).Faithful h)
    (hExprs : ∀ e ∈ s.exprs, (Node.expr e).Faithful h) :
    (Node.type (.build h id s)).Faithful h := by
  have hInside : s.map Ty.digest Expr.digest =
      (s.map Ty.tree Expr.tree).map (TyTree.digest h) (ExprTree.digest h) := by
    rw [TyShape.map_map]
    exact TyShape.map_congr (fun t ht => Ty.digest_of_faithful (hTypes t ht))
      (fun e he => Expr.digest_of_faithful (hExprs e he))
  have hTokens : s.fields.flatMap (·.value.tokens) =
      (s.map Ty.digest Expr.digest).fields.flatMap (·.value.digestTokens) := by
    rw [TyShape.fields_map, List.flatMap_map]
    simp only [Value.tokens_eq, Field.map]
  have hDigest : (Ty.build h id s).digest = (Ty.build h id s).tree.digest h := by
    rw [Ty.tree_build, TyTree.digest_node, ← hInside, Hasher.ofType, ← hTokens, TyShape.kind_map]
    rfl
  rw [Node.Faithful, Node.summary, Node.tree, Tree.summary, hDigest]

/-- An expression built from faithful nodes is faithful. -/
theorem Node.faithful_build_expr (h : Hasher) (id : Nat) {type : Ty} {s : ExprShape Expr}
    (hType : (Node.type type).Faithful h) (hOperands : ∀ e ∈ s.operands, (Node.expr e).Faithful h) :
    (Node.expr (.build h id type s)).Faithful h := by
  have hInside : s.map Expr.digest = (s.map Expr.tree).map (ExprTree.digest h) := by
    rw [ExprShape.map_map]
    exact ExprShape.map_congr fun e he => Expr.digest_of_faithful (hOperands e he)
  have hTokens : (s.fields : List (Field Ty Expr)).flatMap (·.value.tokens) =
      ((s.map Expr.digest).fields : List (Field Digest Digest)).flatMap
        (·.value.digestTokens) := by
    rw [ExprShape.fields_map Ty.digest Expr.digest, List.flatMap_map]
    simp only [Value.tokens_eq, Field.map]
  have hDigest : (Expr.build h id type s).digest = (Expr.build h id type s).tree.digest h := by
    rw [Expr.tree_build, ExprTree.digest_node, ← hInside, Hasher.ofExpr, ← hTokens,
      ExprShape.kind_map, ← Ty.digest_of_faithful hType]
    rfl
  have hFlags : (Expr.build h id type s).flags = (Expr.build h id type s).tree.flags := by
    rw [Expr.tree_build, ExprTree.flags_node, ExprShape.kind_map, ExprShape.operands_map,
      List.map_map]
    have hOps : s.operands.map Expr.flags = s.operands.map (ExprTree.flags ∘ Expr.tree) :=
      List.map_congr_left fun e he => Expr.flags_of_faithful (hOperands e he)
    exact congrArg (Flags.compute s.kind) hOps
  rw [Node.Faithful, Node.summary, Node.tree, Tree.summary, hDigest, hFlags]

end TermGraph
