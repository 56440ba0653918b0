import TermGraph.Proofs.Summary
import TermGraph.Proofs.TreeOrder
import TermGraph.Order

/-!
# Comparing nodes is comparing trees

A comparison of nodes stops early where both sides are one node, and gathers its verdicts on a work
list. Neither shows: among nodes whose identities tell them apart (`Coherent`) it gives the order of
their trees (`Coherent.compare_type`, `Coherent.compare_expr`). Equality, which looks at identities
and digests first, is equality of trees (`Coherent.beq_type_iff`, `Coherent.beq_expr_iff`).
-/

open Std

namespace TermGraph

namespace Pair

-- ---------------------------------------------------------------------------
-- What a list of items decides
-- ---------------------------------------------------------------------------

/-- The first verdict other than `eq` among all that some items emit. -/
def settle (items : Items) : Ordering :=
  (comparison.flatten items).foldr Ordering.then .eq

/-- The first verdict other than `eq` is in the first part or, failing that, in the second. -/
theorem foldr_then_append (os ps : List Ordering) :
    (os ++ ps).foldr Ordering.then .eq =
      (os.foldr Ordering.then .eq).then (ps.foldr Ordering.then .eq) := by
  induction os with
  | nil => rfl
  | cons o os ih => rw [List.cons_append, List.foldr_cons, List.foldr_cons, ih, Ordering.then_assoc]

@[simp] theorem settle_nil : settle [] = .eq := by
  rw [settle, Unfolding.flatten_nil]
  rfl

/-- Items are settled from left to right. -/
@[simp] theorem settle_append (xs ys : Items) :
    settle (xs ++ ys) = (settle xs).then (settle ys) := by
  rw [settle, Unfolding.flatten_append, foldr_then_append]
  rfl

/-- The loop that stops at the first verdict other than `eq` finds that verdict. -/
theorem consume_eq_foldr (os : List Ordering) :
    Unfolding.consume (fun _ o => if o = .eq then ForInStep.yield .eq else .done o) os .eq =
      os.foldr Ordering.then .eq := by
  induction os with
  | nil => rfl
  | cons o os ih =>
    rw [Unfolding.consume, List.foldr_cons]
    cases o with
    | eq => exact ih
    | lt => rfl
    | gt => rfl

/-- The verdict on a pair is what settles its items. -/
theorem verdict_eq_settle (p : Pair) : p.verdict = settle p.expand := by
  rw [verdict, Unfolding.run_eq_consume, consume_eq_foldr, Unfolding.flatten_seed,
    List.append_nil]
  rfl

@[simp] theorem settle_emit (o : Ordering) (items : Items) :
    settle (.emit o :: items) = o.then (settle items) := by
  rw [settle, Unfolding.flatten_emit]
  rfl

/-- A pair that waits is settled by its own verdict before what comes after it. -/
@[simp] theorem settle_seed (p : Pair) (items : Items) :
    settle (.seed p :: items) = p.verdict.then (settle items) := by
  rw [settle, Unfolding.flatten_seed_cons, foldr_then_append, verdict_eq_settle,
    Unfolding.yield_eq_flatten_expand]
  rfl

/-- Comparing element by element and then the lengths is the lexicographic order of lists. -/
theorem settle_zipWith {α : Type} (pair : α → α → Pair) (as bs : List α) :
    settle (List.zipWith (fun x y => .seed (pair x y)) as bs ++
        [.emit (compare as.length bs.length)]) =
      List.compareLex (fun x y => (pair x y).verdict) as bs := by
  induction as generalizing bs with
  | nil => cases bs <;> simp [List.compareLex, Nat.compare_eq_lt.mpr]
  | cons a as ih =>
    cases bs with
    | nil => simp [List.compareLex, Nat.compare_eq_gt.mpr]
    | cons b bs =>
      have hLengths : compare (a :: as).length (b :: bs).length = compare as.length bs.length := by
        simp [Nat.compare_eq_ite_lt]
      rw [hLengths, List.zipWith_cons_cons, List.cons_append, settle_seed, ih,
        List.compareLex_cons_cons]

/-- Two values are settled as the order on values has it. -/
theorem settle_ofValues (v w : Value Ty Expr) :
    settle (ofValues v w) = v.orderWith compare compare w := by
  cases v <;> cases w
  case types.types as bs => exact settle_zipWith types as bs
  case exprs.exprs as bs => exact settle_zipWith exprs as bs
  case optExpr.optExpr a b =>
    cases a <;> cases b <;>
      simp only [ofValues, Value.orderWith, settle_nil, settle_emit, settle_seed,
        Ordering.then_eq, Option.toList_none, Option.toList_some, List.compareLex_cons_cons,
        List.compareLex_nil_nil, List.compareLex_nil_cons, List.compareLex_cons_nil]
    rfl
  case type.type a b =>
    rw [ofValues, settle_seed, settle_nil, Ordering.then_eq]
    rfl
  case expr.expr a b =>
    rw [ofValues, settle_seed, settle_nil, Ordering.then_eq]
    rfl
  all_goals
    simp only [ofValues, Value.orderWith, settle_nil, settle_emit, Ordering.then_eq]

/-- Fields are settled value by value; their number is the same for one kind. -/
theorem settle_ofFields {fs gs : List (Field Ty Expr)} (hLen : fs.length = gs.length) :
    settle (ofFields fs gs) = Field.orderWith compare compare fs gs := by
  induction fs generalizing gs with
  | nil =>
    rw [List.length_eq_zero_iff.mp hLen.symm]
    exact settle_nil
  | cons f fs ih =>
    cases gs with
    | nil => cases hLen
    | cons g gs =>
      have hRest := ih (Nat.succ.inj hLen)
      rw [Field.orderWith] at hRest ⊢
      rw [List.compareLex_cons_cons, ← hRest, ← settle_ofValues]
      exact settle_append _ _

end Pair

-- ---------------------------------------------------------------------------
-- One level of a comparison
-- ---------------------------------------------------------------------------

/-- Types of one kind have the same number of fields. -/
theorem TyShape.length_fields {τ ε : Type} {s s' : TyShape τ ε} (hKind : s.kind = s'.kind) :
    s.fields.length = s'.fields.length := by
  cases s <;> cases s' <;>
    simp [TyShape.kind, Form.kind_ne, (Form.kind_ne _ _ _).symm] at hKind <;> rfl

/-- Expressions of one kind have the same number of fields. -/
theorem ExprShape.length_fields {τ ε : Type} {s s' : ExprShape ε} (hKind : s.kind = s'.kind) :
    (s.fields : List (Field τ ε)).length = (s'.fields : List (Field τ ε)).length := by
  cases s <;> cases s' <;> simp [ExprShape.kind] at hKind <;> rfl

/-- Two types that are not one node compare by kind, then field by field. -/
theorem Ty.compare_eq (a b : Ty) (hId : a.id ≠ b.id) :
    compare a b = (compare a.kind.rank b.kind.rank).then
      (Field.orderWith compare compare a.fields b.fields) := by
  show (Pair.types a b).verdict = _
  rw [Pair.verdict_eq_settle, Pair.expand, if_neg hId, Pair.settle_emit]
  apply then_congr
  intro hRank
  have hKind := TypeKind.rank_injective (LawfulEqOrd.eq_of_compare hRank)
  exact Pair.settle_ofFields (TyShape.length_fields hKind)

/-- Two expressions that are not one node compare by kind, then by result type, then field by
field. -/
theorem Expr.compare_eq (a b : Expr) (hId : a.id ≠ b.id) :
    compare a b = (compare a.kind.rank b.kind.rank).then ((compare a.type b.type).then
      (Field.orderWith compare compare a.ownFields b.ownFields)) := by
  show (Pair.exprs a b).verdict = _
  rw [Pair.verdict_eq_settle, Pair.expand, if_neg hId, Pair.settle_emit, Pair.settle_seed]
  apply then_congr
  intro hRank
  have hKind := ExprKind.rank_injective (LawfulEqOrd.eq_of_compare hRank)
  have hFields : Pair.settle (Pair.ofFields a.ownFields b.ownFields) = _ :=
    Pair.settle_ofFields (ExprShape.length_fields hKind)
  rw [hFields]
  rfl

-- A node compared with itself: the one case where contents are not looked at.

theorem Ty.compare_of_id {a b : Ty} (hId : a.id = b.id) : compare a b = .eq := by
  show (Pair.types a b).verdict = _
  rw [Pair.verdict_eq_settle, Pair.expand, if_pos hId, Pair.settle_nil]

theorem Expr.compare_of_id {a b : Expr} (hId : a.id = b.id) : compare a b = .eq := by
  show (Pair.exprs a b).verdict = _
  rw [Pair.verdict_eq_settle, Pair.expand, if_pos hId, Pair.settle_nil]

-- Where what is inside compares as its trees do, so do the nodes around it.

/-- Types compare as their trees do if what is inside does. -/
theorem Ty.compare_eq_order {a b : Ty} (hId : a.id ≠ b.id)
    (hTypes : ∀ t ∈ a.shape.types, ∀ u ∈ b.shape.types, compare t u = t.tree.order u.tree)
    (hExprs : ∀ e ∈ a.shape.exprs, ∀ d ∈ b.shape.exprs, compare e d = e.tree.order d.tree) :
    compare a b = a.tree.order b.tree := by
  rw [Ty.compare_eq a b hId, Ty.tree_eq, Ty.tree_eq, TyTree.order_eq_fields, TyShape.kind_map,
    TyShape.kind_map, TyShape.fields_map, TyShape.fields_map]
  congr 1
  exact Field.orderWith_map Ty.tree Expr.tree hTypes hExprs

/-- Expressions compare as their trees do if what is inside does. -/
theorem Expr.compare_eq_order {a b : Expr} (hId : a.id ≠ b.id)
    (hType : compare a.type b.type = a.type.tree.order b.type.tree)
    (hOperands : ∀ e ∈ a.operands, ∀ d ∈ b.operands, compare e d = e.tree.order d.tree) :
    compare a b = a.tree.order b.tree := by
  rw [Expr.compare_eq a b hId, Expr.tree_eq, Expr.tree_eq, ExprTree.order_eq_fields,
    ExprShape.kind_map, ExprShape.kind_map, ExprShape.fields_map Ty.tree Expr.tree,
    ExprShape.fields_map Ty.tree Expr.tree, hType]
  congr 2
  refine Field.orderWith_map Ty.tree Expr.tree ?_ ?_
  · intro t ht
    rw [Expr.ownFields, ExprShape.flatMap_heldTypes] at ht
    cases ht
  · intro e he d hd
    rw [Expr.ownFields, ExprShape.flatMap_heldExprs] at he hd
    exact hOperands e he d hd

-- ---------------------------------------------------------------------------
-- Nodes that live together
-- ---------------------------------------------------------------------------

/-- Some nodes, with everything inside them, whose identities tell them apart. -/
structure Coherent (P : Node → Prop) : Prop where
  closed : ∀ n, P n → ∀ c ∈ n.children, P c
  unique : ∀ m n, P m → P n → m.id = n.id → m = n

namespace Coherent

variable {P : Node → Prop}

/-- The comparison of a node with others, seen through trees. -/
def AgreesAt (P : Node → Prop) : Node → Prop
  | .type a => ∀ b, P (.type b) → compare a b = a.tree.order b.tree
  | .expr a => ∀ b, P (.expr b) → compare a b = a.tree.order b.tree

/-- Comparisons of coherent nodes are comparisons of trees: by induction, first what is inside. -/
theorem agreesAt (hP : Coherent P) {n : Node} (hn : P n) : AgreesAt P n := by
  induction n using Node.induction_children with
  | step n ih =>
    have hTypes : ∀ t, .type t ∈ n.children → ∀ u, P (.type u) →
        compare t u = t.tree.order u.tree :=
      fun t ht => ih (.type t) ht (hP.closed n hn _ ht)
    have hExprs : ∀ e, .expr e ∈ n.children → ∀ d, P (.expr d) →
        compare e d = e.tree.order d.tree :=
      fun e he => ih (.expr e) he (hP.closed n hn _ he)
    cases n with
    | type a =>
      intro b hb
      by_cases hId : a.id = b.id
      · -- one node: both sides are `eq`
        cases hP.unique _ _ hn hb hId
        rw [Ty.compare_of_id rfl]
        exact ReflCmp.compare_self.symm
      · refine Ty.compare_eq_order hId ?_ ?_
        · intro t ht u hu
          exact hTypes t (Node.type_mem_children_type.mpr ht) u
            (hP.closed _ hb _ (Node.type_mem_children_type.mpr hu))
        · intro e he d hd
          exact hExprs e (Node.expr_mem_children_type.mpr he) d
            (hP.closed _ hb _ (Node.expr_mem_children_type.mpr hd))
    | expr a =>
      intro b hb
      by_cases hId : a.id = b.id
      · cases hP.unique _ _ hn hb hId
        rw [Expr.compare_of_id rfl]
        exact ReflCmp.compare_self.symm
      · refine Expr.compare_eq_order hId ?_ ?_
        · exact hTypes a.type (Node.type_mem_children_expr.mpr rfl) b.type
            (hP.closed _ hb _ (Node.type_mem_children_expr.mpr rfl))
        · intro e he d hd
          exact hExprs e (Node.expr_mem_children_expr.mpr he) d
            (hP.closed _ hb _ (Node.expr_mem_children_expr.mpr hd))

/-- Comparing types is comparing their trees. -/
theorem compare_type (hP : Coherent P) {a b : Ty} (ha : P (.type a)) (hb : P (.type b)) :
    compare a b = a.tree.order b.tree :=
  hP.agreesAt ha b hb

/-- Comparing expressions is comparing their trees. -/
theorem compare_expr (hP : Coherent P) {a b : Expr} (ha : P (.expr a)) (hb : P (.expr b)) :
    compare a b = a.tree.order b.tree :=
  hP.agreesAt ha b hb

/-- Two shortcuts and a comparison decide what the comparison alone decides, if the first shortcut
is right to say yes and the second is right to say no. -/
theorem shortcuts_iff {same : Prop} {ids digests : Bool} {o : Ordering} (hIds : ids = true → same)
    (hDigests : same → digests = true) (hCompare : o = .eq ↔ same) :
    (ids || (digests && o == .eq)) = true ↔ same := by
  rw [Bool.or_eq_true, Bool.and_eq_true, beq_iff_eq, hCompare]
  exact ⟨fun h => h.elim hIds And.right, fun h => .inr ⟨hDigests h, h⟩⟩

/-- Where the digests agree and the comparison says equal, the shortcuts do not say otherwise. -/
theorem shortcuts_of_eq {ids digests : Bool} {o : Ordering} (hDigests : digests = true)
    (hCompare : o = .eq) : (ids || (digests && o == .eq)) = true := by
  rw [hDigests, hCompare, Bool.true_and, beq_self_eq_true, Bool.or_true]

section Equality

variable {h : Hasher} (hP : Coherent P) (hFaithful : ∀ n, P n → n.Faithful h)

include hP hFaithful

/-- Types are equal if and only if they have the same tree: neither identities nor digests show. -/
theorem beq_type_iff {a b : Ty} (ha : P (.type a)) (hb : P (.type b)) :
    (a == b) = true ↔ a.tree = b.tree := by
  refine shortcuts_iff ?_ ?_ ?_
  · intro hId
    cases hP.unique _ _ ha hb (beq_iff_eq.mp hId)
    rfl
  · intro hTree
    rw [beq_iff_eq, Ty.digest_of_faithful (hFaithful _ ha), Ty.digest_of_faithful (hFaithful _ hb),
      hTree]
  · rw [hP.compare_type ha hb]
    exact LawfulEqCmp.compare_eq_iff_eq

/-- Expressions are equal if and only if they have the same tree. -/
theorem beq_expr_iff {a b : Expr} (ha : P (.expr a)) (hb : P (.expr b)) :
    (a == b) = true ↔ a.tree = b.tree := by
  refine shortcuts_iff ?_ ?_ ?_
  · intro hId
    cases hP.unique _ _ ha hb (beq_iff_eq.mp hId)
    rfl
  · intro hTree
    rw [beq_iff_eq, Expr.digest_of_faithful (hFaithful _ ha),
      Expr.digest_of_faithful (hFaithful _ hb), hTree]
  · rw [hP.compare_expr ha hb]
    exact LawfulEqCmp.compare_eq_iff_eq

end Equality

end Coherent

end TermGraph
