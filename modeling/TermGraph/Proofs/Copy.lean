import TermGraph.Proofs.Related
import TermGraph.Proofs.Summary
import TermGraph.Store
import Mathlib.Data.List.Nodup

/-!
# Copies

A copy is put together from the inside out on two stacks of copies that wait for the node around
them. The invariant says what a part of the walk leaves there: for the nodes `ns`, one copy each, in
order, on top of what was there before (`Copies.foldr_assemble_flatMap`). The visits of the copies
carry, from the first to the last, the identities handed out since, highest first, so nothing in
them is old and nothing is met twice (`Node.Copied`).
-/

namespace TermGraph

namespace Tree

def asType? : Tree → Option TyTree
  | .type t => some t
  | .expr _ => none

def asExpr? : Tree → Option ExprTree
  | .type _ => none
  | .expr e => some e

end Tree

-- ---------------------------------------------------------------------------
-- Other contents in the same places
-- ---------------------------------------------------------------------------

section Refill

variable {τ ε α β : Type} {f : τ → α} {g : ε → β}

/-- Types and expressions that look like those of a shape fit into it. -/
theorem TyShape.exists_of_contents (s : TyShape τ ε) {ts : List τ} {es : List ε}
    (hTypes : ts.map f = s.types.map f) (hExprs : es.map g = s.exprs.map g) :
    ∃ s' : TyShape τ ε, s'.types = ts ∧ s'.exprs = es ∧ s'.map f g = s.map f g := by
  cases s <;>
    simp only [TyShape.types, TyShape.exprs, TyShape.fields, Value.heldTypes, Value.heldExprs,
      List.flatMap_cons, List.flatMap_nil, List.append_nil, List.nil_append, List.map_append,
      List.map_cons, List.map_nil, List.map_eq_nil_iff, List.map_eq_singleton_iff,
      List.map_eq_append_iff] at hTypes hExprs
  case aggregate form members names name =>
    subst hExprs
    refine ⟨.aggregate form ts names name, ?_, rfl, ?_⟩
    · simp [TyShape.types, TyShape.fields, Value.heldTypes]
    · simp [TyShape.map, hTypes]
  case code arguments result names ellipsis =>
    obtain ⟨arguments', _, rfl, hArguments, result', rfl, hResult⟩ := hTypes
    subst hExprs
    refine ⟨.code arguments' result' names ellipsis, ?_, rfl, ?_⟩
    · simp [TyShape.types, TyShape.fields, Value.heldTypes]
    · simp [TyShape.map, hArguments, hResult]
  case array element size infinite =>
    obtain ⟨element', rfl, hElement⟩ := hTypes
    have hSize : es.head?.toList = es ∧ es.head?.map g = size.map g := by
      cases size with
      | none =>
        have hNil : es = [] := by simpa using hExprs
        simp [hNil]
      | some e =>
        obtain ⟨e', rfl, hSame⟩ : ∃ e', es = [e'] ∧ g e' = g e := by
          simpa [List.map_eq_singleton_iff] using hExprs
        simp [hSame]
    refine ⟨.array element' es.head? infinite, rfl, ?_, ?_⟩
    · simp [TyShape.exprs, TyShape.fields, Value.heldExprs, hSize.1]
    · simp [TyShape.map, hElement, hSize.2]
  case pointer target =>
    obtain ⟨target', rfl, hTarget⟩ := hTypes
    subst hExprs
    exact ⟨.pointer target', rfl, rfl, by simp [TyShape.map, hTarget]⟩
  case cppName name arguments =>
    subst hExprs
    refine ⟨.cppName name ts, ?_, rfl, ?_⟩
    · simp [TyShape.types, TyShape.fields, Value.heldTypes]
    · simp [TyShape.map, hTypes]
  all_goals
    subst hTypes hExprs
    exact ⟨_, rfl, rfl, rfl⟩

/-- Expressions that look like the operands of a shape fit into it. -/
theorem ExprShape.exists_of_operands (s : ExprShape ε) {es : List ε}
    (hOperands : es.map g = s.operands.map g) :
    ∃ s' : ExprShape ε, s'.operands = es ∧ s'.map g = s.map g := by
  cases s <;>
    simp only [ExprShape.operands, ExprShape.fields, Value.heldExprs,
      List.flatMap_cons, List.flatMap_nil, List.append_nil, List.nil_append, List.map_cons,
      List.map_nil, List.map_eq_nil_iff, List.map_eq_cons_iff, List.cons_append] at hOperands
  case constantStruct members =>
    exact ⟨.constantStruct es, by simp [ExprShape.operands, ExprShape.fields, Value.heldExprs],
      by simp [ExprShape.map, hOperands]⟩
  case constantUnion members initField =>
    exact ⟨.constantUnion es initField,
      by simp [ExprShape.operands, ExprShape.fields, Value.heldExprs],
      by simp [ExprShape.map, hOperands]⟩
  case constantArray members =>
    exact ⟨.constantArray es, by simp [ExprShape.operands, ExprShape.fields, Value.heldExprs],
      by simp [ExprShape.map, hOperands]⟩
  case constantArrayOf initializer =>
    obtain ⟨initializer', _, rfl, h, rfl⟩ := hOperands
    exact ⟨.constantArrayOf initializer', rfl, by simp [ExprShape.map, h]⟩
  case ite cond onTrue onFalse =>
    obtain ⟨cond', _, rfl, hCond, onTrue', _, rfl, hTrue, onFalse', _, rfl, hFalse, rfl⟩ :=
      hOperands
    exact ⟨.ite cond' onTrue' onFalse', rfl, by simp [ExprShape.map, hCond, hTrue, hFalse]⟩
  case binary op left right =>
    obtain ⟨left', _, rfl, hLeft, right', _, rfl, hRight, rfl⟩ := hOperands
    exact ⟨.binary op left' right', rfl, by simp [ExprShape.map, hLeft, hRight]⟩
  case unary op operand =>
    obtain ⟨operand', _, rfl, h, rfl⟩ := hOperands
    exact ⟨.unary op operand', rfl, by simp [ExprShape.map, h]⟩
  case update source field value =>
    obtain ⟨source', _, rfl, hSource, field', _, rfl, hField, value', _, rfl, hValue, rfl⟩ :=
      hOperands
    exact ⟨.update source' field' value', rfl,
      by simp [ExprShape.map, hSource, hField, hValue]⟩
  case member source name =>
    obtain ⟨source', _, rfl, h, rfl⟩ := hOperands
    exact ⟨.member source' name, rfl, by simp [ExprShape.map, h]⟩
  case index source position =>
    obtain ⟨source', _, rfl, hSource, position', _, rfl, hPosition, rfl⟩ := hOperands
    exact ⟨.index source' position', rfl, by simp [ExprShape.map, hSource, hPosition]⟩
  all_goals
    subst hOperands
    exact ⟨_, rfl, rfl⟩

end Refill

namespace Node

theorem map_tree_types (ns : List Node) :
    (ns.filterMap asType?).map Ty.tree = (ns.map tree).filterMap Tree.asType? := by
  rw [List.map_filterMap, List.filterMap_map]
  congr 1
  funext n
  cases n <;> rfl

theorem map_tree_exprs (ns : List Node) :
    (ns.filterMap asExpr?).map Expr.tree = (ns.map tree).filterMap Tree.asExpr? := by
  rw [List.map_filterMap, List.filterMap_map]
  congr 1
  funext n
  cases n <;> rfl

/-- Lists of nodes with the same trees have types and expressions in the same places. -/
theorem eq_of_trees_of_categories {ms ns : List Node} (hTrees : ms.map tree = ns.map tree)
    (hTypes : ms.filterMap asType? = ns.filterMap asType?)
    (hExprs : ms.filterMap asExpr? = ns.filterMap asExpr?) : ms = ns := by
  refine eq_of_categories ?_ hTypes hExprs
  have hPlaces := congrArg (List.map Tree.isExpr) hTrees
  simpa only [List.map_map, Function.comp_def, isExpr_tree] using hPlaces

/-- All that a node shows but its identity and what it shares. -/
def stamp (n : Node) : Tree × Summary :=
  (n.tree, n.summary)

/-- The nodes `ms` are copies of the nodes `ns`, made with the identities from `next` on. -/
structure Copied (next : Nat) (ns ms : List Node) : Prop where
  trees : ms.map tree = ns.map tree
  stamps : (ms.flatMap visits).map stamp = (ns.flatMap visits).map stamp
  ids : (ms.flatMap visits).map id = (List.range' next (ns.flatMap visits).length).reverse

theorem Copied.nil (next : Nat) : Copied next [] [] := ⟨rfl, rfl, rfl⟩

/-- Copies that were made first have the lower identities and stand behind. -/
theorem Copied.append {next : Nat} {ns ns' ms ms' : List Node}
    (hBehind : Copied next ns' ms')
    (hFront : Copied (next + (ns'.flatMap visits).length) ns ms) :
    Copied next (ns ++ ns') (ms ++ ms') := by
  refine ⟨?_, ?_, ?_⟩
  · rw [List.map_append, List.map_append, hFront.trees, hBehind.trees]
  · simp only [List.flatMap_append, List.map_append, hFront.stamps, hBehind.stamps]
  · rw [List.flatMap_append, List.map_append, hFront.ids, hBehind.ids, ← List.reverse_append,
      List.range'_append_1, List.flatMap_append, List.length_append, Nat.add_comm]

/-- A node around copies, built with the identity after theirs, is a copy. -/
theorem Copied.of_children {next : Nat} {n m : Node}
    (hChildren : Copied next n.children m.children)
    (hId : m.id = next + (n.children.flatMap visits).length)
    (hTree : m.tree = n.tree) (hSummary : m.summary = n.summary) : Copied next [n] [m] := by
  refine ⟨?_, ?_, ?_⟩
  · rw [List.map_singleton, List.map_singleton, hTree]
  · simp only [List.flatMap_singleton]
    rw [visits_eq m, visits_eq n, List.map_cons, List.map_cons, hChildren.stamps, stamp, hTree,
      hSummary, stamp]
  · simp only [List.flatMap_singleton]
    rw [visits_eq m, visits_eq n, List.map_cons, hChildren.ids, hId, List.length_cons,
      List.range'_1_concat, List.reverse_append]
    rfl

namespace Copied

variable {next : Nat} {n m : Node} (h : Copied next [n] [m])

include h

theorem tree_eq : m.tree = n.tree :=
  List.singleton_inj.mp h.trees

theorem summary_eq : m.summary = n.summary := by
  have hStamps := h.stamps
  rw [List.flatMap_singleton, List.flatMap_singleton, visits_eq m, visits_eq n, List.map_cons,
    List.map_cons] at hStamps
  exact congrArg Prod.snd (List.cons.inj hStamps).1

theorem ids_eq : m.visits.map id = (List.range' next n.visits.length).reverse := by
  have hIds := h.ids
  rwa [List.flatMap_singleton, List.flatMap_singleton] at hIds

theorem length_visits : m.visits.length = n.visits.length := by
  simpa using congrArg List.length h.ids_eq

/-- The nodes of a copy have different identities. -/
theorem nodup_ids : (m.visits.map id).Nodup := by
  rw [h.ids_eq, List.nodup_reverse]
  exact List.nodup_range'

/-- The identities of a copy are those handed out since. -/
theorem mem_ids {k : Node} (hk : k ∈ m.visits) : next ≤ k.id ∧ k.id < next + n.visits.length := by
  have hId := List.mem_map_of_mem (f := id) hk
  rw [h.ids_eq, List.mem_reverse, List.mem_range'_1] at hId
  exact hId

/-- What occurs in the copy shows what something in the original shows. -/
theorem exists_stamp {k : Node} (hk : k ∈ m.visits) : ∃ k' ∈ n.visits, k'.stamp = k.stamp := by
  have hStamps := h.stamps
  rw [List.flatMap_singleton, List.flatMap_singleton] at hStamps
  have hMem := List.mem_map_of_mem (f := stamp) hk
  rw [hStamps] at hMem
  exact List.mem_map.mp hMem

end Copied

end Node

namespace Copies

-- ---------------------------------------------------------------------------
-- Taking copies off the stacks
-- ---------------------------------------------------------------------------

/-- Taking one copy after the other takes as many off the stack as there are places to fill. -/
theorem run_mapM_take {α σ : Type} (take : α → StateM σ α) (stack : List α → σ)
    (hTake : ∀ a copy rest, (take a).run (stack (copy :: rest)) = pure (copy, stack rest))
    {places copies : List α} (hLen : copies.length = places.length) (rest : List α) :
    (places.mapM take).run (stack (copies ++ rest)) = pure (copies, stack rest) := by
  induction places generalizing copies with
  | nil =>
    rw [List.length_eq_zero_iff.mp hLen]
    rfl
  | cons a places ih =>
    cases copies with
    | nil => cases hLen
    | cons copy copies =>
      rw [List.mapM_cons, StateT.run_bind, List.cons_append, hTake, pure_bind, StateT.run_bind,
        ih (Nat.succ.inj hLen), pure_bind, StateT.run_pure]

section Traverse

variable (next : Nat) (ts₀ : List Ty) (es₀ : List Expr)

@[simp] theorem run_takeType (t copy : Ty) :
    (takeType t).run ⟨next, copy :: ts₀, es₀⟩ = pure (copy, ⟨next, ts₀, es₀⟩) := rfl

@[simp] theorem run_takeExpr (e copy : Expr) :
    (takeExpr e).run ⟨next, ts₀, copy :: es₀⟩ = pure (copy, ⟨next, ts₀, es₀⟩) := rfl

theorem run_mapM_takeType {places copies : List Ty}
    (hTrees : copies.map Ty.tree = places.map Ty.tree) :
    (places.mapM takeType).run ⟨next, copies ++ ts₀, es₀⟩ = pure (copies, ⟨next, ts₀, es₀⟩) :=
  run_mapM_take takeType (⟨next, ·, es₀⟩) (fun _ _ _ => rfl)
    (by simpa using congrArg List.length hTrees) ts₀

theorem run_mapM_takeExpr {places copies : List Expr}
    (hTrees : copies.map Expr.tree = places.map Expr.tree) :
    (places.mapM takeExpr).run ⟨next, ts₀, copies ++ es₀⟩ = pure (copies, ⟨next, ts₀, es₀⟩) :=
  run_mapM_take takeExpr (⟨next, ts₀, ·⟩) (fun _ _ _ => rfl)
    (by simpa using congrArg List.length hTrees) es₀

/-- If the copies of what a type holds are on top, traversing its shape takes exactly them off and
puts them in the same places. -/
theorem run_traverse_type {s s' : TyShape Ty Expr}
    (h : s'.map Ty.tree Expr.tree = s.map Ty.tree Expr.tree) :
    (s.traverse takeType takeExpr).run ⟨next, s'.types ++ ts₀, s'.exprs ++ es₀⟩ =
      pure (s', ⟨next, ts₀, es₀⟩) := by
  have hRel : s'.Rel (fun a b => a.tree = b.tree) (fun a b => a.tree = b.tree) s :=
    (TyShape.rel_of_map_eq h).imp (fun _ _ hab => hab.2.2) (fun _ _ hab => hab.2.2)
  cases hRel with
  | aggregate form names name hMembers =>
    simp [TyShape.traverse, TyShape.types, TyShape.exprs, TyShape.fields, Value.heldTypes,
      Value.heldExprs, run_mapM_takeType _ _ _ (map_eq_of_forall₂ hMembers)]
  | code names ellipsis hArguments hResult =>
    simp [TyShape.traverse, TyShape.types, TyShape.exprs, TyShape.fields, Value.heldTypes,
      Value.heldExprs, run_mapM_takeType _ _ _ (map_eq_of_forall₂ hArguments)]
  | array infinite hElement hSize =>
    cases hSize <;>
      simp [TyShape.traverse, TyShape.types, TyShape.exprs, TyShape.fields, Value.heldTypes,
        Value.heldExprs]
  | cppName name hArguments =>
    simp [TyShape.traverse, TyShape.types, TyShape.exprs, TyShape.fields, Value.heldTypes,
      Value.heldExprs, run_mapM_takeType _ _ _ (map_eq_of_forall₂ hArguments)]
  | _ =>
    simp [TyShape.traverse, TyShape.types, TyShape.exprs, TyShape.fields, Value.heldTypes,
      Value.heldExprs]

/-- If the copies of the operands are on top, traversing an expression's shape takes exactly them off
and puts them in the same places. -/
theorem run_traverse_expr {s s' : ExprShape Expr} (h : s'.map Expr.tree = s.map Expr.tree) :
    (s.traverse takeExpr).run ⟨next, ts₀, s'.operands ++ es₀⟩ = pure (s', ⟨next, ts₀, es₀⟩) := by
  have hRel : s'.Rel (fun a b => a.tree = b.tree) s :=
    (ExprShape.rel_of_map_eq h).imp fun _ _ hab => hab.2.2
  cases hRel with
  | constantStruct hMembers =>
    simp [ExprShape.traverse, ExprShape.operands, ExprShape.fields, Value.heldExprs,
      run_mapM_takeExpr _ _ _ (map_eq_of_forall₂ hMembers)]
  | constantUnion initField hMembers =>
    simp [ExprShape.traverse, ExprShape.operands, ExprShape.fields, Value.heldExprs,
      run_mapM_takeExpr _ _ _ (map_eq_of_forall₂ hMembers)]
  | constantArray hMembers =>
    simp [ExprShape.traverse, ExprShape.operands, ExprShape.fields, Value.heldExprs,
      run_mapM_takeExpr _ _ _ (map_eq_of_forall₂ hMembers)]
  | _ => simp [ExprShape.traverse, ExprShape.operands, ExprShape.fields, Value.heldExprs]

end Traverse

-- ---------------------------------------------------------------------------
-- What the walk leaves on the stacks
-- ---------------------------------------------------------------------------

/-- The stacks with some copies on top, and a new next identity. -/
def push (c : Copies) (next : Nat) (ms : List Node) : Copies where
  next := next
  types := ms.filterMap Node.asType? ++ c.types
  exprs := ms.filterMap Node.asExpr? ++ c.exprs

theorem push_push (c : Copies) (k l : Nat) (ms ns : List Node) :
    (c.push k ns).push l ms = c.push l (ms ++ ns) := by
  simp [push]

theorem push_type (c : Copies) (next : Nat) (t : Ty) :
    c.push next [.type t] = ⟨next, t :: c.types, c.exprs⟩ := rfl

theorem push_expr (c : Copies) (next : Nat) (e : Expr) :
    c.push next [.expr e] = ⟨next, c.types, e :: c.exprs⟩ := rfl

/-- One step: with copies of its children on top, a node becomes a copy around them. -/
theorem assemble_push (c : Copies) (next : Nat) {n : Node} {ms : List Node}
    (hTrees : ms.map Node.tree = n.children.map Node.tree) :
    ∃ m, assemble n (c.push next ms) = c.push (next + 1) [m] ∧
      m.id = next ∧ m.children = ms ∧ m.tree = n.tree ∧ m.summary = n.summary := by
  have hTypes : (ms.filterMap Node.asType?).map Ty.tree =
      (n.children.filterMap Node.asType?).map Ty.tree := by
    rw [Node.map_tree_types, Node.map_tree_types, hTrees]
  have hExprs : (ms.filterMap Node.asExpr?).map Expr.tree =
      (n.children.filterMap Node.asExpr?).map Expr.tree := by
    rw [Node.map_tree_exprs, Node.map_tree_exprs, hTrees]
  cases n with
  | type t =>
    rw [Node.types_children_type] at hTypes
    rw [Node.exprs_children_type] at hExprs
    obtain ⟨s', hTypes', hExprs', hMap⟩ := t.shape.exists_of_contents hTypes hExprs
    have hRun := run_traverse_type next c.types c.exprs hMap
    have hTree : (Node.type (.node next t.digest s')).tree = (Node.type t).tree := by
      rw [Node.tree, Node.tree, Ty.tree_eq, Ty.tree_eq t, ← hMap]
      rfl
    refine ⟨.type (.node next t.digest s'), ?_, rfl, ?_, hTree, rfl⟩
    · rw [push, ← hTypes', ← hExprs', assemble, hRun, push_type]
      rfl
    · refine Node.eq_of_trees_of_categories ?_ ?_ ?_
      · rw [← Node.children_tree, hTree, Node.children_tree, hTrees]
      · rw [Node.types_children_type, ← hTypes']
        rfl
      · rw [Node.exprs_children_type, ← hExprs']
        rfl
  | expr e =>
    rw [Node.types_children_expr, List.map_singleton, List.map_eq_singleton_iff] at hTypes
    rw [Node.exprs_children_expr] at hExprs
    obtain ⟨type, hType, hTypeTree⟩ := hTypes
    obtain ⟨s', hOperands, hMap⟩ := e.shape.exists_of_operands hExprs
    have hRun := run_traverse_expr next (type :: c.types) c.exprs hMap
    have hTree : (Node.expr (.node next e.digest e.flags type s')).tree = (Node.expr e).tree := by
      rw [Node.tree, Node.tree, Expr.tree_eq, Expr.tree_eq e, ← hMap, ← hTypeTree]
      rfl
    refine ⟨.expr (.node next e.digest e.flags type s'), ?_, rfl, ?_, hTree, rfl⟩
    · rw [push, hType, ← hOperands, List.singleton_append, assemble, hRun, push_expr]
      rfl
    · refine Node.eq_of_trees_of_categories ?_ ?_ ?_
      · rw [← Node.children_tree, hTree, Node.children_tree, hTrees]
      · rw [Node.types_children_expr, hType]
        rfl
      · rw [Node.exprs_children_expr, ← hOperands]
        rfl

/-- A part of the walk that visits everything inside `ns` leaves copies of `ns` on the stacks. -/
theorem foldr_assemble_flatMap {ns : List Node}
    (hNode : ∀ n ∈ ns, ∀ c : Copies, ∃ m, Node.Copied c.next [n] [m] ∧
      n.visits.foldr assemble c = c.push (c.next + n.visits.length) [m]) (c : Copies) :
    ∃ ms, Node.Copied c.next ns ms ∧ (ns.flatMap Node.visits).foldr assemble c =
      c.push (c.next + (ns.flatMap Node.visits).length) ms := by
  induction ns with
  | nil => exact ⟨[], Node.Copied.nil c.next, rfl⟩
  | cons n ns ih =>
    -- the last visit comes first, so the copies of the tail are made before that of the head
    obtain ⟨ms, hTail, hTailRun⟩ := ih fun n hn => hNode n (List.mem_cons_of_mem _ hn)
    obtain ⟨m, hHead, hHeadRun⟩ := hNode n List.mem_cons_self
      (c.push (c.next + (ns.flatMap Node.visits).length) ms)
    refine ⟨m :: ms, hTail.append hHead, ?_⟩
    rw [List.flatMap_cons, List.foldr_append, hTailRun, hHeadRun, push_push]
    simp [push, Nat.add_assoc, Nat.add_comm n.visits.length]

/-- The walk from a node leaves one copy of it on the stacks. -/
theorem foldr_assemble_visits (n : Node) (c : Copies) :
    ∃ m, Node.Copied c.next [n] [m] ∧
      n.visits.foldr assemble c = c.push (c.next + n.visits.length) [m] := by
  induction n using Node.induction_children generalizing c with
  | step n ih =>
    obtain ⟨ms, hCopied, hRun⟩ := foldr_assemble_flatMap ih c
    obtain ⟨m, hAssemble, hId, hChildren, hTree, hSummary⟩ :=
      assemble_push c (c.next + (n.children.flatMap Node.visits).length) hCopied.trees
    refine ⟨m, Node.Copied.of_children (hChildren ▸ hCopied) hId hTree hSummary, ?_⟩
    rw [Node.visits_eq, List.foldr_cons, hRun, hAssemble, List.length_cons, Nat.add_assoc]

end Copies

-- ---------------------------------------------------------------------------
-- Copying in a store
-- ---------------------------------------------------------------------------

/-- A copy of a node of either category. -/
def Store.copy (s : Store) : Node → Node × Store
  | .type t => ((s.copyType t).1 |> .type, (s.copyType t).2)
  | .expr e => ((s.copyExpr e).1 |> .expr, (s.copyExpr e).2)

/-- What a copy is, and that the store has moved on by exactly the number of visits. -/
theorem Store.copy_spec (s : Store) (n : Node) :
    Node.Copied s.next [n] [(s.copy n).1] ∧
      (s.copy n).2 = { s with next := s.next + n.visits.length } := by
  obtain ⟨m, hCopied, hRun⟩ := Copies.foldr_assemble_visits n { next := s.next }
  have hCategory : m.isExpr = n.isExpr := by
    rw [← Node.isExpr_tree, hCopied.tree_eq, Node.isExpr_tree]
  cases n with
  | type t =>
    cases m with
    | type t' =>
      have hCopy : s.copyType t = (t', { s with next := s.next + (Node.type t).visits.length }) := by
        rw [Store.copyType, Copies.ofNode, hRun]
        rfl
      rw [Store.copy, hCopy]
      exact ⟨hCopied, rfl⟩
    | expr e' => cases hCategory
  | expr e =>
    cases m with
    | type t' => cases hCategory
    | expr e' =>
      have hCopy : s.copyExpr e = (e', { s with next := s.next + (Node.expr e).visits.length }) := by
        rw [Store.copyExpr, Copies.ofNode, hRun]
        rfl
      rw [Store.copy, hCopy]
      exact ⟨hCopied, rfl⟩

end TermGraph
