import TermGraph.Proofs.Guarantees
import Mathlib.Logic.Relation

/-!
# What the flags tell

The flags of an expression are computed once, from its kind and from the flags of its operands. They
say as much as a walk over all its operands would: four of them that an expression of some kind is
among these (`Regular.presence_iff`), one that all of them are literals
(`Regular.isConstant_iff`). Expressions inside types, the sizes of arrays, are not operands and do
not count.

Main statement: `flags_tell_what_is_inside`.
-/

namespace TermGraph

-- ---------------------------------------------------------------------------
-- Operands at any depth
-- ---------------------------------------------------------------------------

/-- The kinds of literals. -/
def ExprKind.literals : List ExprKind :=
  [.constantInt, .constantBool, .constantString, .constantStruct, .constantUnion, .constantArray,
    .constantArrayOf]

theorem ExprKind.isConstant_iff {k : ExprKind} : k.isConstant = true ↔ k ∈ literals := by
  cases k with
  | binary op => simp [isConstant, literals]
  | unary op => simp [isConstant, literals]
  | _ => decide

namespace Expr

/-- The second expression is the first or one of its operands, at any depth. Types are not
entered. -/
def Contains : Expr → Expr → Prop :=
  Relation.ReflTransGen fun e d => d ∈ e.operands

theorem contains_iff {e d : Expr} : e.Contains d ↔ d = e ∨ ∃ o ∈ e.operands, o.Contains d := by
  rw [Contains, Relation.ReflTransGen.cases_head_iff, eq_comm]

theorem exists_contains_iff {e : Expr} {p : Expr → Prop} :
    (∃ d, e.Contains d ∧ p d) ↔ p e ∨ ∃ o ∈ e.operands, ∃ d, o.Contains d ∧ p d := by
  constructor
  · rintro ⟨d, hd, hp⟩
    rcases contains_iff.mp hd with rfl | ⟨o, ho, hd⟩
    · exact .inl hp
    · exact .inr ⟨o, ho, d, hd, hp⟩
  · rintro (hp | ⟨o, ho, d, hd, hp⟩)
    · exact ⟨e, .refl, hp⟩
    · exact ⟨d, contains_iff.mpr (.inr ⟨o, ho, hd⟩), hp⟩

/-- What holds of an expression whenever it holds of its operands holds of all expressions. -/
theorem induction_operands {motive : Expr → Prop}
    (step : ∀ e, (∀ o ∈ e.operands, motive o) → motive e) (e : Expr) : motive e := by
  have hNode :=
    Node.induction_children (motive := fun n => ∀ e, n = .expr e → motive e) ?_ (.expr e)
  · exact hNode e rfl
  · rintro n ih e rfl
    exact step e fun o ho => ih _ (Node.expr_mem_children_expr.mpr ho) o rfl

end Expr

-- ---------------------------------------------------------------------------
-- One flag
-- ---------------------------------------------------------------------------

namespace Flags

/-- The flags that say that an expression of some kind is there. -/
inductive Presence where
  | symbol
  | dereference
  | addressOf
  | overflow

namespace Presence

/-- Whether the flag is set. -/
def isSet : Presence → Flags → Bool
  | .symbol => hasSymbol
  | .dereference => hasDeref
  | .addressOf => hasAddressOf
  | .overflow => hasOverflowCheck

/-- The kind that the flag is about. -/
def kind : Presence → ExprKind
  | .symbol => .symbol
  | .dereference => .unary .dereference
  | .addressOf => .unary .addressOf
  | .overflow => .unary .overflow

variable (p : Presence)

/-- Only that kind adds the flag. -/
theorem isSet_ofKind (k : ExprKind) : p.isSet (Flags.ofKind k) = true ↔ k = p.kind := by
  cases p <;> fun_cases Flags.ofKind k <;> simp_all [isSet, kind, empty]

/-- The flag is handed on from operands. -/
theorem isSet_union (a b : Flags) : p.isSet (a.union b.propagated) = (p.isSet a || p.isSet b) := by
  cases p <;> rfl

/-- Being a literal is nothing to it. -/
theorem isSet_literal (f : Flags) (b : Bool) : p.isSet { f with isConstant := b } = p.isSet f := by
  cases p <;> rfl

/-- The flag is set by the kind or by an operand. -/
theorem isSet_compute (k : ExprKind) (operands : List Flags) :
    p.isSet (compute k operands) = true ↔ k = p.kind ∨ ∃ f ∈ operands, p.isSet f = true := by
  have hGather : ∀ acc, p.isSet (operands.foldl (fun acc f => acc.union f.propagated) acc) =
      (p.isSet acc || operands.any p.isSet) := by
    induction operands with
    | nil => simp
    | cons f fs ih =>
      intro acc
      rw [List.foldl_cons, ih, isSet_union, List.any_cons, Bool.or_assoc]
  rw [Flags.compute, isSet_literal, hGather, Bool.or_eq_true, isSet_ofKind, List.any_eq_true]

end Presence

theorem compute_isConstant (k : ExprKind) (operands : List Flags) :
    (compute k operands).isConstant = true ↔
      k ∈ ExprKind.literals ∧ ∀ f ∈ operands, f.isConstant = true := by
  rw [← ExprKind.isConstant_iff, ← List.all_eq_true, ← Bool.and_eq_true]
  rfl

/-- The byte of some flags has no other bit, and is read back as the same flags. -/
theorem ofBits?_toBits (f : Flags) : f.toBits &&& 0xe0 = 0 ∧ ofBits? f.toBits = some f := by
  obtain ⟨constant, symbol, deref, address, overflow⟩ := f
  revert constant symbol deref address overflow
  decide

end Flags

-- ---------------------------------------------------------------------------
-- All flags of an expression
-- ---------------------------------------------------------------------------

namespace Regular

variable {h : Hasher} {P : Node → Prop} (hP : Regular h P)

include hP

/-- Flags are what was computed from the operands, also in a copy, which was given them. -/
theorem flags_eq_compute {e : Expr} (he : P (.expr e)) :
    e.flags = Flags.compute e.kind (e.operands.map Expr.flags) := by
  have hOperands : e.operands.map Expr.flags = e.operands.map (ExprTree.flags ∘ Expr.tree) :=
    List.map_congr_left fun o ho =>
      Expr.flags_of_faithful (hP.faithful _ (hP.operand_of_expr he ho))
  rw [Expr.flags_of_faithful (hP.faithful _ he), Expr.tree_eq, ExprTree.flags_node,
    ExprShape.kind_map, ExprShape.operands_map, List.map_map]
  exact congrArg (Flags.compute e.kind) hOperands.symm

/-- A flag is set where an expression of its kind is among the operands, at any depth. -/
theorem presence_iff (p : Flags.Presence) {e : Expr} (he : P (.expr e)) :
    p.isSet e.flags = true ↔ ∃ d, e.Contains d ∧ d.kind = p.kind := by
  induction e using Expr.induction_operands with
  | step e ih =>
    rw [hP.flags_eq_compute he, p.isSet_compute, Expr.exists_contains_iff]
    refine or_congr_right ?_
    simp only [List.mem_map, exists_exists_and_eq_and]
    refine exists_congr fun o => and_congr_right fun ho => ?_
    exact ih o ho (hP.operand_of_expr he ho)

/-- The flag of literals is set where all operands, at any depth, are literals. -/
theorem isConstant_iff {e : Expr} (he : P (.expr e)) :
    e.flags.isConstant = true ↔ ∀ d, e.Contains d → d.kind ∈ ExprKind.literals := by
  induction e using Expr.induction_operands with
  | step e ih =>
    rw [hP.flags_eq_compute he, Flags.compute_isConstant, List.forall_mem_map]
    constructor
    · rintro ⟨hKind, hOperands⟩ d hd
      rcases Expr.contains_iff.mp hd with rfl | ⟨o, ho, hd⟩
      · exact hKind
      · exact (ih o ho (hP.operand_of_expr he ho)).mp (hOperands o ho) d hd
    · intro hAll
      refine ⟨hAll e .refl, fun o ho => ?_⟩
      refine (ih o ho (hP.operand_of_expr he ho)).mpr fun d hd => hAll d ?_
      exact Expr.contains_iff.mpr (.inr ⟨o, ho, hd⟩)

/-- A literal through and through contains no expression of another kind, so that it has no other
flag. -/
theorem presence_of_isConstant (p : Flags.Presence) {e : Expr} (he : P (.expr e))
    (hConstant : e.flags.isConstant = true) : p.isSet e.flags = false := by
  have hKind : p.kind ∉ ExprKind.literals := by cases p <;> decide
  rw [← Bool.not_eq_true, hP.presence_iff p he]
  rintro ⟨d, hd, hEq⟩
  exact hKind (hEq ▸ (hP.isConstant_iff he).mp hConstant d hd)

end Regular

/-- The flags of an expression say what a walk over its operands would find. -/
structure Expr.FlagsTell (e : Expr) : Prop where
  symbol : e.flags.hasSymbol = true ↔ ∃ d, e.Contains d ∧ d.kind = .symbol
  dereference : e.flags.hasDeref = true ↔ ∃ d, e.Contains d ∧ d.kind = .unary .dereference
  addressOf : e.flags.hasAddressOf = true ↔ ∃ d, e.Contains d ∧ d.kind = .unary .addressOf
  overflow : e.flags.hasOverflowCheck = true ↔ ∃ d, e.Contains d ∧ d.kind = .unary .overflow
  literal : e.flags.isConstant = true ↔ ∀ d, e.Contains d → d.kind ∈ ExprKind.literals
  literalOnly : e.flags.isConstant = true → e.flags = { isConstant := true }
  bits : e.flags.toBits &&& 0xe0 = 0 ∧ Flags.ofBits? e.flags.toBits = some e.flags

variable {h : Hasher} {w : World}

/-- Of every expression in use, copies included, the flags tell exactly which kinds are met in
it. -/
theorem flags_tell_what_is_inside (hw : Reached h w) {e : Expr} (he : w.Occurs (.expr e)) :
    e.FlagsTell := by
  have hRegular := hw.sound.regular
  refine ⟨hRegular.presence_iff .symbol he, hRegular.presence_iff .dereference he,
    hRegular.presence_iff .addressOf he, hRegular.presence_iff .overflow he,
    hRegular.isConstant_iff he, fun hConstant => ?_, e.flags.ofBits?_toBits⟩
  have hSymbol : e.flags.hasSymbol = false := hRegular.presence_of_isConstant .symbol he hConstant
  have hDeref : e.flags.hasDeref = false :=
    hRegular.presence_of_isConstant .dereference he hConstant
  have hAddress : e.flags.hasAddressOf = false :=
    hRegular.presence_of_isConstant .addressOf he hConstant
  have hOverflow : e.flags.hasOverflowCheck = false :=
    hRegular.presence_of_isConstant .overflow he hConstant
  cases hFlags : e.flags with
  | mk constant symbol deref address overflow => simp_all

/-- The copy of a negated symbol contains a symbol, and not only literals. -/
theorem flags_tell_what_is_inside_sample :
    let truth : Ty := .build .fnv 0 .bool
    let name : Expr := .build .fnv 1 truth (.symbol ⟨"x"⟩)
    let negation : Expr := .build .fnv 2 truth (.unary .not name)
    let w : World := { store := { next := 3 }, held := [.expr negation, .expr name, .type truth] }
    let copy := (w.store.copyExpr negation).1
    (w.perform (.copy (.expr negation))).Occurs (.expr copy) ∧
      (∃ d, copy.Contains d ∧ d.kind = .symbol) ∧
      ¬ (∀ d, copy.Contains d → d.kind ∈ ExprKind.literals) := by
  intro truth name negation w copy
  have hTruth := Reached.start (h := .fnv) |>.call (c := .makeType .bool) nofun
  have hForName : ∀ n ∈ [Node.type truth], n ∈ [Node.type truth] := by simp
  have hName := hTruth.call (c := .makeExpr truth (.symbol ⟨"x"⟩)) hForName
  have hForNegation : ∀ n ∈ [Node.type truth, .expr name], n ∈ [.expr name, Node.type truth] := by
    simp
  have hNegation : Reached .fnv w :=
    hName.call (c := .makeExpr truth (.unary .not name)) hForNegation
  have hReached := hNegation.call (c := .copy (.expr negation)) (by simp [Call.arguments, w])
  have hCopy : (w.perform (.copy (.expr negation))).Occurs (.expr copy) := .of_held (.head _)
  have hTell := flags_tell_what_is_inside hReached hCopy
  have hFlags : copy.flags = { hasSymbol := true } := by
    have hSummary := (w.store.copy_spec (.expr negation)).1.summary_eq
    exact Option.some.inj (congrArg Summary.flags hSummary)
  refine ⟨hCopy, hTell.symbol.mp (by rw [hFlags]), fun hAll => ?_⟩
  have hConstant := hTell.literal.mpr hAll
  rw [hFlags] at hConstant
  cases hConstant

end TermGraph
