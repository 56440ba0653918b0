import TermGraph.Proofs.FieldTable
import TermGraph.Proofs.Guarantees

/-!
# The order, as rules

What the order of nodes is documented to be fits in a few rules, which say when one tree precedes
another: by the place of its kind in the list of kinds; among expressions of one kind by the result
type; then by the first field in which the two differ. `TyTree.Precedes` and `ExprTree.Precedes` are
these rules and nothing else. They compute nothing, and they know no identities.

Main statement: the comparison of nodes in use, with its way out where both sides are one node, is
the comparison of their trees, which has none, and decides these rules (`compare_is_lexicographic`).
-/

open Std

namespace TermGraph

variable {τ ε : Type}

-- ---------------------------------------------------------------------------
-- The rules
-- ---------------------------------------------------------------------------

/-- The kind is listed earlier. -/
def TypeKind.Precedes (k l : TypeKind) : Prop :=
  all.idxOf k < all.idxOf l

/-- The kind is listed earlier. -/
def ExprKind.Precedes (k l : ExprKind) : Prop :=
  all.idxOf k < all.idxOf l

/-- The first byte that differs is the smaller one, or the name is a proper beginning. -/
def Name.Precedes (a b : Name) : Prop :=
  List.Lex (fun x y : UInt8 => x.toNat < y.toNat) a.bytes b.bytes

/-- When a value precedes another of its sort, given when types and expressions do. -/
inductive Value.Precedes (R : τ → τ → Prop) (S : ε → ε → Prop) : Value τ ε → Value τ ε → Prop
  | bool : Precedes R S (.bool false) (.bool true)
  | uint {m n : UInt32} (h : m.toNat < n.toNat) : Precedes R S (.uint m) (.uint n)
  | int {i j : Int} (h : i < j) : Precedes R S (.int i) (.int j)
  | name {a b : Name} (h : a.Precedes b) : Precedes R S (.name a) (.name b)
  | names {as bs : List Name} (h : List.Lex Name.Precedes as bs) :
      Precedes R S (.names as) (.names bs)
  | type {t u : τ} (h : R t u) : Precedes R S (.type t) (.type u)
  | types {ts us : List τ} (h : List.Lex R ts us) : Precedes R S (.types ts) (.types us)
  | expr {e d : ε} (h : S e d) : Precedes R S (.expr e) (.expr d)
  | absent (d : ε) : Precedes R S (.optExpr none) (.optExpr (some d))
  | present {e d : ε} (h : S e d) : Precedes R S (.optExpr (some e)) (.optExpr (some d))
  | exprs {es ds : List ε} (h : List.Lex S es ds) : Precedes R S (.exprs es) (.exprs ds)

mutual

/-- When a type precedes another. -/
inductive TyTree.Precedes : TyTree → TyTree → Prop
  | kind {a b : TyShape TyTree ExprTree} (h : a.kind.Precedes b.kind) :
      TyTree.Precedes (.node a) (.node b)
  | contents {a b : TyShape TyTree ExprTree} (hKind : a.kind = b.kind)
      (h : List.Lex (Value.Precedes TyTree.Precedes ExprTree.Precedes)
        (a.fields.map Field.value) (b.fields.map Field.value)) :
      TyTree.Precedes (.node a) (.node b)

/-- When an expression precedes another. -/
inductive ExprTree.Precedes : ExprTree → ExprTree → Prop
  | kind (t u : TyTree) {a b : ExprShape ExprTree} (h : a.kind.Precedes b.kind) :
      ExprTree.Precedes (.node t a) (.node u b)
  | type {t u : TyTree} {a b : ExprShape ExprTree} (hKind : a.kind = b.kind)
      (h : TyTree.Precedes t u) : ExprTree.Precedes (.node t a) (.node u b)
  | contents (t : TyTree) {a b : ExprShape ExprTree} (hKind : a.kind = b.kind)
      (h : List.Lex (Value.Precedes TyTree.Precedes ExprTree.Precedes)
        (a.fields.map Field.value) (b.fields.map Field.value)) :
      ExprTree.Precedes (.node t a) (.node t b)

end

/-- The first values to differ are in order. -/
def Field.Precede (fs gs : List (Field TyTree ExprTree)) : Prop :=
  List.Lex (Value.Precedes TyTree.Precedes ExprTree.Precedes) (fs.map Field.value)
    (gs.map Field.value)

-- ---------------------------------------------------------------------------
-- One rule at a time
-- ---------------------------------------------------------------------------

theorem TypeKind.precedes_iff {k l : TypeKind} : k.Precedes l ↔ k.rank < l.rank := by
  have hRank : ∀ k : TypeKind, all.idxOf k = k.rank := fun k => by cases k <;> rfl
  rw [Precedes, hRank, hRank]

theorem ExprKind.precedes_iff {k l : ExprKind} : k.Precedes l ↔ k.rank < l.rank := by
  have hRank : ∀ k : ExprKind, all.idxOf k = k.rank := by
    intro k
    cases k with
    | binary op => cases op <;> rfl
    | unary op => cases op <;> rfl
    | _ => rfl
  rw [Precedes, hRank, hRank]

/-- In a lexicographic comparison only elements in the same place are compared. -/
theorem compareLex_eq_lt_iff {α : Type} {cmp : α → α → Ordering} [LawfulEqCmp cmp]
    {R : α → α → Prop} {xs ys : List α} (h : ∀ p ∈ xs.zip ys, (cmp p.1 p.2 = .lt ↔ R p.1 p.2)) :
    List.compareLex cmp xs ys = .lt ↔ List.Lex R xs ys := by
  induction xs generalizing ys with
  | nil =>
    cases ys with
    | nil => exact ⟨nofun, nofun⟩
    | cons y ys => exact ⟨fun _ => .nil, fun _ => rfl⟩
  | cons x xs ih =>
    cases ys with
    | nil => exact ⟨nofun, nofun⟩
    | cons y ys =>
      rw [List.zip_cons_cons, List.forall_mem_cons] at h
      rw [List.compareLex_cons_cons, Ordering.then_eq_lt, List.cons_lex_cons_iff, h.1,
        LawfulEqCmp.compare_eq_iff_eq, ih h.2]

theorem Name.compare_eq_lt_iff {a b : Name} : compare a b = .lt ↔ a.Precedes b :=
  compareLex_eq_lt_iff fun _ _ => compare_eq_lt.trans UInt8.lt_iff_toNat_lt

/-- Values of one sort, given that the comparisons of what they hold decide the rules. -/
theorem Value.orderWith_eq_lt_iff {cmpTy : τ → τ → Ordering} {cmpExpr : ε → ε → Ordering}
    [LawfulEqCmp cmpTy] [LawfulEqCmp cmpExpr] {R : τ → τ → Prop} {S : ε → ε → Prop}
    {v w : Value τ ε} (hSort : v.SameSort w)
    (hTy : ∀ t ∈ v.heldTypes, ∀ u, cmpTy t u = .lt ↔ R t u)
    (hExpr : ∀ e ∈ v.heldExprs, ∀ d, cmpExpr e d = .lt ↔ S e d) :
    v.orderWith cmpTy cmpExpr w = .lt ↔ v.Precedes R S w := by
  cases hSort with
  | bool a b =>
    constructor
    · intro h
      cases a <;> cases b <;> first | exact .bool | cases h
    · rintro ⟨⟩
      rfl
  | uint m n =>
    have hNum : compare m n = .lt ↔ m.toNat < n.toNat := compare_eq_lt.trans UInt32.lt_iff_toNat_lt
    exact hNum.trans ⟨.uint, fun h => by cases h with | uint h => exact h⟩
  | int i j =>
    have hNum : compare i j = .lt ↔ i < j := compare_eq_lt
    exact hNum.trans ⟨.int, fun h => by cases h with | int h => exact h⟩
  | name a b =>
    exact Name.compare_eq_lt_iff.trans ⟨.name, fun h => by cases h with | name h => exact h⟩
  | names as bs =>
    have hLex : compare as bs = .lt ↔ List.Lex Name.Precedes as bs :=
      compareLex_eq_lt_iff fun _ _ => Name.compare_eq_lt_iff
    exact hLex.trans ⟨.names, fun h => by cases h with | names h => exact h⟩
  | type t u =>
    have hType : cmpTy t u = .lt ↔ R t u := hTy t List.mem_cons_self u
    exact hType.trans ⟨.type, fun h => by cases h with | type h => exact h⟩
  | types ts us =>
    have hLex : List.compareLex cmpTy ts us = .lt ↔ List.Lex R ts us :=
      compareLex_eq_lt_iff fun p hp => hTy p.1 (List.of_mem_zip hp).1 p.2
    exact hLex.trans ⟨.types, fun h => by cases h with | types h => exact h⟩
  | expr e d =>
    have hOperand : cmpExpr e d = .lt ↔ S e d := hExpr e List.mem_cons_self d
    exact hOperand.trans ⟨.expr, fun h => by cases h with | expr h => exact h⟩
  | optExpr x y =>
    -- nothing precedes an absent expression, and it precedes every other
    rcases x with _ | e <;> rcases y with _ | d
    · exact ⟨nofun, nofun⟩
    · exact ⟨fun _ => .absent d, fun _ => rfl⟩
    · exact ⟨nofun, nofun⟩
    · have hOperand : cmpExpr e d = .lt ↔ S e d := hExpr e List.mem_cons_self d
      rw [orderWith, Option.toList_some, Option.toList_some, List.compareLex_cons_cons,
        List.compareLex_nil_nil, Ordering.then_eq, hOperand]
      exact ⟨.present, fun h => by cases h with | present h => exact h⟩
  | exprs es ds =>
    have hLex : List.compareLex cmpExpr es ds = .lt ↔ List.Lex S es ds :=
      compareLex_eq_lt_iff fun p hp => hExpr p.1 (List.of_mem_zip hp).1 p.2
    exact hLex.trans ⟨.exprs, fun h => by cases h with | exprs h => exact h⟩

instance : LawfulEqCmp (Value.orderWith TyTree.order ExprTree.order) :=
  have : TransCmp (Value.orderWith TyTree.order ExprTree.order) := Value.transCmp_orderWith
  { eq_of_compare := Value.eq_of_orderWith (fun _ _ _ => LawfulEqCmp.eq_of_compare)
      (fun _ _ _ => LawfulEqCmp.eq_of_compare) }

/-- Fields of one kind, given that the orders of what they hold decide the rules. -/
theorem Field.orderWith_eq_lt_iff {fs gs : List (Field TyTree ExprTree)}
    (hSlots : fs.map Field.slot = gs.map Field.slot)
    (hTy : ∀ t ∈ fs.flatMap (·.value.heldTypes), ∀ u, t.order u = .lt ↔ t.Precedes u)
    (hExpr : ∀ e ∈ fs.flatMap (·.value.heldExprs), ∀ d, e.order d = .lt ↔ e.Precedes d) :
    Field.orderWith TyTree.order ExprTree.order fs gs = .lt ↔ Field.Precede fs gs := by
  have hValues : Field.orderWith TyTree.order ExprTree.order fs gs =
      List.compareLex (Value.orderWith TyTree.order ExprTree.order)
        (fs.map Field.value) (gs.map Field.value) :=
    compareLex_map Field.value fun _ _ _ _ => rfl
  have hPlaces : List.Forall₂ (fun f g => f.slot = g.slot) fs gs := by
    have hEq := List.forall₂_eq_eq_eq.symm ▸ hSlots
    rwa [List.forall₂_map_left_iff, List.forall₂_map_right_iff] at hEq
  rw [hValues]
  apply compareLex_eq_lt_iff
  intro p hp
  rw [List.zip_map, List.mem_map] at hp
  obtain ⟨⟨f, g⟩, hfg, rfl⟩ := hp
  have hf : f ∈ fs := (List.of_mem_zip hfg).1
  have hRank : f.value.rank = g.value.rank := congrArg Prod.snd (List.forall₂_zip hPlaces hfg)
  apply Value.orderWith_eq_lt_iff (Value.sameSort_of_rank hRank)
  · intro t ht
    exact hTy t (List.mem_flatMap_of_mem hf ht)
  · intro e he
    exact hExpr e (List.mem_flatMap_of_mem hf he)

-- ---------------------------------------------------------------------------
-- All rules together
-- ---------------------------------------------------------------------------

/-- The order says `lt` where the rules do, by induction on the size of the left tree. -/
theorem order_eq_lt_iff (n : Nat) :
    (∀ a b : TyTree, sizeOf a < n → (a.order b = .lt ↔ a.Precedes b)) ∧
      (∀ a b : ExprTree, sizeOf a < n → (a.order b = .lt ↔ a.Precedes b)) := by
  induction n with
  | zero => exact ⟨fun _ _ h => (Nat.not_lt_zero _ h).elim, fun _ _ h => (Nat.not_lt_zero _ h).elim⟩
  | succ n ih =>
    obtain ⟨hTy, hExpr⟩ := ih
    refine ⟨?_, ?_⟩
    · rintro ⟨a⟩ ⟨b⟩ hSize
      rw [TyTree.node.sizeOf_spec] at hSize
      have hFields : a.kind = b.kind →
          (Field.orderWith TyTree.order ExprTree.order a.fields b.fields = .lt ↔
            Field.Precede a.fields b.fields) := by
        intro hKind
        apply Field.orderWith_eq_lt_iff (TyShape.slots_eq hKind)
        · intro t ht u
          have : sizeOf t < sizeOf a := TyShape.sizeOf_lt_of_mem_types ht
          exact hTy t u (by omega)
        · intro e he d
          have : sizeOf e < sizeOf a := TyShape.sizeOf_lt_of_mem_exprs he
          exact hExpr e d (by omega)
      rw [TyTree.order_eq_fields, Ordering.then_eq_lt, compare_eq_lt, LawfulEqOrd.compare_eq_iff_eq]
      constructor
      · rintro (hRank | ⟨hRank, hLt⟩)
        · exact .kind (TypeKind.precedes_iff.mpr hRank)
        · have hKind := TypeKind.rank_injective hRank
          exact .contents hKind ((hFields hKind).mp hLt)
      · intro h
        cases h with
        | kind h => exact .inl (TypeKind.precedes_iff.mp h)
        | contents hKind h => exact .inr ⟨congrArg TypeKind.rank hKind, (hFields hKind).mpr h⟩
    · rintro ⟨t, a⟩ ⟨u, b⟩ hSize
      rw [ExprTree.node.sizeOf_spec] at hSize
      have hType : t.order u = .lt ↔ t.Precedes u := hTy t u (by omega)
      have hFields : a.kind = b.kind →
          (Field.orderWith TyTree.order ExprTree.order a.fields b.fields = .lt ↔
            Field.Precede a.fields b.fields) := by
        intro hKind
        apply Field.orderWith_eq_lt_iff (ExprShape.slots_eq hKind)
        · intro t ht
          rw [ExprShape.flatMap_heldTypes] at ht
          cases ht
        · intro e he d
          rw [ExprShape.flatMap_heldExprs] at he
          have := ExprShape.sizeOf_lt_of_mem_operands he
          exact hExpr e d (by omega)
      rw [ExprTree.order_eq_fields, Ordering.then_eq_lt, Ordering.then_eq_lt, compare_eq_lt,
        LawfulEqOrd.compare_eq_iff_eq, LawfulEqCmp.compare_eq_iff_eq, hType]
      constructor
      · rintro (hRank | ⟨hRank, hLt | ⟨rfl, hLt⟩⟩)
        · exact .kind t u (ExprKind.precedes_iff.mpr hRank)
        · exact .type (ExprKind.rank_injective hRank) hLt
        · have hKind := ExprKind.rank_injective hRank
          exact .contents t hKind ((hFields hKind).mp hLt)
      · intro h
        cases h with
        | kind t u h => exact .inl (ExprKind.precedes_iff.mp h)
        | type hKind h => exact .inr ⟨congrArg ExprKind.rank hKind, .inl h⟩
        | contents t hKind h =>
          exact .inr ⟨congrArg ExprKind.rank hKind, .inr ⟨rfl, (hFields hKind).mpr h⟩⟩

theorem TyTree.order_eq_lt {a b : TyTree} : a.order b = .lt ↔ a.Precedes b :=
  (order_eq_lt_iff (sizeOf a + 1)).1 a b (by omega)

theorem ExprTree.order_eq_lt {a b : ExprTree} : a.order b = .lt ↔ a.Precedes b :=
  (order_eq_lt_iff (sizeOf a + 1)).2 a b (by omega)

-- ---------------------------------------------------------------------------
-- Nodes in use
-- ---------------------------------------------------------------------------

/-- Among the elements of `S`, a comparison decides when views precede one another by `R`. -/
structure DecidesOn {α β : Type} (S : α → Prop) (view : α → β) (R : β → β → Prop)
    (cmp : α → α → Ordering) : Prop where
  lt_iff : ∀ a b, S a → S b → (cmp a b = .lt ↔ R (view a) (view b))
  eq_iff : ∀ a b, S a → S b → (cmp a b = .eq ↔ view a = view b)
  gt_iff : ∀ a b, S a → S b → (cmp a b = .gt ↔ R (view b) (view a))

theorem DecidesOn.of_view {α β : Type} {S : α → Prop} {view : α → β} {R : β → β → Prop}
    {cmp : α → α → Ordering} (order : β → β → Ordering) [TransCmp order] [LawfulEqCmp order]
    (hOrder : ∀ x y, order x y = .lt ↔ R x y)
    (hCmp : ∀ a b, S a → S b → cmp a b = order (view a) (view b)) : DecidesOn S view R cmp where
  lt_iff a b ha hb := by
    rw [hCmp a b ha hb]
    exact hOrder _ _
  eq_iff a b ha hb := by
    rw [hCmp a b ha hb]
    exact LawfulEqCmp.compare_eq_iff_eq
  gt_iff a b ha hb := by
    rw [hCmp a b ha hb, OrientedCmp.gt_iff_lt]
    exact hOrder _ _

variable {h : Hasher} {w : World}

/-- Nodes in use, however they share, compare as their trees do, with no way out where both sides
are one node; and what the comparison says is what the rules say. -/
theorem compare_is_lexicographic (hw : Reached h w) :
    (∀ a b : Ty, w.Occurs (.type a) → w.Occurs (.type b) →
      compare a b = a.tree.order b.tree) ∧
    (∀ a b : Expr, w.Occurs (.expr a) → w.Occurs (.expr b) →
      compare a b = a.tree.order b.tree) ∧
    DecidesOn (fun t => w.Occurs (.type t)) Ty.tree TyTree.Precedes compare ∧
    DecidesOn (fun e => w.Occurs (.expr e)) Expr.tree ExprTree.Precedes compare := by
  have hCoherent := hw.sound.regular.toCoherent
  have hTypes : ∀ a b : Ty, w.Occurs (.type a) → w.Occurs (.type b) →
      compare a b = a.tree.order b.tree := fun a b ha hb => hCoherent.compare_type ha hb
  have hExprs : ∀ a b : Expr, w.Occurs (.expr a) → w.Occurs (.expr b) →
      compare a b = a.tree.order b.tree := fun a b ha hb => hCoherent.compare_expr ha hb
  refine ⟨hTypes, hExprs, ?_, ?_⟩
  · exact .of_view TyTree.order (fun _ _ => TyTree.order_eq_lt) hTypes
  · exact .of_view ExprTree.order (fun _ _ => ExprTree.order_eq_lt) hExprs

/-- A literal of a type that is equal to another and not the same node: the types decide nothing, so
the values do. -/
theorem compare_is_lexicographic_sample :
    let five : Expr := .build .fnv 5 Sample.octet (.constantInt 5)
    let w := Sample.world.perform (.makeExpr Sample.octet (.constantInt 5))
    Reached .fnv w ∧ w.Occurs (.expr Sample.four) ∧ w.Occurs (.expr five) ∧
      Sample.four.type.id ≠ five.type.id ∧ compare Sample.four five = .lt ∧
      compare five Sample.four = .gt ∧ compare Sample.row Sample.byte = .lt := by
  intro five w
  have hReached : Reached .fnv w :=
    Sample.reached.call (by simp [Call.arguments, Sample.world, ExprShape.operands,
      ExprShape.fields, Value.heldExprs])
  have hOld : ∀ n ∈ Sample.world.held, w.Occurs n := fun n hn => .of_held (.tail _ hn)
  have hFive : w.Occurs (.expr five) := .of_held (.head _)
  have hFour : w.Occurs (.expr Sample.four) := hOld _ (by simp [Sample.world])
  have hRow : w.Occurs (.type Sample.row) := hOld _ (by simp [Sample.world])
  have hByte : w.Occurs (.type Sample.byte) := hOld _ (by simp [Sample.world])
  obtain ⟨-, -, hTypes, hExprs⟩ := compare_is_lexicographic hReached
  have hLess : Sample.four.tree.Precedes five.tree :=
    .contents Sample.byte.tree rfl (.rel (.int (by decide)))
  refine ⟨hReached, hFour, hFive, by decide, ?_, ?_, ?_⟩
  · exact (hExprs.lt_iff _ _ hFour hFive).mpr hLess
  · exact (hExprs.gt_iff _ _ hFive hFour).mpr hLess
  · exact (hTypes.lt_iff _ _ hRow hByte).mpr (.kind (TypeKind.precedes_iff.mpr (by decide)))

end TermGraph
