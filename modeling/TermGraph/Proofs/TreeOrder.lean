import TermGraph.Proofs.Tree

/-!
# The order of trees

The order that nodes are documented to have, written out kind by kind and with no shortcut: types
compare by kind, then by their contents in field order; expressions by kind, then by result type,
then by their contents. The main results are that it is a total order on trees which tells any two
different trees apart (the instances of `Std.TransCmp` and `Std.LawfulEqCmp` at the end), and that
it reads nothing but the field table (`TyTree.order_eq_fields`, `ExprTree.order_eq_fields`).

The order calls itself on what is inside, through two categories and through lists, so its laws are
proved for `TyTree.orderUpTo n`, which looks only `n` levels deep and is a plain recursion on `n`.
Deep enough, the two agree.
-/

namespace TermGraph

open Std

-- ---------------------------------------------------------------------------
-- The order, kind by kind
-- ---------------------------------------------------------------------------

mutual

/-- Types compare by kind, then by their contents. -/
def TyTree.order : TyTree → TyTree → Ordering
  | .node a, .node b => (compare a.kind.rank b.kind.rank).then (TyTree.orderShape a b)
termination_by structural a => a

/-- The contents of two types of one kind: the first difference decides. -/
def TyTree.orderShape : TyShape TyTree ExprTree → TyShape TyTree ExprTree → Ordering
  | .symbol a, .symbol b => compare a b
  | .aggregate _ members names name, .aggregate _ members' names' name' =>
    (TyTree.orderList members members').then ((compare names names').then (compare name name'))
  | .code arguments result names ellipsis, .code arguments' result' names' ellipsis' =>
    (TyTree.orderList arguments arguments').then ((TyTree.order result result').then
      ((compare names names').then (compare ellipsis ellipsis')))
  | .array element size infinite, .array element' size' infinite' =>
    (TyTree.order element element').then ((ExprTree.orderOption size size').then
      (compare infinite infinite'))
  | .pointer target, .pointer target' => TyTree.order target target'
  | .unsignedbv width, .unsignedbv width' => compare width width'
  | .signedbv width, .signedbv width' => compare width width'
  | .fixedbv width bits, .fixedbv width' bits' => (compare width width').then (compare bits bits')
  | .floatbv fraction exponent, .floatbv fraction' exponent' =>
    (compare fraction fraction').then (compare exponent exponent')
  | .string width, .string width' => compare width width'
  | .cppName name arguments, .cppName name' arguments' =>
    (compare name name').then (TyTree.orderList arguments arguments')
  -- nothing to compare, or different kinds, which are ordered already
  | _, _ => .eq
termination_by structural a => a

/-- Lists compare element by element; a proper beginning comes first. -/
def TyTree.orderList : List TyTree → List TyTree → Ordering
  | [], [] => .eq
  | [], _ :: _ => .lt
  | _ :: _, [] => .gt
  | t :: ts, u :: us => (TyTree.order t u).then (TyTree.orderList ts us)
termination_by structural a => a

/-- Expressions compare by kind, then by result type, then by their contents. -/
def ExprTree.order : ExprTree → ExprTree → Ordering
  | .node type a, .node type' b =>
    (compare a.kind.rank b.kind.rank).then ((TyTree.order type type').then
      (ExprTree.orderShape a b))
termination_by structural a => a

/-- The contents of two expressions of one kind: the first difference decides. -/
def ExprTree.orderShape : ExprShape ExprTree → ExprShape ExprTree → Ordering
  | .constantInt a, .constantInt b => compare a b
  | .constantBool a, .constantBool b => compare a b
  | .constantString a, .constantString b => compare a b
  | .constantStruct members, .constantStruct members' => ExprTree.orderList members members'
  | .constantUnion members initField, .constantUnion members' initField' =>
    (ExprTree.orderList members members').then (compare initField initField')
  | .constantArray members, .constantArray members' => ExprTree.orderList members members'
  | .constantArrayOf initializer, .constantArrayOf initializer' =>
    ExprTree.order initializer initializer'
  | .symbol a, .symbol b => compare a b
  | .ite cond onTrue onFalse, .ite cond' onTrue' onFalse' =>
    (ExprTree.order cond cond').then ((ExprTree.order onTrue onTrue').then
      (ExprTree.order onFalse onFalse'))
  -- the operators are equal, because they are part of the kind
  | .binary _ left right, .binary _ left' right' =>
    (ExprTree.order left left').then (ExprTree.order right right')
  | .unary _ operand, .unary _ operand' => ExprTree.order operand operand'
  | .update source field value, .update source' field' value' =>
    (ExprTree.order source source').then ((ExprTree.order field field').then
      (ExprTree.order value value'))
  | .member source name, .member source' name' =>
    (ExprTree.order source source').then (compare name name')
  | .index source position, .index source' position' =>
    (ExprTree.order source source').then (ExprTree.order position position')
  | _, _ => .eq
termination_by structural a => a

/-- An absent expression comes before any present one. -/
def ExprTree.orderOption : Option ExprTree → Option ExprTree → Ordering
  | none, none => .eq
  | none, some _ => .lt
  | some _, none => .gt
  | some e, some e' => ExprTree.order e e'
termination_by structural a => a

/-- Lists compare element by element; a proper beginning comes first. -/
def ExprTree.orderList : List ExprTree → List ExprTree → Ordering
  | [], [] => .eq
  | [], _ :: _ => .lt
  | _ :: _, [] => .gt
  | e :: es, e' :: es' => (ExprTree.order e e').then (ExprTree.orderList es es')
termination_by structural a => a

end

-- ---------------------------------------------------------------------------
-- Names
-- ---------------------------------------------------------------------------

theorem Name.bytes_injective : Function.Injective Name.bytes := by
  rintro ⟨s⟩ ⟨t⟩ h
  have hArray : s.toByteArray = t.toByteArray := by
    apply ByteArray.ext
    exact Array.toList_inj.mp h
  rw [String.toByteArray_inj.mp hArray]

instance : TransOrd Name :=
  inferInstanceAs (TransCmp (compareOn Name.bytes))

instance : LawfulEqOrd Name where
  eq_of_compare h := Name.bytes_injective (LawfulEqOrd.eq_of_compare h)

-- ---------------------------------------------------------------------------
-- Values, part by part
-- ---------------------------------------------------------------------------

section Values

variable {τ ε τ' ε' : Type}

namespace Value

/-- The truth value in a value. -/
def flag : Value τ ε → Bool
  | .bool b => b
  | _ => false

/-- The machine word in a value. -/
def word : Value τ ε → UInt32
  | .uint n => n
  | _ => 0

/-- The whole number in a value. -/
def integer : Value τ ε → Int
  | .int i => i
  | _ => 0

/-- The names in a value. -/
def texts : Value τ ε → List Name
  | .name n => [n]
  | .names ns => ns
  | _ => []

/-- Values of one sort compare by their contents, given how types and expressions compare. -/
def orderWith (cmpTy : τ → τ → Ordering) (cmpExpr : ε → ε → Ordering) :
    Value τ ε → Value τ ε → Ordering
  | .bool a, .bool b => compare a b
  | .uint a, .uint b => compare a b
  | .int a, .int b => compare a b
  | .name a, .name b => compare a b
  | .names a, .names b => compare a b
  | .type a, .type b => cmpTy a b
  | .types a, .types b => List.compareLex cmpTy a b
  | .expr a, .expr b => cmpExpr a b
  | .optExpr a, .optExpr b => List.compareLex cmpExpr a.toList b.toList
  | .exprs a, .exprs b => List.compareLex cmpExpr a b
  | a, b => compare a.rank b.rank

/-- The same order, part by part. All parts but those of a value's own sort are blank, so at most
one of them decides between values of one sort; that it is lexicographic is what makes its laws
come from those of its parts. -/
theorem orderWith_eq_parts (cmpTy : τ → τ → Ordering) (cmpExpr : ε → ε → Ordering) :
    orderWith cmpTy cmpExpr =
      (compareLex (compareOn rank) <| compareLex (compareOn flag) <|
        compareLex (compareOn word) <| compareLex (compareOn integer) <|
        compareLex (compareOn texts) <|
        compareLex (fun v w => List.compareLex cmpTy v.heldTypes w.heldTypes)
          (fun v w => List.compareLex cmpExpr v.heldExprs w.heldExprs)) := by
  funext v w
  cases v <;> cases w <;>
    simp only [orderWith, compareLex, compareOn, rank, flag, word, integer, texts, heldTypes,
      heldExprs, List.compare_cons_cons, List.compareLex_cons_cons,
      List.compareLex_nil_nil, ReflOrd.compare_self, Ordering.eq_then, Ordering.then_eq]
  -- values of different sorts are left, and there the ranks decide
  all_goals rfl

/-- The parts determine the value. -/
theorem eq_of_parts {v w : Value τ ε} (hRank : v.rank = w.rank) (hFlag : v.flag = w.flag)
    (hWord : v.word = w.word) (hInt : v.integer = w.integer) (hTexts : v.texts = w.texts)
    (hTypes : v.heldTypes = w.heldTypes) (hExprs : v.heldExprs = w.heldExprs) : v = w := by
  cases v <;> cases w <;> simp_all [rank, flag, word, integer, texts, heldTypes, heldExprs]
  case optExpr.optExpr a b =>
    cases a <;> cases b <;> simp_all

end Value

/-- Field lists compare value by value; a proper beginning comes first. -/
def Field.orderWith (cmpTy : τ → τ → Ordering) (cmpExpr : ε → ε → Ordering) :
    List (Field τ ε) → List (Field τ ε) → Ordering :=
  List.compareLex fun f g => f.value.orderWith cmpTy cmpExpr g.value

/-- What a comparison sees through `f` is ordered as the original is. -/
theorem transCmp_on {α β : Type} (cmp : β → β → Ordering) [TransCmp cmp] (f : α → β) :
    TransCmp fun a b => cmp (f a) (f b) where
  eq_swap := OrientedCmp.eq_swap
  isLE_trans := TransCmp.isLE_trans

theorem Value.transCmp_orderWith {cmpTy : τ → τ → Ordering} {cmpExpr : ε → ε → Ordering}
    [TransCmp cmpTy] [TransCmp cmpExpr] : TransCmp (Value.orderWith cmpTy cmpExpr) := by
  have hTypes := transCmp_on (List.compareLex cmpTy) (Value.heldTypes (ε := ε))
  have hExprs := transCmp_on (List.compareLex cmpExpr) (Value.heldExprs (τ := τ))
  rw [Value.orderWith_eq_parts]
  infer_instance

theorem Field.transCmp_orderWith {cmpTy : τ → τ → Ordering} {cmpExpr : ε → ε → Ordering}
    [TransCmp cmpTy] [TransCmp cmpExpr] : TransCmp (Field.orderWith cmpTy cmpExpr) := by
  have hValues : TransCmp (Value.orderWith cmpTy cmpExpr) := Value.transCmp_orderWith
  have hFields := transCmp_on (Value.orderWith cmpTy cmpExpr) (Field.value (τ := τ) (ε := ε))
  exact inferInstanceAs (TransCmp (List.compareLex _))

-- Two comparisons that agree on what is inside agree on the whole. This is used twice: to pass from
-- a bounded depth to all depths, and to pass from nodes to their trees.

theorem compareLex_map {α β : Type} {cmp : α → α → Ordering} {cmp' : β → β → Ordering}
    (f : α → β) {xs ys : List α} (h : ∀ x ∈ xs, ∀ y ∈ ys, cmp x y = cmp' (f x) (f y)) :
    List.compareLex cmp xs ys = List.compareLex cmp' (xs.map f) (ys.map f) := by
  induction xs generalizing ys with
  | nil => cases ys <;> rfl
  | cons x xs ih =>
    cases ys with
    | nil => rfl
    | cons y ys =>
      have hRest : ∀ x' ∈ xs, ∀ y' ∈ ys, cmp x' y' = cmp' (f x') (f y') := fun x' hx y' hy =>
        h x' (List.mem_cons_of_mem _ hx) y' (List.mem_cons_of_mem _ hy)
      rw [List.map_cons, List.map_cons, List.compareLex_cons_cons, List.compareLex_cons_cons,
        h x List.mem_cons_self y List.mem_cons_self, ih hRest]

theorem Value.orderWith_map {cmpTy : τ → τ → Ordering} {cmpExpr : ε → ε → Ordering}
    {cmpTy' : τ' → τ' → Ordering} {cmpExpr' : ε' → ε' → Ordering} (f : τ → τ') (g : ε → ε')
    {v w : Value τ ε}
    (hTy : ∀ t ∈ v.heldTypes, ∀ u ∈ w.heldTypes, cmpTy t u = cmpTy' (f t) (f u))
    (hExpr : ∀ e ∈ v.heldExprs, ∀ d ∈ w.heldExprs, cmpExpr e d = cmpExpr' (g e) (g d)) :
    v.orderWith cmpTy cmpExpr w = (v.map f g).orderWith cmpTy' cmpExpr' (w.map f g) := by
  have hRank : ∀ u : Value τ ε, (u.map f g).rank = u.rank := fun u => by cases u <;> rfl
  have hFlag : ∀ u : Value τ ε, (u.map f g).flag = u.flag := fun u => by cases u <;> rfl
  have hWord : ∀ u : Value τ ε, (u.map f g).word = u.word := fun u => by cases u <;> rfl
  have hInt : ∀ u : Value τ ε, (u.map f g).integer = u.integer := fun u => by cases u <;> rfl
  have hTexts : ∀ u : Value τ ε, (u.map f g).texts = u.texts := fun u => by cases u <;> rfl
  simp only [Value.orderWith_eq_parts, compareLex, compareOn, hRank, hFlag, hWord, hInt, hTexts,
    Value.heldTypes_map, Value.heldExprs_map, compareLex_map f hTy, compareLex_map g hExpr]

theorem Field.orderWith_map {cmpTy : τ → τ → Ordering} {cmpExpr : ε → ε → Ordering}
    {cmpTy' : τ' → τ' → Ordering} {cmpExpr' : ε' → ε' → Ordering} (f : τ → τ') (g : ε → ε')
    {as bs : List (Field τ ε)}
    (hTy : ∀ t ∈ as.flatMap (·.value.heldTypes), ∀ u ∈ bs.flatMap (·.value.heldTypes),
      cmpTy t u = cmpTy' (f t) (f u))
    (hExpr : ∀ e ∈ as.flatMap (·.value.heldExprs), ∀ d ∈ bs.flatMap (·.value.heldExprs),
      cmpExpr e d = cmpExpr' (g e) (g d)) :
    Field.orderWith cmpTy cmpExpr as bs =
      Field.orderWith cmpTy' cmpExpr' (as.map (Field.map f g)) (bs.map (Field.map f g)) := by
  apply compareLex_map
  intro a ha b hb
  apply Value.orderWith_map
  · intro t ht u hu
    exact hTy t (List.mem_flatMap_of_mem ha ht) u (List.mem_flatMap_of_mem hb hu)
  · intro e he d hd
    exact hExpr e (List.mem_flatMap_of_mem ha he) d (List.mem_flatMap_of_mem hb hd)

theorem Field.orderWith_congr {cmpTy cmpTy' : τ → τ → Ordering}
    {cmpExpr cmpExpr' : ε → ε → Ordering} {as bs : List (Field τ ε)}
    (hTy : ∀ t ∈ as.flatMap (·.value.heldTypes), ∀ u, cmpTy t u = cmpTy' t u)
    (hExpr : ∀ e ∈ as.flatMap (·.value.heldExprs), ∀ d, cmpExpr e d = cmpExpr' e d) :
    Field.orderWith cmpTy cmpExpr as bs = Field.orderWith cmpTy' cmpExpr' as bs := by
  have hId : ∀ fs : List (Field τ ε), fs.map (Field.map id id) = fs := by
    intro fs
    calc fs.map (Field.map id id) = fs.map id :=
          List.map_congr_left fun f _ => by rw [Field.map, Value.map_id]; rfl
      _ = fs := List.map_id fs
  rw [Field.orderWith_map id id (fun t ht u _ => hTy t ht u) (fun e he d _ => hExpr e he d), hId,
    hId]

-- A comparison that tells elements apart tells lists, values and fields apart.

theorem map_eq_of_compareLex {α β : Type} {cmp : α → α → Ordering} (f : α → β) {xs ys : List α}
    (h : ∀ x ∈ xs, ∀ y, cmp x y = .eq → f x = f y) (hEq : List.compareLex cmp xs ys = .eq) :
    xs.map f = ys.map f := by
  induction xs generalizing ys with
  | nil => rw [List.compareLex_nil_left_eq_eq.mp hEq]
  | cons x xs ih =>
    cases ys with
    | nil => cases hEq
    | cons y ys =>
      rw [List.compareLex_cons_cons, Ordering.then_eq_eq] at hEq
      have hHead := h x List.mem_cons_self y hEq.1
      have hTail := ih (fun x' hx => h x' (List.mem_cons_of_mem _ hx)) hEq.2
      rw [List.map_cons, List.map_cons, hHead, hTail]

theorem Value.eq_of_orderWith {cmpTy : τ → τ → Ordering} {cmpExpr : ε → ε → Ordering}
    {v w : Value τ ε} (hTy : ∀ t ∈ v.heldTypes, ∀ u, cmpTy t u = .eq → t = u)
    (hExpr : ∀ e ∈ v.heldExprs, ∀ d, cmpExpr e d = .eq → e = d)
    (hEq : v.orderWith cmpTy cmpExpr w = .eq) : v = w := by
  rw [Value.orderWith_eq_parts] at hEq
  simp only [compareLex_eq_eq, compareOn, LawfulEqOrd.compare_eq_iff_eq] at hEq
  obtain ⟨hRank, hFlag, hWord, hInt, hTexts, hTypes, hExprs⟩ := hEq
  have hTypes' := map_eq_of_compareLex id hTy hTypes
  have hExprs' := map_eq_of_compareLex id hExpr hExprs
  rw [List.map_id, List.map_id] at hTypes' hExprs'
  exact Value.eq_of_parts hRank hFlag hWord hInt hTexts hTypes' hExprs'

theorem Field.values_eq_of_orderWith {cmpTy : τ → τ → Ordering} {cmpExpr : ε → ε → Ordering}
    {as bs : List (Field τ ε)}
    (hTy : ∀ t ∈ as.flatMap (·.value.heldTypes), ∀ u, cmpTy t u = .eq → t = u)
    (hExpr : ∀ e ∈ as.flatMap (·.value.heldExprs), ∀ d, cmpExpr e d = .eq → e = d)
    (hEq : Field.orderWith cmpTy cmpExpr as bs = .eq) :
    as.map (·.value) = bs.map (·.value) := by
  refine map_eq_of_compareLex _ (fun a ha b hab => ?_) hEq
  apply Value.eq_of_orderWith _ _ hab
  · intro t ht u
    exact hTy t (List.mem_flatMap_of_mem ha ht) u
  · intro e he d
    exact hExpr e (List.mem_flatMap_of_mem ha he) d

end Values

-- ---------------------------------------------------------------------------
-- The order reads the field table
-- ---------------------------------------------------------------------------

theorem TypeKind.getElem?_all_rank (k : TypeKind) : TypeKind.all[k.rank]? = some k := by
  cases k <;> rfl

theorem ExprKind.getElem?_all_rank (k : ExprKind) : ExprKind.all[k.rank]? = some k := by
  cases k with
  | binary op => cases op <;> rfl
  | unary op => cases op <;> rfl
  | _ => rfl

theorem TypeKind.rank_injective : Function.Injective TypeKind.rank := by
  intro k l h
  have hk := TypeKind.getElem?_all_rank k
  rw [h, TypeKind.getElem?_all_rank l] at hk
  exact (Option.some.inj hk).symm

/-- No two kinds share a rank, so the rank tells which operator an expression has. -/
theorem ExprKind.rank_injective : Function.Injective ExprKind.rank := by
  intro k l h
  have hk := ExprKind.getElem?_all_rank k
  rw [h, ExprKind.getElem?_all_rank l] at hk
  exact (Option.some.inj hk).symm

/-- What comes after a verdict matters only where the verdict is `eq`. -/
theorem then_congr {o p q : Ordering} (h : o = .eq → p = q) : o.then p = o.then q := by
  cases o with
  | eq => exact h rfl
  | lt => rfl
  | gt => rfl

theorem TyTree.orderList_eq (ts us : List TyTree) :
    TyTree.orderList ts us = List.compareLex TyTree.order ts us := by
  induction ts generalizing us with
  | nil => cases us <;> rfl
  | cons t ts ih =>
    cases us with
    | nil => rfl
    | cons u us => rw [TyTree.orderList, List.compareLex_cons_cons, ih]

theorem ExprTree.orderList_eq (es ds : List ExprTree) :
    ExprTree.orderList es ds = List.compareLex ExprTree.order es ds := by
  induction es generalizing ds with
  | nil => cases ds <;> rfl
  | cons e es ih =>
    cases ds with
    | nil => rfl
    | cons d ds => rw [ExprTree.orderList, List.compareLex_cons_cons, ih]

theorem ExprTree.orderOption_eq (e d : Option ExprTree) :
    ExprTree.orderOption e d = List.compareLex ExprTree.order e.toList d.toList := by
  cases e <;> cases d <;>
    simp [ExprTree.orderOption, List.compareLex_cons_cons, List.compareLex_nil_cons,
      List.compareLex_cons_nil, List.compareLex_nil_nil]

/-- The order of types compares kinds, then the listed fields. -/
theorem TyTree.order_eq_fields (a b : TyShape TyTree ExprTree) :
    TyTree.order (.node a) (.node b) =
      (compare a.kind.rank b.kind.rank).then
        (Field.orderWith TyTree.order ExprTree.order a.fields b.fields) := by
  rw [TyTree.order]
  apply then_congr
  intro hRank
  have hKind := TypeKind.rank_injective (LawfulEqOrd.eq_of_compare hRank)
  cases a <;> cases b <;>
    simp [TyShape.kind, Form.kind_ne, (Form.kind_ne _ _ _).symm] at hKind <;>
    simp [TyTree.orderShape, TyShape.fields, Field.orderWith, Value.orderWith,
      List.compareLex_cons_cons, List.compareLex_nil_nil, TyTree.orderList_eq,
      ExprTree.orderOption_eq]

/-- The order of expressions compares kinds, then result types, then the listed fields. -/
theorem ExprTree.order_eq_fields (t u : TyTree) (a b : ExprShape ExprTree) :
    ExprTree.order (.node t a) (.node u b) =
      (compare a.kind.rank b.kind.rank).then ((t.order u).then
        (Field.orderWith TyTree.order ExprTree.order a.fields b.fields)) := by
  rw [ExprTree.order]
  apply then_congr
  intro hRank
  apply then_congr
  intro _
  have hKind := ExprKind.rank_injective (LawfulEqOrd.eq_of_compare hRank)
  cases a <;> cases b <;> simp [ExprShape.kind] at hKind <;>
    simp [ExprTree.orderShape, ExprShape.fields, Field.orderWith, Value.orderWith,
      List.compareLex_cons_cons, List.compareLex_nil_nil, ExprTree.orderList_eq]

-- ---------------------------------------------------------------------------
-- The laws of the order
-- ---------------------------------------------------------------------------

mutual

/-- The order of types, blind to what lies more than `n` levels deep. -/
def TyTree.orderUpTo : Nat → TyTree → TyTree → Ordering
  | 0 => fun _ _ => .eq
  | n + 1 => compareLex (compareOn (·.kind.rank)) fun a b =>
    Field.orderWith (TyTree.orderUpTo n) (ExprTree.orderUpTo n) a.shape.fields b.shape.fields

/-- The order of expressions, blind to what lies more than `n` levels deep. -/
def ExprTree.orderUpTo : Nat → ExprTree → ExprTree → Ordering
  | 0 => fun _ _ => .eq
  | n + 1 => compareLex (compareOn (·.kind.rank)) <|
    compareLex (fun a b => TyTree.orderUpTo n a.type b.type) fun a b =>
      Field.orderWith (TyTree.orderUpTo n) (ExprTree.orderUpTo n) a.shape.fields b.shape.fields

end

theorem transCmp_orderUpTo (n : Nat) :
    TransCmp (TyTree.orderUpTo n) ∧ TransCmp (ExprTree.orderUpTo n) := by
  induction n with
  | zero =>
    refine ⟨?_, ?_⟩
    · exact { eq_swap := rfl, isLE_trans := fun _ _ => rfl }
    · exact { eq_swap := rfl, isLE_trans := fun _ _ => rfl }
  | succ n ih =>
    obtain ⟨hTy, hExpr⟩ := ih
    have hFields : TransCmp (Field.orderWith (TyTree.orderUpTo n) (ExprTree.orderUpTo n)) :=
      Field.transCmp_orderWith
    rw [TyTree.orderUpTo, ExprTree.orderUpTo]
    have hTyFields := transCmp_on (Field.orderWith (TyTree.orderUpTo n) (ExprTree.orderUpTo n))
      fun t : TyTree => t.shape.fields
    have hExprFields := transCmp_on (Field.orderWith (TyTree.orderUpTo n) (ExprTree.orderUpTo n))
      fun e : ExprTree => e.shape.fields
    have hExprType := transCmp_on (TyTree.orderUpTo n) ExprTree.type
    exact ⟨inferInstance, inferInstance⟩

/-- Looking deep enough is looking all the way down. -/
theorem orderUpTo_eq_order (n : Nat) :
    (∀ a b : TyTree, sizeOf a < n → TyTree.orderUpTo n a b = a.order b) ∧
      (∀ a b : ExprTree, sizeOf a < n → ExprTree.orderUpTo n a b = a.order b) := by
  induction n with
  | zero => exact ⟨fun _ _ h => (Nat.not_lt_zero _ h).elim, fun _ _ h => (Nat.not_lt_zero _ h).elim⟩
  | succ n ih =>
    obtain ⟨hTy, hExpr⟩ := ih
    refine ⟨?_, ?_⟩
    · rintro ⟨a⟩ ⟨b⟩ hSize
      rw [TyTree.node.sizeOf_spec] at hSize
      rw [TyTree.order_eq_fields, TyTree.orderUpTo]
      apply then_congr
      intro _
      apply Field.orderWith_congr
      · intro t ht u
        have : sizeOf t < sizeOf a := TyShape.sizeOf_lt_of_mem_types ht
        exact hTy t u (by omega)
      · intro e he d
        have : sizeOf e < sizeOf a := TyShape.sizeOf_lt_of_mem_exprs he
        exact hExpr e d (by omega)
    · rintro ⟨t, a⟩ ⟨u, b⟩ hSize
      rw [ExprTree.node.sizeOf_spec] at hSize
      rw [ExprTree.order_eq_fields, ExprTree.orderUpTo]
      apply then_congr
      intro _
      have hType : TyTree.orderUpTo n t u = t.order u := hTy t u (by omega)
      have hOwn : Field.orderWith (TyTree.orderUpTo n) (ExprTree.orderUpTo n) a.fields b.fields =
          Field.orderWith TyTree.order ExprTree.order a.fields b.fields := by
        apply Field.orderWith_congr
        · intro t ht
          rw [ExprShape.flatMap_heldTypes] at ht
          cases ht
        · intro e he d
          rw [ExprShape.flatMap_heldExprs] at he
          have := ExprShape.sizeOf_lt_of_mem_operands he
          exact hExpr e d (by omega)
      rw [← hType, ← hOwn]
      rfl

/-- Types that compare as equal are equal, and so are expressions: the kinds agree, hence the
operators, and then every field. -/
theorem eq_of_order (n : Nat) :
    (∀ a b : TyTree, sizeOf a < n → a.order b = .eq → a = b) ∧
      (∀ a b : ExprTree, sizeOf a < n → a.order b = .eq → a = b) := by
  induction n with
  | zero => exact ⟨fun _ _ h => (Nat.not_lt_zero _ h).elim, fun _ _ h => (Nat.not_lt_zero _ h).elim⟩
  | succ n ih =>
    obtain ⟨hTy, hExpr⟩ := ih
    refine ⟨?_, ?_⟩
    · rintro ⟨a⟩ ⟨b⟩ hSize hEq
      rw [TyTree.node.sizeOf_spec] at hSize
      rw [TyTree.order_eq_fields, Ordering.then_eq_eq] at hEq
      obtain ⟨hRank, hFields⟩ := hEq
      have hKind := TypeKind.rank_injective (LawfulEqOrd.eq_of_compare hRank)
      have hValues := Field.values_eq_of_orderWith (fun t ht u => ?_) (fun e he d => ?_) hFields
      · rw [TyShape.eq_of_fields hKind hValues]
      · have : sizeOf t < sizeOf a := TyShape.sizeOf_lt_of_mem_types ht
        exact hTy t u (by omega)
      · have : sizeOf e < sizeOf a := TyShape.sizeOf_lt_of_mem_exprs he
        exact hExpr e d (by omega)
    · rintro ⟨t, a⟩ ⟨u, b⟩ hSize hEq
      rw [ExprTree.node.sizeOf_spec] at hSize
      rw [ExprTree.order_eq_fields, Ordering.then_eq_eq, Ordering.then_eq_eq] at hEq
      obtain ⟨hRank, hType, hFields⟩ := hEq
      have hKind := ExprKind.rank_injective (LawfulEqOrd.eq_of_compare hRank)
      have hTypes := hTy t u (by omega) hType
      have hValues := Field.values_eq_of_orderWith (fun t ht u => ?_) (fun e he d => ?_) hFields
      · rw [ExprShape.eq_of_fields hKind hValues, hTypes]
      · rw [ExprShape.flatMap_heldTypes] at ht
        cases ht
      · rw [ExprShape.flatMap_heldExprs] at he
        have := ExprShape.sizeOf_lt_of_mem_operands he
        exact hExpr e d (by omega)

instance : TransCmp TyTree.order where
  eq_swap {a b} := by
    have hUpTo := (orderUpTo_eq_order (sizeOf a + sizeOf b + 1)).1
    rw [← hUpTo a b (by omega), ← hUpTo b a (by omega)]
    exact (transCmp_orderUpTo _).1.eq_swap
  isLE_trans {a b c} hab hbc := by
    have hUpTo := (orderUpTo_eq_order (sizeOf a + sizeOf b + 1)).1
    rw [← hUpTo a b (by omega)] at hab
    rw [← hUpTo b c (by omega)] at hbc
    rw [← hUpTo a c (by omega)]
    exact (transCmp_orderUpTo _).1.isLE_trans hab hbc

instance : TransCmp ExprTree.order where
  eq_swap {a b} := by
    have hUpTo := (orderUpTo_eq_order (sizeOf a + sizeOf b + 1)).2
    rw [← hUpTo a b (by omega), ← hUpTo b a (by omega)]
    exact (transCmp_orderUpTo _).2.eq_swap
  isLE_trans {a b c} hab hbc := by
    have hUpTo := (orderUpTo_eq_order (sizeOf a + sizeOf b + 1)).2
    rw [← hUpTo a b (by omega)] at hab
    rw [← hUpTo b c (by omega)] at hbc
    rw [← hUpTo a c (by omega)]
    exact (transCmp_orderUpTo _).2.isLE_trans hab hbc

instance : LawfulEqCmp TyTree.order where
  eq_of_compare {a b} h := (eq_of_order (sizeOf a + 1)).1 a b (by omega) h

instance : LawfulEqCmp ExprTree.order where
  eq_of_compare {a b} h := (eq_of_order (sizeOf a + 1)).2 a b (by omega) h

end TermGraph
