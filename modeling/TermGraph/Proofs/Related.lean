import TermGraph.Proofs.Walk
import TermGraph.Query
import Mathlib.Data.List.Forall2

/-!
# Two fillings of one shape

Shapes are *related* if they agree in all but the nodes inside, and these are related place by
place. Nodes with one tree have related shapes (`Ty.shape_rel`, `Expr.shape_rel`). What is read off
the shapes of two such nodes, field tables and answers to questions alike, is compared with one case
for each kind, and is related place by place again.
-/

namespace TermGraph

variable {τ τ' ε ε' : Type}

-- ---------------------------------------------------------------------------
-- Related shapes
-- ---------------------------------------------------------------------------

/-- The shapes hold types related by `R` and expressions related by `S` in the same places, and
agree in everything else. -/
inductive TyShape.Rel (R : τ → τ' → Prop) (S : ε → ε' → Prop) :
    TyShape τ ε → TyShape τ' ε' → Prop
  | bool : Rel R S .bool .bool
  | empty : Rel R S .empty .empty
  | symbol (name : Name) : Rel R S (.symbol name) (.symbol name)
  | aggregate (form : Form) (names : List Name) (name : Name) {members : List τ}
      {members' : List τ'} (hMembers : List.Forall₂ R members members') :
      Rel R S (.aggregate form members names name) (.aggregate form members' names name)
  | code (names : List Name) (ellipsis : Bool) {arguments : List τ} {arguments' : List τ'}
      {result : τ} {result' : τ'} (hArguments : List.Forall₂ R arguments arguments')
      (hResult : R result result') :
      Rel R S (.code arguments result names ellipsis) (.code arguments' result' names ellipsis)
  | array (infinite : Bool) {element : τ} {element' : τ'} {size : Option ε} {size' : Option ε'}
      (hElement : R element element') (hSize : Option.Rel S size size') :
      Rel R S (.array element size infinite) (.array element' size' infinite)
  | pointer {target : τ} {target' : τ'} (hTarget : R target target') :
      Rel R S (.pointer target) (.pointer target')
  | unsignedbv (width : UInt32) : Rel R S (.unsignedbv width) (.unsignedbv width)
  | signedbv (width : UInt32) : Rel R S (.signedbv width) (.signedbv width)
  | fixedbv (width integerBits : UInt32) :
      Rel R S (.fixedbv width integerBits) (.fixedbv width integerBits)
  | floatbv (fraction exponent : UInt32) :
      Rel R S (.floatbv fraction exponent) (.floatbv fraction exponent)
  | string (width : UInt32) : Rel R S (.string width) (.string width)
  | cppName (name : Name) {arguments : List τ} {arguments' : List τ'}
      (hArguments : List.Forall₂ R arguments arguments') :
      Rel R S (.cppName name arguments) (.cppName name arguments')

/-- The shapes hold expressions related by `S` in the same places, and agree in everything else. -/
inductive ExprShape.Rel (S : ε → ε' → Prop) : ExprShape ε → ExprShape ε' → Prop
  | constantInt (value : Int) : Rel S (.constantInt value) (.constantInt value)
  | constantBool (value : Bool) : Rel S (.constantBool value) (.constantBool value)
  | constantString (value : Name) : Rel S (.constantString value) (.constantString value)
  | constantStruct {members : List ε} {members' : List ε'}
      (hMembers : List.Forall₂ S members members') :
      Rel S (.constantStruct members) (.constantStruct members')
  | constantUnion (initField : Name) {members : List ε} {members' : List ε'}
      (hMembers : List.Forall₂ S members members') :
      Rel S (.constantUnion members initField) (.constantUnion members' initField)
  | constantArray {members : List ε} {members' : List ε'}
      (hMembers : List.Forall₂ S members members') :
      Rel S (.constantArray members) (.constantArray members')
  | constantArrayOf {initializer : ε} {initializer' : ε'}
      (hInitializer : S initializer initializer') :
      Rel S (.constantArrayOf initializer) (.constantArrayOf initializer')
  | symbol (name : Name) : Rel S (.symbol name) (.symbol name)
  | ite {cond onTrue onFalse : ε} {cond' onTrue' onFalse' : ε'} (hCond : S cond cond')
      (hTrue : S onTrue onTrue') (hFalse : S onFalse onFalse') :
      Rel S (.ite cond onTrue onFalse) (.ite cond' onTrue' onFalse')
  | binary (op : BinaryOp) {left right : ε} {left' right' : ε'} (hLeft : S left left')
      (hRight : S right right') : Rel S (.binary op left right) (.binary op left' right')
  | unary (op : UnaryOp) {operand : ε} {operand' : ε'} (hOperand : S operand operand') :
      Rel S (.unary op operand) (.unary op operand')
  | update {source field value : ε} {source' field' value' : ε'} (hSource : S source source')
      (hField : S field field') (hValue : S value value') :
      Rel S (.update source field value) (.update source' field' value')
  | member (name : Name) {source : ε} {source' : ε'} (hSource : S source source') :
      Rel S (.member source name) (.member source' name)
  | index {source position : ε} {source' position' : ε'} (hSource : S source source')
      (hPosition : S position position') : Rel S (.index source position) (.index source' position')

/-- Lists that agree place by place in a view have one list of views. -/
theorem map_eq_of_forall₂ {α : Type} {f : τ → α} {f' : τ' → α} {xs : List τ} {ys : List τ'}
    (h : List.Forall₂ (fun a b => f a = f' b) xs ys) : xs.map f = ys.map f' := by
  rwa [← List.forall₂_eq_eq_eq, List.forall₂_map_left_iff, List.forall₂_map_right_iff]

/-- What the relation says of its left side holds of every member on the left. -/
theorem forall₂_left {α β : Type} {R : α → β → Prop} {p : α → Prop} (hp : ∀ a b, R a b → p a)
    {xs : List α} {ys : List β} (hxy : List.Forall₂ R xs ys) : ∀ x ∈ xs, p x :=
  ((List.forall₂_and_left _ _).mp (hxy.imp fun a b hab => ⟨hp a b hab, hab⟩)).1

/-- To go over to another relation it is enough to look at members. -/
theorem forall₂_imp_mem {α β : Type} {R S : α → β → Prop} {xs : List α} {ys : List β}
    (h : List.Forall₂ R xs ys) (hImp : ∀ x ∈ xs, ∀ y ∈ ys, R x y → S x y) :
    List.Forall₂ S xs ys := by
  refine List.forall₂_iff_zip.mpr ⟨h.length_eq, fun hZip => ?_⟩
  obtain ⟨hx, hy⟩ := List.of_mem_zip hZip
  exact hImp _ hx _ hy (List.forall₂_zip h hZip)

theorem optionRel_imp {α β : Type} {R S : α → β → Prop} (hImp : ∀ a b, R a b → S a b)
    {x : Option α} {y : Option β} (h : Option.Rel R x y) : Option.Rel S x y := by
  cases h with
  | none => exact .none
  | some hR => exact .some (hImp _ _ hR)

section Rel

variable {R R' : τ → τ' → Prop} {S S' : ε → ε' → Prop}

/-- A weaker relation on nodes is a weaker relation on the shapes of types. -/
theorem TyShape.Rel.imp (hTypes : ∀ a b, R a b → R' a b) (hExprs : ∀ a b, S a b → S' a b)
    {s : TyShape τ ε} {s' : TyShape τ' ε'} (h : s.Rel R S s') : s.Rel R' S' s' := by
  cases h with
  | aggregate form names name hMembers => exact .aggregate form names name (hMembers.imp hTypes)
  | code names ellipsis hArguments hResult =>
    exact .code names ellipsis (hArguments.imp hTypes) (hTypes _ _ hResult)
  | array infinite hElement hSize =>
    exact .array infinite (hTypes _ _ hElement) (optionRel_imp hExprs hSize)
  | pointer hTarget => exact .pointer (hTypes _ _ hTarget)
  | cppName name hArguments => exact .cppName name (hArguments.imp hTypes)
  | _ => constructor

/-- A weaker relation on nodes is a weaker relation on the shapes of expressions. -/
theorem ExprShape.Rel.imp (hExprs : ∀ a b, S a b → S' a b) {s : ExprShape ε} {s' : ExprShape ε'}
    (h : s.Rel S s') : s.Rel S' s' := by
  cases h with
  | constantStruct hMembers => exact .constantStruct (hMembers.imp hExprs)
  | constantUnion initField hMembers => exact .constantUnion initField (hMembers.imp hExprs)
  | constantArray hMembers => exact .constantArray (hMembers.imp hExprs)
  | _ => constructor <;> exact hExprs _ _ ‹_›

/-- Related shapes are of one kind. -/
theorem ExprShape.Rel.kind_eq {s : ExprShape ε} {s' : ExprShape ε'} (h : s.Rel S s') :
    s.kind = s'.kind := by
  cases h <;> rfl

/-- What is computed from related nodes fills the shape in the same way. -/
theorem TyShape.Rel.map_eq {α β : Type} {f : τ → α} {f' : τ' → α} {g : ε → β} {g' : ε' → β}
    {s : TyShape τ ε} {s' : TyShape τ' ε'}
    (h : s.Rel (fun a b => f a = f' b) (fun a b => g a = g' b) s') : s.map f g = s'.map f' g' := by
  cases h with
  | aggregate form names name hMembers => rw [TyShape.map, TyShape.map, map_eq_of_forall₂ hMembers]
  | code names ellipsis hArguments hResult =>
    rw [TyShape.map, TyShape.map, map_eq_of_forall₂ hArguments, hResult]
  | array infinite hElement hSize =>
    cases hSize with
    | none => rw [TyShape.map, TyShape.map, hElement, Option.map_none, Option.map_none]
    | some hSize => rw [TyShape.map, TyShape.map, hElement, Option.map_some, Option.map_some, hSize]
  | pointer hTarget => rw [TyShape.map, TyShape.map, hTarget]
  | cppName name hArguments => rw [TyShape.map, TyShape.map, map_eq_of_forall₂ hArguments]
  | _ => rfl

/-- What is computed from related operands fills the shape in the same way. -/
theorem ExprShape.Rel.map_eq {β : Type} {g : ε → β} {g' : ε' → β} {s : ExprShape ε}
    {s' : ExprShape ε'} (h : s.Rel (fun a b => g a = g' b) s') : s.map g = s'.map g' := by
  cases h with
  | constantStruct hMembers => rw [ExprShape.map, ExprShape.map, map_eq_of_forall₂ hMembers]
  | constantUnion initField hMembers =>
    rw [ExprShape.map, ExprShape.map, map_eq_of_forall₂ hMembers]
  | constantArray hMembers => rw [ExprShape.map, ExprShape.map, map_eq_of_forall₂ hMembers]
  | _ => simp_all only [ExprShape.map]

end Rel

-- ---------------------------------------------------------------------------
-- Shapes that look the same in a view
-- ---------------------------------------------------------------------------

section View

variable {α β : Type} {f : τ → α} {g : ε → β}

/-- Lists with one list of views are related place by place, by what they have there. -/
theorem forall₂_of_map_eq {xs ys : List τ} (h : xs.map f = ys.map f) :
    List.Forall₂ (fun x y => x ∈ xs ∧ y ∈ ys ∧ f x = f y) xs ys := by
  have hSame : List.Forall₂ (fun x y => f x = f y) xs ys := by
    rwa [← List.forall₂_eq_eq_eq, List.forall₂_map_left_iff, List.forall₂_map_right_iff] at h
  exact forall₂_imp_mem hSame fun _ hx _ hy hEq => ⟨hx, hy, hEq⟩

/-- Shapes that look the same in a view of their nodes are related by that view. -/
theorem TyShape.rel_of_map_eq {s s' : TyShape τ ε} (h : s.map f g = s'.map f g) :
    s.Rel (fun a b => a ∈ s.types ∧ b ∈ s'.types ∧ f a = f b)
      (fun a b => a ∈ s.exprs ∧ b ∈ s'.exprs ∧ g a = g b) s' := by
  cases s <;> cases s' <;>
    simp only [TyShape.map, reduceCtorEq, TyShape.aggregate.injEq, TyShape.code.injEq,
      TyShape.array.injEq, TyShape.pointer.injEq, TyShape.unsignedbv.injEq, TyShape.signedbv.injEq,
      TyShape.fixedbv.injEq, TyShape.floatbv.injEq, TyShape.string.injEq, TyShape.cppName.injEq,
      TyShape.symbol.injEq] at h
  case aggregate.aggregate =>
    obtain ⟨rfl, hMembers, rfl, rfl⟩ := h
    refine .aggregate _ _ _ ?_
    simpa [TyShape.types, TyShape.fields, Value.heldTypes] using forall₂_of_map_eq hMembers
  case code.code =>
    obtain ⟨hArguments, hResult, rfl, rfl⟩ := h
    refine .code _ _ ((forall₂_of_map_eq hArguments).imp ?_) ?_
    · rintro a b ⟨ha, hb, hSame⟩
      simp [TyShape.types, TyShape.fields, Value.heldTypes, ha, hb, hSame]
    · simp [TyShape.types, TyShape.fields, Value.heldTypes, hResult]
  case array.array size _ _ size' _ =>
    obtain ⟨hElement, hSize, rfl⟩ := h
    refine .array _ ?_ ?_
    · simp [TyShape.types, TyShape.fields, Value.heldTypes, hElement]
    · cases size <;> cases size' <;>
        simp only [Option.map_none, Option.map_some, reduceCtorEq] at hSize
      · exact .none
      · exact .some (by
          simpa [TyShape.exprs, TyShape.fields, Value.heldExprs] using hSize)
  case pointer.pointer =>
    exact .pointer (by simp [TyShape.types, TyShape.fields, Value.heldTypes, h])
  case cppName.cppName =>
    obtain ⟨rfl, hArguments⟩ := h
    refine .cppName _ ?_
    simpa [TyShape.types, TyShape.fields, Value.heldTypes] using forall₂_of_map_eq hArguments
  all_goals
    simp_all only
    constructor

/-- Shapes that look the same in a view of their operands are related by that view. -/
theorem ExprShape.rel_of_map_eq {s s' : ExprShape ε} (h : s.map g = s'.map g) :
    s.Rel (fun a b => a ∈ s.operands ∧ b ∈ s'.operands ∧ g a = g b) s' := by
  cases s <;> cases s' <;> simp only [ExprShape.map, reduceCtorEq, ExprShape.constantInt.injEq,
    ExprShape.constantBool.injEq, ExprShape.constantString.injEq, ExprShape.constantStruct.injEq,
    ExprShape.constantUnion.injEq, ExprShape.constantArray.injEq, ExprShape.constantArrayOf.injEq,
    ExprShape.symbol.injEq, ExprShape.ite.injEq, ExprShape.binary.injEq, ExprShape.unary.injEq,
    ExprShape.update.injEq, ExprShape.member.injEq, ExprShape.index.injEq] at h
  case constantStruct.constantStruct =>
    refine .constantStruct ?_
    simpa [ExprShape.operands, ExprShape.fields, Value.heldExprs] using forall₂_of_map_eq h
  case constantUnion.constantUnion =>
    obtain ⟨hMembers, rfl⟩ := h
    refine .constantUnion _ ?_
    simpa [ExprShape.operands, ExprShape.fields, Value.heldExprs] using forall₂_of_map_eq hMembers
  case constantArray.constantArray =>
    refine .constantArray ?_
    simpa [ExprShape.operands, ExprShape.fields, Value.heldExprs] using forall₂_of_map_eq h
  case binary.binary =>
    obtain ⟨rfl, hLeft, hRight⟩ := h
    refine .binary _ ?_ ?_ <;>
      simp [ExprShape.operands, ExprShape.fields, Value.heldExprs, hLeft, hRight]
  case unary.unary =>
    obtain ⟨rfl, hOperand⟩ := h
    exact .unary _ (by simp [ExprShape.operands, ExprShape.fields, Value.heldExprs, hOperand])
  case member.member =>
    obtain ⟨hSource, rfl⟩ := h
    exact .member _ (by simp [ExprShape.operands, ExprShape.fields, Value.heldExprs, hSource])
  case constantInt.constantInt => exact h ▸ .constantInt _
  case constantBool.constantBool => exact h ▸ .constantBool _
  case constantString.constantString => exact h ▸ .constantString _
  case symbol.symbol => exact h ▸ .symbol _
  all_goals
    constructor <;> simp [ExprShape.operands, ExprShape.fields, Value.heldExprs, h]

end View

/-- Types with one tree have related shapes. -/
theorem Ty.shape_rel {t u : Ty} (h : t.tree = u.tree) :
    t.shape.Rel (fun a b => a ∈ t.shape.types ∧ b ∈ u.shape.types ∧ a.tree = b.tree)
      (fun a b => a ∈ t.shape.exprs ∧ b ∈ u.shape.exprs ∧ a.tree = b.tree) u.shape :=
  TyShape.rel_of_map_eq (by rw [← Ty.shape_tree, ← Ty.shape_tree, h])

/-- Expressions with one tree have related shapes. -/
theorem Expr.shape_rel {e d : Expr} (h : e.tree = d.tree) :
    e.shape.Rel (fun a b => a ∈ e.operands ∧ b ∈ d.operands ∧ a.tree = b.tree) d.shape :=
  ExprShape.rel_of_map_eq (by rw [← Expr.shape_tree, ← Expr.shape_tree, h])

-- ---------------------------------------------------------------------------
-- Fields of related shapes
-- ---------------------------------------------------------------------------

/-- The values are of one sort, hold related nodes in the same places, and agree in everything
else. -/
inductive Value.Rel (R : τ → τ' → Prop) (S : ε → ε' → Prop) : Value τ ε → Value τ' ε' → Prop
  | bool (value : Bool) : Rel R S (.bool value) (.bool value)
  | uint (value : UInt32) : Rel R S (.uint value) (.uint value)
  | int (value : Int) : Rel R S (.int value) (.int value)
  | name (value : Name) : Rel R S (.name value) (.name value)
  | names (values : List Name) : Rel R S (.names values) (.names values)
  | type {t : τ} {u : τ'} (h : R t u) : Rel R S (.type t) (.type u)
  | types {ts : List τ} {us : List τ'} (h : List.Forall₂ R ts us) : Rel R S (.types ts) (.types us)
  | expr {e : ε} {d : ε'} (h : S e d) : Rel R S (.expr e) (.expr d)
  | optExpr {e : Option ε} {d : Option ε'} (h : Option.Rel S e d) :
      Rel R S (.optExpr e) (.optExpr d)
  | exprs {es : List ε} {ds : List ε'} (h : List.Forall₂ S es ds) : Rel R S (.exprs es) (.exprs ds)

/-- The fields have one name and related values. -/
structure Field.Rel (R : τ → τ' → Prop) (S : ε → ε' → Prop) (f : Field τ ε) (f' : Field τ' ε') :
    Prop where
  name : f.name = f'.name
  value : f.value.Rel R S f'.value

section Fields

variable {R R' : τ → τ' → Prop} {S S' : ε → ε' → Prop}

/-- The field tables of related types are related row by row. -/
theorem TyShape.Rel.fields {s : TyShape τ ε} {s' : TyShape τ' ε'} (h : s.Rel R S s') :
    List.Forall₂ (Field.Rel R S) s.fields s'.fields := by
  cases h <;> repeat' constructor
  all_goals assumption

/-- The field tables of related expressions are related row by row. -/
theorem ExprShape.Rel.fields {s : ExprShape ε} {s' : ExprShape ε'} (h : s.Rel S s') :
    List.Forall₂ (Field.Rel R S) s.fields s'.fields := by
  cases h <;> repeat' constructor
  all_goals assumption

/-- Related values hold related types, in order. -/
theorem Value.Rel.heldTypes {v : Value τ ε} {v' : Value τ' ε'} (h : v.Rel R S v') :
    List.Forall₂ R v.heldTypes v'.heldTypes := by
  cases h with
  | type hType => exact .cons hType .nil
  | types hTypes => exact hTypes
  | _ => exact .nil

/-- Related values hold related expressions, in order. -/
theorem Value.Rel.heldExprs {v : Value τ ε} {v' : Value τ' ε'} (h : v.Rel R S v') :
    List.Forall₂ S v.heldExprs v'.heldExprs := by
  cases h with
  | expr hExpr => exact .cons hExpr .nil
  | optExpr hOption =>
    cases hOption with
    | none => exact .nil
    | some hExpr => exact .cons hExpr .nil
  | exprs hExprs => exact hExprs
  | _ => exact .nil

/-- What is related in a value is among what the value holds. -/
theorem Value.Rel.imp_held {v : Value τ ε} {v' : Value τ' ε'} (h : v.Rel R S v')
    (hTypes : ∀ t ∈ v.heldTypes, ∀ t' ∈ v'.heldTypes, R t t' → R' t t')
    (hExprs : ∀ e ∈ v.heldExprs, ∀ e' ∈ v'.heldExprs, S e e' → S' e e') : v.Rel R' S' v' := by
  cases h with
  | type ht => exact .type (hTypes _ List.mem_cons_self _ List.mem_cons_self ht)
  | types hts => exact .types (forall₂_imp_mem hts hTypes)
  | expr he => exact .expr (hExprs _ List.mem_cons_self _ List.mem_cons_self he)
  | exprs hes => exact .exprs (forall₂_imp_mem hes hExprs)
  | optExpr hOption =>
    cases hOption with
    | none => exact .optExpr .none
    | some he => exact .optExpr (.some (hExprs _ List.mem_cons_self _ List.mem_cons_self he))
  | _ => constructor

/-- What is computed from related nodes fills a value in the same way. -/
theorem Value.Rel.map_eq {α β : Type} {f : τ → α} {f' : τ' → α} {g : ε → β} {g' : ε' → β}
    {v : Value τ ε} {v' : Value τ' ε'}
    (h : v.Rel (fun a b => f a = f' b) (fun a b => g a = g' b) v') : v.map f g = v'.map f' g' := by
  cases h with
  | type ht => rw [Value.map, Value.map, ht]
  | types hts => rw [Value.map, Value.map, map_eq_of_forall₂ hts]
  | expr he => rw [Value.map, Value.map, he]
  | exprs hes => rw [Value.map, Value.map, map_eq_of_forall₂ hes]
  | optExpr hOption =>
    cases hOption with
    | none => rfl
    | some he => rw [Value.map, Value.map, Option.map_some, Option.map_some, he]
  | _ => rfl

/-- The types in related shapes are related, in order. -/
theorem TyShape.Rel.types {s : TyShape τ ε} {s' : TyShape τ' ε'} (h : s.Rel R S s') :
    List.Forall₂ R s.types s'.types :=
  List.rel_flatMap h.fields fun _ _ hField => hField.value.heldTypes

/-- The expressions in related shapes are related, in order. -/
theorem TyShape.Rel.exprs {s : TyShape τ ε} {s' : TyShape τ' ε'} (h : s.Rel R S s') :
    List.Forall₂ S s.exprs s'.exprs :=
  List.rel_flatMap h.fields fun _ _ hField => hField.value.heldExprs

/-- The operands of related shapes are related, in order. -/
theorem ExprShape.Rel.operands {s : ExprShape ε} {s' : ExprShape ε'} (h : s.Rel S s') :
    List.Forall₂ S s.operands s'.operands :=
  List.rel_flatMap (h.fields (R := fun _ _ => True)) fun _ _ hField => hField.value.heldExprs

end Fields

-- ---------------------------------------------------------------------------
-- Questions to nodes with related shapes
-- ---------------------------------------------------------------------------

section Questions

variable {R : Ty → Ty → Prop} {S : Expr → Expr → Prop}

/-- Related types have one width, or none. -/
theorem Ty.width?_congr {t u : Ty} (h : t.shape.Rel R S u.shape) : t.width? = u.width? := by
  rw [width?, width?]
  generalize t.shape = s, u.shape = s' at h
  cases h <;> rfl

/-- Related types have related element or target types, or none. -/
theorem Ty.subtype?_rel {t u : Ty} (h : t.shape.Rel R S u.shape) :
    Option.Rel R t.subtype? u.subtype? := by
  rw [subtype?, subtype?]
  generalize t.shape = s, u.shape = s' at h
  cases h <;> constructor <;> assumption

/-- Related types have related members under the same names, or none. -/
theorem Ty.members?_rel {t u : Ty} (h : t.shape.Rel R S u.shape) :
    Option.Rel (fun a b => List.Forall₂ R a.1 b.1 ∧ a.2 = b.2) t.members? u.members? := by
  rw [members?, members?]
  generalize t.shape = s, u.shape = s' at h
  cases h with
  | aggregate form names name hMembers => exact .some ⟨hMembers, rfl⟩
  | _ => exact .none

theorem forall₂_getElem? {xs ys : List Ty} (h : List.Forall₂ R xs ys) (i : Nat) :
    Option.Rel R xs[i]? ys[i]? := by
  induction h generalizing i with
  | nil => exact .none
  | cons hHead _ ih =>
    cases i with
    | zero => exact .some hHead
    | succ i => exact ih i

/-- A name finds related members in related types, or none in both. -/
theorem Ty.memberType?_rel {t u : Ty} (h : t.shape.Rel R S u.shape) (name : Name) :
    Option.Rel R (t.memberType? name) (u.memberType? name) := by
  rw [memberType?, memberType?]
  have hMembers := members?_rel h
  generalize t.members? = x, u.members? = y at hMembers
  cases hMembers with
  | none => exact .none
  | @some a b hBoth =>
    obtain ⟨members, names⟩ := a
    obtain ⟨members', names'⟩ := b
    obtain ⟨hMembers, rfl⟩ := hBoth
    dsimp only [Option.bind_eq_bind, Option.bind_some]
    cases names.findIdx? (· == name) with
    | none => exact .none
    | some i => exact forall₂_getElem? hMembers i

/-- Related expressions are one literal number, or none is a literal. -/
theorem Expr.constantInt?_congr {e d : Expr} (h : e.shape.Rel S d.shape) :
    e.constantInt? = d.constantInt? := by
  rw [constantInt?, constantInt?]
  generalize e.shape = s, d.shape = s' at h
  cases h <;> rfl

/-- Related expressions are one literal string, or none is a literal. -/
theorem Expr.constantString?_congr {e d : Expr} (h : e.shape.Rel S d.shape) :
    e.constantString? = d.constantString? := by
  rw [constantString?, constantString?]
  generalize e.shape = s, d.shape = s' at h
  cases h <;> rfl

end Questions

end TermGraph
