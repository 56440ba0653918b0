import TermGraph.Proofs.Canonical
import TermGraph.Proofs.OutlineText
import TermGraph.Proofs.Twins

/-!
# Identity and sharing do not show

Equal nodes may be different nodes, and may share what is inside them in different ways. Only the
question whether two nodes are one can tell. Calls that are passed equal nodes come out equal
(`Regular.makeType_same`, `Regular.makeExpr_same`), whatever store they are made in, and whatever is
asked of a node has the same answer for every node equal to it.

Main statement: `identity_unobservable`.
-/

namespace TermGraph

-- ---------------------------------------------------------------------------
-- Equal nodes
-- ---------------------------------------------------------------------------

instance : BEq Node where
  beq
    | .type a, .type b => a == b
    | .expr a, .expr b => a == b
    | _, _ => false

/-- Two nodes in use that are equal. -/
structure World.Equal (w : World) (m n : Node) : Prop where
  left : w.Occurs m
  right : w.Occurs n
  eq : (m == n) = true

abbrev World.EqualTypes (w : World) (t u : Ty) : Prop :=
  w.Equal (.type t) (.type u)

abbrev World.EqualExprs (w : World) (e d : Expr) : Prop :=
  w.Equal (.expr e) (.expr d)

variable {h : Hasher} {w : World}

/-- In use, to be equal is to have one tree. -/
theorem Reached.equal_iff (hw : Reached h w) {m n : Node} : w.Equal m n ↔ Twins w.Occurs m n := by
  have hBeq : w.Occurs m → w.Occurs n → ((m == n) = true ↔ m.tree = n.tree) := by
    intro hm hn
    cases m <;> cases n
    case type.type a b =>
      exact ((hw.equalityBy .type).beq_iff hm hn).trans ⟨congrArg Tree.type, Tree.type.inj⟩
    case expr.expr a b =>
      exact ((hw.equalityBy .expr).beq_iff hm hn).trans ⟨congrArg Tree.expr, Tree.expr.inj⟩
    all_goals exact ⟨nofun, nofun⟩
  constructor
  · rintro ⟨hm, hn, hEq⟩
    exact ⟨hm, hn, (hBeq hm hn).mp hEq⟩
  · rintro ⟨hm, hn, hTree⟩
    exact ⟨hm, hn, (hBeq hm hn).mpr hTree⟩

-- ---------------------------------------------------------------------------
-- Made from equal nodes
-- ---------------------------------------------------------------------------

/-- Equal, and not only because they happen to have one identity. -/
def Ty.Same (a b : Ty) : Prop :=
  (a == b) = true ∧ a.tree = b.tree

/-- Equal, and not only because they happen to have one identity. -/
def Expr.Same (a b : Expr) : Prop :=
  (a == b) = true ∧ a.tree = b.tree

namespace Regular

variable {P : Node → Prop} (hP : Regular h P)

include hP

theorem build_type_same {s s' : TyShape Ty Expr} (hShape : s.Rel (TyTwins P) (ExprTwins P) s')
    (i i' : Nat) : (Ty.build h i s).Same (Ty.build h i' s') := by
  have hTypes : ∀ t ∈ s.types, P (.type t) := forall₂_left (fun _ _ ht => ht.left) hShape.types
  have hTypes' : ∀ t ∈ s'.types, P (.type t) :=
    forall₂_left (fun _ _ ht => Twins.right ht) hShape.types.flip
  have hExprs : ∀ e ∈ s.exprs, P (.expr e) := forall₂_left (fun _ _ he => he.left) hShape.exprs
  have hExprs' : ∀ e ∈ s'.exprs, P (.expr e) :=
    forall₂_left (fun _ _ he => Twins.right he) hShape.exprs.flip
  have hFaithful := Node.faithful_build_type h i (fun t ht => hP.faithful _ (hTypes t ht))
    (fun e he => hP.faithful _ (hExprs e he))
  have hFaithful' := Node.faithful_build_type h i' (fun t ht => hP.faithful _ (hTypes' t ht))
    (fun e he => hP.faithful _ (hExprs' e he))
  have hTree : (Ty.build h i s).tree = (Ty.build h i' s').tree := by
    rw [Ty.tree_build, Ty.tree_build]
    exact congrArg _ (hShape.imp (fun _ _ ht => Twins.type_tree ht)
      (fun _ _ he => Twins.expr_tree he)).map_eq
  refine ⟨Coherent.shortcuts_of_eq ?_ ?_, hTree⟩
  · rw [beq_iff_eq, Ty.digest_of_faithful hFaithful, Ty.digest_of_faithful hFaithful', hTree]
  · by_cases hId : (Ty.build h i s).id = (Ty.build h i' s').id
    · exact Ty.compare_of_id hId
    · rw [Ty.compare_eq_order hId
        (fun t ht u hu => hP.compare_type (hTypes t ht) (hTypes' u hu))
        (fun e he d hd => hP.compare_expr (hExprs e he) (hExprs' d hd)), hTree]
      exact Std.ReflCmp.compare_self

theorem build_expr_same {type type' : Ty} {s s' : ExprShape Expr} (hType : TyTwins P type type')
    (hShape : s.Rel (ExprTwins P) s') (i i' : Nat) :
    (Expr.build h i type s).Same (Expr.build h i' type' s') := by
  have hOperands : ∀ e ∈ s.operands, P (.expr e) :=
    forall₂_left (fun _ _ he => he.left) hShape.operands
  have hOperands' : ∀ e ∈ s'.operands, P (.expr e) :=
    forall₂_left (fun _ _ he => Twins.right he) hShape.operands.flip
  have hFaithful := Node.faithful_build_expr h i (hP.faithful _ hType.left)
    (fun e he => hP.faithful _ (hOperands e he))
  have hFaithful' := Node.faithful_build_expr h i' (hP.faithful _ hType.right)
    (fun e he => hP.faithful _ (hOperands' e he))
  have hTree : (Expr.build h i type s).tree = (Expr.build h i' type' s').tree := by
    rw [Expr.tree_build, Expr.tree_build, hType.type_tree]
    exact congrArg _ (hShape.imp fun _ _ he => Twins.expr_tree he).map_eq
  refine ⟨Coherent.shortcuts_of_eq ?_ ?_, hTree⟩
  · rw [beq_iff_eq, Expr.digest_of_faithful hFaithful, Expr.digest_of_faithful hFaithful', hTree]
  · by_cases hId : (Expr.build h i type s).id = (Expr.build h i' type' s').id
    · exact Expr.compare_of_id hId
    · rw [Expr.compare_eq_order hId (hP.compare_type hType.left hType.right)
        (fun e he d hd => hP.compare_expr (hOperands e he) (hOperands' d hd)), hTree]
      exact Std.ReflCmp.compare_self

variable {store store' : Store} (hStore : store.hasher = h) (hStore' : store'.hasher = h)

include hStore hStore'

omit hP in
/-- Nodes are made or refused alike where checks come out the same. -/
theorem make_same {α : Type} {R : α → α → Prop} {x y : Check} {build build' : Hasher → Nat → α}
    (hCheck : SameCheck x y) (hBuild : ∀ i i', R (build h i) (build' h i')) :
    SameOutcome R (store.make x build).1 (store'.make y build').1 := by
  rcases hx : x.outcome with r | _ <;> rcases hy : y.outcome with r' | _ <;>
    simp only [SameChecked, hx, hy] at hCheck
  · cases hCheck with
    | refused hEq hMessage =>
      rw [Store.make_of_error hx, Store.make_of_error hy]
      exact .refused hEq hMessage
  · cases hCheck
  · cases hCheck
  · rw [Store.make_of_ok hx, Store.make_of_ok hy, hStore, hStore']
    exact .made (hBuild _ _)

/-- Types are made or refused alike where what is passed are twins. -/
theorem makeType_same {s s' : TyShape Ty Expr} (hShape : s.Rel (TyTwins P) (ExprTwins P) s') :
    SameOutcome Ty.Same (store.makeType s).1 (store'.makeType s').1 :=
  make_same hStore hStore' (hP.check_type_same hShape) (hP.build_type_same hShape)

/-- Expressions are made or refused alike where what is passed are twins. -/
theorem makeExpr_same {type type' : Ty} {s s' : ExprShape Expr} (hType : TyTwins P type type')
    (hShape : s.Rel (ExprTwins P) s') :
    SameOutcome Expr.Same (store.makeExpr type s).1 (store'.makeExpr type' s').1 :=
  make_same hStore hStore' (hP.check_expr_same hType hShape) (hP.build_expr_same hType hShape)

end Regular

-- ---------------------------------------------------------------------------
-- What is written
-- ---------------------------------------------------------------------------

/-- The compact text; expressions have none. -/
def Node.compact? : Node → Option String
  | .type t => some t.compact
  | .expr _ => none

/-- The nodes carry one digest and the same flags, and every text about the one is that about the
other. -/
structure Node.SameFace (m n : Node) : Prop where
  summary : m.summary = n.summary
  compact : m.compact? = n.compact?
  structural : ∀ layout, m.structural layout = n.structural layout
  outline : ∀ level, m.outline level = n.outline level

theorem Node.sameFace_of_tree {m n : Node} (hSummary : m.summary = n.summary)
    (hTree : m.tree = n.tree) : m.SameFace n := by
  refine ⟨hSummary, ?_, fun layout => ?_, fun level => ?_⟩
  · cases m <;> cases n
    case type.type a b => exact congrArg some (Ty.compact_eq_of_tree (Tree.type.inj hTree))
    case expr.expr a b => rfl
    all_goals cases hTree
  · exact (Unfolding.text_eq_iff _ _ _).mpr (Structural.written_eq_of_tree hTree 0)
  · exact (Unfolding.text_eq_iff _ _ _).mpr (Outline.written_eq_of_tree hTree level)

theorem Regular.sameFace {P : Node → Prop} (hP : Regular h P) {m n : Node} (hTwins : Twins P m n) :
    m.SameFace n := by
  have hm : m.summary = m.tree.summary h := hP.faithful m hTwins.left
  have hn : n.summary = n.tree.summary h := hP.faithful n hTwins.right
  exact Node.sameFace_of_tree (by rw [hm, hn, hTwins.tree_eq]) hTwins.tree_eq

-- ---------------------------------------------------------------------------
-- What is visited
-- ---------------------------------------------------------------------------

/-- A visitor does the same at two nodes: it looks inside both or neither, and records related
things. -/
structure Visit.Rel {ω : Type} (R : ω → ω → Prop) (x y : Visit ω) : Prop where
  before : List.Forall₂ R x.before y.before
  descend : x.descend = y.descend
  after : List.Forall₂ R x.after y.after

theorem Coherent.children_twins {P : Node → Prop} (hP : Coherent P) {m n : Node}
    (hTwins : Twins P m n) :
    List.Forall₂ (fun c d => c ∈ m.children ∧ Twins P c d) m.children n.children := by
  have hTrees : m.children.map Node.tree = n.children.map Node.tree := by
    rw [← Node.children_tree, ← Node.children_tree, hTwins.tree_eq]
  refine (forall₂_of_map_eq hTrees).imp ?_
  rintro c d ⟨hc, hd, hTree⟩
  exact ⟨hc, hP.closed m hTwins.left c hc, hP.closed n hTwins.right d hd, hTree⟩

/-- A visitor that does the same at twins records the same on its walks from them. -/
theorem Coherent.walk_rel {P : Node → Prop} (hP : Coherent P) {ω : Type} {R : ω → ω → Prop}
    {v : Visitor ω} (hVisit : ∀ m n, Twins P m n → (v.visit m).Rel R (v.visit n)) {m n : Node}
    (hTwins : Twins P m n) : List.Forall₂ R (v.walk m) (v.walk n) := by
  induction m using Node.induction_children generalizing n with
  | step m ih =>
    have hHere := hVisit m n hTwins
    have hInside : List.Forall₂ R (m.children.flatMap v.walk) (n.children.flatMap v.walk) :=
      List.rel_flatMap (hP.children_twins hTwins) fun c d hcd => ih c hcd.1 hcd.2
    rw [Visitor.walk_eq, Visitor.walk_eq, hHere.descend]
    refine List.rel_append (List.rel_append hHere.before ?_) hHere.after
    split
    · exact hInside
    · exact .nil

-- ---------------------------------------------------------------------------
-- What is asked
-- ---------------------------------------------------------------------------

/-- A table finds the same for elements that look the same. -/
theorem EqualityBy.find?_eq {α β : Type} [BEq α] [Hashable α] {S : α → Prop} {view : α → β}
    (hS : EqualityBy S view) {t : Table α} (ht : ∀ d, ∀ x ∈ t.bucket d, S x) {a b : α} (ha : S a)
    (hb : S b) (hView : view a = view b) : t.find? a = t.find? b := by
  rw [Table.find?_eq, Table.find?_eq, hS.hash_eq ha hb hView]
  exact find?_congr hS (ht _) ha hb hView

/-- Whatever is asked of a node of either category has the same answer for the other. -/
structure World.Alike (w : World) (m n : Node) : Prop extends m.SameFace n where
  fields : List.Forall₂ (Field.Rel w.EqualTypes w.EqualExprs) m.fields n.fields
  walk : ∀ (ω : Type) (R : ω → ω → Prop) (v : Visitor ω),
    (∀ m n, w.Equal m n → (v.visit m).Rel R (v.visit n)) →
      List.Forall₂ R (v.walk m) (v.walk n)

/-- Whatever is asked of a type has the same answer for the other. -/
structure World.AlikeTypes (w : World) (a b : Ty) : Prop extends w.Alike (.type a) (.type b) where
  compare : ∀ c, w.Occurs (.type c) → compare a c = compare b c ∧ compare c a = compare c b
  width : a.width? = b.width?
  subtype : Option.Rel w.EqualTypes a.subtype? b.subtype?
  memberType : ∀ name, Option.Rel w.EqualTypes (a.memberType? name) (b.memberType? name)
  tables : ∀ table ∈ w.tables.types,
    table.contains a = table.contains b ∧ table.find? a = table.find? b

/-- Whatever is asked of an expression has the same answer for the other. -/
structure World.AlikeExprs (w : World) (a b : Expr) : Prop
    extends w.Alike (.expr a) (.expr b) where
  compare : ∀ c, w.Occurs (.expr c) → compare a c = compare b c ∧ compare c a = compare c b
  tables : ∀ table ∈ w.tables.exprs,
    table.contains a = table.contains b ∧ table.find? a = table.find? b

theorem Reached.alike (hw : Reached h w) {m n : Node} (hEqual : w.Equal m n) : w.Alike m n := by
  have hRegular := hw.sound.regular
  have hTwins := hw.equal_iff.mp hEqual
  refine ⟨hRegular.sameFace hTwins, ?_, fun ω R v hVisit => ?_⟩
  · have hTypes : ∀ a b, TyTwins w.Occurs a b → w.EqualTypes a b := fun _ _ => hw.equal_iff.mpr
    have hExprs : ∀ a b, ExprTwins w.Occurs a b → w.EqualExprs a b := fun _ _ => hw.equal_iff.mpr
    cases m <;> cases n
    case type.type a b => exact ((hRegular.twins_shape_type hTwins).imp hTypes hExprs).fields
    case expr.expr a b =>
      have hOwn := ((hRegular.twins_shape_expr hTwins).imp hExprs).fields (R := w.EqualTypes)
      have hType := hTypes _ _ (hRegular.twins_type hTwins)
      exact List.rel_append hOwn (.cons ⟨rfl, .type hType⟩ .nil)
    all_goals cases hTwins.tree_eq
  · exact hRegular.walk_rel (fun m n hmn => hVisit m n (hw.equal_iff.mpr hmn)) hTwins

theorem Reached.alikeTypes (hw : Reached h w) {a b : Ty} (hEqual : w.EqualTypes a b) :
    w.AlikeTypes a b := by
  have hRegular := hw.sound.regular
  have hTwins : TyTwins w.Occurs a b := hw.equal_iff.mp hEqual
  have hTree : a.tree = b.tree := hTwins.type_tree
  have hShape := (hRegular.twins_shape_type hTwins).imp (fun _ _ => hw.equal_iff.mpr)
    (fun _ _ => hw.equal_iff.mpr)
  refine ⟨hw.alike hEqual, ?_, Ty.width?_congr hShape, Ty.subtype?_rel hShape,
    Ty.memberType?_rel hShape, ?_⟩
  · intro c hc
    rw [hRegular.compare_type hTwins.left hc, hRegular.compare_type hTwins.right hc,
      hRegular.compare_type hc hTwins.left, hRegular.compare_type hc hTwins.right, hTree]
    exact ⟨rfl, rfl⟩
  · intro table hTable
    have hFind := (hw.equalityBy .type).find?_eq
      (fun d x hx => .of_held (hw.sound.tables .type table hTable d x hx)) hTwins.left hTwins.right
      hTree
    exact ⟨congrArg Option.isSome hFind, hFind⟩

theorem Reached.alikeExprs (hw : Reached h w) {a b : Expr} (hEqual : w.EqualExprs a b) :
    w.AlikeExprs a b := by
  have hRegular := hw.sound.regular
  have hTwins : ExprTwins w.Occurs a b := hw.equal_iff.mp hEqual
  have hTree : a.tree = b.tree := hTwins.expr_tree
  refine ⟨hw.alike hEqual, ?_, ?_⟩
  · intro c hc
    rw [hRegular.compare_expr hTwins.left hc, hRegular.compare_expr hTwins.right hc,
      hRegular.compare_expr hc hTwins.left, hRegular.compare_expr hc hTwins.right, hTree]
    exact ⟨rfl, rfl⟩
  · intro table hTable
    have hFind := (hw.equalityBy .expr).find?_eq
      (fun d x hx => .of_held (hw.sound.tables .expr table hTable d x hx)) hTwins.left hTwins.right
      hTree
    exact ⟨congrArg Option.isSome hFind, hFind⟩

/-- Calls that are passed equal nodes in the same places come out equal, in whatever stores with one
hasher they are made, and equal nodes are alike in all that can be asked. -/
theorem identity_unobservable (hw : Reached h w) :
    (∀ s s' : TyShape Ty Expr, s.Rel w.EqualTypes w.EqualExprs s' →
      ∀ store store' : Store, store.hasher = h → store'.hasher = h →
        SameOutcome Ty.Same (store.makeType s).1 (store'.makeType s').1) ∧
    (∀ (type type' : Ty) (s s' : ExprShape Expr), w.EqualTypes type type' →
      s.Rel w.EqualExprs s' →
      ∀ store store' : Store, store.hasher = h → store'.hasher = h →
        SameOutcome Expr.Same (store.makeExpr type s).1 (store'.makeExpr type' s').1) ∧
    (∀ a b : Ty, w.EqualTypes a b → w.AlikeTypes a b) ∧
    ∀ a b : Expr, w.EqualExprs a b → w.AlikeExprs a b := by
  have hRegular := hw.sound.regular
  refine ⟨?_, ?_, fun _ _ => hw.alikeTypes, fun _ _ => hw.alikeExprs⟩
  · intro s s' hShape store store' hStore hStore'
    refine hRegular.makeType_same hStore hStore' (hShape.imp ?_ ?_)
    · exact fun _ _ => hw.equal_iff.mp
    · exact fun _ _ => hw.equal_iff.mp
  · intro type type' s s' hType hShape store store' hStore hStore'
    refine hRegular.makeExpr_same hStore hStore' (hw.equal_iff.mp hType) (hShape.imp ?_)
    exact fun _ _ => hw.equal_iff.mp

/-- Two types that are equal and not one: pointers to them are equal, a negation is refused with
either as its type, and a walk that stops at some kinds meets equal nodes. -/
theorem identity_unobservable_sample :
    let later : Store := { Sample.world.store with next := 9 }
    let stop : Kind → Bool := fun k => k == .type .array
    let walk := (Visitor.preorder fun n => stop n.kind).walk
    Reached .fnv Sample.world ∧ Sample.byte.id ≠ Sample.octet.id ∧
      Sample.world.EqualTypes Sample.byte Sample.octet ∧
      SameOutcome Ty.Same (Sample.world.store.makeType (.pointer Sample.byte)).1
        (later.makeType (.pointer Sample.octet)).1 ∧
      (∃ r, (Sample.world.store.makeExpr Sample.byte (.unary .not Sample.four)).1 = .error r) ∧
      SameOutcome Expr.Same (Sample.world.store.makeExpr Sample.byte (.unary .not Sample.four)).1
        (later.makeExpr Sample.octet (.unary .not Sample.four)).1 ∧
      List.Forall₂ Sample.world.Equal (walk (.type Sample.byte)) (walk (.type Sample.octet)) := by
  intro later stop walk
  obtain ⟨hTypes, hExprs, hAlike, -⟩ := identity_unobservable Sample.reached
  have hByte : Sample.world.Occurs (.type Sample.byte) := .of_held (by simp [Sample.world])
  have hFour : Sample.world.Occurs (.expr Sample.four) := .of_held (by simp [Sample.world])
  have hEqual : Sample.world.EqualTypes Sample.byte Sample.octet :=
    Sample.reached.equal_iff.mpr ⟨hByte, Sample.occurs_octet, rfl⟩
  have hSelf : Sample.world.EqualExprs Sample.four Sample.four :=
    Sample.reached.equal_iff.mpr ⟨hFour, hFour, rfl⟩
  refine ⟨Sample.reached, by decide, hEqual, ?_, ⟨_, rfl⟩, ?_, ?_⟩
  · exact hTypes _ _ (.pointer hEqual) _ later rfl rfl
  · exact hExprs _ _ _ _ hEqual (.unary .not hSelf) _ later rfl rfl
  · refine (hAlike _ _ hEqual).walk _ _ _ fun m n hmn => ?_
    have hKind : m.kind = n.kind :=
      (Node.tree_eq_iff.mp (Sample.reached.equal_iff.mp hmn).tree_eq).1
    cases m <;> cases n
    case type.type a b => exact ⟨.cons hmn .nil, congrArg (fun k => !stop k) hKind, .nil⟩
    case expr.expr a b => exact ⟨.cons hmn .nil, congrArg (fun k => !stop k) hKind, .nil⟩
    all_goals cases hKind

end TermGraph
