import TermGraph.Proofs.Emission
import TermGraph.Proofs.Sharing

/-!
# Nodes made anew

What a node contains can be made again: first the nodes inside, then, by a call for its kind, the
node around them. Each call repeats the check that the node once passed, on nodes that are equal to
the old ones and not the same. It succeeds (`Reached.makes_node`), and the result has the face of
the original and of its copies, for which nothing was checked and nothing computed.

`World.Made` is the list of the calls: one for each visit of the walk through the result, from the
inside out (`Node.insideOut`).

Main statement: `rebuild_reproduces`.
-/

namespace TermGraph

-- ---------------------------------------------------------------------------
-- Making what a tree describes
-- ---------------------------------------------------------------------------

/-- Calls to a store, one after the other, up to the first that is refused. -/
abbrev Building := ExceptT Rejection (StateM Store)

namespace Building

/-- Asks the store for a type. -/
def makeType (shape : TyShape Ty Expr) : Building Ty :=
  ExceptT.mk fun s => s.makeType shape

/-- Asks the store for an expression. -/
def makeExpr (type : Ty) (shape : ExprShape Expr) : Building Expr :=
  ExceptT.mk fun s => s.makeExpr type shape

/-- Makes what is inside a type, then the type. -/
def type (shape : TyShape (Building Ty) (Building Expr)) : Building Ty := do
  makeType (← shape.traverse id id)

/-- Makes the operands of an expression, then its result type, then the expression. -/
def expr (type : Building Ty) (shape : ExprShape (Building Expr)) : Building Expr := do
  let shape ← shape.traverse id
  makeExpr (← type) shape

end Building

/-- Makes a type with that tree. -/
def TyTree.make : TyTree → Building Ty :=
  TyTree.fold Building.type Building.expr

/-- Makes an expression with that tree. -/
def ExprTree.make : ExprTree → Building Expr :=
  ExprTree.fold Building.type Building.expr

/-- Makes a node with that tree. -/
def Tree.make : Tree → Building Node
  | .type t => Node.type <$> t.make
  | .expr e => Node.expr <$> e.make

/-- Makes a node again, from the inside out. -/
def Store.rebuild (s : Store) (n : Node) : Except Rejection Node × Store :=
  n.tree.make.run.run s

-- The calls for the nodes inside come in the places of these nodes.

theorem TyShape.traverse_map {τ τ' τ'' ε ε' ε'' : Type} {m : Type → Type} [Monad m] [LawfulMonad m]
    (f : τ → τ') (g : ε → ε') (f' : τ' → m τ'') (g' : ε' → m ε'') (s : TyShape τ ε) :
    (s.map f g).traverse f' g' = s.traverse (fun t => f' (f t)) (fun e => g' (g e)) := by
  cases s with
  | array element size infinite => cases size <;> simp [TyShape.map, TyShape.traverse]
  | _ => simp [TyShape.map, TyShape.traverse, List.mapM_map, Function.comp_def]

theorem ExprShape.traverse_map {ε ε' ε'' : Type} {m : Type → Type} [Monad m] [LawfulMonad m]
    (g : ε → ε') (g' : ε' → m ε'') (s : ExprShape ε) :
    (s.map g).traverse g' = s.traverse (fun e => g' (g e)) := by
  cases s <;> simp [ExprShape.map, ExprShape.traverse, List.mapM_map, Function.comp_def]

/-- The calls for a type are the calls for what is inside, in field order, and one more. -/
theorem Ty.make_tree (t : Ty) :
    t.tree.make = t.shape.traverse (·.tree.make) (·.tree.make) >>= Building.makeType := by
  rw [TyTree.make, Ty.tree_eq, TyTree.fold_node, TyShape.map_map, Building.type,
    TyShape.traverse_map]
  rfl

/-- The calls for an expression are those for its operands, those for its result type, and one
more. -/
theorem Expr.make_tree (e : Expr) :
    e.tree.make = e.shape.traverse (·.tree.make) >>= fun shape =>
      e.type.tree.make >>= fun type => Building.makeExpr type shape := by
  rw [ExprTree.make, Expr.tree_eq, ExprTree.fold_node, ExprShape.map_map, Building.expr,
    ExprShape.traverse_map]
  rfl

-- ---------------------------------------------------------------------------
-- Calls that succeed
-- ---------------------------------------------------------------------------

/-- The second world is reached from the first without losing a held node and without a refusal. -/
structure World.Grows (h : Hasher) (w w' : World) : Prop where
  reached : Reached h w'
  held : ∀ n ∈ w.held, n ∈ w'.held
  next : w.store.next ≤ w'.store.next
  events : w'.store.events = w.store.events

/-- The call that makes a node with the contents of this one. -/
def Node.call : Node → Call
  | .type t => .makeType t.shape
  | .expr e => .makeExpr e.type e.shape

/-- The calls for some nodes, in this order, lead from the first world to the second, and each call
hands out its node. -/
inductive World.Made : World → List Node → World → Prop where
  | nil {w : World} : w.Made [] w
  | cons {w w' : World} {n : Node} {ns : List Node}
      (hGives : (w.perform n.call).held = n :: w.held) (hRest : (w.perform n.call).Made ns w') :
      w.Made (n :: ns) w'

/-- The nodes that the walk through a node meets, each after the nodes inside it. -/
def Node.insideOut (n : Node) : List Node :=
  (Visitor.postorder fun _ => false).walk n

/-- What is inside a shape, each node after the nodes inside it. -/
def TyShape.insideOut (s : TyShape Ty Expr) : List Node :=
  (s.fields.flatMap (·.value.nodes)).flatMap Node.insideOut

@[inherit_doc TyShape.insideOut]
def ExprShape.insideOut (s : ExprShape Expr) : List Node :=
  ((s.fields : List (Field Ty Expr)).flatMap (·.value.nodes)).flatMap Node.insideOut

/-- The node itself comes last, after its children in field order. -/
theorem Node.insideOut_eq (n : Node) :
    n.insideOut = n.children.flatMap Node.insideOut ++ [n] :=
  Visitor.walk_postorder _ n

theorem Ty.insideOut_eq (t : Ty) : (Node.type t).insideOut = t.shape.insideOut ++ [.type t] :=
  Node.insideOut_eq _

/-- Operands come first, then the result type, then the expression. -/
theorem Expr.insideOut_eq (e : Expr) :
    (Node.expr e).insideOut = e.shape.insideOut ++ (Node.type e.type).insideOut ++ [.expr e] := by
  rw [Node.insideOut_eq, Node.children, Node.fields, Expr.fields, List.flatMap_append,
    List.flatMap_append]
  simp [ExprShape.insideOut, Expr.ownFields]

variable {h : Hasher} {w w₀ : World}

/-- Nothing happened. -/
theorem Reached.grows (hw : Reached h w) : w.Grows h w :=
  ⟨hw, fun _ => id, Nat.le_refl _, rfl⟩

/-- First to one world and from there to the next. -/
theorem World.Grows.trans {w w' w'' : World} (hFirst : w.Grows h w') (hSecond : w'.Grows h w'') :
    w.Grows h w'' where
  reached := hSecond.reached
  held n hn := hSecond.held n (hFirst.held n hn)
  next := Nat.le_trans hFirst.next hSecond.next
  events := hSecond.events.trans hFirst.events

/-- The calls for some nodes and then the calls for others. -/
theorem World.Made.append {w w' w'' : World} {ms ns : List Node} (hFirst : w.Made ms w')
    (hSecond : w'.Made ns w'') : w.Made (ms ++ ns) w'' := by
  induction hFirst with
  | nil => exact hSecond
  | cons hGives _ ih => exact .cons hGives (ih hSecond)

/-- Every call succeeds, and `Q` holds of the result, of the nodes that were made for it, in order,
and of the world in the end. -/
def Makes {α : Type} (h : Hasher) (w : World) (c : Building α) (Q : α → List Node → World → Prop) :
    Prop :=
  ∃ a made w', c.run.run w.store = (.ok a, w'.store) ∧ w.Grows h w' ∧ w.Made made w' ∧ Q a made w'

namespace Makes

variable {α β : Type} {Q : α → List Node → World → Prop} {Q' : β → List Node → World → Prop}

theorem pure (hw : Reached h w) {a : α} (hQ : Q a [] w) : Makes h w (pure a) Q :=
  ⟨a, [], w, rfl, hw.grows, .nil, hQ⟩

/-- The nodes made by the second part come after those made by the first. -/
theorem bind {c : Building α} {f : α → Building β} (hc : Makes h w c Q)
    (hf : ∀ a made w', w.Grows h w' → Q a made w' →
      Makes h w' (f a) fun b more w'' => Q' b (made ++ more) w'') :
    Makes h w (c >>= f) Q' := by
  obtain ⟨a, made, w', hRun, hGrows, hMade, hQ⟩ := hc
  obtain ⟨b, more, w'', hRun', hGrows', hMade', hQ'⟩ := hf a made w' hGrows hQ
  refine ⟨b, made ++ more, w'', ?_, hGrows.trans hGrows', hMade.append hMade', hQ'⟩
  rw [ExceptT.run_bind, StateT.run_bind, hRun]
  exact hRun'

/-- What is related stays related. -/
def Lasts (h : Hasher) (R : World → α → β → Prop) : Prop :=
  ∀ w w', w.Grows h w' → ∀ y x, R w y x → R w' y x

/-- In each world after `w₀`, the calls for `x` succeed and give something related to `x`, and they
make the nodes in it from the inside out. -/
def Each (h : Hasher) (w₀ : World) (node : α → Node) (R : World → α → β → Prop)
    (make : β → Building α) (x : β) : Prop :=
  ∀ w, w₀.Grows h w →
    Makes h w (make x) fun y made w' => made = (node y).insideOut ∧ R w' y x

/-- The items of a list are made one after the other, and what was made for one lasts. -/
theorem mapM {node : α → Node} {R : World → α → β → Prop} (hR : Lasts h R)
    {make : β → Building α} {xs : List β} (hEach : ∀ x ∈ xs, Each h w₀ node R make x)
    (hw : w₀.Grows h w) :
    Makes h w (xs.mapM make) fun ys made w' =>
      made = (ys.map node).flatMap Node.insideOut ∧ List.Forall₂ (R w') ys xs := by
  induction xs generalizing w with
  | nil => exact .pure hw.reached ⟨rfl, .nil⟩
  | cons x xs ih =>
    obtain ⟨hHead, hTail⟩ := List.forall_mem_cons.mp hEach
    rw [List.mapM_cons]
    refine (hHead w hw).bind ?_
    rintro y _ w' hGrows ⟨rfl, hy⟩
    refine (ih hTail (hw.trans hGrows)).bind ?_
    rintro ys _ w'' hGrows' ⟨rfl, hys⟩
    exact .pure hGrows'.reached ⟨by simp, .cons (hR w' w'' hGrows' y x hy) hys⟩

/-- What may be missing is made if it is there. -/
theorem option {node : α → Node} {R : World → α → β → Prop} {make : β → Building α}
    {x : Option β} (hEach : ∀ b ∈ x, Each h w₀ node R make b) (hw : w₀.Grows h w) :
    Makes h w (x.mapM make) fun y made w' =>
      made = (y.toList.map node).flatMap Node.insideOut ∧ Option.Rel (R w') y x := by
  cases x with
  | none => exact .pure hw.reached ⟨rfl, .none⟩
  | some b =>
    refine (hEach b rfl w hw).bind ?_
    rintro y _ w' hGrows ⟨rfl, hy⟩
    exact .pure hGrows.reached ⟨by simp, .some hy⟩

section Traverse

variable {τ ε : Type} {R : World → Ty → τ → Prop} {S : World → Expr → ε → Prop}
  {f : τ → Building Ty} {g : ε → Building Expr}

/-- If all that goes into the shape of a type can be made, the shape is filled place by place. -/
theorem traverse_type (hR : Lasts h R) {s : TyShape τ ε}
    (hTypes : ∀ t ∈ s.types, Each h w₀ .type R f t)
    (hExprs : ∀ e ∈ s.exprs, Each h w₀ .expr S g e) (hw : w₀.Grows h w) :
    Makes h w (s.traverse f g) fun s' made w' =>
      made = s'.insideOut ∧ s'.Rel (R w') (S w') s := by
  cases s with
  | aggregate form members names name =>
    have hMembers : ∀ t ∈ members, Each h w₀ .type R f t := by
      simpa [TyShape.types, TyShape.fields, Value.heldTypes] using hTypes
    refine (mapM hR hMembers hw).bind ?_
    rintro members' _ w' hGrows ⟨rfl, hRel⟩
    refine .pure hGrows.reached ⟨?_, .aggregate form names name hRel⟩
    simp [TyShape.insideOut, TyShape.fields, Value.nodes, Value.heldTypes, Value.heldExprs]
  | code arguments result names ellipsis =>
    have hArguments : ∀ t ∈ arguments, Each h w₀ .type R f t := fun t ht =>
      hTypes t (by simp [TyShape.types, TyShape.fields, Value.heldTypes, ht])
    have hResult : Each h w₀ .type R f result :=
      hTypes result (by simp [TyShape.types, TyShape.fields, Value.heldTypes])
    refine (mapM hR hArguments hw).bind ?_
    rintro arguments' _ w' hGrows ⟨rfl, hRel⟩
    refine (hResult w' (hw.trans hGrows)).bind ?_
    rintro result' _ w'' hGrows' ⟨rfl, hRel'⟩
    refine .pure hGrows'.reached ⟨?_, .code names ellipsis (hRel.imp (hR w' w'' hGrows')) hRel'⟩
    simp [TyShape.insideOut, TyShape.fields, Value.nodes, Value.heldTypes, Value.heldExprs]
  | array element size infinite =>
    have hElement : Each h w₀ .type R f element :=
      hTypes element (by simp [TyShape.types, TyShape.fields, Value.heldTypes])
    have hSize : ∀ e ∈ size, Each h w₀ .expr S g e := fun e he =>
      hExprs e (by simpa [TyShape.exprs, TyShape.fields, Value.heldExprs] using he)
    refine (hElement w hw).bind ?_
    rintro element' _ w' hGrows ⟨rfl, hRel⟩
    refine (option hSize (hw.trans hGrows)).bind ?_
    rintro size' _ w'' hGrows' ⟨rfl, hRel'⟩
    refine .pure hGrows'.reached ⟨?_, .array infinite (hR w' w'' hGrows' _ _ hRel) hRel'⟩
    simp [TyShape.insideOut, TyShape.fields, Value.nodes, Value.heldTypes, Value.heldExprs]
  | pointer target =>
    have hTarget : Each h w₀ .type R f target :=
      hTypes target (by simp [TyShape.types, TyShape.fields, Value.heldTypes])
    refine (hTarget w hw).bind ?_
    rintro target' _ w' hGrows ⟨rfl, hRel⟩
    exact .pure hGrows.reached ⟨rfl, .pointer hRel⟩
  | cppName name arguments =>
    have hArguments : ∀ t ∈ arguments, Each h w₀ .type R f t := by
      simpa [TyShape.types, TyShape.fields, Value.heldTypes] using hTypes
    refine (mapM hR hArguments hw).bind ?_
    rintro arguments' _ w' hGrows ⟨rfl, hRel⟩
    refine .pure hGrows.reached ⟨?_, .cppName name hRel⟩
    simp [TyShape.insideOut, TyShape.fields, Value.nodes, Value.heldTypes, Value.heldExprs]
  | _ => exact .pure hw.reached ⟨rfl, by constructor⟩

/-- Two operands, one after the other. -/
theorem pair (hS : Lasts h S) {a b : ε} (ha : Each h w₀ .expr S g a) (hb : Each h w₀ .expr S g b)
    (hw : w₀.Grows h w) {k : Expr → Expr → Building β}
    (hk : ∀ a' b' w', w.Grows h w' → S w' a' a → S w' b' b → Makes h w' (k a' b') fun c more w'' =>
      Q' c ((Node.expr a').insideOut ++ ((Node.expr b').insideOut ++ more)) w'') :
    Makes h w (g a >>= fun a' => g b >>= fun b' => k a' b') Q' := by
  refine (ha w hw).bind ?_
  rintro a' _ w' hGrows ⟨rfl, hRel⟩
  refine (hb w' (hw.trans hGrows)).bind ?_
  rintro b' _ w'' hGrows' ⟨rfl, hRel'⟩
  exact hk a' b' w'' (hGrows.trans hGrows') (hS w' w'' hGrows' a' a hRel) hRel'

/-- If all operands can be made, the shape of an expression is filled place by place. -/
theorem traverse_expr (hS : Lasts h S) {s : ExprShape ε}
    (hOperands : ∀ e ∈ s.operands, Each h w₀ .expr S g e) (hw : w₀.Grows h w) :
    Makes h w (s.traverse g) fun s' made w' => made = s'.insideOut ∧ s'.Rel (S w') s := by
  cases s with
  | constantStruct members =>
    have hMembers : ∀ e ∈ members, Each h w₀ .expr S g e := by
      simpa [ExprShape.operands, ExprShape.fields, Value.heldExprs] using hOperands
    refine (mapM hS hMembers hw).bind ?_
    rintro members' _ w' hGrows ⟨rfl, hRel⟩
    refine .pure hGrows.reached ⟨?_, .constantStruct hRel⟩
    simp [ExprShape.insideOut, ExprShape.fields, Value.nodes, Value.heldTypes, Value.heldExprs]
  | constantUnion members initField =>
    have hMembers : ∀ e ∈ members, Each h w₀ .expr S g e := by
      simpa [ExprShape.operands, ExprShape.fields, Value.heldExprs] using hOperands
    refine (mapM hS hMembers hw).bind ?_
    rintro members' _ w' hGrows ⟨rfl, hRel⟩
    refine .pure hGrows.reached ⟨?_, .constantUnion initField hRel⟩
    simp [ExprShape.insideOut, ExprShape.fields, Value.nodes, Value.heldTypes, Value.heldExprs]
  | constantArray members =>
    have hMembers : ∀ e ∈ members, Each h w₀ .expr S g e := by
      simpa [ExprShape.operands, ExprShape.fields, Value.heldExprs] using hOperands
    refine (mapM hS hMembers hw).bind ?_
    rintro members' _ w' hGrows ⟨rfl, hRel⟩
    refine .pure hGrows.reached ⟨?_, .constantArray hRel⟩
    simp [ExprShape.insideOut, ExprShape.fields, Value.nodes, Value.heldTypes, Value.heldExprs]
  | constantArrayOf initializer =>
    have hInitializer : Each h w₀ .expr S g initializer := hOperands initializer (.head _)
    refine (hInitializer w hw).bind ?_
    rintro initializer' _ w' hGrows ⟨rfl, hRel⟩
    exact .pure hGrows.reached ⟨rfl, .constantArrayOf hRel⟩
  | unary op operand =>
    have hOperand : Each h w₀ .expr S g operand := hOperands operand (.head _)
    refine (hOperand w hw).bind ?_
    rintro operand' _ w' hGrows ⟨rfl, hRel⟩
    exact .pure hGrows.reached ⟨rfl, .unary op hRel⟩
  | member source name =>
    have hSource : Each h w₀ .expr S g source := hOperands source (.head _)
    refine (hSource w hw).bind ?_
    rintro source' _ w' hGrows ⟨rfl, hRel⟩
    exact .pure hGrows.reached ⟨rfl, .member name hRel⟩
  | binary op left right =>
    have hLeft : Each h w₀ .expr S g left := hOperands left (.head _)
    have hRight : Each h w₀ .expr S g right := hOperands right (.tail _ (.head _))
    refine pair hS hLeft hRight hw fun left' right' w' hGrows hRel hRel' => ?_
    exact .pure hGrows.reached ⟨rfl, .binary op hRel hRel'⟩
  | index source position =>
    have hSource : Each h w₀ .expr S g source := hOperands source (.head _)
    have hPosition : Each h w₀ .expr S g position := hOperands position (.tail _ (.head _))
    refine pair hS hSource hPosition hw fun source' position' w' hGrows hRel hRel' => ?_
    exact .pure hGrows.reached ⟨rfl, .index hRel hRel'⟩
  | ite cond onTrue onFalse =>
    have hCond : Each h w₀ .expr S g cond := hOperands cond (.head _)
    have hTrue : Each h w₀ .expr S g onTrue := hOperands onTrue (.tail _ (.head _))
    have hFalse : Each h w₀ .expr S g onFalse := hOperands onFalse (.tail _ (.tail _ (.head _)))
    refine pair hS hCond hTrue hw fun cond' onTrue' w' hGrows hRel hRel' => ?_
    refine (hFalse w' (hw.trans hGrows)).bind ?_
    rintro onFalse' _ w'' hGrows' ⟨rfl, hRel''⟩
    have hKept := hS w' w'' hGrows'
    exact .pure hGrows'.reached ⟨rfl, .ite (hKept _ _ hRel) (hKept _ _ hRel') hRel''⟩
  | update source field value =>
    have hSource : Each h w₀ .expr S g source := hOperands source (.head _)
    have hField : Each h w₀ .expr S g field := hOperands field (.tail _ (.head _))
    have hValue : Each h w₀ .expr S g value := hOperands value (.tail _ (.tail _ (.head _)))
    refine pair hS hSource hField hw fun source' field' w' hGrows hRel hRel' => ?_
    refine (hValue w' (hw.trans hGrows)).bind ?_
    rintro value' _ w'' hGrows' ⟨rfl, hRel''⟩
    have hKept := hS w' w'' hGrows'
    exact .pure hGrows'.reached ⟨rfl, .update (hKept _ _ hRel) (hKept _ _ hRel') hRel''⟩
  | _ => exact .pure hw.reached ⟨rfl, by constructor⟩

end Traverse

end Makes

-- ---------------------------------------------------------------------------
-- Making a node again
-- ---------------------------------------------------------------------------

/-- The node `y` is held, has the tree of `x`, and everything in it was made since `w₀`. -/
structure Rebuilt (w₀ w : World) (y x : Node) : Prop where
  held : y ∈ w.held
  tree_eq : y.tree = x.tree
  new : ∀ k ∈ y.visits, w₀.store.next ≤ k.id

/-- A rebuilt type. -/
def Rebuilt.ofType (w₀ w : World) (y x : Ty) : Prop :=
  Rebuilt w₀ w (.type y) (.type x)

/-- A rebuilt expression. -/
def Rebuilt.ofExpr (w₀ w : World) (y x : Expr) : Prop :=
  Rebuilt w₀ w (.expr y) (.expr x)

/-- What was rebuilt stays so. -/
theorem Rebuilt.grows {w w' : World} (hGrows : w.Grows h w') {y x : Node} (hy : Rebuilt w₀ w y x) :
    Rebuilt w₀ w' y x :=
  ⟨hGrows.held y hy.held, hy.tree_eq, hy.new⟩

/-- A node around rebuilt nodes, made later than `w₀`, is rebuilt. -/
theorem Rebuilt.of_children {y x : Node} (hHeld : y ∈ w.held) (hTree : y.tree = x.tree)
    (hId : w₀.store.next ≤ y.id) (hChildren : ∀ c ∈ y.children, ∃ d, Rebuilt w₀ w c d) :
    Rebuilt w₀ w y x := by
  refine ⟨hHeld, hTree, fun k hk => ?_⟩
  rcases Node.mem_visits_iff.mp hk with rfl | ⟨c, hc, hk⟩
  · exact hId
  · obtain ⟨d, hcd⟩ := hChildren c hc
    exact hcd.new k hk

/-- A call that makes a node and hands it to the user. -/
theorem Makes.of_call {α : Type} {Q : α → List Node → World → Prop} (n : Node) (hw : Reached h w)
    {c : Building α} (hArguments : ∀ m ∈ n.call.arguments, m ∈ w.held) {a : α}
    (hRun : c.run.run w.store = (.ok a, { w.store with next := w.store.next + 1 }))
    (hWorld : w.perform n.call =
      { w with store := { w.store with next := w.store.next + 1 } }.hold [n])
    (hQ : ∀ w', w.Grows h w' → n ∈ w'.held → Q a [n] w') : Makes h w c Q := by
  have hReached : Reached h (w.perform n.call) := hw.call hArguments
  have hMade : w.Made [n] (w.perform n.call) := .cons (by rw [hWorld]; rfl) .nil
  rw [hWorld] at hReached hMade
  have hGrows :
      w.Grows h ({ w with store := { w.store with next := w.store.next + 1 } }.hold [n]) :=
    ⟨hReached, fun _ => List.mem_cons_of_mem n, Nat.le_succ _, rfl⟩
  exact ⟨a, [n], _, hRun, hGrows, hMade, hQ _ hGrows List.mem_cons_self⟩

/-- One step for types: what was accepted once is accepted again around rebuilt nodes. -/
theorem Makes.makeType (hw : w₀.Grows h w) {t : Ty} (hLawful : (Node.type t).Lawful)
    {s : TyShape Ty Expr} (hShape : s.Rel (Rebuilt.ofType w₀ w) (Rebuilt.ofExpr w₀ w) t.shape) :
    Makes h w (Building.makeType s) fun y made w' =>
      made = [.type y] ∧ y.shape = s ∧ Rebuilt.ofType w₀ w' y t := by
  have hTypes : ∀ u ∈ s.types, ∃ x, Rebuilt w₀ w (.type u) x :=
    forall₂_left (fun _ _ hu => ⟨_, hu⟩) hShape.types
  have hExprs : ∀ e ∈ s.exprs, ∃ x, Rebuilt w₀ w (.expr e) x :=
    forall₂_left (fun _ _ he => ⟨_, he⟩) hShape.exprs
  have hMap : s.map Ty.tree Expr.tree = t.shape.map Ty.tree Expr.tree :=
    (hShape.imp (fun _ _ hu => Tree.type.inj hu.tree_eq)
      (fun _ _ he => Tree.expr.inj he.tree_eq)).map_eq
  have hCheck : (Ty.check s).outcome = .ok () := by
    rw [Ty.check_iff, hMap, ← Ty.shape_tree]
    exact hLawful
  have hMake : w.store.makeType s = (.ok (.build w.store.hasher w.store.next s),
      { w.store with next := w.store.next + 1 }) :=
    Store.make_of_passes (Ty.tells_check s) hCheck _
  have hWorld : w.perform (.makeType s) =
      { w with store := { w.store with next := w.store.next + 1 } }.hold
        [.type (.build w.store.hasher w.store.next s)] := by
    rw [World.perform, hMake]
    rfl
  refine .of_call (.type (.build w.store.hasher w.store.next s)) hw.reached ?_ hMake hWorld ?_
  · intro n hn
    rcases List.mem_append.mp hn with hn | hn
    · obtain ⟨u, hu, rfl⟩ := List.mem_map.mp hn
      obtain ⟨x, hx⟩ := hTypes u hu
      exact hx.held
    · obtain ⟨e, he, rfl⟩ := List.mem_map.mp hn
      obtain ⟨x, hx⟩ := hExprs e he
      exact hx.held
  · intro w' hGrows hHeld
    refine ⟨rfl, rfl, .of_children hHeld ?_ hw.next ?_⟩
    · rw [Node.tree, Node.tree, Ty.tree_build, hMap, ← Ty.tree_eq]
    · intro c hc
      cases c with
      | type u =>
        obtain ⟨x, hx⟩ := hTypes u (Node.type_mem_children_type.mp hc)
        exact ⟨x, hx.grows hGrows⟩
      | expr e =>
        obtain ⟨x, hx⟩ := hExprs e (Node.expr_mem_children_type.mp hc)
        exact ⟨x, hx.grows hGrows⟩

/-- One step for expressions. -/
theorem Makes.makeExpr (hw : w₀.Grows h w) {e : Expr} (hLawful : (Node.expr e).Lawful) {type : Ty}
    {s : ExprShape Expr} (hType : Rebuilt.ofType w₀ w type e.type)
    (hShape : s.Rel (Rebuilt.ofExpr w₀ w) e.shape) :
    Makes h w (Building.makeExpr type s) fun y made w' =>
      made = [.expr y] ∧ y.type = type ∧ y.shape = s ∧ Rebuilt.ofExpr w₀ w' y e := by
  have hOperands : ∀ d ∈ s.operands, ∃ x, Rebuilt w₀ w (.expr d) x :=
    forall₂_left (fun _ _ hd => ⟨_, hd⟩) hShape.operands
  have hTypeTree : type.tree = e.type.tree := Tree.type.inj hType.tree_eq
  have hMap : s.map Expr.tree = e.shape.map Expr.tree :=
    (hShape.imp fun _ _ hd => Tree.expr.inj hd.tree_eq).map_eq
  have hOccurs : ∀ d ∈ s.operands, w.Occurs (.expr d) := by
    intro d hd
    obtain ⟨x, hx⟩ := hOperands d hd
    exact .of_held hx.held
  have hCheck : (Expr.check type s).outcome = .ok () := by
    rw [hw.reached.sound.regular.check_iff (.of_held hType.held) hOccurs, hMap, hTypeTree,
      ← Expr.shape_tree, ← Expr.type_tree]
    exact hLawful
  have hMake : w.store.makeExpr type s = (.ok (.build w.store.hasher w.store.next type s),
      { w.store with next := w.store.next + 1 }) :=
    Store.make_of_passes (Expr.tells_check type s) hCheck _
  have hWorld : w.perform (.makeExpr type s) =
      { w with store := { w.store with next := w.store.next + 1 } }.hold
        [.expr (.build w.store.hasher w.store.next type s)] := by
    rw [World.perform, hMake]
    rfl
  refine .of_call (.expr (.build w.store.hasher w.store.next type s)) hw.reached ?_ hMake hWorld ?_
  · intro n hn
    rcases List.mem_cons.mp hn with rfl | hn
    · exact hType.held
    · obtain ⟨d, hd, rfl⟩ := List.mem_map.mp hn
      obtain ⟨x, hx⟩ := hOperands d hd
      exact hx.held
  · intro w' hGrows hHeld
    refine ⟨rfl, rfl, rfl, .of_children hHeld ?_ hw.next ?_⟩
    · rw [Node.tree, Node.tree, Expr.tree_build, hMap, hTypeTree, ← Expr.tree_eq]
    · intro c hc
      cases c with
      | type u =>
        cases Node.type_mem_children_expr.mp hc
        exact ⟨_, Rebuilt.grows hGrows hType⟩
      | expr d =>
        obtain ⟨x, hx⟩ := hOperands d (Node.expr_mem_children_expr.mp hc)
        exact ⟨x, hx.grows hGrows⟩

theorem Rebuilt.lasts_ofType : Makes.Lasts h (Rebuilt.ofType w₀) :=
  fun _ _ hGrows _ _ hy => Rebuilt.grows hGrows hy

theorem Rebuilt.lasts_ofExpr : Makes.Lasts h (Rebuilt.ofExpr w₀) :=
  fun _ _ hGrows _ _ hy => Rebuilt.grows hGrows hy

/-- The node can be made again in every world after `w₀`. -/
def MakesAgain (h : Hasher) (w₀ : World) : Node → Prop
  | .type t => Makes.Each h w₀ .type (Rebuilt.ofType w₀) (·.tree.make) t
  | .expr e => Makes.Each h w₀ .expr (Rebuilt.ofExpr w₀) (·.tree.make) e

/-- What is in use can be made again: by induction, first what is inside. -/
theorem Reached.makesAgain (hw₀ : Reached h w₀) {n : Node} (hn : w₀.Occurs n) :
    MakesAgain h w₀ n := by
  induction n using Node.induction_children with
  | step n ih =>
    have hInside : ∀ c ∈ n.children, MakesAgain h w₀ c := fun c hc => ih c hc (hn.child hc)
    have hLawful : n.Lawful := hw₀.sound.regular.lawful n hn
    cases n with
    | type t =>
      have hTypes : ∀ u ∈ t.shape.types, MakesAgain h w₀ (.type u) :=
        fun u hu => hInside (.type u) (Node.type_mem_children_type.mpr hu)
      have hExprs : ∀ e ∈ t.shape.exprs, MakesAgain h w₀ (.expr e) :=
        fun e he => hInside (.expr e) (Node.expr_mem_children_type.mpr he)
      intro w hw
      show Makes h w t.tree.make _
      rw [Ty.make_tree]
      refine (Makes.traverse_type Rebuilt.lasts_ofType hTypes hExprs hw).bind ?_
      rintro s _ w' hGrows ⟨rfl, hShape⟩
      obtain ⟨y, _, w'', hRun, hGrows', hMade, rfl, rfl, hy⟩ :=
        Makes.makeType (hw.trans hGrows) hLawful hShape
      exact ⟨y, _, w'', hRun, hGrows', hMade, y.insideOut_eq.symm, hy⟩
    | expr e =>
      have hOperands : ∀ d ∈ e.operands, MakesAgain h w₀ (.expr d) :=
        fun d hd => hInside (.expr d) (Node.expr_mem_children_expr.mpr hd)
      have hType : MakesAgain h w₀ (.type e.type) :=
        hInside (.type e.type) (Node.type_mem_children_expr.mpr rfl)
      intro w hw
      show Makes h w e.tree.make _
      rw [Expr.make_tree]
      refine (Makes.traverse_expr Rebuilt.lasts_ofExpr hOperands hw).bind ?_
      rintro s _ w' hGrows ⟨rfl, hShape⟩
      refine (hType w' (hw.trans hGrows)).bind ?_
      rintro type _ w'' hGrows' ⟨rfl, hType'⟩
      have hStill := hShape.imp (Rebuilt.lasts_ofExpr w' w'' hGrows')
      obtain ⟨y, _, w''', hRun, hGrows'', hMade, rfl, rfl, rfl, hy⟩ :=
        Makes.makeExpr ((hw.trans hGrows).trans hGrows') hLawful hType' hStill
      refine ⟨y, _, w''', hRun, hGrows'', hMade, ?_, hy⟩
      rw [y.insideOut_eq, List.append_assoc]

/-- A node in use is made again by calls for the visits of the walk through the result. -/
theorem Reached.makes_node (hw : Reached h w) {n : Node} (hn : w.Occurs n) :
    Makes h w n.tree.make fun y made w' => made = y.insideOut ∧ Rebuilt w w' y n := by
  have hAgain := hw.makesAgain hn
  cases n with
  | type t =>
    refine (hAgain w hw.grows).bind ?_
    rintro y _ w' hGrows ⟨rfl, hy⟩
    exact .pure hGrows.reached ⟨List.append_nil _, hy⟩
  | expr e =>
    refine (hAgain w hw.grows).bind ?_
    rintro y _ w' hGrows ⟨rfl, hy⟩
    exact .pure hGrows.reached ⟨List.append_nil _, hy⟩

/-- Making a node in use again takes one call for each node that the walk through the result meets,
from the inside out, and every call succeeds with that node. What comes out is new throughout and
equal to the original, and it has the face of the original and of its copies. -/
theorem rebuild_reproduces (hw : Reached h w) {x : Node} (hx : w.Occurs x) :
    ∃ y w', w.store.rebuild x = (.ok y, w'.store) ∧ w.Grows h w' ∧
      w.Made y.insideOut w' ∧ (∀ k ∈ y.visits, w.store.next ≤ k.id) ∧ w'.Equal y x ∧ y.SameFace x ∧
      ∀ s : Store, y.SameFace (s.copy x).1 := by
  obtain ⟨y, _, w', hRun, hGrows, hMade, rfl, hRebuilt⟩ := hw.makes_node hx
  have hOld : w'.Occurs x := by
    obtain ⟨r, hr, hInside⟩ := hx
    exact ⟨r, hGrows.held r hr, hInside⟩
  have hTwins : Twins w'.Occurs y x := ⟨.of_held hRebuilt.held, hOld, hRebuilt.tree_eq⟩
  have hFace : y.SameFace x := hGrows.reached.sound.regular.sameFace hTwins
  have hEqual : w'.Equal y x := hGrows.reached.equal_iff.mpr hTwins
  refine ⟨y, w', hRun, hGrows, hMade, hRebuilt.new, hEqual, hFace, fun s => ?_⟩
  obtain ⟨hCopied, -⟩ := s.copy_spec x
  exact Node.sameFace_of_tree (hFace.summary.trans hCopied.summary_eq.symm)
    (hRebuilt.tree_eq.trans hCopied.tree_eq.symm)

/-- An array type in which one type is met four times. -/
theorem rebuild_reproduces_sample :
    Sample.world.Occurs (.type Sample.row) ∧
      ∃ y, (Sample.world.store.rebuild (.type Sample.row)).1 = .ok y ∧
        (∀ k ∈ y.visits, 5 ≤ k.id) ∧ (y == .type Sample.row) = true ∧
        y.SameFace (Sample.world.store.copy (.type Sample.row)).1 := by
  obtain ⟨y, w', hRun, -, -, hNew, hEqual, -, hCopy⟩ :=
    rebuild_reproduces Sample.reached Sample.occurs_row
  exact ⟨Sample.occurs_row, y, congrArg Prod.fst hRun, hNew, hEqual.eq, hCopy _⟩

end TermGraph
