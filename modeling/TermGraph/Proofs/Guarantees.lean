import TermGraph.Proofs.Reach

/-!
# What every run guarantees

Whatever calls the user makes, five things can be relied on. Comparison is a total order in which
equal means equal trees. Equality, for all its shortcuts, is what that order calls equal. An
expression is made if and only if its rule holds. The rules hold at every depth of everything in use.
A copy has the tree of the original and shares nothing, neither with what was there before nor with
itself.

Each is read off the invariant of runs. A small world, reached by five calls, stands beside them: two
of its types are equal without being one node, and one node is met several times inside another.
-/

namespace TermGraph

variable {h : Hasher} {w : World}

-- ---------------------------------------------------------------------------
-- A world to look at
-- ---------------------------------------------------------------------------

namespace Sample

/-- A type of eight bits. -/
def byte : Ty := .build .fnv 0 (.unsignedbv 8)

/-- Equal to `byte`, but made by a call of its own. -/
def octet : Ty := .build .fnv 1 (.unsignedbv 8)

def four : Expr := .build .fnv 2 byte (.constantInt 4)

/-- Meets `four` twice and `byte` three times. -/
def sum : Expr := .build .fnv 3 byte (.binary .add four four)

/-- An array of bytes, with a sum as its size. -/
def row : Ty := .build .fnv 4 (.array byte (some sum) false)

/-- The world in which all these were made. -/
def world : World where
  store := { next := 5 }
  held := [.type row, .expr sum, .expr four, .type octet, .type byte]

/-- The walk of `row` meets `byte` four times and `four` twice. -/
theorem visits_row : (Node.type row).visits =
    [.type row, .type byte, .expr sum, .expr four, .type byte, .expr four, .type byte,
      .type byte] := by
  have hByte : (Node.type byte).visits = [.type byte] := by
    rw [Node.visits_eq]
    rfl
  have hFour : (Node.expr four).visits = [.expr four, .type byte] := by
    rw [Node.visits_eq]
    change _ :: [Node.type byte].flatMap Node.visits = _
    simp [hByte]
  have hSum : (Node.expr sum).visits =
      [.expr sum, .expr four, .type byte, .expr four, .type byte, .type byte] := by
    rw [Node.visits_eq]
    change _ :: [Node.expr four, .expr four, .type byte].flatMap Node.visits = _
    simp [hFour, hByte]
  rw [Node.visits_eq]
  change _ :: [Node.type byte, .expr sum].flatMap Node.visits = _
  simp [hByte, hSum]

/-- Some calls lead there. -/
theorem reached : Reached .fnv world := by
  have hByte := Reached.start (h := .fnv) |>.call (c := .makeType (.unsignedbv 8)) nofun
  have hOctet := hByte.call (c := .makeType (.unsignedbv 8)) nofun
  -- what each of the other calls is passed is held by then
  have hForFour : ∀ n ∈ [Node.type byte], n ∈ [.type octet, .type byte] := by simp
  have hFour := hOctet.call (c := .makeExpr byte (.constantInt 4)) hForFour
  have hForSum : ∀ n ∈ [Node.type byte, .expr four, .expr four],
      n ∈ [.expr four, .type octet, .type byte] := by simp
  have hSum := hFour.call (c := .makeExpr byte (.binary .add four four)) hForSum
  have hForRow : ∀ n ∈ [Node.type byte, .expr sum],
      n ∈ [.expr sum, .expr four, .type octet, .type byte] := by simp
  exact hSum.call (c := .makeType (.array byte (some sum) false)) hForRow

theorem occurs_row : world.Occurs (.type row) :=
  .of_held (.head _)

theorem occurs_octet : world.Occurs (.type octet) :=
  .of_held (by simp [world])

end Sample

-- ---------------------------------------------------------------------------
-- Comparison
-- ---------------------------------------------------------------------------

/-- Among the elements of `S`, a comparison is a total order, and equal are exactly those that look
the same in a view. -/
structure TotalOrderOn {α β : Type} (S : α → Prop) (view : α → β) (cmp : α → α → Ordering) :
    Prop where
  swap : ∀ a b, S a → S b → cmp a b = (cmp b a).swap
  trans : ∀ a b c, S a → S b → S c → cmp a b ≠ .gt → cmp b c ≠ .gt → cmp a c ≠ .gt
  eq_iff : ∀ a b, S a → S b → (cmp a b = .eq ↔ view a = view b)

/-- A comparison that orders views by a lawful order. -/
theorem TotalOrderOn.of_view {α β : Type} {S : α → Prop} {view : α → β} {cmp : α → α → Ordering}
    (order : β → β → Ordering) [Std.TransCmp order] [Std.LawfulEqCmp order]
    (hCmp : ∀ a b, S a → S b → cmp a b = order (view a) (view b)) : TotalOrderOn S view cmp where
  swap a b ha hb := by
    rw [hCmp a b ha hb, hCmp b a hb ha]
    exact Std.OrientedCmp.eq_swap
  trans a b c ha hb hc hab hbc := by
    rw [hCmp a b ha hb] at hab
    rw [hCmp b c hb hc] at hbc
    rw [hCmp a c ha hc]
    exact Ordering.isLE_iff_ne_gt.mp (Std.TransCmp.isLE_trans
      (Ordering.isLE_iff_ne_gt.mpr hab) (Ordering.isLE_iff_ne_gt.mpr hbc))
  eq_iff a b ha hb := by
    rw [hCmp a b ha hb]
    exact Std.LawfulEqCmp.compare_eq_iff_eq

/-- Types in use are totally ordered, and so are expressions; equal are those with one tree. -/
theorem compare_total_order (hw : Reached h w) :
    TotalOrderOn (fun t => w.Occurs (.type t)) Ty.tree compare ∧
      TotalOrderOn (fun e => w.Occurs (.expr e)) Expr.tree compare := by
  have hCoherent := hw.sound.regular.toCoherent
  constructor
  · exact .of_view TyTree.order fun a b ha hb => hCoherent.compare_type ha hb
  · exact .of_view ExprTree.order fun a b ha hb => hCoherent.compare_expr ha hb

theorem compare_total_order_sample :
    Reached .fnv Sample.world ∧ Sample.world.Occurs (.type Sample.row) ∧
      compare Sample.byte Sample.octet = .eq ∧ compare Sample.four Sample.sum ≠ .eq ∧
      compare Sample.row Sample.byte = (compare Sample.byte Sample.row).swap := by
  obtain ⟨hTypes, hExprs⟩ := compare_total_order Sample.reached
  have hByte : Sample.world.Occurs (.type Sample.byte) := .of_held (by simp [Sample.world])
  have hFour : Sample.world.Occurs (.expr Sample.four) := .of_held (by simp [Sample.world])
  have hSum : Sample.world.Occurs (.expr Sample.sum) := .of_held (by simp [Sample.world])
  refine ⟨Sample.reached, Sample.occurs_row, ?_, ?_, hTypes.swap _ _ Sample.occurs_row hByte⟩
  · exact (hTypes.eq_iff _ _ hByte Sample.occurs_octet).mpr rfl
  · intro hEq
    have hTree := (hExprs.eq_iff _ _ hFour hSum).mp hEq
    cases congrArg ExprTree.shape hTree

-- ---------------------------------------------------------------------------
-- Equality
-- ---------------------------------------------------------------------------

/-- Among the elements of `S`, equality is that of a view, and elements that look the same have one
digest. -/
structure EqualityBy {α β : Type} [BEq α] [Hashable α] (S : α → Prop) (view : α → β) : Prop where
  beq_iff : ∀ {a b}, S a → S b → ((a == b) = true ↔ view a = view b)
  hash_eq : ∀ {a b}, S a → S b → view a = view b → hash a = hash b

/-- The digest of an element is computed from its view. -/
theorem EqualityBy.of_digest {α β : Type} [BEq α] [Hashable α] {S : α → Prop} {view : α → β}
    (digest : β → Digest) (hBeq : ∀ {a b}, S a → S b → ((a == b) = true ↔ view a = view b))
    (hDigest : ∀ {a}, S a → hash a = digest (view a)) : EqualityBy S view where
  beq_iff := hBeq
  hash_eq ha hb hView := by rw [hDigest ha, hDigest hb, hView]

/-- Equality of types in use is equality of their trees, and so it is of expressions. -/
theorem Reached.equalityBy (hw : Reached h w) (c : Category) :
    EqualityBy (fun x : c.Carrier => w.Occurs (c.node x)) c.tree := by
  have hRegular := hw.sound.regular
  cases c with
  | type =>
    exact .of_digest (TyTree.digest h) (hRegular.beq_type_iff hRegular.faithful)
      fun ht => Ty.digest_of_faithful (hRegular.faithful _ ht)
  | expr =>
    exact .of_digest (ExprTree.digest h) (hRegular.beq_expr_iff hRegular.faithful)
      fun he => Expr.digest_of_faithful (hRegular.faithful _ he)

/-- Equality of nodes in use says yes if and only if the comparison says `eq`: one identity is never
shared by different trees, and different digests never belong to the same tree, whatever the hasher
is and although a copy keeps the digest of its original. -/
theorem equality_agrees_with_order (hw : Reached h w) :
    (∀ a b : Ty, w.Occurs (.type a) → w.Occurs (.type b) →
      ((a == b) = true ↔ compare a b = .eq) ∧ (compare a b = .eq → a.digest = b.digest)) ∧
    (∀ a b : Expr, w.Occurs (.expr a) → w.Occurs (.expr b) →
      ((a == b) = true ↔ compare a b = .eq) ∧ (compare a b = .eq → a.digest = b.digest)) := by
  have hCoherent := hw.sound.regular.toCoherent
  constructor
  · intro a b ha hb
    have hCompare : compare a b = .eq ↔ a.tree = b.tree := by
      rw [hCoherent.compare_type ha hb]
      exact Std.LawfulEqCmp.compare_eq_iff_eq
    rw [hCompare]
    have hTypes := hw.equalityBy .type
    exact ⟨hTypes.beq_iff ha hb, hTypes.hash_eq ha hb⟩
  · intro a b ha hb
    have hCompare : compare a b = .eq ↔ a.tree = b.tree := by
      rw [hCoherent.compare_expr ha hb]
      exact Std.LawfulEqCmp.compare_eq_iff_eq
    rw [hCompare]
    have hExprs := hw.equalityBy .expr
    exact ⟨hExprs.beq_iff ha hb, hExprs.hash_eq ha hb⟩

/-- A type and its copy: two nodes, one digest. -/
theorem equality_agrees_with_order_sample :
    let w := Sample.world.perform (.copy (.type Sample.row))
    let copy := (Sample.world.store.copyType Sample.row).1
    w.Occurs (.type Sample.row) ∧ w.Occurs (.type copy) ∧ Sample.row.id ≠ copy.id ∧
      (Sample.row == copy) = true ∧ Sample.row.digest = copy.digest := by
  intro w copy
  have hReached : Reached .fnv w := Sample.reached.call (by simp [Call.arguments, Sample.world])
  have hRow : w.Occurs (.type Sample.row) := .of_held (.tail _ (.head _))
  have hCopy : w.Occurs (.type copy) := .of_held (.head _)
  obtain ⟨hCopied, -⟩ := Sample.world.store.copy_spec (.type Sample.row)
  have hFresh : Sample.world.store.next ≤ copy.id :=
    (hCopied.mem_ids (Node.mem_visits_self _)).1
  have hTree : Sample.row.tree = copy.tree := (Tree.type.inj hCopied.tree_eq).symm
  have hEq : compare Sample.row copy = .eq := by
    rw [hReached.sound.regular.toCoherent.compare_type hRow hCopy]
    exact Std.LawfulEqCmp.compare_eq_iff_eq.mpr hTree
  obtain ⟨hIff, hDigest⟩ := (equality_agrees_with_order hReached).1 Sample.row copy hRow hCopy
  exact ⟨hRow, hCopy, Nat.ne_of_lt hFresh, hIff.mpr hEq, hDigest hEq⟩

-- ---------------------------------------------------------------------------
-- Making nodes
-- ---------------------------------------------------------------------------

/-- A node is made if and only if its check passes, and then it is the one that is built next. -/
theorem Store.make_eq_ok {α : Type} {s : Store} {checked : Check} {build : Hasher → Nat → α}
    {a : α} :
    (s.make checked build).1 = .ok a ↔
      checked.outcome = .ok () ∧ a = build s.hasher s.next := by
  cases hOutcome : checked.outcome with
  | error rejection => simp [Store.make_of_error hOutcome]
  | ok _ => simp [Store.make_of_ok hOutcome, eq_comm]

/-- A type is made if and only if its check passes. -/
theorem Store.makeType_eq_ok {s : Store} {shape : TyShape Ty Expr} {t : Ty} :
    (s.makeType shape).1 = .ok t ↔
      (Ty.check shape).outcome = .ok () ∧ t = .build s.hasher s.next shape :=
  Store.make_eq_ok

/-- An expression is made if and only if its check passes. -/
theorem Store.makeExpr_eq_ok {s : Store} {type : Ty} {shape : ExprShape Expr} {e : Expr} :
    (s.makeExpr type shape).1 = .ok e ↔
      (Expr.check type shape).outcome = .ok () ∧ e = .build s.hasher s.next type shape :=
  Store.make_eq_ok

theorem Store.makeType_ok_iff_check (s : Store) (shape : TyShape Ty Expr) :
    (∃ t, (s.makeType shape).1 = .ok t) ↔ (Ty.check shape).outcome = .ok () := by
  simp only [Store.makeType_eq_ok, exists_and_left, exists_eq, and_true]

theorem Store.makeExpr_ok_iff_check (s : Store) (type : Ty) (shape : ExprShape Expr) :
    (∃ e, (s.makeExpr type shape).1 = .ok e) ↔ (Expr.check type shape).outcome = .ok () := by
  simp only [Store.makeExpr_eq_ok, exists_and_left, exists_eq, and_true]

/-- A type that is made holds what it was asked to hold. -/
theorem Store.shape_of_makeType {s : Store} {shape : TyShape Ty Expr} {t : Ty}
    (hMade : (s.makeType shape).1 = .ok t) : t.shape = shape := by
  obtain ⟨-, rfl⟩ := Store.makeType_eq_ok.mp hMade
  rfl

/-- An expression that is made holds what it was asked to hold. -/
theorem Store.contents_of_makeExpr {s : Store} {type : Ty} {shape : ExprShape Expr} {e : Expr}
    (hMade : (s.makeExpr type shape).1 = .ok e) : e.type = type ∧ e.shape = shape := by
  obtain ⟨-, rfl⟩ := Store.makeExpr_eq_ok.mp hMade
  exact ⟨rfl, rfl⟩

/-- An expression is made, of a type in use around operands in use, if and only if its rule holds. -/
theorem makeExpr_accepts_iff_rule (hw : Reached h w) {type : Ty} {shape : ExprShape Expr}
    (hType : w.Occurs (.type type)) (hOperands : ∀ e ∈ shape.operands, w.Occurs (.expr e)) :
    (∃ e, (w.store.makeExpr type shape).1 = .ok e) ↔
      ExprRule type.tree (shape.map Expr.tree) := by
  rw [Store.makeExpr_ok_iff_check]
  exact hw.sound.regular.check_iff hType hOperands

theorem makeExpr_accepts_iff_rule_sample :
    Sample.world.Occurs (.type Sample.octet) ∧
      (∃ e, (Sample.world.store.makeExpr Sample.octet
        (.binary .bitAnd Sample.sum Sample.four)).1 = .ok e) ∧
      ¬ ∃ e, (Sample.world.store.makeExpr Sample.row (.constantInt 4)).1 = .ok e := by
  have hOperands : ∀ e ∈ (ExprShape.binary .bitAnd Sample.sum Sample.four).operands,
      Sample.world.Occurs (.expr e) := by
    intro e he
    change e ∈ [Sample.sum, Sample.four] at he
    exact .of_held (by simpa [Sample.world] using he)
  have hNone : ∀ e ∈ (ExprShape.constantInt 4).operands, Sample.world.Occurs (.expr e) := nofun
  refine ⟨Sample.occurs_octet, ?_, ?_⟩
  · refine (makeExpr_accepts_iff_rule Sample.reached Sample.occurs_octet hOperands).mpr ?_
    exact .bitwise (by decide) (.unsigned 8) rfl rfl
  · rw [makeExpr_accepts_iff_rule Sample.reached Sample.occurs_row hNone]
    intro hRule
    cases ExprRule.constantInt_iff.mp hRule

-- ---------------------------------------------------------------------------
-- Rules at every depth
-- ---------------------------------------------------------------------------

/-- Whatever is inside a node that the user holds, at any depth, satisfies the rule of its kind. -/
theorem lawful_at_every_depth (hw : Reached h w) {m n : Node} (hn : n ∈ w.held)
    (hm : m ∈ n.visits) : m.Lawful :=
  hw.sound.regular.lawful m ⟨n, hn, hm⟩

theorem lawful_at_every_depth_sample :
    .type Sample.row ∈ Sample.world.held ∧ .expr Sample.four ∈ (Node.type Sample.row).visits ∧
      (Node.expr Sample.four).Lawful := by
  have hHeld : .type Sample.row ∈ Sample.world.held := by simp [Sample.world]
  have hInside : .expr Sample.four ∈ (Node.type Sample.row).visits := by
    rw [Sample.visits_row]
    simp
  exact ⟨hHeld, hInside, lawful_at_every_depth Sample.reached hHeld hInside⟩

-- ---------------------------------------------------------------------------
-- Copies
-- ---------------------------------------------------------------------------

/-- A walk that meets no identity twice reaches as many nodes as it makes visits. -/
theorem Node.size_reachable {n : Node} (hNodup : (n.visits.map Node.id).Nodup) :
    n.reachable.size = n.visits.length := by
  rw [Node.reachable, Std.HashSet.size_ofList, List.length_map]
  exact hNodup.imp fun hNe => by simpa using hNe

/-- A copy has the tree of what it copies. No node in it was there before, so that it shares none
with any node in use, and none is reached twice: there are as many as the walk of the original makes
visits. -/
theorem copy_shares_nothing (hw : Reached h w) (n : Node) :
    let m := (w.store.copy n).1
    m.tree = n.tree ∧
      (∀ k ∈ m.visits, w.store.next ≤ k.id ∧ ∀ r, w.Occurs r → r.id ≠ k.id) ∧
      (m.visits.map Node.id).Nodup ∧ m.reachable.size = n.visits.length := by
  obtain ⟨hCopied, -⟩ := w.store.copy_spec n
  refine ⟨hCopied.tree_eq, ?_, hCopied.nodup_ids, ?_⟩
  · intro k hk
    have hFresh : w.store.next ≤ k.id := (hCopied.mem_ids hk).1
    refine ⟨hFresh, fun r hr => ?_⟩
    exact Nat.ne_of_lt (Nat.lt_of_lt_of_le (hw.sound.below r hr) hFresh)
  · rw [Node.size_reachable hCopied.nodup_ids, hCopied.length_visits]

theorem copy_shares_nothing_sample :
    ¬ ((Node.type Sample.row).visits.map Node.id).Nodup ∧
      ((Sample.world.store.copy (.type Sample.row)).1.visits.map Node.id).Nodup ∧
      (Sample.world.store.copy (.type Sample.row)).1.reachable.size = 8 := by
  obtain ⟨-, -, hNodup, hSize⟩ := copy_shares_nothing Sample.reached (.type Sample.row)
  rw [Sample.visits_row] at hSize ⊢
  exact ⟨by decide, hNodup, hSize⟩

end TermGraph
