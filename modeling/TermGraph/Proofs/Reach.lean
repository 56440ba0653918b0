import TermGraph.Proofs.Checks
import TermGraph.Proofs.Copy
import TermGraph.Proofs.Tables

/-!
# Runs

A user of the library holds nodes, asks for more by calls, and may only pass what they hold. A call
makes a node, copies one, looks inside one, or asks a table for the node that stands for another; it
may fail. `Reached h w` says that some finite sequence of calls, with digests computed by `h`, leads
to the world `w`.

Main statement: in every world that is reached, the nodes that occur in held nodes are regular, which
is to say that their identities tell them apart, that they carry what their trees give, and that they
satisfy the rules of their kinds (`Reached.sound`).
-/

namespace TermGraph

-- ---------------------------------------------------------------------------
-- Worlds and calls
-- ---------------------------------------------------------------------------

/-- The store in use, the nodes that its user holds, and the tables. -/
structure World where
  store : Store
  held : List Node := []
  tables : Tables := {}

/-- What a user can ask for; tables go by their category and the position at which they were made. -/
inductive Call where
  | makeType (shape : TyShape Ty Expr)
  | makeExpr (type : Ty) (shape : ExprShape Expr)
  | copy (n : Node)
  | field (n : Node) (name : String)
  | operands (e : Expr)
  | typeOf (e : Expr)
  | subtype (t : Ty)
  | memberType (t : Ty) (name : Name)
  | makeTable (category : Category)
  | canonicalize (category : Category) (table : Nat) (x : category.Carrier)

/-- The nodes that are passed in a call. -/
def Call.arguments : Call → List Node
  | .makeType shape => shape.types.map .type ++ shape.exprs.map .expr
  | .makeExpr type shape => .type type :: shape.operands.map .expr
  | .copy n | .field n _ => [n]
  | .operands e | .typeOf e => [.expr e]
  | .subtype t | .memberType t _ => [.type t]
  | .makeTable _ => []
  | .canonicalize category _ x => [category.node x]

/-- The nodes in the field of that name. -/
def Node.fieldNodes (n : Node) (name : String) : List Node :=
  match n with
  | .type t => (t.field? name).elim [] Value.nodes
  | .expr e => (e.field? name).elim [] Value.nodes

/-- What a field holds is directly inside the node. -/
theorem Node.mem_children_of_mem_fieldNodes {n m : Node} {name : String}
    (h : m ∈ n.fieldNodes name) : m ∈ n.children := by
  have hFound : ∀ fs : List (Field Ty Expr), m ∈ ((fs.find? (·.name == name)).map (·.value)).elim
      [] Value.nodes → m ∈ fs.flatMap (·.value.nodes) := by
    intro fs hm
    cases hFind : fs.find? (·.name == name) with
    | none =>
      rw [hFind] at hm
      cases hm
    | some f =>
      rw [hFind] at hm
      exact List.mem_flatMap_of_mem (List.mem_of_find?_eq_some hFind) hm
  cases n with
  | type t => exact hFound t.fields h
  | expr e => exact hFound e.fields h

namespace World

/-- The user holds some more nodes. -/
def hold (w : World) (ns : List Node) : World :=
  { w with held := ns ++ w.held }

/-- The world after a call. What the call returns is held from now on. -/
def perform (w : World) : Call → World
  | .makeType shape =>
    let (made, store) := w.store.makeType shape
    { w with store }.hold (made.toOption.toList.map .type)
  | .makeExpr type shape =>
    let (made, store) := w.store.makeExpr type shape
    { w with store }.hold (made.toOption.toList.map .expr)
  | .copy n =>
    let (m, store) := w.store.copy n
    { w with store }.hold [m]
  | .field n name => w.hold (n.fieldNodes name)
  | .operands e => w.hold (e.operands.map .expr)
  | .typeOf e => w.hold [.type e.type]
  | .subtype t => w.hold (t.subtype?.toList.map .type)
  | .memberType t name => w.hold ((t.memberType? name).toList.map .type)
  | .makeTable category => { w with tables := w.tables.make category w.store.hasher }
  | .canonicalize category i x =>
    match w.tables.get? category i with
    | some table =>
      let (first, table, store) := w.store.canonicalize table x
      { w with store, tables := w.tables.set category i table }.hold [category.node first]
    | none => w

/-- The node is held or lies inside a node that is, at any depth. -/
def Occurs (w : World) (n : Node) : Prop :=
  ∃ r ∈ w.held, n ∈ r.visits

end World

/-- Some finite sequence of calls leads to the world. -/
inductive Reached (h : Hasher) : World → Prop where
  | start : Reached h { store := { hasher := h } }
  | call {w : World} {c : Call} (hw : Reached h w) (hArguments : ∀ n ∈ c.arguments, n ∈ w.held) :
      Reached h (w.perform c)

-- ---------------------------------------------------------------------------
-- Tables
-- ---------------------------------------------------------------------------

/-- The nodes in a table are all held. -/
def Table.Within {α : Type} (node : α → Node) (held : List Node) (t : Table α) : Prop :=
  ∀ d, ∀ x ∈ t.bucket d, node x ∈ held

section Tables

variable {α : Type} {node : α → Node} {held held' : List Node} {t : Table α}

theorem Table.within_empty (h : Hasher) : (Table.empty h : Table α).Within node held := by
  intro d x hx
  rw [Table.bucket_empty] at hx
  cases hx

/-- Holding more does no harm. -/
theorem Table.Within.mono (ht : t.Within node held) (hHeld : ∀ n ∈ held, n ∈ held') :
    t.Within node held' :=
  fun d x hx => hHeld _ (ht d x hx)

/-- A held node may be taken in. -/
theorem Table.Within.insertNew [Hashable α] (ht : t.Within node held) {x : α} (hx : node x ∈ held) :
    (t.insertNew x).Within node held := by
  intro d y hy
  rw [Table.bucket_insertNew] at hy
  split at hy
  · rcases List.mem_cons.mp hy with rfl | hy
    · exact hx
    · exact ht d y hy
  · exact ht d y hy

/-- Canonicalizing a held node gives a held node, and the table takes in no other. -/
theorem Store.canonicalize_within [BEq α] [Hashable α] (s : Store) (ht : t.Within node held) {x : α}
    (hx : node x ∈ held) :
    node (s.canonicalize t x).1 ∈ held ∧ (s.canonicalize t x).2.1.Within node held := by
  cases hFind : t.find? x with
  | some first =>
    rw [Store.canonicalize_of_some hFind]
    exact ⟨ht _ first (List.mem_of_find?_eq_some hFind), ht⟩
  | none =>
    rw [Store.canonicalize_of_none hFind]
    exact ⟨hx, ht.insertNew hx⟩

/-- Canonicalizing makes no node. -/
theorem Store.canonicalize_store [BEq α] [Hashable α] (s : Store) (t : Table α) (x : α) :
    (s.canonicalize t x).2.2.hasher = s.hasher ∧ (s.canonicalize t x).2.2.next = s.next := by
  cases hFind : t.find? x with
  | some first =>
    rw [Store.canonicalize_of_some hFind]
    exact ⟨rfl, rfl⟩
  | none =>
    rw [Store.canonicalize_of_none hFind]
    exact ⟨rfl, rfl⟩

end Tables

-- ---------------------------------------------------------------------------
-- The invariant
-- ---------------------------------------------------------------------------

namespace World

/-- The invariant of every run. -/
structure Sound (h : Hasher) (w : World) : Prop where
  regular : Regular h w.Occurs
  hasher : w.store.hasher = h
  below : ∀ n, w.Occurs n → n.id < w.store.next
  tables : w.tables.All fun category table => table.Within category.node w.held

variable {h : Hasher} {w : World}

/-- A held node is in use. -/
theorem Occurs.of_held {n : Node} (hn : n ∈ w.held) : w.Occurs n :=
  ⟨n, hn, n.mem_visits_self⟩

/-- What is inside a node in use is in use. -/
theorem Occurs.inside {m n : Node} (hn : w.Occurs n) (hm : m ∈ n.visits) : w.Occurs m := by
  obtain ⟨r, hr, hnr⟩ := hn
  exact ⟨r, hr, Node.mem_visits_trans hm hnr⟩

theorem Occurs.child {c n : Node} (hn : w.Occurs n) (hc : c ∈ n.children) : w.Occurs c :=
  hn.inside (Node.mem_visits_of_mem_children hc)

/-- What is in use after more nodes are held was in use or lies inside one of them. -/
theorem occurs_hold {ns : List Node} {n : Node} :
    (w.hold ns).Occurs n ↔ (∃ r ∈ ns, n ∈ r.visits) ∨ w.Occurs n := by
  simp only [Occurs, hold, List.mem_append]
  constructor
  · rintro ⟨r, hr | hr, hn⟩
    · exact .inl ⟨r, hr, hn⟩
    · exact .inr ⟨r, hr, hn⟩
  · rintro (⟨r, hr, hn⟩ | ⟨r, hr, hn⟩)
    · exact ⟨r, .inl hr, hn⟩
    · exact ⟨r, .inr hr, hn⟩

-- ---------------------------------------------------------------------------
-- What keeps the invariant
-- ---------------------------------------------------------------------------

/-- The user may look around: a world in which nothing new occurs is sound. -/
theorem Sound.look {w' : World} (hw : w.Sound h) (hHasher : w'.store.hasher = h)
    (hNext : w'.store.next = w.store.next) (hOccurs : ∀ n, w'.Occurs n → w.Occurs n)
    (hTables : w'.tables.All fun category table => table.Within category.node w'.held) :
    w'.Sound h where
  regular := {
    closed := fun _ hn _ hc => hn.child hc
    unique := fun m n hm hn => hw.regular.unique m n (hOccurs m hm) (hOccurs n hn)
    faithful := fun n hn => hw.regular.faithful n (hOccurs n hn)
    lawful := fun n hn => hw.regular.lawful n (hOccurs n hn) }
  hasher := hHasher
  below := fun n hn => hNext ▸ hw.below n (hOccurs n hn)
  tables := hTables

/-- A node that was made since the identity `next`, and made well. -/
structure Fresh (h : Hasher) (next next' : Nat) (n : Node) : Prop where
  le : next ≤ n.id
  lt : n.id < next'
  faithful : n.Faithful h
  lawful : n.Lawful

/-- The user may get a new node: everything in it that is not old is fresh, and of the fresh nodes no
two have one identity. -/
theorem Sound.hold_new {store : Store} {m : Node} (hw : w.Sound h) (hHasher : store.hasher = h)
    (hNext : w.store.next ≤ store.next)
    (hVisits : ∀ n ∈ m.visits, w.Occurs n ∨ Fresh h w.store.next store.next n)
    (hUnique : ∀ k ∈ m.visits, ∀ n ∈ m.visits, w.store.next ≤ k.id → k.id = n.id → k = n) :
    ({ w with store }.hold [m] : World).Sound h := by
  have hOccurs : ∀ n, ({ w with store }.hold [m] : World).Occurs n ↔ n ∈ m.visits ∨ w.Occurs n := by
    intro n
    rw [occurs_hold]
    simp only [List.mem_singleton, exists_eq_left]
    rfl
  have hNew : ∀ n, ({ w with store }.hold [m] : World).Occurs n →
      w.Occurs n ∨ Fresh h w.store.next store.next n := by
    intro n hn
    rcases (hOccurs n).mp hn with hn | hn
    · exact hVisits n hn
    · exact .inl hn
  -- an identity from `next` on can only be met inside the new node
  have hInside : ∀ n, ({ w with store }.hold [m] : World).Occurs n → w.store.next ≤ n.id →
      n ∈ m.visits := by
    intro n hn hLe
    rcases (hOccurs n).mp hn with hn | hn
    · exact hn
    · have := hw.below n hn
      omega
  refine ⟨⟨⟨fun _ hn _ hc => hn.child hc, ?_⟩, ?_, ?_⟩, hHasher, ?_, ?_⟩
  · intro k n hk hn hId
    by_cases hLe : w.store.next ≤ k.id
    · exact hUnique k (hInside k hk hLe) n (hInside n hn (hId ▸ hLe)) hLe hId
    · have hOldK : w.Occurs k := (hNew k hk).resolve_right fun hFresh => hLe hFresh.le
      have hOldN : w.Occurs n := (hNew n hn).resolve_right fun hFresh => hLe (hId ▸ hFresh.le)
      exact hw.regular.unique k n hOldK hOldN hId
  · intro n hn
    rcases hNew n hn with hOld | hFresh
    · exact hw.regular.faithful n hOld
    · exact hFresh.faithful
  · intro n hn
    rcases hNew n hn with hOld | hFresh
    · exact hw.regular.lawful n hOld
    · exact hFresh.lawful
  · intro n hn
    rcases hNew n hn with hOld | hFresh
    · exact Nat.lt_of_lt_of_le (hw.below n hOld) hNext
    · exact hFresh.lt
  · exact hw.tables.imp fun _ _ hWithin => hWithin.mono fun _ => List.mem_append_right _

/-- A node built around old nodes under the next identity. -/
theorem Sound.hold_built {store : Store} {m : Node} (hw : w.Sound h) (hHasher : store.hasher = h)
    (hNext : store.next = w.store.next + 1) (hId : m.id = w.store.next)
    (hChildren : ∀ c ∈ m.children, w.Occurs c) (hFaithful : m.Faithful h) (hLawful : m.Lawful) :
    ({ w with store }.hold [m] : World).Sound h := by
  have hVisits : ∀ n ∈ m.visits, n = m ∨ w.Occurs n := by
    intro n hn
    rcases Node.mem_visits_iff.mp hn with rfl | ⟨c, hc, hn⟩
    · exact .inl rfl
    · exact .inr ((hChildren c hc).inside hn)
  have hRoot : ∀ n ∈ m.visits, w.store.next ≤ n.id → n = m := by
    intro n hn hLe
    rcases hVisits n hn with rfl | hOld
    · rfl
    · have := hw.below n hOld
      omega
  refine hw.hold_new hHasher (by omega) ?_ ?_
  · intro n hn
    rcases hVisits n hn with rfl | hOld
    · exact .inr ⟨by omega, by omega, hFaithful, hLawful⟩
    · exact .inl hOld
  · intro k hk n hn hLe hSame
    rw [hRoot k hk hLe, hRoot n hn (hSame ▸ hLe)]

/-- A copy of a node that occurs. -/
theorem Sound.hold_copy {n : Node} (hw : w.Sound h) (hn : w.Occurs n) :
    ({ w with store := (w.store.copy n).2 }.hold [(w.store.copy n).1] : World).Sound h := by
  obtain ⟨hCopied, hStore⟩ := w.store.copy_spec n
  rw [hStore]
  refine hw.hold_new hw.hasher (Nat.le_add_right _ _) ?_ ?_
  · intro k hk
    obtain ⟨hLe, hLt⟩ := hCopied.mem_ids hk
    obtain ⟨k', hk', hStamp⟩ := hCopied.exists_stamp hk
    have hTree : k'.tree = k.tree := congrArg Prod.fst hStamp
    have hSummary : k'.summary = k.summary := congrArg Prod.snd hStamp
    have hOld : w.Occurs k' := hn.inside hk'
    refine .inr ⟨hLe, hLt, ?_, ?_⟩
    · rw [Node.Faithful, ← hTree, ← hSummary]
      exact hw.regular.faithful k' hOld
    · rw [Node.Lawful, ← hTree]
      exact hw.regular.lawful k' hOld
  · intro k hk k' hk' _ hId
    exact List.inj_on_of_nodup_map hCopied.nodup_ids hk hk' hId

/-- Holding nodes that are in use changes nothing. -/
theorem Sound.hold_old {ns : List Node} (hw : w.Sound h) (hns : ∀ n ∈ ns, w.Occurs n) :
    (w.hold ns).Sound h := by
  refine hw.look hw.hasher rfl ?_ ?_
  · intro n hn
    rcases occurs_hold.mp hn with ⟨r, hr, hn⟩ | hn
    · exact (hns r hr).inside hn
    · exact hn
  · exact hw.tables.imp fun _ _ hWithin => hWithin.mono fun _ => List.mem_append_right _

-- ---------------------------------------------------------------------------
-- Every call keeps the invariant
-- ---------------------------------------------------------------------------

/-- A node is made around old nodes if its check passes, and otherwise nothing is. -/
theorem Sound.perform_make {α : Type} (hw : w.Sound h) (node : α → Node) (checked : Check)
    (build : Hasher → Nat → α) (hId : ∀ i, (node (build h i)).id = i)
    (hChildren : ∀ i, ∀ c ∈ (node (build h i)).children, w.Occurs c)
    (hMade : checked.outcome = .ok () → ∀ i,
      (node (build h i)).Faithful h ∧ (node (build h i)).Lawful) :
    ({ w with store := (w.store.make checked build).2 }.hold
      ((w.store.make checked build).1.toOption.toList.map node) : World).Sound h := by
  cases hOutcome : checked.outcome with
  | error rejection =>
    rw [Store.make_of_error hOutcome]
    exact hw.look hw.hasher rfl (fun _ => id) hw.tables
  | ok _ =>
    obtain ⟨hFaithful, hLawful⟩ := hMade hOutcome w.store.next
    rw [Store.make_of_ok hOutcome, hw.hasher]
    exact hw.hold_built hw.hasher rfl (hId _) (hChildren _) hFaithful hLawful

/-- A type is asked for with held nodes inside. -/
theorem Sound.perform_makeType (hw : w.Sound h) {shape : TyShape Ty Expr}
    (hTypes : ∀ t ∈ shape.types, w.Occurs (.type t))
    (hExprs : ∀ e ∈ shape.exprs, w.Occurs (.expr e)) : (w.perform (.makeType shape)).Sound h := by
  refine hw.perform_make .type (Ty.check shape) (fun hasher id => .build hasher id shape)
    (fun _ => rfl) ?_ ?_
  · intro i c hc
    cases c with
    | type t => exact hTypes t (Node.type_mem_children_type.mp hc)
    | expr e => exact hExprs e (Node.expr_mem_children_type.mp hc)
  · intro hCheck i
    refine ⟨Node.faithful_build_type h _ (fun t ht => hw.regular.faithful _ (hTypes t ht))
      (fun e he => hw.regular.faithful _ (hExprs e he)), ?_⟩
    rw [Node.Lawful, Node.tree, Ty.tree_build]
    exact (Ty.check_iff shape).mp hCheck

/-- An expression is asked for with held nodes inside. -/
theorem Sound.perform_makeExpr (hw : w.Sound h) {type : Ty} {shape : ExprShape Expr}
    (hType : w.Occurs (.type type)) (hOperands : ∀ e ∈ shape.operands, w.Occurs (.expr e)) :
    (w.perform (.makeExpr type shape)).Sound h := by
  refine hw.perform_make .expr (Expr.check type shape)
    (fun hasher id => .build hasher id type shape) (fun _ => rfl) ?_ ?_
  · intro i c hc
    cases c with
    | type t => exact Node.type_mem_children_expr.mp hc ▸ hType
    | expr e => exact hOperands e (Node.expr_mem_children_expr.mp hc)
  · intro hCheck i
    refine ⟨Node.faithful_build_expr h _ (hw.regular.faithful _ hType)
      (fun e he => hw.regular.faithful _ (hOperands e he)), ?_⟩
    rw [Node.Lawful, Node.tree, Expr.tree_build]
    exact (hw.regular.check_iff hType hOperands).mp hCheck

/-- A table answers with a held node. -/
theorem Sound.perform_canonicalize (hw : w.Sound h) {category : Category} {x : category.Carrier}
    (hx : category.node x ∈ w.held) (i : Nat) :
    (w.perform (.canonicalize category i x)).Sound h := by
  rw [perform]
  cases hTable : w.tables.get? category i with
  | none => exact hw
  | some table =>
    have hWithin := hw.tables category table (Array.mem_of_getElem? hTable)
    obtain ⟨hFirst, hTable'⟩ := w.store.canonicalize_within hWithin hx
    obtain ⟨hHasher, hNext⟩ := w.store.canonicalize_store table x
    have hHeld : (w.hold [category.node (w.store.canonicalize table x).1]).Sound h :=
      hw.hold_old (by simpa using Occurs.of_held hFirst)
    refine hHeld.look (hHasher.trans hw.hasher) hNext (fun _ => id) ?_
    exact hHeld.tables.set (hTable'.mono fun _ => List.mem_append_right _)

/-- At the start nothing is held. -/
theorem Sound.start (h : Hasher) : ({ store := { hasher := h } } : World).Sound h := by
  have hNone : ∀ n, ¬ ({ store := { hasher := h } } : World).Occurs n := by
    rintro n ⟨r, hr, -⟩
    cases hr
  exact {
    regular := {
      closed := fun n hn => absurd hn (hNone n)
      unique := fun m _ hm => absurd hm (hNone m)
      faithful := fun n hn => absurd hn (hNone n)
      lawful := fun n hn => absurd hn (hNone n) }
    hasher := rfl
    below := fun n hn => absurd hn (hNone n)
    tables := Tables.all_empty }

/-- One step: every call keeps the invariant. -/
theorem Sound.perform (hw : w.Sound h) {c : Call} (hArguments : ∀ n ∈ c.arguments, n ∈ w.held) :
    (w.perform c).Sound h := by
  have hOccurs : ∀ n ∈ c.arguments, w.Occurs n := fun n hn => .of_held (hArguments n hn)
  cases c with
  | makeType shape =>
    refine hw.perform_makeType (fun t ht => hOccurs _ ?_) (fun e he => hOccurs _ ?_)
    · exact List.mem_append_left _ (List.mem_map_of_mem ht)
    · exact List.mem_append_right _ (List.mem_map_of_mem he)
  | makeExpr type shape =>
    refine hw.perform_makeExpr (hOccurs _ List.mem_cons_self) (fun e he => hOccurs _ ?_)
    exact List.mem_cons_of_mem _ (List.mem_map_of_mem he)
  | copy n => exact hw.hold_copy (hOccurs n List.mem_cons_self)
  | field n name =>
    exact hw.hold_old fun m hm =>
      (hOccurs n List.mem_cons_self).child (Node.mem_children_of_mem_fieldNodes hm)
  | operands e =>
    refine hw.hold_old fun m hm => ?_
    obtain ⟨d, hd, rfl⟩ := List.mem_map.mp hm
    exact (hOccurs _ List.mem_cons_self).child (Node.expr_mem_children_expr.mpr hd)
  | typeOf e =>
    refine hw.hold_old fun m hm => ?_
    rw [List.mem_singleton.mp hm]
    exact (hOccurs _ List.mem_cons_self).child (Node.type_mem_children_expr.mpr rfl)
  | subtype t =>
    refine hw.hold_old fun m hm => ?_
    obtain ⟨u, hu, rfl⟩ := List.mem_map.mp hm
    have hInside := Ty.mem_types_of_subtype? (Option.mem_toList.mp hu)
    exact (hOccurs _ List.mem_cons_self).child (Node.type_mem_children_type.mpr hInside)
  | memberType t name =>
    refine hw.hold_old fun m hm => ?_
    obtain ⟨u, hu, rfl⟩ := List.mem_map.mp hm
    have hInside := Ty.mem_types_of_memberType? (Option.mem_toList.mp hu)
    exact (hOccurs _ List.mem_cons_self).child (Node.type_mem_children_type.mpr hInside)
  | makeTable category =>
    exact hw.look hw.hasher rfl (fun _ => id) (hw.tables.make (Table.within_empty _))
  | canonicalize category i x => exact hw.perform_canonicalize (hArguments _ List.mem_cons_self) i

end World

/-- Every run: in a world that is reached the invariant holds. -/
theorem Reached.sound {h : Hasher} {w : World} (hw : Reached h w) : w.Sound h := by
  induction hw with
  | start => exact .start h
  | call _ hArguments ih => exact ih.perform hArguments

end TermGraph
