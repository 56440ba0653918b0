import TermGraph.Print.Outline
import TermGraph.Proofs.FieldTable
import TermGraph.Proofs.Guarantees
import TermGraph.Proofs.Reading
import TermGraph.Proofs.StructuralText

/-!
# The outline identifies a node

An outline has no quotes and closes nothing: names stand as they are, and a list or a node ends
where a line is indented less. If no name contains a line feed (`Node.SingleLine`), then every line
feed begins a line of a field or of a list element, and its indentation tells whom the line belongs
to. So a text about something at a level is read where nothing follows but lines further out
(`Outer`).

The outline of a node is read back to its tree (`reads_written`), by induction on the node, and does
not tell more than the tree (`written_eq_of_tree`), whence `outline_identifies`.
-/

namespace TermGraph

/-- The names and string constants that a value holds. -/
def Value.heldNames {τ ε : Type} : Value τ ε → List Name
  | .name n => [n]
  | .names ns => ns
  | _ => []

def Name.SingleLine (n : Name) : Prop :=
  '\n' ∉ n.text.toList

/-- No name or string constant of the node contains a line feed, at any depth. -/
def Node.SingleLine (n : Node) : Prop :=
  ∀ m ∈ n.visits, ∀ f ∈ m.fields, ∀ x ∈ f.value.heldNames, x.SingleLine

theorem Node.SingleLine.child {n c : Node} (h : n.SingleLine) (hc : c ∈ n.children) :
    c.SingleLine :=
  fun m hm => h m (Node.mem_visits_trans hm (Node.mem_visits_of_mem_children hc))

namespace Outline

open Text

-- ---------------------------------------------------------------------------
-- Lines
-- ---------------------------------------------------------------------------

/-- A line that begins at a level. -/
def bullet (level : Nat) (rest : List Char) : List Char :=
  '\n' :: ((spaces (2 * level)).toList ++ '*' :: rest)

theorem bullet_level {k l : Nat} {s t : List Char} (h : bullet k s = bullet l t) : k = l := by
  have hBlank : ∀ n, ∀ c ∈ (spaces n).toList, (c == ' ') = true := by
    intro n c hc
    rw [toList_spaces] at hc
    rw [List.eq_of_mem_replicate hc]
    rfl
  have hStar : ∀ s, Stops (· == ' ') ('*' :: s) := by
    intro s c hc
    rw [Option.mem_some.mp hc.symm]
    rfl
  obtain ⟨hSpaces, -⟩ := Reads.run (hBlank _) (hBlank _) _ _ (hStar s) (hStar t) (List.cons.inj h).2
  have hLength := congrArg List.length hSpaces
  rw [toList_spaces, toList_spaces, List.length_replicate, List.length_replicate] at hLength
  omega

/-- The text ends, or goes on with a line further out than a level. -/
def Outer (level : Nat) (r : List Char) : Prop :=
  r = [] ∨ ∃ k s, k < level ∧ r = bullet k s

theorem Outer.mono {k l : Nat} {r : List Char} (h : Outer k r) (hkl : k ≤ l) : Outer l r := by
  rcases h with rfl | ⟨j, s, hj, rfl⟩
  · exact .inl rfl
  · exact .inr ⟨j, s, by omega, rfl⟩

/-- What stops at a line feed stops where a line begins or the text ends. -/
theorem Outer.stops {level : Nat} {r : List Char} {p : Char → Bool} (hp : p '\n' = false)
    (h : Outer level r) : Stops p r := by
  rcases h with rfl | ⟨k, s, -, rfl⟩
  · exact nofun
  · intro c hc
    rw [Option.mem_some.mp hc.symm]
    exact hp

/-- The beginning of a line: what it is about, and a colon. -/
def heading (level : Nat) (about : String) : List Char :=
  bullet level (' ' :: (about.toList ++ [' ', ':', ' ']))

theorem chars_line (level : Nat) (about : String) (items : Items) :
    unfolding.chars (line level about :: items) = heading level about ++ unfolding.chars items := by
  simp [line, heading, bullet]

theorem exists_heading_append (level : Nat) (about : String) (r : List Char) :
    ∃ s, heading level about ++ r = bullet level s :=
  ⟨' ' :: (about.toList ++ [' ', ':', ' ']) ++ r, by simp [heading, bullet]⟩

/-- A line at a level is no line further out. -/
theorem heading_not_outer (level : Nat) (about : String) (r : List Char) :
    ¬Outer level (heading level about ++ r) := by
  obtain ⟨s, hs⟩ := exists_heading_append level about r
  rw [hs]
  rintro (hNil | ⟨k, t, hk, hEq⟩)
  · cases hNil
  · have := bullet_level hEq
    omega

theorem outer_heading (level : Nat) (about : String) (r : List Char) :
    Outer (level + 1) (heading level about ++ r) := by
  obtain ⟨s, hs⟩ := exists_heading_append level about r
  exact .inr ⟨level, s, by omega, hs⟩

/-- Lines at a level, each with its contents, are read one by one up to a line further out. -/
theorem reads_lines {α β : Type} {about : Nat → α → String} {inside : α → List Char} {view : α → β}
    {level : Nat} {xs ys : List α} (i : Nat)
    (hEach : ∀ i, ∀ p ∈ xs.zip ys, about i p.1 = about i p.2 ∧
      Reads (Outer (level + 1)) (inside p.1) (inside p.2) (view p.1 = view p.2)) :
    Reads (Outer level) (pieces (fun i x => heading level (about i x) ++ inside x) i xs)
      (pieces (fun i x => heading level (about i x) ++ inside x) i ys)
      (xs.map view = ys.map view) := by
  have hNext : ∀ i x r, Outer (level + 1) (heading level (about i x) ++ inside x ++ r) := by
    intro i x r
    rw [List.append_assoc]
    exact outer_heading level _ _
  refine reads_pieces ?_ hNext (fun r hr => hr.mono (by omega)) i ?_
  · rintro i x r _ hEnding rfl
    rw [List.append_assoc] at hEnding
    exact heading_not_outer level _ _ hEnding
  · intro i p hp
    obtain ⟨hAbout, hInside⟩ := hEach i p hp
    rw [hAbout]
    exact hInside.after _

-- ---------------------------------------------------------------------------
-- Lists
-- ---------------------------------------------------------------------------

theorem chars_numbered {α : Type} (level i : Nat) (item : α → Item Seed String) (xs : List α) :
    unfolding.chars (numbered level i (xs.map item)) =
      pieces (fun i text => heading level (decimal i) ++ text) i
        (xs.map fun x => unfolding.chars [item x]) := by
  induction xs generalizing i with
  | nil => exact unfolding.chars_nil
  | cons x xs ih =>
    rw [List.map_cons, numbered, chars_line, List.map_cons, pieces, List.append_assoc, ← ih]
    exact congrArg _ (unfolding.chars_append [item x] _)

theorem chars_list_cons {α : Type} (level : Nat) (item : α → Item Seed String) (x : α)
    (xs : List α) :
    unfolding.chars (list level ((x :: xs).map item)) =
      pieces (fun i text => heading (level + 1) (decimal i) ++ text) 0
        ((x :: xs).map fun x => unfolding.chars [item x]) :=
  chars_numbered (level + 1) 0 item (x :: xs)

theorem chars_list_congr {α : Type} {level : Nat} {item : α → Item Seed String} {xs ys : List α}
    (h : xs.map (fun x => unfolding.chars [item x]) = ys.map fun x => unfolding.chars [item x]) :
    unfolding.chars (list level (xs.map item)) = unfolding.chars (list level (ys.map item)) := by
  cases xs with
  | nil => rw [List.map_eq_nil_iff.mp h.symm]
  | cons x xs =>
    obtain ⟨y, ys, rfl, -, -⟩ := List.map_eq_cons_iff.mp h.symm
    rw [chars_list_cons, chars_list_cons, h]

/-- A list is read element by element. -/
theorem reads_list {α β : Type} {item : α → Item Seed String} {view : α → β} (level : Nat)
    (xs ys : List α) (hEach : ∀ x ∈ xs, ∀ y ∈ ys, Reads (Outer (level + 2))
      (unfolding.chars [item x]) (unfolding.chars [item y]) (view x = view y)) :
    Reads (Outer (level + 1)) (unfolding.chars (list level (xs.map item)))
      (unfolding.chars (list level (ys.map item))) (xs.map view = ys.map view) := by
  -- an empty list does not begin with a line
  have hEmpty : ∀ z zs r r', unfolding.chars (list level ([] : Items)) ++ r ≠
      unfolding.chars (list level ((z :: zs).map item)) ++ r' := by
    intro z zs r r'
    simp [list, numbered, chars_line, heading, bullet]
  cases xs with
  | nil =>
    cases ys with
    | nil => exact (Reads.literal _).imp fun _ => rfl
    | cons y ys => exact Reads.of_ne fun r r' _ _ => hEmpty y ys r r'
  | cons x xs =>
    cases ys with
    | nil => exact Reads.of_ne fun r r' _ _ => (hEmpty x xs r' r).symm
    | cons y ys =>
      rw [chars_list_cons, chars_list_cons, pieces_map, pieces_map]
      refine reads_lines 0 fun i p hp => ⟨rfl, ?_⟩
      exact hEach p.1 (List.of_mem_zip hp).1 p.2 (List.of_mem_zip hp).2

-- ---------------------------------------------------------------------------
-- Values
-- ---------------------------------------------------------------------------

/-- A word up to the next line. -/
theorem reads_word_line {s t : String} (level : Nat) (hs : ∀ c ∈ s.toList, isWord c = true)
    (ht : ∀ c ∈ t.toList, isWord c = true) : Reads (Outer level) s.toList t.toList (s = t) :=
  (reads_word hs ht).mono fun _ => Outer.stops rfl

/-- A name as it stands, up to the next line. -/
theorem reads_name {m n : Name} (level : Nat) (hm : m.SingleLine) (hn : n.SingleLine) :
    Reads (Outer level) m.text.toList n.text.toList (m = n) := by
  have hLine : ∀ n : Name, n.SingleLine → ∀ c ∈ n.text.toList, (c != '\n') = true := by
    intro n hn c hc
    rw [bne_iff_ne]
    rintro rfl
    exact hn hc
  refine ((Reads.run (hLine m hm) (hLine n hn)).mono fun _ => Outer.stops rfl).imp fun h => ?_
  exact congrArg Name.mk (String.toList_inj.mp h)

/-- The characters of a node whose field lines stand at a level. -/
def written (level : Nat) (n : Node) : List Char :=
  unfolding.chars [.seed ⟨level, n⟩]

/-- The lines of some fields. -/
def fieldLines (level : Nat) (fields : List (Field Ty Expr)) : List Char :=
  fields.flatMap fun f => heading level f.name ++ unfolding.chars (value level f.value)

theorem written_eq (level : Nat) (n : Node) :
    written level n = n.kind.name.toList ++ fieldLines level n.fields := by
  rw [written, Unfolding.chars_seed]
  change unfolding.chars (expand ⟨level, n⟩) = _
  rw [expand, Unfolding.chars_emit, fieldLines]
  refine congrArg _ ?_
  induction n.fields with
  | nil => exact unfolding.chars_nil
  | cons f fs ih =>
    rw [List.flatMap_cons, List.flatMap_cons, Unfolding.chars_append, chars_line, ih]

theorem outer_fieldLines {level : Nat} {r : List Char} (hr : Outer level r)
    (fields : List (Field Ty Expr)) : Outer (level + 1) (fieldLines level fields ++ r) := by
  cases fields with
  | nil => exact hr.mono (by omega)
  | cons f fs =>
    rw [fieldLines, List.flatMap_cons, List.append_assoc, List.append_assoc]
    exact outer_heading level f.name _

/-- No expression is written like the mark of a missing one. -/
theorem nil_ne_written {level : Nat} {r r' : List Char} (hr : Outer level r) (hr' : Outer level r')
    (e : Expr) : "nil".toList ++ r ≠ written level (.expr e) ++ r' := by
  have hNames : ∀ k ∈ ExprKind.all, "nil" ≠ k.name := by decide
  have hNil : ∀ c ∈ "nil".toList, isWord c = true := List.all_eq_true.mp rfl
  intro hText
  rw [written_eq, List.append_assoc] at hText
  obtain ⟨hName, -⟩ := reads_word_line (level + 1) hNil (Node.expr e).kind.isWord_name _ _
    (hr.mono (by omega)) (outer_fieldLines hr' _) hText
  exact hNames e.kind e.kind.mem_all hName

/-- Reading a value, once the nodes inside can be read. -/
theorem reads_value {level : Nat} {v w : Value Ty Expr} (hSort : v.SameSort w)
    (hv : ∀ n ∈ v.heldNames, n.SingleLine) (hw : ∀ n ∈ w.heldNames, n.SingleLine)
    (hTypes : ∀ t ∈ v.heldTypes, ∀ u ∈ w.heldTypes, ∀ level,
      Reads (Outer level) (written level (.type t)) (written level (.type u)) (t.tree = u.tree))
    (hExprs : ∀ e ∈ v.heldExprs, ∀ d ∈ w.heldExprs, ∀ level,
      Reads (Outer level) (written level (.expr e)) (written level (.expr d)) (e.tree = d.tree)) :
    Reads (Outer (level + 1)) (unfolding.chars (value level v)) (unfolding.chars (value level w))
      (v.map Ty.tree Expr.tree = w.map Ty.tree Expr.tree) := by
  cases hSort with
  | bool a b =>
    simp only [value, Unfolding.chars_single]
    refine (reads_word_line _ (isWord_truth a) (isWord_truth b)).imp fun h => ?_
    rw [truth_injective h]
  | uint m n =>
    simp only [value, Unfolding.chars_single]
    refine (reads_word_line _ (isWord_decimal m.toNat) (isWord_decimal n.toNat)).imp fun h => ?_
    rw [UInt32.toNat_inj.mp (decimal_injective h)]
  | int i j =>
    simp only [value, Unfolding.chars_single]
    refine (reads_word_line _ (isWord_decimalInt i) (isWord_decimalInt j)).imp fun h => ?_
    rw [decimalInt_injective h]
  | name m n =>
    simp only [value, Unfolding.chars_single]
    exact (reads_name _ (hv m List.mem_cons_self) (hw n List.mem_cons_self)).imp
      (congrArg Value.name)
  | names ms ns =>
    have hList : Reads (Outer (level + 1)) (unfolding.chars (value level (.names ms)))
        (unfolding.chars (value level (.names ns))) (ms.map id = ns.map id) := by
      refine reads_list level ms ns fun m hm n hn => ?_
      rw [Unfolding.chars_single, Unfolding.chars_single]
      exact reads_name _ (hv m hm) (hw n hn)
    rw [List.map_id, List.map_id] at hList
    exact hList.imp (congrArg Value.names)
  | type t u =>
    exact (hTypes t List.mem_cons_self u List.mem_cons_self _).imp (congrArg Value.type)
  | types ts us =>
    exact (reads_list level ts us fun t ht u hu => hTypes t ht u hu (level + 2)).imp
      (congrArg Value.types)
  | expr e d =>
    exact (hExprs e List.mem_cons_self d List.mem_cons_self _).imp (congrArg Value.expr)
  | optExpr e d =>
    have hNone : unfolding.chars (value level (.optExpr none)) = "nil".toList :=
      unfolding.chars_single "nil"
    cases e with
    | none =>
      cases d with
      | none => exact (Reads.literal _).imp fun _ => rfl
      | some d => exact Reads.of_ne fun r r' hr hr' => hNone ▸ nil_ne_written hr hr' d
    | some e =>
      cases d with
      | none => exact Reads.of_ne fun r r' hr hr' => hNone ▸ (nil_ne_written hr' hr e).symm
      | some d =>
        refine (hExprs e List.mem_cons_self d List.mem_cons_self _).imp fun h => ?_
        rw [Value.map, Value.map, Option.map_some, Option.map_some, h]
  | exprs es ds =>
    exact (reads_list level es ds fun e he d hd => hExprs e he d hd (level + 2)).imp
      (congrArg Value.exprs)

/-- Values that hold the same texts are written alike. -/
theorem chars_value_congr {level : Nat} {v w : Value Ty Expr}
    (h : v.map (fun t level => written level (.type t)) (fun e level => written level (.expr e)) =
      w.map (fun t level => written level (.type t)) fun e level => written level (.expr e)) :
    unfolding.chars (value level v) = unfolding.chars (value level w) := by
  cases Value.sameSort_of_map h with
  | type t u => exact congrFun (Value.type.inj h) (level + 1)
  | types ts us =>
    exact chars_list_congr (map_eq_map_of (Value.types.inj h) fun _ _ _ hText =>
      congrFun hText (level + 2))
  | expr e d => exact congrFun (Value.expr.inj h) (level + 1)
  | optExpr e d =>
    have hTexts := Value.optExpr.inj h
    cases e with
    | none =>
      cases d with
      | none => rfl
      | some d => cases hTexts
    | some e =>
      cases d with
      | none => cases hTexts
      | some d => exact congrFun (Option.some.inj hTexts) (level + 1)
  | exprs es ds =>
    exact chars_list_congr (map_eq_map_of (Value.exprs.inj h) fun _ _ _ hText =>
      congrFun hText (level + 2))
  | _ => cases h; rfl

-- ---------------------------------------------------------------------------
-- Nodes
-- ---------------------------------------------------------------------------

/-- The outline of a node tells its tree, given its category, up to a line further out. -/
theorem reads_written {a b : Node} (hCategory : a.isExpr = b.isExpr) (ha : a.SingleLine)
    (hb : b.SingleLine) (level : Nat) :
    Reads (Outer level) (written level a) (written level b) (a.tree = b.tree) := by
  induction a using Node.induction_children generalizing b level with
  | step a ih =>
    have hFields (hKind : a.kind = b.kind) : Reads (Outer level) (fieldLines level a.fields)
        (fieldLines level b.fields) (a.fields.map (Field.map Ty.tree Expr.tree) =
          b.fields.map (Field.map Ty.tree Expr.tree)) := by
      rw [fieldLines, fieldLines, ← pieces_const _ 0, ← pieces_const _ 0]
      refine reads_lines 0 fun i p hp => ?_
      obtain ⟨hName, hSort⟩ := Node.slot_eq_of_mem_zip hKind p hp
      obtain ⟨hLeft, hRight⟩ := List.of_mem_zip hp
      refine ⟨hName, (reads_value hSort (ha a (Node.mem_visits_self a) p.1 hLeft)
        (hb b (Node.mem_visits_self b) p.2 hRight) (fun t ht u hu level => ?_)
        (fun e he d hd level => ?_)).imp fun hValue => ?_⟩
      · have hChild := Node.type_mem_children_of_field hLeft ht
        have hChild' := Node.type_mem_children_of_field hRight hu
        exact (ih _ hChild (b := .type u) rfl (ha.child hChild) (hb.child hChild') level).imp
          Tree.type.inj
      · have hChild := Node.expr_mem_children_of_field hLeft he
        have hChild' := Node.expr_mem_children_of_field hRight hd
        exact (ih _ hChild (b := .expr d) rfl (ha.child hChild) (hb.child hChild') level).imp
          Tree.expr.inj
      · rw [Field.map, Field.map, hName, hValue]
    rw [written_eq, written_eq]
    refine ((reads_word_line (level + 1) a.kind.isWord_name b.kind.isWord_name).seq
      (fun _ hr => outer_fieldLines hr _) (fun _ hr => outer_fieldLines hr _)
      fun hName => hFields (Node.kind_eq_of_name hCategory hName)).imp ?_
    rintro ⟨hName, hValues⟩
    exact Node.tree_eq_iff.mpr ⟨Node.kind_eq_of_name hCategory hName, hValues⟩

/-- Nodes with one tree are written alike. -/
theorem written_eq_of_tree {a b : Node} (hTree : a.tree = b.tree) (level : Nat) :
    written level a = written level b := by
  have hText := Node.eq_of_tree (fun n level => written level n) ?_ hTree
  · exact congrFun hText level
  · intro a b hKind hFields
    funext level
    rw [written_eq, written_eq, hKind, fieldLines, fieldLines, List.flatMap_def, List.flatMap_def]
    refine congrArg _ (congrArg List.flatten (map_eq_map_of hFields fun f _ g hfg => ?_))
    obtain ⟨hName, hValue⟩ := Field.mk.inj hfg
    rw [hName, chars_value_congr hValue]

end Outline

/-- Without line feeds in names, the outline of a node, given its category, is as good as its
tree. -/
theorem Node.outline_eq_iff {a b : Node} (hCategory : a.isExpr = b.isExpr) (ha : a.SingleLine)
    (hb : b.SingleLine) (level : Nat) : a.outline level = b.outline level ↔ a.tree = b.tree := by
  unfold Node.outline Node.outlineInto
  rw [Unfolding.text_eq_iff]
  constructor
  · intro hText
    have hRead := Outline.reads_written hCategory ha hb level [] [] (.inl rfl) (.inl rfl)
    exact (hRead (congrArg (· ++ []) hText)).1
  · intro hTree
    exact Outline.written_eq_of_tree hTree level

variable {h : Hasher} {w : World}

/-- Types in use whose names stand on one line each have one outline if and only if they are equal,
at any level, and so have expressions. -/
theorem outline_identifies (hw : Reached h w) (level : Nat) :
    (∀ a b : Ty, w.Occurs (.type a) → w.Occurs (.type b) →
      (Node.type a).SingleLine → (Node.type b).SingleLine →
      ((Node.type a).outline level = (Node.type b).outline level ↔ (a == b) = true)) ∧
    (∀ a b : Expr, w.Occurs (.expr a) → w.Occurs (.expr b) →
      (Node.expr a).SingleLine → (Node.expr b).SingleLine →
      ((Node.expr a).outline level = (Node.expr b).outline level ↔ (a == b) = true)) := by
  constructor
  · intro a b ha hb hSingle hSingle'
    rw [Node.outline_eq_iff (a := .type a) (b := .type b) rfl hSingle hSingle',
      (hw.equalityBy .type).beq_iff ha hb]
    exact ⟨Tree.type.inj, congrArg Tree.type⟩
  · intro a b ha hb hSingle hSingle'
    rw [Node.outline_eq_iff (a := .expr a) (b := .expr b) rfl hSingle hSingle',
      (hw.equalityBy .expr).beq_iff ha hb]
    exact ⟨Tree.expr.inj, congrArg Tree.expr⟩

theorem Sample.singleLine_symbol (id : Nat) {n : Name} (hn : n.SingleLine) :
    (Node.type (.build .fnv id (.symbol n))).SingleLine := by
  intro m hm f hf x hx
  rw [Node.visits_eq] at hm
  rw [List.mem_singleton.mp hm] at hf
  rw [List.mem_singleton.mp hf] at hx
  rw [List.mem_singleton.mp hx]
  exact hn

theorem outline_identifies_sample :
    (Node.type Sample.plain).SingleLine ∧ (Node.type Sample.twin).SingleLine ∧
    (Node.type Sample.mimic).SingleLine ∧ ∀ level,
      (Node.type Sample.plain).outline level = (Node.type Sample.twin).outline level ∧
      (Node.type Sample.plain).outline level ≠ (Node.type Sample.mimic).outline level := by
  have hPlain : Sample.symbols.Occurs (.type Sample.plain) := Sample.occurs_symbols (by simp)
  have hTwin : Sample.symbols.Occurs (.type Sample.twin) := Sample.occurs_symbols (by simp)
  have hMimic : Sample.symbols.Occurs (.type Sample.mimic) := Sample.occurs_symbols (by simp)
  have hLine : (Node.type Sample.plain).SingleLine :=
    Sample.singleLine_symbol 0 (by simp [Name.SingleLine])
  have hLine' : (Node.type Sample.twin).SingleLine :=
    Sample.singleLine_symbol 1 (by simp [Name.SingleLine])
  have hLine'' : (Node.type Sample.mimic).SingleLine :=
    Sample.singleLine_symbol 2 (by simp [Name.SingleLine])
  refine ⟨hLine, hLine', hLine'', fun level => ?_⟩
  obtain ⟨hTypes, -⟩ := outline_identifies Sample.reached_symbols level
  exact ⟨(hTypes _ _ hPlain hTwin hLine hLine').mpr Sample.plain_beq_twin,
    fun hText => Sample.plain_beq_mimic ((hTypes _ _ hPlain hMimic hLine hLine'').mp hText)⟩

end TermGraph
