import TermGraph.Print.Structural
import TermGraph.Proofs.FieldTable
import TermGraph.Proofs.Guarantees
import TermGraph.Proofs.Reading

/-!
# The structural text identifies a node

In either layout the structural text of a node tells its tree. Delimiters and quotes bound every
part: a list ends at its closing bracket, since no separator looks like what closes a group
(`between_ne_finish`), and the fields are known once the kind is. A kind without fields is a word
and nothing more, so that a node is read only where no further word or brace can follow (`Closes`).

The text of a node is read back to its tree (`reads_written`), by induction on the node; the text
does not tell more than the tree (`written_eq_of_tree`). Nodes of a reachable world are equal when
their trees are, whence `structural_text_identifies`.
-/

namespace TermGraph

theorem Value.SameSort.label_eq {τ ε : Type} {v w : Value τ ε} (hSort : v.SameSort w) :
    v.label = w.label := by
  cases hSort <;> rfl

namespace Structural

open Text

variable {layout : Layout} {level : Nat} {opening closing pad : String}

-- ---------------------------------------------------------------------------
-- The texts of groups
-- ---------------------------------------------------------------------------

/-- What stands between an opening delimiter and the first part. -/
def lead : Layout → Nat → String → List Char
  | .line, _, pad => pad.toList
  | .block, level, _ => '\n' :: (spaces (4 * (level + 1))).toList

/-- What stands between two parts. -/
def between : Layout → Nat → List Char
  | .line, _ => [',', ' ']
  | .block, level => ',' :: '\n' :: (spaces (4 * (level + 1))).toList

/-- What stands after the last part, the closing delimiter included. -/
def finish : Layout → Nat → String → String → List Char
  | .line, _, closing, pad => pad.toList ++ closing.toList
  | .block, level, closing, _ => ',' :: '\n' :: ((spaces (4 * level)).toList ++ closing.toList)

theorem chars_intercalate (level : Nat) (part : Items) (parts : List Items) :
    (unfolding .line).chars ([.emit ", "].intercalate (part :: parts)) =
      (unfolding .line).chars part ++
        parts.flatMap fun p => between .line level ++ (unfolding .line).chars p := by
  induction parts generalizing part with
  | nil => simp [List.intercalate]
  | cons next parts ih =>
    change (unfolding .line).chars
      (part ++ ([.emit ", "] ++ [.emit ", "].intercalate (next :: parts))) = _
    rw [Unfolding.chars_append, Unfolding.chars_append, ih next, List.flatMap_cons]
    simp [between]

theorem chars_ownLines (part : Items) (parts : List Items) :
    (unfolding .block).chars ((part :: parts).flatMap fun p =>
        .emit (spaces (4 * (level + 1))) :: p ++ [.emit ",\n"]) =
      (spaces (4 * (level + 1))).toList ++ ((unfolding .block).chars part ++
        (parts.flatMap (fun p => between .block level ++ (unfolding .block).chars p) ++
          [',', '\n'])) := by
  induction parts generalizing part with
  | nil => simp
  | cons next parts ih =>
    rw [List.flatMap_cons, Unfolding.chars_append, ih next, List.flatMap_cons]
    simp [between]

/-- The text of a group is set out alike in the two layouts, the parts apart by a separator. -/
theorem chars_group (part : Items) (parts : List Items) :
    (unfolding layout).chars (group layout level opening closing pad (part :: parts)) =
      opening.toList ++ (lead layout level pad ++ ((unfolding layout).chars part ++
        (parts.flatMap (fun p => between layout level ++ (unfolding layout).chars p) ++
          finish layout level closing pad))) := by
  cases layout with
  | line =>
    rw [group, List.cons_append, Unfolding.chars_emit, Unfolding.chars_append,
      chars_intercalate level]
    simp [lead, finish]
  | block =>
    rw [group, List.cons_append, Unfolding.chars_emit, Unfolding.chars_append, chars_ownLines]
    simp [lead, finish]

/-- Groups whose parts have the same texts have the same text. -/
theorem chars_group_congr {α : Type} {item : α → Items} {xs ys : List α}
    (h : xs.map (fun x => (unfolding layout).chars (item x)) =
      ys.map fun y => (unfolding layout).chars (item y)) :
    (unfolding layout).chars (group layout level opening closing pad (xs.map item)) =
      (unfolding layout).chars (group layout level opening closing pad (ys.map item)) := by
  have hFlat : ∀ zs : List α, (zs.map item).flatMap
      (fun part => between layout level ++ (unfolding layout).chars part) =
      (zs.map fun z => (unfolding layout).chars (item z)).flatMap (between layout level ++ ·) := by
    intro zs
    rw [List.flatMap_map, List.flatMap_map]
  cases xs with
  | nil => rw [List.map_eq_nil_iff.mp h.symm]
  | cons x xs =>
    obtain ⟨y, ys, rfl, hHead, hTail⟩ := List.map_eq_cons_iff.mp h.symm
    rw [List.map_cons, List.map_cons, chars_group, chars_group, hFlat, hFlat, hHead, hTail]

/-- The delimiters that close a group, each with what stands before it on one line. -/
def closings : List (String × String) :=
  [(")", ""), ("]", ""), ("\x7d", " ")]

/-- A separator is never the beginning of what closes a group. -/
theorem between_ne_finish (hClosing : (closing, pad) ∈ closings) (r r' : List Char) :
    between layout level ++ r ≠ finish layout level closing pad ++ r' := by
  simp only [closings, List.mem_cons, Prod.mk.injEq, List.not_mem_nil, or_false] at hClosing
  cases layout with
  | line => rcases hClosing with ⟨rfl, rfl⟩ | ⟨rfl, rfl⟩ | ⟨rfl, rfl⟩ <;> simp [between, finish]
  | block =>
    -- the delimiter stands where a further part would be indented once more
    have hDeeper : (spaces (4 * (level + 1))).toList =
        (spaces (4 * level)).toList ++ [' ', ' ', ' ', ' '] := by
      rw [toList_spaces, toList_spaces, Nat.mul_succ, List.replicate_add]
      rfl
    simp only [between, finish, hDeeper, List.cons_append, List.append_assoc, ne_eq,
      List.cons.injEq, true_and, List.append_cancel_left_eq]
    rcases hClosing with ⟨rfl, rfl⟩ | ⟨rfl, rfl⟩ | ⟨rfl, rfl⟩ <;> simp

section Parts

variable {α β : Type} {item : α → Items} {view : α → β} {follow : List Char → Prop}

/-- A part after the first, behind its separator. -/
def further (layout : Layout) (level : Nat) (item : α → Items) (x : α) : List Char :=
  between layout level ++ (unfolding layout).chars (item x)

theorem follow_further (hBetween : ∀ r, follow (between layout level ++ r)) (x : α)
    (r : List Char) : follow (further layout level item x ++ r) := by
  rw [further, List.append_assoc]
  exact hBetween _

/-- The parts after the first are read up to what closes the group. -/
theorem reads_further (hClosing : (closing, pad) ∈ closings)
    (hBetween : ∀ r, follow (between layout level ++ r))
    (hFinish : ∀ r, follow (finish layout level closing pad ++ r)) {xs ys : List α}
    (hEach : ∀ p ∈ xs.zip ys, Reads follow ((unfolding layout).chars (item p.1))
      ((unfolding layout).chars (item p.2)) (view p.1 = view p.2)) :
    Reads anything
      (xs.flatMap (further layout level item) ++ finish layout level closing pad)
      (ys.flatMap (further layout level item) ++ finish layout level closing pad)
      (xs.map view = ys.map view) := by
  have hPieces : Reads (fun r => ∃ r', r = finish layout level closing pad ++ r')
      (pieces (fun _ => further layout level item) 0 xs)
      (pieces (fun _ => further layout level item) 0 ys) (xs.map view = ys.map view) := by
    refine reads_pieces ?_ (fun _ => follow_further hBetween) ?_ 0 ?_
    · rintro i x r _ ⟨r', rfl⟩
      rw [further, List.append_assoc]
      exact between_ne_finish hClosing _ r'
    · rintro _ ⟨r', rfl⟩
      exact hFinish r'
    · intro i p hp
      exact (hEach p hp).after _
  rw [pieces_const, pieces_const] at hPieces
  exact (hPieces.seq (fun r _ => ⟨r, rfl⟩) (fun r _ => ⟨r, rfl⟩)
    fun _ => Reads.literal _).imp And.left

/-- Two groups between the same delimiters are read part by part. -/
theorem reads_group (hClosing : (closing, pad) ∈ closings)
    (hBetween : ∀ r, follow (between layout level ++ r))
    (hFinish : ∀ r, follow (finish layout level closing pad ++ r)) {x y : α} {xs ys : List α}
    (hEach : ∀ p ∈ (x :: xs).zip (y :: ys), Reads follow ((unfolding layout).chars (item p.1))
      ((unfolding layout).chars (item p.2)) (view p.1 = view p.2)) :
    Reads anything
      ((unfolding layout).chars (group layout level opening closing pad ((x :: xs).map item)))
      ((unfolding layout).chars (group layout level opening closing pad ((y :: ys).map item)))
      ((x :: xs).map view = (y :: ys).map view) := by
  have hFollow : ∀ (zs : List α) r,
      follow (zs.flatMap (further layout level item) ++ finish layout level closing pad ++ r) := by
    intro zs r
    cases zs with
    | nil => exact hFinish r
    | cons z zs =>
      rw [List.flatMap_cons, List.append_assoc, List.append_assoc]
      exact follow_further hBetween z _
  have hFurther := reads_further hClosing hBetween hFinish
    fun p hp => hEach p (List.mem_cons_of_mem _ hp)
  rw [List.map_cons, List.map_cons, chars_group, chars_group, List.flatMap_map, List.flatMap_map]
  refine Reads.after _ (Reads.after _ (((hEach (x, y) List.mem_cons_self).seq
    (fun r _ => hFollow xs r) (fun r _ => hFollow ys r) fun _ => hFurther).imp ?_))
  rintro ⟨hHead, hRest⟩
  rw [List.map_cons, List.map_cons, hHead, hRest]

end Parts

-- ---------------------------------------------------------------------------
-- Lists and labels
-- ---------------------------------------------------------------------------

/-- The text ends, or goes on as it may after a part of a list or a label. -/
def Closes (r : List Char) : Prop :=
  ∀ c ∈ r.head?, c ∈ [',', ')', ']']

theorem Closes.stops {r : List Char} (h : Closes r) : Stops isWord r := by
  intro c hc
  have hMem := h c hc
  simp only [List.mem_cons, List.not_mem_nil, or_false] at hMem
  rcases hMem with rfl | rfl | rfl <;> rfl

theorem closes_between (r : List Char) : Closes (between layout level ++ r) := by
  cases layout <;> simp [between, Closes]

theorem closes_finish (hClosing : (closing, pad) ∈ [(")", ""), ("]", "")]) (r : List Char) :
    Closes (finish layout level closing pad ++ r) := by
  simp only [List.mem_cons, Prod.mk.injEq, List.not_mem_nil, or_false] at hClosing
  rcases hClosing with ⟨rfl, rfl⟩ | ⟨rfl, rfl⟩ <;> cases layout <;> simp [finish, Closes]

theorem chars_list_congr {α : Type} {item : α → Items} {xs ys : List α}
    (h : xs.map (fun x => (unfolding layout).chars (item x)) =
      ys.map fun y => (unfolding layout).chars (item y)) :
    (unfolding layout).chars (list layout level (xs.map item)) =
      (unfolding layout).chars (list layout level (ys.map item)) := by
  cases xs with
  | nil => rw [List.map_eq_nil_iff.mp h.symm]
  | cons x xs =>
    obtain ⟨y, ys, rfl, -, -⟩ := List.map_eq_cons_iff.mp h.symm
    exact chars_group_congr h

/-- A list is read part by part, if no part begins like the end of the list. -/
theorem reads_list {α β : Type} {item : α → Items} {view : α → β} (level : Nat) (xs ys : List α)
    (hHead : ∀ z, ∃ c cs, (unfolding layout).chars (item z) = c :: cs ∧ c ≠ ']')
    (hEach : ∀ x ∈ xs, ∀ y, Reads Closes ((unfolding layout).chars (item x))
      ((unfolding layout).chars (item y)) (view x = view y)) :
    Reads anything ((unfolding layout).chars (list layout level (xs.map item)))
      ((unfolding layout).chars (list layout level (ys.map item))) (xs.map view = ys.map view) := by
  -- an empty list is closed at once
  have hEmpty : ∀ z zs r r', (unfolding layout).chars (list layout level ([] : List Items)) ++ r ≠
      (unfolding layout).chars (list layout level ((z :: zs).map item)) ++ r' := by
    intro z zs r r'
    obtain ⟨c, cs, hc, hne⟩ := hHead z
    simp only [list, List.map_cons, List.isEmpty_nil, List.isEmpty_cons, if_true,
      Bool.false_eq_true, if_false, chars_group, hc]
    cases layout <;> simp [lead, Ne.symm hne]
  cases xs with
  | nil =>
    cases ys with
    | nil => exact (Reads.literal _).imp fun _ => rfl
    | cons y ys => exact Reads.of_ne fun r r' _ _ => hEmpty y ys r r'
  | cons x xs =>
    cases ys with
    | nil => exact Reads.of_ne fun r r' _ _ => (hEmpty x xs r' r).symm
    | cons y ys =>
      refine reads_group (by decide) closes_between (closes_finish (by decide)) fun p hp => ?_
      exact hEach p.1 (List.of_mem_zip hp).1 p.2

theorem chars_labelled_congr {label : String} {part part' : Items}
    (h : (unfolding layout).chars part = (unfolding layout).chars part') :
    (unfolding layout).chars (labelled layout level label part) =
      (unfolding layout).chars (labelled layout level label part') := by
  rw [labelled, labelled, chars_group, chars_group, h]

/-- What stands in parentheses after a label is read whatever follows. -/
theorem reads_labelled (level : Nat) (label : String) {part part' : Items} {same : Prop}
    (h : Reads Closes ((unfolding layout).chars part) ((unfolding layout).chars part') same) :
    Reads anything ((unfolding layout).chars (labelled layout level label part))
      ((unfolding layout).chars (labelled layout level label part')) same := by
  rw [labelled, labelled, chars_group, chars_group]
  refine Reads.after _ (Reads.after _ ((h.seq (fun r _ => ?_) (fun r _ => ?_)
    fun _ => Reads.literal _).imp And.left))
  all_goals exact closes_finish (by decide) r

-- ---------------------------------------------------------------------------
-- Kinds and fields
-- ---------------------------------------------------------------------------

/-- The characters of a node whose closing brace stands at a level. -/
def written (layout : Layout) (level : Nat) (n : Node) : List Char :=
  (unfolding layout).chars [.seed ⟨level, n⟩]

/-- A field with its name. -/
def field (layout : Layout) (level : Nat) (f : Field Ty Expr) : Items :=
  .emit (f.name ++ ": ") :: value layout level f.value

/-- The text of a node after the name of its kind. -/
def body (layout : Layout) (level : Nat) (fields : List (Field Ty Expr)) : List Char :=
  if fields.isEmpty then []
  else
    (unfolding layout).chars
      (group layout level " \x7b" "\x7d" " " (fields.map (field layout (level + 1))))

theorem written_eq (level : Nat) (n : Node) :
    written layout level n = n.kind.name.toList ++ body layout level n.fields := by
  rw [written, Unfolding.chars_seed]
  change (unfolding layout).chars (expand layout ⟨level, n⟩) = _
  unfold expand body
  cases n.fields with
  | nil => simp
  | cons f fs =>
    rw [List.isEmpty_cons, if_neg Bool.false_ne_true, if_neg Bool.false_ne_true, List.map_cons,
      List.map_cons, chars_group, chars_group, String.toList_append, List.append_assoc]
    rfl

/-- After the name of a kind comes nothing that belongs to a word. -/
theorem stops_body (fields : List (Field Ty Expr)) {r : List Char} (hr : Closes r) :
    Stops isWord (body layout level fields ++ r) := by
  unfold body
  cases fields with
  | nil => exact hr.stops
  | cons f fs =>
    rw [List.isEmpty_cons, if_neg Bool.false_ne_true, List.map_cons, chars_group]
    intro c hc
    rw [Option.mem_some.mp hc.symm]
    rfl

theorem exists_head_written (level : Nat) (n : Node) :
    ∃ c cs, written layout level n = c :: cs ∧ c ≠ ']' := by
  obtain ⟨c, cs, hName⟩ := List.exists_cons_of_ne_nil n.kind.toList_name_ne_nil
  have hWord : isWord c = true := n.kind.isWord_name c (hName ▸ List.mem_cons_self)
  refine ⟨c, cs ++ body layout level n.fields, by rw [written_eq, hName, List.cons_append], ?_⟩
  rintro rfl
  exact absurd hWord (by decide)

-- ---------------------------------------------------------------------------
-- Values
-- ---------------------------------------------------------------------------

theorem reads_name (m n : Name) : Reads anything (name m).toList (name n).toList (m = n) := by
  have hChars : ∀ n : Name,
      (name n).toList = "Name(".toList ++ ((quoted n.text).toList ++ [')']) := by
    intro n
    rw [name, String.toList_append, String.toList_append, List.append_assoc]
    rfl
  rw [hChars, hChars]
  refine Reads.after _ (((reads_quoted m.text n.text).seq (fun _ _ => trivial) (fun _ _ => trivial)
    fun _ => Reads.literal _).imp fun h => ?_)
  exact congrArg Name.mk h.1

/-- A name is written with a label, so that it begins like no closing bracket. -/
theorem exists_head_name (n : Name) : ∃ c cs, (name n).toList = c :: cs ∧ c ≠ ']' := by
  rw [name, String.toList_append, String.toList_append]
  exact ⟨'N', _, rfl, by decide⟩

theorem reads_names (level : Nat) (ms ns : List Name) :
    Reads anything ((unfolding layout).chars (contents layout level (.names ms)))
      ((unfolding layout).chars (contents layout level (.names ns))) (ms = ns) := by
  have hList : Reads anything ((unfolding layout).chars (contents layout level (.names ms)))
      ((unfolding layout).chars (contents layout level (.names ns))) (ms.map id = ns.map id) := by
    refine reads_list level ms ns (fun n => ?_) fun m _ n => ?_
    · rw [Unfolding.chars_single]
      exact exists_head_name n
    · rw [Unfolding.chars_single, Unfolding.chars_single]
      exact (reads_name m n).mono fun _ _ => trivial
  rwa [List.map_id, List.map_id] at hList

/-- Reading the contents of a value, once the nodes inside can be read. -/
theorem reads_contents (level : Nat) {v w : Value Ty Expr} (hSort : v.SameSort w)
    (hTypes : ∀ t ∈ v.heldTypes, ∀ level u, Reads Closes (written layout level (.type t))
      (written layout level (.type u)) (t.tree = u.tree))
    (hExprs : ∀ e ∈ v.heldExprs, ∀ level d, Reads Closes (written layout level (.expr e))
      (written layout level (.expr d)) (e.tree = d.tree)) :
    Reads Closes ((unfolding layout).chars (contents layout level v))
      ((unfolding layout).chars (contents layout level w))
      (v.map Ty.tree Expr.tree = w.map Ty.tree Expr.tree) := by
  cases hSort with
  | bool a b =>
    simp only [contents, Unfolding.chars_single]
    refine ((reads_word (isWord_truth a) (isWord_truth b)).mono
      fun _ => Closes.stops).imp fun h => ?_
    rw [truth_injective h]
  | uint m n =>
    simp only [contents, Unfolding.chars_single]
    refine ((reads_word (isWord_decimal m.toNat) (isWord_decimal n.toNat)).mono
      fun _ => Closes.stops).imp fun h => ?_
    rw [UInt32.toNat_inj.mp (decimal_injective h)]
  | int i j =>
    simp only [contents, Unfolding.chars_single]
    refine ((reads_word (isWord_decimalInt i) (isWord_decimalInt j)).mono
      fun _ => Closes.stops).imp fun h => ?_
    rw [decimalInt_injective h]
  | name m n =>
    simp only [contents, Unfolding.chars_single]
    exact ((reads_name m n).mono fun _ _ => trivial).imp (congrArg Value.name)
  | names ms ns =>
    exact ((reads_names level ms ns).mono fun _ _ => trivial).imp (congrArg Value.names)
  | type t u => exact (hTypes t List.mem_cons_self level u).imp (congrArg Value.type)
  | types ts us =>
    have hList := reads_list level ts us (fun t => exists_head_written (level + 1) (.type t))
      fun t ht u => hTypes t ht (level + 1) u
    exact (hList.mono fun _ _ => trivial).imp (congrArg Value.types)
  | expr e d => exact (hExprs e List.mem_cons_self level d).imp (congrArg Value.expr)
  | optExpr e d =>
    -- the first letter tells whether there is an expression
    have hSome : ∀ (e : Expr) r r',
        (unfolding layout).chars (contents layout level (.optExpr none)) ++ r ≠
          (unfolding layout).chars (contents layout level (.optExpr (some e))) ++ r' := by
      intro e r r'
      simp [contents, labelled, chars_group]
    cases e with
    | none =>
      cases d with
      | none => exact (Reads.literal _).imp fun _ => rfl
      | some d => exact Reads.of_ne fun r r' _ _ => hSome d r r'
    | some e =>
      cases d with
      | none => exact Reads.of_ne fun r r' _ _ => (hSome e r' r).symm
      | some d =>
        have hLabelled := reads_labelled level "Some"
          (hExprs e List.mem_cons_self (level + 1) d)
        refine (hLabelled.mono fun _ _ => trivial).imp fun h => ?_
        rw [Value.map, Value.map, Option.map_some, Option.map_some, h]
  | exprs es ds =>
    have hList := reads_list level es ds (fun e => exists_head_written (level + 1) (.expr e))
      fun e he d => hExprs e he (level + 1) d
    exact (hList.mono fun _ _ => trivial).imp (congrArg Value.exprs)

/-- The contents of values that hold the same texts are written alike. -/
theorem chars_contents_congr {v w : Value Ty Expr}
    (h : v.map (fun t level => written layout level (.type t))
        (fun e level => written layout level (.expr e)) =
      w.map (fun t level => written layout level (.type t))
        fun e level => written layout level (.expr e)) :
    (unfolding layout).chars (contents layout level v) =
      (unfolding layout).chars (contents layout level w) := by
  cases Value.sameSort_of_map h with
  | type t u => exact congrFun (Value.type.inj h) level
  | types ts us =>
    exact chars_list_congr (map_eq_map_of (Value.types.inj h) fun _ _ _ hText =>
      congrFun hText (level + 1))
  | expr e d => exact congrFun (Value.expr.inj h) level
  | optExpr e d =>
    have hTexts := Value.optExpr.inj h
    cases e with
    | none =>
      cases d with
      | none => rfl
      | some d => cases hTexts
    | some e =>
      cases d with
      | none => cases hTexts
      | some d => exact chars_labelled_congr (congrFun (Option.some.inj hTexts) (level + 1))
  | exprs es ds =>
    exact chars_list_congr (map_eq_map_of (Value.exprs.inj h) fun _ _ _ hText =>
      congrFun hText (level + 1))
  | _ => cases h; rfl

-- ---------------------------------------------------------------------------
-- Nodes
-- ---------------------------------------------------------------------------

/-- Fields are read one after another, once each can be. -/
theorem reads_body {fs gs : List (Field Ty Expr)}
    (hSlots : fs.map Field.slot = gs.map Field.slot)
    (hEach : ∀ p ∈ fs.zip gs,
      Reads anything ((unfolding layout).chars (field layout (level + 1) p.1))
        ((unfolding layout).chars (field layout (level + 1) p.2))
        (p.1.map Ty.tree Expr.tree = p.2.map Ty.tree Expr.tree)) :
    Reads Closes (body layout level fs) (body layout level gs)
      (fs.map (Field.map Ty.tree Expr.tree) = gs.map (Field.map Ty.tree Expr.tree)) := by
  cases fs with
  | nil =>
    rw [List.map_eq_nil_iff.mp hSlots.symm]
    exact (Reads.literal _).imp fun _ => rfl
  | cons f fs =>
    obtain ⟨g, gs, rfl, -, -⟩ := List.map_eq_cons_iff.mp hSlots.symm
    exact (reads_group (by decide) (fun _ => trivial) (fun _ => trivial) hEach).mono
      fun _ _ => trivial

/-- The text of a node tells its tree, given its category, wherever a list or a label may go on. -/
theorem reads_written {a b : Node} (hCategory : a.isExpr = b.isExpr) (level : Nat) :
    Reads Closes (written layout level a) (written layout level b) (a.tree = b.tree) := by
  induction a using Node.induction_children generalizing b level with
  | step a ih =>
    have hField : a.kind = b.kind → ∀ p ∈ a.fields.zip b.fields,
        Reads anything ((unfolding layout).chars (field layout (level + 1) p.1))
          ((unfolding layout).chars (field layout (level + 1) p.2))
          (p.1.map Ty.tree Expr.tree = p.2.map Ty.tree Expr.tree) := by
      intro hKind p hp
      obtain ⟨hName, hSort⟩ := Node.slot_eq_of_mem_zip hKind p hp
      have hMem := (List.of_mem_zip hp).1
      have hContents := reads_contents (level + 2) hSort
        (fun t ht level u => (ih _ (Node.type_mem_children_of_field hMem ht) (b := .type u) rfl
          level).imp Tree.type.inj)
        (fun e he level d => (ih _ (Node.expr_mem_children_of_field hMem he) (b := .expr d) rfl
          level).imp Tree.expr.inj)
      rw [field, field, Unfolding.chars_emit, Unfolding.chars_emit, hName, value, value,
        hSort.label_eq]
      refine Reads.after _ ((reads_labelled (level + 1) _ hContents).imp fun hValue => ?_)
      rw [Field.map, Field.map, hName, hValue]
    have hBody (hName : a.kind.name = b.kind.name) :=
      reads_body (Node.slots_eq (Node.kind_eq_of_name hCategory hName))
        (hField (Node.kind_eq_of_name hCategory hName))
    rw [written_eq, written_eq]
    refine ((reads_word a.kind.isWord_name b.kind.isWord_name).seq (fun _ => stops_body _)
      (fun _ => stops_body _) hBody).imp ?_
    rintro ⟨hName, hFields⟩
    exact Node.tree_eq_iff.mpr ⟨Node.kind_eq_of_name hCategory hName, hFields⟩

theorem body_congr {fs gs : List (Field Ty Expr)}
    (h : fs.map (fun f => (unfolding layout).chars (field layout (level + 1) f)) =
      gs.map fun f => (unfolding layout).chars (field layout (level + 1) f)) :
    body layout level fs = body layout level gs := by
  cases fs with
  | nil => rw [List.map_eq_nil_iff.mp h.symm]
  | cons f fs =>
    obtain ⟨g, gs, rfl, -, -⟩ := List.map_eq_cons_iff.mp h.symm
    exact chars_group_congr h

/-- Nodes with one tree are written alike. -/
theorem written_eq_of_tree {a b : Node} (hTree : a.tree = b.tree) (level : Nat) :
    written layout level a = written layout level b := by
  have hText := Node.eq_of_tree (fun n level => written layout level n) ?_ hTree
  · exact congrFun hText level
  · intro a b hKind hFields
    funext level
    rw [written_eq, written_eq, hKind]
    refine congrArg _ (body_congr (map_eq_map_of hFields fun f _ g hfg => ?_))
    obtain ⟨hName, hValue⟩ := Field.mk.inj hfg
    rw [field, field, Unfolding.chars_emit, Unfolding.chars_emit, hName, value, value,
      (Value.sameSort_of_map hValue).label_eq]
    exact congrArg _ (chars_labelled_congr (chars_contents_congr hValue))

end Structural

/-- The structural text of a node, given its category, is as good as its tree. -/
theorem Node.structural_eq_iff {a b : Node} (hCategory : a.isExpr = b.isExpr) (layout : Layout) :
    a.structural layout = b.structural layout ↔ a.tree = b.tree := by
  unfold Node.structural
  rw [Unfolding.text_eq_iff]
  constructor
  · intro hText
    have hNil : Structural.Closes [] := nofun
    exact (Structural.reads_written hCategory 0 [] [] hNil hNil (congrArg (· ++ []) hText)).1
  · intro hTree
    exact Structural.written_eq_of_tree hTree 0

variable {h : Hasher} {w : World}

/-- In either layout, types in use have one structural text if and only if they are equal, and so
have expressions, whatever characters their names contain. -/
theorem structural_text_identifies (hw : Reached h w) (layout : Layout) :
    (∀ a b : Ty, w.Occurs (.type a) → w.Occurs (.type b) →
      ((Node.type a).structural layout = (Node.type b).structural layout ↔ (a == b) = true)) ∧
    (∀ a b : Expr, w.Occurs (.expr a) → w.Occurs (.expr b) →
      ((Node.expr a).structural layout = (Node.expr b).structural layout ↔ (a == b) = true)) := by
  constructor
  · intro a b ha hb
    rw [Node.structural_eq_iff (a := .type a) (b := .type b) rfl,
      (hw.equalityBy .type).beq_iff ha hb]
    exact ⟨Tree.type.inj, congrArg Tree.type⟩
  · intro a b ha hb
    rw [Node.structural_eq_iff (a := .expr a) (b := .expr b) rfl,
      (hw.equalityBy .expr).beq_iff ha hb]
    exact ⟨Tree.expr.inj, congrArg Tree.expr⟩

namespace Sample

def plain : Ty := .build .fnv 0 (.symbol ⟨"x"⟩)

/-- Equal to `plain`, but made by a call of its own. -/
def twin : Ty := .build .fnv 1 (.symbol ⟨"x"⟩)

/-- Its name looks like the end of a text of `plain` and the beginning of a line. -/
def mimic : Ty := .build .fnv 2 (.symbol ⟨"x\")) \x7d  * name : x"⟩)

def symbols : World where
  store := { next := 3 }
  held := [.type mimic, .type twin, .type plain]

theorem reached_symbols : Reached .fnv symbols := by
  have hPlain := Reached.start (h := .fnv) |>.call (c := .makeType (.symbol ⟨"x"⟩)) nofun
  have hTwin := hPlain.call (c := .makeType (.symbol ⟨"x"⟩)) nofun
  exact hTwin.call (c := .makeType (.symbol ⟨"x\")) \x7d  * name : x"⟩)) nofun

theorem occurs_symbols {t : Ty} (ht : t ∈ [mimic, twin, plain]) : symbols.Occurs (.type t) :=
  .of_held (List.mem_map_of_mem (f := Node.type) ht)

theorem plain_beq_twin : (plain == twin) = true :=
  ((reached_symbols.equalityBy .type).beq_iff (occurs_symbols (by simp))
    (occurs_symbols (by simp))).mpr rfl

theorem plain_beq_mimic : ¬(plain == mimic) = true := by
  intro hEqual
  have hTree : plain.tree = mimic.tree :=
    ((reached_symbols.equalityBy .type).beq_iff (occurs_symbols (by simp))
      (occurs_symbols (by simp))).mp hEqual
  rw [plain, mimic, Ty.tree_build, Ty.tree_build] at hTree
  exact absurd (TyShape.symbol.inj (TyTree.node.inj hTree)) (by decide)

end Sample

theorem structural_text_identifies_sample :
    Sample.symbols.Occurs (.type Sample.plain) ∧ Sample.symbols.Occurs (.type Sample.twin) ∧
    Sample.symbols.Occurs (.type Sample.mimic) ∧ ∀ layout,
      (Node.type Sample.plain).structural layout = (Node.type Sample.twin).structural layout ∧
      (Node.type Sample.plain).structural layout ≠ (Node.type Sample.mimic).structural layout := by
  have hPlain : Sample.symbols.Occurs (.type Sample.plain) := Sample.occurs_symbols (by simp)
  have hTwin : Sample.symbols.Occurs (.type Sample.twin) := Sample.occurs_symbols (by simp)
  have hMimic : Sample.symbols.Occurs (.type Sample.mimic) := Sample.occurs_symbols (by simp)
  refine ⟨hPlain, hTwin, hMimic, fun layout => ?_⟩
  obtain ⟨hTypes, -⟩ := structural_text_identifies Sample.reached_symbols layout
  exact ⟨(hTypes _ _ hPlain hTwin).mpr Sample.plain_beq_twin,
    fun hText => Sample.plain_beq_mimic ((hTypes _ _ hPlain hMimic).mp hText)⟩

end TermGraph
