import TermGraph.Proofs.OutlineText

/-!
# How an outline is laid out

An outline is written at a level, and everything inside it at that level or some levels deeper. If
no name contains a line feed, the level is seen in one place only, the spaces after each line feed,
and the line feeds are those that begin the lines of fields and list elements.

Both are told by `Aligned`: a text that depends on a level is the text of another level with the
difference put in after each line feed, and has a fixed number of lines. Words are aligned, the
beginning of a line is, and what is put together from aligned texts is; so a node is aligned if the
nodes directly inside it are (`aligned_written`).

Main statement: an outline is appended to what is there already, moves with its level, and has a line
for each field and each list element of every node in it (`outline_layout`).
-/

namespace TermGraph

namespace Text

/-- Puts `k` spaces after every line feed. -/
def indent (k : Nat) (s : List Char) : List Char :=
  s.flatMap fun c => if c = '\n' then c :: List.replicate k ' ' else [c]

theorem indent_append (k : Nat) (s t : List Char) : indent k (s ++ t) = indent k s ++ indent k t :=
  List.flatMap_append

theorem indent_of_notMem (k : Nat) {s : List Char} (hs : '\n' ∉ s) : indent k s = s := by
  induction s with
  | nil => rfl
  | cons c s ih =>
    obtain ⟨hc, hs⟩ := not_or.mp (mt List.mem_cons.mpr hs)
    have hHead : ¬c = '\n' := fun h => hc h.symm
    rw [indent, List.flatMap_cons, if_neg hHead]
    exact congrArg (c :: ·) (ih hs)

/-- A text with `k` spaces put in after every line feed. -/
def indented (k : Nat) (s : String) : String :=
  String.ofList (indent k s.toList)

theorem lineFeed_notMem_of_isWord {s : List Char} (hs : ∀ c ∈ s, isWord c = true) : '\n' ∉ s := by
  intro hFeed
  exact absurd (hs _ hFeed) (by decide)

end Text

/-- The number of elements, if the value is a list. -/
def Value.elementCount {τ ε : Type} : Value τ ε → Nat
  | .names ns => ns.length
  | .types ts => ts.length
  | .exprs es => es.length
  | _ => 0

/-- The lines that a node adds to an outline: one for each field and one for each element of a list
among them. -/
def Node.lineCount (n : Node) : Nat :=
  n.fields.length + total (·.value.elementCount) n.fields

namespace Outline

open Text

-- ---------------------------------------------------------------------------
-- Texts that move with their level
-- ---------------------------------------------------------------------------

/-- At a deeper level the text has more spaces after its line feeds and is the same otherwise; at
every level it has the same number of line feeds. -/
structure Aligned (text : Nat → List Char) (lines : Nat) : Prop where
  shift : ∀ level k, text (level + k) = indent (2 * k) (text level)
  count : ∀ level, (text level).count '\n' = lines

namespace Aligned

variable {a b : Nat → List Char} {m n : Nat}

theorem word {s : List Char} (hs : '\n' ∉ s) : Aligned (fun _ => s) 0 where
  shift _ k := (indent_of_notMem (2 * k) hs).symm
  count _ := List.count_eq_zero_of_not_mem hs

theorem append (ha : Aligned a m) (hb : Aligned b n) :
    Aligned (fun level => a level ++ b level) (m + n) where
  shift level k := by rw [indent_append, ← ha.shift, ← hb.shift]
  count level := by rw [List.count_append, ha.count, hb.count]

theorem deeper (d : Nat) (ha : Aligned a m) : Aligned (fun level => a (level + d)) m where
  shift level k := by rw [Nat.add_right_comm, ha.shift]
  count level := ha.count (level + d)

/-- A line feed and the spaces of a level: the one place where the level is seen. -/
theorem lineStart : Aligned (fun level => '\n' :: (spaces (2 * level)).toList) 1 := by
  have hSpaces : ∀ n, '\n' ∉ (spaces n).toList := by
    intro n hFeed
    rw [toList_spaces] at hFeed
    exact absurd (List.eq_of_mem_replicate hFeed) (by decide)
  refine ⟨fun level k => ?_, fun level => ?_⟩
  · have hIndent : indent (2 * k) ('\n' :: (spaces (2 * level)).toList) =
        '\n' :: (List.replicate (2 * k) ' ' ++ indent (2 * k) (spaces (2 * level)).toList) := rfl
    rw [hIndent, indent_of_notMem _ (hSpaces _), toList_spaces, toList_spaces,
      List.replicate_append_replicate, Nat.mul_add, Nat.add_comm]
  · rw [List.count_cons_self, List.count_eq_zero_of_not_mem (hSpaces _)]

theorem heading {about : String} (hAbout : '\n' ∉ about.toList) :
    Aligned (fun level => heading level about) 1 := by
  have hRest : '\n' ∉ '*' :: ' ' :: (about.toList ++ [' ', ':', ' ']) := by
    simp [hAbout]
  exact lineStart.append (word hRest)

/-- Aligned texts one after another. -/
theorem pieces {α : Type} {text : Nat → α → Nat → List Char} {lines : α → Nat} {xs : List α}
    (hEach : ∀ i, ∀ x ∈ xs, Aligned (text i x) (lines x)) (i : Nat) :
    Aligned (fun level => pieces (fun i x => text i x level) i xs) (total lines xs) := by
  induction xs generalizing i with
  | nil => exact word List.not_mem_nil
  | cons x xs ih =>
    have hHead := hEach i x List.mem_cons_self
    have hTail := ih (fun i y hy => hEach i y (List.mem_cons_of_mem x hy)) (i + 1)
    exact hHead.append hTail

end Aligned

-- ---------------------------------------------------------------------------
-- Values and nodes
-- ---------------------------------------------------------------------------

/-- The elements of a list stand on lines of their own. -/
theorem aligned_list {α : Type} {item : Nat → α → Item Seed String} {lines : α → Nat} {xs : List α}
    (hEach : ∀ x ∈ xs, Aligned (fun level => unfolding.chars [item level x]) (lines x)) :
    Aligned (fun level => unfolding.chars (list level (xs.map (item level))))
      (xs.length + total lines xs) := by
  cases xs with
  | nil =>
    have hEmpty : ∀ level, unfolding.chars (list level ([].map (item level))) = "[]".toList :=
      fun _ => unfolding.chars_single "[]"
    simp only [hEmpty]
    exact Aligned.word (by decide)
  | cons x xs =>
    have hLines : ∀ i, ∀ y ∈ x :: xs, Aligned
        (fun level => heading (level + 1) (decimal i) ++ unfolding.chars [item level y])
        (1 + lines y) := by
      intro i y hy
      have hNumber := lineFeed_notMem_of_isWord (isWord_decimal i)
      exact ((Aligned.heading hNumber).deeper 1).append (hEach y hy)
    simp only [chars_list_cons, pieces_map]
    rw [← total_one, ← total_add]
    exact Aligned.pieces hLines 0

/-- Nodes in a list stand two levels deeper than its line. -/
theorem aligned_nodes {α : Type} (node : α → Node) {lines : Node → Nat} {xs : List α}
    (hEach : ∀ x ∈ xs, Aligned (fun level => written level (node x)) (lines (node x))) :
    Aligned (fun level => unfolding.chars (list level (xs.map fun x => .seed ⟨level + 2, node x⟩)))
      (xs.length + total lines (xs.map node)) := by
  rw [total_map]
  exact aligned_list fun x hx => (hEach x hx).deeper 2

/-- A value is aligned if the nodes in it are. -/
theorem aligned_value {v : Value Ty Expr} {lines : Node → Nat}
    (hNames : ∀ x ∈ v.heldNames, x.SingleLine)
    (hNodes : ∀ n ∈ v.nodes, Aligned (fun level => written level n) (lines n)) :
    Aligned (fun level => unfolding.chars (value level v))
      (v.elementCount + total lines v.nodes) := by
  have hWord : ∀ s : String, '\n' ∉ s.toList →
      Aligned (fun _ => unfolding.chars [.emit s]) 0 := by
    intro s hs
    rw [Unfolding.chars_single]
    exact Aligned.word hs
  have hNode : ∀ n, Aligned (fun level => written level n) (lines n) →
      Aligned (fun level => written (level + 1) n) (0 + total lines [n]) := by
    intro n hn
    rw [Nat.zero_add]
    exact hn.deeper 1
  cases v with
  | bool b => exact hWord _ (lineFeed_notMem_of_isWord (isWord_truth b))
  | uint n => exact hWord _ (lineFeed_notMem_of_isWord (isWord_decimal n.toNat))
  | int i => exact hWord _ (lineFeed_notMem_of_isWord (isWord_decimalInt i))
  | name x => exact hWord _ (hNames x List.mem_cons_self)
  | names xs =>
    have hEach : ∀ x ∈ xs, Aligned (fun _ => unfolding.chars [.emit x.text]) 0 :=
      fun x hx => hWord _ (hNames x hx)
    have hList := aligned_list hEach
    rw [total_zero] at hList
    exact hList
  | type t => exact hNode (.type t) (hNodes _ List.mem_cons_self)
  | types ts =>
    have hInside : (Value.types ts : Value Ty Expr).nodes = ts.map .type := List.append_nil _
    rw [hInside] at hNodes ⊢
    exact aligned_nodes Node.type fun t ht => hNodes _ (List.mem_map_of_mem ht)
  | expr e => exact hNode (.expr e) (hNodes _ List.mem_cons_self)
  | optExpr e =>
    cases e with
    | none => exact hWord "nil" (by decide)
    | some e => exact hNode (.expr e) (hNodes _ List.mem_cons_self)
  | exprs es =>
    have hInside : (Value.exprs es : Value Ty Expr).nodes = es.map .expr := rfl
    rw [hInside] at hNodes ⊢
    exact aligned_nodes Node.expr fun e he => hNodes _ (List.mem_map_of_mem he)

/-- What the fields and the children of a node add up to. -/
theorem total_lineCount_visits (n : Node) :
    total Node.lineCount n.visits = total (fun f => 1 + (f.value.elementCount +
      total (fun c => total Node.lineCount c.visits) f.value.nodes)) n.fields := by
  rw [Node.visits_eq, total_cons, total_flatMap, Node.children, total_flatMap, total_add, total_one,
    total_add, Node.lineCount, Nat.add_assoc]

theorem aligned_written {n : Node} (hn : n.SingleLine) :
    Aligned (fun level => written level n) (total Node.lineCount n.visits) := by
  induction n using Node.induction_children with
  | step n ih =>
    have hFields : ∀ f ∈ n.fields, Aligned
        (fun level => heading level f.name ++ unfolding.chars (value level f.value))
        (1 + (f.value.elementCount +
          total (fun c => total Node.lineCount c.visits) f.value.nodes)) := by
      intro f hf
      have hName : f.name ∈ n.kind.fieldNames := by
        rw [← Node.names_fields]
        exact List.mem_map_of_mem hf
      have hWord := lineFeed_notMem_of_isWord (n.kind.isWord_fieldNames _ hName)
      refine (Aligned.heading hWord).append (aligned_value (hn n n.mem_visits_self f hf) ?_)
      intro c hc
      have hChild : c ∈ n.children := List.mem_flatMap_of_mem hf hc
      exact ih c hChild (hn.child hChild)
    have hText : ∀ level, written level n = n.kind.name.toList ++ pieces
        (fun _ f => heading level f.name ++ unfolding.chars (value level f.value)) 0 n.fields := by
      intro level
      rw [written_eq, fieldLines, pieces_const]
    have hKind := Aligned.word (lineFeed_notMem_of_isWord n.kind.isWord_name)
    simp only [hText]
    rw [total_lineCount_visits, ← Nat.zero_add (total _ _)]
    exact hKind.append (Aligned.pieces (fun _ => hFields) 0)

end Outline

theorem Node.toList_outline (n : Node) (level : Nat) :
    (n.outline level).toList = Outline.written level n :=
  Outline.unfolding.toList_text "" _

/-- An outline is appended to what is there already. If no name contains a line feed, a deeper level
puts two spaces for each further level after every line feed, and there is one line feed for each
field and each list element of every node that a walk visits. -/
theorem outline_layout (n : Node) (level k : Nat) (start : String) :
    n.outlineInto level start = start ++ n.outline level ∧
    (n.SingleLine →
      n.outline (level + k) = Text.indented (2 * k) (n.outline level) ∧
      (n.outline level).toList.count '\n' = total Node.lineCount n.visits) := by
  refine ⟨?_, fun hn => ?_⟩
  · rw [← String.toList_inj, String.toList_append, Node.toList_outline, Node.outlineInto,
      Unfolding.toList_text]
    rfl
  · obtain ⟨hShift, hCount⟩ := Outline.aligned_written hn
    refine ⟨?_, ?_⟩
    · rw [← String.toList_inj, Text.indented, String.toList_ofList, Node.toList_outline,
        Node.toList_outline, hShift]
    · rw [Node.toList_outline, hCount]

/-- A template type with two arguments. -/
def Sample.template : Ty :=
  .build .fnv 3 (.cppName ⟨"pair"⟩ [plain, twin])

theorem outline_layout_sample :
    (Node.type Sample.template).SingleLine ∧
    (Node.type Sample.template).outline 3 =
      Text.indented 4 ((Node.type Sample.template).outline 1) ∧
    ((Node.type Sample.template).outline 1).toList.count '\n' = 6 := by
  have hLine : (Node.type Sample.plain).SingleLine :=
    Sample.singleLine_symbol 0 (by simp [Name.SingleLine])
  have hLine' : (Node.type Sample.twin).SingleLine :=
    Sample.singleLine_symbol 1 (by simp [Name.SingleLine])
  have hSingle : (Node.type Sample.template).SingleLine := by
    intro m hm f hf x hx
    rcases Node.mem_visits_iff.mp hm with rfl | ⟨c, hc, hmc⟩
    · have hName : x = ⟨"pair"⟩ := by
        rcases List.mem_pair.mp hf with rfl | rfl
        · exact List.mem_singleton.mp hx
        · cases hx
      rw [hName]
      simp [Name.SingleLine]
    · rcases List.mem_pair.mp hc with rfl | rfl
      · exact hLine m hmc f hf x hx
      · exact hLine' m hmc f hf x hx
  have hVisits : total Node.lineCount (Node.type Sample.template).visits = 6 := by
    have hSymbol : ∀ id name, total Node.lineCount
        (Node.type (.build .fnv id (.symbol name))).visits = 1 := by
      intro id name
      rw [Node.visits_eq]
      rfl
    rw [Node.visits_eq, total_cons, total_flatMap]
    change 4 + (total Node.lineCount (Node.type Sample.plain).visits +
      (total Node.lineCount (Node.type Sample.twin).visits + 0)) = 6
    rw [Sample.plain, Sample.twin, hSymbol, hSymbol]
  obtain ⟨-, hText⟩ := outline_layout (.type Sample.template) 1 2 ""
  obtain ⟨hShift, hCount⟩ := hText hSingle
  exact ⟨hSingle, hShift, hCount.trans hVisits⟩

end TermGraph
