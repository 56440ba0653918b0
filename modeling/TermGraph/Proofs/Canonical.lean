import TermGraph.Proofs.Guarantees
import Mathlib.Data.List.Induction
import Mathlib.Data.Set.Card

/-!
# Tables over time

A table keeps nodes in shards and buckets and counts them on the side. From outside it is simpler:
it is as if the table remembered every node that it was asked to canonicalize, in order, and answered
from that list alone.

* `firsts` are the elements of a list that equal no element before them; there are as many as there
  are classes of equal elements (`ncard_classes`).
* `Table.Keeps` says that the buckets and the counter stand for a list. After any sequence of
  canonicalizations it is the list of the firsts (`Table.Keeps.canonicalize`).
* A `Desk` has any number of tables and any number of handles to each. Its moves make tables, share
  handles and ask questions; it writes down every exchange.

Main statement: after any run, every table answers from the exchanges that it had itself
(`tables_answer_from_history`), through whichever handle it is asked.
-/

namespace TermGraph

variable {α β : Type} [BEq α]

-- ---------------------------------------------------------------------------
-- The first of each class
-- ---------------------------------------------------------------------------

/-- Adds an element unless an equal one is there. -/
def keepFirst (kept : List α) (x : α) : List α :=
  if kept.any (· == x) then kept else kept ++ [x]

/-- The elements that equal no element before them, in order. -/
def firsts (xs : List α) : List α :=
  xs.foldl keepFirst []

theorem firsts_concat (xs : List α) (x : α) : firsts (xs ++ [x]) = keepFirst (firsts xs) x := by
  rw [firsts, List.foldl_append]
  rfl

theorem keepFirst_of_any {kept : List α} {x : α} (h : kept.any (· == x) = true) :
    keepFirst kept x = kept :=
  if_pos h

theorem keepFirst_of_not_any {kept : List α} {x : α} (h : ¬ kept.any (· == x) = true) :
    keepFirst kept x = kept ++ [x] :=
  if_neg h

theorem mem_of_mem_firsts {xs : List α} {y : α} (h : y ∈ firsts xs) : y ∈ xs := by
  induction xs using List.reverseRecOn with
  | nil => exact h
  | append_singleton xs x ih =>
    rw [firsts_concat] at h
    by_cases hAny : (firsts xs).any (· == x) = true
    · rw [keepFirst_of_any hAny] at h
      exact List.mem_append_left _ (ih h)
    · rw [keepFirst_of_not_any hAny] at h
      rcases List.mem_append.mp h with h | h
      · exact List.mem_append_left _ (ih h)
      · exact List.mem_append_right _ h

/-- The elements of `S` that equal `x`. -/
def classOf (S : α → Prop) (x : α) : Set α :=
  {y | S y ∧ (y == x) = true}

/-- The classes of equal elements of `S` that the elements of a list are in. -/
def classes (S : α → Prop) (xs : List α) : Set (Set α) :=
  classOf S '' {x | x ∈ xs}

section Lawful

variable [Hashable α] {S : α → Prop} {view : α → β} (hS : EqualityBy S view)

include hS

theorem any_beq_iff {xs : List α} (hxs : ∀ y ∈ xs, S y) {x : α} (hx : S x) :
    xs.any (· == x) = true ↔ view x ∈ xs.map view := by
  rw [List.any_eq_true, List.mem_map]
  constructor
  · rintro ⟨y, hy, hEq⟩
    exact ⟨y, hy, (hS.beq_iff (hxs y hy) hx).mp hEq⟩
  · rintro ⟨y, hy, hView⟩
    exact ⟨y, hy, (hS.beq_iff (hxs y hy) hx).mpr hView⟩

/-- Elements that look the same are looked up alike. -/
theorem find?_congr {xs : List α} (hxs : ∀ y ∈ xs, S y) {x x' : α} (hx : S x) (hx' : S x')
    (hView : view x = view x') : xs.find? (· == x) = xs.find? (· == x') := by
  induction xs with
  | nil => rfl
  | cons y ys ih =>
    have hy : S y := hxs y List.mem_cons_self
    have hHead : (y == x) = (y == x') := by
      rw [Bool.eq_iff_iff, hS.beq_iff hy hx, hS.beq_iff hy hx', hView]
    rw [List.find?_cons, List.find?_cons, hHead, ih fun z hz => hxs z (List.mem_cons_of_mem y hz)]

/-- The first element that equals `x` is one of the firsts. -/
theorem find?_firsts {xs : List α} (hxs : ∀ y ∈ xs, S y) {x : α} (hx : S x) :
    (firsts xs).find? (· == x) = xs.find? (· == x) := by
  induction xs using List.reverseRecOn with
  | nil => rfl
  | append_singleton xs a ih =>
    obtain ⟨hxs', ha⟩ := List.forall_mem_append.mp hxs
    rw [List.forall_mem_singleton] at ha
    have hFirsts : ∀ y ∈ firsts xs, S y := fun y hy => hxs' y (mem_of_mem_firsts hy)
    rw [firsts_concat, List.find?_append, ← ih hxs']
    by_cases hAny : (firsts xs).any (· == a) = true
    · rw [keepFirst_of_any hAny]
      -- `a` is not kept, and whatever equals it was found before
      by_cases hEq : (a == x) = true
      · have hSome : ((firsts xs).find? (· == x)).isSome = true := by
          rw [find?_congr hS hFirsts hx ha ((hS.beq_iff ha hx).mp hEq).symm, List.find?_isSome]
          exact List.any_eq_true.mp hAny
        rw [Option.or_of_isSome hSome]
      · have hNone : [a].find? (· == x) = none := List.find?_eq_none.mpr (by simpa using hEq)
        rw [hNone, Option.or_none]
    · rw [keepFirst_of_not_any hAny, List.find?_append]

theorem any_firsts {xs : List α} (hxs : ∀ y ∈ xs, S y) {x : α} (hx : S x) :
    (firsts xs).any (· == x) = xs.any (· == x) := by
  rw [Bool.eq_iff_iff, List.any_eq_true, List.any_eq_true, ← List.find?_isSome,
    ← List.find?_isSome, find?_firsts hS hxs hx]

/-- No two of the firsts look the same. -/
theorem nodup_firsts {xs : List α} (hxs : ∀ y ∈ xs, S y) : ((firsts xs).map view).Nodup := by
  induction xs using List.reverseRecOn with
  | nil => exact List.nodup_nil
  | append_singleton xs x ih =>
    obtain ⟨hxs', hx⟩ := List.forall_mem_append.mp hxs
    rw [List.forall_mem_singleton] at hx
    have hFirsts : ∀ y ∈ firsts xs, S y := fun y hy => hxs' y (mem_of_mem_firsts hy)
    rw [firsts_concat]
    by_cases hAny : (firsts xs).any (· == x) = true
    · rw [keepFirst_of_any hAny]
      exact ih hxs'
    · rw [keepFirst_of_not_any hAny, List.map_append, List.map_singleton, List.nodup_append_comm,
        List.singleton_append, List.nodup_cons]
      rw [any_beq_iff hS hFirsts hx] at hAny
      exact ⟨hAny, ih hxs'⟩

theorem classOf_eq_iff {x y : α} (hx : S x) (hy : S y) :
    classOf S x = classOf S y ↔ view x = view y := by
  constructor
  · intro hEq
    have hMem : x ∈ classOf S y := hEq ▸ ⟨hx, (hS.beq_iff hx hx).mpr rfl⟩
    exact (hS.beq_iff hx hy).mp hMem.2
  · intro hView
    ext z
    apply and_congr_right
    intro hz
    rw [hS.beq_iff hz hx, hS.beq_iff hz hy, hView]

/-- There are as many firsts as classes. -/
theorem ncard_classes {xs : List α} (hxs : ∀ y ∈ xs, S y) :
    (classes S xs).ncard = (firsts xs).length := by
  induction xs using List.reverseRecOn with
  | nil => simp [classes, firsts]
  | append_singleton xs x ih =>
    obtain ⟨hxs', hx⟩ := List.forall_mem_append.mp hxs
    rw [List.forall_mem_singleton] at hx
    have hInsert : classes S (xs ++ [x]) = insert (classOf S x) (classes S xs) := by
      rw [classes, classes, ← Set.image_insert_eq]
      congr 1
      ext y
      simp [or_comm]
    have hMem : classOf S x ∈ classes S xs ↔ (firsts xs).any (· == x) = true := by
      rw [any_firsts hS hxs' hx, any_beq_iff hS hxs' hx, List.mem_map]
      constructor
      · rintro ⟨y, hy, hEq⟩
        exact ⟨y, hy, (classOf_eq_iff hS (hxs' y hy) hx).mp hEq⟩
      · rintro ⟨y, hy, hView⟩
        exact ⟨y, hy, (classOf_eq_iff hS (hxs' y hy) hx).mpr hView⟩
    rw [hInsert, firsts_concat]
    by_cases hAny : (firsts xs).any (· == x) = true
    · rw [Set.insert_eq_of_mem (hMem.mpr hAny), keepFirst_of_any hAny]
      exact ih hxs'
    · have hFinite : (classes S xs).Finite := (List.finite_toSet xs).image _
      rw [Set.ncard_insert_of_notMem (fun h => hAny (hMem.mp h)) hFinite,
        keepFirst_of_not_any hAny, List.length_append, List.length_singleton, ih hxs']

end Lawful

-- ---------------------------------------------------------------------------
-- One table
-- ---------------------------------------------------------------------------

variable [Hashable α]

/-- The buckets of a table hold the elements of a list, each in the bucket of its digest, and the
counter counts them. -/
structure Table.Keeps (t : Table α) (kept : List α) : Prop where
  mem_bucket : ∀ d y, y ∈ t.bucket d ↔ y ∈ kept ∧ hash y = d
  size : t.size = kept.length

omit [BEq α] in
theorem Table.keeps_empty (h : Hasher) : (Table.empty h : Table α).Keeps [] := by
  refine ⟨fun d y => ?_, rfl⟩
  simp [Table.bucket_empty]

omit [BEq α] in
theorem Table.Keeps.insertNew {t : Table α} {kept : List α} (ht : t.Keeps kept) (x : α) :
    (t.insertNew x).Keeps (kept ++ [x]) := by
  constructor
  · intro d y
    have hOld := ht.mem_bucket d y
    rw [bucket_insertNew, List.mem_append, List.mem_singleton]
    by_cases hDigest : hash x = d
    · rw [if_pos hDigest, List.mem_cons, hOld]
      grind
    · rw [if_neg hDigest, hOld]
      grind
  · rw [List.length_append, List.length_singleton, ← ht.size]
    rfl

section Lawful

variable {S : α → Prop} {view : α → β} (hS : EqualityBy S view) {t : Table α}

include hS

/-- A look-up sees one bucket only, and that is enough: what equals `x` has the digest of `x`. -/
theorem Table.Keeps.find?_eq {kept : List α} (ht : t.Keeps kept) (hKept : ∀ y ∈ kept, S y)
    (hNodup : (kept.map view).Nodup) {x : α} (hx : S x) : t.find? x = kept.find? (· == x) := by
  have hBucket : ∀ y, y ∈ t.bucket (hash x) ∧ (y == x) = true ↔ y ∈ kept ∧ (y == x) = true := by
    intro y
    rw [ht.mem_bucket]
    constructor
    · rintro ⟨⟨hy, -⟩, hEq⟩
      exact ⟨hy, hEq⟩
    · rintro ⟨hy, hEq⟩
      have hView := (hS.beq_iff (hKept y hy) hx).mp hEq
      exact ⟨⟨hy, hS.hash_eq (hKept y hy) hx hView⟩, hEq⟩
  cases hFind : kept.find? (· == x) with
  | none =>
    rw [List.find?_eq_none] at hFind
    refine List.find?_eq_none.mpr fun y hy hEq => ?_
    exact hFind y ((hBucket y).mp ⟨hy, hEq⟩).1 hEq
  | some first =>
    obtain ⟨hMem, hEq⟩ := (hBucket first).mpr ⟨List.mem_of_find?_eq_some hFind, by
      simpa using List.find?_some hFind⟩
    have hSome : ((t.bucket (hash x)).find? (· == x)).isSome = true :=
      List.find?_isSome.mpr ⟨first, hMem, hEq⟩
    obtain ⟨y, hy⟩ := Option.isSome_iff_exists.mp hSome
    -- the bucket may hold its nodes in another order, but only one of them equals `x`
    obtain ⟨hyKept, hyEq⟩ := (hBucket y).mp ⟨List.mem_of_find?_eq_some hy, by
      simpa using List.find?_some hy⟩
    obtain ⟨hFirst, -⟩ := (hBucket first).mp ⟨hMem, hEq⟩
    have hView : view y = view first :=
      ((hS.beq_iff (hKept y hyKept) hx).mp hyEq).trans
        ((hS.beq_iff (hKept first hFirst) hx).mp hEq).symm
    rw [Table.find?_eq, hy, List.inj_on_of_nodup_map hNodup hyKept hFirst hView]

variable {args : List α} (hArgs : ∀ y ∈ args, S y) (ht : t.Keeps (firsts args))

include hArgs ht

theorem Table.Keeps.find?_firsts {x : α} (hx : S x) : t.find? x = args.find? (· == x) := by
  have hFirsts : ∀ y ∈ firsts args, S y := fun y hy => hArgs y (mem_of_mem_firsts hy)
  rw [ht.find?_eq hS hFirsts (nodup_firsts hS hArgs) hx, TermGraph.find?_firsts hS hArgs hx]

theorem Table.Keeps.contains_eq {x : α} (hx : S x) : t.contains x = args.any (· == x) := by
  rw [Table.contains, ht.find?_firsts hS hArgs hx, Bool.eq_iff_iff, List.find?_isSome,
    List.any_eq_true]

theorem Table.Keeps.size_eq : t.size = (classes S args).ncard := by
  rw [ht.size, ncard_classes hS hArgs]

/-- One step: the node that stands for `x` is the first argument that equals it, and the table goes
on to stand for one argument more. -/
theorem Table.Keeps.canonicalize (s : Store) {x : α} (hx : S x) :
    (s.canonicalize t x).1 = (args.find? (· == x)).getD x ∧
      (s.canonicalize t x).2.1.Keeps (firsts (args ++ [x])) := by
  have hFind := ht.find?_firsts hS hArgs hx
  rw [firsts_concat]
  cases hFirst : args.find? (· == x) with
  | some first =>
    have hAny : (firsts args).any (· == x) = true := by
      rw [any_firsts hS hArgs hx, List.any_eq_true, ← List.find?_isSome, hFirst]
      rfl
    rw [Store.canonicalize_of_some (hFind.trans hFirst), keepFirst_of_any hAny]
    exact ⟨rfl, ht⟩
  | none =>
    have hNone : ¬ (firsts args).any (· == x) = true := by
      rw [any_firsts hS hArgs hx, List.any_eq_true, ← List.find?_isSome, hFirst]
      exact Bool.false_ne_true
    rw [Store.canonicalize_of_none (hFind.trans hFirst), keepFirst_of_not_any hNone]
    exact ⟨rfl, ht.insertNew x⟩

end Lawful

-- ---------------------------------------------------------------------------
-- Many tables and many handles
-- ---------------------------------------------------------------------------

/-- What can be asked of a table. -/
inductive Question (α : Type) where
  | canonicalize (x : α)
  | contains (x : α)
  | len
  | isEmpty

/-- What a table replies. -/
inductive Reply (α : Type) where
  | node (x : α)
  | truth (b : Bool)
  | count (n : Nat)

namespace Question

/-- The nodes that are passed with a question. -/
def passed : Question α → List α
  | .canonicalize x | .contains x => [x]
  | .len | .isEmpty => []

/-- The nodes that a question asks to canonicalize. -/
def arguments : Question α → List α
  | .canonicalize x => [x]
  | .contains _ | .len | .isEmpty => []

/-- The reply of a table that was asked to canonicalize `args`, in this order, as far as that list
alone gives it. -/
noncomputable def answer (S : α → Prop) (args : List α) : Question α → Reply α
  | .canonicalize x => .node ((args.find? (· == x)).getD x)
  | .contains x => .truth (args.any (· == x))
  | .len => .count (classes S args).ncard
  | .isEmpty => .truth args.isEmpty

end Question

/-- The reply of a table, and what becomes of the table and the store. -/
def Table.reply (t : Table α) (s : Store) : Question α → Reply α × Table α × Store
  | .canonicalize x =>
    let (first, t, s) := s.canonicalize t x
    (.node first, t, s)
  | .contains x => (.truth (t.contains x), t, s)
  | .len => (.count t.size, t, s)
  | .isEmpty => (.truth (t.size == 0), t, s)

/-- A question that was put to the table at a position, and its reply. -/
structure Exchange (α : Type) where
  table : Nat
  question : Question α
  reply : Reply α

/-- Tables with handles to them. -/
structure Desk (α : Type) where
  store : Store
  tables : List (Table α) := []
  /-- For each handle the position of the table that it leads to. -/
  handles : List Nat := []
  /-- All exchanges so far, oldest first. -/
  exchanges : List (Exchange α) := []

/-- What can be done at a desk; handles go by the position at which they were made. -/
inductive Move (α : Type) where
  /-- Makes a table, and a first handle to it. -/
  | make
  /-- Makes one more handle to the table that a handle leads to. -/
  | share (handle : Nat)
  /-- Asks the table that a handle leads to. -/
  | ask (handle : Nat) (question : Question α)

/-- The nodes that are passed in a move. -/
def Move.passed : Move α → List α
  | .make | .share _ => []
  | .ask _ question => question.passed

namespace Desk

/-- The table at a position; one that was not made has no nodes. -/
def table (d : Desk α) (i : Nat) : Table α :=
  d.tables.getD i (.empty d.store.hasher)

/-- The desk after a move. A handle that was never made leads nowhere. -/
def move (d : Desk α) : Move α → Desk α
  | .make =>
    { d with
      tables := d.tables ++ [.empty d.store.hasher]
      handles := d.handles ++ [d.tables.length] }
  | .share k => { d with handles := d.handles ++ d.handles[k]?.toList }
  | .ask k question =>
    match d.handles[k]? with
    | some i =>
      let (reply, table, store) := (d.table i).reply d.store question
      { d with
        store
        tables := d.tables.set i table
        exchanges := d.exchanges ++ [⟨i, question, reply⟩] }
    | none => d

/-- The desk after a sequence of moves, from a desk without tables. -/
def after (store : Store) (moves : List (Move α)) : Desk α :=
  moves.foldl move { store }

/-- The nodes that the table at a position was asked to canonicalize, oldest first. -/
def arguments (d : Desk α) (i : Nat) : List α :=
  d.exchanges.flatMap fun e => if e.table = i then e.question.arguments else []

/-- What can be told about a desk from its exchanges. -/
structure AnswersFromHistory (S : α → Prop) (id : α → Nat) (d : Desk α) : Prop where
  /-- Any table, asked through any of its handles, replies as what it was asked to canonicalize
  before gives it. -/
  reply : ∀ k i question, d.handles[k]? = some i → (∀ x ∈ question.passed, S x) →
    (d.move (.ask k question)).exchanges =
      d.exchanges ++ [⟨i, question, question.answer S (d.arguments i)⟩]
  /-- The node that stands for `x` equals `x`. -/
  equal : ∀ i x r, ⟨i, .canonicalize x, .node r⟩ ∈ d.exchanges → (r == x) = true
  /-- Of the nodes that a table gave out, those that are equal are one. -/
  same_iff : ∀ i x y r r', ⟨i, .canonicalize x, .node r⟩ ∈ d.exchanges →
    ⟨i, .canonicalize y, .node r'⟩ ∈ d.exchanges → (id r = id r' ↔ (r == r') = true)
  /-- A node that a table gave out stands for itself, and asking changes nothing. -/
  again : ∀ k i x r, d.handles[k]? = some i → ⟨i, .canonicalize x, .node r⟩ ∈ d.exchanges →
    d.move (.ask k (.canonicalize r)) =
      { d with exchanges := d.exchanges ++ [⟨i, .canonicalize r, .node r⟩] }
  /-- A question to one table is nothing to another. -/
  apart : ∀ k i j question, d.handles[k]? = some i → j ≠ i →
    (d.move (.ask k question)).tables[j]? = d.tables[j]? ∧
      (d.move (.ask k question)).arguments j = d.arguments j

-- ---------------------------------------------------------------------------
-- The invariant of a desk
-- ---------------------------------------------------------------------------

/-- Every table stands for what it was asked to canonicalize, and every node that it gave out is the
first of those that equal what it stands for. -/
structure Sound (S : α → Prop) (d : Desk α) : Prop where
  handles : ∀ i ∈ d.handles, i < d.tables.length
  keeps : ∀ h i, (d.tables.getD i (.empty h)).Keeps (firsts (d.arguments i))
  passed : ∀ i, ∀ x ∈ d.arguments i, S x
  results : ∀ i x r, ⟨i, .canonicalize x, .node r⟩ ∈ d.exchanges →
    x ∈ d.arguments i ∧ (d.arguments i).find? (· == x) = some r

theorem Sound.keeps_table {S : α → Prop} {d : Desk α} (hd : d.Sound S) (i : Nat) :
    (d.table i).Keeps (firsts (d.arguments i)) :=
  hd.keeps d.store.hasher i

theorem move_ask {d : Desk α} {k i : Nat} (hHandle : d.handles[k]? = some i)
    (question : Question α) :
    d.move (.ask k question) =
      { d with
        store := ((d.table i).reply d.store question).2.2
        tables := d.tables.set i ((d.table i).reply d.store question).2.1
        exchanges := d.exchanges ++
          [⟨i, question, ((d.table i).reply d.store question).1⟩] } := by
  rw [move, hHandle]

/-- Asking makes no handle. -/
theorem handles_ask (d : Desk α) (k : Nat) (question : Question α) :
    (d.move (.ask k question)).handles = d.handles := by
  rw [move]
  split <;> rfl

theorem after_concat (store : Store) (moves : List (Move α)) (m : Move α) :
    after store (moves ++ [m]) = (after store moves).move m := by
  rw [after, List.foldl_append]
  rfl

omit [BEq α] [Hashable α] in
/-- A table that is not there yet counts as empty, so making one changes no table, except perhaps the
hasher of an empty one. -/
theorem exists_getD_make (tables : List (Table α)) (h h' : Hasher) (i : Nat) :
    ∃ h'', (tables ++ [Table.empty h]).getD i (.empty h') = tables.getD i (.empty h'') := by
  simp only [List.getD_eq_getElem?_getD]
  rcases Nat.lt_or_ge i tables.length with hlt | hge
  · exact ⟨h', by rw [List.getElem?_append_left hlt]⟩
  · rw [List.getElem?_append_right hge, List.getElem?_eq_none hge]
    cases i - tables.length with
    | zero => exact ⟨h, rfl⟩
    | succ => exact ⟨h', rfl⟩

theorem arguments_ask {d : Desk α} {k i : Nat} (hHandle : d.handles[k]? = some i)
    (question : Question α) (j : Nat) :
    (d.move (.ask k question)).arguments j =
      d.arguments j ++ if i = j then question.arguments else [] := by
  rw [move_ask hHandle, arguments, List.flatMap_append, List.flatMap_singleton]
  rfl

section Lawful

variable {S : α → Prop} {view : α → β} (hS : EqualityBy S view) {d : Desk α}

include hS

/-- What a table replies, and what it stands for then. -/
theorem reply_spec {t : Table α} {args : List α} (hArgs : ∀ y ∈ args, S y)
    (ht : t.Keeps (firsts args)) (s : Store) {question : Question α}
    (hPassed : ∀ x ∈ question.passed, S x) :
    (t.reply s question).1 = question.answer S args ∧
      (t.reply s question).2.1.Keeps (firsts (args ++ question.arguments)) := by
  cases question with
  | canonicalize x =>
    obtain ⟨hFirst, hKeeps⟩ := ht.canonicalize hS hArgs s (hPassed x List.mem_cons_self)
    exact ⟨congrArg Reply.node hFirst, hKeeps⟩
  | contains x =>
    have hContains := ht.contains_eq hS hArgs (hPassed x List.mem_cons_self)
    refine ⟨congrArg Reply.truth hContains, ?_⟩
    rw [Question.arguments, List.append_nil]
    exact ht
  | len =>
    refine ⟨congrArg Reply.count (ht.size_eq hS hArgs), ?_⟩
    rw [Question.arguments, List.append_nil]
    exact ht
  | isEmpty =>
    refine ⟨congrArg Reply.truth ?_, ?_⟩
    · rw [ht.size, Bool.eq_iff_iff, beq_iff_eq, List.isEmpty_iff, List.length_eq_zero_iff]
      constructor
      · intro hNone
        refine List.eq_nil_iff_forall_not_mem.mpr fun x hx => ?_
        have hAny : (firsts args).any (· == x) = true := by
          rw [any_firsts hS hArgs (hArgs x hx), any_beq_iff hS hArgs (hArgs x hx)]
          exact List.mem_map_of_mem hx
        rw [hNone] at hAny
        cases hAny
      · rintro rfl
        rfl
    · rw [Question.arguments, List.append_nil]
      exact ht

theorem Sound.move_ask (hd : d.Sound S) {k i : Nat} (hHandle : d.handles[k]? = some i)
    {question : Question α} (hPassed : ∀ x ∈ question.passed, S x) :
    (d.move (.ask k question)).Sound S := by
  have hBound : i < d.tables.length := hd.handles i (List.mem_of_getElem? hHandle)
  obtain ⟨hReply, hKeeps⟩ := reply_spec hS (hd.passed i) (hd.keeps_table i) d.store hPassed
  have hArguments := arguments_ask hHandle question
  constructor
  · intro j hj
    rw [Desk.move_ask hHandle] at hj ⊢
    simpa using hd.handles j hj
  · intro h j
    rw [hArguments, Desk.move_ask hHandle]
    by_cases hij : i = j
    · subst hij
      simpa [List.getD_eq_getElem?_getD, List.getElem?_set_self hBound] using hKeeps
    · simpa [List.getD_eq_getElem?_getD, List.getElem?_set_ne hij, hij] using hd.keeps h j
  · intro j x hx
    rw [hArguments] at hx
    rcases List.mem_append.mp hx with hx | hx
    · exact hd.passed j x hx
    · split at hx
      · cases question with
        | canonicalize y => exact hPassed x hx
        | _ => cases hx
      · cases hx
  · intro j x r hMem
    rw [hArguments]
    rw [Desk.move_ask hHandle] at hMem
    rcases List.mem_append.mp hMem with hOld | hNew
    · -- a first that was found stays the first
      obtain ⟨hx, hFind⟩ := hd.results j x r hOld
      refine ⟨List.mem_append_left _ hx, ?_⟩
      rw [List.find?_append, hFind]
      rfl
    · obtain ⟨rfl, rfl, hr⟩ := Exchange.mk.inj (List.mem_singleton.mp hNew)
      have hx : S x := hPassed x List.mem_cons_self
      rw [if_pos rfl]
      refine ⟨List.mem_append_right _ List.mem_cons_self, ?_⟩
      rw [hReply] at hr
      have hRefl : (x == x) = true := (hS.beq_iff hx hx).mpr rfl
      rw [Reply.node.inj hr, List.find?_append]
      cases (d.arguments j).find? (· == x) with
      | some first => rfl
      | none => simp [Question.arguments, hRefl]

/-- One step: a move keeps the invariant. -/
theorem Sound.move (hd : d.Sound S) {m : Move α} (hPassed : ∀ x ∈ m.passed, S x) :
    (d.move m).Sound S := by
  cases m with
  | make =>
    refine ⟨fun i hi => ?_, fun h i => ?_, hd.passed, hd.results⟩
    · simp only [Desk.move, List.mem_append, List.mem_singleton, List.length_append,
        List.length_singleton] at hi ⊢
      rcases hi with hi | rfl
      · exact Nat.lt_succ_of_lt (hd.handles i hi)
      · exact Nat.lt_succ_self _
    · obtain ⟨h'', hSame⟩ := exists_getD_make d.tables d.store.hasher h i
      show ((d.tables ++ [Table.empty d.store.hasher]).getD i (.empty h)).Keeps _
      rw [hSame]
      exact hd.keeps h'' i
  | share k =>
    refine ⟨fun i hi => ?_, hd.keeps, hd.passed, hd.results⟩
    rcases List.mem_append.mp hi with hi | hi
    · exact hd.handles i hi
    · exact hd.handles i (List.mem_of_getElem? (Option.mem_toList.mp hi))
  | ask k question =>
    cases hHandle : d.handles[k]? with
    | some i => exact hd.move_ask hS hHandle hPassed
    | none =>
      rw [Desk.move, hHandle]
      exact hd

/-- Every run: after any moves the invariant holds. -/
theorem Sound.after (store : Store) {moves : List (Move α)}
    (hPassed : ∀ m ∈ moves, ∀ x ∈ m.passed, S x) : (Desk.after store moves).Sound S := by
  induction moves using List.reverseRecOn with
  | nil =>
    refine ⟨nofun, fun h i => ?_, nofun, nofun⟩
    exact Table.keeps_empty h
  | append_singleton moves m ih =>
    obtain ⟨hMoves, hLast⟩ := List.forall_mem_append.mp hPassed
    rw [after_concat]
    exact (ih hMoves).move hS (hLast m List.mem_cons_self)

/-- What the invariant says about answers. -/
theorem Sound.answersFromHistory {id : α → Nat}
    (hId : ∀ x y, S x → S y → id x = id y → x = y) (hd : d.Sound S) :
    d.AnswersFromHistory S id := by
  have hResult : ∀ i x r, ⟨i, .canonicalize x, .node r⟩ ∈ d.exchanges →
      S x ∧ S r ∧ view r = view x ∧ (d.arguments i).find? (· == x) = some r := by
    intro i x r hMem
    obtain ⟨hx, hFind⟩ := hd.results i x r hMem
    have hSx : S x := hd.passed i x hx
    have hSr : S r := hd.passed i r (List.mem_of_find?_eq_some hFind)
    have hEq : (r == x) = true := by simpa using List.find?_some hFind
    exact ⟨hSx, hSr, (hS.beq_iff hSr hSx).mp hEq, hFind⟩
  constructor
  · intro k i question hHandle hPassed
    obtain ⟨hReply, -⟩ := reply_spec hS (hd.passed i) (hd.keeps_table i) d.store hPassed
    rw [Desk.move_ask hHandle, hReply]
  · intro i x r hMem
    obtain ⟨hx, hr, hView, -⟩ := hResult i x r hMem
    exact (hS.beq_iff hr hx).mpr hView
  · intro i x y r r' hMem hMem'
    obtain ⟨hx, hr, hView, hFind⟩ := hResult i x r hMem
    obtain ⟨hy, hr', hView', hFind'⟩ := hResult i y r' hMem'
    rw [hS.beq_iff hr hr']
    constructor
    · intro hSame
      rw [hId r r' hr hr' hSame]
    · intro hSame
      have hxy : view x = view y := by rw [← hView, hSame, hView']
      rw [find?_congr hS (hd.passed i) hx hy hxy, hFind'] at hFind
      rw [Option.some.inj hFind]
  · intro k i x r hHandle hMem
    obtain ⟨hx, hr, hView, hFind⟩ := hResult i x r hMem
    have hBound : i < d.tables.length := hd.handles i (List.mem_of_getElem? hHandle)
    have hFound : (d.table i).find? r = some r := by
      rw [(hd.keeps_table i).find?_firsts hS (hd.passed i) hr, find?_congr hS (hd.passed i) hr hx hView,
        hFind]
    have hReply : (d.table i).reply d.store (.canonicalize r) =
        (.node r, d.table i, d.store) := by
      rw [Table.reply, Store.canonicalize_of_some hFound]
    have hSet : d.tables.set i (d.table i) = d.tables := by
      rw [table, List.getD_eq_getElem?_getD, List.getElem?_eq_getElem hBound, Option.getD_some,
        List.set_getElem_self]
    rw [Desk.move_ask hHandle, hReply, hSet]
  · intro k i j question hHandle hne
    refine ⟨?_, ?_⟩
    · rw [Desk.move_ask hHandle]
      exact List.getElem?_set_ne hne.symm
    · rw [arguments_ask hHandle, if_neg hne.symm, List.append_nil]

end Lawful

end Desk

-- ---------------------------------------------------------------------------
-- Tables of nodes in use
-- ---------------------------------------------------------------------------

variable {h : Hasher} {w : World}

/-- Tables of types and tables of expressions, however many, asked through whichever handles, answer
from the history of their own exchanges: the node that stands for `x` is the very node that was
passed first among those that equal `x`. Digests may coincide as they like. -/
theorem tables_answer_from_history (hw : Reached h w) :
    (∀ moves : List (Move Ty), (∀ m ∈ moves, ∀ t ∈ m.passed, w.Occurs (.type t)) →
      (Desk.after w.store moves).AnswersFromHistory (fun t => w.Occurs (.type t)) Ty.id) ∧
    (∀ moves : List (Move Expr), (∀ m ∈ moves, ∀ e ∈ m.passed, w.Occurs (.expr e)) →
      (Desk.after w.store moves).AnswersFromHistory (fun e => w.Occurs (.expr e)) Expr.id) := by
  have hUnique := hw.sound.regular.unique
  constructor
  · intro moves hPassed
    have hId : ∀ a b : Ty, w.Occurs (.type a) → w.Occurs (.type b) → a.id = b.id → a = b :=
      fun a b ha hb hId => Node.type.inj (hUnique _ _ ha hb hId)
    have hTypes := hw.equalityBy .type
    exact (Desk.Sound.after hTypes _ hPassed).answersFromHistory hTypes hId
  · intro moves hPassed
    have hId : ∀ a b : Expr, w.Occurs (.expr a) → w.Occurs (.expr b) → a.id = b.id → a = b :=
      fun a b ha hb hId => Node.expr.inj (hUnique _ _ ha hb hId)
    have hExprs := hw.equalityBy .expr
    exact (Desk.Sound.after hExprs _ hPassed).answersFromHistory hExprs hId

/-- Two handles to one table: `byte` is passed through the first, and then stands for `octet`, which
is passed through the second. -/
theorem tables_answer_from_history_sample :
    let d := Desk.after Sample.world.store
      [.make, .share 0, .ask 0 (.canonicalize Sample.byte), .ask 1 (.canonicalize Sample.octet)]
    d.handles = [0, 0] ∧ Sample.byte.id ≠ Sample.octet.id ∧
      d.exchanges = [⟨0, .canonicalize Sample.byte, .node Sample.byte⟩,
        ⟨0, .canonicalize Sample.octet, .node Sample.byte⟩] := by
  have hByte : Sample.world.Occurs (.type Sample.byte) := .of_held (by simp [Sample.world])
  have hOctet := Sample.occurs_octet
  have hEq : (Sample.byte == Sample.octet) = true :=
    ((Sample.reached.equalityBy .type).beq_iff hByte hOctet).mpr rfl
  obtain ⟨hTypes, -⟩ := tables_answer_from_history Sample.reached
  let shared : List (Move Ty) := [.make, .share 0]
  let asked : List (Move Ty) := shared ++ [.ask 0 (.canonicalize Sample.byte)]
  have hAsked : Desk.after Sample.world.store asked =
      (Desk.after Sample.world.store shared).move (.ask 0 (.canonicalize Sample.byte)) :=
    Desk.after_concat ..
  have hHandles : (Desk.after Sample.world.store asked).handles = [0, 0] := by
    rw [hAsked, Desk.handles_ask]
    rfl
  have hFirst : (Desk.after Sample.world.store asked).exchanges =
      [⟨0, .canonicalize Sample.byte, .node Sample.byte⟩] := by
    rw [hAsked, (hTypes shared (by simp [shared, Move.passed])).reply 0 0
      (.canonicalize Sample.byte) rfl (by simpa [Question.passed] using hByte)]
    rfl
  have hSecond := (hTypes asked
    (by simpa [asked, shared, Move.passed, Question.passed] using hByte)).reply 1 0
    (.canonicalize Sample.octet) (by rw [hHandles]; rfl) (by simpa [Question.passed] using hOctet)
  have hBoth : Desk.after Sample.world.store (asked ++ [.ask 1 (.canonicalize Sample.octet)]) =
      (Desk.after Sample.world.store asked).move (.ask 1 (.canonicalize Sample.octet)) :=
    Desk.after_concat ..
  rw [Desk.arguments, hFirst, ← hBoth] at hSecond
  refine ⟨?_, by decide, hSecond.trans ?_⟩
  · exact (congrArg Desk.handles hBoth).trans ((Desk.handles_ask ..).trans hHandles)
  · simp [Question.answer, Question.arguments, hEq]

end TermGraph
