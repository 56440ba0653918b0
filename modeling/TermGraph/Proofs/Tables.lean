import TermGraph.Table

/-!
# What tables do

A table routes a node to a shard by hashing its digest again, and looks twice before it takes a node
in. Seen by digests, neither shows:

* taking a node in adds it to the bucket of its digest and leaves all other buckets as they are, in
  its shard and in the others (`Table.bucket_insertNew`);
* the look-up of the reading half spares work and changes no answer
  (`Table.canonicalize_eq_register`), so that canonicalizing either finds a node and changes nothing,
  or takes the node in and logs it (`Store.canonicalize_of_some`, `Store.canonicalize_of_none`).

What is made or replaced among the tables of one category is nothing to the other tables.
-/

namespace TermGraph

-- ---------------------------------------------------------------------------
-- Shards and buckets
-- ---------------------------------------------------------------------------

section Buckets

variable {α : Type} [Hashable α]

/-- Within a shard, a node goes to the bucket of its digest. -/
theorem Shard.bucket_insert (shard : Shard α) (x : α) (d : Digest) :
    (shard.insert x).bucket d = if hash x = d then x :: shard.bucket d else shard.bucket d := by
  rw [bucket, insert, Std.HashMap.getD_insert]
  by_cases hDigest : hash x = d
  · subst hDigest
    rw [if_pos rfl, if_pos BEq.rfl]
  · rw [if_neg hDigest, if_neg (by simpa using hDigest)]
    rfl

omit [Hashable α] in
/-- A table without nodes has empty buckets. -/
theorem Table.bucket_empty (h : Hasher) (d : Digest) : (Table.empty h : Table α).bucket d = [] := by
  simp [bucket, shard, empty, Shard.bucket]

omit [Hashable α] in
/-- Digests that are routed to one position have one shard. -/
theorem Table.shard_congr {t : Table α} {d d' : Digest} (h : t.shardOf d = t.shardOf d') :
    t.shard d = t.shard d' := by
  simp only [shard, h]

/-- One shard takes the node in, and the others stay as they are. -/
theorem Table.shard_insertNew (t : Table α) (x : α) (d : Digest) :
    (t.insertNew x).shard d =
      if t.shardOf (hash x) = t.shardOf d then (t.shard d).insert x else t.shard d := by
  have hRoute : (t.insertNew x).shard d = (t.shards.set (t.shardOf (hash x))
      ((t.shard (hash x)).insert x))[t.shardOf d] := rfl
  rw [hRoute, Fin.getElem_fin, Vector.getElem_set]
  by_cases hShard : t.shardOf (hash x) = t.shardOf d
  · rw [if_pos hShard, if_pos (congrArg Fin.val hShard), Table.shard_congr hShard]
  · rw [if_neg hShard, if_neg fun hVal => hShard (Fin.ext hVal)]
    rfl

/-- The digest decides: what is taken in goes to the bucket of its digest and to no other. -/
theorem Table.bucket_insertNew (t : Table α) (x : α) (d : Digest) :
    (t.insertNew x).bucket d = if hash x = d then x :: t.bucket d else t.bucket d := by
  rw [bucket, shard_insertNew]
  by_cases hShard : t.shardOf (hash x) = t.shardOf d
  · rw [if_pos hShard, Shard.bucket_insert]
    rfl
  · -- another shard is another digest
    have hDigest : hash x ≠ d := fun hEq => hShard (congrArg t.shardOf hEq)
    rw [if_neg hShard, if_neg hDigest]
    rfl

end Buckets

-- ---------------------------------------------------------------------------
-- Canonicalizing
-- ---------------------------------------------------------------------------

section Canonicalize

variable {α : Type} [BEq α] [Hashable α] {s : Store} {t : Table α} {x : α}

/-- A look-up sees the bucket of one digest. -/
theorem Table.find?_eq (t : Table α) (x : α) : t.find? x = (t.bucket (hash x)).find? (· == x) :=
  rfl

/-- The second look-up alone is enough. -/
theorem Table.canonicalize_eq_register (t : Table α) (x : α) : t.canonicalize x = t.register x := by
  rw [canonicalize]
  cases hFind : t.find? x with
  | some first => rw [register, hFind]
  | none => rfl

/-- A node that was found stands for `x`, and nothing changes. -/
theorem Store.canonicalize_of_some {first : α} (h : t.find? x = some first) :
    s.canonicalize t x = (first, t, s) := by
  rw [canonicalize, Table.canonicalize_eq_register, Table.register, h]
  exact congrArg (fun s => (first, t, s)) s.log_nil

/-- Otherwise `x` stands for itself, and the table takes it in and logs the number of its nodes. -/
theorem Store.canonicalize_of_none (h : t.find? x = none) :
    s.canonicalize t x =
      (x, t.insertNew x, s.log [.inserted (t.shardOf (hash x)) (t.size + 1)]) := by
  rw [canonicalize, Table.canonicalize_eq_register, Table.register, h]
  rfl

end Canonicalize

-- ---------------------------------------------------------------------------
-- The tables of both categories
-- ---------------------------------------------------------------------------

namespace Tables

variable {ts : Tables} {c c' : Category} {i j : Nat}

/-- What was put in is there. -/
@[simp] theorem of_replace_self (tables : Array (Table c.Carrier)) :
    (ts.replace c tables).of c = tables := by
  cases c <;> rfl

/-- What is replaced for one category is nothing to the other. -/
theorem of_replace_ne (tables : Array (Table c.Carrier)) (hne : c ≠ c') :
    (ts.replace c tables).of c' = ts.of c' := by
  cases c <;> cases c'
  case type.expr => rfl
  case expr.type => rfl
  all_goals exact absurd rfl hne

/-- All tables are as `P` says. -/
def All (P : (c : Category) → Table c.Carrier → Prop) (ts : Tables) : Prop :=
  ∀ c, ∀ table ∈ ts.of c, P c table

section All

variable {P : (c : Category) → Table c.Carrier → Prop}

theorem all_empty : All P {} := by
  intro c table hTable
  cases c <;> simp [of] at hTable

theorem All.imp {Q : (c : Category) → Table c.Carrier → Prop} (h : ts.All P)
    (hImp : ∀ c table, P c table → Q c table) : ts.All Q :=
  fun c table hTable => hImp c table (h c table hTable)

/-- Other tables come in the place of those of a category. -/
theorem All.replace (h : ts.All P) {tables : Array (Table c.Carrier)}
    (hTables : ∀ table ∈ tables, P c table) : (ts.replace c tables).All P := by
  intro c' table hTable
  by_cases hSame : c = c'
  · subst hSame
    rw [of_replace_self] at hTable
    exact hTables table hTable
  · rw [of_replace_ne tables hSame] at hTable
    exact h c' table hTable

/-- A table is made. -/
theorem All.make (h : ts.All P) {hasher : Hasher} (hEmpty : P c (.empty hasher)) :
    (ts.make c hasher).All P := by
  refine h.replace fun table hTable => ?_
  rcases Array.mem_push.mp hTable with hOld | rfl
  · exact h c table hOld
  · exact hEmpty

/-- A table is replaced. -/
theorem All.set (h : ts.All P) {table : Table c.Carrier} (hNew : P c table) :
    (ts.set c i table).All P := by
  refine h.replace fun table' hTable => ?_
  rcases Array.mem_or_eq_of_mem_setIfInBounds hTable with hOld | rfl
  · exact h c table' hOld
  · exact hNew

end All

-- ---------------------------------------------------------------------------
-- Counting
-- ---------------------------------------------------------------------------

/-- The size of a table that was made. -/
theorem size_of_get? {table : Table c.Carrier} (h : ts.get? c i = some table) :
    ts.size c i = table.size := by
  rw [size, h, Option.elim_some]

/-- A table is found at a position where one was made. -/
theorem lt_count_of_get? {table : Table c.Carrier} (h : ts.get? c i = some table) :
    i < ts.count c :=
  (Array.getElem?_eq_some_iff.mp h).1

/-- A new table is empty, and one that was not made counts as empty. -/
theorem size_make (c : Category) (hasher : Hasher) (c' : Category) (i : Nat) :
    (ts.make c hasher).size c' i = ts.size c' i := by
  rw [size, size, get?, get?, make]
  by_cases hSame : c = c'
  · subst hSame
    rw [of_replace_self, Array.getElem?_push]
    split
    · rename_i hLast
      rw [hLast, Array.getElem?_eq_none (Nat.le_refl _)]
      rfl
    · rfl
  · rw [of_replace_ne _ hSame]

/-- A table that was made is replaced by another, with the size of that. -/
theorem size_set_self {table : Table c.Carrier} (hi : i < ts.count c) :
    (ts.set c i table).size c i = table.size := by
  rw [size, get?, set, of_replace_self, Array.getElem?_setIfInBounds_self_of_lt hi,
    Option.elim_some]

/-- Replacing a table leaves the others as they are. -/
theorem size_set_ne {table : Table c.Carrier} (hElse : ¬ (c = c' ∧ i = j)) :
    (ts.set c i table).size c' j = ts.size c' j := by
  rw [size, size, get?, get?, set]
  by_cases hSame : c = c'
  · subst hSame
    rw [of_replace_self, Array.getElem?_setIfInBounds_ne fun hij => hElse ⟨rfl, hij⟩]
  · rw [of_replace_ne _ hSame]

end Tables

end TermGraph
