import TermGraph.Store
import Std.Data.HashMap

/-!
# Hash-consing tables

A table keeps, for every class of equal nodes it has seen, the node that came first. It is cut into
shards, so that callers at different shards do not wait for each other. The digest of a node is
hashed once more to choose its shard, and within a shard the nodes are kept in buckets by digest: a
look-up compares nodes only where the digests agree.
-/

namespace TermGraph

/-! ## Shards -/

/-- A part of a table. -/
structure Shard (α : Type) where
  buckets : Std.HashMap Digest (List α) := {}

namespace Shard

variable {α : Type} [BEq α] [Hashable α]

/-- The nodes of a digest. -/
def bucket (shard : Shard α) (digest : Digest) : List α :=
  shard.buckets.getD digest []

/-- The node in the shard that equals `x`. -/
def find? (shard : Shard α) (x : α) : Option α :=
  (shard.bucket (hash x)).find? (· == x)

/-- Adds a node that equals none in the shard. -/
def insert (shard : Shard α) (x : α) : Shard α where
  -- no two nodes of a bucket are equal, so their order does not matter
  buckets := shard.buckets.insert (hash x) (x :: shard.bucket (hash x))

end Shard

/-! ## Tables -/

/-- A table of nodes. -/
structure Table (α : Type) where
  /-- What chooses the shard of a digest. -/
  hasher : Hasher
  shards : Vector (Shard α) 16
  /-- The number of nodes in all shards. -/
  size : Nat

namespace Table

variable {α : Type} [BEq α] [Hashable α]

/-- A table without nodes. -/
def empty (hasher : Hasher) : Table α where
  hasher
  shards := .replicate 16 {}
  size := 0

/-- The position of the shard for a digest. -/
def shardOf (t : Table α) (digest : Digest) : Fin 16 :=
  .ofNat 16 (t.hasher.digest [.digest digest]).toNat

/-- The shard for a digest. -/
def shard (t : Table α) (digest : Digest) : Shard α :=
  t.shards[t.shardOf digest]

/-- The nodes of a digest. -/
def bucket (t : Table α) (digest : Digest) : List α :=
  (t.shard digest).bucket digest

/-- The node in the table that equals `x`. -/
def find? (t : Table α) (x : α) : Option α :=
  (t.shard (hash x)).find? x

def contains (t : Table α) (x : α) : Bool :=
  (t.find? x).isSome

/-- Adds a node that equals none in the table. -/
def insertNew (t : Table α) (x : α) : Table α :=
  { t with
    shards := t.shards.set (t.shardOf (hash x)) ((t.shard (hash x)).insert x)
    size := t.size + 1 }

/-- The half of canonicalizing that writes. It looks again before it adds the node: an equal one may
have come in since the half that reads, which others may run at the same time. -/
def register (t : Table α) (x : α) : α × Table α × List Event :=
  match t.find? x with
  | some first => (first, t, [])
  | none =>
    let t' := t.insertNew x
    (x, t', [.inserted (t.shardOf (hash x)) t'.size])

/-- The node that stands for `x`: the first one equal to it that the table has seen, which is `x`
itself if it is new. A table logs what it takes in. -/
def canonicalize (t : Table α) (x : α) : α × Table α × List Event :=
  match t.find? x with
  | some first => (first, t, [])
  | none => t.register x

end Table

/-! ## The tables of both categories -/

/-- All tables in use. A table goes by its category and the position at which it was made. -/
structure Tables where
  types : Array (Table Ty) := #[]
  exprs : Array (Table Expr) := #[]

namespace Tables

/-- The tables of a category. -/
def of (ts : Tables) : (c : Category) → Array (Table c.Carrier)
  | .type => ts.types
  | .expr => ts.exprs

/-- Other tables in the place of those of a category. -/
def replace (ts : Tables) : (c : Category) → Array (Table c.Carrier) → Tables
  | .type, types => { ts with types }
  | .expr, exprs => { ts with exprs }

def count (ts : Tables) (c : Category) : Nat :=
  (ts.of c).size

def get? (ts : Tables) (c : Category) (i : Nat) : Option (Table c.Carrier) :=
  (ts.of c)[i]?

/-- Makes a table without nodes. -/
def make (ts : Tables) (c : Category) (hasher : Hasher) : Tables :=
  ts.replace c ((ts.of c).push (.empty hasher))

def set (ts : Tables) (c : Category) (i : Nat) (table : Table c.Carrier) : Tables :=
  ts.replace c ((ts.of c).setIfInBounds i table)

/-- The number of nodes in a table; one that was not made has none. -/
def size (ts : Tables) (c : Category) (i : Nat) : Nat :=
  (ts.get? c i).elim 0 Table.size

end Tables

/-- Canonicalizes with the log of a store. -/
def Store.canonicalize {α : Type} [BEq α] [Hashable α] (s : Store) (t : Table α) (x : α) :
    α × Table α × Store :=
  let (first, t, events) := t.canonicalize x
  (first, t, s.log events)

end TermGraph
