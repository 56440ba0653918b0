import TermGraph.Proofs.Reach
import TermGraph.Proofs.Steps

/-!
# The log

The log of a store is to tell of two things and of nothing else: of every node that was refused, and
of every node that a table took in.

* An `Entry` is one of these, seen from outside: the rejection that was returned, or the table that
  a node was new to, the shard it went to and the number of nodes in the table right after.
* `Records` says that some events are a list of entries, and that the totals of each table in them
  are 1, 2, 3, ... up to its size. It goes from step to step (`Records.step`) and so through any run
  (`Records.run`).

Main statement: the log is the record of the entries, for every sequence of calls and for every
script; and a script that reads the log is told of each entry once and in order (`log_is_exact`).
-/

namespace TermGraph

-- ---------------------------------------------------------------------------
-- Entries
-- ---------------------------------------------------------------------------

/-- What the log is to tell of. -/
inductive Entry where
  /-- A node was refused. -/
  | refused (rejection : Rejection)
  /-- The table of a category at a position took a node into a shard and has `total` nodes now. -/
  | took (category : Category) (table shard total : Nat)

namespace Entry

/-- How an entry stands in the log. -/
def event : Entry → Event
  | .refused r => r.event
  | .took _ _ shard total => .inserted shard total

/-- The total, if the entry is about that table. -/
def total? (category : Category) (table : Nat) : Entry → Option Nat
  | .took c i _ total => if c = category ∧ i = table then some total else none
  | .refused _ => none

/-- What is refused is told of. -/
def ofOutcome {α : Type} : Except Rejection α → Option Entry
  | .error r => some (.refused r)
  | .ok _ => none

theorem events_ofOutcome {α : Type} (outcome : Except Rejection α) :
    (ofOutcome outcome).toList.map event = Rejection.events outcome := by
  cases outcome <;> rfl

/-- What the log is to tell when a table, which has `total` nodes then, was asked to canonicalize:
of a node that it did not contain. -/
def ofTable (tables : Tables) (category : Category) (i : Nat) (x : category.Carrier) (total : Nat) :
    Option Entry := do
  let table ← tables.get? category i
  if table.contains x then none else some (.took category i (table.shardOf (hash x)) total)

/-- A line of the log is about the entry: it has what the answer to a refused request has, or the
total. -/
def Shown : Entry → Datum → Prop
  | .refused r, line => line.field? "level" = some (.text "DEBUG") ∧
    ∀ name ∈ ["kind", "field", "expected", "found", "reason"],
      line.field? name = (Report.ofRejection r).field? name
  | .took _ _ _ total, line => line.field? "level" = some (.text "TRACE") ∧
    line.field? "total" = some (.nat total)

/-- Every entry is shown by the line of its event. -/
theorem shown_ofEvent (entry : Entry) : entry.Shown (Report.ofEvent entry.event) := by
  cases entry with
  | took category table shard total => exact ⟨rfl, rfl⟩
  | refused r =>
    cases r with
    | mismatch kind field expected found =>
      refine ⟨rfl, ?_⟩
      simp only [List.forall_mem_cons]
      exact ⟨rfl, rfl, rfl, rfl, rfl, nofun⟩
    | invalid kind reason =>
      refine ⟨rfl, ?_⟩
      simp only [List.forall_mem_cons]
      exact ⟨rfl, rfl, rfl, rfl, rfl, nofun⟩

end Entry

/-- The events are those of the entries, and the totals of each table count up to its size. -/
structure Records (entries : List Entry) (events : Array Event) (size : Category → Nat → Nat) :
    Prop where
  events_eq : events.toList = entries.map Entry.event
  totals_eq : ∀ category i,
    entries.filterMap (Entry.total? category i) = List.range' 1 (size category i)

/-- The sizes of tables before and after something happened that one entry, or none, tells of. -/
def Advances (news : Option Entry) (size size' : Category → Nat → Nat) : Prop :=
  ∀ category i,
    match news.bind (Entry.total? category i) with
    | some total => total = size category i + 1 ∧ size' category i = total
    | none => size' category i = size category i

section Advances

variable {size size' : Category → Nat → Nat}

/-- An entry that is about no table. -/
theorem Advances.of_quiet {news : Option Entry}
    (hQuiet : ∀ category i, news.bind (Entry.total? category i) = none)
    (h : ∀ category i, size' category i = size category i) : Advances news size size' := by
  intro category i
  rw [hQuiet]
  exact h category i

/-- Nothing to tell of. -/
theorem Advances.of_none (h : ∀ category i, size' category i = size category i) :
    Advances none size size' :=
  .of_quiet (fun _ _ => rfl) h

/-- A node was made, or refused. -/
theorem Advances.of_outcome {α : Type} (outcome : Except Rejection α)
    (h : ∀ category i, size' category i = size category i) :
    Advances (Entry.ofOutcome outcome) size size' := by
  refine .of_quiet (fun category i => ?_) h
  cases outcome <;> rfl

/-- One table took in a node. -/
theorem Advances.of_took {category : Category} {i : Nat} (shard : Nat)
    (hHere : size' category i = size category i + 1)
    (hElse : ∀ c j, ¬ (category = c ∧ i = j) → size' c j = size c j) :
    Advances (some (.took category i shard (size' category i))) size size' := by
  intro c j
  show match (if category = c ∧ i = j then some (size' category i) else none) with
    | some total => total = size c j + 1 ∧ size' c j = total
    | none => size' c j = size c j
  by_cases hSame : category = c ∧ i = j
  · rw [if_pos hSame]
    obtain ⟨rfl, rfl⟩ := hSame
    exact ⟨hHere, rfl⟩
  · rw [if_neg hSame]
    exact hElse c j hSame

end Advances

/-- One step. -/
theorem Records.step {entries : List Entry} {events events' : Array Event}
    {size size' : Category → Nat → Nat} {news : Option Entry} (h : Records entries events size)
    (hEvents : events'.toList = events.toList ++ news.toList.map Entry.event)
    (hSize : Advances news size size') : Records (entries ++ news.toList) events' size' := by
  constructor
  · rw [hEvents, h.events_eq, List.map_append]
  · intro category i
    have hTotal : news.toList.filterMap (Entry.total? category i) =
        (news.bind (Entry.total? category i)).toList := by
      cases news with
      | none => rfl
      | some entry => cases hTotal : entry.total? category i <;> simp [hTotal]
    have hHere := hSize category i
    rw [List.filterMap_append, h.totals_eq, hTotal]
    cases hAbout : news.bind (Entry.total? category i) with
    | none =>
      rw [hAbout] at hHere
      rw [hHere]
      exact List.append_nil _
    | some total =>
      rw [hAbout] at hHere
      obtain ⟨rfl, hAfter⟩ := hHere
      rw [hAfter, List.range'_1_concat, Nat.add_comm 1]
      rfl

section Run

variable {σ ι : Type} (next : σ → ι → σ) (news : σ → ι → Option Entry)

/-- The entries of a run. -/
def entriesOf (s : σ) : List ι → List Entry
  | [] => []
  | i :: is => (news s i).toList ++ entriesOf (next s i) is

/-- Every run: where each step adds its entry, the log records all. -/
theorem Records.run {next : σ → ι → σ} {news : σ → ι → Option Entry} (events : σ → Array Event)
    (size : σ → Category → Nat → Nat)
    (hEvents : ∀ s i,
      (events (next s i)).toList = (events s).toList ++ (news s i).toList.map Entry.event)
    (hSize : ∀ s i, Advances (news s i) (size s) (size (next s i)))
    {entries : List Entry} {s : σ} (h : Records entries (events s) (size s)) (is : List ι) :
    Records (entries ++ entriesOf next news s is) (events (is.foldl next s))
      (size (is.foldl next s)) := by
  induction is generalizing entries s with
  | nil => rwa [entriesOf, List.append_nil]
  | cons i is ih =>
    rw [entriesOf, ← List.append_assoc]
    exact ih (h.step (hEvents s i) (hSize s i))

end Run

-- ---------------------------------------------------------------------------
-- Calls
-- ---------------------------------------------------------------------------

/-- A check logs at most the rejection that the caller gets. -/
theorem Store.log_makeType (s : Store) (shape : TyShape Ty Expr) :
    (s.makeType shape).2.events.toList =
      s.events.toList ++ (Entry.ofOutcome (s.makeType shape).1).toList.map Entry.event := by
  rw [Entry.events_ofOutcome]
  exact s.events_makeType shape

@[inherit_doc Store.log_makeType]
theorem Store.log_makeExpr (s : Store) (type : Ty) (shape : ExprShape Expr) :
    (s.makeExpr type shape).2.events.toList =
      s.events.toList ++ (Entry.ofOutcome (s.makeExpr type shape).1).toList.map Entry.event := by
  rw [Entry.events_ofOutcome]
  exact s.events_makeExpr type shape

/-- A table is asked to canonicalize and replaced by what it is then. It logs at most what it takes
in, and the other tables stay as they are. -/
theorem Store.log_canonicalize {tables : Tables} {category : Category} {i : Nat}
    {table : Table category.Carrier} (hTable : tables.get? category i = some table) (s : Store)
    (x : category.Carrier) :
    let after := tables.set category i (s.canonicalize table x).2.1
    let entry := Entry.ofTable tables category i x (after.size category i)
    (s.canonicalize table x).2.2.events.toList =
        s.events.toList ++ entry.toList.map Entry.event ∧
      Advances entry tables.size after.size := by
  intro after entry
  have hBefore : tables.size category i = table.size := Tables.size_of_get? hTable
  have hAfter : after.size category i = (s.canonicalize table x).2.1.size :=
    Tables.size_set_self (Tables.lt_count_of_get? hTable)
  have hElse : ∀ c j, ¬ (category = c ∧ i = j) → after.size c j = tables.size c j :=
    fun _ _ => Tables.size_set_ne
  have hEntry : entry = if (table.find? x).isSome then none
      else some (.took category i (table.shardOf (hash x)) (after.size category i)) := by
    show Entry.ofTable tables category i x (after.size category i) = _
    rw [Entry.ofTable, hTable]
    rfl
  cases hFind : table.find? x with
  | some first =>
    rw [hFind] at hEntry
    rw [Store.canonicalize_of_some hFind] at hAfter ⊢
    rw [hEntry]
    refine ⟨(List.append_nil _).symm, .of_none fun c j => ?_⟩
    by_cases hHere : category = c ∧ i = j
    · obtain ⟨rfl, rfl⟩ := hHere
      rw [hAfter, hBefore]
    · exact hElse c j hHere
  | none =>
    rw [hFind] at hEntry
    rw [Store.canonicalize_of_none hFind] at hAfter ⊢
    have hTotal : after.size category i = tables.size category i + 1 := by
      rw [hAfter, hBefore]
      rfl
    rw [hEntry]
    refine ⟨?_, .of_took _ hTotal hElse⟩
    rw [Store.toList_events_log, hTotal, hBefore]
    rfl

namespace World

/-- What the log is to tell of a call. -/
def news (w : World) (c : Call) : Option Entry :=
  match c with
  | .makeType shape => Entry.ofOutcome (w.store.makeType shape).1
  | .makeExpr type shape => Entry.ofOutcome (w.store.makeExpr type shape).1
  | .canonicalize category i x =>
    Entry.ofTable w.tables category i x ((w.perform c).tables.size category i)
  | _ => none

/-- The entries of a sequence of calls. -/
def entries (w : World) (calls : List Call) : List Entry :=
  entriesOf perform news w calls

/-- The log tells of the call, and the tables are as it tells. -/
def Logged (w : World) (c : Call) : Prop :=
  (w.perform c).store.events.toList =
      w.store.events.toList ++ (w.news c).toList.map Entry.event ∧
    Advances (w.news c) w.tables.size (w.perform c).tables.size

/-- Canonicalizing, with a table that was made or with one that was not. -/
theorem logged_canonicalize (w : World) (category : Category) (i : Nat) (x : category.Carrier) :
    w.Logged (.canonicalize category i x) := by
  cases hTable : w.tables.get? category i with
  | none =>
    have hSame : w.perform (.canonicalize category i x) = w := by rw [perform, hTable]
    have hNone : w.news (.canonicalize category i x) = none := by
      rw [news, Entry.ofTable, hTable]
      rfl
    rw [Logged, hSame, hNone]
    exact ⟨(List.append_nil _).symm, .of_none fun _ _ => rfl⟩
  | some table =>
    have hPerform : w.perform (.canonicalize category i x) =
        { w with
          store := (w.store.canonicalize table x).2.2
          tables := w.tables.set category i (w.store.canonicalize table x).2.1 }.hold
            [category.node (w.store.canonicalize table x).1] := by
      rw [perform, hTable]
    rw [Logged, news, hPerform]
    exact Store.log_canonicalize hTable w.store x

/-- One step. -/
theorem logged (w : World) (c : Call) : w.Logged c := by
  cases c with
  | makeType shape => exact ⟨w.store.log_makeType shape, .of_outcome _ fun _ _ => rfl⟩
  | makeExpr type shape => exact ⟨w.store.log_makeExpr type shape, .of_outcome _ fun _ _ => rfl⟩
  | canonicalize category i x => exact w.logged_canonicalize category i x
  | makeTable category =>
    exact ⟨(List.append_nil _).symm, .of_none (Tables.size_make category w.store.hasher)⟩
  | copy n =>
    cases n with
    | type t => exact ⟨(List.append_nil _).symm, .of_none fun _ _ => rfl⟩
    | expr e => exact ⟨(List.append_nil _).symm, .of_none fun _ _ => rfl⟩
  | _ => exact ⟨(List.append_nil _).symm, .of_none fun _ _ => rfl⟩

end World

-- ---------------------------------------------------------------------------
-- Steps of a script
-- ---------------------------------------------------------------------------

/-- The name of the step that a record describes. -/
def Datum.stepName? (d : Datum) : Option String :=
  (d.field? "do").bind Datum.text?

namespace Session

/-- The table and the node that a step is about. -/
def asked? (s : Session) (d : Datum) : Option (Handle × Node) :=
  ((Step.tableAndNode d).run s).1.toOption

/-- What the log is to tell of a step: of the rejection that is its outcome, or, if it was to
canonicalize a node and did, of the table that the node was new to. -/
def news (s : Session) (d : Datum) : Option Entry :=
  match (Step.ofStep d).run s with
  | (.error (.rejected r), _) => some (.refused r)
  | (.error _, _) => none
  | (.ok _, s') =>
    if d.stepName? = some "canon" then do
      let (handle, n) ← s.asked? d
      let x ← n.as? handle.category
      Entry.ofTable s.tables handle.category handle.index x
        (s'.tables.size handle.category handle.index)
    else none

/-- The entries of a script. -/
def entries (s : Session) (steps : List Datum) : List Entry :=
  entriesOf (fun s d => (s.step d).2) news s steps

/-- The lines of the log that a step is answered with. -/
def lines (s : Session) (d : Datum) : List Datum :=
  if d.stepName? = some "log" then
    match (s.step d).1 with
    | .list lines => lines
    | _ => []
  else []

/-- All lines of the log that a script is told. -/
def told (s : Session) : List Datum → List Datum
  | [] => []
  | d :: ds => s.lines d ++ told (s.step d).2 ds

/-- Whether a step fails or not, the script goes on from what the step left. -/
theorem step_snd (s : Session) (d : Datum) : (s.step d).2 = ((Step.ofStep d).run s).2 := by
  unfold step
  rcases (Step.ofStep d).run s with ⟨failure | answer, s'⟩ <;> rfl

end Session

namespace Step

open Session

/-- The text in a field, or a failure. -/
theorem run_textField (d : Datum) (name : String) (s : Session) :
    (textField d name).run s =
      (((d.field? name).bind Datum.text?).elim (.error .malformed) .ok, s) := by
  unfold textField field
  cases hField : d.field? name with
  | none => rfl
  | some value =>
    show (expect value.text?).run s = _
    cases hText : value.text? with
    | none => rw [Option.bind_some, hText]; rfl
    | some text => rw [Option.bind_some, hText]; rfl

variable {s : Session} {d : Datum}

theorem run_ofStep_canon (h : d.stepName? = some "canon") :
    (ofStep d).run s = (canon d).run s := by
  have hText : (textField d "do").run s = (.ok "canon", s) := by
    rw [run_textField]
    exact congrArg (fun o : Option String => (o.elim (.error Failure.malformed) Except.ok, s)) h
  exact run_bind_ok hText _

theorem run_ofStep_log (h : d.stepName? = some "log") : (ofStep d).run s = log.run s := by
  have hText : (textField d "do").run s = (.ok "log", s) := by
    rw [run_textField]
    exact congrArg (fun o : Option String => (o.elim (.error Failure.malformed) Except.ok, s)) h
  exact run_bind_ok hText _

/-- All steps but two. -/
theorem tells_ofStep (hCanon : d.stepName? ≠ some "canon") (hLog : d.stepName? ≠ some "log") :
    (ofStep d).Tells s := by
  refine ((reads_textField d "do").tells s).bind fun name s' hText => ?_
  have hStep : d.stepName? = some name := by
    rw [run_textField] at hText
    show (d.field? "do").bind Datum.text? = some name
    cases hBound : (d.field? "do").bind Datum.text? with
    | none =>
      rw [hBound] at hText
      cases hText
    | some found =>
      rw [hBound] at hText
      exact congrArg some (Except.ok.inj (Prod.mk.inj hText).1)
  split
  · exact tells_make d
  · exact tells_chain d
  · exact tells_share d
  · exact tells_deepClone d
  · exact tells_drop d
  · exact tells_fieldOf d
  · exact tells_operand d
  · exact tells_typeOf d
  · exact tells_subtype d
  · exact tells_memberType d
  · exact (reads_compareNodes d).tells s'
  · exact (reads_equalNodes d).tells s'
  · exact (reads_overlap d).tells s'
  · exact (reads_nodes d).tells s'
  · exact (reads_flags d).tells s'
  · exact (reads_render d).tells s'
  · exact (reads_summary d).tells s'
  · exact tells_describe d
  · exact tells_makeTable d
  · exact tells_cloneTable d
  · exact absurd hStep hCanon
  · exact (reads_contains d).tells s'
  · exact (reads_len d).tells s'
  · exact absurd hStep hLog
  · exact tells_malformed

-- ---------------------------------------------------------------------------
-- Canonicalizing
-- ---------------------------------------------------------------------------

/-- A step that only reads fails, or has a result. -/
theorem Reads.cases {α : Type} {x : Step α} (hx : x.Reads) (s : Session) :
    (∃ failure : Failure, x.run s = (.error failure, s) ∧ failure.events = []) ∨
      ∃ a, x.run s = (.ok a, s) := by
  have hRun := hx.run_eq s
  have hEvents := (hx s).2
  cases hOutcome : (x.run s).1 with
  | error failure =>
    rw [hOutcome] at hRun hEvents
    exact .inl ⟨failure, hRun, hEvents⟩
  | ok a =>
    rw [hOutcome] at hRun
    exact .inr ⟨a, hRun⟩

/-- Naming the node and counting the table come last and do not fail. -/
theorem run_finishCanon (handle : Handle) (n first : Node) (name? : Option String) (s : Session) :
    ∃ answer slots,
      (do
        if let some name := name? then
          Step.bind name (.ofNode first)
        return Datum.record [("same", .bool (first.id == n.id)),
          ("len", .nat (← tableSize handle))] : Step Datum).run s =
        (.ok answer, { s with slots }) := by
  cases name? with
  | none => exact ⟨_, s.slots, rfl⟩
  | some name => exact ⟨_, s.slots.insert name (.ofNode first), rfl⟩

/-- Either there is no such table, or none of the node's category, or the table answers. -/
theorem run_canonicalize_cases (handle : Handle) (n : Node) (s : Session) :
    (canonicalize handle n).run s = (.error .malformed, s) ∨
      ∃ table x, s.tables.get? handle.category handle.index = some table ∧
        n.as? handle.category = some x ∧
        (canonicalize handle n).run s =
          (.ok (handle.category.node (s.store.canonicalize table x).1),
            { s with
              store := (s.store.canonicalize table x).2.2
              tables := s.tables.set handle.category handle.index
                (s.store.canonicalize table x).2.1 }) := by
  have hGet : (get : Step Session).run s = (.ok s, s) := rfl
  rw [canonicalize, run_bind_ok hGet]
  cases hTable : s.tables.get? handle.category handle.index with
  | none => exact .inl rfl
  | some table =>
    cases hNode : n.as? handle.category with
    | none => exact .inl rfl
    | some x => exact .inr ⟨table, x, rfl, rfl, rfl⟩

/-- Either the step fails and leaves all as it was, or the table answers. -/
theorem run_canon_cases (s : Session) (d : Datum) :
    (∃ failure : Failure, (canon d).run s = (.error failure, s) ∧ failure.events = []) ∨
      ∃ handle n table x answer slots,
        (tableAndNode d).run s = (.ok (handle, n), s) ∧
        s.tables.get? handle.category handle.index = some table ∧
        n.as? handle.category = some x ∧
        (canon d).run s = (.ok answer,
          { s with
            store := (s.store.canonicalize table x).2.2
            tables := s.tables.set handle.category handle.index (s.store.canonicalize table x).2.1
            slots }) := by
  unfold canon
  rcases (reads_tableAndNode d).cases s with ⟨failure, hRun, hEvents⟩ | ⟨⟨handle, n⟩, hPair⟩
  · exact .inl ⟨failure, run_bind_error hRun _, hEvents⟩
  rw [run_bind_ok hPair]
  rcases (reads_fieldOr d "as" (fun d => d.text?.map some) none).cases s with
    ⟨failure, hRun, hEvents⟩ | ⟨name?, hName⟩
  · exact .inl ⟨failure, run_bind_error hRun _, hEvents⟩
  rw [run_bind_ok hName]
  rcases run_canonicalize_cases handle n s with hRun | ⟨table, x, hTable, hNode, hRun⟩
  · exact .inl ⟨.malformed, run_bind_error hRun _, rfl⟩
  rw [run_bind_ok hRun]
  obtain ⟨answer, slots, hFinish⟩ := run_finishCanon handle n _ name? _
  exact .inr ⟨handle, n, table, x, answer, slots, hPair, hTable, hNode, hFinish⟩

end Step

namespace Session

/-- The log tells of the step, and the tables are as it tells. -/
structure Logged (s : Session) (d : Datum) : Prop where
  events_eq : (s.step d).2.store.events.toList =
    s.store.events.toList ++ (s.news d).toList.map Entry.event
  advances : Advances (s.news d) s.tables.size (s.step d).2.tables.size
  reported_eq : d.stepName? ≠ some "log" → (s.step d).2.reported = s.reported

variable {s : Session} {d : Datum}

/-- A step that has a result, other than to canonicalize, is nothing to tell of. -/
theorem news_of_ok {answer : Datum} {s' : Session} (hCanon : d.stepName? ≠ some "canon")
    (hRun : (Step.ofStep d).run s = (.ok answer, s')) : s.news d = none := by
  unfold news
  rw [hRun]
  exact if_neg hCanon

/-- Where no table takes in a node, the log is to tell of what comes with the outcome. -/
theorem logged_of_grows
    (hCanon : ∀ answer s', (Step.ofStep d).run s = (.ok answer, s') → d.stepName? ≠ some "canon")
    (h : (Step.ofStep d).Tells s) : s.Logged d := by
  have hEntry : (s.news d).toList.map Entry.event = refusals ((Step.ofStep d).run s).1 ∧
      ∀ category i, (s.news d).bind (Entry.total? category i) = none := by
    rcases hRun : (Step.ofStep d).run s with ⟨failure | answer, s'⟩
    · unfold news
      rw [hRun]
      cases failure <;> exact ⟨rfl, fun _ _ => rfl⟩
    · rw [news_of_ok (hCanon answer s' hRun) hRun]
      exact ⟨rfl, fun _ _ => rfl⟩
  have hState := s.step_snd d
  refine ⟨?_, .of_quiet hEntry.2 fun category i => ?_, fun _ => ?_⟩
  · rw [hState, hEntry.1]
    exact h.events_eq
  · rw [hState]
    exact h.size_eq category i
  · rw [hState]
    exact h.reported_eq

/-- A step that canonicalizes: it fails and nothing happened, or the table it asked was replaced. -/
theorem logged_canon (hName : d.stepName? = some "canon") : s.Logged d := by
  have hOfStep := Step.run_ofStep_canon (s := s) hName
  rcases Step.run_canon_cases s d with
    ⟨failure, hRun, hEvents⟩ | ⟨handle, n, table, x, answer, slots, hPair, hTable, hNode, hRun⟩
  · rw [hRun] at hOfStep
    refine logged_of_grows (fun answer s' hOk => ?_) ?_
    · rw [hOfStep] at hOk
      cases hOk
    · rw [Step.Tells, hOfStep]
      show s.Grows failure.events s
      rw [hEvents]
      exact .refl s
  · rw [hRun] at hOfStep
    have hState := s.step_snd d
    rw [hOfStep] at hState
    have hEntry : s.news d = Entry.ofTable s.tables handle.category handle.index x
        ((s.step d).2.tables.size handle.category handle.index) := by
      unfold news asked?
      rw [hState, hOfStep, hPair]
      show (if d.stepName? = some "canon" then (n.as? handle.category).bind _ else none) = _
      rw [if_pos hName, hNode]
      rfl
    obtain ⟨hEvents, hAdvances⟩ := Store.log_canonicalize hTable s.store x
    refine ⟨?_, ?_, fun _ => ?_⟩
    · rw [hEntry, hState]
      exact hEvents
    · rw [hEntry, hState]
      exact hAdvances
    · rw [hState]

/-- Reading the log gives the events that were not told yet. -/
theorem step_log (hName : d.stepName? = some "log") :
    s.step d = (.list ((s.store.events.toList.drop s.reported).map Report.ofEvent),
      { s with reported := s.store.events.size }) := by
  unfold step
  rw [Step.run_ofStep_log hName]
  rfl

/-- It is not itself logged. -/
theorem logged_log (hName : d.stepName? = some "log") : s.Logged d := by
  have hCanon : d.stepName? ≠ some "canon" := by
    rw [hName]
    decide
  have hNone : s.news d = none := news_of_ok hCanon (Step.run_ofStep_log hName)
  refine ⟨?_, ?_, fun hOther => absurd hName hOther⟩
  · rw [step_log hName, hNone]
    exact (List.append_nil _).symm
  · rw [step_log hName, hNone]
    exact .of_none fun _ _ => rfl

/-- One step. -/
theorem logged (s : Session) (d : Datum) : s.Logged d := by
  by_cases hCanon : d.stepName? = some "canon"
  · exact logged_canon hCanon
  · by_cases hLog : d.stepName? = some "log"
    · exact logged_log hLog
    · exact logged_of_grows (fun _ _ _ => hCanon) (Step.tells_ofStep hCanon hLog)

-- ---------------------------------------------------------------------------
-- What a script is told
-- ---------------------------------------------------------------------------

/-- These are the lines of all events that the script has been told of. -/
structure ToldOf (s : Session) (told : List Datum) : Prop where
  le : s.reported ≤ s.store.events.toList.length
  told_eq : told = (s.store.events.toList.take s.reported).map Report.ofEvent

/-- One step. -/
theorem ToldOf.step {told : List Datum} (h : s.ToldOf told) (d : Datum) :
    (s.step d).2.ToldOf (told ++ s.lines d) := by
  have hLogged := s.logged d
  by_cases hName : d.stepName? = some "log"
  · have hLines : s.lines d = (s.store.events.toList.drop s.reported).map Report.ofEvent := by
      unfold lines
      rw [if_pos hName, step_log hName]
    rw [hLines, step_log hName]
    refine ⟨Nat.le_of_eq Array.length_toList.symm, ?_⟩
    show _ = (s.store.events.toList.take s.store.events.size).map Report.ofEvent
    rw [h.told_eq, ← List.map_append, List.take_append_drop, ← Array.length_toList,
      List.take_length]
  · have hLines : s.lines d = [] := if_neg hName
    have hLe := h.le
    rw [hLines, List.append_nil]
    refine ⟨?_, ?_⟩
    · rw [hLogged.reported_eq hName, hLogged.events_eq, List.length_append]
      omega
    · rw [hLogged.reported_eq hName, hLogged.events_eq, List.take_append_of_le_length hLe]
      exact h.told_eq

/-- Every script. -/
theorem ToldOf.steps {told : List Datum} (h : s.ToldOf told) (ds : List Datum) :
    (s.steps ds).2.ToldOf (told ++ s.told ds) := by
  induction ds generalizing s told with
  | nil => rwa [Session.told, List.append_nil]
  | cons d ds ih =>
    rw [Session.told, ← List.append_assoc]
    exact ih (h.step d)

/-- A script goes from session to session. -/
theorem steps_eq_foldl (s : Session) (ds : List Datum) :
    (s.steps ds).2 = ds.foldl (fun s d => (s.step d).2) s := by
  induction ds generalizing s with
  | nil => rfl
  | cons d ds ih => exact ih (s.step d).2

/-- What the last step of a script is told comes last. -/
theorem told_concat (s : Session) (ds : List Datum) (d : Datum) :
    s.told (ds ++ [d]) = s.told ds ++ (s.steps ds).2.lines d := by
  induction ds generalizing s with
  | nil => exact List.append_nil _
  | cons d' ds ih =>
    rw [List.cons_append, Session.told, Session.told, ih, List.append_assoc]
    rfl

end Session

/-- The step that reads the log. -/
def Step.readLog : Datum :=
  .record [("do", .text "log")]

-- ---------------------------------------------------------------------------
-- Every run
-- ---------------------------------------------------------------------------

/-- Every sequence of calls. -/
theorem World.records (h : Hasher) (calls : List Call) :
    let start : World := { store := { hasher := h } }
    let w := calls.foldl World.perform start
    Records (start.entries calls) w.store.events w.tables.size := by
  intro start w
  have hStart : Records [] start.store.events start.tables.size :=
    ⟨rfl, fun category _ => by cases category <;> rfl⟩
  exact Records.run (fun w : World => w.store.events) (·.tables.size) (fun w c => (w.logged c).1)
    (fun w c => (w.logged c).2) hStart calls

/-- Every script. -/
theorem Session.records (h : Hasher) (steps : List Datum) :
    let start : Session := { store := { hasher := h } }
    let s := (start.steps steps).2
    Records (start.entries steps) s.store.events s.tables.size := by
  intro start s
  have hStart : Records [] start.store.events start.tables.size :=
    ⟨rfl, fun category _ => by cases category <;> rfl⟩
  have hRun := Records.run (·.store.events) (·.tables.size)
    (fun (s : Session) d => (s.logged d).events_eq) (fun s d => (s.logged d).advances) hStart steps
  show Records (start.entries steps) (start.steps steps).2.store.events
    (start.steps steps).2.tables.size
  rw [steps_eq_foldl]
  exact hRun

/-- The log is exact. After any sequence of calls, and after any script, its events are one for each
node that was refused and one for each node that a table took in, in order; the totals of each table
count up from one to its size; and a script that reads the log is told of each event once and in
order, with what the rejection says or with the total. -/
theorem log_is_exact (h : Hasher) :
    (∀ calls : List Call,
      let start : World := { store := { hasher := h } }
      let w := calls.foldl World.perform start
      Records (start.entries calls) w.store.events w.tables.size) ∧
    ∀ steps : List Datum,
      let start : Session := { store := { hasher := h } }
      let s := (start.steps steps).2
      Records (start.entries steps) s.store.events s.tables.size ∧
        List.Forall₂ Entry.Shown (start.entries steps) (start.told (steps ++ [Step.readLog])) := by
  refine ⟨World.records h, fun steps => ?_⟩
  intro start s
  have hRecords : Records (start.entries steps) s.store.events s.tables.size :=
    Session.records h steps
  refine ⟨hRecords, ?_⟩
  have hNothing : start.ToldOf [] := ⟨Nat.le_refl _, rfl⟩
  have hLast := ((hNothing.steps steps).step Step.readLog).told_eq
  rw [List.nil_append, ← Session.told_concat, Session.step_log rfl] at hLast
  -- reading the log at the end leaves nothing untold
  have hAll : start.told (steps ++ [Step.readLog]) =
      s.store.events.toList.map Report.ofEvent := by
    rw [hLast, ← Array.length_toList, List.take_length]
  rw [hAll, hRecords.events_eq, List.map_map, List.forall₂_map_right_iff, List.forall₂_same]
  exact fun entry _ => entry.shown_ofEvent

end TermGraph
