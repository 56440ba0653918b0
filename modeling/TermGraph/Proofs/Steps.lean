import TermGraph.Proofs.Emission
import TermGraph.Proofs.Tables
import TermGraph.Script.Session

/-!
# What a step leaves behind

A step of a script runs on a session, and a spec inside a step runs on the store of that session.
Each may fail half way. The rules here follow both through such runs.

* `Build.Tells`: making what a spec describes adds one event to the log if the outcome is a refusal,
  and none otherwise (`Spec.tells`, by induction over the spec).
* `Step.Reads`: a step that changes nothing and refuses nothing.
* `Step.Tells`: a step that may make nodes, names and tables, but takes no node into a table.

All steps but two obey the last rule. The two, canonicalizing and reading the log, are treated where
the log is.
-/

namespace TermGraph

variable {α β : Type}

section Run

variable {ε σ : Type} {x : ExceptT ε (StateM σ) α} {s s' : σ}

/-- After a result, the rest runs on the state that the first part left. -/
theorem run_bind_ok {a : α} (h : x.run s = (.ok a, s')) (f : α → ExceptT ε (StateM σ) β) :
    (x >>= f).run s = (f a).run s' := by
  show (ExceptT.bindCont f (x.run s).1).run (x.run s).2 = _
  rw [h]
  rfl

/-- After a failure, nothing runs. -/
theorem run_bind_error {e : ε} (h : x.run s = (.error e, s')) (f : α → ExceptT ε (StateM σ) β) :
    (x >>= f).run s = (.error e, s') := by
  show (ExceptT.bindCont f (x.run s).1).run (x.run s).2 = _
  rw [h]
  rfl

end Run

/-- What a failure leaves in the log: a refusal is logged, and nothing else is. -/
def Failure.events : Failure → List Event
  | .rejected r => [r.event]
  | .malformed | .unbound _ | .wrongCategory _ => []

/-- The events that come with an outcome. -/
def refusals : Except Failure α → List Event
  | .ok _ => []
  | .error failure => failure.events

/-- The rejections of a store come with the same events as failures. -/
theorem refusals_mapError (outcome : Except Rejection α) :
    refusals (outcome.mapError .rejected) = Rejection.events outcome := by
  cases outcome <;> rfl

-- ---------------------------------------------------------------------------
-- Making nodes
-- ---------------------------------------------------------------------------

namespace Build

/-- The log grows by what comes with the outcome. -/
def Tells (b : Build α) : Prop :=
  ∀ store : Store,
    (b.run store).2.events.toList = store.events.toList ++ refusals (b.run store).1

/-- A value leaves the log as it is. -/
theorem tells_pure (a : α) : Tells (pure a : Build α) :=
  fun store => (List.append_nil store.events.toList).symm

/-- A failure that is no refusal leaves the log as it is. -/
theorem tells_throw {failure : Failure} (h : failure.events = []) :
    Tells (throw failure : Build α) := by
  intro store
  show store.events.toList = store.events.toList ++ failure.events
  rw [h, List.append_nil]

/-- One after the other: the outcome is that of the part that failed, or of the last. -/
theorem Tells.bind {x : Build α} {f : α → Build β} (hx : x.Tells) (hf : ∀ a, (f a).Tells) :
    (x >>= f).Tells := by
  intro store
  have hFirst := hx store
  rcases hRun : x.run store with ⟨failure | a, store'⟩
  · rw [hRun] at hFirst
    rw [run_bind_error hRun]
    exact hFirst
  · rw [hRun, refusals, List.append_nil] at hFirst
    rw [run_bind_ok hRun, ← hFirst]
    exact hf a store'

theorem Tells.map {x : Build α} (hx : x.Tells) (f : α → β) : (f <$> x).Tells := by
  rw [← bind_pure_comp]
  exact hx.bind fun a => tells_pure (f a)

theorem tells_malformed : Tells (malformed : Build α) :=
  tells_throw rfl

/-- What could not be read is malformed. -/
theorem tells_expect (o : Option α) : Tells (expect o) := by
  cases o with
  | none => exact tells_malformed
  | some a => exact tells_pure a

/-- What a store answers to the request for a type, as a failure where it refuses. -/
theorem run_makeType (shape : TyShape Ty Expr) (store : Store) :
    (makeType shape).run store =
      ((store.makeType shape).1.mapError Failure.rejected, (store.makeType shape).2) := by
  have hCall : (modifyGet (·.makeType shape) : Build (Except Rejection Ty)).run store =
      (.ok (store.makeType shape).1, (store.makeType shape).2) := rfl
  rw [makeType, run_bind_ok hCall]
  cases (store.makeType shape).1 <;> rfl

/-- What a store answers to the request for an expression. -/
theorem run_makeExpr (type : Ty) (shape : ExprShape Expr) (store : Store) :
    (makeExpr type shape).run store =
      ((store.makeExpr type shape).1.mapError Failure.rejected,
        (store.makeExpr type shape).2) := by
  have hCall : (modifyGet (·.makeExpr type shape) : Build (Except Rejection Expr)).run store =
      (.ok (store.makeExpr type shape).1, (store.makeExpr type shape).2) := rfl
  rw [makeExpr, run_bind_ok hCall]
  cases (store.makeExpr type shape).1 <;> rfl

/-- A type: what its check logs is what comes with the outcome. -/
theorem tells_makeType (shape : TyShape Ty Expr) : Tells (makeType shape) := by
  intro store
  rw [run_makeType, refusals_mapError]
  exact store.events_makeType shape

/-- An expression: what its check logs is what comes with the outcome. -/
theorem tells_makeExpr (type : Ty) (shape : ExprShape Expr) : Tells (makeExpr type shape) := by
  intro store
  rw [run_makeExpr, refusals_mapError]
  exact store.events_makeExpr type shape

/-- A name that stands for no type is a failure, and no refusal. -/
theorem tells_slotType (scope : Scope) (name : String) : Tells (slotType scope name) := by
  rw [slotType]
  split
  · exact tells_pure _
  · exact tells_throw rfl
  · exact tells_throw rfl

/-- A name that stands for no expression is a failure, and no refusal. -/
theorem tells_slotExpr (scope : Scope) (name : String) : Tells (slotExpr scope name) := by
  rw [slotExpr]
  split
  · exact tells_pure _
  · exact tells_throw rfl
  · exact tells_throw rfl

end Build

namespace Spec

open Build

theorem tells_readName (d : Datum) : (readName d).Tells :=
  (tells_expect _).bind fun _ => tells_pure _

theorem tells_readNames (d : Datum) : (readNames d).Tells :=
  (tells_expect _).bind fun _ => tells_pure _

/-- A width that is out of range is malformed. -/
theorem tells_readWidth (d : Datum) : (readWidth d).Tells := by
  refine (tells_expect _).bind fun n => ?_
  split
  · exact tells_pure _
  · exact tells_malformed

/-- An integer is written out or stands for a position in a chain. -/
theorem tells_readInt (scope : Scope) (d : Datum) : (readInt scope d).Tells := by
  rw [readInt.eq_def]
  split
  · split
    · exact tells_pure _
    · exact tells_malformed
  · split
    · exact tells_pure _
    · exact tells_expect _
  · exact tells_malformed

/-- Whichever way a spec is read, making what it describes tells of refusals and of nothing else. -/
structure Told (scope : Scope) (d : Datum) : Prop where
  type : (type scope d).Tells
  types : (types scope d).Tells
  expr : (expr scope d).Tells
  exprs : (exprs scope d).Tells

section Items

variable {scope : Scope}

/-- The specs of a list are made one after the other. -/
theorem tells_typeList {items : List Datum} (h : ∀ d ∈ items, Told scope d) :
    (typeList scope items).Tells := by
  induction items with
  | nil => exact tells_pure _
  | cons d items ih =>
    obtain ⟨hd, hItems⟩ := List.forall_mem_cons.mp h
    rw [typeList]
    exact hd.type.bind fun _ => (ih hItems).bind fun _ => tells_pure _

/-- The specs of a list are made one after the other. -/
theorem tells_exprList {items : List Datum} (h : ∀ d ∈ items, Told scope d) :
    (exprList scope items).Tells := by
  induction items with
  | nil => exact tells_pure _
  | cons d items ih =>
    obtain ⟨hd, hItems⟩ := List.forall_mem_cons.mp h
    rw [exprList]
    exact hd.expr.bind fun _ => (ih hItems).bind fun _ => tells_pure _

/-- A list is read as a type: what is inside is made first, then the type of the kind it names. -/
theorem tells_type_list {items : List Datum} (h : ∀ d ∈ items, Told scope d) :
    (type scope (.list items)).Tells := by
  rw [type.eq_def]
  split
  · cases ‹Datum.list items = _›
  · rename_i kind args hEq
    cases hEq
    have hArgs := (List.forall_mem_cons.mp h).2
    -- the kinds, in the order in which the reader has them
    split
    · exact tells_makeType _
    · exact tells_makeType _
    · exact (tells_readName _).bind fun _ => tells_makeType _
    · simp only [List.forall_mem_cons] at hArgs
      obtain ⟨hMembers, -⟩ := hArgs
      exact hMembers.types.bind fun _ => (tells_readNames _).bind fun _ =>
        (tells_readName _).bind fun _ => tells_makeType _
    · simp only [List.forall_mem_cons] at hArgs
      obtain ⟨hMembers, -⟩ := hArgs
      exact hMembers.types.bind fun _ => (tells_readNames _).bind fun _ =>
        (tells_readName _).bind fun _ => tells_makeType _
    · simp only [List.forall_mem_cons] at hArgs
      obtain ⟨hArguments, hResult, -⟩ := hArgs
      exact hArguments.types.bind fun _ => hResult.type.bind fun _ =>
        (tells_readNames _).bind fun _ => (tells_expect _).bind fun _ => tells_makeType _
    · simp only [List.forall_mem_cons] at hArgs
      obtain ⟨hElement, hSize, -⟩ := hArgs
      refine hElement.type.bind fun _ => ?_
      split
      · exact (tells_pure _).bind fun _ => (tells_expect _).bind fun _ => tells_makeType _
      · exact (hSize.expr.map _).bind fun _ => (tells_expect _).bind fun _ => tells_makeType _
    · simp only [List.forall_mem_cons] at hArgs
      obtain ⟨hTarget, -⟩ := hArgs
      exact hTarget.type.bind fun _ => tells_makeType _
    · exact (tells_readWidth _).bind fun _ => tells_makeType _
    · exact (tells_readWidth _).bind fun _ => tells_makeType _
    · exact (tells_readWidth _).bind fun _ => (tells_readWidth _).bind fun _ => tells_makeType _
    · exact (tells_readWidth _).bind fun _ => (tells_readWidth _).bind fun _ => tells_makeType _
    · exact (tells_readWidth _).bind fun _ => tells_makeType _
    · simp only [List.forall_mem_cons] at hArgs
      obtain ⟨-, hArguments, -⟩ := hArgs
      exact (tells_readName _).bind fun _ => hArguments.types.bind fun _ => tells_makeType _
    · exact tells_malformed
  · exact tells_malformed

/-- A list is read as an expression. Operators are named apart, before the other kinds. -/
theorem tells_expr_list {items : List Datum} (h : ∀ d ∈ items, Told scope d) :
    (expr scope (.list items)).Tells := by
  rw [expr.eq_def]
  split
  · cases ‹Datum.list items = _›
  · rename_i args hEq
    cases hEq
    have hArgs := (List.forall_mem_cons.mp h).2
    split
    · simp only [List.forall_mem_cons] at hArgs
      obtain ⟨-, hTy, hLeft, hRight, -⟩ := hArgs
      exact (tells_expect _).bind fun _ => hTy.type.bind fun _ => hLeft.expr.bind fun _ =>
        hRight.expr.bind fun _ => tells_makeExpr _ _
    · exact tells_malformed
  · rename_i args hEq
    cases hEq
    have hArgs := (List.forall_mem_cons.mp h).2
    split
    · simp only [List.forall_mem_cons] at hArgs
      obtain ⟨-, hTy, hOperand, -⟩ := hArgs
      exact (tells_expect _).bind fun _ => hTy.type.bind fun _ => hOperand.expr.bind fun _ =>
        tells_makeExpr _ _
    · exact tells_malformed
  · rename_i kind args _ _ hEq
    cases hEq
    have hArgs := (List.forall_mem_cons.mp h).2
    split
    · simp only [List.forall_mem_cons] at hArgs
      obtain ⟨hTy, -⟩ := hArgs
      exact hTy.type.bind fun _ => (tells_readInt _ _).bind fun _ => tells_makeExpr _ _
    · simp only [List.forall_mem_cons] at hArgs
      obtain ⟨hTy, -⟩ := hArgs
      exact hTy.type.bind fun _ => (tells_expect _).bind fun _ => tells_makeExpr _ _
    · simp only [List.forall_mem_cons] at hArgs
      obtain ⟨hTy, -⟩ := hArgs
      exact hTy.type.bind fun _ => (tells_readName _).bind fun _ => tells_makeExpr _ _
    · simp only [List.forall_mem_cons] at hArgs
      obtain ⟨hTy, hMembers, -⟩ := hArgs
      exact hTy.type.bind fun _ => hMembers.exprs.bind fun _ => tells_makeExpr _ _
    · simp only [List.forall_mem_cons] at hArgs
      obtain ⟨hTy, hMembers, -⟩ := hArgs
      exact hTy.type.bind fun _ => hMembers.exprs.bind fun _ =>
        (tells_readName _).bind fun _ => tells_makeExpr _ _
    · simp only [List.forall_mem_cons] at hArgs
      obtain ⟨hTy, hMembers, -⟩ := hArgs
      exact hTy.type.bind fun _ => hMembers.exprs.bind fun _ => tells_makeExpr _ _
    · simp only [List.forall_mem_cons] at hArgs
      obtain ⟨hTy, hInitializer, -⟩ := hArgs
      exact hTy.type.bind fun _ => hInitializer.expr.bind fun _ => tells_makeExpr _ _
    · simp only [List.forall_mem_cons] at hArgs
      obtain ⟨hTy, -⟩ := hArgs
      exact hTy.type.bind fun _ => (tells_readName _).bind fun _ => tells_makeExpr _ _
    · simp only [List.forall_mem_cons] at hArgs
      obtain ⟨hTy, hCond, hTrue, hFalse, -⟩ := hArgs
      exact hTy.type.bind fun _ => hCond.expr.bind fun _ => hTrue.expr.bind fun _ =>
        hFalse.expr.bind fun _ => tells_makeExpr _ _
    · simp only [List.forall_mem_cons] at hArgs
      obtain ⟨hTy, hLeft, hRight, -⟩ := hArgs
      exact hTy.type.bind fun _ => hLeft.expr.bind fun _ => hRight.expr.bind fun _ =>
        tells_makeExpr _ _
    · simp only [List.forall_mem_cons] at hArgs
      obtain ⟨hTy, hOperand, -⟩ := hArgs
      exact hTy.type.bind fun _ => hOperand.expr.bind fun _ => tells_makeExpr _ _
    · simp only [List.forall_mem_cons] at hArgs
      obtain ⟨hTy, hSource, hField, hValue, -⟩ := hArgs
      exact hTy.type.bind fun _ => hSource.expr.bind fun _ => hField.expr.bind fun _ =>
        hValue.expr.bind fun _ => tells_makeExpr _ _
    · simp only [List.forall_mem_cons] at hArgs
      obtain ⟨hTy, hSource, -⟩ := hArgs
      exact hTy.type.bind fun _ => hSource.expr.bind fun _ => (tells_readName _).bind fun _ =>
        tells_makeExpr _ _
    · simp only [List.forall_mem_cons] at hArgs
      obtain ⟨hTy, hSource, hPosition, -⟩ := hArgs
      exact hTy.type.bind fun _ => hSource.expr.bind fun _ => hPosition.expr.bind fun _ =>
        tells_makeExpr _ _
    · exact tells_malformed
  · exact tells_malformed

end Items

/-- Every spec: the arguments of a list are smaller than the list. -/
theorem told (scope : Scope) (d : Datum) : Told scope d := by
  cases d with
  | list items =>
    have hItems : ∀ item ∈ items, Told scope item := fun item hItem => told scope item
    refine ⟨tells_type_list hItems, ?_, tells_expr_list hItems, ?_⟩
    · rw [types]
      exact tells_typeList hItems
    · rw [exprs]
      exact tells_exprList hItems
  | text name =>
    refine ⟨?_, ?_, ?_, ?_⟩
    · rw [type]
      exact tells_slotType scope name
    · exact tells_malformed
    · rw [expr]
      exact tells_slotExpr scope name
    · exact tells_malformed
  | _ => exact ⟨tells_malformed, tells_malformed, tells_malformed, tells_malformed⟩
termination_by sizeOf d
decreasing_by
  have hLess := List.sizeOf_lt_of_mem hItem
  simp only [Datum.list.sizeOf_spec]
  omega

/-- A node of either category. -/
theorem tells_node (scope : Scope) (category : Category) (spec : Datum) :
    (node scope category spec).Tells := by
  cases category with
  | type => exact (told scope spec).type.bind fun _ => tells_pure _
  | expr => exact (told scope spec).expr.bind fun _ => tells_pure _

/-- The nodes of a chain are made one after the other, and the first failure is the outcome. -/
theorem tells_chain (scope : Scope) (category : Category) (link : Datum) (count : Nat)
    (last : Node) : Build.Tells (chain scope category link count last) := by
  induction count generalizing scope last with
  | zero => exact tells_pure last
  | succ count ih =>
    let inside : Scope := { scope with last := some last, index := scope.index + 1 }
    intro store
    have hBind := (tells_node inside category link).bind (fun next => ih inside next) store
    show (chain scope category link (count + 1) last store).2.events.toList = _ ++
      refusals (chain scope category link (count + 1) last store).1
    rcases hRun : (node inside category link).run store with ⟨failure | next, store'⟩
    · rw [run_bind_error hRun] at hBind
      rw [chain, hRun]
      exact hBind
    · rw [run_bind_ok hRun] at hBind
      rw [chain, hRun]
      exact hBind

end Spec

-- ---------------------------------------------------------------------------
-- Steps that only read
-- ---------------------------------------------------------------------------

namespace Step

/-- The step leaves the session as it is, and its outcome is not a refusal. -/
def Reads (x : Step α) : Prop :=
  ∀ s : Session, (x.run s).2 = s ∧ refusals (x.run s).1 = []

theorem reads_pure (a : α) : Reads (pure a : Step α) :=
  fun _ => ⟨rfl, rfl⟩

/-- A failure that is no refusal. -/
theorem reads_throw {failure : Failure} (h : failure.events = []) :
    Reads (throw failure : Step α) :=
  fun _ => ⟨rfl, h⟩

theorem reads_malformed : Reads (malformed : Step α) :=
  reads_throw rfl

theorem reads_get : Reads (get : Step Session) :=
  fun _ => ⟨rfl, rfl⟩

/-- Only the outcome of such a step is to be found out. -/
theorem Reads.run_eq {x : Step α} (hx : x.Reads) (s : Session) : x.run s = ((x.run s).1, s) :=
  Prod.ext rfl (hx s).1

/-- Two steps that read, one after the other. -/
theorem Reads.bind {x : Step α} {f : α → Step β} (hx : x.Reads) (hf : ∀ a, (f a).Reads) :
    (x >>= f).Reads := by
  intro s
  have hRun := hx.run_eq s
  cases hOutcome : (x.run s).1 with
  | error failure =>
    rw [hOutcome] at hRun
    rw [run_bind_error hRun]
    have hEvents := (hx s).2
    rw [hOutcome] at hEvents
    exact ⟨rfl, hEvents⟩
  | ok a =>
    rw [hOutcome] at hRun
    rw [run_bind_ok hRun]
    exact hf a s

theorem reads_expect (o : Option α) : Reads (expect o) := by
  cases o with
  | none => exact reads_malformed
  | some a => exact reads_pure a

theorem reads_scope : Reads scope :=
  reads_get.bind fun _ => reads_pure _

/-- A field that is missing is a failure, and no refusal. -/
theorem reads_field (step : Datum) (name : String) : Reads (field step name) :=
  reads_expect _

/-- A field that holds no text is a failure, and no refusal. -/
theorem reads_textField (step : Datum) (name : String) : Reads (textField step name) :=
  (reads_field step name).bind fun _ => reads_expect _

/-- A field that is left out has its default. -/
theorem reads_fieldOr (step : Datum) (name : String) (read : Datum → Option α) (default : α) :
    Reads (fieldOr step name read default) := by
  rw [fieldOr]
  split
  · exact reads_expect _
  · exact reads_pure _

theorem reads_category (step : Datum) : Reads (category step) :=
  (reads_textField step "cat").bind fun _ => reads_expect _

/-- A name that stands for nothing is a failure, and no refusal. -/
theorem reads_slot (step : Datum) (name : String) : Reads (slot step name) := by
  refine (reads_textField step name).bind fun bound => reads_get.bind fun s => ?_
  split
  · exact reads_pure _
  · exact reads_throw rfl

/-- A name that stands for a table is no name of a node. -/
theorem reads_node (step : Datum) (name : String) : Reads (node step name) :=
  (reads_slot step name).bind fun _ => reads_expect _

/-- The options of a description have defaults. -/
theorem reads_options (d : Datum) : Reads (options d) :=
  (reads_fieldOr _ _ _ _).bind fun _ => (reads_fieldOr _ _ _ _).bind fun _ =>
    (reads_fieldOr _ _ _ _).bind fun _ => (reads_fieldOr _ _ _ _).bind fun _ => reads_pure _

/-- The two nodes of a comparison are looked up by their names. -/
theorem reads_nodePair (step : Datum) : Reads (nodePair step) :=
  (reads_slot step "a").bind fun _ => (reads_slot step "b").bind fun _ =>
    (reads_expect _).bind fun _ => (reads_expect _).bind fun _ => reads_pure _

/-- Comparing makes nothing and logs nothing, and neither do the other ways to look at nodes. -/
theorem reads_compareNodes (step : Datum) : Reads (compareNodes step) :=
  (reads_nodePair step).bind fun _ => (reads_expect _).bind fun _ => reads_pure _

/-- Nodes of different categories are not compared. -/
theorem reads_equalNodes (step : Datum) : Reads (equalNodes step) := by
  refine (reads_nodePair step).bind fun pair => ?_
  split
  · exact reads_pure _
  · exact reads_pure _
  · exact reads_malformed

theorem reads_overlap (step : Datum) : Reads (overlap step) :=
  (reads_nodePair step).bind fun _ => reads_expect _

theorem reads_nodes (step : Datum) : Reads (nodes step) :=
  (reads_node step "of").bind fun _ => reads_pure _

/-- Types have no flags. -/
theorem reads_flags (step : Datum) : Reads (flags step) := by
  refine (reads_node step "of").bind fun n => ?_
  cases n with
  | expr e => exact reads_pure _
  | type t => exact reads_malformed

/-- Rendering reads the form and the node, and makes nothing. -/
theorem reads_textOf (step : Datum) : Reads (textOf step) := by
  refine (reads_node step "of").bind fun n => (reads_textField step "how").bind fun how =>
    (reads_fieldOr _ _ _ _).bind fun level => ?_
  -- whichever form it is, the text follows
  have hText : ∀ form, Reads (expect (Report.text? form n)) := fun _ => reads_expect _
  split
  · exact (reads_pure _).bind hText
  · exact (reads_textField step "prefix").bind fun _ => (reads_pure _).bind hText
  · exact (reads_pure _).bind hText
  · exact (reads_pure _).bind hText
  · exact (reads_pure _).bind hText
  · exact reads_malformed.bind hText

theorem reads_render (step : Datum) : Reads (render step) :=
  (reads_textOf step).bind fun _ => reads_pure _

theorem reads_summary (step : Datum) : Reads (summary step) :=
  (reads_textOf step).bind fun _ => reads_pure _

theorem reads_tableSize (handle : Handle) : Reads (tableSize handle) :=
  reads_get.bind fun _ => reads_pure _

/-- The table and the node of a step are looked up by their names. -/
theorem reads_tableAndNode (step : Datum) : Reads (tableAndNode step) := by
  refine (reads_slot step "table").bind fun table => (reads_slot step "of").bind fun of => ?_
  split
  · exact reads_pure _
  · exact reads_malformed

/-- Asking whether a table contains a node takes nothing in. -/
theorem reads_contains (step : Datum) : Reads (contains step) := by
  refine (reads_tableAndNode step).bind fun pair => reads_get.bind fun s => ?_
  split
  · exact reads_pure _
  · exact reads_malformed

/-- The number of nodes in a table is read off. -/
theorem reads_len (step : Datum) : Reads (len step) := by
  refine (reads_slot step "table").bind fun slot => ?_
  split
  · exact (reads_tableSize _).bind fun _ => reads_pure _
  · exact reads_malformed

end Step

-- ---------------------------------------------------------------------------
-- Steps that make nodes, names and tables
-- ---------------------------------------------------------------------------

namespace Session

/-- From a session to a later one: the log grew by some events, and whatever was made besides, no
table took in a node and the script was told nothing. -/
structure Grows (s : Session) (events : List Event) (s' : Session) : Prop where
  events_eq : s'.store.events.toList = s.store.events.toList ++ events
  size_eq : ∀ category i, s'.tables.size category i = s.tables.size category i
  reported_eq : s'.reported = s.reported

/-- Nothing happened. -/
theorem Grows.refl (s : Session) : s.Grows [] s :=
  ⟨(List.append_nil _).symm, fun _ _ => rfl, rfl⟩

/-- Something was logged only in the end. -/
theorem Grows.trans {s s' s'' : Session} {events : List Event} (h : s.Grows [] s')
    (h' : s'.Grows events s'') : s.Grows events s'' := by
  refine ⟨?_, fun category i => ?_, ?_⟩
  · rw [h'.events_eq, h.events_eq, List.append_nil]
  · rw [h'.size_eq, h.size_eq]
  · rw [h'.reported_eq, h.reported_eq]

/-- Only the store changed. -/
theorem Grows.of_store {s : Session} {store : Store} {events : List Event}
    (h : store.events.toList = s.store.events.toList ++ events) :
    s.Grows events { s with store } :=
  ⟨h, fun _ _ => rfl, rfl⟩

/-- Only the names changed. -/
theorem Grows.of_slots (s : Session) (slots : Slots) : s.Grows [] { s with slots } :=
  ⟨(List.append_nil _).symm, fun _ _ => rfl, rfl⟩

/-- A table was made. It is empty, and what was not there counted as empty before. -/
theorem Grows.of_table (s : Session) (category : Category) (hasher : Hasher) :
    s.Grows [] { s with tables := s.tables.make category hasher } :=
  ⟨(List.append_nil _).symm, Tables.size_make category hasher, rfl⟩

end Session

namespace Step

open Session

/-- From the session `s`, the log grows by what comes with the outcome. -/
def Tells (s : Session) (x : Step α) : Prop :=
  s.Grows (refusals (x.run s).1) (x.run s).2

variable {s : Session}

/-- One step after the other; the second runs on what the first left. -/
theorem Tells.bind {x : Step α} {f : α → Step β} (hx : x.Tells s)
    (hf : ∀ a s', x.run s = (.ok a, s') → (f a).Tells s') : (x >>= f).Tells s := by
  rw [Tells] at hx ⊢
  rcases hRun : x.run s with ⟨failure | a, s'⟩
  · rw [hRun] at hx
    rw [run_bind_error hRun]
    exact hx
  · rw [hRun] at hx
    rw [run_bind_ok hRun]
    exact hx.trans (hf a s' hRun)

/-- One step after the other, where the second is the same to every session. -/
theorem Tells.andThen {x : Step α} {f : α → Step β} (hx : x.Tells s)
    (hf : ∀ a s', (f a).Tells s') : (x >>= f).Tells s :=
  hx.bind fun a s' _ => hf a s'

/-- What only reads leaves nothing in the log. -/
theorem Reads.tells {x : Step α} (hx : x.Reads) (s : Session) : x.Tells s := by
  obtain ⟨hState, hEvents⟩ := hx s
  rw [Tells, hEvents, hState]
  exact .refl s

/-- A step goes on in the session that it read. -/
theorem Reads.andThen {x : Step α} {f : α → Step β} (hx : x.Reads) (hf : ∀ a, (f a).Tells s) :
    (x >>= f).Tells s := by
  refine (hx.tells s).bind fun a s' hRun => ?_
  have hState : s' = s := by rw [← (hx s).1, hRun]
  rw [hState]
  exact hf a

/-- A step that looks at the session goes on with what it saw. -/
theorem tells_get_bind {f : Session → Step β} (hf : (f s).Tells s) :
    ((get : Step Session) >>= f).Tells s :=
  hf

theorem tells_pure (a : α) : (pure a : Step α).Tells s :=
  (reads_pure a).tells s

theorem tells_malformed : (malformed : Step α).Tells s :=
  reads_malformed.tells s

/-- Another session comes in the place of the session, by a change that logs nothing. -/
theorem tells_modify {f : Session → Session} (h : s.Grows [] (f s)) :
    (modify f : Step Unit).Tells s :=
  h

@[inherit_doc tells_modify]
theorem tells_set {s' : Session} (h : s.Grows [] s') : (set s' : Step PUnit).Tells s :=
  h

/-- What is made inside a step is logged as the outcome of the step. -/
theorem tells_build {b : Build α} (hb : b.Tells) : (build b).Tells s := by
  have hRun : (build b).run s = ((b.run s.store).1, { s with store := (b.run s.store).2 }) := by
    rcases hb : b.run s.store with ⟨failure | a, store⟩ <;>
      · show (ExceptT.run (match (b.run s.store).1 with
          | .ok a => (pure a : Step _)
          | .error failure => throw failure)) { s with store := (b.run s.store).2 } = _
        rw [hb]
        rfl
  rw [Tells, hRun]
  exact .of_store (hb s.store)

/-- A name is given to something. -/
theorem tells_bind (name : String) (slot : Slot) : (Step.bind name slot).Tells s :=
  tells_modify (.of_slots s _)

/-- Making what a spec describes and naming it. -/
theorem tells_make (step : Datum) : (make step).Tells s :=
  (reads_category step).andThen fun _ => (reads_field step "spec").andThen fun _ =>
    (reads_textField step "as").andThen fun _ => reads_scope.andThen fun _ =>
      (tells_build (Spec.tells_node _ _ _)).andThen fun _ _ =>
        (tells_bind _ _).andThen fun _ _ => tells_pure _

/-- Making a chain and naming its last node. -/
theorem tells_chain (step : Datum) : (chain step).Tells s := by
  refine (reads_category step).andThen fun _ => (reads_field step "base").andThen fun _ =>
    (reads_field step "link").andThen fun _ => (reads_field step "n").andThen fun _ =>
      (reads_expect _).andThen fun _ => (reads_textField step "as").andThen fun _ =>
        reads_scope.andThen fun _ =>
          (tells_build (Spec.tells_node _ _ _)).andThen fun _ _ =>
            (tells_build (Spec.tells_chain _ _ _ _ _)).andThen fun n _ =>
              (tells_bind _ _).andThen fun _ _ => ?_
  cases n with
  | type t => exact tells_pure _
  | expr e => exact tells_pure _

/-- Another name for a node. -/
theorem tells_share (step : Datum) : (share step).Tells s :=
  (reads_node step "of").andThen fun _ => (reads_textField step "as").andThen fun _ =>
    (tells_bind _ _).andThen fun _ _ => tells_pure _

/-- A copy makes nodes and logs nothing. -/
theorem tells_deepClone (step : Datum) : (deepClone step).Tells s := by
  refine (reads_node step "of").andThen fun n => (reads_textField step "as").andThen fun name =>
    tells_get_bind ?_
  cases n with
  | type t =>
    have hCopy : (s.store.copyType t).2.events.toList = s.store.events.toList ++ [] :=
      (List.append_nil _).symm
    exact (tells_modify (.of_store hCopy)).andThen fun _ _ =>
      (tells_bind name _).andThen fun _ _ => tells_pure _
  | expr e =>
    have hCopy : (s.store.copyExpr e).2.events.toList = s.store.events.toList ++ [] :=
      (List.append_nil _).symm
    exact (tells_modify (.of_store hCopy)).andThen fun _ _ =>
      (tells_bind name _).andThen fun _ _ => tells_pure _

/-- A name is given up. -/
theorem tells_drop (step : Datum) : (drop step).Tells s :=
  (reads_slot step "of").andThen fun _ => (reads_textField step "of").andThen fun _ =>
    (tells_modify (.of_slots s _)).andThen fun _ _ => tells_pure _

/-- What an accessor found is named, if it found anything. -/
theorem tells_bindFound (step : Datum) (found : Option Node) : (bindFound step found).Tells s := by
  cases found with
  | none => exact tells_pure _
  | some n =>
    exact (reads_textField step "as").andThen fun _ =>
      (tells_bind _ _).andThen fun _ _ => tells_pure _

/-- The accessors look inside a node and name what they find. -/
theorem tells_fieldOf (step : Datum) : (fieldOf step).Tells s :=
  (reads_node step "of").andThen fun _ => (reads_textField step "field").andThen fun _ =>
    (reads_fieldOr _ _ _ _).andThen fun _ => tells_bindFound step _

@[inherit_doc tells_fieldOf]
theorem tells_operand (step : Datum) : (operand step).Tells s := by
  refine (reads_node step "of").andThen fun n => ?_
  cases n with
  | type t => exact tells_malformed
  | expr e =>
    exact (reads_field step "index").andThen fun _ => (reads_expect _).andThen fun _ =>
      tells_bindFound step _

@[inherit_doc tells_fieldOf]
theorem tells_typeOf (step : Datum) : (typeOf step).Tells s := by
  refine (reads_node step "of").andThen fun n => ?_
  cases n with
  | type t => exact tells_malformed
  | expr e => exact tells_bindFound step _

@[inherit_doc tells_fieldOf]
theorem tells_subtype (step : Datum) : (subtype step).Tells s := by
  refine (reads_node step "of").andThen fun n => ?_
  cases n with
  | type t => exact tells_bindFound step _
  | expr e => exact tells_malformed

@[inherit_doc tells_fieldOf]
theorem tells_memberType (step : Datum) : (memberType step).Tells s := by
  refine (reads_node step "of").andThen fun n => ?_
  cases n with
  | type t => exact (reads_textField step "name").andThen fun _ => tells_bindFound step _
  | expr e => exact tells_malformed

/-- A description may copy the node it is about, and logs nothing. -/
theorem tells_describe (step : Datum) : (describe step).Tells s := by
  refine (reads_node step "of").andThen fun n => (reads_options step).andThen fun o =>
    tells_get_bind ?_
  have hEvents : (Report.describe s.store o n).2.events.toList = s.store.events.toList ++ [] := by
    cases n <;> exact (List.append_nil _).symm
  exact (tells_modify (.of_store hEvents)).andThen fun _ _ => tells_pure _

/-- Making a table and naming it. -/
theorem tells_makeTable (step : Datum) : (makeTable step).Tells s :=
  (reads_category step).andThen fun category => (reads_textField step "how").andThen fun _ =>
    (reads_expect _).andThen fun _ => (reads_textField step "as").andThen fun _ =>
      tells_get_bind <| (tells_set (.of_table s category _)).andThen fun _ _ =>
        (tells_bind _ _).andThen fun _ _ => tells_pure _

/-- Another name for a table, if it may have one. -/
theorem tells_cloneTable (step : Datum) : (cloneTable step).Tells s := by
  refine (reads_slot step "of").andThen fun found => ?_
  split
  · split
    · exact (reads_textField step "as").andThen fun _ =>
        (tells_bind _ _).andThen fun _ _ => tells_pure _
    · exact tells_malformed
  · exact tells_malformed

end Step

end TermGraph
