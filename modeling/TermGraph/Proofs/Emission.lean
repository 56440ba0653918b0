import TermGraph.Store

/-!
# What checks log

A check logs a rejection at the place where it builds it, and hands it on or not. It might build two,
or build one and pass all the same, or refuse with another than it logged; then the log would not be
the record of what was refused. `Checked.Tells` rules this out: a check that refuses has logged its
rejection and nothing else, and a check that passes has logged nothing.

A builder on its own does not obey the rule, since it logs without refusing, and neither does a
refusal on its own. The two together do (`Check.tells_typeMismatch`, `Check.tells_invalid`). The rule
goes through sequences (`Checked.Tells.bind`) and so from place to place through every check.

Main statements: `Ty.tells_check`, `Expr.tells_check`.
-/

namespace TermGraph

variable {α β : Type}

/-- How a rejection is logged: its kind and its reason, or its kind, the field, and what was expected
and found there. -/
def Rejection.event : Rejection → Event
  | .mismatch kind field expected found => .mismatch kind.name field expected.text found.compact
  | .invalid kind reason => .invalid kind.name reason.text

/-- What the log is to tell of an outcome. -/
def Rejection.events : Except Rejection α → List Event
  | .ok _ => []
  | .error rejection => [rejection.event]

-- ---------------------------------------------------------------------------
-- The rule and what keeps it
-- ---------------------------------------------------------------------------

/-- The check logs the rejection that it refuses with, once, and nothing if it passes. -/
def Checked.Tells (x : Checked α) : Prop :=
  x.events = Rejection.events x.outcome

theorem Checked.tells_pure (a : α) : (pure a : Checked α).Tells :=
  rfl

/-- One check after the other: the second logs only where the first has passed, and then the first
has logged nothing. -/
theorem Checked.Tells.bind {x : Checked α} {f : α → Checked β} (hx : x.Tells)
    (hf : ∀ a, (f a).Tells) : (x >>= f).Tells := by
  rw [Tells, Checked.events_bind, Checked.outcome_bind, hx]
  cases x.outcome with
  | ok a => exact hf a
  | error rejection => rfl

namespace Check

open Checked

/-- A type is refused with the rejection that was built for it. -/
theorem tells_typeMismatch (kind : Kind) (field : String) (expected : Expected) (found : Ty) :
    (do refuse (← typeMismatch kind field expected found) : Checked α).Tells :=
  rfl

/-- Contents are refused with the rejection that was built for them. -/
theorem tells_invalid (kind : Kind) (reason : Reason) :
    (do refuse (← invalid kind reason) : Checked α).Tells :=
  rfl

/-- A requirement builds a rejection only to refuse with it. -/
theorem tells_require (kind : Kind) (field : String) (expected : Expected) (found : Ty) :
    (require kind field expected found).Tells := by
  rw [require]
  split
  · exact tells_pure ()
  · exact tells_typeMismatch kind field expected found

/-- A condition builds a rejection only to refuse with it. -/
theorem tells_ensure (condition : Bool) (kind : Kind) (reason : Reason) :
    (ensure condition kind reason).Tells := by
  rw [ensure]
  split
  · exact tells_pure ()
  · exact tells_invalid kind reason

end Check

open Check

-- ---------------------------------------------------------------------------
-- Types
-- ---------------------------------------------------------------------------

namespace Ty

/-- The first name that is empty or repeated is logged, and no name after it. -/
theorem tells_checkMemberNames (kind : Kind) (seen names : List Name) :
    (checkMemberNames kind seen names).Tells := by
  induction names generalizing seen with
  | nil => exact Checked.tells_pure ()
  | cons name names ih =>
    exact (tells_ensure _ kind .emptyName).bind fun _ => (tells_ensure _ kind _).bind fun _ =>
      ih (name :: seen)

theorem tells_checkWidth (kind : Kind) (field : String) (width : UInt32) :
    (checkWidth kind field width).Tells :=
  tells_ensure _ kind _

/-- The check of a type logs its rejection, once, or nothing. -/
theorem tells_check (shape : TyShape Ty Expr) : (check shape).Tells := by
  cases shape with
  | bool => exact Checked.tells_pure ()
  | empty => exact Checked.tells_pure ()
  | pointer target => exact Checked.tells_pure ()
  | symbol name => exact tells_ensure _ _ _
  | cppName name arguments => exact tells_ensure _ _ _
  | aggregate form members names name =>
    exact (tells_ensure _ _ _).bind fun _ => tells_checkMemberNames _ [] names
  | code arguments result names ellipsis => exact tells_ensure _ _ _
  | array element size infinite =>
    cases size with
    | none =>
      cases infinite with
      | true => exact Checked.tells_pure ()
      | false => exact tells_invalid _ _
    | some size =>
      cases infinite with
      | true => exact tells_invalid _ _
      | false => exact tells_require _ _ _ _
  | unsignedbv width => exact tells_checkWidth _ _ width
  | signedbv width => exact tells_checkWidth _ _ width
  | string width => exact tells_checkWidth _ _ width
  | fixedbv width integerBits =>
    exact (tells_checkWidth _ _ width).bind fun _ => tells_ensure _ _ _
  | floatbv fraction exponent =>
    exact (tells_checkWidth _ _ fraction).bind fun _ => tells_checkWidth _ _ exponent

end Ty

-- ---------------------------------------------------------------------------
-- Expressions
-- ---------------------------------------------------------------------------

namespace Expr

/-- A name that finds no member is logged as unknown. -/
theorem tells_memberType (kind : Kind) (type : Ty) (name : Name) :
    (memberType kind type name).Tells := by
  rw [memberType]
  split
  · exact Checked.tells_pure _
  · exact tells_invalid _ _

/-- Looking a member up and asking for its type. -/
theorem tells_requireMember (kind : Kind) (field : String) (type : Ty) (name : Name) (found : Ty) :
    (do require kind field (.type (← memberType kind type name)) found : Check).Tells :=
  (tells_memberType kind type name).bind fun _ => tells_require _ _ _ _

/-- The first value of another type is logged, and no value after it. -/
theorem tells_checkMembers (kind : Kind) (values : List Expr) (members : List Ty) :
    (checkMembers kind values members).Tells := by
  induction values generalizing members with
  | nil => exact Checked.tells_pure ()
  | cons value values ih =>
    cases members with
    | nil => exact Checked.tells_pure ()
    | cons member members => exact (tells_require _ _ _ _).bind fun _ => ih members

/-- The first element of another type is logged, and no element after it. -/
theorem tells_checkElements (kind : Kind) (element : Ty) (values : List Expr) :
    (checkElements kind element values).Tells := by
  induction values with
  | nil => exact Checked.tells_pure ()
  | cons value values ih => exact (tells_require _ _ _ _).bind fun _ => ih

/-- The operands of a binary operator are checked from left to right, after the result type. -/
theorem tells_checkBinary (op : BinaryOp) (type left right : Ty) :
    (checkBinary op type left right).Tells := by
  unfold checkBinary
  cases op.family with
  | relation => exact (tells_require _ _ _ _).bind fun _ => tells_require _ _ _ _
  | _ =>
    exact (tells_require _ _ _ _).bind fun _ => (tells_require _ _ _ _).bind fun _ =>
      tells_require _ _ _ _

/-- The operand of a unary operator is checked after the result type. -/
theorem tells_checkUnary (op : UnaryOp) (type : Ty) (operand : Expr) :
    (checkUnary op type operand).Tells := by
  cases op with
  | typecast => exact Checked.tells_pure ()
  | addressOf => exact tells_require _ _ _ _
  | dereference => exact tells_require _ _ _ _
  | overflow => exact (tells_require _ _ _ _).bind fun _ => tells_ensure _ _ _
  | _ => exact (tells_require _ _ _ _).bind fun _ => tells_require _ _ _ _

/-- An array of given elements: its size, their number, the elements. -/
theorem tells_checkArray (type : Ty) (members : List Expr) : (checkArray type members).Tells := by
  unfold checkArray
  split
  · refine (tells_ensure _ _ _).bind fun _ => ?_
    split
    · exact (tells_ensure _ _ _).bind fun _ => tells_checkElements _ _ _
    · exact (Checked.tells_pure ()).bind fun _ => tells_checkElements _ _ _
  · exact tells_require _ _ _ _

/-- An update: its type, its source, then the field and the value together. -/
theorem tells_checkUpdate (type : Ty) (source field value : Expr) :
    (checkUpdate type source field value).Tells := by
  refine (tells_require _ _ _ _).bind fun _ => (tells_require _ _ _ _).bind fun _ => ?_
  split
  · exact (tells_require _ _ _ _).bind fun _ => tells_require _ _ _ _
  · split
    · exact tells_requireMember _ _ _ _ _
    · exact tells_invalid _ _

/-- The check of an expression logs its rejection, once, or nothing. -/
theorem tells_check (type : Ty) (shape : ExprShape Expr) : (check type shape).Tells := by
  cases shape with
  | constantInt value => exact tells_require _ _ _ _
  | constantBool value => exact tells_require _ _ _ _
  | constantString value => exact tells_require _ _ _ _
  | constantStruct members =>
    refine (tells_require _ _ _ _).bind fun _ => ?_
    split
    · exact (tells_ensure _ _ _).bind fun _ => tells_checkMembers _ _ _
    · exact Checked.tells_pure ()
  | constantUnion members initField =>
    refine (tells_require _ _ _ _).bind fun _ => ?_
    split
    · exact tells_requireMember _ _ _ _ _
    · exact tells_invalid _ _
  | constantArray members => exact tells_checkArray type members
  | constantArrayOf initializer =>
    rw [check]
    split
    · exact tells_require _ _ _ _
    · exact tells_require _ _ _ _
  | symbol name => exact tells_ensure _ _ _
  | ite cond onTrue onFalse =>
    exact (tells_require _ _ _ _).bind fun _ => (tells_require _ _ _ _).bind fun _ =>
      tells_require _ _ _ _
  | binary op left right => exact tells_checkBinary op type left.type right.type
  | unary op operand => exact tells_checkUnary op type operand
  | update source field value => exact tells_checkUpdate type source field value
  | member source name => exact (tells_require _ _ _ _).bind fun _ => tells_requireMember _ _ _ _ _
  | index source position =>
    refine (tells_require _ _ _ _).bind fun _ => (tells_require _ _ _ _).bind fun _ => ?_
    split
    · exact tells_require _ _ _ _
    · exact tells_require _ _ _ _

end Expr

-- ---------------------------------------------------------------------------
-- The log of a store
-- ---------------------------------------------------------------------------

namespace Store

/-- What is logged comes last. -/
theorem toList_events_log (s : Store) (events : List Event) :
    (s.log events).events.toList = s.events.toList ++ events := by
  simp [log]

/-- Making a node logs the rejection that is returned, and nothing else. -/
theorem events_make (s : Store) {checked : Check} (hTells : checked.Tells)
    (build : Hasher → Nat → α) :
    (s.make checked build).2.events.toList =
      s.events.toList ++ Rejection.events (s.make checked build).1 := by
  have hLog : (s.log checked.events).events.toList =
      s.events.toList ++ Rejection.events checked.outcome := by
    rw [toList_events_log, hTells]
  cases hOutcome : checked.outcome with
  | ok _ =>
    rw [hOutcome] at hLog
    rw [make_of_ok hOutcome]
    exact hLog
  | error rejection =>
    rw [hOutcome] at hLog
    rw [make_of_error hOutcome]
    exact hLog

/-- A check that passes has logged nothing, so that only the next identity changes. -/
theorem make_of_passes {s : Store} {checked : Check} (hTells : checked.Tells)
    (hPasses : checked.outcome = .ok ()) (build : Hasher → Nat → α) :
    s.make checked build = (.ok (build s.hasher s.next), { s with next := s.next + 1 }) := by
  have hEvents : checked.events = [] := by rw [hTells, hPasses, Rejection.events]
  rw [make_of_ok hPasses, hEvents, log_nil]

/-- Asking for a type logs the rejection that comes back, once, or nothing. -/
theorem events_makeType (s : Store) (shape : TyShape Ty Expr) :
    (s.makeType shape).2.events.toList =
      s.events.toList ++ Rejection.events (s.makeType shape).1 :=
  s.events_make (Ty.tells_check shape) _

/-- Asking for an expression logs the rejection that comes back, once, or nothing. -/
theorem events_makeExpr (s : Store) (type : Ty) (shape : ExprShape Expr) :
    (s.makeExpr type shape).2.events.toList =
      s.events.toList ++ Rejection.events (s.makeExpr type shape).1 :=
  s.events_make (Expr.tells_check type shape) _

end Store

end TermGraph
