import TermGraph.Proofs.FieldTable
import TermGraph.Proofs.Guarantees

/-!
# Nodes give back what they were made from

A node is asked for by its kind and some arguments (`TypeCall`, `ExprCall`; an expression has its
result type besides). What can be read off the node that is made are these arguments and nothing
else: as fields, in the order of the arguments and under the names of the kind, by name, as operands,
and through the views of single kinds (`fields_return_arguments`).

Three tables have to agree for that, the parameters of each kind, the fields of each kind, and the
names of these fields. A name occurs once in a kind, so that a field can be found by its name
(`Field.lookup_iff`).
-/

namespace TermGraph

variable {τ ε : Type}

-- ---------------------------------------------------------------------------
-- Calls
-- ---------------------------------------------------------------------------

/-- A type of a kind is asked for with arguments, in the order of its parameters. -/
inductive TypeCall : TypeKind → List (Value τ ε) → TyShape τ ε → Prop where
  | bool : TypeCall .bool [] .bool
  | empty : TypeCall .empty [] .empty
  | symbol (name : Name) : TypeCall .symbol [.name name] (.symbol name)
  | struct (members : List τ) (memberNames : List Name) (name : Name) :
      TypeCall .struct [.types members, .names memberNames, .name name]
        (.aggregate .struct members memberNames name)
  | union (members : List τ) (memberNames : List Name) (name : Name) :
      TypeCall .union [.types members, .names memberNames, .name name]
        (.aggregate .union members memberNames name)
  | code (arguments : List τ) (result : τ) (argumentNames : List Name) (ellipsis : Bool) :
      TypeCall .code [.types arguments, .type result, .names argumentNames, .bool ellipsis]
        (.code arguments result argumentNames ellipsis)
  | array (element : τ) (size : Option ε) (infinite : Bool) :
      TypeCall .array [.type element, .optExpr size, .bool infinite] (.array element size infinite)
  | pointer (target : τ) : TypeCall .pointer [.type target] (.pointer target)
  | unsignedbv (width : UInt32) : TypeCall .unsignedbv [.uint width] (.unsignedbv width)
  | signedbv (width : UInt32) : TypeCall .signedbv [.uint width] (.signedbv width)
  | fixedbv (width integerBits : UInt32) :
      TypeCall .fixedbv [.uint width, .uint integerBits] (.fixedbv width integerBits)
  | floatbv (fraction exponent : UInt32) :
      TypeCall .floatbv [.uint fraction, .uint exponent] (.floatbv fraction exponent)
  | string (width : UInt32) : TypeCall .string [.uint width] (.string width)
  | cppName (name : Name) (arguments : List τ) :
      TypeCall .cppName [.name name, .types arguments] (.cppName name arguments)

/-- An expression of a kind is asked for with arguments, in the order of its parameters; the result
type is left out. -/
inductive ExprCall : ExprKind → List (Value τ ε) → ExprShape ε → Prop where
  | constantInt (value : Int) : ExprCall .constantInt [.int value] (.constantInt value)
  | constantBool (value : Bool) : ExprCall .constantBool [.bool value] (.constantBool value)
  | constantString (value : Name) : ExprCall .constantString [.name value] (.constantString value)
  | constantStruct (members : List ε) :
      ExprCall .constantStruct [.exprs members] (.constantStruct members)
  | constantUnion (members : List ε) (initField : Name) :
      ExprCall .constantUnion [.exprs members, .name initField] (.constantUnion members initField)
  | constantArray (members : List ε) :
      ExprCall .constantArray [.exprs members] (.constantArray members)
  | constantArrayOf (initializer : ε) :
      ExprCall .constantArrayOf [.expr initializer] (.constantArrayOf initializer)
  | symbol (name : Name) : ExprCall .symbol [.name name] (.symbol name)
  | ite (cond onTrue onFalse : ε) :
      ExprCall .ite [.expr cond, .expr onTrue, .expr onFalse] (.ite cond onTrue onFalse)
  | binary (op : BinaryOp) (left right : ε) :
      ExprCall (.binary op) [.expr left, .expr right] (.binary op left right)
  | unary (op : UnaryOp) (operand : ε) :
      ExprCall (.unary op) [.expr operand] (.unary op operand)
  | update (source field value : ε) :
      ExprCall .update [.expr source, .expr field, .expr value] (.update source field value)
  | member (source : ε) (name : Name) :
      ExprCall .member [.expr source, .name name] (.member source name)
  | index (source position : ε) :
      ExprCall .index [.expr source, .expr position] (.index source position)

/-- A call gives a type of the kind that is asked for. -/
theorem TypeCall.kind_eq {kind : TypeKind} {args : List (Value τ ε)} {shape : TyShape τ ε}
    (hCall : TypeCall kind args shape) : shape.kind = kind := by
  cases hCall <;> rfl

/-- The arguments of a call for a type are the values of its fields, in order. -/
theorem TypeCall.values_eq {kind : TypeKind} {args : List (Value τ ε)} {shape : TyShape τ ε}
    (hCall : TypeCall kind args shape) : shape.fields.map (·.value) = args := by
  cases hCall <;> rfl

/-- A call gives an expression of the kind that is asked for. -/
theorem ExprCall.kind_eq {kind : ExprKind} {args : List (Value τ ε)} {shape : ExprShape ε}
    (hCall : ExprCall kind args shape) : shape.kind = kind := by
  cases hCall <;> rfl

/-- The arguments of a call for an expression are the values of its own fields, in order. -/
theorem ExprCall.values_eq {kind : ExprKind} {args : List (Value τ ε)} {shape : ExprShape ε}
    (hCall : ExprCall kind args shape) :
    (shape.fields : List (Field τ ε)).map (·.value) = args := by
  cases hCall <;> rfl

/-- Whatever a type can hold is asked for by some call. -/
theorem TypeCall.exists_args (shape : TyShape τ ε) : ∃ args, TypeCall shape.kind args shape := by
  cases shape with
  | aggregate form members names name =>
    cases form with
    | struct => exact ⟨_, .struct members names name⟩
    | union => exact ⟨_, .union members names name⟩
  | _ => exact ⟨_, by constructor⟩

/-- Whatever an expression can hold is asked for by some call. -/
theorem ExprCall.exists_args (shape : ExprShape ε) :
    ∃ args : List (Value τ ε), ExprCall shape.kind args shape := by
  cases shape <;> exact ⟨_, by constructor⟩

/-- Two calls ask for the same if and only if they are the same call. -/
theorem ExprCall.shape_eq_iff {kind kind' : ExprKind} {args args' : List (Value τ ε)}
    {shape shape' : ExprShape ε} (hCall : ExprCall kind args shape)
    (hCall' : ExprCall kind' args' shape') : shape = shape' ↔ kind = kind' ∧ args = args' := by
  rw [← hCall.kind_eq, ← hCall'.kind_eq, ← hCall.values_eq, ← hCall'.values_eq]
  constructor
  · rintro rfl
    exact ⟨rfl, rfl⟩
  · rintro ⟨hKind, hValues⟩
    exact ExprShape.eq_of_fields hKind hValues

-- ---------------------------------------------------------------------------
-- Fields
-- ---------------------------------------------------------------------------

/-- Where names are distinct, what is found under a name is what is listed under it. -/
theorem Field.lookup_iff {fields : List (Field τ ε)} (hDistinct : (fields.map (·.name)).Nodup)
    (name : String) (v : Value τ ε) :
    (fields.find? (·.name == name)).map (·.value) = some v ↔ ⟨name, v⟩ ∈ fields := by
  have hName : ∀ f, fields.find? (·.name == name) = some f → f.name = name := by
    intro f hFind
    have hBeq := List.find?_some hFind
    exact beq_iff_eq.mp hBeq
  constructor
  · intro hLookup
    obtain ⟨f, hFind, rfl⟩ := Option.map_eq_some_iff.mp hLookup
    rw [← hName f hFind]
    exact List.mem_of_find?_eq_some hFind
  · intro hMem
    cases hFind : fields.find? (·.name == name) with
    | none => exact absurd (beq_self_eq_true name) (List.find?_eq_none.mp hFind _ hMem)
    | some f =>
      have hMem' : f ∈ fields := List.mem_of_find?_eq_some hFind
      rw [List.inj_on_of_nodup_map hDistinct hMem' hMem (hName f hFind)]
      rfl

/-- The fields have the given names and values, place by place. They can be found by these names,
each of which is there once, and by no other. -/
structure Reflects (fields : List (Field τ ε)) (field? : String → Option (Value τ ε))
    (names : List String) (values : List (Value τ ε)) : Prop where
  fields_eq : fields = List.zipWith Field.mk names values
  length_eq : names.length = values.length
  distinct : (fields.map (·.name)).Nodup
  field_iff : ∀ name v, field? name = some v ↔ ⟨name, v⟩ ∈ fields

/-- A table of fields with distinct names can be read by these names. -/
theorem Reflects.of_tables {fields : List (Field τ ε)} {names : List String}
    {values : List (Value τ ε)} (hNames : fields.map (·.name) = names)
    (hValues : fields.map (·.value) = values) (hDistinct : names.Nodup) :
    Reflects fields (fun name => (fields.find? (·.name == name)).map (·.value)) names values where
  fields_eq := by
    rw [← hNames, ← hValues, List.zipWith_map, List.zipWith_self]
    exact (List.map_id fields).symm
  length_eq := by rw [← hNames, ← hValues, List.length_map, List.length_map]
  distinct := by rwa [hNames]
  field_iff := Field.lookup_iff (by rwa [hNames])

-- ---------------------------------------------------------------------------
-- Views
-- ---------------------------------------------------------------------------

/-- Each view tells the arguments of a call for its own kinds, and nothing for any other kind. -/
structure Expr.Views (e : Expr) (kind : ExprKind) (args : List (Value Ty Expr)) : Prop where
  binary_iff : ∀ op left right, e.binary? = some (op, left, right) ↔
    kind = .binary op ∧ args = [.expr left, .expr right]
  unary_iff : ∀ op operand, e.unary? = some (op, operand) ↔
    kind = .unary op ∧ args = [.expr operand]
  constantInt_iff : ∀ i, e.constantInt? = some i ↔ kind = .constantInt ∧ args = [.int i]
  constantBool_iff : ∀ b, e.constantBool? = some b ↔ kind = .constantBool ∧ args = [.bool b]
  constantString_iff : ∀ n, e.constantString? = some n ↔ kind = .constantString ∧ args = [.name n]
  symbol_iff : ∀ n, e.symbol? = some n ↔ kind = .symbol ∧ args = [.name n]

/-- What a view tells is decided by the call. -/
theorem ExprCall.views {e : Expr} {kind : ExprKind} {args : List (Value Ty Expr)}
    (hCall : ExprCall kind args e.shape) : e.Views kind args where
  binary_iff op left right := by
    rw [← hCall.shape_eq_iff (.binary op left right), Expr.binary?]
    cases e.shape <;> simp
  unary_iff op operand := by
    rw [← hCall.shape_eq_iff (.unary op operand), Expr.unary?]
    cases e.shape <;> simp
  constantInt_iff i := by
    rw [← hCall.shape_eq_iff (.constantInt i), Expr.constantInt?]
    cases e.shape <;> simp
  constantBool_iff b := by
    rw [← hCall.shape_eq_iff (.constantBool b), Expr.constantBool?]
    cases e.shape <;> simp
  constantString_iff n := by
    rw [← hCall.shape_eq_iff (.constantString n), Expr.constantString?]
    cases e.shape <;> simp
  symbol_iff n := by
    rw [← hCall.shape_eq_iff (.symbol n), Expr.symbol?]
    cases e.shape <;> simp

-- ---------------------------------------------------------------------------
-- Nodes
-- ---------------------------------------------------------------------------

/-- The fields of a type are the arguments under the names of its kind. -/
theorem TypeCall.reflects {t : Ty} {kind : TypeKind} {args : List (Value Ty Expr)}
    (hCall : TypeCall kind args t.shape) : Reflects t.fields t.field? kind.fieldNames args := by
  have hNames : t.fields.map (·.name) = kind.fieldNames := by
    rw [← hCall.kind_eq]
    exact t.shape.names_fields
  exact Reflects.of_tables hNames hCall.values_eq (Kind.type kind).nodup_fieldNames

/-- The fields of an expression are the arguments under the names of its kind, and its result
type. -/
theorem ExprCall.reflects {e : Expr} {kind : ExprKind} {args : List (Value Ty Expr)}
    (hCall : ExprCall kind args e.shape) :
    Reflects e.fields e.field? (kind.fieldNames ++ ["type"]) (args ++ [.type e.type]) := by
  have hNames : e.fields.map (·.name) = kind.fieldNames ++ ["type"] := by
    rw [← hCall.kind_eq]
    exact (Node.expr e).names_fields
  have hValues : e.fields.map (·.value) = args ++ [.type e.type] := by
    rw [← hCall.values_eq]
    exact List.map_append
  exact Reflects.of_tables hNames hValues (Kind.expr kind).nodup_fieldNames

/-- The operands are the expressions among the arguments. -/
theorem ExprCall.operands_eq {e : Expr} {kind : ExprKind} {args : List (Value Ty Expr)}
    (hCall : ExprCall kind args e.shape) : e.operands = args.flatMap (·.heldExprs) := by
  rw [← hCall.values_eq, List.flatMap_map, Expr.operands]
  exact (ExprShape.flatMap_heldExprs _).symm

/-- A node that is made is of the kind that was asked for, and its fields are the arguments, the very
types and expressions that were given; an expression has its result type as one more field. The same
is seen in its operands and through its views. Whatever a node can hold is asked for by some call. -/
theorem fields_return_arguments (s : Store) :
    (∀ kind args shape t, TypeCall kind args shape → (s.makeType shape).1 = .ok t →
      t.kind = kind ∧ Reflects t.fields t.field? kind.fieldNames args) ∧
    (∀ kind args type shape e, ExprCall kind args shape → (s.makeExpr type shape).1 = .ok e →
      e.kind = kind ∧
      Reflects e.fields e.field? (kind.fieldNames ++ ["type"]) (args ++ [.type type]) ∧
      e.operands = args.flatMap (·.heldExprs) ∧ e.Views kind args) ∧
    (∀ shape : TyShape Ty Expr, ∃ args, TypeCall shape.kind args shape) ∧
    (∀ shape : ExprShape Expr, ∃ args : List (Value Ty Expr), ExprCall shape.kind args shape) := by
  refine ⟨?_, ?_, TypeCall.exists_args, ExprCall.exists_args⟩
  · intro kind args shape t hCall hMade
    obtain rfl := Store.shape_of_makeType hMade
    exact ⟨hCall.kind_eq, hCall.reflects⟩
  · intro kind args type shape e hCall hMade
    obtain ⟨rfl, rfl⟩ := Store.contents_of_makeExpr hMade
    exact ⟨hCall.kind_eq, hCall.reflects, hCall.operands_eq, hCall.views⟩

/-- A float type and an implication. -/
theorem fields_return_arguments_sample :
    let bool : Ty := .build .fnv 0 .bool
    let yes : Expr := .build .fnv 1 bool (.constantBool true)
    let no : Expr := .build .fnv 2 bool (.constantBool false)
    let float : Ty := .build .fnv 3 (.floatbv 23 8)
    let implies : Expr := .build .fnv 3 bool (.binary .implies yes no)
    let store : Store := { next := 3 }
    (store.makeType (.floatbv 23 8)).1 = .ok float ∧
      float.fields = [⟨"fraction", .uint 23⟩, ⟨"exponent", .uint 8⟩] ∧
      (store.makeExpr bool (.binary .implies yes no)).1 = .ok implies ∧
      implies.fields = [⟨"side_1", .expr yes⟩, ⟨"side_2", .expr no⟩, ⟨"type", .type bool⟩] ∧
      implies.field? "side_2" = some (.expr no) ∧ implies.operands = [yes, no] ∧
      implies.binary? = some (.implies, yes, no) := by
  intro bool yes no float implies store
  obtain ⟨hTypes, hExprs, -⟩ := fields_return_arguments store
  have hFloat : (store.makeType (.floatbv 23 8)).1 = .ok float := rfl
  have hImplies : (store.makeExpr bool (.binary .implies yes no)).1 = .ok implies := rfl
  obtain ⟨-, hReflects⟩ := hTypes _ _ _ _ (.floatbv 23 8) hFloat
  obtain ⟨-, hReflects', hOperands, hViews⟩ := hExprs _ _ _ _ _ (.binary .implies yes no) hImplies
  have hFields : implies.fields =
      [⟨"side_1", .expr yes⟩, ⟨"side_2", .expr no⟩, ⟨"type", .type bool⟩] := hReflects'.fields_eq
  have hSecond : implies.field? "side_2" = some (.expr no) := by
    rw [hReflects'.field_iff, hFields]
    exact .tail _ (.head _)
  exact ⟨hFloat, hReflects.fields_eq, hImplies, hFields, hSecond, hOperands,
    (hViews.binary_iff .implies yes no).mpr ⟨rfl, rfl⟩⟩

end TermGraph
