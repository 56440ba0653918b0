import TermGraph.Query
import TermGraph.Text.Decimal
import TermGraph.Unfold

/-!
# The compact text of a type

One line that names a type in messages. A struct or union is named by its name alone, a string
type without its width, and an array by its elements and its size: a literal size in digits, any
other size as `*`, no size as `inf`.
-/

namespace TermGraph.Ty

open Text

/-- Some types with commas between them. -/
def commaList (ts : List Ty) : List (Item Ty String) :=
  (ts.map .seed).intersperse (.emit ", ")

/-- The size of an array between its brackets. -/
def compactSize : Option Expr → String
  | none => "inf"
  | some size =>
    match size.constantInt? with
    | some value => decimalInt value
    | none => "*"

/-- The pieces of the compact text. -/
def compactItems (t : Ty) : List (Item Ty String) :=
  match t.shape with
  | .bool => [.emit "bool"]
  | .empty => [.emit "empty"]
  | .symbol name => [.emit ("symbol(" ++ name.text ++ ")")]
  | .aggregate form _ _ name => [.emit (form.kind.name ++ " " ++ name.text)]
  | .code arguments result _ ellipsis =>
    let dots := if ellipsis then (if arguments.isEmpty then "..." else ", ...") else ""
    .emit "code(" :: commaList arguments ++ [.emit (dots ++ ") -> "), .seed result]
  | .array element size _ =>
    [.emit "array(", .seed element, .emit (")[" ++ compactSize size ++ "]")]
  | .pointer target => [.emit "pointer(", .seed target, .emit ")"]
  | .unsignedbv width => [.emit ("uint" ++ decimal width.toNat)]
  | .signedbv width => [.emit ("int" ++ decimal width.toNat)]
  | .fixedbv width integerBits =>
    [.emit ("fixedbv(" ++ decimal width.toNat ++ ", " ++ decimal integerBits.toNat ++ ")")]
  | .floatbv fraction exponent =>
    [.emit ("floatbv(" ++ decimal fraction.toNat ++ ", " ++ decimal exponent.toNat ++ ")")]
  | .string _ => [.emit "string"]
  | .cppName name arguments =>
    if arguments.isEmpty then [.emit name.text]
    else .emit (name.text ++ "<") :: commaList arguments ++ [.emit ">"]

theorem weight_commaList (ts : List Ty) :
    Item.weight (fun t => (Node.type t).size) (commaList ts) = Node.sizes (ts.map .type) := by
  simp [commaList, Node.sizes]

theorem weight_compactItems_lt (t : Ty) :
    Item.weight (fun t => (Node.type t).size) t.compactItems < (Node.type t).size := by
  have inside := Node.sum_size_children_lt (.type t)
  simp only [Node.children, Node.fields, Ty.fields] at inside
  unfold compactItems
  split <;> rename_i h <;>
    simp only [h, TyShape.fields, List.flatMap_cons, List.flatMap_nil, Value.nodes,
      Value.heldTypes, Value.heldExprs, List.map_cons, List.map_nil, List.append_nil,
      List.nil_append, Node.sizes_append, Node.sizes_cons, Node.sizes_nil] at inside
  case h_13 =>
    split <;> simp only [Item.weight, List.cons_append, Item.weight_append, weight_commaList] <;>
      omega
  all_goals
    simp only [Item.weight, List.cons_append, Item.weight_append, weight_commaList]
    omega

/-- The compact text as an unfolding. -/
def compactUnfolding : Unfolding Ty String where
  expand := compactItems
  falls := ⟨_, weight_compactItems_lt⟩

/-- The compact text of a type. -/
def compact (t : Ty) : String :=
  compactUnfolding.text "" [.seed t]

end TermGraph.Ty
