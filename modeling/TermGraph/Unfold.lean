import TermGraph.Total

/-!
# Unfolding

Walks over nodes, comparisons and texts all have one form: a *seed* unfolds into a list of items,
each of which is either something to emit or a smaller seed, and what counts is the sequence of
all that is emitted. `Unfolding.run` consumes that sequence with one loop over an explicit list
of pending items, so that the depth of a seed costs memory and no call stack, and it stops as soon
as its consumer has seen enough.

Main statements: a run consumes the list of what is emitted (`Unfolding.run_eq_consume`), and that
list goes through the items from left to right (`flatten_append`, `yield_eq_flatten_expand`).
-/

namespace TermGraph

/-- Something to emit, or a seed still to unfold. -/
inductive Item (σ ω : Type) where
  | emit (w : ω)
  | seed (s : σ)

namespace Item

variable {σ ω : Type}

/-- The seeds among some items, measured and added up. -/
def weight (size : σ → Nat) : List (Item σ ω) → Nat
  | [] => 0
  | .emit _ :: items => weight size items
  | .seed s :: items => size s + weight size items

@[simp] theorem weight_append (size : σ → Nat) (xs ys : List (Item σ ω)) :
    weight size (xs ++ ys) = weight size xs + weight size ys := by
  induction xs with
  | nil => simp [weight]
  | cons x xs ih => cases x <;> simp [weight, ih, Nat.add_assoc]

@[simp] theorem weight_map_emit (size : σ → Nat) (ws : List ω) :
    weight size (ws.map .emit : List (Item σ ω)) = 0 := by
  induction ws with
  | nil => rfl
  | cons w ws ih => simp [weight, ih]

@[simp] theorem weight_map_seed (size : σ → Nat) (ss : List σ) :
    weight size (ss.map .seed : List (Item σ ω)) = total size ss := by
  induction ss with
  | nil => rfl
  | cons s ss ih => simp [weight, ih]

theorem weight_map_emit_of (size : σ → Nat) {α : Type} (f : α → ω) (xs : List α) :
    weight size (xs.map fun x => (.emit (f x) : Item σ ω)) = 0 := by
  induction xs with
  | nil => rfl
  | cons x xs ih => simpa only [List.map_cons, weight] using ih

theorem weight_map_seed_of (size : σ → Nat) {α : Type} (f : α → σ) (xs : List α) :
    weight size (xs.map fun x => (.seed (f x) : Item σ ω)) = total (fun x => size (f x)) xs := by
  induction xs with
  | nil => rfl
  | cons x xs ih => simp only [List.map_cons, weight, total_cons, ih]

@[simp] theorem weight_intersperse_emit (size : σ → Nat) (w : ω) (items : List (Item σ ω)) :
    weight size (items.intersperse (.emit w)) = weight size items := by
  induction items with
  | nil => rfl
  | cons x xs ih =>
    cases xs with
    | nil => rfl
    | cons y ys =>
      change weight size (x :: .emit w :: (y :: ys).intersperse (.emit w)) = _
      cases x <;> simp only [weight, ih]

theorem weight_flatMap (size : σ → Nat) {α : Type} (f : α → List (Item σ ω)) (xs : List α) :
    weight size (xs.flatMap f) = total (fun x => weight size (f x)) xs := by
  induction xs with
  | nil => rfl
  | cons x xs ih => simp [ih]

end Item

/-- A rule that unfolds seeds `σ` and emits `ω`. Some measure of seeds falls with every step. -/
structure Unfolding (σ ω : Type) where
  expand : σ → List (Item σ ω)
  falls : ∃ size : σ → Nat, ∀ s, Item.weight size (expand s) < size s

namespace Unfolding

variable {σ ω β : Type}

/-- A measure of seeds that falls with every step. -/
noncomputable def size (u : Unfolding σ ω) : σ → Nat :=
  Classical.choose u.falls

theorem weight_expand_lt (u : Unfolding σ ω) (s : σ) :
    Item.weight u.size (u.expand s) < u.size s :=
  Classical.choose_spec u.falls s

/-- Hands the emitted values one by one to `step`, until it is done or there are none left. -/
@[specialize] def run (u : Unfolding σ ω) (step : β → ω → ForInStep β) :
    List (Item σ ω) → β → β
  | [], acc => acc
  | .emit w :: items, acc =>
    match step acc w with
    | .done acc => acc
    | .yield acc => run u step items acc
  | .seed s :: items, acc => run u step (u.expand s ++ items) acc
termination_by items _ => (Item.weight u.size items, items.length)
decreasing_by
  · simp [Item.weight, Prod.lex_def]
  · have := u.weight_expand_lt s
    simp [Item.weight, Prod.lex_def]
    omega

/-- Combines all that some items emit, from left to right. -/
@[specialize] def fold (u : Unfolding σ ω) (f : β → ω → β) (init : β) (items : List (Item σ ω)) : β :=
  u.run (fun acc w => .yield (f acc w)) items init

/-- All that some items emit, in order. -/
def flatten (u : Unfolding σ ω) (items : List (Item σ ω)) : List ω :=
  (u.fold (fun acc w => w :: acc) [] items).reverse

/-- All that a seed emits, in order. -/
def yield (u : Unfolding σ ω) (s : σ) : List ω :=
  u.flatten [.seed s]

/-- Appends the text that some items emit. -/
def text (u : Unfolding σ String) (start : String) (items : List (Item σ String)) : String :=
  u.fold (· ++ ·) start items

/-! ## What is emitted

`flatten` is the meaning of a list of items: it takes lists apart as they come together, and every
run is the run of a consumer over it. -/

/-- Induction along a run: an emitted value is taken off, a seed is replaced by what it unfolds
into. -/
theorem items_induction (u : Unfolding σ ω) {motive : List (Item σ ω) → Prop} (nil : motive [])
    (emit : ∀ w items, motive items → motive (.emit w :: items))
    (seed : ∀ s items, motive (u.expand s ++ items) → motive (.seed s :: items)) :
    ∀ items, motive items
  | [] => nil
  | .emit w :: items => emit w items (items_induction u nil emit seed items)
  | .seed s :: items => seed s items (items_induction u nil emit seed (u.expand s ++ items))
termination_by items => (Item.weight u.size items, items.length)
decreasing_by
  · simp [Item.weight, Prod.lex_def]
  · have := u.weight_expand_lt s
    simp [Item.weight, Prod.lex_def]
    omega

/-- Hands the values of a list one by one to `step`, until it is done. -/
def consume (step : β → ω → ForInStep β) : List ω → β → β
  | [], acc => acc
  | w :: ws, acc =>
    match step acc w with
    | .done acc => acc
    | .yield acc => consume step ws acc

theorem fold_nil (u : Unfolding σ ω) (f : β → ω → β) (init : β) : u.fold f init [] = init := by
  rw [fold, run]

theorem fold_emit (u : Unfolding σ ω) (f : β → ω → β) (init : β) (w : ω)
    (items : List (Item σ ω)) : u.fold f init (.emit w :: items) = u.fold f (f init w) items := by
  rw [fold, run]
  rfl

theorem fold_seed (u : Unfolding σ ω) (f : β → ω → β) (init : β) (s : σ)
    (items : List (Item σ ω)) :
    u.fold f init (.seed s :: items) = u.fold f init (u.expand s ++ items) := by
  rw [fold, run, fold]

/-- What is already collected stays below what is still to come. -/
theorem fold_cons_append (u : Unfolding σ ω) (items : List (Item σ ω)) (acc : List ω) :
    u.fold (fun acc w => w :: acc) acc items = (u.flatten items).reverse ++ acc := by
  unfold flatten
  rw [List.reverse_reverse]
  induction items using u.items_induction generalizing acc with
  | nil => simp [fold_nil]
  | emit w items ih =>
    rw [fold_emit, fold_emit, ih (w :: acc), ih [w]]
    simp
  | seed s items ih =>
    rw [fold_seed, fold_seed]
    exact ih acc

@[simp] theorem flatten_nil (u : Unfolding σ ω) : u.flatten [] = [] := by
  simp [flatten, fold_nil]

@[simp] theorem flatten_emit (u : Unfolding σ ω) (w : ω) (items : List (Item σ ω)) :
    u.flatten (.emit w :: items) = w :: u.flatten items := by
  rw [flatten, fold_emit, fold_cons_append]
  simp

theorem flatten_seed (u : Unfolding σ ω) (s : σ) (items : List (Item σ ω)) :
    u.flatten (.seed s :: items) = u.flatten (u.expand s ++ items) := by
  rw [flatten, flatten, fold_seed]

@[simp] theorem flatten_append (u : Unfolding σ ω) (xs ys : List (Item σ ω)) :
    u.flatten (xs ++ ys) = u.flatten xs ++ u.flatten ys := by
  induction xs using u.items_induction with
  | nil => simp
  | emit w xs ih => simp [ih]
  | seed s xs ih =>
    rw [List.cons_append, flatten_seed, flatten_seed, ← List.append_assoc]
    exact ih

/-- A seed emits what the items that it unfolds into emit. -/
theorem yield_eq_flatten_expand (u : Unfolding σ ω) (s : σ) :
    u.yield s = u.flatten (u.expand s) := by
  rw [yield, flatten_seed, List.append_nil]

/-- A list of items that starts with a seed emits what the seed emits, then the rest. -/
@[simp] theorem flatten_seed_cons (u : Unfolding σ ω) (s : σ) (items : List (Item σ ω)) :
    u.flatten (.seed s :: items) = u.yield s ++ u.flatten items := by
  rw [flatten_seed, flatten_append, yield_eq_flatten_expand]

/-- Running a consumer over items is running it over the list of what they emit. -/
theorem run_eq_consume (u : Unfolding σ ω) (step : β → ω → ForInStep β)
    (items : List (Item σ ω)) (acc : β) :
    u.run step items acc = consume step (u.flatten items) acc := by
  induction items using u.items_induction generalizing acc with
  | nil => simp [run, consume]
  | emit w items ih =>
    rw [run, flatten_emit, consume]
    cases step acc w with
    | done acc => rfl
    | yield acc => exact ih acc
  | seed s items ih =>
    rw [run, flatten_seed]
    exact ih acc

theorem fold_eq_foldl (u : Unfolding σ ω) (f : β → ω → β) (init : β)
    (items : List (Item σ ω)) : u.fold f init items = (u.flatten items).foldl f init := by
  rw [fold, run_eq_consume]
  induction u.flatten items generalizing init with
  | nil => rfl
  | cons w ws ih => exact ih (f init w)

end Unfolding

end TermGraph
