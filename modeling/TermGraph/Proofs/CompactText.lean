import TermGraph.Print.Compact
import TermGraph.Proofs.Related

/-!
# Compact texts

The compact text of a type is written from its tree (`Ty.compact_eq_of_tree`): two types with one
tree emit the same pieces, with types of one tree in the same places between them.
-/

namespace TermGraph

-- ---------------------------------------------------------------------------
-- Items that emit the same
-- ---------------------------------------------------------------------------

/-- Both emit the same value, or both are seeds and these are related. -/
inductive Item.Rel {σ ω : Type} (R : σ → σ → Prop) : Item σ ω → Item σ ω → Prop
  | emit (w : ω) : Rel R (.emit w) (.emit w)
  | seed {s t : σ} (h : R s t) : Rel R (.seed s) (.seed t)

theorem Unfolding.flatten_congr {σ ω : Type} (u : Unfolding σ ω) {xs ys : List (Item σ ω)}
    (h : List.Forall₂ (Item.Rel fun s t => u.yield s = u.yield t) xs ys) :
    u.flatten xs = u.flatten ys := by
  induction h with
  | nil => rfl
  | cons hItem _ ih =>
    cases hItem with
    | emit w => rw [flatten_emit, flatten_emit, ih]
    | seed hSeed => rw [flatten_seed_cons, flatten_seed_cons, hSeed, ih]

namespace Ty

variable {R : Ty → Ty → Prop} {S : Expr → Expr → Prop}

theorem commaList_rel {ts us : List Ty} (h : List.Forall₂ R ts us) :
    List.Forall₂ (Item.Rel R) (commaList ts) (commaList us) := by
  induction h with
  | nil => exact .nil
  | cons hHead hTail ih =>
    cases hTail with
    | nil => exact .cons (.seed hHead) .nil
    | cons => exact .cons (.seed hHead) (.cons (.emit _) ih)

theorem isEmpty_congr {ts us : List Ty} (h : List.Forall₂ R ts us) : ts.isEmpty = us.isEmpty := by
  cases h <;> rfl

/-- Types of related shapes have the same pieces, if the sizes inside look the same. -/
theorem compactItems_rel {t u : Ty} (h : t.shape.Rel R S u.shape)
    (hSizes : ∀ e d, S e d → e.constantInt? = d.constantInt?) :
    List.Forall₂ (Item.Rel R) t.compactItems u.compactItems := by
  rw [compactItems, compactItems]
  generalize t.shape = s, u.shape = s' at h
  cases h with
  | code names ellipsis hArguments hResult =>
    dsimp only
    rw [isEmpty_congr hArguments]
    refine .cons (.emit _) (List.rel_append (commaList_rel hArguments) ?_)
    exact .cons (.emit _) (.cons (.seed hResult) .nil)
  | @array _ _ _ size size' hElement hSize =>
    have hText : compactSize size = compactSize size' := by
      cases hSize with
      | none => rfl
      | some hSize => rw [compactSize, compactSize, hSizes _ _ hSize]
    dsimp only
    rw [hText]
    exact .cons (.emit _) (.cons (.seed hElement) (.cons (.emit _) .nil))
  | pointer hTarget => exact .cons (.emit _) (.cons (.seed hTarget) (.cons (.emit _) .nil))
  | cppName name hArguments =>
    dsimp only
    rw [isEmpty_congr hArguments]
    split
    · exact .cons (.emit _) .nil
    · exact .cons (.emit _) (List.rel_append (commaList_rel hArguments) (.cons (.emit _) .nil))
  | _ => exact .cons (.emit _) .nil

/-- Types with one tree have one compact text. -/
theorem compact_eq_of_tree {t u : Ty} (hTree : t.tree = u.tree) : t.compact = u.compact := by
  -- by induction on the type; sizes are looked at where they stand and not unfolded
  have hYield : ∀ n : Node, ∀ t u : Ty, n = .type t → t.tree = u.tree →
      compactUnfolding.yield t = compactUnfolding.yield u := by
    intro n
    induction n using Node.induction_children with
    | step n ih =>
      rintro t u rfl hTree
      have hItems := compactItems_rel (Ty.shape_rel hTree) fun e d hSame =>
        Expr.constantInt?_congr (Expr.shape_rel hSame.2.2)
      rw [Unfolding.yield_eq_flatten_expand, Unfolding.yield_eq_flatten_expand]
      refine Unfolding.flatten_congr _ (hItems.imp fun x y hItem => ?_)
      cases hItem with
      | emit w => exact .emit w
      | seed hSeed =>
        obtain ⟨ht, -, hSame⟩ := hSeed
        exact .seed (ih _ (Node.type_mem_children_type.mpr ht) _ _ rfl hSame)
  rw [compact, compact, Unfolding.text, Unfolding.text, Unfolding.fold_eq_foldl,
    Unfolding.fold_eq_foldl]
  exact congrArg _ (hYield _ t u rfl hTree)

end Ty

end TermGraph
