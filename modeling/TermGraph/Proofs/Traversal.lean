import TermGraph.Proofs.Walk
import Mathlib.Data.List.Chain
import Mathlib.Data.List.Perm.Basic

/-!
# Walks that leave something out

The visitors of the library differ in what they record and in where they stop. Each of them can be
told from the full walk alone: a visitor of one category records the visits of that category
(`walk_exprs`, `walk_types`); a visitor that stops at some nodes makes the visits that no such node
lies above (`walk_preorder_eq_trails`); recording on the way back changes the order only
(`walk_postorder_perm`). Which nodes lie above a visit is a matter of how the walk came there, since
one node may be visited in several places, so a `Trail` is a visit with the nodes it came through.

Main statement: `traversals_agree`.
-/

namespace TermGraph

-- ---------------------------------------------------------------------------
-- One category
-- ---------------------------------------------------------------------------

namespace Visitor

/-- A visitor that never stops, and records at most one thing of each node, makes a selection of the
visits. -/
theorem walk_eq_filterMap {ω : Type} {v : Visitor ω} {pick : Node → Option ω}
    (hVisit : ∀ n, v.visit n = { before := (pick n).toList }) (n : Node) :
    v.walk n = n.visits.filterMap pick := by
  induction n using Node.induction_children with
  | step n ih =>
    have hInside : n.children.flatMap v.walk = (n.children.flatMap Node.visits).filterMap pick := by
      rw [List.filterMap_flatMap]
      exact List.flatMap_congr ih
    rw [walk_eq, hVisit, Node.visits_eq, if_pos rfl, hInside, List.append_nil]
    cases hPick : pick n with
    | none => rw [List.filterMap_cons_none hPick, Option.toList_none, List.nil_append]
    | some w => rw [List.filterMap_cons_some hPick, Option.toList_some, List.singleton_append]

/-- A visitor that says nothing of types still meets every expression: it passes through the types
on the way. -/
theorem walk_exprs (n : Node) : exprs.walk n = n.visits.filterMap Node.asExpr? :=
  walk_eq_filterMap (fun n => by cases n <;> rfl) n

theorem walk_types (n : Node) : types.walk n = n.visits.filterMap Node.asType? :=
  walk_eq_filterMap (fun n => by cases n <;> rfl) n

end Visitor

-- ---------------------------------------------------------------------------
-- Trails
-- ---------------------------------------------------------------------------

/-- A visit, and the nodes that the walk came through, outermost first. -/
structure Trail where
  above : List Node
  node : Node

/-- The visit is at the end of a path that begins at `n` and goes from nodes to their children. -/
structure Trail.LeadsFrom (n : Node) (v : Trail) : Prop where
  begins : (v.above ++ [v.node]).head? = some n
  steps : (v.above ++ [v.node]).IsChain fun a b => b ∈ a.children

namespace Node

/-- The visits of the walk from a node that was come to through `above`. -/
def trailsThrough (above : List Node) (n : Node) : List Trail :=
  ⟨above, n⟩ :: n.children.attach.flatMap fun c => trailsThrough (above ++ [n]) c.1
termination_by n.size
decreasing_by exact size_lt_of_mem_children c.2

/-- All visits of the walk from a node, in preorder, each with the nodes above it. -/
def trails (n : Node) : List Trail :=
  n.trailsThrough []

theorem trailsThrough_eq (above : List Node) (n : Node) :
    n.trailsThrough above =
      ⟨above, n⟩ :: n.children.flatMap fun c => c.trailsThrough (above ++ [n]) := by
  rw [trailsThrough, List.flatMap_subtype (g := fun c => c.trailsThrough (above ++ [n]))]
  · rw [List.unattach_attach]
  · exact fun _ _ => rfl

/-- Without what is above them, the trails are the visits of the full walk. -/
theorem map_node_trailsThrough (above : List Node) (n : Node) :
    (n.trailsThrough above).map Trail.node = n.visits := by
  induction n using induction_children generalizing above with
  | step n ih =>
    rw [trailsThrough_eq, visits_eq, List.map_cons, List.map_flatMap]
    congr 1
    exact List.flatMap_congr fun c hc => ih c hc _

theorem leadsFrom_of_mem_trailsThrough {root n : Node} {above : List Node} {v : Trail}
    (hAbove : Trail.LeadsFrom root ⟨above, n⟩) (hv : v ∈ n.trailsThrough above) :
    v.LeadsFrom root := by
  induction n using induction_children generalizing above with
  | step n ih =>
    rw [trailsThrough_eq, List.mem_cons, List.mem_flatMap] at hv
    rcases hv with rfl | ⟨c, hc, hv⟩
    · exact hAbove
    · refine ih c hc ⟨?_, ?_⟩ hv
      · rw [List.head?_append_of_ne_nil _ (by simp)]
        exact hAbove.begins
      · refine hAbove.steps.append (.singleton c) ?_
        simpa using hc

end Node

-- ---------------------------------------------------------------------------
-- Stops
-- ---------------------------------------------------------------------------

namespace Visitor

variable (stop : Node → Bool)

/-- No stop lies above the visit. -/
def clear (v : Trail) : Bool :=
  v.above.all fun a => !stop a

/-- Of the visits below `above`, a visitor that stops makes none if there is a stop in `above`, and
otherwise those that are clear. -/
theorem map_filter_trailsThrough (above : List Node) (n : Node) :
    ((n.trailsThrough above).filter (clear stop)).map Trail.node =
      if clear stop ⟨above, n⟩ then (preorder stop).walk n else [] := by
  induction n using Node.induction_children generalizing above with
  | step n ih =>
    have hBelow : ∀ c, clear stop ⟨above ++ [n], c⟩ = (clear stop ⟨above, n⟩ && !stop n) := by
      intro c
      simp [clear]
    have hInside : ((n.children.flatMap fun c => c.trailsThrough (above ++ [n])).filter
        (clear stop)).map Trail.node =
        if (clear stop ⟨above, n⟩ && !stop n) = true then
          n.children.flatMap (preorder stop).walk else [] := by
      rw [List.filter_flatMap, List.map_flatMap]
      calc n.children.flatMap (fun c =>
            ((c.trailsThrough (above ++ [n])).filter (clear stop)).map Trail.node)
          = n.children.flatMap fun c =>
              if (clear stop ⟨above, n⟩ && !stop n) = true then (preorder stop).walk c else [] := by
            refine List.flatMap_congr fun c hc => ?_
            rw [ih c hc, hBelow]
        _ = _ := by
            split
            · rfl
            · simp
    rw [Node.trailsThrough_eq, List.filter_cons, walk_preorder]
    by_cases hClear : clear stop ⟨above, n⟩ = true
    · rw [if_pos hClear, if_pos hClear, List.map_cons, hInside, hClear]
      cases stop n <;> simp
    · rw [if_neg hClear, if_neg hClear, hInside]
      simp [hClear]

theorem walk_preorder_eq_trails (n : Node) :
    (preorder stop).walk n = (n.trails.filter (clear stop)).map Trail.node := by
  rw [Node.trails, map_filter_trailsThrough]
  rfl

/-- Recording on the way back records the same visits. -/
theorem walk_postorder_perm (n : Node) :
    ((postorder stop).walk n).Perm ((preorder stop).walk n) := by
  induction n using Node.induction_children with
  | step n ih =>
    rw [walk_postorder, walk_preorder]
    refine (List.perm_append_singleton n _).trans (List.Perm.cons n ?_)
    split
    · exact .nil
    · exact List.Perm.flatMap_left _ ih

end Visitor

/-- The visitors agree with each other, on any node and for any stops. Those that look at one
category record the visits of that category. Stopping leaves out the visits with a stop among the
nodes that the full walk came through, and nothing else. Recording after the children instead of
before them gives the same visits in another order, with the node itself at the end. -/
theorem traversals_agree (n : Node) (stop : Node → Bool) :
    Visitor.exprs.walk n = n.visits.filterMap Node.asExpr? ∧
    Visitor.types.walk n = n.visits.filterMap Node.asType? ∧
    n.trails.map Trail.node = n.visits ∧ (∀ v ∈ n.trails, v.LeadsFrom n) ∧
    (Visitor.preorder stop).walk n =
      (n.trails.filter fun v => v.above.all fun a => !stop a).map Trail.node ∧
    ((Visitor.postorder stop).walk n).Perm ((Visitor.preorder stop).walk n) ∧
    ((Visitor.postorder stop).walk n).getLast? = some n := by
  refine ⟨Visitor.walk_exprs n, Visitor.walk_types n, Node.map_node_trailsThrough [] n,
    fun v hv => ?_, Visitor.walk_preorder_eq_trails stop n, Visitor.walk_postorder_perm stop n, ?_⟩
  · exact Node.leadsFrom_of_mem_trailsThrough ⟨rfl, .singleton n⟩ hv
  · rw [Visitor.walk_postorder, List.getLast?_concat]

end TermGraph
