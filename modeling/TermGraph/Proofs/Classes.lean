import TermGraph.Proofs.Canonical
import TermGraph.Proofs.Related
import TermGraph.Script.Report

/-!
# Classes of equal nodes

The classes of equal nodes in a list can be found in three ways. One sorts the list by the order and
drops what equals its neighbour; one puts the elements into an ordered set; one asks a table to
canonicalize them. The first goes by the order and by equality, the second by the order alone, the
third by digests and equality. They find the same classes, and the first and the third keep the same
node of each: the one that comes first in the list.

* `RankedBy` says that an order and an equality are those of a view; it is all that is used of
  nodes, and holds of nodes with their positions too.
* `Ranking.filter_sort`: sorting leaves the elements of one class in their order.
* `Ranking.distinct` is the sorted list without repeats. A script is told the positions of its nodes
  (`Ranking.lookup_dedup`).

Main statement: `sorting_counts_classes`.
-/

open Std

namespace TermGraph

variable {α β : Type}

/-- Among the elements of `S`, an order and an equality are those of a view. -/
structure RankedBy (cmp : α → α → Ordering) (eq : α → α → Bool) (S : α → Prop) (view : α → β)
    (order : β → β → Ordering) : Prop where
  cmp_eq : ∀ {a b}, S a → S b → cmp a b = order (view a) (view b)
  eq_iff : ∀ {a b}, S a → S b → (eq a b = true ↔ view a = view b)

namespace Ranking

variable {cmp : α → α → Ordering} {eq : α → α → Bool} {S : α → Prop} {view : α → β}
  {order : β → β → Ordering} {xs : List α}

/-- The elements of a list in order, one for each class of equal elements. -/
def ranked (cmp : α → α → Ordering) (eq : α → α → Bool) (xs : List α) : List α :=
  dropRepeats eq (sort cmp xs)

/-- Each element comes before all that follow. -/
def Increasing (view : α → β) (order : β → β → Ordering) (xs : List α) : Prop :=
  xs.Pairwise fun a b => order (view a) (view b) = .lt

-- ---------------------------------------------------------------------------
-- Sorting
-- ---------------------------------------------------------------------------

section Sorting

variable [TransCmp order] (hR : RankedBy cmp eq S view order) (hxs : ∀ x ∈ xs, S x)

/-- The view of `a` does not come after that of `b`. -/
def notAfter (view : α → β) (order : β → β → Ordering) (a b : α) : Bool :=
  order (view a) (view b) != .gt

theorem notAfter_trans (a b c : α) (hab : notAfter view order a b = true)
    (hbc : notAfter view order b c = true) : notAfter view order a c = true := by
  rw [notAfter, bne_iff_ne, ne_eq, ← Ordering.isLE_iff_ne_gt] at hab hbc ⊢
  exact TransCmp.isLE_trans hab hbc

theorem notAfter_total (a b : α) : (notAfter view order a b || notAfter view order b a) = true := by
  have hSwap : order (view b) (view a) = (order (view a) (view b)).swap := OrientedCmp.eq_swap
  rw [notAfter, notAfter, hSwap]
  cases order (view a) (view b) <;> rfl

theorem mem_of_mem_sort {y : α} (h : y ∈ sort cmp xs) : y ∈ xs :=
  (List.mergeSort_perm _ _).mem_iff.mp h

include hR hxs

omit [TransCmp order] in
/-- The order is lawful only among elements of `S`; that of views is lawful, and sorts alike. -/
theorem sort_eq : sort cmp xs = xs.mergeSort (notAfter view order) := by
  have hSame : ∀ a ∈ xs, ∀ b ∈ xs, (cmp a b != .gt) = notAfter view order (id a) (id b) := by
    intro a ha b hb
    rw [hR.cmp_eq (hxs a ha) (hxs b hb)]
    rfl
  simpa [sort] using List.map_mergeSort hSame

theorem pairwise_sort : (sort cmp xs).Pairwise fun a b => notAfter view order a b = true := by
  rw [sort_eq hR hxs]
  exact List.pairwise_mergeSort notAfter_trans notAfter_total xs

/-- Sorting is stable: the elements of one class keep their order. -/
theorem filter_sort {x : α} (hx : S x) : (sort cmp xs).filter (eq · x) = xs.filter (eq · x) := by
  have hClass : (xs.filter (eq · x)).Pairwise fun a b => notAfter view order a b = true := by
    apply List.pairwise_of_forall_mem_list
    intro a ha b hb
    rw [List.mem_filter] at ha hb
    have hView : view a = view b :=
      ((hR.eq_iff (hxs a ha.1) hx).mp ha.2).trans ((hR.eq_iff (hxs b hb.1) hx).mp hb.2).symm
    have hSelf : order (view b) (view b) = .eq := ReflCmp.compare_self
    rw [notAfter, hView, hSelf]
    rfl
  have hSublist : (xs.filter (eq · x)).Sublist (sort cmp xs) := by
    rw [sort_eq hR hxs]
    exact List.sublist_mergeSort notAfter_trans notAfter_total hClass List.filter_sublist
  have hPerm : (sort cmp xs).Perm xs := List.mergeSort_perm _ _
  have hInside := hSublist.filter (eq · x)
  simp only [List.filter_filter, Bool.and_self] at hInside
  exact (hInside.eq_of_length (hPerm.filter _).length_eq.symm).symm

theorem find?_sort {x : α} (hx : S x) : (sort cmp xs).find? (eq · x) = xs.find? (eq · x) := by
  rw [← List.head?_filter, ← List.head?_filter, filter_sort hR hxs hx]

end Sorting

-- ---------------------------------------------------------------------------
-- Dropping repeats
-- ---------------------------------------------------------------------------

theorem mem_of_mem_dropRepeats {y : α} (h : y ∈ dropRepeats eq xs) : y ∈ xs := by
  fun_induction dropRepeats eq xs with
  | case1 => exact h
  | case2 => exact h
  | case3 x x' rest _ ih =>
    rcases List.mem_cons.mp (ih h) with rfl | hRest
    · exact List.mem_cons_self
    · exact List.mem_cons_of_mem x (List.mem_cons_of_mem x' hRest)
  | case4 x x' rest _ ih =>
    rcases List.mem_cons.mp h with rfl | hRest
    · exact List.mem_cons_self
    · exact List.mem_cons_of_mem x (ih hRest)

section Dropping

variable (hR : RankedBy cmp eq S view order) (hxs : ∀ x ∈ xs, S x)

include hR hxs

/-- Of the elements of one class the first stays. -/
theorem find?_dropRepeats {x : α} (hx : S x) :
    (dropRepeats eq xs).find? (eq · x) = xs.find? (eq · x) := by
  fun_induction dropRepeats eq xs with
  | case1 => rfl
  | case2 => rfl
  | case3 y y' rest hEq ih =>
    obtain ⟨hy, hy', hRest⟩ : S y ∧ S y' ∧ ∀ z ∈ rest, S z := by simpa using hxs
    have hSame : eq y' x = eq y x := by
      rw [Bool.eq_iff_iff, hR.eq_iff hy' hx, hR.eq_iff hy hx, (hR.eq_iff hy hy').mp hEq]
    rw [ih (by simpa using ⟨hy, hRest⟩), List.find?_cons, List.find?_cons, List.find?_cons, hSame]
    cases eq y x <;> rfl
  | case4 y y' rest _ ih =>
    rw [List.find?_cons, List.find?_cons, ih fun z hz => hxs z (List.mem_cons_of_mem y hz)]

/-- Repeats of a sorted list are neighbours, so that what stays increases strictly. -/
theorem increasing_dropRepeats [TransCmp order] [LawfulEqCmp order]
    (hSorted : xs.Pairwise fun a b => notAfter view order a b = true) :
    Increasing view order (dropRepeats eq xs) := by
  fun_induction dropRepeats eq xs with
  | case1 => exact .nil
  | case2 => exact List.pairwise_singleton _ _
  | case3 y y' rest _ ih =>
    obtain ⟨hy, hSorted'⟩ := List.pairwise_cons.mp hSorted
    obtain ⟨-, hRest⟩ := List.pairwise_cons.mp hSorted'
    refine ih ?_ (List.pairwise_cons.mpr ⟨fun z hz => hy z (List.mem_cons_of_mem y' hz), hRest⟩)
    exact fun z hz => hxs z (by grind)
  | case4 y y' rest hNe ih =>
    obtain ⟨hy, hSorted'⟩ := List.pairwise_cons.mp hSorted
    obtain ⟨hy', -⟩ := List.pairwise_cons.mp hSorted'
    have hBefore : order (view y) (view y') = .lt := by
      have hViews : view y ≠ view y' :=
        mt (hR.eq_iff (hxs y (by simp)) (hxs y' (by simp))).mpr hNe
      have hNotAfter := hy y' List.mem_cons_self
      rw [notAfter, bne_iff_ne] at hNotAfter
      have hNotEq : order (view y) (view y') ≠ .eq := mt LawfulEqCmp.eq_of_compare hViews
      cases hOrder : order (view y) (view y') with
      | lt => rfl
      | eq => exact absurd hOrder hNotEq
      | gt => exact absurd hOrder hNotAfter
    refine List.pairwise_cons.mpr
      ⟨fun z hz => ?_, ih (fun z hz => hxs z (List.mem_cons_of_mem y hz)) hSorted'⟩
    -- `y'` does not come after `z`, and `y` comes before `y'`
    rcases List.mem_cons.mp (mem_of_mem_dropRepeats hz) with rfl | hz
    · exact hBefore
    · have hLE := hy' z hz
      rw [notAfter, bne_iff_ne] at hLE
      exact TransCmp.lt_of_lt_of_isLE hBefore (Ordering.isLE_iff_ne_gt.mpr hLE)

end Dropping

-- ---------------------------------------------------------------------------
-- The ordered set
-- ---------------------------------------------------------------------------

theorem mem_of_mem_insert {acc : List α} {x y : α} (h : y ∈ insert cmp x acc) :
    y = x ∨ y ∈ acc := by
  fun_induction insert cmp x acc with
  | case1 => exact List.mem_cons.mp h
  | case2 => exact List.mem_cons.mp h
  | case3 => exact .inr h
  | case4 z rest _ ih =>
    rcases List.mem_cons.mp h with rfl | hRest
    · exact .inr List.mem_cons_self
    · exact (ih hRest).imp_right (List.mem_cons_of_mem z)

theorem set_concat (cmp : α → α → Ordering) (xs : List α) (x : α) :
    set cmp (xs ++ [x]) = insert cmp x (set cmp xs) := by
  rw [set, List.foldl_append]
  rfl

theorem mem_of_mem_set {y : α} (h : y ∈ set cmp xs) : y ∈ xs := by
  induction xs using List.reverseRecOn with
  | nil => exact h
  | append_singleton xs x ih =>
    rw [set_concat] at h
    rcases mem_of_mem_insert h with rfl | hOld
    · exact List.mem_append_right _ List.mem_cons_self
    · exact List.mem_append_left _ (ih hOld)

section Collecting

variable (hR : RankedBy cmp eq S view order)

include hR

theorem mem_views_insert [LawfulEqCmp order] {acc : List α} (hAcc : ∀ y ∈ acc, S y) {x : α}
    (hx : S x) (v : β) : v ∈ (insert cmp x acc).map view ↔ v = view x ∨ v ∈ acc.map view := by
  fun_induction insert cmp x acc with
  | case1 => exact List.mem_cons
  | case2 => exact List.mem_cons
  | case3 y rest hCompare =>
    rw [hR.cmp_eq hx (hAcc y List.mem_cons_self)] at hCompare
    have hView : view x = view y := LawfulEqCmp.eq_of_compare hCompare
    rw [List.map_cons, List.mem_cons, hView, ← or_assoc, or_self]
  | case4 y rest _ ih =>
    rw [List.map_cons, List.map_cons, List.mem_cons, List.mem_cons,
      ih fun z hz => hAcc z (List.mem_cons_of_mem y hz), or_left_comm]

/-- One step: an element goes where it belongs. -/
theorem Increasing.insert [TransCmp order] {acc : List α} (hAcc : ∀ y ∈ acc, S y) {x : α}
    (hx : S x) (h : Increasing view order acc) : Increasing view order (insert cmp x acc) := by
  fun_induction Ranking.insert cmp x acc with
  | case1 => exact List.pairwise_singleton _ _
  | case2 y rest hCompare =>
    rw [hR.cmp_eq hx (hAcc y List.mem_cons_self)] at hCompare
    obtain ⟨hy, -⟩ := List.pairwise_cons.mp h
    refine List.pairwise_cons.mpr ⟨fun z hz => ?_, h⟩
    rcases List.mem_cons.mp hz with rfl | hz
    · exact hCompare
    · exact TransCmp.lt_trans hCompare (hy z hz)
  | case3 => exact h
  | case4 y rest hCompare ih =>
    rw [hR.cmp_eq hx (hAcc y List.mem_cons_self)] at hCompare
    obtain ⟨hy, hRest⟩ := List.pairwise_cons.mp h
    refine List.pairwise_cons.mpr
      ⟨fun z hz => ?_, ih (fun z hz => hAcc z (List.mem_cons_of_mem y hz)) hRest⟩
    rcases mem_of_mem_insert hz with rfl | hz
    · exact OrientedCmp.lt_of_gt hCompare
    · exact hy z hz

theorem mem_views_set [LawfulEqCmp order] (hxs : ∀ x ∈ xs, S x) (v : β) :
    v ∈ (set cmp xs).map view ↔ v ∈ xs.map view := by
  induction xs using List.reverseRecOn with
  | nil => exact Iff.rfl
  | append_singleton xs x ih =>
    obtain ⟨hxs', hx⟩ := List.forall_mem_append.mp hxs
    rw [List.forall_mem_singleton] at hx
    rw [set_concat, mem_views_insert hR (fun y hy => hxs' y (mem_of_mem_set hy)) hx, ih hxs',
      List.map_append, List.mem_append, List.map_singleton, List.mem_singleton, or_comm]

/-- Every run: the ordered set increases. -/
theorem increasing_set [TransCmp order] (hxs : ∀ x ∈ xs, S x) :
    Increasing view order (set cmp xs) := by
  induction xs using List.reverseRecOn with
  | nil => exact .nil
  | append_singleton xs x ih =>
    obtain ⟨hxs', hx⟩ := List.forall_mem_append.mp hxs
    rw [List.forall_mem_singleton] at hx
    rw [set_concat]
    exact (ih hxs').insert hR (fun y hy => hxs' y (mem_of_mem_set hy)) hx

end Collecting

section Increasing

variable [TransCmp order]

theorem Increasing.nodup (h : Increasing view order xs) : (xs.map view).Nodup := by
  refine List.pairwise_map.mpr (List.Pairwise.imp (fun {a b} hLt hView => ?_) h)
  have hSelf : order (view b) (view b) = .eq := ReflCmp.compare_self
  rw [hView, hSelf] at hLt
  cases hLt

/-- An increasing list is told by the views in it. -/
theorem Increasing.map_eq {ys : List α} (hx : Increasing view order xs)
    (hy : Increasing view order ys) (hMem : ∀ v, v ∈ xs.map view ↔ v ∈ ys.map view) :
    xs.map view = ys.map view := by
  have hPerm := (List.perm_ext_iff_of_nodup hx.nodup hy.nodup).mpr hMem
  have hViews : ∀ {zs : List α}, Increasing view order zs →
      (zs.map view).Pairwise fun v v' => order v v' = .lt := fun hz => List.pairwise_map.mpr hz
  refine hPerm.eq_of_pairwise (fun v v' _ _ hLt hGt => ?_) (hViews hx) (hViews hy)
  rw [OrientedCmp.gt_of_lt hLt] at hGt
  cases hGt

end Increasing

-- ---------------------------------------------------------------------------
-- The ranked list
-- ---------------------------------------------------------------------------

theorem mem_of_mem_ranked {y : α} (h : y ∈ ranked cmp eq xs) : y ∈ xs :=
  mem_of_mem_sort (mem_of_mem_dropRepeats h)

section Ranked

variable (hR : RankedBy cmp eq S view order) (hxs : ∀ x ∈ xs, S x)

include hR hxs

/-- Where no two elements look the same, each is the first of its class. -/
theorem mem_iff_find?_self (hNodup : (xs.map view).Nodup) {r : α} (hr : S r) :
    r ∈ xs ↔ xs.find? (eq · r) = some r := by
  refine ⟨fun hMem => ?_, List.mem_of_find?_eq_some⟩
  have hSome : (xs.find? (eq · r)).isSome = true :=
    List.find?_isSome.mpr ⟨r, hMem, (hR.eq_iff hr hr).mpr rfl⟩
  obtain ⟨y, hFind⟩ := Option.isSome_iff_exists.mp hSome
  have hy : y ∈ xs := List.mem_of_find?_eq_some hFind
  have hEq : eq y r = true := by simpa using List.find?_some hFind
  have hView : view y = view r := (hR.eq_iff (hxs y hy) hr).mp hEq
  rw [hFind, List.inj_on_of_nodup_map hNodup hy hMem hView]

variable [TransCmp order]

theorem find?_ranked {x : α} (hx : S x) :
    (ranked cmp eq xs).find? (eq · x) = xs.find? (eq · x) := by
  rw [ranked, find?_dropRepeats hR (fun y hy => hxs y (mem_of_mem_sort hy)) hx,
    find?_sort hR hxs hx]

variable [LawfulEqCmp order]

theorem increasing_ranked : Increasing view order (ranked cmp eq xs) :=
  increasing_dropRepeats hR (fun y hy => hxs y (mem_of_mem_sort hy)) (pairwise_sort hR hxs)

/-- The ranked list has the elements that are the first of their class. -/
theorem mem_ranked_iff {r : α} (hr : S r) :
    r ∈ ranked cmp eq xs ↔ xs.find? (eq · r) = some r := by
  rw [mem_iff_find?_self hR (fun y hy => hxs y (mem_of_mem_ranked hy))
    (increasing_ranked hR hxs).nodup hr, find?_ranked hR hxs hr]

end Ranked

-- ---------------------------------------------------------------------------
-- Elements with their positions
-- ---------------------------------------------------------------------------

/-- Order and equality of elements, where each comes with its position. -/
theorem onFst (hR : RankedBy cmp eq S view order) :
    RankedBy (fun a b : α × Nat => cmp a.1 b.1) (fun a b => eq a.1 b.1) (fun p => S p.1)
      (fun p => view p.1) order :=
  ⟨hR.cmp_eq, hR.eq_iff⟩

theorem map_fst_sort (cmp : α → α → Ordering) (ps : List (α × Nat)) :
    (sort (fun a b => cmp a.1 b.1) ps).map Prod.fst = sort cmp (ps.map Prod.fst) :=
  List.map_mergeSort fun _ _ _ _ => rfl

theorem map_fst_dropRepeats (eq : α → α → Bool) (ps : List (α × Nat)) :
    (dropRepeats (fun a b => eq a.1 b.1) ps).map Prod.fst = dropRepeats eq (ps.map Prod.fst) := by
  fun_induction dropRepeats (fun a b => eq a.1 b.1) ps with
  | case1 => rw [List.map_nil, dropRepeats]
  | case2 => rw [List.map_singleton, dropRepeats]
  | case3 p q rest hEq ih =>
    rw [ih, List.map_cons, List.map_cons, List.map_cons, dropRepeats, if_pos hEq]
  | case4 p q rest hNe ih =>
    rw [List.map_cons, ih, List.map_cons, List.map_cons, List.map_cons, dropRepeats, if_neg hNe]

/-- What is found in a list with positions is found at the first position at which it can be. -/
theorem find?_zipIdx {p : α → Bool} {a : α} {i k : Nat}
    (h : (xs.zipIdx k).find? (fun q => p q.1) = some (a, i)) : i = k + xs.findIdx p := by
  induction xs generalizing k with
  | nil => cases h
  | cons x xs ih =>
    rw [List.zipIdx_cons, List.find?_cons] at h
    rw [List.findIdx_cons]
    cases hx : p x with
    | true =>
      simp only [hx] at h
      cases h
      rfl
    | false =>
      simp only [hx] at h
      have hRest := ih h
      rw [cond_false]
      omega

/-- Each element of the ranked list comes with the position of the first of its class. -/
theorem ranked_zipIdx [TransCmp order] [LawfulEqCmp order] (hR : RankedBy cmp eq S view order)
    (hxs : ∀ x ∈ xs, S x) :
    ranked (fun a b => cmp a.1 b.1) (fun a b => eq a.1 b.1) xs.zipIdx =
      (ranked cmp eq xs).map fun r => (r, xs.findIdx (eq · r)) := by
  have hPairs : ∀ p ∈ xs.zipIdx, S p.1 := fun p hp => hxs p.1 (List.fst_mem_of_mem_zipIdx hp)
  have hFst : (ranked (fun a b => cmp a.1 b.1) (fun a b => eq a.1 b.1) xs.zipIdx).map Prod.fst =
      ranked cmp eq xs := by
    rw [ranked, map_fst_dropRepeats, map_fst_sort, List.zipIdx_map_fst]
    rfl
  rw [← hFst, List.map_map]
  refine (List.map_id _).symm.trans (List.map_congr_left fun p hp => ?_)
  have hFind := (mem_ranked_iff (onFst hR) hPairs (hPairs p (mem_of_mem_ranked hp))).mp hp
  have hPosition : p.2 = 0 + xs.findIdx (eq · p.1) := find?_zipIdx hFind
  rw [Nat.zero_add] at hPosition
  exact Prod.ext rfl hPosition

end Ranking

-- ---------------------------------------------------------------------------
-- Classes of one equality
-- ---------------------------------------------------------------------------

namespace Ranking

variable [BEq α] [Ord α]

/-- The elements of a list in order, one for each class. -/
def distinct (xs : List α) : List α :=
  ranked compare (· == ·) xs

variable [Hashable α] {S : α → Prop} {view : α → β} {order : β → β → Ordering}
  [TransCmp order] [LawfulEqCmp order] (hS : EqualityBy S view)
  (hR : RankedBy compare (· == ·) S view order) {xs : List α} (hxs : ∀ x ∈ xs, S x)

include hR hxs

omit [Hashable α] in
/-- A script is told at which position each comes first, ... -/
theorem lookup_dedup : (Report.ranking xs).lookup "dedup" =
    some (.list ((distinct xs).map fun r => .nat (xs.findIdx (· == r)))) := by
  show some (Datum.list ((ranked (fun a b : α × Nat => compare a.1 b.1)
    (fun a b => a.1 == b.1) xs.zipIdx).map fun p => .nat p.2)) = _
  rw [ranked_zipIdx hR hxs, List.map_map]
  rfl

include hS

/-- Of each class the first is there, and no other. -/
theorem mem_distinct_and_beq_iff {x : α} (hx : S x) (r : α) :
    r ∈ distinct xs ∧ (r == x) = true ↔ xs.find? (· == x) = some r := by
  constructor
  · rintro ⟨hr, hEq⟩
    have hrS : S r := hxs r (mem_of_mem_ranked hr)
    rw [find?_congr hS hxs hx hrS ((hS.beq_iff hrS hx).mp hEq).symm]
    exact (mem_ranked_iff hR hxs hrS).mp hr
  · intro hFind
    have hrS : S r := hxs r (List.mem_of_find?_eq_some hFind)
    have hEq : (r == x) = true := by simpa using List.find?_some hFind
    refine ⟨(mem_ranked_iff hR hxs hrS).mpr ?_, hEq⟩
    rw [find?_congr hS hxs hrS hx ((hS.beq_iff hrS hx).mp hEq), hFind]

/-- What the order finds first in each class is what equality finds first. -/
theorem perm_distinct_firsts : (distinct xs).Perm (firsts xs) := by
  have hNodup := (increasing_ranked hR hxs).nodup
  have hNodup' := nodup_firsts hS hxs
  have hFirsts : ∀ y ∈ firsts xs, S y := fun y hy => hxs y (mem_of_mem_firsts hy)
  refine (List.perm_ext_iff_of_nodup hNodup.of_map hNodup'.of_map).mpr fun r => ?_
  have hIff : S r → (r ∈ distinct xs ↔ r ∈ firsts xs) := by
    intro hr
    rw [mem_iff_find?_self hR hFirsts hNodup' hr, find?_firsts hS hxs hr]
    exact mem_ranked_iff hR hxs hr
  exact ⟨fun h => (hIff (hxs r (mem_of_mem_ranked h))).mp h, fun h => (hIff (hFirsts r h)).mpr h⟩

theorem map_set_eq_map_distinct : (set compare xs).map view = (distinct xs).map view := by
  refine (increasing_set hR hxs).map_eq (increasing_ranked hR hxs) fun v => ?_
  rw [mem_views_set hR hxs]
  constructor
  · intro hv
    obtain ⟨x, hx, rfl⟩ := List.mem_map.mp hv
    have hSome : (xs.find? (· == x)).isSome = true :=
      List.find?_isSome.mpr ⟨x, hx, (hS.beq_iff (hxs x hx) (hxs x hx)).mpr rfl⟩
    obtain ⟨r, hFind⟩ := Option.isSome_iff_exists.mp hSome
    obtain ⟨hr, hEq⟩ := (mem_distinct_and_beq_iff hS hR hxs (hxs x hx) r).mpr hFind
    have hrS : S r := hxs r (mem_of_mem_ranked hr)
    rw [← (hS.beq_iff hrS (hxs x hx)).mp hEq]
    exact List.mem_map_of_mem hr
  · intro hv
    obtain ⟨r, hr, rfl⟩ := List.mem_map.mp hv
    exact List.mem_map_of_mem (mem_of_mem_ranked hr)

/-- ... and how many there are in the ordered set. -/
theorem lookup_set :
    (Report.ranking xs).lookup "set" = some (.nat (distinct xs).length) := by
  have hLength := congrArg List.length (map_set_eq_map_distinct hS hR hxs)
  rw [List.length_map, List.length_map] at hLength
  rw [← hLength]
  rfl

end Ranking

-- ---------------------------------------------------------------------------
-- The table
-- ---------------------------------------------------------------------------

section Table

variable [BEq α] [Hashable α]

/-- Canonicalizes the elements of a list, one after the other, and collects the answers. -/
def Store.canonicalizeAll (s : Store) (t : Table α) : List α → List α × Table α × Store
  | [] => ([], t, s)
  | x :: xs =>
    let (first, t, s) := s.canonicalize t x
    let (rest, t, s) := s.canonicalizeAll t xs
    (first :: rest, t, s)

variable {S : α → Prop} {view : α → β} (hS : EqualityBy S view)

include hS

/-- Every run: each element is answered by the first that equals it, and the table stands for all
of them. -/
theorem Table.Keeps.canonicalizeAll {xs args : List α} (s : Store) {t : Table α}
    (ht : t.Keeps (firsts args)) (hArgs : ∀ y ∈ args, S y) (hxs : ∀ x ∈ xs, S x) :
    (s.canonicalizeAll t xs).1.map some = xs.map (fun x => (args ++ xs).find? (· == x)) ∧
      (s.canonicalizeAll t xs).2.1.Keeps (firsts (args ++ xs)) := by
  induction xs generalizing args s t with
  | nil => exact ⟨rfl, by rwa [List.append_nil]⟩
  | cons x xs ih =>
    obtain ⟨hx, hRest⟩ := List.forall_mem_cons.mp hxs
    obtain ⟨hFirst, hKeeps⟩ := ht.canonicalize hS hArgs s hx
    have hArgs' : ∀ y ∈ args ++ [x], S y :=
      List.forall_mem_append.mpr ⟨hArgs, List.forall_mem_singleton.mpr hx⟩
    obtain ⟨hAnswers, hAll⟩ := ih (s.canonicalize t x).2.2 hKeeps hArgs' hRest
    rw [List.append_assoc, List.singleton_append] at hAnswers hAll
    refine ⟨?_, hAll⟩
    have hFound : (args ++ x :: xs).find? (· == x) = some (s.canonicalize t x).1 := by
      have hSelf : (x == x) = true := (hS.beq_iff hx hx).mpr rfl
      rw [hFirst, List.find?_append, List.find?_cons, hSelf]
      cases args.find? (· == x) <;> rfl
    rw [List.map_cons, hFound, ← hAnswers]
    rfl

theorem Table.canonicalizeAll_empty {xs : List α} (s : Store) (hxs : ∀ x ∈ xs, S x) :
    (s.canonicalizeAll (.empty s.hasher) xs).1.map some = xs.map (fun x => xs.find? (· == x)) ∧
      (s.canonicalizeAll (.empty s.hasher) xs).2.1.Keeps (firsts xs) := by
  have hEmpty : (Table.empty s.hasher : Table α).Keeps (firsts []) := Table.keeps_empty s.hasher
  simpa using hEmpty.canonicalizeAll hS s (by simp) hxs

end Table

-- ---------------------------------------------------------------------------
-- Three ways to the same classes
-- ---------------------------------------------------------------------------

section Classes

variable [BEq α] [Hashable α] [Ord α]

/-- The order, the ordered set and a table find the same classes in a list. -/
structure CountsClasses (xs : List α) : Prop where
  increasing : (Ranking.distinct xs).Pairwise fun a b => compare a b = .lt
  mem : ∀ r ∈ Ranking.distinct xs, r ∈ xs
  /-- Of each class the sorted list has the element that comes first, and no other. -/
  first_iff : ∀ x ∈ xs, ∀ r,
    r ∈ Ranking.distinct xs ∧ (r == x) = true ↔ xs.find? (· == x) = some r
  /-- The ordered set is the sorted list, up to equality. -/
  set : List.Forall₂ (fun a b => (a == b) = true) (Ranking.set compare xs) (Ranking.distinct xs)
  set_length : (Ranking.set compare xs).length = (Ranking.distinct xs).length
  /-- A script is told the first position of each class, and how many there are. -/
  report : (Report.ranking xs).lookup "dedup" =
      some (.list ((Ranking.distinct xs).map fun r => .nat (xs.findIdx (· == r)))) ∧
    (Report.ranking xs).lookup "set" = some (.nat (Ranking.distinct xs).length)
  /-- A new table counts the sorted list, whatever the order in which it gets the elements. -/
  table_size : ∀ (s : Store) (ys : List α), ys.Perm xs →
    (s.canonicalizeAll (.empty s.hasher) ys).2.1.size = (Ranking.distinct xs).length
  /-- When it gets them in the order of the list, it gives out the sorted list, ... -/
  answers : ∀ (s : Store) (r : α),
    r ∈ (s.canonicalizeAll (.empty s.hasher) xs).1 ↔ r ∈ Ranking.distinct xs
  /-- ... and keeps the sorted list. -/
  kept : ∀ (s : Store) (r : α),
    (∃ d, r ∈ (s.canonicalizeAll (.empty s.hasher) xs).2.1.bucket d) ↔ r ∈ Ranking.distinct xs

theorem EqualityBy.countsClasses {S : α → Prop} {view : α → β} {order : β → β → Ordering}
    [TransCmp order] [LawfulEqCmp order] (hS : EqualityBy S view)
    (hCompare : ∀ {a b}, S a → S b → compare a b = order (view a) (view b)) {xs : List α}
    (hxs : ∀ x ∈ xs, S x) : CountsClasses xs := by
  have hR : RankedBy compare (· == ·) S view order := ⟨hCompare, hS.beq_iff⟩
  have hDistinct : ∀ y ∈ Ranking.distinct xs, S y :=
    fun y hy => hxs y (Ranking.mem_of_mem_ranked hy)
  have hFirst := fun x hx => Ranking.mem_distinct_and_beq_iff hS hR hxs (hxs x hx)
  have hPerm := Ranking.perm_distinct_firsts hS hR hxs
  have hSet := forall₂_of_map_eq (Ranking.map_set_eq_map_distinct hS hR hxs)
  refine ⟨?_, fun r => Ranking.mem_of_mem_ranked, hFirst, ?_, hSet.length_eq,
    ⟨Ranking.lookup_dedup hR hxs, Ranking.lookup_set hS hR hxs⟩, ?_, ?_, ?_⟩
  · refine (Ranking.increasing_ranked hR hxs).imp_of_mem fun {a b} ha hb hLt => ?_
    rw [hCompare (hDistinct a ha) (hDistinct b hb), hLt]
  · refine hSet.imp fun a b hab => ?_
    obtain ⟨ha, hb, hView⟩ := hab
    exact (hS.beq_iff (hxs a (Ranking.mem_of_mem_set ha)) (hDistinct b hb)).mpr hView
  · intro s ys hys
    have hysS : ∀ y ∈ ys, S y := fun y hy => hxs y (hys.mem_iff.mp hy)
    obtain ⟨-, hTable⟩ := Table.canonicalizeAll_empty hS s hysS
    have hClasses : classes S ys = classes S xs := by
      rw [classes, classes]
      simp only [hys.mem_iff]
    rw [hTable.size_eq hS hysS, hClasses, ncard_classes hS hxs, hPerm.length_eq]
  · intro s r
    obtain ⟨hAnswers, -⟩ := Table.canonicalizeAll_empty hS s hxs
    have hMem : r ∈ (s.canonicalizeAll (.empty s.hasher) xs).1 ↔
        ∃ x ∈ xs, xs.find? (· == x) = some r := by
      rw [← List.mem_map_of_injective (Option.some_injective α), hAnswers, List.mem_map]
    rw [hMem]
    constructor
    · rintro ⟨x, hx, hFind⟩
      exact ((hFirst x hx r).mpr hFind).1
    · intro hr
      have hx : r ∈ xs := Ranking.mem_of_mem_ranked hr
      exact ⟨r, hx, (hFirst r hx r).mp ⟨hr, (hS.beq_iff (hxs r hx) (hxs r hx)).mpr rfl⟩⟩
  · intro s r
    obtain ⟨-, hTable⟩ := Table.canonicalizeAll_empty hS s hxs
    simp only [hTable.mem_bucket, hPerm.mem_iff]
    exact ⟨fun hr => hr.choose_spec.1, fun hr => ⟨hash r, hr, rfl⟩⟩

end Classes

-- ---------------------------------------------------------------------------
-- Lists of nodes in use
-- ---------------------------------------------------------------------------

variable {h : Hasher} {w : World}

/-- In any list of types or of expressions in use, sorting and dropping repeats, the ordered set and
a new table find the same classes, and the sorted list and the table keep the same node of each. -/
theorem sorting_counts_classes (hw : Reached h w) :
    (∀ ts : List Ty, (∀ t ∈ ts, w.Occurs (.type t)) → CountsClasses ts) ∧
    (∀ es : List Expr, (∀ e ∈ es, w.Occurs (.expr e)) → CountsClasses es) := by
  have hCoherent := hw.sound.regular.toCoherent
  constructor
  · intro ts hts
    exact (hw.equalityBy .type).countsClasses hCoherent.compare_type hts
  · intro es hes
    exact (hw.equalityBy .expr).countsClasses hCoherent.compare_expr hes

/-- Of two equal types the first is kept, also where a table gets them the other way round. -/
theorem sorting_counts_classes_sample :
    let ts := [Sample.octet, Sample.byte, Sample.row]
    Sample.octet ∈ Ranking.distinct ts ∧ Sample.byte ∉ Ranking.distinct ts ∧
      (Sample.world.store.canonicalizeAll (.empty Sample.world.store.hasher)
        [Sample.row, Sample.byte, Sample.octet]).2.1.size = (Ranking.distinct ts).length := by
  intro ts
  have hOctet := Sample.occurs_octet
  have hByte : Sample.world.Occurs (.type Sample.byte) := .of_held (by simp [Sample.world])
  have hEquality := Sample.reached.equalityBy .type
  have hEq : (Sample.octet == Sample.byte) = true := (hEquality.beq_iff hOctet hByte).mpr rfl
  have hCounts : CountsClasses ts := by
    refine (sorting_counts_classes Sample.reached).1 ts ?_
    simpa [ts] using ⟨hOctet, hByte, Sample.occurs_row⟩
  have hFind : ts.find? (· == Sample.byte) = some Sample.octet := by
    rw [List.find?_cons, hEq]
  have hFirst := hCounts.first_iff Sample.byte (by simp [ts])
  have hSize := hCounts.table_size Sample.world.store [Sample.row, Sample.byte, Sample.octet]
    (List.reverse_perm ts)
  refine ⟨((hFirst Sample.octet).mpr hFind).1, fun hMem => ?_, hSize⟩
  · have hSelf := (hFirst Sample.byte).mp ⟨hMem, (hEquality.beq_iff hByte hByte).mpr rfl⟩
    rw [hFind] at hSelf
    exact absurd (congrArg Ty.id (Option.some.inj hSelf)) (by decide)

end TermGraph
