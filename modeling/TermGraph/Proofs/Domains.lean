import TermGraph.Proofs.Blame

/-!
# Which types can be made

A store makes a type if and only if the rule of its kind holds, and then the type holds what the
store was asked for. Where the member names of a struct or union are wrong, the rejection is about
the first that is.

The check of the member names goes through them once and remembers those it has seen. Its invariant:
what is remembered are the names before the present position, and none of them is faulty
(`Ty.blames_first_fault`).
-/

namespace TermGraph

open Check

-- ---------------------------------------------------------------------------
-- Member names
-- ---------------------------------------------------------------------------

/-- The name at a position is empty or stands at an earlier position too. -/
def Faulty (names : List Name) (i : Nat) (n : Name) : Prop :=
  names[i]? = some n ∧ (n.text = "" ∨ n ∈ names.take i)

/-- What is wrong with a faulty name. -/
def Name.complaint (n : Name) : Reason :=
  if n.text = "" then .emptyName else .duplicateMember n

/-- The rejection is about the first faulty name. -/
def BlamesFirstFault (kind : Kind) (names : List Name) (r : Rejection) : Prop :=
  ∃ i n, Faulty names i n ∧ (∀ j < i, ∀ m, ¬Faulty names j m) ∧ r = .invalid kind n.complaint

theorem Ty.blames_first_fault {kind : Kind} {names : List Name} (done rest : List Name)
    (hNames : names = done ++ rest) (hDone : ∀ j < done.length, ∀ m, ¬Faulty names j m) :
    Blames (BlamesFirstFault kind names) (checkMemberNames kind done.reverse rest) := by
  induction rest generalizing done with
  | nil => exact blames_pure ()
  | cons name rest ih =>
    have hAt : names[done.length]? = some name := by
      rw [hNames, List.getElem?_append_right (Nat.le_refl _), Nat.sub_self, List.getElem?_cons_zero]
    have hBefore : names.take done.length = done := by
      rw [hNames, List.take_left]
    have hSeen : done.reverse.contains name = true ↔ name ∈ done := by
      rw [List.contains_iff_mem, List.mem_reverse]
    rw [checkMemberNames]
    refine Blames.bind (blames_ensure_of fun hEmpty => ?_) fun _ hNonempty =>
      Blames.bind (blames_ensure_of fun hRepeats => ?_) fun _ hNew => ?_
    · have hText : name.text = "" := by
        by_contra hText
        rw [not_isEmpty_iff.mpr hText] at hEmpty
        cases hEmpty
      exact ⟨_, name, ⟨hAt, .inl hText⟩, hDone, by rw [Name.complaint, if_pos hText]⟩
    · rw [ensure_eq_ok, not_isEmpty_iff] at hNonempty
      have hMem : name ∈ names.take done.length := by
        rw [hBefore, ← hSeen]
        simpa using hRepeats
      exact ⟨_, name, ⟨hAt, .inr hMem⟩, hDone, by rw [Name.complaint, if_neg hNonempty]⟩
    · rw [ensure_eq_ok, not_isEmpty_iff] at hNonempty
      rw [ensure_eq_ok, Bool.not_eq_true', ← Bool.not_eq_true, hSeen] at hNew
      rw [← List.reverse_concat]
      refine ih (done ++ [name]) (by rw [hNames, List.append_assoc]; rfl) ?_
      intro j hj m hFault
      rw [List.length_append, List.length_singleton] at hj
      rcases Nat.lt_or_ge j done.length with hj' | hj'
      · exact hDone j hj' m hFault
      · -- the name just passed
        obtain rfl : j = done.length := by omega
        obtain ⟨hm, hWrong⟩ := hFault
        rw [hAt] at hm
        rw [hBefore, ← Option.some.inj hm] at hWrong
        exact hWrong.elim hNonempty hNew

-- ---------------------------------------------------------------------------
-- Making types
-- ---------------------------------------------------------------------------

/-- A type is made if and only if its rule holds, and holds what was asked for. An aggregate with as
many names as members that is refused is refused for the first of its names that is empty or repeats
an earlier one. -/
theorem makeType_accepts_iff_rule (s : Store) (shape : TyShape Ty Expr) :
    ((∃ t, (s.makeType shape).1 = .ok t) ↔ TyRule (shape.map Ty.tree Expr.tree)) ∧
    (∀ t, (s.makeType shape).1 = .ok t → t.shape = shape) ∧
    (∀ form members names name r, shape = .aggregate form members names name →
      members.length = names.length → (s.makeType shape).1 = .error r →
      BlamesFirstFault (.type form.kind) names r) := by
  refine ⟨?_, ?_, ?_⟩
  · rw [Store.makeType_ok_iff_check, Ty.check_iff]
  · intro t hMade
    exact Store.shape_of_makeType hMade
  · rintro form members names name r rfl hCount hError
    have hBlames : Blames (BlamesFirstFault (.type form.kind) names)
        (Ty.check (.aggregate form members names name)) :=
      Blames.bind (blames_ensure_of fun hDiffer => absurd hCount (beq_eq_false_iff_ne.mp hDiffer))
        fun _ _ => Ty.blames_first_fault [] names rfl fun _ hj => absurd hj (Nat.not_lt_zero _)
    exact hBlames r (Store.outcome_of_make_error hError)

/-- A name that repeats the first comes before an empty one; with two names only, the struct is
made. -/
theorem makeType_accepts_iff_rule_sample :
    let element : Ty := .build .fnv 0 .bool
    let names : List Name := [⟨"a"⟩, ⟨"b"⟩, ⟨"a"⟩, ⟨""⟩]
    let shape : TyShape Ty Expr :=
      .aggregate .struct [element, element, element, element] names ⟨"s"⟩
    let small : TyShape Ty Expr := .aggregate .struct [element, element] (names.take 2) ⟨"s"⟩
    let blamed : Rejection := .invalid (.type .struct) (.duplicateMember ⟨"a"⟩)
    let store : Store := { next := 1 }
    (store.makeType shape).1 = .error blamed ∧ BlamesFirstFault (.type .struct) names blamed ∧
      ∃ t, (store.makeType small).1 = .ok t ∧ t.shape = small := by
  intro element names shape small blamed store
  have hError : (store.makeType shape).1 = .error blamed := rfl
  obtain ⟨-, -, hFault⟩ := makeType_accepts_iff_rule store shape
  obtain ⟨hRule, hShape, -⟩ := makeType_accepts_iff_rule store small
  obtain ⟨t, ht⟩ := hRule.mpr (.aggregate .struct ⟨"s"⟩ rfl (by decide) (by decide))
  exact ⟨hError, hFault .struct _ names ⟨"s"⟩ blamed rfl rfl hError, t, ht, hShape t ht⟩

end TermGraph
