import TermGraph.Proofs.Guarantees

/-!
# Looking up members

A struct or union has its members in one list and their names in another. Looking a name up finds
the first position where it stands and takes the member at that position. That there is a member at
that position, and that the name stands at no other, the lookup does not ask: it relies on the rule
that the type passed when it was made. Types in use have all passed it, those taken out of copies
and of other types included, so the two lists are one directory (`Ty.Directory`).

Main statement: the lookup is exact for every type in use (`member_lookup_exact`).
-/

namespace TermGraph

variable {h : Hasher} {w : World}

namespace Ty

/-- Names and members stand for each other, position by position, and looking up goes from the one
to the other. -/
structure Directory (t : Ty) (members : List Ty) (names : List Name) : Prop where
  /-- Where the search for a name stops, there is a member. -/
  inside : ∀ name i, names.findIdx? (· == name) = some i → i < members.length
  /-- A name leads to a member if and only if it stands somewhere in the list. -/
  found_iff : ∀ name, (∃ m, t.memberType? name = some m) ↔ ∃ i : Nat, names[i]? = some name
  /-- It stands there once, and the member it leads to is the one at its position. -/
  of_name : ∀ name (i : Nat), names[i]? = some name →
    (∀ j : Nat, names[j]? = some name → j = i) ∧
      ∃ m, members[i]? = some m ∧ t.memberType? name = some m
  /-- Each member has a name at its position, which leads to it. -/
  of_member : ∀ (i : Nat) m, members[i]? = some m →
    ∃ name, names[i]? = some name ∧ t.memberType? name = some m

section Aggregate

variable {t : Ty} {form : Form} {members : List Ty} {names : List Name} {tag : Name}

/-- What the rule of an aggregate leaves to its lists. -/
theorem aligned_of_lawful (hLawful : (Node.type t).Lawful)
    (hShape : t.shape = .aggregate form members names tag) :
    members.length = names.length ∧ names.Nodup := by
  have hRule : TyRule (t.shape.map Ty.tree Expr.tree) := by
    rw [← Ty.shape_tree]
    exact hLawful
  rw [hShape] at hRule
  cases hRule with
  | aggregate _ _ hCount _ hDistinct => exact ⟨by rw [← hCount, List.length_map], hDistinct⟩

/-- The member at the position of a name that is listed once. -/
theorem memberType?_of_getElem? (hShape : t.shape = .aggregate form members names tag)
    (hDistinct : names.Nodup) {name : Name} {i : Nat} (hName : names[i]? = some name) :
    t.memberType? name = members[i]? := by
  rw [memberType?_eq, hShape]
  dsimp only
  rw [(findIdx?_eq_some_iff hDistinct).mpr hName, Option.bind_some]

theorem directory_of_aligned (hShape : t.shape = .aggregate form members names tag)
    (hCount : members.length = names.length) (hDistinct : names.Nodup) :
    t.Directory members names := by
  -- a position in one list is a position in the other
  have hMember : ∀ {name : Name} {i : Nat}, names[i]? = some name → ∃ m, members[i]? = some m := by
    intro name i hName
    obtain ⟨hi, -⟩ := List.getElem?_eq_some_iff.mp hName
    exact ⟨members[i], List.getElem?_eq_getElem (by omega)⟩
  refine ⟨?inside, ?found_iff, ?of_name, ?of_member⟩
  case inside =>
    intro name i hFind
    obtain ⟨m, hm⟩ := hMember ((findIdx?_eq_some_iff hDistinct).mp hFind)
    exact (List.getElem?_eq_some_iff.mp hm).1
  case found_iff =>
    intro name
    constructor
    · rintro ⟨m, hm⟩
      rw [memberType?_eq, hShape] at hm
      obtain ⟨i, hFind, -⟩ := Option.bind_eq_some_iff.mp hm
      exact ⟨i, (findIdx?_eq_some_iff hDistinct).mp hFind⟩
    · rintro ⟨i, hName⟩
      obtain ⟨m, hm⟩ := hMember hName
      exact ⟨m, (memberType?_of_getElem? hShape hDistinct hName).trans hm⟩
  case of_name =>
    intro name i hName
    obtain ⟨m, hm⟩ := hMember hName
    refine ⟨fun j hOther => ?_, m, hm, (memberType?_of_getElem? hShape hDistinct hName).trans hm⟩
    -- the search stops at one position only
    have hFirst := (findIdx?_eq_some_iff hDistinct).mpr hName
    have hSecond := (findIdx?_eq_some_iff hDistinct).mpr hOther
    exact Option.some.inj (hSecond.symm.trans hFirst)
  case of_member =>
    intro i m hm
    obtain ⟨hi, -⟩ := List.getElem?_eq_some_iff.mp hm
    have hName : names[i]? = some names[i] := List.getElem?_eq_getElem (by omega)
    exact ⟨names[i], hName, (memberType?_of_getElem? hShape hDistinct hName).trans hm⟩

end Aggregate

theorem memberType?_eq_none {t : Ty} (hStruct : t.kind ≠ .struct) (hUnion : t.kind ≠ .union)
    (name : Name) : t.memberType? name = none := by
  rw [memberType?_eq]
  rw [Ty.kind] at hStruct hUnion
  cases hShape : t.shape with
  | aggregate form members names tag =>
    rw [hShape] at hStruct hUnion
    cases form with
    | struct => exact absurd rfl hStruct
    | union => exact absurd rfl hUnion
  | _ => rfl

end Ty

/-- Of every struct and union in use the names are a directory of its members. No other type in use
has members to be found. -/
theorem member_lookup_exact (hw : Reached h w) {t : Ty} (ht : w.Occurs (.type t)) :
    (∀ form members names tag, t.shape = .aggregate form members names tag →
      t.Directory members names) ∧
    (t.kind ≠ .struct → t.kind ≠ .union → ∀ name, t.memberType? name = none) := by
  refine ⟨fun form members names tag hShape => ?_, Ty.memberType?_eq_none⟩
  obtain ⟨hCount, hDistinct⟩ := Ty.aligned_of_lawful (hw.sound.regular.lawful _ ht) hShape
  exact Ty.directory_of_aligned hShape hCount hDistinct

namespace Sample

/-- Two of the members are equal and not one. -/
def overlay : Ty :=
  .build .fnv 5 (.aggregate .union [byte, octet, row] [⟨"low"⟩, ⟨"high"⟩, ⟨"cells"⟩] ⟨"overlay"⟩)

def overlaid : World where
  store := { next := 6 }
  held := .type overlay :: world.held

theorem reached_overlaid : Reached .fnv overlaid := by
  have hForOverlay : ∀ n ∈ [Node.type byte, .type octet, .type row], n ∈ world.held := by
    simp [world]
  exact reached.call (c := .makeType overlay.shape) hForOverlay

end Sample

/-- The second member is found by its name, and not the first, which is equal; a name that is not
listed is not found, and an array has no members. -/
theorem member_lookup_exact_sample :
    Sample.overlaid.Occurs (.type Sample.overlay) ∧ Sample.overlaid.Occurs (.type Sample.row) ∧
      Sample.overlay.memberType? ⟨"high"⟩ = some Sample.octet ∧
      (Sample.octet == Sample.byte) = true ∧ Sample.octet ≠ Sample.byte ∧
      (¬ ∃ m, Sample.overlay.memberType? ⟨"middle"⟩ = some m) ∧
      Sample.row.memberType? ⟨"high"⟩ = none := by
  have hOverlay : Sample.overlaid.Occurs (.type Sample.overlay) := .of_held (.head _)
  have hRow : Sample.overlaid.Occurs (.type Sample.row) :=
    .of_held (by simp [Sample.overlaid, Sample.world])
  have hDirectory := (member_lookup_exact Sample.reached_overlaid hOverlay).1 _ _ _ _ rfl
  have hNone := (member_lookup_exact Sample.reached_overlaid hRow).2
  refine ⟨hOverlay, hRow, ?_, ?_, ?_, ?_, hNone (by decide) (by decide) _⟩
  · obtain ⟨-, m, hm, hFound⟩ := hDirectory.of_name ⟨"high"⟩ 1 rfl
    cases hm
    exact hFound
  · have hOctet : Sample.overlaid.Occurs (.type Sample.octet) :=
      .of_held (by simp [Sample.overlaid, Sample.world])
    have hByte : Sample.overlaid.Occurs (.type Sample.byte) :=
      .of_held (by simp [Sample.overlaid, Sample.world])
    exact ((Sample.reached_overlaid.equalityBy .type).beq_iff hOctet hByte).mpr rfl
  · intro hSame
    cases congrArg Ty.id hSame
  · rw [hDirectory.found_iff]
    rintro ⟨i, hi⟩
    have hListed := List.mem_of_getElem? hi
    simp at hListed

end TermGraph
