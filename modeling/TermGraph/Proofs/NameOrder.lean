import TermGraph.Proofs.Guarantees

/-!
# The order of names

Names compare byte by byte, and their bytes are those of UTF-8: the first byte of a character says
how many follow, and each that follows holds six bits (`Utf8.encode`). The encoding is made so that
comparing bytes is comparing characters. Of two characters the smaller one has the smaller byte
where they first differ, and neither is the beginning of the other (`Utf8.before_encode`), so a
comparison is decided within the first character that differs, whatever stands behind it.

Main statement: the order of names is the lexicographic order of their bytes and of their scalar
values, and it is total (`names_compare_as_texts`).
-/

namespace TermGraph

namespace Utf8

-- ---------------------------------------------------------------------------
-- The encoding, in numbers
-- ---------------------------------------------------------------------------

/-- How many bytes follow the first one of a scalar value. -/
def following (c : Nat) : Nat :=
  if c < 0x80 then 0 else if c < 0x800 then 1 else if c < 0x10000 then 2 else 3

/-- What the first byte says about the number of those that follow. -/
def mark : Nat → Nat
  | 0 => 0
  | 1 => 0xC0
  | 2 => 0xE0
  | _ => 0xF0

/-- A number with its last `k` groups of six bits in bytes of their own, and the rest, with a mark,
in the byte before them. -/
def spread (mark : Nat) : Nat → Nat → List Nat
  | 0, c => [mark + c]
  | k + 1, c => spread mark k (c / 64) ++ [0x80 + c % 64]

/-- The bytes of a scalar value. -/
def encode (c : Nat) : List Nat :=
  spread (mark (following c)) (following c) c

/-- The scalar values of a text. -/
def scalars (s : String) : List Nat :=
  s.toList.map Char.toNat

/-- The bytes of a text. -/
def bytes (s : String) : List Nat :=
  (scalars s).flatMap encode

-- ---------------------------------------------------------------------------
-- Smaller characters have smaller bytes
-- ---------------------------------------------------------------------------

/-- There is a first place where the two differ, and the first has the smaller number there. -/
def Before (xs ys : List Nat) : Prop :=
  ∃ front x y back back', xs = front ++ x :: back ∧ ys = front ++ y :: back' ∧ x < y

/-- What is decided stays decided, whatever comes behind. -/
theorem Before.append {xs ys : List Nat} (h : Before xs ys) (r r' : List Nat) :
    Before (xs ++ r) (ys ++ r') := by
  obtain ⟨front, x, y, back, back', rfl, rfl, hLt⟩ := h
  exact ⟨front, x, y, back ++ r, back' ++ r', by simp, by simp, hLt⟩

theorem compareLex_append (front xs ys : List Nat) :
    List.compareLex compare (front ++ xs) (front ++ ys) = List.compareLex compare xs ys := by
  induction front with
  | nil => rfl
  | cons x front ih =>
    rw [List.cons_append, List.cons_append, List.compareLex_cons_cons, ih,
      Nat.compare_eq_eq.mpr rfl]
    rfl

theorem Before.compareLex_eq {xs ys : List Nat} (h : Before xs ys) :
    List.compareLex compare xs ys = .lt := by
  obtain ⟨front, x, y, back, back', rfl, rfl, hLt⟩ := h
  rw [compareLex_append, List.compareLex_cons_cons, Nat.compare_eq_lt.mpr hLt]
  rfl

/-- With one number of bytes, the first group of bits that differs decides. -/
theorem before_spread (mark k : Nat) {c d : Nat} (h : c < d) :
    Before (spread mark k c) (spread mark k d) := by
  induction k generalizing c d with
  | zero => exact ⟨[], mark + c, mark + d, [], [], rfl, rfl, by omega⟩
  | succ k ih =>
    rcases Nat.lt_or_ge (c / 64) (d / 64) with hLt | hGe
    · exact (ih hLt).append _ _
    · -- all groups but the last are the same
      have hSame : c / 64 = d / 64 := by omega
      refine ⟨spread mark k (d / 64), 0x80 + c % 64, 0x80 + d % 64, [], [], ?_, rfl, by omega⟩
      rw [spread, hSame]

/-- What the first byte keeps of a number. -/
def lead : Nat → Nat → Nat
  | 0, c => c
  | k + 1, c => lead k (c / 64)

theorem spread_eq_cons (mark k c : Nat) : ∃ back, spread mark k c = (mark + lead k c) :: back := by
  induction k generalizing c with
  | zero => exact ⟨[], rfl⟩
  | succ k ih =>
    obtain ⟨back, hSpread⟩ := ih (c / 64)
    refine ⟨back ++ [0x80 + c % 64], ?_⟩
    rw [spread, hSpread]
    rfl

/-- The first byte of a scalar value. -/
def first (c : Nat) : Nat :=
  mark (following c) + lead (following c) c

theorem encode_eq_cons (c : Nat) : ∃ back, encode c = first c :: back :=
  spread_eq_cons (mark (following c)) (following c) c

theorem following_mono {c d : Nat} (h : c < d) : following c ≤ following d := by
  unfold following
  split_ifs <;> omega

/-- The more bytes follow, the greater the first one: the marks leave room for what stands with
them. -/
theorem first_lt_first {c d : Nat} (h : following c < following d) : first c < first d := by
  unfold first following at *
  split_ifs at * <;> simp only [mark, lead] <;> omega

/-- Of two scalar values the smaller one has the smaller byte where they first differ. -/
theorem before_encode {c d : Nat} (h : c < d) : Before (encode c) (encode d) := by
  rcases Nat.lt_or_ge (following c) (following d) with hLt | hGe
  · obtain ⟨back, hc⟩ := encode_eq_cons c
    obtain ⟨back', hd⟩ := encode_eq_cons d
    exact ⟨[], first c, first d, back, back', hc, hd, first_lt_first hLt⟩
  · have hSame : following c = following d := Nat.le_antisymm (following_mono h) hGe
    rw [encode, encode, hSame]
    exact before_spread _ _ h

/-- Lists of scalar values compare as their bytes do. -/
theorem compareLex_encode (xs ys : List Nat) :
    List.compareLex compare (xs.flatMap encode) (ys.flatMap encode)
      = List.compareLex compare xs ys := by
  induction xs generalizing ys with
  | nil =>
    cases ys with
    | nil => rfl
    | cons y ys =>
      obtain ⟨back, hBytes⟩ := encode_eq_cons y
      rw [List.flatMap_cons, hBytes]
      rfl
  | cons x xs ih =>
    cases ys with
    | nil =>
      obtain ⟨back, hBytes⟩ := encode_eq_cons x
      rw [List.flatMap_cons, hBytes]
      rfl
    | cons y ys =>
      rw [List.flatMap_cons, List.flatMap_cons, List.compareLex_cons_cons]
      rcases Nat.lt_trichotomy x y with hLt | rfl | hGt
      · rw [((before_encode hLt).append _ _).compareLex_eq, Nat.compare_eq_lt.mpr hLt]
        rfl
      · rw [compareLex_append, ih, Nat.compare_eq_eq.mpr rfl]
        rfl
      · have hBefore := (before_encode hGt).append (ys.flatMap encode) (xs.flatMap encode)
        rw [Std.OrientedCmp.gt_iff_lt.mpr hBefore.compareLex_eq, Nat.compare_eq_gt.mpr hGt]
        rfl

-- ---------------------------------------------------------------------------
-- The bytes of a name
-- ---------------------------------------------------------------------------

/-- A character is stored as the bytes of its scalar value. -/
theorem map_utf8EncodeChar (c : Char) :
    (String.utf8EncodeChar c).map UInt8.toNat = encode c.toNat := by
  have hBound : c.toNat < 0x110000 := by
    have hValid : c.val.toNat.isValidChar := c.valid
    unfold Nat.isValidChar at hValid
    show c.val.toNat < 0x110000
    omega
  unfold Char.toNat at *
  unfold String.utf8EncodeChar
  generalize c.val.toNat = v at *
  unfold encode following
  dsimp only
  split_ifs
  -- of the pairs of ranges, those that have no number in common go first
  all_goals try omega
  all_goals
    simp only [mark, spread, List.map_cons, List.map_nil, UInt8.toNat_ofNat', List.cons_append,
      List.nil_append, List.cons.injEq, and_true]
    omega

/-- A text is stored as the bytes of its characters. -/
theorem map_toByteArray (s : String) :
    s.toByteArray.data.toList.map UInt8.toNat = bytes s := by
  have hStored : s.toByteArray.data.toList = s.toList.flatMap String.utf8EncodeChar := by
    rw [← String.ofList_toList (s := s), String.toByteArray_ofList]
    simp [List.utf8Encode]
  rw [hStored, List.map_flatMap, bytes, scalars, List.flatMap_map]
  simp only [map_utf8EncodeChar]

end Utf8

/-- Names compare as the numbers that are their bytes do. -/
theorem Name.compare_eq_bytes (s t : String) :
    compare (Name.mk s) (Name.mk t) = List.compareLex compare (Utf8.bytes s) (Utf8.bytes t) := by
  rw [← Utf8.map_toByteArray, ← Utf8.map_toByteArray]
  exact compareLex_map UInt8.toNat fun x _ y _ => UInt8.compare_eq_toNat_compare_toNat x y

theorem Name.totalOrderOn_text : TotalOrderOn (fun _ : Name => True) Name.text compare := by
  have hOrder : TotalOrderOn (fun _ : Name => True) id compare :=
    .of_view compare fun _ _ _ _ => rfl
  refine ⟨hOrder.swap, hOrder.trans, fun a b ha hb => ?_⟩
  rw [hOrder.eq_iff a b ha hb]
  show a = b ↔ a.text = b.text
  rw [Name.mk.injEq]

/-- Names compare as the bytes of their texts in UTF-8 do, and also as their scalar values do. The
order is total, and equal are names of one text. -/
theorem names_compare_as_texts :
    (∀ s t : String,
      compare (Name.mk s) (Name.mk t) = List.compareLex compare (Utf8.bytes s) (Utf8.bytes t) ∧
      compare (Name.mk s) (Name.mk t)
        = List.compareLex compare (Utf8.scalars s) (Utf8.scalars t)) ∧
    TotalOrderOn (fun _ => True) Name.text compare := by
  refine ⟨fun s t => ?_, Name.totalOrderOn_text⟩
  have hBytes := Name.compare_eq_bytes s t
  exact ⟨hBytes, hBytes.trans (Utf8.compareLex_encode (Utf8.scalars s) (Utf8.scalars t))⟩

-- A character of the first plane stands before all of the others, however high its number is there.
example : compare (Name.mk "ｚ") (Name.mk "𝐚") = .lt := by decide

end TermGraph
