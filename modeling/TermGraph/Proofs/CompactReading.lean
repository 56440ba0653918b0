import TermGraph.Proofs.Blame
import TermGraph.Proofs.CompactText
import TermGraph.Proofs.FieldTable

/-!
# Compact texts of types without names

The compact text leaves much out: the members of a struct, the width of a string type, what the size
of an array is computed from. Of a type in which nothing is left out and no name is written
(`Ty.Nameless`) it tells the whole tree, although nothing is quoted and functions nest without
brackets around them.

* Each kind begins with a word of its own, and no word begins another (`word_prefix_free`).
* A width ends where its digits end, so a type is read where no further digit can follow.
* The dots of a function are one more parameter (`parameters`). The parameters end at the first
  parenthesis that is not part of one, and what comes after the arrow is the rest.

A text is read back to its tree by induction on the type (`reads_written`). A type that is refused in
place of another has another tree, so the message about it shows two different texts; this and the
injectivity are `compact_text_separates`.
-/

namespace TermGraph

/-- The type is built only from truth values, the empty type, numbers, pointers, infinite arrays and
functions whose arguments have no names. -/
inductive Ty.Nameless : Ty → Prop
  | bool (id : Nat) (digest : Digest) : Nameless (.node id digest .bool)
  | empty (id : Nat) (digest : Digest) : Nameless (.node id digest .empty)
  | unsignedbv (id : Nat) (digest : Digest) (width : UInt32) :
      Nameless (.node id digest (.unsignedbv width))
  | signedbv (id : Nat) (digest : Digest) (width : UInt32) :
      Nameless (.node id digest (.signedbv width))
  | fixedbv (id : Nat) (digest : Digest) (width integerBits : UInt32) :
      Nameless (.node id digest (.fixedbv width integerBits))
  | floatbv (id : Nat) (digest : Digest) (fraction exponent : UInt32) :
      Nameless (.node id digest (.floatbv fraction exponent))
  | pointer (id : Nat) (digest : Digest) {target : Ty} (hTarget : Nameless target) :
      Nameless (.node id digest (.pointer target))
  | array (id : Nat) (digest : Digest) {element : Ty} (hElement : Nameless element) :
      Nameless (.node id digest (.array element none true))
  | code (id : Nat) (digest : Digest) {arguments : List Ty} {result : Ty} (ellipsis : Bool)
      (hArguments : ∀ t ∈ arguments, Nameless t) (hResult : Nameless result) :
      Nameless (.node id digest (.code arguments result [] ellipsis))

namespace Text

/-- After the first part, each part comes with its separator. -/
theorem intercalate_cons {α : Type} (separator part : List α) (parts : List (List α)) :
    separator.intercalate (part :: parts) = part ++ parts.flatMap (separator ++ ·) := by
  induction parts generalizing part with
  | nil => rw [List.intercalate_singleton, List.flatMap_nil, List.append_nil]
  | cons next parts ih =>
    rw [List.intercalate_cons_cons, ih next, List.flatMap_cons, List.append_assoc,
      List.append_assoc]

section Separated

variable {α β : Type} {text : α → List Char} {view : α → β} {follow : List Char → Prop}
  {separator closing : List Char}

/-- The parts after the first, each behind a separator, up to what closes them. -/
theorem reads_further (hSeparator : ∀ r, follow (separator ++ r))
    (hClosing : ∀ r, follow (closing ++ r)) (hMore : ∀ r r', separator ++ r ≠ closing ++ r')
    {xs ys : List α}
    (hEach : ∀ x ∈ xs, ∀ y ∈ ys, Reads follow (text x) (text y) (view x = view y)) :
    Reads anything (xs.flatMap (fun x => separator ++ text x) ++ closing)
      (ys.flatMap (fun y => separator ++ text y) ++ closing) (xs.map view = ys.map view) := by
  have hPieces : Reads (fun r => ∃ r', r = closing ++ r')
      (pieces (fun _ x => separator ++ text x) 0 xs)
      (pieces (fun _ y => separator ++ text y) 0 ys) (xs.map view = ys.map view) := by
    have hNext : ∀ (i : Nat) x r, follow (separator ++ text x ++ r) := by
      intro i x r
      rw [List.append_assoc]
      exact hSeparator _
    refine reads_pieces ?_ hNext ?_ 0 ?_
    · rintro i x r _ ⟨r', rfl⟩
      rw [List.append_assoc]
      exact hMore _ r'
    · rintro _ ⟨r', rfl⟩
      exact hClosing r'
    · intro i p hp
      obtain ⟨hx, hy⟩ := List.of_mem_zip hp
      exact (hEach _ hx _ hy).after _
  rw [pieces_const, pieces_const] at hPieces
  exact (hPieces.seq (fun r _ => ⟨r, rfl⟩) (fun r _ => ⟨r, rfl⟩)
    fun _ => Reads.literal closing).imp And.left

/-- Parts with separators between them are read part by part, up to what closes them. Neither a
separator nor a part may look like the end. -/
theorem reads_separated (hSeparator : ∀ r, follow (separator ++ r))
    (hClosing : ∀ r, follow (closing ++ r)) (hMore : ∀ r r', separator ++ r ≠ closing ++ r')
    {xs ys : List α} (hPart : ∀ x ∈ xs ++ ys, ∀ r r', text x ++ r ≠ closing ++ r')
    (hEach : ∀ x ∈ xs, ∀ y ∈ ys, Reads follow (text x) (text y) (view x = view y)) :
    Reads anything (separator.intercalate (xs.map text) ++ closing)
      (separator.intercalate (ys.map text) ++ closing) (xs.map view = ys.map view) := by
  have hJoin : ∀ x (xs : List α), separator.intercalate ((x :: xs).map text) ++ closing =
      text x ++ (xs.flatMap (fun x => separator ++ text x) ++ closing) := by
    intro x xs
    rw [List.map_cons, intercalate_cons, List.flatMap_map, List.append_assoc]
  have hNext : ∀ (xs : List α) r,
      follow (xs.flatMap (fun x => separator ++ text x) ++ closing ++ r) := by
    intro xs r
    cases xs with
    | nil => exact hClosing r
    | cons x xs =>
      rw [List.flatMap_cons, List.append_assoc, List.append_assoc, List.append_assoc]
      exact hSeparator _
  cases xs with
  | nil =>
    cases ys with
    | nil => exact (Reads.literal _).imp fun _ => rfl
    | cons y ys =>
      refine Reads.of_ne fun r r' _ _ hText => ?_
      rw [hJoin, List.append_assoc (text y)] at hText
      exact hPart y List.mem_cons_self _ r hText.symm
  | cons x xs =>
    cases ys with
    | nil =>
      refine Reads.of_ne fun r r' _ _ hText => ?_
      rw [hJoin, List.append_assoc] at hText
      exact hPart x List.mem_cons_self _ r' hText
    | cons y ys =>
      have hRest := reads_further hSeparator hClosing hMore fun x hx y hy =>
        hEach x (List.mem_cons_of_mem _ hx) y (List.mem_cons_of_mem _ hy)
      rw [hJoin, hJoin]
      refine ((hEach x List.mem_cons_self y List.mem_cons_self).seq (fun r _ => hNext xs r)
        (fun r _ => hNext ys r) fun _ => hRest).imp ?_
      rintro ⟨hHead, hTail⟩
      rw [List.map_cons, List.map_cons, hHead, hTail]

end Separated

/-- A text stops at a character that does not go on. -/
theorem stops_cons {p : Char → Bool} {c : Char} (hc : p c = false) (r : List Char) :
    Stops p (c :: r) := by
  intro d hd
  rwa [← Option.mem_some.mp hd]

/-- A number can be read where no letter or digit follows. -/
theorem reads_decimal (m n : UInt32) :
    Reads (Stops isWord) (decimal m.toNat).toList (decimal n.toNat).toList (m = n) :=
  (reads_word (isWord_decimal m.toNat) (isWord_decimal n.toNat)).imp fun h =>
    UInt32.toNat_inj.mp (decimal_injective h)

end Text

namespace Compact

open Text

-- ---------------------------------------------------------------------------
-- The text of each kind
-- ---------------------------------------------------------------------------

/-- The characters of the compact text of a type. -/
def written (t : Ty) : List Char :=
  Ty.compactUnfolding.chars [.seed t]

/-- The text of a type is the text of its items. -/
theorem written_eq (t : Ty) : written t = Ty.compactUnfolding.chars t.compactItems :=
  Unfolding.chars_seed _ t

@[simp] theorem chars_seed_cons (t : Ty) (items : List (Item Ty String)) :
    Ty.compactUnfolding.chars (.seed t :: items) =
      written t ++ Ty.compactUnfolding.chars items :=
  Unfolding.chars_append _ [.seed t] items

/-- A list of types is written with commas between them. -/
theorem chars_commaList (ts : List Ty) :
    Ty.compactUnfolding.chars (Ty.commaList ts) = [',', ' '].intercalate (ts.map written) := by
  induction ts with
  | nil => exact Unfolding.chars_nil _
  | cons t ts ih =>
    cases ts with
    | nil => simp [Ty.commaList]
    | cons u us =>
      have hItems : Ty.commaList (t :: u :: us) =
          .seed t :: .emit ", " :: Ty.commaList (u :: us) := rfl
      rw [hItems, chars_seed_cons, Unfolding.chars_emit, ih, List.map_cons, List.map_cons,
        List.map_cons, List.intercalate_cons_cons, List.append_assoc]
      rfl

/-- The types of the arguments of a function, and the dots, which count as `none`, if more arguments
may follow. -/
def parameters (arguments : List Ty) (ellipsis : Bool) : List (Option Ty) :=
  arguments.map some ++ if ellipsis then [none] else []

/-- The text of a parameter. -/
def parameter : Option Ty → List Char
  | some t => written t
  | none => ['.', '.', '.']

/-- The dots stand where one more argument would stand. -/
theorem chars_parameters (arguments : List Ty) (ellipsis : Bool) :
    Ty.compactUnfolding.chars (Ty.commaList arguments) ++
        (if ellipsis then (if arguments.isEmpty then "..." else ", ...") else "").toList =
      [',', ' '].intercalate ((parameters arguments ellipsis).map parameter) := by
  rw [chars_commaList]
  cases ellipsis with
  | false => simp [parameters, parameter, Function.comp_def]
  | true =>
    cases arguments with
    | nil => simp [parameters, parameter]
    | cons t ts => simp [parameters, parameter, intercalate_cons, List.flatMap_map]

/-- Two numbers between parentheses. -/
def numbers (m n : UInt32) : List Char :=
  '(' :: ((decimal m.toNat).toList ++ ([',', ' '] ++ ((decimal n.toNat).toList ++ [')'])))

section Node

variable (id : Nat) (digest : Digest)

theorem written_bool : written (.node id digest .bool) = "bool".toList := by
  rw [written_eq]
  simp [Ty.compactItems, Ty.shape]

theorem written_empty : written (.node id digest .empty) = "empty".toList := by
  rw [written_eq]
  simp [Ty.compactItems, Ty.shape]

theorem written_unsignedbv (width : UInt32) :
    written (.node id digest (.unsignedbv width)) =
      "uint".toList ++ (decimal width.toNat).toList := by
  rw [written_eq]
  simp [Ty.compactItems, Ty.shape]

theorem written_signedbv (width : UInt32) :
    written (.node id digest (.signedbv width)) =
      "int".toList ++ (decimal width.toNat).toList := by
  rw [written_eq]
  simp [Ty.compactItems, Ty.shape]

theorem written_fixedbv (width integerBits : UInt32) :
    written (.node id digest (.fixedbv width integerBits)) =
      "fixedbv".toList ++ numbers width integerBits := by
  rw [written_eq]
  simp [Ty.compactItems, Ty.shape, numbers]

theorem written_floatbv (fraction exponent : UInt32) :
    written (.node id digest (.floatbv fraction exponent)) =
      "floatbv".toList ++ numbers fraction exponent := by
  rw [written_eq]
  simp [Ty.compactItems, Ty.shape, numbers]

theorem written_pointer (target : Ty) :
    written (.node id digest (.pointer target)) =
      "pointer".toList ++ (['('] ++ (written target ++ [')'])) := by
  rw [written_eq]
  simp [Ty.compactItems, Ty.shape]

theorem written_array (element : Ty) :
    written (.node id digest (.array element none true)) =
      "array".toList ++ (['('] ++ (written element ++ ")[inf]".toList)) := by
  rw [written_eq]
  simp [Ty.compactItems, Ty.shape, Ty.compactSize]

/-- A function is written as its parameters and its result. -/
theorem written_code (arguments : List Ty) (result : Ty) (ellipsis : Bool) :
    written (.node id digest (.code arguments result [] ellipsis)) =
      "code".toList ++ (['('] ++
        (([',', ' '].intercalate ((parameters arguments ellipsis).map parameter) ++ [')']) ++
          (" -> ".toList ++ written result))) := by
  rw [written_eq, ← chars_parameters]
  simp [Ty.compactItems, Ty.shape]

end Node

-- ---------------------------------------------------------------------------
-- Words
-- ---------------------------------------------------------------------------

/-- The word with which the text of a type begins, for each kind that a type without names can
have. -/
def word : TypeKind → Option String
  | .bool => "bool"
  | .empty => "empty"
  | .unsignedbv => "uint"
  | .signedbv => "int"
  | .fixedbv => "fixedbv"
  | .floatbv => "floatbv"
  | .pointer => "pointer"
  | .array => "array"
  | .code => "code"
  | .symbol | .struct | .union | .string | .cppName => none

/-- No word begins another. -/
theorem word_prefix_free {k l : TypeKind} {u v : String} (hu : word k = some u)
    (hv : word l = some v) (hPrefix : u.toList <+: v.toList) : k = l := by
  have hAll : ∀ k ∈ TypeKind.all, ∀ l ∈ TypeKind.all, ∀ u ∈ word k, ∀ v ∈ word l,
      u.toList <+: v.toList → k = l := by decide
  exact hAll k k.mem_all l l.mem_all u hu v hv hPrefix

/-- Every word begins with a letter. -/
theorem isAlpha_head_word {k : TypeKind} {u : String} (hu : word k = some u) :
    ∃ c cs, u.toList = c :: cs ∧ c.isAlpha = true := by
  have hAll : ∀ k ∈ TypeKind.all, ∀ u ∈ word k, u.toList.head?.any Char.isAlpha = true := by decide
  have hHead := hAll k k.mem_all u hu
  cases hChars : u.toList with
  | nil => simp [hChars] at hHead
  | cons c cs => exact ⟨c, cs, rfl, by simpa [hChars] using hHead⟩

/-- The text of a type without names begins with the word of its kind. -/
theorem exists_word {t : Ty} (ht : t.Nameless) :
    ∃ u rest, word t.kind = some u ∧ written t = u.toList ++ rest := by
  cases ht with
  | bool id digest => exact ⟨_, [], rfl, written_bool id digest⟩
  | empty id digest => exact ⟨_, [], rfl, written_empty id digest⟩
  | unsignedbv id digest width => exact ⟨_, _, rfl, written_unsignedbv id digest width⟩
  | signedbv id digest width => exact ⟨_, _, rfl, written_signedbv id digest width⟩
  | fixedbv id digest width bits => exact ⟨_, _, rfl, written_fixedbv id digest width bits⟩
  | floatbv id digest fraction exponent =>
    exact ⟨_, _, rfl, written_floatbv id digest fraction exponent⟩
  | pointer id digest hTarget => exact ⟨_, _, rfl, written_pointer id digest _⟩
  | array id digest hElement => exact ⟨_, _, rfl, written_array id digest _⟩
  | code id digest ellipsis hArguments hResult =>
    exact ⟨_, _, rfl, written_code id digest _ _ ellipsis⟩

/-- The text of a type begins with a letter, so it is no text that begins otherwise. -/
theorem written_ne {t : Ty} (ht : t.Nameless) {c : Char} (hc : c.isAlpha = false)
    (r r' : List Char) : written t ++ r ≠ c :: r' := by
  obtain ⟨u, rest, hWord, hText⟩ := exists_word ht
  obtain ⟨d, ds, hChars, hLetter⟩ := isAlpha_head_word hWord
  intro hSame
  rw [hText, hChars] at hSame
  obtain ⟨rfl, -⟩ := List.cons.inj hSame
  exact Bool.false_ne_true (hc.symm.trans hLetter)

/-- If the texts of two types begin one text, the types are of one kind. -/
theorem kind_eq_of_text {a b : Ty} (ha : a.Nameless) (hb : b.Nameless) {r r' : List Char}
    (hText : written a ++ r = written b ++ r') : a.kind = b.kind := by
  obtain ⟨u, rest, hWord, hu⟩ := exists_word ha
  obtain ⟨v, rest', hWord', hv⟩ := exists_word hb
  rw [hu, hv, List.append_assoc, List.append_assoc] at hText
  have hLeft : u.toList <+: u.toList ++ (rest ++ r) := List.prefix_append _ _
  have hRight : v.toList <+: u.toList ++ (rest ++ r) := hText ▸ List.prefix_append _ _
  rcases List.prefix_or_prefix_of_prefix hLeft hRight with hPrefix | hPrefix
  · exact word_prefix_free hWord hWord' hPrefix
  · exact (word_prefix_free hWord' hWord hPrefix).symm

-- ---------------------------------------------------------------------------
-- Reading a type
-- ---------------------------------------------------------------------------

/-- Two numbers between parentheses can be read, whatever follows. -/
theorem reads_numbers (m n m' n' : UInt32) :
    Reads anything (numbers m n) (numbers m' n') (m = m' ∧ n = n') := by
  have hSecond : Reads anything ((decimal n.toNat).toList ++ [')'])
      ((decimal n'.toNat).toList ++ [')']) (n = n') :=
    ((reads_decimal n n').seq (fun r _ => stops_cons rfl r) (fun r _ => stops_cons rfl r)
      fun _ => Reads.literal _).imp And.left
  exact Reads.after ['('] ((reads_decimal m m').seq (fun r _ => stops_cons rfl _)
    (fun r _ => stops_cons rfl _) fun _ => Reads.after [',', ' '] hSecond)

/-- Parameters tell the arguments and whether more may follow. -/
theorem parameters_inj {as bs : List Ty} {dots dots' : Bool}
    (h : (parameters as dots).map (Option.map Ty.tree) =
      (parameters bs dots').map (Option.map Ty.tree)) :
    as.map Ty.tree = bs.map Ty.tree ∧ dots = dots' := by
  have hTypes : ∀ as dots, ((parameters as dots).map (Option.map Ty.tree)).filterMap id =
      as.map Ty.tree := by
    intro as dots
    cases dots <;> simp [parameters]
  have hDots : ∀ as dots, none ∈ (parameters as dots).map (Option.map Ty.tree) ↔ dots = true := by
    intro as dots
    cases dots <;> simp [parameters]
  constructor
  · rw [← hTypes as dots, h, hTypes]
  · rw [Bool.eq_iff_iff, ← hDots as, h, hDots]

/-- A type among the parameters is an argument. -/
theorem mem_of_mem_parameters {arguments : List Ty} {ellipsis : Bool} {t : Ty}
    (h : some t ∈ parameters arguments ellipsis) : t ∈ arguments := by
  cases ellipsis <;> simpa [parameters] using h

/-- A parameter begins with a letter or a dot. -/
theorem parameter_ne {p : Option Ty} (hp : ∀ t, p = some t → t.Nameless) (r r' : List Char) :
    parameter p ++ r ≠ [')'] ++ r' := by
  cases p with
  | none =>
    intro hText
    cases hText
  | some t => exact written_ne (hp t rfl) rfl r r'

/-- A parameter can be read if it is the dots or an argument that can. -/
theorem reads_parameter {p q : Option Ty} (hp : ∀ t, p = some t → t.Nameless)
    (hq : ∀ u, q = some u → u.Nameless)
    (hTypes : ∀ t u, p = some t → q = some u →
      Reads (Stops isWord) (written t) (written u) (t.tree = u.tree)) :
    Reads (Stops isWord) (parameter p) (parameter q) (p.map Ty.tree = q.map Ty.tree) := by
  cases p with
  | none =>
    cases q with
    | none => exact (Reads.literal _).imp fun _ => rfl
    | some u => exact Reads.of_ne fun r r' _ _ hText => written_ne (hq u rfl) rfl r' _ hText.symm
  | some t =>
    cases q with
    | none => exact Reads.of_ne fun r r' _ _ hText => written_ne (hp t rfl) rfl r _ hText
    | some u => exact (hTypes t u rfl rfl).imp (congrArg some)

/-- Parameters are read up to the closing parenthesis, once the arguments can be read. -/
theorem reads_parameters {as bs : List Ty} (dots dots' : Bool) (ha : ∀ t ∈ as, t.Nameless)
    (hb : ∀ u ∈ bs, u.Nameless)
    (hTypes : ∀ t ∈ as, ∀ u ∈ bs, Reads (Stops isWord) (written t) (written u) (t.tree = u.tree)) :
    Reads anything ([',', ' '].intercalate ((parameters as dots).map parameter) ++ [')'])
      ([',', ' '].intercalate ((parameters bs dots').map parameter) ++ [')'])
      (as.map Ty.tree = bs.map Ty.tree ∧ dots = dots') := by
  have ha' : ∀ p ∈ parameters as dots, ∀ t, p = some t → t ∈ as := by
    rintro _ hp t rfl
    exact mem_of_mem_parameters hp
  have hb' : ∀ q ∈ parameters bs dots', ∀ u, q = some u → u ∈ bs := by
    rintro _ hq u rfl
    exact mem_of_mem_parameters hq
  have hComma : ∀ r, Stops isWord ([',', ' '] ++ r) := fun r => stops_cons rfl _
  have hClosing : ∀ r, Stops isWord ([')'] ++ r) := fun r => stops_cons rfl _
  refine (reads_separated hComma hClosing ?_ ?_ ?_).imp parameters_inj
  · intro r r' hText
    cases hText
  · intro p hp
    rcases List.mem_append.mp hp with hp | hp
    · exact parameter_ne fun t ht => ha t (ha' p hp t ht)
    · exact parameter_ne fun u hu => hb u (hb' p hp u hu)
  · intro p hp q hq
    exact reads_parameter (fun t ht => ha t (ha' p hp t ht)) (fun u hu => hb u (hb' q hq u hu))
      fun t u ht hu => hTypes t (ha' p hp t ht) u (hb' q hq u hu)

/-- Two types of one kind are told apart by their texts, if what is inside is. -/
theorem reads_step {a b : Ty} (ha : a.Nameless) (hb : b.Nameless) (hKind : a.kind = b.kind)
    (hInside : ∀ t ∈ a.shape.types, ∀ u, t.Nameless → u.Nameless →
      Reads (Stops isWord) (written t) (written u) (t.tree = u.tree)) :
    Reads (Stops isWord) (written a) (written b) (a.tree = b.tree) := by
  rw [Ty.tree_eq, Ty.tree_eq]
  cases ha <;> cases hb
  case bool.bool =>
    rw [written_bool, written_bool]
    exact (Reads.literal _).imp fun _ => rfl
  case empty.empty =>
    rw [written_empty, written_empty]
    exact (Reads.literal _).imp fun _ => rfl
  case unsignedbv.unsignedbv width _ _ width' =>
    rw [written_unsignedbv, written_unsignedbv]
    refine Reads.after _ ((reads_decimal width width').imp ?_)
    rintro rfl
    rfl
  case signedbv.signedbv width _ _ width' =>
    rw [written_signedbv, written_signedbv]
    refine Reads.after _ ((reads_decimal width width').imp ?_)
    rintro rfl
    rfl
  case fixedbv.fixedbv width bits _ _ width' bits' =>
    rw [written_fixedbv, written_fixedbv]
    refine Reads.after _ (((reads_numbers width bits width' bits').mono fun _ _ => trivial).imp ?_)
    rintro ⟨rfl, rfl⟩
    rfl
  case floatbv.floatbv fraction exponent _ _ fraction' exponent' =>
    rw [written_floatbv, written_floatbv]
    refine Reads.after _
      (((reads_numbers fraction exponent fraction' exponent').mono fun _ _ => trivial).imp ?_)
    rintro ⟨rfl, rfl⟩
    rfl
  case pointer.pointer target hTarget _ _ target' hTarget' =>
    have hRead := hInside target List.mem_cons_self target' hTarget hTarget'
    rw [written_pointer, written_pointer]
    refine Reads.after _ (Reads.after _ ((hRead.seq (fun r _ => stops_cons rfl r)
      (fun r _ => stops_cons rfl r) fun _ => Reads.literal _).imp ?_))
    rintro ⟨hTree, -⟩
    simp only [Ty.shape, TyShape.map, hTree]
  case array.array element hElement _ _ element' hElement' =>
    have hRead := hInside element List.mem_cons_self element' hElement hElement'
    rw [written_array, written_array]
    refine Reads.after _ (Reads.after _ ((hRead.seq (fun r _ => stops_cons rfl _)
      (fun r _ => stops_cons rfl _) fun _ => Reads.literal _).imp ?_))
    rintro ⟨hTree, -⟩
    simp only [Ty.shape, TyShape.map, hTree, Option.map_none]
  case code.code arguments result dots hArguments hResult _ _ arguments' result' dots'
      hArguments' hResult' =>
    have hParameters := reads_parameters dots dots' hArguments hArguments' fun t ht u hu =>
      hInside t (List.mem_append_left _ ht) u (hArguments t ht) (hArguments' u hu)
    have hRead := hInside result (List.mem_append_right _ List.mem_cons_self) result' hResult hResult'
    rw [written_code, written_code]
    refine Reads.after _ (Reads.after _ ((hParameters.seq (fun _ _ => trivial) (fun _ _ => trivial)
      fun _ => Reads.after _ hRead).imp ?_))
    rintro ⟨⟨hTrees, rfl⟩, hTree⟩
    simp only [Ty.shape, TyShape.map, hTrees, hTree]
  all_goals cases hKind

/-- The text of a type is read back to its tree, wherever no letter or digit follows. -/
theorem reads_written {a b : Ty} (ha : a.Nameless) (hb : b.Nameless) :
    Reads (Stops isWord) (written a) (written b) (a.tree = b.tree) := by
  have hNode : ∀ n : Node, ∀ a b : Ty, n = .type a → a.Nameless → b.Nameless →
      Reads (Stops isWord) (written a) (written b) (a.tree = b.tree) := by
    intro n
    induction n using Node.induction_children with
    | step n ih =>
      rintro a b rfl ha hb r r' hr hr' hText
      have hInside : ∀ t ∈ a.shape.types, ∀ u : Ty, t.Nameless → u.Nameless →
          Reads (Stops isWord) (written t) (written u) (t.tree = u.tree) :=
        fun t ht u => ih (.type t) (Node.type_mem_children_type.mpr ht) t u rfl
      exact reads_step ha hb (kind_eq_of_text ha hb hText) hInside r r' hr hr' hText
  exact hNode (.type a) a b rfl ha hb

end Compact

/-- The compact text of a type without names is as good as its tree. -/
theorem Ty.Nameless.compact_eq_iff {a b : Ty} (ha : a.Nameless) (hb : b.Nameless) :
    a.compact = b.compact ↔ a.tree = b.tree := by
  refine ⟨fun hText => ?_, Ty.compact_eq_of_tree⟩
  unfold Ty.compact at hText
  rw [Unfolding.text_eq_iff] at hText
  have hNil : Text.Stops Text.isWord [] := nofun
  exact (Compact.reads_written ha hb [] [] hNil hNil (congrArg (· ++ []) hText)).1

/-- The text of a pointer contains that of its target. -/
theorem Ty.compact_pointer (id : Nat) (digest : Digest) (target : Ty) :
    Ty.compact (.node id digest (.pointer target)) = "pointer(" ++ target.compact ++ ")" := by
  have hChars : ∀ t : Ty, t.compact.toList = Compact.written t := fun t =>
    Unfolding.toList_text _ "" [.seed t]
  rw [← String.toList_inj, hChars, String.toList_append, String.toList_append, hChars,
    Compact.written_pointer]
  simp

/-- What was found instead of what was expected is shown by another text. -/
theorem Expected.text_ne {expected : Expected} {found : Ty}
    (hNamed : ∀ t ∈ expected.named, t.Nameless) (hFound : found.Nameless)
    (hUnmet : ¬ expected.Meets found.tree) : expected.text ≠ "`" ++ found.compact ++ "`" := by
  intro hText
  have hTick : expected.text.toList.head? = some '`' := by
    rw [hText, String.toList_append, String.toList_append]
    rfl
  cases expected with
  | type t =>
    rw [text, String.append_left_inj, String.append_right_inj] at hText
    exact hUnmet ((hFound.compact_eq_iff (hNamed t List.mem_cons_self)).mp hText.symm)
  | pointerTo target =>
    -- the text is that of any pointer to the target
    have hPointer : Ty.Nameless (.node 0 0 (.pointer target)) :=
      .pointer 0 0 (hNamed target List.mem_cons_self)
    have hParts : Expected.text (.pointerTo target) =
        "`" ++ Ty.compact (.node 0 0 (.pointer target)) ++ "`" := by
      rw [text, Ty.compact_pointer]
      simp [← String.toList_inj]
    rw [hParts, String.append_left_inj, String.append_right_inj] at hText
    exact hUnmet ((hFound.compact_eq_iff hPointer).mp hText.symm)
  | _ => exact absurd hTick (by decide)

/-- If all types that the rejection shows are built without names, what was expected and what was
found are shown by different texts. -/
def Rejection.TellsApart : Rejection → Prop
  | .mismatch _ _ expected found =>
    (∀ t ∈ expected.named, t.Nameless) → found.Nameless →
      expected.text ≠ "`" ++ found.compact ++ "`"
  | .invalid .. => True

/-- A justified rejection shows what was expected and what was found by different texts. -/
theorem Rejection.Justified.tellsApart {kind : Kind} {fields : List (Field Ty Expr)}
    {asked : Nat → Option Ty} {r : Rejection} (hr : r.Justified kind fields asked) :
    r.TellsApart := by
  cases hr with
  | mismatch hSupplied hRefused hUnmet =>
    exact fun hNamed hFound => Expected.text_ne hNamed hFound hUnmet
  | invalid => trivial

variable {h : Hasher} {w : World}

/-- Types in use that are built without names have one compact text if and only if they are equal.
Hence no message about a type found in place of another shows the same text twice. -/
theorem compact_text_separates (hw : Reached h w) :
    (∀ a b : Ty, w.Occurs (.type a) → w.Occurs (.type b) → a.Nameless → b.Nameless →
      (a.compact = b.compact ↔ (a == b) = true)) ∧
    (∀ (shape : TyShape Ty Expr) (r : Rejection),
      (w.store.makeType shape).1 = .error r → r.TellsApart) ∧
    (∀ (type : Ty) (shape : ExprShape Expr) (r : Rejection), w.Occurs (.type type) →
      (∀ e ∈ shape.operands, w.Occurs (.expr e)) →
        (w.store.makeExpr type shape).1 = .error r → r.TellsApart) := by
  refine ⟨?_, ?_, ?_⟩
  · intro a b ha hb hNameless hNameless'
    rw [hNameless.compact_eq_iff hNameless', (hw.equalityBy .type).beq_iff ha hb]
  · intro shape r hError
    exact (Ty.blames_check shape r (Store.outcome_of_make_error hError)).tellsApart
  · intro type shape r hType hOperands hError
    have hCheck := Store.outcome_of_make_error hError
    exact (hw.sound.regular.blames_check hType hOperands r hCheck).tellsApart

namespace Sample

def signed : Ty := .build .fnv 5 (.signedbv 8)

def variadic : Ty := .build .fnv 6 (.code [byte] signed [] true)

/-- Equal to `variadic`, but made by a call of its own and around an argument of its own. -/
def variadicTwin : Ty := .build .fnv 7 (.code [octet] signed [] true)

/-- Takes no argument and returns what `variadic` is. -/
def curried : Ty := .build .fnv 8 (.code [] variadic [] false)

def x : Expr := .build .fnv 9 signed (.symbol ⟨"x"⟩)

/-- A world of functions. -/
def functions : World where
  store := { next := 10 }
  held := [.expr x, .type curried, .type variadicTwin, .type variadic, .type signed] ++ world.held

/-- Some calls lead there. -/
theorem reached_functions : Reached .fnv functions := by
  have hSigned := reached.call (c := .makeType (.signedbv 8)) nofun
  have hForVariadic : ∀ n ∈ [Node.type byte, .type signed], n ∈ .type signed :: world.held := by
    simp [world]
  have hVariadic := hSigned.call (c := .makeType (.code [byte] signed [] true)) hForVariadic
  have hForTwin : ∀ n ∈ [Node.type octet, .type signed],
      n ∈ .type variadic :: .type signed :: world.held := by simp [world]
  have hTwin := hVariadic.call (c := .makeType (.code [octet] signed [] true)) hForTwin
  have hForCurried : ∀ n ∈ [Node.type variadic],
      n ∈ .type variadicTwin :: .type variadic :: .type signed :: world.held := by simp
  have hCurried := hTwin.call (c := .makeType (.code [] variadic [] false)) hForCurried
  have hForX : ∀ n ∈ [Node.type signed],
      n ∈ .type curried :: .type variadicTwin :: .type variadic :: .type signed :: world.held := by
    simp
  exact hCurried.call (c := .makeExpr signed (.symbol ⟨"x"⟩)) hForX

theorem nameless_byte : byte.Nameless := .unsignedbv _ _ 8

theorem nameless_octet : octet.Nameless := .unsignedbv _ _ 8

theorem nameless_signed : signed.Nameless := .signedbv _ _ 8

theorem nameless_variadic : variadic.Nameless :=
  .code _ _ true (List.forall_mem_singleton.mpr nameless_byte) nameless_signed

theorem nameless_variadicTwin : variadicTwin.Nameless :=
  .code _ _ true (List.forall_mem_singleton.mpr nameless_octet) nameless_signed

theorem nameless_curried : curried.Nameless :=
  .code _ _ false (List.forall_mem_nil _) nameless_variadic

end Sample

/-- A function, its twin, and a function that returns it; and a negation whose operand is of another
type than its result. -/
theorem compact_text_separates_sample :
    let w := Sample.functions
    let blamed : Rejection :=
      .mismatch (.expr (.unary .neg)) "value" (.type Sample.byte) Sample.signed
    w.Occurs (.type Sample.variadic) ∧ Sample.variadic.Nameless ∧ Sample.curried.Nameless ∧
      Sample.variadic.compact = Sample.variadicTwin.compact ∧
      Sample.variadic.compact ≠ Sample.curried.compact ∧
      (w.store.makeExpr Sample.byte (.unary .neg Sample.x)).1 = .error blamed ∧
      (Expected.type Sample.byte).text ≠ "`" ++ Sample.signed.compact ++ "`" := by
  intro w blamed
  have hOccurs : ∀ n ∈ Sample.functions.held, w.Occurs n := fun n => .of_held
  have hByte : w.Occurs (.type Sample.byte) :=
    hOccurs _ (by simp [Sample.functions, Sample.world])
  have hSigned : w.Occurs (.type Sample.signed) := hOccurs _ (by simp [Sample.functions])
  have hVariadic : w.Occurs (.type Sample.variadic) := hOccurs _ (by simp [Sample.functions])
  have hTwin : w.Occurs (.type Sample.variadicTwin) := hOccurs _ (by simp [Sample.functions])
  have hCurried : w.Occurs (.type Sample.curried) := hOccurs _ (by simp [Sample.functions])
  have hX : ∀ e ∈ (ExprShape.unary .neg Sample.x).operands, w.Occurs (.expr e) :=
    List.forall_mem_singleton.mpr (hOccurs _ (by simp [Sample.functions]))
  have hEqual := Sample.reached_functions.equalityBy .type
  have hRegular := Sample.reached_functions.sound.regular
  have hMisfit : ¬ (Expected.type Sample.byte).accepts Sample.signed = true := by
    rw [hRegular.accepts_type hSigned hByte]
    intro hTree
    cases congrArg TyTree.shape hTree
  have hError : (w.store.makeExpr Sample.byte (.unary .neg Sample.x)).1 = .error blamed := by
    have hCheck : (Expr.check Sample.byte (.unary .neg Sample.x)).outcome = .error blamed := by
      show (Check.require (.expr (.unary .neg)) "value" (.type Sample.byte) Sample.signed).outcome =
        .error blamed
      rw [Check.outcome_require, if_neg hMisfit]
    rw [Store.makeExpr, Store.make_of_error hCheck]
  obtain ⟨hTexts, -, hRejections⟩ := compact_text_separates Sample.reached_functions
  refine ⟨hVariadic, Sample.nameless_variadic, Sample.nameless_curried, ?_, ?_, hError, ?_⟩
  · rw [hTexts _ _ hVariadic hTwin Sample.nameless_variadic Sample.nameless_variadicTwin,
      hEqual.beq_iff hVariadic hTwin]
    rfl
  · rw [ne_eq, hTexts _ _ hVariadic hCurried Sample.nameless_variadic Sample.nameless_curried,
      hEqual.beq_iff hVariadic hCurried]
    intro hTree
    cases congrArg TyTree.shape hTree
  · exact hRejections _ _ _ hByte hX hError
      (List.forall_mem_singleton.mpr Sample.nameless_byte) Sample.nameless_signed

end TermGraph
