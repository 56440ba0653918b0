import TermGraph.Text.Decimal
import TermGraph.Text.Quoted
import TermGraph.Unfold

/-!
# Reading a text back

Whether a text tells what it was written from is asked of a text with something after it. If `a`
and `b` are written from two things and `a ++ r = b ++ r'`, then the two should be the same thing,
and `r` should be `r'`, so that reading can go on. This may depend on what follows: after a number
there must be no digit. `Reads follow a b same` says all of that, and such statements put together
from the left to the right give one about a longer text (`Reads.seq`).

* A run of characters of one class is read up to the first character that is not in the class
  (`Reads.run`); words and numbers are such runs.
* A list is read part by part, if no part can be taken for the end (`reads_pieces`).
* Quoted text can be read whatever follows (`reads_quoted`).
* The characters that an unfolding emits (`Unfolding.chars`).
-/

namespace TermGraph

namespace Text

/-- If `a` and `b`, each with something after it that may follow, are one text, then `same` holds
and what follows is the same. -/
def Reads (follow : List Char → Prop) (a b : List Char) (same : Prop) : Prop :=
  ∀ r r', follow r → follow r' → a ++ r = b ++ r' → same ∧ r = r'

/-- Nothing is asked of what follows. -/
def anything : List Char → Prop :=
  fun _ => True

/-- What follows does not begin with a character of a class. -/
def Stops (p : Char → Bool) (r : List Char) : Prop :=
  ∀ c ∈ r.head?, p c = false

namespace Reads

variable {follow follow' : List Char → Prop} {a b c d : List Char} {same same' : Prop}

/-- The same text on both sides tells nothing. -/
theorem literal (text : List Char) : Reads follow text text True :=
  fun _ _ _ _ h => ⟨trivial, List.append_cancel_left h⟩

theorem imp (h : Reads follow a b same) (hSame : same → same') : Reads follow a b same' :=
  fun r r' hr hr' hText => (h r r' hr hr' hText).imp hSame id

/-- Less may follow. -/
theorem mono (h : Reads follow a b same) (hFollow : ∀ r, follow' r → follow r) :
    Reads follow' a b same :=
  fun r r' hr hr' => h r r' (hFollow r hr) (hFollow r' hr')

/-- Texts that can never be one text tell anything. -/
theorem of_ne (hNe : ∀ r r', follow r → follow r' → a ++ r ≠ b ++ r') : Reads follow a b same :=
  fun r r' hr hr' hText => absurd hText (hNe r r' hr hr')

/-- One text after another: the second may rely on what the first has told. -/
theorem seq (h : Reads follow a b same) (hc : ∀ r, follow' r → follow (c ++ r))
    (hd : ∀ r, follow' r → follow (d ++ r)) (h' : same → Reads follow' c d same') :
    Reads follow' (a ++ c) (b ++ d) (same ∧ same') := by
  intro r r' hr hr' hText
  rw [List.append_assoc, List.append_assoc] at hText
  obtain ⟨hSame, hRest⟩ := h _ _ (hc r hr) (hd r' hr') hText
  obtain ⟨hSame', hEnd⟩ := h' hSame r r' hr hr' hRest
  exact ⟨⟨hSame, hSame'⟩, hEnd⟩

theorem after (text : List Char) (h : Reads follow a b same) :
    Reads follow (text ++ a) (text ++ b) same := by
  intro r r' hr hr' hText
  rw [List.append_assoc, List.append_assoc] at hText
  exact h r r' hr hr' (List.append_cancel_left hText)

/-- A run of characters of a class, up to the first that is not. -/
theorem run {p : Char → Bool} (ha : ∀ c ∈ a, p c = true) (hb : ∀ c ∈ b, p c = true) :
    Reads (Stops p) a b (a = b) := by
  intro r r' hr hr' hText
  induction a generalizing b with
  | nil =>
    cases b with
    | nil => exact ⟨rfl, hText⟩
    | cons y ys =>
      have hHead : y ∈ r.head? := by
        rw [List.nil_append] at hText
        simp [hText]
      exact absurd (hb y List.mem_cons_self) (by simp [hr y hHead])
  | cons x xs ih =>
    cases b with
    | nil =>
      have hHead : x ∈ r'.head? := by
        rw [List.nil_append] at hText
        simp [← hText]
      exact absurd (ha x List.mem_cons_self) (by simp [hr' x hHead])
    | cons y ys =>
      rw [List.cons_append, List.cons_append, List.cons.injEq] at hText
      obtain ⟨rfl, hText⟩ := hText
      obtain ⟨rfl, hRest⟩ := ih (fun c hc => ha c (List.mem_cons_of_mem _ hc))
        (fun c hc => hb c (List.mem_cons_of_mem _ hc)) hText
      exact ⟨rfl, hRest⟩

end Reads

-- ---------------------------------------------------------------------------
-- Lists of parts
-- ---------------------------------------------------------------------------

section Pieces

variable {α β : Type}

/-- The texts of some things one after another; a text may depend on the place of its thing. -/
def pieces (text : Nat → α → List Char) : Nat → List α → List Char
  | _, [] => []
  | i, x :: xs => text i x ++ pieces text (i + 1) xs

theorem pieces_const (text : α → List Char) (i : Nat) (xs : List α) :
    pieces (fun _ => text) i xs = xs.flatMap text := by
  induction xs generalizing i with
  | nil => rfl
  | cons x xs ih => rw [pieces, ih, List.flatMap_cons]

theorem pieces_map (text : Nat → β → List Char) (f : α → β) (i : Nat) (xs : List α) :
    pieces text i (xs.map f) = pieces (fun i x => text i (f x)) i xs := by
  induction xs generalizing i with
  | nil => rfl
  | cons x xs ih => rw [List.map_cons, pieces, pieces, ih]

/-- A list is read part by part, up to what may stand at its end. A part must never look like the
end, or the number of parts could not be told. -/
theorem reads_pieces {text : Nat → α → List Char} {view : α → β} {follow ending : List Char → Prop}
    (hApart : ∀ i x r r', ending r' → text i x ++ r ≠ r')
    (hNext : ∀ i x r, follow (text i x ++ r)) (hEnding : ∀ r, ending r → follow r)
    {xs ys : List α} (i : Nat)
    (hEach : ∀ i, ∀ p ∈ xs.zip ys, Reads follow (text i p.1) (text i p.2) (view p.1 = view p.2)) :
    Reads ending (pieces text i xs) (pieces text i ys) (xs.map view = ys.map view) := by
  have hFollow : ∀ i zs r, ending r → follow (pieces text i zs ++ r) := by
    intro i zs r hr
    cases zs with
    | nil => exact hEnding r hr
    | cons z zs =>
      rw [pieces, List.append_assoc]
      exact hNext i z _
  induction xs generalizing ys i with
  | nil =>
    cases ys with
    | nil => exact (Reads.literal []).imp fun _ => rfl
    | cons y ys =>
      refine Reads.of_ne fun r r' hr _ hText => ?_
      rw [pieces, pieces, List.nil_append, List.append_assoc] at hText
      exact hApart i y _ r hr hText.symm
  | cons x xs ih =>
    cases ys with
    | nil =>
      refine Reads.of_ne fun r r' _ hr' hText => ?_
      rw [pieces, pieces, List.nil_append, List.append_assoc] at hText
      exact hApart i x _ r' hr' hText
    | cons y ys =>
      have hRest := ih (i + 1) fun j p hp => hEach j p (List.mem_cons_of_mem _ hp)
      refine ((hEach i (x, y) List.mem_cons_self).seq (hFollow (i + 1) xs) (hFollow (i + 1) ys)
        fun _ => hRest).imp ?_
      rintro ⟨hHead, hTail⟩
      rw [List.map_cons, List.map_cons, hHead, hTail]

end Pieces

-- ---------------------------------------------------------------------------
-- Numbers and words
-- ---------------------------------------------------------------------------

theorem digitChar_injective {m n : Nat} (hm : m < 16) (hn : n < 16)
    (h : m.digitChar = n.digitChar) : m = n := by
  have hAll : ∀ i j : Fin 16, i.val.digitChar = j.val.digitChar → i = j := by decide
  exact congrArg Fin.val (hAll ⟨m, hm⟩ ⟨n, hn⟩ h)

/-- The digits of a number determine it, in any base up to sixteen. -/
theorem toDigits_injective {base : Nat} (hBase : 1 < base) (hBase' : base ≤ 16) {m n : Nat}
    (h : Nat.toDigits base m = Nat.toDigits base n) : m = n := by
  have hMod : ∀ k, k % base < 16 := fun k => Nat.lt_of_lt_of_le (Nat.mod_lt k (by omega)) hBase'
  -- one digit on one side, more than one on the other
  have hLong : ∀ k c, base ≤ k → Nat.toDigits base k ≠ [c] := by
    intro k c hk hEq
    rw [Nat.toDigits_of_base_le hBase hk] at hEq
    have hLength := congrArg List.length hEq
    have hPos : 0 < (Nat.toDigits base (k / base)).length := Nat.length_toDigits_pos
    simp only [List.length_append, List.length_singleton] at hLength
    omega
  induction m using Nat.strongRecOn generalizing n with
  | ind m ih =>
    rcases Nat.lt_or_ge m base with hm | hm
    · rw [Nat.toDigits_of_lt_base hm] at h
      rcases Nat.lt_or_ge n base with hn | hn
      · rw [Nat.toDigits_of_lt_base hn] at h
        exact digitChar_injective (by omega) (by omega) (List.cons.inj h).1
      · exact absurd h.symm (hLong n _ hn)
    · rcases Nat.lt_or_ge n base with hn | hn
      · rw [Nat.toDigits_of_lt_base hn] at h
        exact absurd h (hLong m _ hm)
      · rw [Nat.toDigits_of_base_le hBase hm, Nat.toDigits_of_base_le hBase hn] at h
        obtain ⟨hInit, hLast⟩ := List.append_inj' h rfl
        have hDiv : m / base = n / base := ih _ (Nat.div_lt_self (by omega) hBase) hInit
        have hDigit : m % base = n % base :=
          digitChar_injective (hMod m) (hMod n) (List.cons.inj hLast).1
        rw [← Nat.div_add_mod m base, ← Nat.div_add_mod n base, hDiv, hDigit]

theorem decimal_injective {m n : Nat} (h : decimal m = decimal n) : m = n :=
  toDigits_injective (by decide) (by decide) (String.ofList_inj.mp h)

/-- The characters of words and numbers. -/
def isWord (c : Char) : Bool :=
  c.isAlphanum || c == '_' || c == '-'

theorem isWord_decimal (n : Nat) : ∀ c ∈ (decimal n).toList, isWord c = true := by
  intro c hc
  rw [decimal, String.toList_ofList] at hc
  have hDigit := Nat.isDigit_of_mem_toDigits (by decide) (by decide) hc
  simp [isWord, Char.isAlphanum, hDigit]

theorem isWord_decimalInt (i : Int) : ∀ c ∈ (decimalInt i).toList, isWord c = true := by
  cases i with
  | ofNat n => exact isWord_decimal n
  | negSucc n =>
    intro c hc
    rw [decimalInt, String.toList_append] at hc
    rcases List.mem_append.mp hc with hc | hc
    · rw [List.mem_singleton.mp hc]
      rfl
    · exact isWord_decimal (n + 1) c hc

theorem decimalInt_injective {i j : Int} (h : decimalInt i = decimalInt j) : i = j := by
  -- a digit is no minus sign
  have hMinus : ∀ m n : Nat, decimal m ≠ "-" ++ decimal n := by
    intro m n hEq
    have hChars : (decimal m).toList = '-' :: (decimal n).toList := by
      rw [hEq, String.toList_append]
      rfl
    have hMem : '-' ∈ Nat.toDigits 10 m := by
      rw [decimal, String.toList_ofList] at hChars
      rw [hChars]
      exact List.mem_cons_self
    exact absurd (Nat.isDigit_of_mem_toDigits (by decide) (by decide) hMem) (by decide)
  cases i with
  | ofNat m =>
    cases j with
    | ofNat n => rw [decimal_injective h]
    | negSucc n => exact absurd h (hMinus m (n + 1))
  | negSucc m =>
    cases j with
    | ofNat n => exact absurd h.symm (hMinus n (m + 1))
    | negSucc n =>
      have hChars := congrArg String.toList h
      rw [decimalInt, decimalInt, String.toList_append, String.toList_append] at hChars
      have hDigits := String.toList_inj.mp (List.append_cancel_left hChars)
      rw [Nat.succ.inj (decimal_injective hDigits)]

theorem isWord_truth (b : Bool) : ∀ c ∈ (truth b).toList, isWord c = true := by
  rw [← List.all_eq_true]
  cases b <;> rfl

theorem truth_injective {a b : Bool} (h : truth a = truth b) : a = b := by
  have hAll : ∀ a b, truth a = truth b → a = b := by decide
  exact hAll a b h

/-- Words are read up to the first character that belongs to no word. -/
theorem reads_word {s t : String} (hs : ∀ c ∈ s.toList, isWord c = true)
    (ht : ∀ c ∈ t.toList, isWord c = true) : Reads (Stops isWord) s.toList t.toList (s = t) :=
  (Reads.run hs ht).imp String.toList_inj.mp

-- ---------------------------------------------------------------------------
-- Quoted text
-- ---------------------------------------------------------------------------

/-- The characters with a short escape, each with the letter of its escape. -/
def shortEscapes : List (Char × Char) :=
  [('\x00', '0'), ('\t', 't'), ('\r', 'r'), ('\n', 'n'), ('"', '"'), ('\\', '\\')]

/-- A character is written with a short escape, or as it is, or by its code point. -/
theorem escape_cases (c : Char) :
    (∃ d, (c, d) ∈ shortEscapes ∧ escape c = ['\\', d]) ∨
      (c ≠ '\\' ∧ c ≠ '"' ∧ escape c = [c]) ∨
      escape c = '\\' :: 'u' :: '\x7b' :: (Nat.toDigits 16 c.toNat ++ ['\x7d']) := by
  unfold escape
  split
  case h_7 c _ _ _ _ hQuote hBackslash =>
    split
    · exact .inr (.inl ⟨fun h => hBackslash h, fun h => hQuote h, rfl⟩)
    · exact .inr (.inr rfl)
  all_goals exact .inl ⟨_, by decide, rfl⟩

theorem brace_notMem_toDigits (n : Nat) : '\x7d' ∉ Nat.toDigits 16 n := by
  induction n using Nat.strongRecOn with
  | ind n ih =>
    have hDigit : ∀ m < 16, '\x7d' ≠ Nat.digitChar m := by decide
    rcases Nat.lt_or_ge n 16 with hn | hn
    · rw [Nat.toDigits_of_lt_base hn, List.mem_singleton]
      exact hDigit n hn
    · rw [Nat.toDigits_of_base_le (by decide) hn, List.mem_append, List.mem_singleton, not_or]
      exact ⟨ih _ (by omega), hDigit _ (Nat.mod_lt n (by decide))⟩

/-- The written forms of characters can be told apart one after the other. -/
theorem reads_escape (c c' : Char) : Reads anything (escape c) (escape c') (c = c') := by
  have hShort : ∀ p ∈ shortEscapes, ∀ q ∈ shortEscapes, p.2 = q.2 → p.1 = q.1 := by decide
  have hNoU : ∀ p ∈ shortEscapes, p.2 ≠ 'u' := by decide
  intro r r' _ _ hText
  rcases escape_cases c with ⟨d, hd, hc⟩ | ⟨hBackslash, -, hc⟩ | hc <;>
    rcases escape_cases c' with ⟨d', hd', hc'⟩ | ⟨hBackslash', -, hc'⟩ | hc' <;>
    rw [hc, hc'] at hText <;>
    simp only [List.cons_append, List.nil_append, List.append_assoc, List.cons.injEq, true_and]
      at hText
  · exact ⟨hShort _ hd _ hd' hText.1, hText.2⟩
  · exact absurd hText.1.symm hBackslash'
  · exact absurd hText.1 (hNoU _ hd)
  · exact absurd hText.1 hBackslash
  · exact hText
  · exact absurd hText.1 hBackslash
  · exact absurd hText.1.symm (hNoU _ hd')
  · exact absurd hText.1.symm hBackslash'
  · -- two code points, each up to its closing brace
    have hDigits : ∀ n, ∀ x ∈ Nat.toDigits 16 n, (x != '\x7d') = true := by
      intro n x hx
      rw [bne_iff_ne]
      rintro rfl
      exact brace_notMem_toDigits n hx
    have hStops : ∀ r, Stops (· != '\x7d') ('\x7d' :: r) := by
      intro r x hx
      rw [Option.mem_some.mp hx.symm]
      rfl
    obtain ⟨hEq, hRest⟩ := Reads.run (hDigits c.toNat) (hDigits c'.toNat) _ _ (hStops r) (hStops r')
      hText
    have hCode := toDigits_injective (by decide) (by decide) hEq
    exact ⟨Char.toNat_inj.mp hCode, (List.cons.inj hRest).2⟩

/-- No written form of a character begins with a quote. -/
theorem head_escape_ne (c : Char) : ∃ x xs, escape c = x :: xs ∧ x ≠ '"' := by
  rcases escape_cases c with ⟨d, -, hc⟩ | ⟨-, hQuote, hc⟩ | hc
  · exact ⟨_, _, hc, by decide⟩
  · exact ⟨_, _, hc, hQuote⟩
  · exact ⟨_, _, hc, by decide⟩

/-- A quoted text ends at the first quote that no backslash precedes, and tells what it quotes,
whatever follows. -/
theorem reads_quoted (s t : String) :
    Reads anything (quoted s).toList (quoted t).toList (s = t) := by
  have hInside : ∀ cs ds : List Char, Reads anything (cs.flatMap escape ++ ['"'])
      (ds.flatMap escape ++ ['"']) (cs = ds) := by
    intro cs
    induction cs with
    | nil =>
      intro ds
      cases ds with
      | nil => exact (Reads.literal _).imp fun _ => rfl
      | cons d ds =>
        obtain ⟨x, xs, hx, hne⟩ := head_escape_ne d
        refine Reads.of_ne fun r r' _ _ hText => hne ?_
        simp only [List.flatMap_nil, List.flatMap_cons, hx, List.nil_append, List.cons_append,
          List.cons.injEq] at hText
        exact hText.1.symm
    | cons c cs ih =>
      intro ds
      cases ds with
      | nil =>
        obtain ⟨x, xs, hx, hne⟩ := head_escape_ne c
        refine Reads.of_ne fun r r' _ _ hText => hne ?_
        simp only [List.flatMap_nil, List.flatMap_cons, hx, List.nil_append, List.cons_append,
          List.cons.injEq] at hText
        exact hText.1
      | cons d ds =>
        rw [List.flatMap_cons, List.flatMap_cons, List.append_assoc, List.append_assoc]
        refine ((reads_escape c d).seq (fun _ _ => trivial) (fun _ _ => trivial)
          fun _ => ih ds).imp ?_
        rintro ⟨rfl, rfl⟩
        rfl
  have hChars : ∀ s : String, (quoted s).toList = ['"'] ++ (s.toList.flatMap escape ++ ['"']) := by
    intro s
    rw [quoted, String.toList_ofList]
    rfl
  rw [hChars, hChars]
  exact ((hInside s.toList t.toList).after ['"']).imp String.toList_inj.mp

end Text

-- ---------------------------------------------------------------------------
-- The characters that are emitted
-- ---------------------------------------------------------------------------

namespace Unfolding

variable {σ : Type} (u : Unfolding σ String)

/-- The characters of all that some items emit. -/
def chars (items : List (Item σ String)) : List Char :=
  (u.flatten items).flatMap String.toList

@[simp] theorem chars_nil : u.chars [] = [] := by
  rw [chars, flatten_nil, List.flatMap_nil]

@[simp] theorem chars_emit (s : String) (items : List (Item σ String)) :
    u.chars (.emit s :: items) = s.toList ++ u.chars items := by
  rw [chars, flatten_emit, List.flatMap_cons]
  rfl

theorem chars_single (s : String) : u.chars [.emit s] = s.toList := by
  rw [chars_emit, chars_nil, List.append_nil]

@[simp] theorem chars_append (xs ys : List (Item σ String)) :
    u.chars (xs ++ ys) = u.chars xs ++ u.chars ys := by
  rw [chars, flatten_append, List.flatMap_append]
  rfl

theorem chars_seed (s : σ) : u.chars [.seed s] = u.chars (u.expand s) := by
  rw [chars, flatten_seed, List.append_nil]
  rfl

theorem toList_text (start : String) (items : List (Item σ String)) :
    (u.text start items).toList = start.toList ++ u.chars items := by
  rw [text, fold_eq_foldl, chars]
  induction u.flatten items generalizing start with
  | nil => simp
  | cons s ss ih =>
    rw [List.foldl_cons, ih, String.toList_append, List.flatMap_cons, List.append_assoc]

/-- Texts are the same if and only if their characters are. -/
theorem text_eq_iff (xs ys : List (Item σ String)) :
    u.text "" xs = u.text "" ys ↔ u.chars xs = u.chars ys := by
  rw [← String.toList_inj, toList_text, toList_text]
  exact Iff.rfl

end Unfolding

end TermGraph
