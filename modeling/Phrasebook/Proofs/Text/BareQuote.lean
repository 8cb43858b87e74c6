import Mathlib.Algebra.Group.Nat.Even
import Mathlib.Data.List.DropRight
import Phrasebook.Proofs.Code.Tidy
import Phrasebook.Proofs.Text.QuotedReading

/-!
# Literals end at their only bare quote

A quote is bare when no backslash escapes it. A literal has a bare quote at each of its ends and
none between them, whatever quotes and backslashes its text holds, so a reader that starts at the
first one stops at the last one, and what follows the literal cannot change what is read.
-/

namespace Phrasebook.Text.Quoted

/-- A character behind these characters is not escaped: the backslashes that they end with escape
each other in pairs. -/
def IsBare (before : List Char) : Prop :=
  Even (before.rtakeWhile fun c => c = '\\').length

variable {before : List Char}

theorem isBare_nil : IsBare [] :=
  Even.zero

/-- A backslash escapes what follows it, unless it is escaped itself. -/
theorem isBare_concat (c : Char) : IsBare (before ++ [c]) ↔ (c = '\\' → ¬ IsBare before) := by
  rw [IsBare, List.rtakeWhile_concat]
  by_cases backslash : c = '\\'
  · rw [if_pos (decide_eq_true backslash), List.length_append, List.length_singleton,
      Nat.even_add_one]
    exact ⟨fun odd _ => odd, fun odd => odd backslash⟩
  · rw [if_neg (by simpa using backslash)]
    exact iff_of_true Even.zero fun same => absurd same backslash

theorem IsBare.append (bare : IsBare before) {more : List Char}
    (plain : ∀ c ∈ more, c ≠ '\\') : IsBare (before ++ more) := by
  induction more generalizing before with
  | nil => rwa [List.append_nil]
  | cons c rest ih =>
      rw [List.append_cons]
      have here : IsBare (before ++ [c]) :=
        (isBare_concat c).mpr fun same => absurd same (plain c List.mem_cons_self)
      exact ih here fun other member => plain other (List.mem_cons_of_mem _ member)

/-! ## Escapes -/

theorem hexDigit_plain {n : Nat} (small : n < 16) : hexDigit n ≠ '"' ∧ hexDigit n ≠ '\\' := by
  have digits : ∀ digit : Fin 16, hexDigit digit ≠ '"' ∧ hexDigit digit ≠ '\\' := by decide
  exact digits ⟨n, small⟩

theorem hexFour_plain (n : Nat) : ∀ c ∈ hexFour n, c ≠ '"' ∧ c ≠ '\\' := by
  have digit (m : Nat) : hexDigit (m % 16) ≠ '"' ∧ hexDigit (m % 16) ≠ '\\' :=
    hexDigit_plain (Nat.mod_lt m (by decide))
  intro c member
  simp only [hexFour, List.mem_cons, List.not_mem_nil, or_false] at member
  rcases member with rfl | rfl | rfl | rfl
  · exact digit _
  · exact digit _
  · exact digit _
  · exact digit _

/-- A character stands for itself, or a backslash with a letter and digits stands for it. -/
theorem escape_cases (c : Char) :
    (escape c = [c] ∧ c ≠ '"' ∧ c ≠ '\\') ∨
      ∃ letter digits, escape c = '\\' :: letter :: digits ∧
        ∀ digit ∈ digits, digit ≠ '"' ∧ digit ≠ '\\' := by
  by_cases quote : c = '"'
  · subst quote
    exact Or.inr ⟨'"', [], rfl, by simp⟩
  by_cases backslash : c = '\\'
  · subst backslash
    exact Or.inr ⟨'\\', [], rfl, by simp⟩
  by_cases newline : c = '\n'
  · subst newline
    exact Or.inr ⟨'n', [], rfl, by simp⟩
  by_cases back : c = '\r'
  · subst back
    exact Or.inr ⟨'r', [], rfl, by simp⟩
  by_cases tab : c = '\t'
  · subst tab
    exact Or.inr ⟨'t', [], rfl, by simp⟩
  rw [escape, if_neg quote, if_neg backslash, if_neg newline, if_neg back, if_neg tab]
  by_cases coded : (isControl c || c = '\u2028' || c = '\u2029') = true
  · rw [if_pos coded]
    exact Or.inr ⟨'u', hexFour c.toNat, rfl, hexFour_plain c.toNat⟩
  · rw [if_neg coded]
    exact Or.inl ⟨rfl, quote, backslash⟩

/-- What stands for a character escapes nothing behind it. -/
theorem IsBare.escape (bare : IsBare before) (c : Char) : IsBare (before ++ escape c) := by
  rcases escape_cases c with ⟨same, _, backslash⟩ | ⟨letter, digits, same, plain⟩
  · rw [same]
    exact (isBare_concat c).mpr fun equal => absurd equal backslash
  · have opened : ¬ IsBare (before ++ ['\\']) := fun bareBehind =>
      (isBare_concat '\\').mp bareBehind rfl bare
    have closed : IsBare (before ++ ['\\'] ++ [letter]) :=
      (isBare_concat letter).mpr fun _ => opened
    rw [same, List.append_cons, List.append_cons]
    exact closed.append fun digit member => (plain digit member).2

/-- A quote in what stands for a character has just a backslash before it. -/
theorem before_quote_of_escape {c : Char} {front back : List Char}
    (split : escape c = front ++ '"' :: back) : front = ['\\'] := by
  rcases escape_cases c with ⟨same, quote, _⟩ | ⟨letter, digits, same, plain⟩
  · rw [same] at split
    cases front with
    | nil =>
        cases split
        exact absurd rfl quote
    | cons first front => simp at split
  · rw [same] at split
    cases front with
    | nil => cases split
    | cons first front =>
        obtain ⟨rfl, behind⟩ := List.cons.inj split
        cases front with
        | nil => rfl
        | cons second front =>
            have listed : '"' ∈ digits := by
              rw [(List.cons.inj behind).2]
              exact List.mem_append_right _ List.mem_cons_self
            exact absurd rfl (plain _ listed).1

/-! ## Literals -/

/-- Behind the opening quote, a quote is bare when nothing follows it. -/
theorem isBare_iff_of_inside {text front back : List Char} (bare : IsBare before)
    (split : text.flatMap escape ++ ['"'] = front ++ '"' :: back) :
    IsBare (before ++ front) ↔ back = [] := by
  induction text generalizing before front with
  | nil =>
      cases front with
      | nil =>
          cases split
          rw [List.append_nil]
          exact iff_of_true bare rfl
      | cons first front => simp at split
  | cons c text ih =>
      rw [List.flatMap_cons, List.append_assoc, List.append_eq_append_iff] at split
      rcases split with ⟨inner, rfl, later⟩ | ⟨inner, here, later⟩
      · rw [← List.append_assoc]
        exact ih (bare.escape c) later
      · cases inner with
        | nil =>
            rw [List.append_nil] at here
            rw [← here, ← List.append_nil (before ++ escape c)]
            exact ih (bare.escape c) later.symm
        | cons quote inner =>
            obtain ⟨rfl, rfl⟩ := List.cons.inj later
            rw [before_quote_of_escape here, isBare_concat]
            exact iff_of_false (fun escaped => escaped rfl bare) (by simp)

theorem literal?_encodeChars (text rest : List Char) :
    literal? (encodeChars text ++ rest) = some (text, rest) := by
  rw [encodeChars, List.cons_append, literal?, if_pos rfl, List.append_assoc]
  exact inside?_escaped text rest

/-- The opening quote and the closing one are bare, and no other. -/
theorem isBare_iff_of_encodeChars {text front back : List Char}
    (split : encodeChars text = front ++ '"' :: back) : IsBare front ↔ front = [] ∨ back = [] := by
  cases front with
  | nil => exact iff_of_true isBare_nil (Or.inl rfl)
  | cons first front =>
      obtain ⟨rfl, behind⟩ := List.cons.inj split
      have opened : IsBare (([] : List Char) ++ ['"']) :=
        (isBare_concat '"').mpr fun same => absurd same (by decide)
      rw [or_iff_right (List.cons_ne_nil _ _)]
      exact isBare_iff_of_inside opened behind

theorem staysInline_iff {c : Char} :
    staysInline c = true ↔
      0x20 ≤ c.toNat ∧ (c.toNat < 0x7F ∨ 0x9F < c.toNat) ∧ c ≠ '\u2028' ∧ c ≠ '\u2029' := by
  simp only [staysInline, isControl, Bool.not_eq_true', Bool.or_eq_false_iff,
    Bool.and_eq_false_iff, decide_eq_false_iff_not, Nat.not_lt, Nat.not_le, and_assoc]

/-- The literal of a text is read as the text whatever follows, and nothing that follows is taken
for a part of it. It holds no control character and no line separator, it stands between two
quotes, and these are its only bare quotes. -/
theorem encode_self_delimiting (text : String) (rest : List Char) :
    literal? ((encode text).toList ++ rest) = some (text.toList, rest) ∧
      (∀ c ∈ (encode text).toList, 0x20 ≤ c.toNat ∧ (c.toNat < 0x7F ∨ 0x9F < c.toNat) ∧
        c ≠ '\u2028' ∧ c ≠ '\u2029') ∧
      (∃ inner, (encode text).toList = '"' :: inner ++ ['"']) ∧
      ∀ front back, (encode text).toList = front ++ '"' :: back →
        (IsBare front ↔ front = [] ∨ back = []) := by
  have inline := List.all_eq_true.mp (OneLine.encode text)
  rw [toList_encode] at inline ⊢
  exact ⟨literal?_encodeChars text.toList rest,
    fun c member => staysInline_iff.mp (inline c member),
    ⟨text.toList.flatMap escape, rfl⟩,
    fun front back split => isBare_iff_of_encodeChars split⟩

/-- A text that ends in a backslash and a quote: in its literal three backslashes stand before
that quote, which is not bare. -/
theorem encode_awkward_end :
    (encode "\\\"").toList = ['"', '\\', '\\', '\\'] ++ '"' :: ['"'] ∧
      ¬ IsBare ['"', '\\', '\\', '\\'] ∧
      literal? ((encode "\\\"").toList ++ ['"', 'u']) = some (['\\', '"'], ['"', 'u']) := by
  have split : (encode "\\\"").toList = ['"', '\\', '\\', '\\'] ++ '"' :: ['"'] := by decide
  obtain ⟨reading, _, _, bare⟩ := encode_self_delimiting "\\\"" ['"', 'u']
  exact ⟨split, mt (bare _ _ split).mp (by simp), reading⟩

end Phrasebook.Text.Quoted
