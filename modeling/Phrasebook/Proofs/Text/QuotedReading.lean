import Phrasebook.Text.QuotedReading

/-!
# Literals are read back

The inside of the literal of a text, and the closing quote, are read as that text, whatever
follows. What is read of any literal is read whatever follows it.
-/

namespace Phrasebook.Text

theorem hexValue?_hexDigit {n : Nat} (small : n < 16) : hexValue? (hexDigit n) = some n := by
  have digits : ∀ digit : Fin 16, hexValue? (hexDigit digit) = some digit.val := by decide
  exact digits ⟨n, small⟩

/-- Four digits give a number below 2 ^ 16 back. -/
theorem takeHex?_hexFour {n : Nat} (small : n < 65536) (rest : List Char) :
    takeHex? 4 0 (hexFour n ++ rest) = some (n, rest) := by
  have digit (m : Nat) : hexValue? (hexDigit (m % 16)) = some (m % 16) :=
    hexValue?_hexDigit (Nat.mod_lt m (by decide))
  have value : 16 * (16 * (16 * (16 * 0 + n / 4096 % 16) + n / 256 % 16) + n / 16 % 16) + n % 16 =
      n := by
    omega
  simp only [hexFour, List.cons_append, List.nil_append, takeHex?, digit, value]

theorem takeCode?_hexFour {c : Char} (small : c.toNat < 65536) (rest : List Char) :
    takeCode? 4 (hexFour c.toNat ++ rest) = some (c, rest) := by
  have valid : c.toNat.isValidChar := c.valid
  rw [takeCode?, takeHex?_hexFour small]
  dsimp only
  rw [if_pos valid, Char.ofNat_toNat]

/-- The digits that a number is read from are read as it whatever follows. -/
theorem takeHex?_eq_some {count start code : Nat} {text after : List Char}
    (found : takeHex? count start text = some (code, after)) :
    ∃ read, text = read ++ after ∧
      ∀ rest, takeHex? count start (read ++ rest) = some (code, rest) := by
  induction count generalizing start text with
  | zero =>
      rw [takeHex?] at found
      cases found
      exact ⟨[], rfl, fun rest => by rw [List.nil_append, takeHex?]⟩
  | succ count ih =>
      cases text with
      | nil => cases found
      | cons c text =>
          rw [takeHex?] at found
          split at found
          · rename_i digit
            obtain ⟨read, rfl, again⟩ := ih found
            refine ⟨c :: read, rfl, fun rest => ?_⟩
            rw [List.cons_append, takeHex?, digit]
            exact again rest
          · cases found

theorem takeCode?_eq_some {count : Nat} {c : Char} {text after : List Char}
    (found : takeCode? count text = some (c, after)) :
    ∃ read, text = read ++ after ∧ ∀ rest, takeCode? count (read ++ rest) = some (c, rest) := by
  rw [takeCode?] at found
  split at found
  · rename_i taken
    obtain ⟨read, rfl, again⟩ := takeHex?_eq_some taken
    split at found
    · rename_i valid
      cases found
      refine ⟨read, rfl, fun rest => ?_⟩
      rw [takeCode?, again]
      exact if_pos valid
    · cases found
  · cases found

namespace Quoted

/-- The characters that are written as numbers have small ones. -/
theorem toNat_lt_of_coded {c : Char} (coded : (isControl c || c = '\u2028' || c = '\u2029') = true) :
    c.toNat < 65536 := by
  simp only [isControl, Bool.or_eq_true, Bool.and_eq_true, decide_eq_true_eq] at coded
  rcases coded with ((low | ⟨_, high⟩) | rfl) | rfl
  · omega
  · omega
  · decide
  · decide

/-- What stands for a character is read as that character. -/
theorem front?_escape (c : Char) (rest : List Char) : front? (escape c ++ rest) = some (c, rest) := by
  by_cases quote : c = '"'
  · subst quote
    rfl
  by_cases backslash : c = '\\'
  · subst backslash
    rfl
  by_cases newline : c = '\n'
  · subst newline
    rfl
  by_cases back : c = '\r'
  · subst back
    rfl
  by_cases tab : c = '\t'
  · subst tab
    rfl
  rw [escape, if_neg quote, if_neg backslash, if_neg newline, if_neg back, if_neg tab]
  by_cases coded : (isControl c || c = '\u2028' || c = '\u2029') = true
  · rw [if_pos coded]
    exact takeCode?_hexFour (toNat_lt_of_coded coded) rest
  · rw [if_neg coded, List.singleton_append, front?, if_neg backslash, if_neg]
    simp [quote, newline, back]

/-- The inside of a literal is read up to its closing quote. -/
theorem inside?_escaped (text rest : List Char) :
    inside? (text.flatMap escape ++ '"' :: rest) = some (text, rest) := by
  induction text with
  | nil =>
      rw [inside?_of_end]
      · rfl
      · rfl
  | cons c text ih =>
      rw [List.flatMap_cons, List.append_assoc, inside?_of_front (front?_escape c _), ih]
      rfl

/-! ## Whatever follows -/

theorem escaped?_eq_some {c : Char} {text after : List Char}
    (found : escaped? text = some (c, after)) :
    ∃ read, text = read ++ after ∧ ∀ rest, escaped? (read ++ rest) = some (c, rest) := by
  cases text with
  | nil => cases found
  | cons letter digits =>
      rw [escaped?] at found
      split at found
      · rename_i coded
        obtain ⟨read, rfl, again⟩ := takeCode?_eq_some found
        refine ⟨letter :: read, rfl, fun rest => ?_⟩
        rw [List.cons_append, escaped?, if_pos coded, again]
      · rename_i plain
        obtain ⟨meant, named, same⟩ := Option.map_eq_some_iff.mp found
        cases same
        refine ⟨[letter], rfl, fun rest => ?_⟩
        rw [List.singleton_append, escaped?, if_neg plain, named, Option.map_some]

theorem front?_eq_some {c : Char} {text after : List Char} (found : front? text = some (c, after)) :
    ∃ read, text = read ++ after ∧ ∀ rest, front? (read ++ rest) = some (c, rest) := by
  cases text with
  | nil => cases found
  | cons first text =>
      rw [front?] at found
      split at found
      · rename_i backslash
        obtain ⟨read, rfl, again⟩ := escaped?_eq_some found
        refine ⟨first :: read, rfl, fun rest => ?_⟩
        rw [List.cons_append, front?, if_pos backslash, again]
      · rename_i plain
        split at found
        · cases found
        · rename_i inner
          cases found
          refine ⟨[c], rfl, fun rest => ?_⟩
          rw [List.singleton_append, front?, if_neg plain, if_neg inner]

/-- What a literal is read from ends with its closing quote, and is read alike whatever follows. -/
theorem inside?_eq_some {text inner after : List Char} (found : inside? text = some (inner, after)) :
    ∃ read, text = read ++ '"' :: after ∧
      ∀ rest, inside? (read ++ '"' :: rest) = some (inner, rest) := by
  induction text using inside?.induct generalizing inner with
  | case1 text c behind first ih =>
      rw [inside?_of_front first] at found
      obtain ⟨⟨more, moreAfter⟩, moreFound, same⟩ := Option.map_eq_some_iff.mp found
      cases same
      obtain ⟨here, rfl, againHere⟩ := front?_eq_some first
      obtain ⟨read, rfl, again⟩ := ih moreFound
      refine ⟨here ++ read, (List.append_assoc ..).symm, fun rest => ?_⟩
      rw [List.append_assoc, inside?_of_front (againHere _), again]
      rfl
  | case2 text last closes =>
      rw [inside?_of_end last, if_pos closes] at found
      obtain ⟨behind, rfl⟩ := List.head?_eq_some_iff.mp closes
      cases found
      exact ⟨[], rfl, inside?_escaped []⟩
  | case3 text last opens =>
      rw [inside?_of_end last, if_neg opens] at found
      cases found

end Quoted

end Phrasebook.Text
