import Mathlib.Data.List.TakeDrop
import Mathlib.Data.List.TakeWhile
import Phrasebook.Toml.Reader

/-!
# Reading lines as they are mostly written

Keys without quotes, and texts without escapes. A header and an assignment are read up to the end of
their line, whatever stands behind it, and lines with nothing but blanks do not count.
-/

namespace Phrasebook.Toml

/-- A part of a key that needs no quotes. -/
structure BareName where
  text : String
  nonempty : text.toList ≠ []
  bare : ∀ c ∈ text.toList, isBareKey c = true

/-- A dotted key of parts that need no quotes. -/
inductive BareKey where
  | single (name : BareName)
  | dotted (first : BareName) (rest : BareKey)

/-- A key, as it is written. -/
def BareKey.code : BareKey → List Char
  | .single name => name.text.toList
  | .dotted first rest => first.text.toList ++ '.' :: rest.code

/-- What a key means. -/
def BareKey.key : BareKey → Key
  | .single name => ⟨[], name.text⟩
  | .dotted first rest => ⟨first.text :: rest.key.path, rest.key.last⟩

/-- A text that stands between double quotes as it is. -/
structure PlainText where
  text : String
  plain : ∀ c ∈ text.toList, isPlain c = true ∧ c ≠ '"' ∧ c ≠ '\\'

/-! ## Blanks and ends of lines -/

theorem skipBlanks_append {blanks : List Char} (areBlank : ∀ c ∈ blanks, isBlank c = true)
    (rest : List Char) : skipBlanks (blanks ++ rest) = skipBlanks rest :=
  List.dropWhile_append_of_pos areBlank

theorem skipBlanks_cons {c : Char} (other : isBlank c = false) (rest : List Char) :
    skipBlanks (c :: rest) = c :: rest :=
  List.dropWhile_cons_of_neg (Bool.eq_false_iff.mp other)

theorem takeBreak?_eq_some_iff {text rest : List Char} :
    takeBreak? text = some rest ↔ text = '\n' :: rest ∨ text = '\r' :: '\n' :: rest := by
  constructor
  · intro found
    unfold takeBreak? at found
    split at found
    · cases found
      exact Or.inl rfl
    · cases found
      exact Or.inr rfl
    · cases found
  · rintro (rfl | rfl) <;> rfl

theorem endLine?_break {text rest : List Char} (found : takeBreak? text = some rest) :
    endLine? text = some rest := by
  rcases takeBreak?_eq_some_iff.mp found with rfl | rfl <;> rfl

/-- The rest after a comment in front. -/
def skipComment : List Char → List Char
  | '#' :: comment => comment.dropWhile isPlain
  | text => text

theorem skipComment_cons {c : Char} (noComment : c ≠ '#') (rest : List Char) :
    skipComment (c :: rest) = c :: rest := by
  unfold skipComment
  split
  · rename_i same
    exact absurd (List.cons.inj same).1 noComment
  · rfl

theorem length_skipComment_le (text : List Char) : (skipComment text).length ≤ text.length := by
  unfold skipComment
  split
  · rename_i comment
    have shorter : (comment.dropWhile isPlain).length ≤ comment.length :=
      List.length_dropWhile_le isPlain comment
    rw [List.length_cons]
    omega
  · exact Nat.le_refl _

theorem skipLinesWithin_succ (fuel : Nat) (text : List Char) :
    skipLinesWithin (fuel + 1) text =
      match takeBreak? (skipComment (skipBlanks text)) with
      | some rest => skipLinesWithin fuel rest
      | none => skipComment (skipBlanks text) := rfl

theorem length_of_takeBreak? {text rest : List Char} (found : takeBreak? text = some rest) :
    rest.length < text.length := by
  rcases takeBreak?_eq_some_iff.mp found with rfl | rfl <;> simp only [List.length_cons] <;> omega

/-- The fuel of the skipping of lines never runs out. -/
theorem skipLinesWithin_eq {fuel : Nat} {text : List Char} (enough : text.length < fuel) :
    skipLinesWithin fuel text = skipLines text := by
  suffices irrelevant : ∀ {one other : Nat} {text : List Char}, text.length < one →
      text.length < other → skipLinesWithin one text = skipLinesWithin other text from
    irrelevant enough (Nat.lt_succ_self _)
  intro one
  induction one with
  | zero => exact fun none => absurd none (Nat.not_lt_zero _)
  | succ one ih =>
      intro other text less lessToo
      obtain ⟨other, rfl⟩ := Nat.exists_eq_succ_of_ne_zero (Nat.ne_zero_of_lt lessToo)
      rw [skipLinesWithin_succ, skipLinesWithin_succ]
      cases found : takeBreak? (skipComment (skipBlanks text)) with
      | none => rfl
      | some rest =>
          have blanks : (skipBlanks text).length ≤ text.length := List.length_dropWhile_le _ _
          have comment := length_skipComment_le (skipBlanks text)
          have fewer := length_of_takeBreak? found
          exact ih (by omega) (by omega)

theorem skipLines_blank {blanks after rest : List Char} (areBlank : ∀ c ∈ blanks, isBlank c = true)
    (found : takeBreak? after = some rest) : skipLines (blanks ++ after) = skipLines rest := by
  have start : skipComment (skipBlanks (blanks ++ after)) = after := by
    rw [skipBlanks_append areBlank]
    rcases takeBreak?_eq_some_iff.mp found with rfl | rfl <;> rfl
  have fewer : rest.length < (blanks ++ after).length := by
    have shorter := length_of_takeBreak? found
    rw [List.length_append]
    omega
  rw [skipLines, skipLinesWithin_succ, start, found]
  exact skipLinesWithin_eq fewer

theorem skipLines_blanks {blanks : List Char} (areBlank : ∀ c ∈ blanks, isBlank c = true) :
    skipLines blanks = [] := by
  have start : skipBlanks blanks = [] := List.dropWhile_eq_nil_iff.mpr areBlank
  rw [skipLines, skipLinesWithin_succ, start]
  rfl

/-- A text that starts with neither a blank, a comment nor a break has nothing to skip. -/
theorem skipLines_cons {c : Char} (noBlank : isBlank c = false) (noComment : c ≠ '#')
    (noBreak : c ≠ '\n' ∧ c ≠ '\r') (rest : List Char) : skipLines (c :: rest) = c :: rest := by
  have noneFound : takeBreak? (c :: rest) = none := by
    rw [Option.eq_none_iff_forall_ne_some]
    intro after found
    rcases takeBreak?_eq_some_iff.mp found with same | same
    · exact noBreak.1 (List.cons.inj same).1
    · exact noBreak.2 (List.cons.inj same).1
  rw [skipLines, skipLinesWithin_succ, skipBlanks_cons noBlank, skipComment_cons noComment, noneFound]

/-! ## Keys -/

theorem ne_of_isBareKey {c d : Char} (bare : isBareKey c = true) (other : isBareKey d = false) :
    c ≠ d := by
  rintro rfl
  rw [bare] at other
  cases other

theorem isBlank_of_isBareKey {c : Char} (bare : isBareKey c = true) : isBlank c = false := by
  have space := ne_of_isBareKey bare (d := ' ') rfl
  have tab := ne_of_isBareKey bare (d := '\t') rfl
  simp [isBlank, space, tab]

/-- A key starts with a character that needs no quotes. -/
theorem BareKey.code_eq_cons (key : BareKey) :
    ∃ c rest, key.code = c :: rest ∧ isBareKey c = true := by
  have start (name : BareName) : ∃ c rest, name.text.toList = c :: rest ∧ isBareKey c = true := by
    obtain ⟨c, rest, same⟩ := List.exists_cons_of_ne_nil name.nonempty
    exact ⟨c, rest, same, name.bare c (same ▸ List.mem_cons_self)⟩
  cases key with
  | single name => exact start name
  | dotted first rest =>
      obtain ⟨c, others, same, bare⟩ := start first
      exact ⟨c, others ++ '.' :: rest.code, by rw [code, same, List.cons_append], bare⟩

/-- No quote stands in a key without quotes. -/
theorem BareKey.quote_not_mem_code (key : BareKey) : '"' ∉ key.code := by
  have notIn (name : BareName) : '"' ∉ name.text.toList :=
    fun member => absurd (name.bare _ member) (by decide)
  induction key with
  | single name => exact notIn name
  | dotted first rest ih =>
      rw [code, List.mem_append, List.mem_cons]
      rintro (inFirst | isDot | inRest)
      · exact notIn first inFirst
      · cases isDot
      · exact ih inRest

theorem takeKeyPart?_bare (name : BareName) {c : Char} (stops : isBareKey c = false)
    (rest : List Char) :
    takeKeyPart? (name.text.toList ++ c :: rest) = some (name.text, c :: rest) := by
  obtain ⟨first, others, same⟩ := List.exists_cons_of_ne_nil name.nonempty
  have bare : isBareKey first = true := name.bare first (same ▸ List.mem_cons_self)
  have split : (name.text.toList ++ c :: rest).span isBareKey = (name.text.toList, c :: rest) := by
    have ends := Bool.eq_false_iff.mp stops
    rw [List.span_eq_takeWhile_dropWhile, List.takeWhile_append_of_pos name.bare,
      List.dropWhile_append_of_pos name.bare, List.takeWhile_cons_of_neg ends,
      List.dropWhile_cons_of_neg ends, List.append_nil]
  have notEmpty : name.text.toList.isEmpty = false := by rw [same, List.isEmpty_cons]
  rw [takeKeyPart?.eq_def]
  split
  · rename_i quoted
    rw [same] at quoted
    exact absurd (List.cons.inj quoted).1 (ne_of_isBareKey bare rfl)
  · rename_i quoted
    rw [same] at quoted
    exact absurd (List.cons.inj quoted).1 (ne_of_isBareKey bare rfl)
  · simp only [split, notEmpty, Bool.false_eq_true, if_false, String.ofList_toList]

/-- A key is read up to its end, and so are the blanks behind it. -/
theorem takeKeyWithin_bare (key : BareKey) {fuel : Nat} (enough : key.code.length < fuel) {c : Char}
    (stops : isBareKey c = false) {rest after : List Char} (blanks : skipBlanks (c :: rest) = after)
    (noDot : after.head? ≠ some '.') :
    takeKeyWithin fuel (key.code ++ c :: rest) = some (key.key, after) := by
  induction key generalizing fuel with
  | single name =>
      obtain ⟨fuel, rfl⟩ := Nat.exists_eq_succ_of_ne_zero (Nat.ne_zero_of_lt enough)
      simp only [BareKey.code, takeKeyWithin, takeKeyPart?_bare name stops, Option.bind_eq_bind,
        Option.bind_some, blanks]
      split
      · exact absurd rfl noDot
      · rfl
  | dotted first others ih =>
      obtain ⟨fuel, rfl⟩ := Nat.exists_eq_succ_of_ne_zero (Nat.ne_zero_of_lt enough)
      have less : others.code.length < fuel := by
        rw [BareKey.code, List.length_append, List.length_cons] at enough
        omega
      obtain ⟨start, tail, same, bare⟩ := others.code_eq_cons
      have next : skipBlanks (others.code ++ c :: rest) = others.code ++ c :: rest := by
        rw [same]
        exact skipBlanks_cons (isBlank_of_isBareKey bare) _
      have dot : skipBlanks ('.' :: (others.code ++ c :: rest)) = '.' :: (others.code ++ c :: rest) :=
        skipBlanks_cons rfl _
      rw [BareKey.code, List.append_assoc, List.cons_append, takeKeyWithin,
        takeKeyPart?_bare first rfl]
      simp only [Option.bind_eq_bind, Option.bind_some, dot, next, ih less]
      rfl

theorem takeKey?_bare (key : BareKey) {c : Char} (stops : isBareKey c = false)
    {rest after : List Char} (blanks : skipBlanks (c :: rest) = after)
    (noDot : after.head? ≠ some '.') :
    takeKey? (key.code ++ c :: rest) = some (key.key, after) :=
  takeKeyWithin_bare key (by simp only [List.length_append]; omega) stops blanks noDot

/-! ## Values -/

theorem takeBasicWithin_plain {value : List Char}
    (plain : ∀ c ∈ value, isPlain c = true ∧ c ≠ '"' ∧ c ≠ '\\') (rest : List Char) {fuel : Nat}
    (enough : value.length < fuel) :
    takeBasicWithin fuel (value ++ '"' :: rest) = some (value, rest) := by
  induction value generalizing fuel with
  | nil =>
      obtain ⟨fuel, rfl⟩ := Nat.exists_eq_succ_of_ne_zero (Nat.ne_zero_of_lt enough)
      rfl
  | cons c value ih =>
      obtain ⟨fuel, rfl⟩ := Nat.exists_eq_succ_of_ne_zero (Nat.ne_zero_of_lt enough)
      obtain ⟨⟨isPlain, noQuote, noEscape⟩, others⟩ := List.forall_mem_cons.mp plain
      rw [List.cons_append, takeBasicWithin, if_pos isPlain,
        ih others (Nat.lt_of_succ_lt_succ enough)]
      · rfl
      · exact noQuote
      · exact noEscape

/-- The quotes of an empty text are not the first two of three. -/
theorem takeSimple?_plain (value : PlainText) {rest : List Char} (noQuote : rest.head? ≠ some '"') :
    takeSimple? ('"' :: (value.text.toList ++ '"' :: rest)) = some (.string value.text, rest) := by
  rw [takeSimple?, takeBasicWithin_plain value.plain]
  · simp only [Option.map_some, String.ofList_toList]
  · simp only [List.length_append]
    omega
  · intro after same
    cases chars : value.text.toList with
    | nil =>
        rw [chars, List.nil_append] at same
        rw [(List.cons.inj same).2] at noQuote
        exact noQuote rfl
    | cons c others =>
        rw [chars, List.cons_append] at same
        have isQuote := (List.cons.inj same).1
        exact (value.plain c (chars ▸ List.mem_cons_self)).2.1 isQuote

theorem takeValueWithin_plain (value : PlainText) {rest : List Char} (noQuote : rest.head? ≠ some '"')
    (fuel depth : Nat) :
    takeValueWithin (fuel + 1) depth ('"' :: (value.text.toList ++ '"' :: rest)) =
      some (.string value.text, rest) := by
  rw [takeValueWithin, takeSimple?_plain value noQuote]
  all_goals exact nofun

/-! ## Lines -/

theorem head?_ne_of_endLine? {tail rest : List Char} (ends : endLine? tail = some rest) :
    tail.head? ≠ some '"' := by
  intro quote
  obtain ⟨after, rfl⟩ := List.head?_eq_some_iff.mp quote
  cases ends

theorem takeHeader?_bare (key : BareKey) {tail rest : List Char} (ends : endLine? tail = some rest) :
    takeHeader? (key.code ++ ']' :: tail) = some (.header false key.key, rest) := by
  obtain ⟨c, others, same, bare⟩ := key.code_eq_cons
  have start : skipBlanks (key.code ++ ']' :: tail) = key.code ++ ']' :: tail := by
    rw [same]
    exact skipBlanks_cons (isBlank_of_isBareKey bare) _
  have read : takeKey? (key.code ++ ']' :: tail) = some (key.key, ']' :: tail) :=
    takeKey?_bare key rfl (skipBlanks_cons rfl tail) nofun
  rw [takeHeader?.eq_def]
  split
  · rename_i listed
    rw [same] at listed
    exact absurd (List.cons.inj listed).1 (ne_of_isBareKey bare rfl)
  · rw [start, read]
    simp only [ends, Option.map_some]

/-- An assignment of a text, as it is written. -/
def assignmentCode (key : BareKey) (value : PlainText) : List Char :=
  key.code ++ ' ' :: '=' :: ' ' :: '"' :: (value.text.toList ++ ['"'])

theorem takeAssignment?_bare (key : BareKey) (value : PlainText) {tail rest : List Char}
    (ends : endLine? tail = some rest) :
    takeAssignment? (assignmentCode key value ++ tail) =
      some (.assignment key.key (.string value.text), rest) := by
  have text : assignmentCode key value ++ tail =
      key.code ++ ' ' :: '=' :: ' ' :: '"' :: (value.text.toList ++ '"' :: tail) := by
    simp only [assignmentCode, List.append_assoc, List.cons_append, List.nil_append]
  have read : takeKey? (assignmentCode key value ++ tail) =
      some (key.key, '=' :: ' ' :: '"' :: (value.text.toList ++ '"' :: tail)) := by
    rw [text]
    exact takeKey?_bare key rfl rfl nofun
  have start : skipBlanks (' ' :: '"' :: (value.text.toList ++ '"' :: tail)) =
      '"' :: (value.text.toList ++ '"' :: tail) := rfl
  rw [takeAssignment?, read]
  simp only [start, takeValueWithin_plain value (head?_ne_of_endLine? ends), ends, Option.map_some]

/-! ## Documents -/

theorem readLinesWithin_header (key : BareKey) {tail rest : List Char}
    (ends : endLine? tail = some rest) (fuel : Nat) :
    readLinesWithin (fuel + 1) ('[' :: (key.code ++ ']' :: tail)) =
      (readLinesWithin fuel rest).map (.header false key.key :: ·) := by
  have start : skipLines ('[' :: (key.code ++ ']' :: tail)) = '[' :: (key.code ++ ']' :: tail) :=
    skipLines_cons rfl (by decide) (by decide) _
  rw [readLinesWithin, start]
  simp only [takeHeader?_bare key ends, Option.bind_eq_bind, Option.bind_some]

theorem readLinesWithin_assignment (key : BareKey) (value : PlainText) {tail rest : List Char}
    (ends : endLine? tail = some rest) (fuel : Nat) :
    readLinesWithin (fuel + 1) (assignmentCode key value ++ tail) =
      (readLinesWithin fuel rest).map (.assignment key.key (.string value.text) :: ·) := by
  obtain ⟨c, others, same, bare⟩ := key.code_eq_cons
  obtain ⟨after, text⟩ : ∃ after, assignmentCode key value ++ tail = c :: after := by
    rw [assignmentCode, same]
    exact ⟨_, rfl⟩
  have start : skipLines (assignmentCode key value ++ tail) = assignmentCode key value ++ tail := by
    rw [text]
    exact skipLines_cons (isBlank_of_isBareKey bare) (ne_of_isBareKey bare rfl)
      ⟨ne_of_isBareKey bare rfl, ne_of_isBareKey bare rfl⟩ _
  rw [readLinesWithin, start]
  split
  · rename_i empty
    rw [text] at empty
    cases empty
  · rename_i header
    rw [text] at header
    exact absurd (List.cons.inj header).1 (ne_of_isBareKey bare rfl)
  · simp only [takeAssignment?_bare key value ends, Option.bind_eq_bind, Option.bind_some]

theorem readLinesWithin_blank {blanks after rest : List Char}
    (areBlank : ∀ c ∈ blanks, isBlank c = true) (found : takeBreak? after = some rest) (fuel : Nat) :
    readLinesWithin (fuel + 1) (blanks ++ after) = readLinesWithin (fuel + 1) rest := by
  rw [readLinesWithin, readLinesWithin, skipLines_blank areBlank found]

theorem readLinesWithin_blanks {blanks : List Char} (areBlank : ∀ c ∈ blanks, isBlank c = true)
    (fuel : Nat) : readLinesWithin (fuel + 1) blanks = some [] := by
  rw [readLinesWithin, skipLines_blanks areBlank]

end Phrasebook.Toml
