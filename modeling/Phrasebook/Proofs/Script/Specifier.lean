import Phrasebook.Proofs.Script.CodeToken
import Phrasebook.Proofs.Script.Listing

/-!
# Which modules code refers to

A piece of code refers to its own modules whatever stands behind it, and pieces in a row refer
to the modules of each in turn. What names a module is a literal right behind a word, or behind
the bracket of an import; so code whose literals all stand behind other marks, and code without
any literals, refers to nothing.
-/

namespace Phrasebook.Script

open Text

/-! ## Modules of tokens -/

/-- A module is named right behind a word, or behind a word and a bracket if the word imports. -/
theorem specifier?_eq_some {tokens : List Token} {module : String}
    (found : specifier? tokens = some module) :
    ∃ word rest, tokens = .word word :: rest ∧
      (rest.head? = some (.text module) ∨
        word = "import" ∧ ∃ more, rest = .mark '(' :: .text module :: more) := by
  rw [specifier?.eq_def] at found
  split at found
  · cases found
    exact ⟨_, _, rfl, Or.inr ⟨rfl, _, rfl⟩⟩
  · cases found
    exact ⟨_, _, rfl, Or.inl rfl⟩
  · cases found
    exact ⟨_, _, rfl, Or.inl rfl⟩
  · cases found

/-- Tokens that refer to the modules of a list, whatever stands behind them. -/
def Yields (tokens : List Token) (found : List String) : Prop :=
  ∀ rest, specifiersOf (tokens ++ rest) = found ++ specifiersOf rest

/-- Tokens that refer to no module if a mark stands behind them that does not open a bracket. -/
def Quiet (tokens : List Token) : Prop :=
  ∀ c, c ≠ '(' → Yields (tokens ++ [.mark c]) []

namespace Yields

theorem nil : Yields [] [] :=
  fun _ => rfl

theorem append {front back : List Token} {found more : List String} (first : Yields front found)
    (second : Yields back more) : Yields (front ++ back) (found ++ more) := by
  intro rest
  rw [List.append_assoc, first, second, List.append_assoc]

/-- A token at which no module is named can be left out. -/
theorem cons {token : Token} {tokens : List Token} {found : List String}
    (none : ∀ rest, specifier? (token :: (tokens ++ rest)) = none) (yields : Yields tokens found) :
    Yields (token :: tokens) found := by
  intro rest
  rw [List.cons_append, specifiersOf, none, yields]
  rfl

theorem mark (c : Char) : Yields [.mark c] [] :=
  cons (fun _ => rfl) nil

theorem text (value : String) : Yields [.text value] [] :=
  cons (fun _ => rfl) nil

theorem mark_cons {tokens : List Token} {found : List String} (c : Char)
    (yields : Yields tokens found) : Yields (.mark c :: tokens) found :=
  (mark c).append yields

theorem text_cons {tokens : List Token} {found : List String} (value : String)
    (yields : Yields tokens found) : Yields (.text value :: tokens) found :=
  (text value).append yields

theorem arrow_cons {tokens : List Token} {found : List String} (yields : Yields tokens found) :
    Yields (.arrow :: tokens) found :=
  cons (fun _ => rfl) yields

/-- A word with a mark behind it refers to nothing, unless the word is the one that imports. -/
theorem word_mark {tokens : List Token} {found : List String} {word : String} (c : Char)
    (other : word ≠ "import") (yields : Yields tokens found) :
    Yields (.word word :: .mark c :: tokens) found := by
  refine cons (fun rest => Option.eq_none_iff_forall_ne_some.mpr fun module found => ?_)
    (mark_cons c yields)
  obtain ⟨_, _, same, named | ⟨imports, _⟩⟩ := specifier?_eq_some found
  · cases same
    cases named
  · cases same
    exact other imports

/-- A word that neither imports nor tells where from refers to nothing. -/
theorem word {name : String} (noImport : name ≠ "import") (noFrom : name ≠ "from") :
    Yields [.word name] [] := by
  refine cons (fun rest => ?_) nil
  rw [specifier?.eq_def]
  split
  · rename_i same
    cases same
    exact absurd rfl noImport
  · rename_i same
    cases same
    exact absurd rfl noImport
  · rename_i same
    cases same
    exact absurd rfl noFrom
  · rfl

/-- A call of `import` refers to its argument. -/
theorem import_call (module : String) : Yields [.word "import", .mark '(', .text module] [module] :=
  fun _ => rfl

/-- The text behind `from` is a module. -/
theorem from_text (module : String) : Yields [.word "from", .text module] [module] :=
  fun _ => rfl

theorem quiet {tokens : List Token} (yields : Yields tokens []) : Quiet tokens :=
  fun c _ => yields.append (mark c)

end Yields

namespace Quiet

/-- Tokens without any literal refer to no module. -/
theorem of_no_text {tokens : List Token} (noText : ∀ value, .text value ∉ tokens) :
    Quiet tokens := by
  intro c noBracket
  induction tokens with
  | nil => exact .mark c
  | cons first tokens ih =>
      have later := ih fun value member => noText value (List.mem_cons_of_mem _ member)
      refine .cons (fun rest => Option.eq_none_iff_forall_ne_some.mpr fun module found => ?_) later
      obtain ⟨_, others, same, named⟩ := specifier?_eq_some found
      obtain ⟨_, rfl⟩ := List.cons.inj same
      rcases named with next | ⟨_, more, bracket⟩
      · -- right behind the first token
        cases tokens with
        | nil => cases next
        | cons second tokens =>
            cases next
            exact noText module (by simp)
      · -- behind a bracket
        cases tokens with
        | nil =>
            cases bracket
            exact noBracket rfl
        | cons second tokens =>
            cases tokens with
            | nil => cases bracket
            | cons third tokens =>
                cases bracket
                exact noText module (by simp)

theorem word (name : String) : Quiet [.word name] :=
  of_no_text (by simp)

/-- Behind quiet tokens a mark goes on that does not open a bracket. -/
theorem mark_cons {tokens rest : List Token} {found : List String} (quiet : Quiet tokens) {c : Char}
    (noBracket : c ≠ '(') (behind : Yields rest found) :
    Yields (tokens ++ .mark c :: rest) found := by
  have whole := (quiet c noBracket).append behind
  rw [List.append_assoc] at whole
  exact whole

theorem append {front back : List Token} (first : Yields front []) (second : Quiet back) :
    Quiet (front ++ back) := by
  intro c noBracket
  rw [List.append_assoc]
  exact first.append (second c noBracket)

theorem separated {separator : Char} (noBracket : separator ≠ '(') {items : List (List Token)}
    (each : ∀ item ∈ items, Quiet item) : Quiet (separated separator items) := by
  induction items with
  | nil => exact Yields.nil.quiet
  | cons first items ih =>
      rw [List.forall_mem_cons] at each
      cases items with
      | nil => exact each.1
      | cons second items =>
          have front := each.1 separator noBracket
          have whole := Quiet.append front (ih each.2)
          rw [List.append_assoc] at whole
          exact whole

end Quiet

/-! ## Modules of texts -/

/-- A text that refers to the modules of a list, whatever stands behind it. -/
def Refers (text : List Char) (found : List String) : Prop :=
  ∀ rest, specifiersIn? (text ++ rest) = (specifiersIn? rest).map fun behind => found ++ behind

namespace Refers

/-- With nothing behind it, a text refers to its own modules. -/
theorem specifiersIn?_eq {text : List Char} {found : List String} (refers : Refers text found) :
    specifiersIn? text = some found := by
  have whole := refers []
  have nothing : specifiersIn? [] = some [] := by
    rw [specifiersIn?, codeTokens?_nil]
    rfl
  rw [List.append_nil, nothing, Option.map_some, List.append_nil] at whole
  exact whole

theorem nil : Refers [] [] :=
  fun _ => (Option.map_id' ..).symm

theorem append {text more : List Char} {found behind : List String} (first : Refers text found)
    (second : Refers more behind) : Refers (text ++ more) (found ++ behind) := by
  intro rest
  rw [List.append_assoc, first, second, Option.map_map]
  simp [Function.comp_def]

/-- A text refers to the modules of its tokens, if nothing can go on its last token. -/
theorem of_tokens {text : List Char} {tokens : List Token} {found : List String}
    (cut : ∀ rest, codeTokens? (text ++ rest) = (codeTokens? rest).map fun behind => tokens ++ behind)
    (yields : Yields tokens found) : Refers text found := by
  intro rest
  rw [specifiersIn?, cut, specifiersIn?, Option.map_map, Option.map_map]
  exact congrArg (fun change => (codeTokens? rest).map change) (funext yields)

theorem space {c : Char} (space : isSpace c = true) : Refers [c] [] := by
  intro rest
  rw [List.singleton_append, specifiersIn?, codeTokens?_of_none (codeToken?_space space rest),
    if_pos space]
  exact (Option.map_id' ..).symm

theorem spaces {text : List Char} (spaces : text.all isSpace = true) : Refers text [] := by
  induction text with
  | nil => exact nil
  | cons c text ih =>
      obtain ⟨first, others⟩ := Bool.and_eq_true_iff.mp spaces
      exact (space first).append (ih others)

end Refers

/-- The tokens of an expression refer to their modules in any code, if nothing can go on the last. -/
theorem Refers.of_scans {text : List Char} {tokens : List Token} {found : List String}
    (scans : Scans text tokens) (apart : ∀ rest, Apart text rest) (yields : Yields tokens found) :
    Refers text found :=
  of_tokens
    (fun rest => codeTokens?_append (codeTokens?_of_tokens? scans.tokens?_eq) (apart rest)) yields

/-- Code that consists of the tokens of an expression refers to their modules. -/
theorem specifiers?_of_scans {code : String} {tokens : List Token} {found : List String}
    (scans : Scans code.toList tokens) (yields : Yields tokens found) :
    specifiers? code = some found := by
  have whole := yields []
  rw [List.append_nil, specifiersOf, List.append_nil] at whole
  rw [specifiers?, specifiersIn?, codeTokens?_of_tokens? scans.tokens?_eq, Option.map_some, whole]

theorem Refers.literal (value : String) : Refers (Quoted.encode value).toList [] := by
  have split : (Quoted.encode value).toList = '"' :: value.toList.flatMap Quoted.escape ++ ['"'] :=
    Quoted.toList_encode value
  refine .of_scans (Scans.literal value) (fun rest => ?_) (.text value)
  rw [split]
  exact apart_concat (by decide) (by decide) rest

/-! ## Code without literals -/

/-- The marks at which code without literals may end before a blank: the last thing before them
cannot be going to import. -/
def closers : List Char := ['\x7b', '\x7d', ';', ',', '=', '|']

/-- Code without literals refers to no module. -/
theorem Refers.plain {front : List Char} (noQuote : '"' ∉ front) {c blank : Char}
    (closes : c ∈ closers) (space : isSpace blank = true) : Refers (front ++ [c, blank]) [] := by
  have ofCloser : ∀ c ∈ closers, isNameStart c = false ∧ isNameRest c = false ∧ c ≠ '"' ∧
      isSpace c = false ∧ c ≠ '>' ∧ c ≠ '(' := by
    intro c closes
    simp only [closers, List.mem_cons, List.not_mem_nil, or_false] at closes
    rcases closes with rfl | rfl | rfl | rfl | rfl | rfl <;> decide
  obtain ⟨noStart, noRest, noLiteral, noSpace, noPoint, noBracket⟩ := ofCloser c closes
  obtain ⟨tokens, cut, noText⟩ := exists_codeTokens? noQuote
  have noArrow : blank ≠ '>' := by
    rintro rfl
    cases space
  refine of_tokens (fun rest => ?_) (Quiet.of_no_text noText c noBracket)
  have apart : Apart front (c :: blank :: rest) := by
    intro last _ next same
    cases same
    exact ⟨fun _ => noRest, fun _ => noPoint⟩
  have mark : codeToken? (c :: blank :: rest) = some (.mark c, blank :: rest) :=
    codeToken?_mark noStart noLiteral noSpace (Or.inr (by simpa using noArrow))
  have behind : codeTokens? (c :: blank :: rest) =
      (codeTokens? rest).map fun behind => .mark c :: behind := by
    rw [codeTokens?_of_token mark, codeTokens?_of_none (codeToken?_space space rest), if_pos space]
  have split : front ++ [c, blank] ++ rest = front ++ c :: blank :: rest := by simp
  rw [split, codeTokens?_append cut apart, behind, Option.map_map]
  simp [Function.comp_def]

/-- Code without quotes. -/
def Unquoted (text : String) : Prop :=
  '"' ∉ text.toList

instance (text : String) : Decidable (Unquoted text) :=
  inferInstanceAs (Decidable ('"' ∉ text.toList))

theorem Unquoted.append {front back : String} (first : Unquoted front) (second : Unquoted back) :
    Unquoted (front ++ back) := by
  rw [Unquoted, String.toList_append, List.mem_append, not_or]
  exact ⟨first, second⟩

theorem unquoted_of_isIdentifier {name : String} (identifier : isIdentifier name = true) :
    Unquoted name := by
  rw [isIdentifier] at identifier
  split at identifier
  · cases identifier
  · rename_i first others split
    obtain ⟨starts, goesOn⟩ := Bool.and_eq_true_iff.mp identifier
    rw [Unquoted, split, List.mem_cons, not_or]
    constructor
    · rintro rfl
      cases starts
    · intro quote
      cases List.all_eq_true.mp goesOn _ quote

/-- Code without quotes that ends in a mark behind which nothing is imported. -/
structure Plain (text : String) : Prop where
  unquoted : Unquoted text
  closes : text.toList.getLast?.any closers.contains = true

instance (text : String) : Decidable (Plain text) :=
  decidable_of_iff (Unquoted text ∧ text.toList.getLast?.any closers.contains = true)
    ⟨fun ⟨unquoted, closes⟩ => ⟨unquoted, closes⟩, fun ⟨unquoted, closes⟩ => ⟨unquoted, closes⟩⟩

theorem Plain.exists_last {text : String} (plain : Plain text) :
    ∃ front, ∃ c ∈ closers, text.toList = front ++ [c] := by
  obtain ⟨c, last, closes⟩ := (Option.any_eq_true _ _).mp plain.closes
  obtain ⟨front, split⟩ := List.getLast?_eq_some_iff.mp last
  exact ⟨front, c, List.contains_iff_mem.mp closes, split⟩

theorem Plain.prepend {front back : String} (first : Unquoted front) (second : Plain back) :
    Plain (front ++ back) := by
  refine ⟨first.append second.unquoted, ?_⟩
  obtain ⟨before, c, closes, split⟩ := second.exists_last
  rw [String.toList_append, split, ← List.append_assoc, List.getLast?_concat, Option.any_some]
  exact List.contains_iff_mem.mpr closes

theorem Plain.refers {text : String} (plain : Plain text) {blank : Char}
    (space : isSpace blank = true) : Refers (text.toList ++ [blank]) [] := by
  obtain ⟨front, c, closes, split⟩ := plain.exists_last
  have unquoted := plain.unquoted
  rw [Unquoted, split, List.mem_append, not_or] at unquoted
  rw [split, List.append_assoc]
  exact Refers.plain unquoted.1 closes space

end Phrasebook.Script
