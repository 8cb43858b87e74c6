import Phrasebook.Proofs.Script.Token
import Phrasebook.Proofs.Script.Tidy
import Phrasebook.Script.Specifier

/-!
# How whole code is cut into tokens

What is cut into tokens keeps them when something is put behind it, unless the last token goes
on there. So code can be cut piece by piece: pieces that are read as expressions have the same
tokens, and pieces without quotes are always cut, into no literals.
-/

namespace Phrasebook.Script

open Text

/-! ## The first token -/

/-- Whether no token goes on from the end of one text into the other. -/
def Apart (text rest : List Char) : Prop :=
  ∀ last ∈ text.getLast?, ∀ next ∈ rest.head?,
    (isNameRest last = true → isNameRest next = false) ∧ (last = '=' → next ≠ '>')

/-- Whether a text that was read goes on as it did, or with something that is apart from it. -/
def GoesOn (read after rest : List Char) : Prop :=
  rest.head? = after.head? ∨ Apart read rest

theorem apart_nil (rest : List Char) : Apart [] rest :=
  nofun

theorem Apart.tail {c : Char} {text rest : List Char} (apart : Apart (c :: text) rest) :
    Apart text rest := by
  cases text with
  | nil => exact apart_nil rest
  | cons second others => simpa [Apart, List.getLast?_cons_cons] using apart

theorem Apart.right {front text rest : List Char} (apart : Apart (front ++ text) rest) :
    Apart text rest := by
  induction front with
  | nil => exact apart
  | cons c front ih => exact ih apart.tail

/-- A name ends where its text is apart from the rest. -/
theorem Apart.ends {text rest : List Char} (apart : Apart text rest) (present : text ≠ [])
    (named : text.all isNameRest = true) : ∀ next ∈ rest.head?, isNameRest next = false := by
  intro next first
  obtain ⟨last, atEnd⟩ := Option.isSome_iff_exists.mp (List.getLast?_isSome.mpr present)
  have inName := List.all_eq_true.mp named last (List.mem_of_getLast? atEnd)
  exact (apart last atEnd next first).1 inName

/-- Nothing goes on a text that ends in a mark or a blank, unless it is the start of an arrow. -/
theorem apart_concat {front : List Char} {last : Char} (ends : isNameRest last = false)
    (noArrow : last ≠ '=') (rest : List Char) : Apart (front ++ [last]) rest := by
  intro c same next _
  rw [List.getLast?_concat] at same
  cases same
  exact ⟨fun named => absurd (ends.symm.trans named) Bool.false_ne_true,
    fun equals => absurd equals noArrow⟩

/-- The token at the front of a text is read alike however the text goes on. -/
theorem token?_eq_some {text after : List Char} {token : Token}
    (found : token? text = some (token, after)) :
    ∃ read, text = read ++ after ∧
      ∀ rest, GoesOn read after rest → token? (read ++ rest) = some (token, rest) := by
  cases text with
  | nil => cases found
  | cons c text =>
      rw [token?] at found
      split at found
      · rename_i quote
        obtain ⟨⟨value, behind⟩, inside, same⟩ := Option.map_eq_some_iff.mp found
        cases same
        obtain ⟨read, rfl, again⟩ := Quoted.inside?_eq_some inside
        refine ⟨c :: (read ++ ['"']), by simp, fun rest _ => ?_⟩
        rw [List.cons_append, List.append_assoc, List.singleton_append, token?, if_pos quote, again]
        rfl
      · split at found
        · rename_i starts
          cases found
          have named : (text.takeWhile isNameRest).all isNameRest = true := List.all_takeWhile
          refine ⟨c :: text.takeWhile isNameRest, ?_, fun rest goesOn => ?_⟩
          · rw [List.cons_append, List.takeWhile_append_dropWhile]
          · refine token?_name starts named ?_
            rcases goesOn with same | apart
            · intro next first
              have stops := List.head?_dropWhile_not isNameRest text
              rw [← same, first] at stops
              simpa using stops
            · refine apart.ends (List.cons_ne_nil _ _) ?_
              rw [List.all_cons, named, isNameRest_of_isNameStart starts]
              rfl
        · split at found
          · rename_i isMark
            cases found
            exact ⟨[c], rfl, fun rest _ => token?_mark (by simpa using isMark) rest⟩
          · split at found
            · rename_i arrow
              obtain ⟨equals, points⟩ := Bool.and_eq_true_iff.mp arrow
              obtain ⟨behind, rfl⟩ := List.head?_eq_some_iff.mp (of_decide_eq_true points)
              cases found
              cases of_decide_eq_true equals
              exact ⟨['=', '>'], rfl, fun rest _ => token?_arrow rest⟩
            · cases found

/-- A character that is no token by itself is none either way a text goes on. -/
theorem token?_eq_none {c : Char} {after rest : List Char} (noQuote : c ≠ '"')
    (found : token? (c :: after) = none) (goesOn : GoesOn [c] after rest) :
    token? (c :: rest) = none := by
  rw [token?, if_neg noQuote] at found ⊢
  split at found
  · cases found
  · rename_i noName
    rw [if_neg noName]
    split at found
    · cases found
    · rename_i noMark
      rw [if_neg noMark]
      split at found
      · cases found
      · rename_i noArrow
        refine if_neg fun arrow => noArrow ?_
        rw [Bool.and_eq_true, decide_eq_true_eq, decide_eq_true_eq] at arrow ⊢
        obtain ⟨rfl, points⟩ := arrow
        rcases goesOn with same | apart
        · exact ⟨rfl, same.symm.trans points⟩
        · exact absurd rfl ((apart '=' rfl '>' points).2 rfl)

theorem codeToken?_eq_some {text after : List Char} {token : Token}
    (found : codeToken? text = some (token, after)) :
    ∃ read, text = read ++ after ∧
      ∀ rest, GoesOn read after rest → codeToken? (read ++ rest) = some (token, rest) := by
  rw [codeToken?, Option.or_eq_some_iff] at found
  rcases found with first | ⟨none, mark⟩
  · obtain ⟨read, rfl, again⟩ := token?_eq_some first
    refine ⟨read, rfl, fun rest goesOn => ?_⟩
    rw [codeToken?, again rest goesOn, Option.some_or]
  · cases text with
    | nil => cases mark
    | cons c text =>
        rw [anyMark?] at mark
        split at mark
        · cases mark
        · rename_i plain
          cases mark
          refine ⟨[c], rfl, fun rest goesOn => ?_⟩
          have noQuote : c ≠ '"' := fun quote => plain (by simp [quote])
          rw [List.singleton_append, codeToken?, token?_eq_none noQuote none goesOn, Option.none_or,
            anyMark?, if_neg plain]

theorem codeToken?_space {c : Char} (space : isSpace c = true) (rest : List Char) :
    codeToken? (c :: rest) = none := by
  rw [codeToken?, token?_space space, Option.none_or, anyMark?, space]
  rfl

/-! ## All tokens -/

/-- The tokens of a text stay the same when something is put behind it that is apart from it. -/
theorem codeTokens?_append {text rest : List Char} {tokens : List Token}
    (found : codeTokens? text = some tokens) (apart : Apart text rest) :
    codeTokens? (text ++ rest) = (codeTokens? rest).map fun behind => tokens ++ behind := by
  induction text using codeTokens?.induct generalizing tokens with
  | case1 text token after first ih =>
      rw [codeTokens?_of_token first] at found
      obtain ⟨others, later, rfl⟩ := Option.map_eq_some_iff.mp found
      obtain ⟨read, rfl, again⟩ := codeToken?_eq_some first
      have goesOn : GoesOn read after (after ++ rest) := by
        cases after with
        | nil =>
            rw [List.append_nil] at apart
            exact Or.inr apart
        | cons next behind => exact Or.inl rfl
      rw [List.append_assoc, codeTokens?_of_token (again _ goesOn), ih later apart.right,
        Option.map_map]
      rfl
  | case2 none =>
      rw [codeTokens?_nil] at found
      cases found
      exact (Option.map_id' ..).symm
  | case3 c text none space ih =>
      rw [codeTokens?_of_none none, if_pos space] at found
      rw [List.cons_append, codeTokens?_of_none (codeToken?_space space _), if_pos space,
        ih found apart.tail]
  | case4 c text none noSpace =>
      rw [codeTokens?_of_none none, if_neg noSpace] at found
      cases found

/-- What consists of the tokens of an expression has these tokens in any code. -/
theorem codeTokens?_of_tokens? {text : List Char} {tokens : List Token}
    (found : tokens? text = some tokens) : codeTokens? text = some tokens := by
  induction text using tokens?.induct generalizing tokens with
  | case1 text token after first ih =>
      rw [tokens?_of_token first] at found
      obtain ⟨others, later, rfl⟩ := Option.map_eq_some_iff.mp found
      have firstOfCode : codeToken? text = some (token, after) := by
        rw [codeToken?, first, Option.some_or]
      rw [codeTokens?_of_token firstOfCode, ih later]
      rfl
  | case2 none =>
      rw [tokens?_nil] at found
      rw [codeTokens?_nil, found]
  | case3 c text none space ih =>
      rw [tokens?_of_space none space] at found
      rw [codeTokens?_of_none (codeToken?_space space _), if_pos space, ih found]
  | case4 c text none noSpace =>
      rw [tokens?_of_none none, if_neg noSpace] at found
      cases found

/-! ## Code without literals -/

/-- Only a quote opens a literal. -/
theorem codeToken?_text {c : Char} {rest after : List Char} {value : String}
    (found : codeToken? (c :: rest) = some (.text value, after)) : c = '"' := by
  rw [codeToken?, Option.or_eq_some_iff] at found
  rcases found with first | ⟨_, mark⟩
  · rw [token?] at first
    split at first
    · assumption
    · split at first
      · cases first
      · split at first
        · cases first
        · split at first
          · cases first
          · cases first
  · rw [anyMark?] at mark
    split at mark
    · cases mark
    · cases mark

/-- Without quotes every text is cut, and into no literals. -/
theorem exists_codeTokens? {text : List Char} (noQuote : '"' ∉ text) :
    ∃ tokens, codeTokens? text = some tokens ∧ ∀ value, .text value ∉ tokens := by
  induction text using codeTokens?.induct with
  | case1 text token after first ih =>
      obtain ⟨read, rest, _⟩ := codeToken?_eq_some first
      obtain ⟨tokens, later, noText⟩ := ih fun quote =>
        noQuote (rest ▸ List.mem_append_right read quote)
      refine ⟨token :: tokens, by rw [codeTokens?_of_token first, later, Option.map_some], ?_⟩
      intro value member
      rcases List.mem_cons.mp member with rfl | other
      · cases text with
        | nil => cases first
        | cons c text => exact noQuote (codeToken?_text first ▸ List.mem_cons_self)
      · exact noText value other
  | case2 none => exact ⟨[], codeTokens?_nil, nofun⟩
  | case3 c text none space ih =>
      rw [List.mem_cons, not_or] at noQuote
      rw [codeTokens?_of_none none, if_pos space]
      exact ih noQuote.2
  | case4 c text none noSpace =>
      rw [List.mem_cons, not_or] at noQuote
      have plain : ¬(isSpace c || decide (c = '"')) = true := by
        simpa [noSpace] using Ne.symm noQuote.1
      rw [codeToken?, Option.or_eq_none_iff, anyMark?, if_neg plain] at none
      cases none.2

theorem codeToken?_mark {c : Char} {rest : List Char} (noName : isNameStart c = false)
    (noQuote : c ≠ '"') (noSpace : isSpace c = false) (noArrow : c ≠ '=' ∨ rest.head? ≠ some '>') :
    codeToken? (c :: rest) = some (.mark c, rest) := by
  have noneElse : ¬(c = '=' ∧ rest.head? = some '>') := by
    rintro ⟨equals, points⟩
    exact noArrow.elim (fun other => other equals) fun other => other points
  rw [codeToken?, token?, if_neg noQuote, if_neg (by simp [noName])]
  split
  · rfl
  · rw [if_neg (by simpa using noneElse), Option.none_or, anyMark?,
      if_neg (by simp [noSpace, noQuote])]

end Phrasebook.Script
