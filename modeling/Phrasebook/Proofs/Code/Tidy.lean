import Phrasebook.Code.Fragment
import Phrasebook.Text.Lines
import Phrasebook.Text.Quoted

/-!
# Tidy code

Laid out code is cut at its line feeds, so a text that held one would be two lines, the second
without its margin. Tidy code has no such text: each of them stays on its line, and opens with
something that is no blank, so that the margin of a line can be told from its text. Then the lines
of the laid out text are the lines that were laid out, whatever the indentation.
-/

namespace Phrasebook

namespace Text

/-- Whether a character cannot break a line: it is no control character and no line separator. -/
def staysInline (c : Char) : Bool :=
  !(isControl c || c = '\u2028' || c = '\u2029')

/-- A text on one line. -/
def OneLine (text : String) : Prop :=
  text.toList.all staysInline = true

instance (text : String) : Decidable (OneLine text) :=
  inferInstanceAs (Decidable (_ = true))

theorem oneLine_append {front back : String} :
    OneLine (front ++ back) ↔ OneLine front ∧ OneLine back := by
  rw [OneLine, String.toList_append, List.all_append, Bool.and_eq_true]
  rfl

theorem OneLine.append {front back : String} (first : OneLine front) (second : OneLine back) :
    OneLine (front ++ back) :=
  oneLine_append.mpr ⟨first, second⟩

theorem OneLine.intercalate {separator : String} (between : OneLine separator) {texts : List String}
    (each : ∀ text ∈ texts, OneLine text) : OneLine (separator.intercalate texts) := by
  induction texts with
  | nil => rfl
  | cons first rest ih =>
      have here := each first List.mem_cons_self
      cases rest with
      | nil =>
          rw [String.intercalate_singleton]
          exact here
      | cons second rest =>
          rw [String.intercalate_cons_cons]
          exact (here.append between).append
            (ih fun text member => each text (List.mem_cons_of_mem _ member))

/-- Whether a character ends no line. -/
abbrev IsInside (c : Char) : Prop :=
  c ≠ '\n' ∧ c ≠ '\r'

theorem isInside_of_staysInline {c : Char} (inline : staysInline c = true) :
    IsInside c := by
  constructor
  · rintro rfl
    revert inline
    decide
  · rintro rfl
    revert inline
    decide

/-- Up to its line feed, a text without other line ends is a line. -/
theorem splitLines_line {line rest : List Char} (inside : ∀ c ∈ line, IsInside c) :
    splitLines (line ++ '\n' :: rest) = line :: splitLines rest := by
  induction line with
  | nil => rw [List.nil_append, splitLines, if_pos rfl]
  | cons c line ih =>
      obtain ⟨noFeed, noReturn⟩ := inside c List.mem_cons_self
      rw [List.cons_append, splitLines, if_neg noFeed, if_neg fun both => noReturn both.1,
        ih fun other member => inside other (List.mem_cons_of_mem _ member)]

/-! ## Quoted texts -/

theorem staysInline_hexDigit {n : Nat} (small : n < 16) : staysInline (hexDigit n) = true := by
  have digits : ∀ digit : Fin 16, staysInline (hexDigit digit) = true := by decide
  exact digits ⟨n, small⟩

/-- Whatever a character is, what stands for it in a literal stays inline. -/
theorem Quoted.escape_staysInline (c : Char) : (escape c).all staysInline = true := by
  by_cases quote : c = '"'
  · subst quote
    decide
  by_cases backslash : c = '\\'
  · subst backslash
    decide
  by_cases newline : c = '\n'
  · subst newline
    decide
  by_cases back : c = '\r'
  · subst back
    decide
  by_cases tab : c = '\t'
  · subst tab
    decide
  rw [escape, if_neg quote, if_neg backslash, if_neg newline, if_neg back, if_neg tab]
  by_cases coded : (isControl c || c = '\u2028' || c = '\u2029') = true
  · have digit (n : Nat) : staysInline (hexDigit (n % 16)) = true :=
      staysInline_hexDigit (Nat.mod_lt n (by decide))
    have front : staysInline '\\' = true ∧ staysInline 'u' = true := by decide
    rw [if_pos coded]
    simp only [hexFour, List.all_cons, List.all_nil, digit, front, Bool.and_self]
  · rw [if_neg coded, List.all_cons, List.all_nil, Bool.and_true, staysInline,
      Bool.not_eq_true', Bool.eq_false_iff]
    exact coded

/-- The literal of a text is on one line, whatever the text holds. -/
theorem OneLine.encode (text : String) : OneLine (Quoted.encode text) := by
  have inside : (text.toList.flatMap Quoted.escape).all staysInline = true := by
    rw [List.all_flatMap, List.all_eq_true]
    exact fun c _ => Quoted.escape_staysInline c
  have quote : staysInline '"' = true := by decide
  rw [OneLine, Quoted.toList_encode, Quoted.encodeChars, List.all_cons, List.all_append, inside]
  simp only [List.all_cons, List.all_nil, quote, Bool.and_self]

end Text

namespace Code

open Text

/-- Whether a character is no part of a margin. -/
def isInk (c : Char) : Bool :=
  c ≠ ' ' && c ≠ '\t'

/-- A text that can stand behind the margin of a line: it is on one line, and opens with something
that is neither a space nor a tab. -/
structure Tidy (text : String) : Prop where
  oneLine : OneLine text
  opens : text.toList.head?.any isInk = true

theorem tidy_iff {text : String} :
    OneLine text ∧ text.toList.head?.any isInk = true ↔ Tidy text :=
  ⟨fun ⟨oneLine, opens⟩ => ⟨oneLine, opens⟩, fun tidy => ⟨tidy.oneLine, tidy.opens⟩⟩

instance (text : String) : Decidable (Tidy text) :=
  decidable_of_iff _ tidy_iff

/-- What stands behind a tidy text need only stay on the line. -/
theorem Tidy.append {front back : String} (tidy : Tidy front) (oneLine : OneLine back) :
    Tidy (front ++ back) where
  oneLine := tidy.oneLine.append oneLine
  opens := by
    obtain ⟨c, isHead, ink⟩ := (Option.any_eq_true _ _).mp tidy.opens
    rw [String.toList_append, List.head?_append, isHead]
    exact ink

theorem Tidy.encode (text : String) : Tidy (Quoted.encode text) where
  oneLine := .encode text
  opens := by
    rw [Quoted.toList_encode]
    rfl

namespace Fragment

/-- All texts of a fragment are tidy. -/
inductive IsTidy : Fragment → Prop where
  | line {text : String} (tidy : Tidy text) : IsTidy (.line text)
  | blank : IsTidy .blank
  | block {header : String} {body : List Fragment} {close : Option String} (opens : Tidy header)
      (inner : ∀ fragment ∈ body, IsTidy fragment) (closes : ∀ text ∈ close, Tidy text) :
      IsTidy (.block header body close)

/-- A tidy text at the front keeps a fragment tidy. -/
theorem IsTidy.prepend {fragment : Fragment} (tidy : fragment.IsTidy) {text : String}
    (front : Tidy text) : (fragment.prepend text).IsTidy := by
  cases tidy with
  | line tidy => exact .line (front.append tidy.oneLine)
  | blank => exact .line front
  | block opens inner closes => exact .block (front.append opens.oneLine) inner closes

mutual

/-- A text at the end that stays on the line keeps a fragment tidy. -/
theorem append_isTidy {text : String} (back : OneLine text) :
    ∀ {fragment : Fragment}, fragment.IsTidy → (fragment.append text).IsTidy
  | .line _, .line tidy => .line (tidy.append back)
  | .blank, .blank => .blank
  | .block _ _ (some close), .block opens inner closes =>
      .block opens inner fun _ isClose => by
        cases isClose
        exact (closes close rfl).append back
  | .block _ _ none, .block opens inner _ =>
      .block opens (appendToLast_isTidy back inner) nofun

theorem appendToLast_isTidy {text : String} (back : OneLine text) :
    ∀ {body : List Fragment}, (∀ fragment ∈ body, fragment.IsTidy) →
      ∀ fragment ∈ appendToLast text body, fragment.IsTidy
  | [], _ => nofun
  | [last], each => by
      rw [appendToLast, List.forall_mem_singleton]
      exact append_isTidy back (each last List.mem_cons_self)
  | first :: second :: rest, each => by
      rw [List.forall_mem_cons] at each
      rw [appendToLast, List.forall_mem_cons]
      exact ⟨each.1, appendToLast_isTidy back each.2⟩

end

/-- A text between the one that is put at the front and the one that is put at the end. -/
theorem IsTidy.between {fragment : Fragment} (tidy : fragment.IsTidy) {front back : String}
    (before : Tidy front) (behind : OneLine back) :
    ((fragment.prepend front).append back).IsTidy :=
  append_isTidy behind (tidy.prepend before)

end Fragment

/-! ## Lines -/

/-- A line with a tidy text, or an empty line, which has no margin. -/
def Line.IsTidy (line : Line) : Prop :=
  Tidy line.text ∨ line = emptyLine

mutual

/-- Tidy fragments are laid out in tidy lines. -/
theorem Fragment.lines_isTidy :
    ∀ {fragment : Fragment}, fragment.IsTidy → ∀ depth, ∀ line ∈ fragment.lines depth, line.IsTidy
  | .line _, .line tidy, depth => by
      rw [lines, List.forall_mem_singleton]
      exact Or.inl tidy
  | .blank, .blank, depth => by
      rw [lines, List.forall_mem_singleton]
      exact Or.inr rfl
  | .block _ _ none, .block opens inner _, depth => by
      rw [lines, List.append_nil, List.forall_mem_cons]
      exact ⟨Or.inl opens, linesOfAll_isTidy inner (depth + 1)⟩
  | .block _ _ (some close), .block opens inner closes, depth => by
      rw [lines, List.cons_append, List.forall_mem_cons, List.forall_mem_append,
        List.forall_mem_singleton]
      exact ⟨Or.inl opens, linesOfAll_isTidy inner (depth + 1), Or.inl (closes close rfl)⟩

theorem Fragment.linesOfAll_isTidy :
    ∀ {fragments : List Fragment}, (∀ fragment ∈ fragments, fragment.IsTidy) →
      ∀ depth, ∀ line ∈ linesOfAll depth fragments, line.IsTidy
  | [], _, _ => nofun
  | first :: rest, each, depth => by
      rw [List.forall_mem_cons] at each
      rw [linesOfAll, List.forall_mem_append]
      exact ⟨lines_isTidy each.1 depth, linesOfAll_isTidy each.2 depth⟩

end

/-- The margin of a depth: so many levels of indentation. -/
def margin (indent : Indent) (depth : Nat) : List Char :=
  (List.replicate depth indent.unit.toList).flatten

theorem isInside_margin (indent : Indent) (depth : Nat) : ∀ c ∈ margin indent depth, IsInside c := by
  have level : (indent.unit.toList.all fun c => c ≠ '\n' && c ≠ '\r') = true := by
    unfold Indent.unit
    split
    · decide
    · decide
    · decide
    · decide
  intro c member
  obtain ⟨copy, isCopy, inside⟩ := List.mem_flatten.mp member
  rw [List.eq_of_mem_replicate isCopy] at inside
  simpa using List.all_eq_true.mp level c inside

/-- The text of a line is its margin, its text and a line feed. -/
theorem toList_lineRender (indent : Indent) (line : Line) :
    (line.render indent).toList = margin indent line.depth ++ line.text.toList ++ ['\n'] := by
  have levels : (String.join (List.replicate line.depth indent.unit)).toList =
      margin indent line.depth := by
    rw [String.toList_join, margin, List.flatMap_def, List.map_replicate]
  rw [Line.render, String.toList_append, String.toList_append, levels]
  rfl

theorem isInside_of_isTidy {line : Line} (tidy : line.IsTidy) :
    ∀ c ∈ line.text.toList, IsInside c := by
  rcases tidy with tidy | rfl
  · exact fun c member => isInside_of_staysInline (List.all_eq_true.mp tidy.oneLine c member)
  · nofun

/-- The lines of a laid out text are the lines that were laid out. -/
theorem splitLines_render (indent : Indent) {lines : List Line} (tidy : ∀ line ∈ lines, line.IsTidy) :
    splitLines (render indent lines).toList =
      lines.map fun line => margin indent line.depth ++ line.text.toList := by
  induction lines with
  | nil => rfl
  | cons line rest ih =>
      rw [List.forall_mem_cons] at tidy
      have inside : ∀ c ∈ margin indent line.depth ++ line.text.toList, IsInside c := by
        rw [List.forall_mem_append]
        exact ⟨isInside_margin indent line.depth, isInside_of_isTidy tidy.1⟩
      have text : (render indent (line :: rest)).toList =
          margin indent line.depth ++ line.text.toList ++ '\n' :: (render indent rest).toList := by
        rw [render, List.map_cons, String.join_cons, String.toList_append, toList_lineRender,
          List.append_assoc]
        rfl
      rw [text, splitLines_line inside, ih tidy.2, List.map_cons]

/-- Two texts of the same code, with different indentation. Each laid out line is one line of either
text: as many levels of its indentation, and behind them the same text, which opens with no blank
and breaks no line. An empty line has no margin and no text. -/
structure SameCode (indent other : Indent) (lines : List Line) (text otherText : String) : Prop where
  here : splitLines text.toList = lines.map fun line => margin indent line.depth ++ line.text.toList
  there : splitLines otherText.toList = lines.map fun line => margin other line.depth ++ line.text.toList
  tidy : ∀ line ∈ lines, line.IsTidy

/-- Lines that are laid out twice are the same code. -/
theorem sameCode_render (indent other : Indent) {lines : List Line}
    (tidy : ∀ line ∈ lines, line.IsTidy) :
    SameCode indent other lines (render indent lines) (render other lines) where
  here := splitLines_render indent tidy
  there := splitLines_render other tidy
  tidy := tidy

end Code

end Phrasebook
