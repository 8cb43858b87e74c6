import Mathlib.Data.List.TakeWhile
import Phrasebook.Proofs.Manifest.Occurrence
import Phrasebook.Proofs.Text.Slice

/-!
# Searches in the text of a manifest

The search for a setting goes through the lines of the text, and the search for a value looks for it
between quotes. Each gives the first place there is as a span. What the text has there is the key of
the setting, or the value.
-/

namespace Phrasebook.Manifest

open Text (Span byteSize byteSize_cons byteSize_append isBlank trimStart slice?_eq_some_iff)

/-! ## Values -/

/-- A value stands between two quotes of a kind, behind a front of the text. -/
def IsQuotedBehind (quote : Char) (value text : List Char) : List Char → Prop :=
  OccursBehind (quote :: value ++ [quote]) text

/-- The quotes that the search knows have one byte each, so the value starts right behind its
quote. -/
theorem quotedSpan?_cases (quote : Char) (narrow : quote.utf8Size = 1) (value text : List Char) :
    (∃ front, IsFirst (IsQuotedBehind quote value text) front ∧
        quotedSpan? text value quote = some ⟨byteSize (front ++ [quote]), byteSize value⟩) ∨
      (∀ front, ¬ IsQuotedBehind quote value text front) ∧ quotedSpan? text value quote = none := by
  unfold quotedSpan?
  rcases find?_cases (quote :: value ++ [quote]) text 0 with ⟨front, first, found⟩ | ⟨nowhere, found⟩
  · refine Or.inl ⟨front, first, ?_⟩
    rw [found, Option.map_some, Nat.zero_add, byteSize_append, byteSize_cons, narrow]
    rfl
  · exact Or.inr ⟨nowhere, by rw [found, Option.map_none]⟩

theorem IsQuotedBehind.slice?_eq {quote : Char} {value text front : List Char}
    (there : IsQuotedBehind quote value text front) :
    Span.slice? text ⟨byteSize (front ++ [quote]), byteSize value⟩ = some value := by
  obtain ⟨back, rfl⟩ := there
  exact slice?_eq_some_iff.mpr ⟨front ++ [quote], quote :: back, by simp, rfl⟩

/-- The place of a value: the first one between double quotes, or else between single ones. -/
def IsValuePlace (value text : List Char) (span : Span) : Prop :=
  (∃ front, IsFirst (IsQuotedBehind '"' value text) front ∧
      span = ⟨byteSize (front ++ ['"']), byteSize value⟩) ∨
    (∀ front, ¬ IsQuotedBehind '"' value text front) ∧
      ∃ front, IsFirst (IsQuotedBehind '\'' value text) front ∧
        span = ⟨byteSize (front ++ ['\'']), byteSize value⟩

theorem IsValuePlace.slice?_eq {value text : List Char} {span : Span}
    (place : IsValuePlace value text span) : span.slice? text = some value := by
  rcases place with ⟨front, first, rfl⟩ | ⟨_, front, first, rfl⟩
  · exact first.1.slice?_eq
  · exact first.1.slice?_eq

theorem IsValuePlace.exists_quoted {value text : List Char} {span : Span}
    (place : IsValuePlace value text span) :
    ∃ front, IsQuotedBehind '"' value text front ∨ IsQuotedBehind '\'' value text front := by
  rcases place with ⟨front, first, _⟩ | ⟨_, front, first, _⟩
  · exact ⟨front, Or.inl first.1⟩
  · exact ⟨front, Or.inr first.1⟩

/-- The search for a value gives its place, or the value stands between no quotes. -/
theorem valueSpan?_cases (text value : String) :
    (∃ span, valueSpan? text value = some span ∧ IsValuePlace value.toList text.toList span) ∨
      (∀ front, ¬ IsQuotedBehind '"' value.toList text.toList front) ∧
        (∀ front, ¬ IsQuotedBehind '\'' value.toList text.toList front) ∧
        valueSpan? text value = none := by
  unfold valueSpan?
  rcases quotedSpan?_cases '"' rfl value.toList text.toList with
    ⟨front, first, found⟩ | ⟨noDouble, found⟩
  · exact Or.inl ⟨_, by rw [found, Option.some_or], Or.inl ⟨front, first, rfl⟩⟩
  · rw [found, Option.none_or]
    rcases quotedSpan?_cases '\'' rfl value.toList text.toList with
      ⟨front, first, found⟩ | ⟨noSingle, found⟩
    · exact Or.inl ⟨_, found, Or.inr ⟨noDouble, front, first, rfl⟩⟩
    · exact Or.inr ⟨noDouble, noSingle, found⟩

/-! ## Lines -/

theorem linesWithEnds_line {line : List Char} (inside : '\n' ∉ line) (text : List Char) :
    linesWithEnds (line ++ '\n' :: text) = (line ++ ['\n']) :: linesWithEnds text := by
  induction line with
  | nil => rw [List.nil_append, linesWithEnds, if_pos rfl, List.nil_append]
  | cons c line ih =>
      rw [List.mem_cons, not_or] at inside
      rw [List.cons_append, linesWithEnds, if_neg (Ne.symm inside.1), ih inside.2, List.cons_append]

/-- What stands before the first line feed, and what stands behind it. -/
theorem line_unique {line other : List Char} (inside : '\n' ∉ line) (within : '\n' ∉ other)
    {text rest : List Char} (same : line ++ '\n' :: text = other ++ '\n' :: rest) :
    line = other ∧ text = rest := by
  have lines := congrArg linesWithEnds same
  rw [linesWithEnds_line inside, linesWithEnds_line within] at lines
  obtain rfl := List.append_cancel_right (List.cons.inj lines).1
  exact ⟨rfl, (List.cons.inj (List.append_cancel_left same)).2⟩

/-- A line of a text and the front of the text before it. A line ends at a line feed, which is not
counted as a part of it, or at the end of the text. -/
structure IsLine (text front line : List Char) : Prop where
  starts : front = [] ∨ front.getLast? = some '\n'
  inside : '\n' ∉ line
  ends : ∃ back, text = front ++ (line ++ back) ∧ (back = [] ∨ back.head? = some '\n')

/-- The first line of a text that has more than one. -/
theorem isLine_nil_iff {first : List Char} (inside : '\n' ∉ first) {text line : List Char} :
    IsLine (first ++ '\n' :: text) [] line ↔ line = first := by
  constructor
  · rintro ⟨_, within, back, whole, ends⟩
    rw [List.nil_append] at whole
    rcases ends with rfl | feed
    · rw [List.append_nil] at whole
      exact absurd (whole ▸ List.mem_append_right first List.mem_cons_self) within
    · obtain ⟨rest, rfl⟩ := List.head?_eq_some_iff.mp feed
      exact (line_unique inside within whole).1.symm
  · rintro rfl
    exact ⟨Or.inl rfl, inside, '\n' :: text, rfl, Or.inr rfl⟩

/-- The further lines of a text are the lines of what is behind its first line feed. -/
theorem isLine_line_iff {first : List Char} (inside : '\n' ∉ first) {text front line : List Char} :
    IsLine (first ++ '\n' :: text) front line ↔
      front = [] ∧ line = first ∨
        ∃ more, front = (first ++ ['\n']) ++ more ∧ IsLine text more line := by
  constructor
  · intro isLine
    rcases isLine.starts with rfl | feed
    · exact Or.inl ⟨rfl, (isLine_nil_iff inside).mp isLine⟩
    -- The first line feed of the front is the one that ends the first line.
    · right
      obtain ⟨other, more, rfl, without⟩ :=
        List.eq_append_cons_of_mem (List.mem_of_getLast? feed)
      obtain ⟨back, whole, ends⟩ := isLine.ends
      rw [List.append_assoc, List.cons_append] at whole
      obtain ⟨rfl, rest⟩ := line_unique inside without whole
      refine ⟨more, by simp, ?_, isLine.inside, back, rest, ends⟩
      rw [List.getLast?_append, List.getLast?_cons] at feed
      cases ending : more.getLast? with
      | none => exact Or.inl (List.getLast?_eq_none_iff.mp ending)
      | some c =>
          rw [ending] at feed
          exact Or.inr feed
  · rintro (⟨rfl, rfl⟩ | ⟨more, rfl, isLine⟩)
    · exact (isLine_nil_iff inside).mpr rfl
    · obtain ⟨starts, within, back, rfl, ends⟩ := isLine
      refine ⟨Or.inr ?_, within, back, by simp, ends⟩
      rcases starts with rfl | feed
      · simp
      · rw [List.getLast?_append, feed, Option.some_or]

/-- A text without a line feed is one line. -/
theorem isLine_last_iff {last : List Char} (inside : '\n' ∉ last) {front line : List Char} :
    IsLine last front line ↔ front = [] ∧ line = last := by
  constructor
  · rintro ⟨starts, within, back, rfl, ends⟩
    rw [List.mem_append, List.mem_append, not_or, not_or] at inside
    obtain rfl : front = [] :=
      starts.resolve_right fun feed => inside.1 (List.mem_of_getLast? feed)
    obtain rfl : back = [] := ends.resolve_right fun feed => inside.2.2 (List.mem_of_head? feed)
    exact ⟨rfl, by simp⟩
  · rintro ⟨rfl, rfl⟩
    exact ⟨Or.inl rfl, inside, [], by simp, Or.inl rfl⟩

/-- Texts are taken apart line by line. -/
@[elab_as_elim]
theorem line_induction {motive : List Char → Prop}
    (last : ∀ line, '\n' ∉ line → motive line)
    (more : ∀ line text, '\n' ∉ line → motive text → motive (line ++ '\n' :: text))
    (text : List Char) : motive text := by
  induction size : text.length using Nat.strong_induction_on generalizing text with
  | h bound ih =>
      by_cases feed : '\n' ∈ text
      · obtain ⟨line, rest, rfl, inside⟩ := List.eq_append_cons_of_mem feed
        refine more line rest inside (ih rest.length ?_ rest rfl)
        rw [← size, List.length_append, List.length_cons]
        omega
      · exact last text feed

theorem linesWithEnds_last {c : Char} {line : List Char} (inside : '\n' ∉ c :: line) :
    linesWithEnds (c :: line) = [c :: line] := by
  induction line generalizing c with
  | nil => rw [linesWithEnds, if_neg (Ne.symm (List.ne_of_not_mem_cons inside)), linesWithEnds]
  | cons d line ih =>
      rw [List.mem_cons, not_or] at inside
      rw [linesWithEnds, if_neg (Ne.symm inside.1), ih inside.2]

/-! ## Keys -/

/-- A key that a line can assign: it starts with something else than a blank, and has no line
feed. -/
structure IsKey (key : List Char) : Prop where
  starts : ∃ c rest, key = c :: rest ∧ isBlank c = false
  inside : '\n' ∉ key

/-- A line has blanks, a key, more blanks and then an equals sign. -/
structure Assigns (key blanks line : List Char) : Prop where
  blank : ∀ c ∈ blanks, isBlank c = true
  whole : ∃ gap rest, line = blanks ++ (key ++ (gap ++ '=' :: rest)) ∧ ∀ c ∈ gap, isBlank c = true

theorem trimStart_append {blanks : List Char} (blank : ∀ c ∈ blanks, isBlank c = true)
    (rest : List Char) : trimStart (blanks ++ rest) = trimStart rest :=
  List.dropWhile_append_of_pos blank

theorem trimStart_cons {c : Char} (solid : isBlank c = false) (rest : List Char) :
    trimStart (c :: rest) = c :: rest :=
  List.dropWhile_cons_of_neg (Bool.not_eq_true _ ▸ solid)

theorem exists_blanks (line : List Char) :
    ∃ blanks, line = blanks ++ trimStart line ∧ ∀ c ∈ blanks, isBlank c = true :=
  ⟨line.takeWhile isBlank, List.takeWhile_append_dropWhile.symm, fun _ => List.mem_takeWhile_imp⟩

theorem assigns_eq_true_iff {key line : List Char} :
    assigns key line = true ↔
      ∃ gap rest, line = key ++ (gap ++ '=' :: rest) ∧ ∀ c ∈ gap, isBlank c = true := by
  unfold assigns
  constructor
  · intro given
    split at given
    · rename_i rest found
      obtain ⟨gap, whole, blank⟩ := exists_blanks rest
      obtain ⟨more, signed⟩ := List.head?_eq_some_iff.mp (of_decide_eq_true given)
      have line := List.isPrefixOf?_eq_some_iff_append_eq.mp found
      exact ⟨gap, more, by rw [← signed, ← whole, line], blank⟩
    · cases given
  · rintro ⟨gap, rest, rfl, blank⟩
    have sign : (trimStart (gap ++ '=' :: rest)).head? = some '=' := by
      rw [trimStart_append blank, trimStart_cons (by decide), List.head?_cons]
    rw [List.isPrefixOf?_eq_some_iff_append_eq.mpr rfl]
    exact decide_eq_true sign

theorem IsKey.trimStart_eq {key : List Char} (isKey : IsKey key) {blanks line : List Char}
    (assigned : Assigns key blanks line) : line = blanks ++ trimStart line := by
  obtain ⟨gap, rest, whole, _⟩ := assigned.whole
  obtain ⟨c, others, rfl, solid⟩ := isKey.starts
  rw [whole, trimStart_append assigned.blank, List.cons_append, trimStart_cons solid]

theorem IsKey.assigns_trimStart_iff {key : List Char} (isKey : IsKey key) {line : List Char} :
    assigns key (trimStart line) = true ↔ ∃ blanks, Assigns key blanks line := by
  rw [assigns_eq_true_iff]
  constructor
  · rintro ⟨gap, rest, trimmed, blank⟩
    obtain ⟨blanks, whole, before⟩ := exists_blanks line
    exact ⟨blanks, before, gap, rest, by rw [← trimmed, ← whole], blank⟩
  · rintro ⟨blanks, assigned⟩
    have whole := isKey.trimStart_eq assigned
    obtain ⟨gap, rest, parts, blank⟩ := assigned.whole
    exact ⟨gap, rest, List.append_cancel_left (whole.symm.trans parts), blank⟩

/-- The line feed at the end of a line is no part of an assignment. -/
theorem assigns_append_lineFeed {key blanks line : List Char} :
    Assigns key blanks (line ++ ['\n']) ↔ Assigns key blanks line := by
  constructor
  · rintro ⟨before, gap, rest, whole, blank⟩
    rcases List.eq_nil_or_concat rest with rfl | ⟨others, c, rfl⟩
    -- Otherwise the line would end with the equals sign.
    · have sign := congrArg List.getLast? whole
      simp [List.getLast?_append] at sign
    · refine ⟨before, gap, others, ?_, blank⟩
      have sides : line ++ ['\n'] = (blanks ++ (key ++ (gap ++ '=' :: others))) ++ [c] := by
        rw [whole]
        simp
      exact (List.append_inj' sides rfl).1
  · rintro ⟨before, gap, rest, rfl, blank⟩
    exact ⟨before, gap, rest ++ ['\n'], by simp, blank⟩

/-- The first line is taken when it assigns the key, and passed otherwise. -/
theorem IsKey.keySpanIn?_cons {key : List Char} (isKey : IsKey key) (line : List Char)
    (others : List (List Char)) (offset : Nat) :
    (∃ blanks, Assigns key blanks line ∧
        keySpanIn? key offset (line :: others) = some ⟨offset + byteSize blanks, byteSize key⟩) ∨
      (∀ blanks, ¬ Assigns key blanks line) ∧
        keySpanIn? key offset (line :: others) = keySpanIn? key (offset + byteSize line) others := by
  rw [keySpanIn?]
  by_cases here : assigns key (trimStart line) = true
  · obtain ⟨blanks, assigned⟩ := isKey.assigns_trimStart_iff.mp here
    have size := congrArg byteSize (isKey.trimStart_eq assigned)
    rw [byteSize_append] at size
    refine Or.inl ⟨blanks, assigned, ?_⟩
    rw [if_pos here, size, Nat.add_sub_cancel_right]
  · exact Or.inr ⟨fun blanks assigned => here (isKey.assigns_trimStart_iff.mpr ⟨blanks, assigned⟩),
      if_neg here⟩

/-- A line behind a front of the text assigns a key behind some blanks. -/
def IsAssigned (key text front blanks : List Char) : Prop :=
  ∃ line, IsLine text front line ∧ Assigns key blanks line

theorem IsAssigned.slice?_eq {key text front blanks : List Char}
    (assigned : IsAssigned key text front blanks) :
    Span.slice? text ⟨byteSize (front ++ blanks), byteSize key⟩ = some key := by
  obtain ⟨line, ⟨_, _, back, rfl, _⟩, _, gap, rest, rfl, _⟩ := assigned
  exact slice?_eq_some_iff.mpr ⟨front ++ blanks, gap ++ '=' :: rest ++ back, by simp, rfl⟩

theorem not_assigns_nil (key blanks : List Char) : ¬ Assigns key blanks [] := by
  rintro ⟨_, gap, rest, impossible, _⟩
  simp at impossible

theorem isAssigned_last_iff {last : List Char} (inside : '\n' ∉ last)
    {key front blanks : List Char} :
    IsAssigned key last front blanks ↔ front = [] ∧ Assigns key blanks last := by
  constructor
  · rintro ⟨own, isLine, assigned⟩
    obtain ⟨rfl, rfl⟩ := (isLine_last_iff inside).mp isLine
    exact ⟨rfl, assigned⟩
  · rintro ⟨rfl, assigned⟩
    exact ⟨last, (isLine_last_iff inside).mpr ⟨rfl, rfl⟩, assigned⟩

/-- Behind a first line that does not assign the key, all assignments are on the other lines. -/
theorem exists_isAssigned_line_iff {key line : List Char} (inside : '\n' ∉ line)
    (elsewhere : ∀ blanks, ¬ Assigns key blanks line) (text front : List Char) :
    (∃ blanks, IsAssigned key (line ++ '\n' :: text) front blanks) ↔
      ∃ more, front = (line ++ ['\n']) ++ more ∧ ∃ blanks, IsAssigned key text more blanks := by
  constructor
  · rintro ⟨blanks, own, isLine, assigned⟩
    rcases (isLine_line_iff inside).mp isLine with ⟨_, rfl⟩ | ⟨more, split, later⟩
    · exact absurd assigned (elsewhere blanks)
    · exact ⟨more, split, blanks, own, later, assigned⟩
  · rintro ⟨more, split, blanks, own, later, assigned⟩
    exact ⟨blanks, own, (isLine_line_iff inside).mpr (Or.inr ⟨more, split, later⟩), assigned⟩

/-- The first line that assigns a key. -/
def IsFirstAssigned (key text front blanks : List Char) : Prop :=
  IsFirst (fun front => ∃ blanks, IsAssigned key text front blanks) front ∧
    IsAssigned key text front blanks

theorem IsAssigned.isFirstAssigned {key text blanks : List Char}
    (assigned : IsAssigned key text [] blanks) : IsFirstAssigned key text [] blanks :=
  ⟨isFirst_nil ⟨blanks, assigned⟩, assigned⟩

/-- The search through the lines finds the first one that assigns the key, or there is none. -/
theorem IsKey.keySpanIn?_cases {key : List Char} (isKey : IsKey key) (text : List Char)
    (offset : Nat) :
    (∃ front blanks, IsFirstAssigned key text front blanks ∧
        keySpanIn? key offset (linesWithEnds text) =
          some ⟨offset + byteSize (front ++ blanks), byteSize key⟩) ∨
      (∀ front blanks, ¬ IsAssigned key text front blanks) ∧
        keySpanIn? key offset (linesWithEnds text) = none := by
  -- The offset is that of the line where the search is.
  induction text using line_induction generalizing offset with
  | last line inside =>
      cases line with
      | nil =>
          refine Or.inr ⟨fun front blanks assigned => ?_, rfl⟩
          exact not_assigns_nil key blanks ((isAssigned_last_iff inside).mp assigned).2
      | cons c line =>
          rw [linesWithEnds_last inside]
          rcases isKey.keySpanIn?_cons (c :: line) [] offset with
            ⟨blanks, assigned, found⟩ | ⟨elsewhere, passed⟩
          · have there : IsAssigned key (c :: line) [] blanks :=
              (isAssigned_last_iff inside).mpr ⟨rfl, assigned⟩
            exact Or.inl ⟨[], blanks, there.isFirstAssigned, found⟩
          · refine Or.inr ⟨fun front blanks assigned => ?_, passed⟩
            exact elsewhere blanks ((isAssigned_last_iff inside).mp assigned).2
  | more line text inside ih =>
      rw [linesWithEnds_line inside]
      rcases isKey.keySpanIn?_cons (line ++ ['\n']) (linesWithEnds text) offset with
        ⟨blanks, assigned, found⟩ | ⟨elsewhere, passed⟩
      · have there : IsAssigned key (line ++ '\n' :: text) [] blanks :=
          ⟨line, (isLine_nil_iff inside).mpr rfl, assigns_append_lineFeed.mp assigned⟩
        exact Or.inl ⟨[], blanks, there.isFirstAssigned, found⟩
      · have below := exists_isAssigned_line_iff inside
          (fun blanks assigned => elsewhere blanks (assigns_append_lineFeed.mpr assigned)) text
        rw [passed]
        rcases ih (offset + byteSize (line ++ ['\n'])) with
          ⟨front, blanks, ⟨first, own, isLine, assigned⟩, found⟩ | ⟨nowhere, found⟩
        · have there : IsAssigned key (line ++ '\n' :: text) ((line ++ ['\n']) ++ front) blanks :=
            ⟨own, (isLine_line_iff inside).mpr (Or.inr ⟨front, rfl, isLine⟩), assigned⟩
          refine Or.inl ⟨_, blanks, ⟨first.append below, there⟩, ?_⟩
          rw [found, List.append_assoc, byteSize_append (line ++ ['\n']), Nat.add_assoc]
        · refine Or.inr ⟨fun front blanks assigned => ?_, found⟩
          obtain ⟨more, _, others, later⟩ := (below front).mp ⟨blanks, assigned⟩
          exact nowhere more others later

/-- The search for a key gives its place on the first line that assigns it, or no line does. -/
theorem IsKey.keySpan?_cases {key : String} (isKey : IsKey key.toList) (text : String) :
    (∃ front blanks, IsFirstAssigned key.toList text.toList front blanks ∧
        keySpan? text key = some ⟨byteSize (front ++ blanks), byteSize key.toList⟩) ∨
      (∀ front blanks, ¬ IsAssigned key.toList text.toList front blanks) ∧
        keySpan? text key = none := by
  unfold keySpan?
  simpa only [Nat.zero_add] using isKey.keySpanIn?_cases text.toList 0

/-! ## Both searches -/

/-- The search for a key finds something just when a line assigns the key, and gives the place of the
key on the first such line. The search for a value finds something just when the value stands between
two quotes, and gives the first place between double quotes, or else the first one between single
ones. What the text has at the span is the key, or the value. -/
theorem keySpan?_and_valueSpan?_exact (text : String) :
    (∀ key : String, IsKey key.toList →
      ((keySpan? text key).isSome = true ↔
          ∃ front blanks, IsAssigned key.toList text.toList front blanks) ∧
        ∀ span, keySpan? text key = some span →
          (∃ front blanks, IsFirstAssigned key.toList text.toList front blanks ∧
              span = ⟨byteSize (front ++ blanks), byteSize key.toList⟩) ∧
            span.slice? text.toList = some key.toList) ∧
      ∀ value : String,
        ((valueSpan? text value).isSome = true ↔
            ∃ front, IsQuotedBehind '"' value.toList text.toList front ∨
              IsQuotedBehind '\'' value.toList text.toList front) ∧
          ∀ span, valueSpan? text value = some span →
            IsValuePlace value.toList text.toList span ∧
              span.slice? text.toList = some value.toList := by
  refine ⟨fun key isKey => ?_, fun value => ?_⟩
  · rcases isKey.keySpan?_cases text with ⟨front, blanks, first, found⟩ | ⟨nowhere, found⟩
    · rw [found]
      refine ⟨iff_of_true rfl ⟨front, blanks, first.2⟩, ?_⟩
      rintro _ ⟨⟩
      exact ⟨⟨front, blanks, first, rfl⟩, first.2.slice?_eq⟩
    · rw [found]
      exact ⟨iff_of_false nofun fun ⟨front, blanks, there⟩ => nowhere front blanks there, nofun⟩
  · rcases valueSpan?_cases text value with ⟨span, found, place⟩ | ⟨noDouble, noSingle, found⟩
    · rw [found]
      refine ⟨iff_of_true rfl place.exists_quoted, ?_⟩
      rintro _ ⟨⟩
      exact ⟨place, place.slice?_eq⟩
    · rw [found]
      refine ⟨iff_of_false nofun ?_, nofun⟩
      rintro ⟨front, double | single⟩
      · exact noDouble front double
      · exact noSingle front single

/-- A key behind one that starts with it, and values between quotes of both kinds. -/
def languageList : String := "languages_file = 'all'\n  languages = ['en', \"zh\"]\n"

theorem keySpan?_and_valueSpan?_languageList :
    IsKey "languages".toList ∧ keySpan? languageList "languages" = some ⟨25, 9⟩ ∧
      (∃ front blanks, IsFirstAssigned "languages".toList languageList.toList front blanks ∧
        (⟨25, 9⟩ : Span) = ⟨byteSize (front ++ blanks), byteSize "languages".toList⟩) ∧
      IsValuePlace "zh".toList languageList.toList ⟨45, 2⟩ ∧
      IsValuePlace "en".toList languageList.toList ⟨39, 2⟩ := by
  have isKey : IsKey "languages".toList :=
    ⟨⟨'l', "anguages".toList, by decide, by decide⟩, by decide⟩
  have key : keySpan? languageList "languages" = some ⟨25, 9⟩ := by decide
  have double : valueSpan? languageList "zh" = some ⟨45, 2⟩ := by decide
  have single : valueSpan? languageList "en" = some ⟨39, 2⟩ := by decide
  obtain ⟨keys, values⟩ := keySpan?_and_valueSpan?_exact languageList
  exact ⟨isKey, key, (((keys _ isKey).2 _ key)).1, ((values _).2 _ double).1,
    ((values _).2 _ single).1⟩

end Phrasebook.Manifest
