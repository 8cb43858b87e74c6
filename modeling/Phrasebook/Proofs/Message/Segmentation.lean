import Mathlib.Data.List.Chain
import Phrasebook.Proofs.Message.Placeholder

/-!
# A text and its segments

Cutting loses nothing: the segments of a text, written one after the other, are the text again. And
there is only one way to cut. Of two neighbouring pieces one is a placeholder, no placeholder stands
inside a plain piece, and since placeholders cannot overlap none lies across the end of a piece
either. So lists of segments in this form and texts with placeholders correspond one to one.
-/

namespace Phrasebook

namespace Placeholder

/-! ## Pieces written out -/

/-- What a piece is in a text. -/
def Piece.chars : Piece → List Char
  | .plain text => text
  | .name text => written text

/-- The text that consists of given pieces. -/
def spell (pieces : List Piece) : List Char :=
  pieces.flatMap Piece.chars

@[simp]
theorem spell_cons (piece : Piece) (pieces : List Piece) :
    spell (piece :: pieces) = piece.chars ++ spell pieces := rfl

/-- Characters among which no placeholder stands. -/
def IsPlain (text : List Char) : Prop :=
  ∀ name, IsName name → ¬ written name <:+: text

/-- A piece that a text can be cut into. -/
def Piece.IsProper : Piece → Prop
  | .plain text => text ≠ [] ∧ IsPlain text
  | .name text => IsName text

/-- Pieces as cutting gives them: of two neighbours one is a placeholder. -/
structure IsCut (pieces : List Piece) : Prop where
  proper : ∀ piece ∈ pieces, piece.IsProper
  apart : pieces.IsChain fun one next => one.isName = true ∨ next.isName = true

namespace IsCut

theorem nil : IsCut [] :=
  ⟨nofun, .nil⟩

theorem tail {piece : Piece} {pieces : List Piece} (cut : IsCut (piece :: pieces)) : IsCut pieces :=
  ⟨fun other member => cut.proper other (List.mem_cons_of_mem _ member), cut.apart.tail⟩

theorem name_cons {name : List Char} {pieces : List Piece} (isName : IsName name)
    (cut : IsCut pieces) : IsCut (.name name :: pieces) := by
  refine ⟨List.forall_mem_cons.mpr ⟨isName, cut.proper⟩, ?_⟩
  rw [List.isChain_cons]
  exact ⟨fun _ _ => Or.inl rfl, cut.apart⟩

/-- Behind a plain piece stands a placeholder, or nothing. -/
theorem behind_plain {text : List Char} {pieces : List Piece} (cut : IsCut (.plain text :: pieces)) :
    pieces = [] ∨ ∃ name rest, pieces = .name name :: rest ∧ IsName name := by
  cases pieces with
  | nil => exact Or.inl rfl
  | cons next rest =>
      cases next with
      | plain other =>
          rcases (List.isChain_cons_cons.mp cut.apart).1 with impossible | impossible
          · cases impossible
          · cases impossible
      | name name => exact Or.inr ⟨name, rest, rfl, cut.tail.proper _ List.mem_cons_self⟩

end IsCut

/-! ## From a text to its pieces -/

theorem spell_push (c : Char) (pieces : List Piece) :
    spell (Piece.push c pieces) = c :: spell pieces := by
  unfold Piece.push
  split
  · rfl
  · rfl

/-- The pieces of a text make up the text. -/
theorem spell_pieces (text : List Char) : spell (pieces text) = text := by
  induction text using pieces.induct with
  | case1 text name after found ih =>
      rw [pieces_of_front found, spell_cons, ih]
      exact (front?_eq_some_iff.mp found).2.symm
  | case2 noFront => rw [pieces_nil]; rfl
  | case3 c rest noFront ih => rw [pieces_cons noFront, spell_push, ih]

/-- A character before plain ones leaves them plain, unless a placeholder starts with it. -/
theorem isPlain_cons {c : Char} {text rest : List Char} (noFront : front? (c :: (text ++ rest)) = none)
    (plain : IsPlain text) : IsPlain (c :: text) := by
  rintro name isName ⟨front, back, same⟩
  cases front with
  | nil =>
      have stands : c :: (text ++ rest) = written name ++ (back ++ rest) := by
        rw [← List.cons_append, ← same, List.nil_append, List.append_assoc]
      rw [front?_eq_some_iff.mpr ⟨isName, stands⟩] at noFront
      cases noFront
  | cons first front => exact plain name isName ⟨front, back, (List.cons.inj same).2⟩

theorem isPlain_nil : IsPlain [] := by
  rintro name _ ⟨front, back, same⟩
  simp [written] at same

theorem isCut_push {c : Char} {pieces : List Piece} (noFront : front? (c :: spell pieces) = none)
    (cut : IsCut pieces) : IsCut (Piece.push c pieces) := by
  unfold Piece.push
  split
  · rename_i text rest
    have plain := isPlain_cons noFront (cut.proper _ List.mem_cons_self).2
    refine ⟨List.forall_mem_cons.mpr ⟨⟨List.cons_ne_nil _ _, plain⟩, cut.tail.proper⟩, ?_⟩
    rw [List.isChain_cons]
    exact List.isChain_cons.mp cut.apart
  · rename_i notPlain
    have plain : IsPlain [c] := isPlain_cons noFront isPlain_nil
    refine ⟨List.forall_mem_cons.mpr ⟨⟨List.cons_ne_nil _ _, plain⟩, cut.proper⟩, ?_⟩
    rw [List.isChain_cons]
    refine ⟨?_, cut.apart⟩
    intro next isNext
    cases next with
    | plain text =>
        obtain ⟨rest, rfl⟩ := List.head?_eq_some_iff.mp isNext
        exact absurd rfl (notPlain text rest)
    | name name => exact Or.inr rfl

/-- Cutting gives proper pieces. -/
theorem pieces_isCut (text : List Char) : IsCut (pieces text) := by
  induction text using pieces.induct with
  | case1 text name after found ih =>
      rw [pieces_of_front found]
      exact ih.name_cons (front?_eq_some_iff.mp found).1
  | case2 noFront => rw [pieces_nil]; exact .nil
  | case3 c rest noFront ih =>
      rw [pieces_cons noFront]
      refine isCut_push ?_ ih
      rw [spell_pieces]
      exact noFront

/-! ## From pieces to the text and back -/

/-- No placeholder starts in a plain piece, not even one that ends behind it. -/
theorem front?_plain {text : List Char} {pieces : List Piece} (cut : IsCut (.plain text :: pieces))
    {c : Char} {front back : List Char} (split : text = front ++ c :: back) :
    front? (c :: (back ++ spell pieces)) = none := by
  by_contra found
  obtain ⟨⟨name, after⟩, found⟩ := Option.ne_none_iff_exists'.mp found
  obtain ⟨isName, same⟩ := front?_eq_some_iff.mp found
  have plain : ∀ back', c :: back ≠ written name ++ back' := fun back' stands =>
    (cut.proper _ List.mem_cons_self).2 name isName ⟨front, back', by
      rw [split, stands, List.append_assoc]⟩
  rcases cut.behind_plain with rfl | ⟨next, rest, rfl, _⟩
  · exact plain after (List.append_nil (c :: back) ▸ same)
  · have overlap : (c :: back) ++ (written next ++ spell rest) = written name ++ after := same
    rcases occurrence_behind isName overlap with impossible | ⟨gap, stands, _⟩
    · cases impossible
    · exact plain gap stands

/-- Pieces in which a plain piece of some characters opens the list are found character by
character. -/
theorem pieces_plain {text : List Char} {rest : List Piece} (cut : IsCut (.plain text :: rest))
    (found : pieces (spell rest) = rest) {front back : List Char} (split : text = front ++ back)
    (present : back ≠ []) : pieces (back ++ spell rest) = .plain back :: rest := by
  induction back generalizing front with
  | nil => exact absurd rfl present
  | cons c back ih =>
      rw [List.cons_append, pieces_cons (front?_plain cut split)]
      cases back with
      | nil =>
          rw [List.nil_append, found]
          rcases cut.behind_plain with rfl | ⟨next, others, rfl, _⟩
          · rfl
          · rfl
      | cons d back =>
          have later : text = (front ++ [c]) ++ (d :: back) := by
            rw [split, List.append_assoc]
            rfl
          rw [ih later (List.cons_ne_nil _ _)]
          rfl

/-- Proper pieces are found again in the text that they make up. -/
theorem pieces_spell {all : List Piece} (cut : IsCut all) : pieces (spell all) = all := by
  induction all with
  | nil => exact pieces_nil
  | cons piece rest ih =>
      have found := ih cut.tail
      have proper := cut.proper _ List.mem_cons_self
      cases piece with
      | plain text => exact pieces_plain cut found (List.nil_append text).symm proper.1
      | name name =>
          have opens : front? (spell (.name name :: rest)) = some (name, spell rest) :=
            front?_eq_some_iff.mpr ⟨proper, rfl⟩
          rw [pieces_of_front opens, found]

/-- The pieces of a text are the proper ones that make it up, and no others. -/
theorem pieces_eq_iff {text : List Char} {all : List Piece} :
    pieces text = all ↔ IsCut all ∧ spell all = text := by
  constructor
  · rintro rfl
    exact ⟨pieces_isCut text, spell_pieces text⟩
  · rintro ⟨cut, rfl⟩
    exact pieces_spell cut

end Placeholder

/-! ## Segments -/

open Placeholder

/-- How a segment is written in a message. -/
def Segment.written : Segment → String
  | .literal text => text
  | .param name => "\x7b\x7b " ++ name ++ " \x7d\x7d"

def Segment.isParam : Segment → Bool
  | .literal _ => false
  | .param _ => true

/-- The piece of a text that a segment stands for. -/
def Segment.piece : Segment → Piece
  | .literal text => .plain text.toList
  | .param name => .name name.toList

namespace Body

/-- The message that consists of given segments. -/
def written (body : Body) : String :=
  String.join (body.map Segment.written)

/-- Segments as a message with placeholders has them. -/
structure IsCut (body : Body) : Prop where
  /-- There is a parameter at all. -/
  asks : ∃ name, Segment.param name ∈ body
  /-- Parameters have names of ASCII letters and digits. -/
  names : ∀ name, Segment.param name ∈ body → IsName name.toList
  /-- Literals are not empty and hold no placeholder. -/
  literals : ∀ text, Segment.literal text ∈ body → text ≠ "" ∧ ∀ name, ¬ Mentions text name
  /-- No two literals are neighbours. -/
  apart : body.IsChain fun one next => one.isParam = true ∨ next.isParam = true

end Body

theorem Segment.piece_segment (segment : Segment) : segment.piece.segment = segment := by
  cases segment with
  | literal text => exact congrArg Segment.literal String.ofList_toList
  | param name => exact congrArg Segment.param String.ofList_toList

theorem Placeholder.Piece.segment_piece (piece : Piece) : piece.segment.piece = piece := by
  cases piece with
  | plain text => exact congrArg Piece.plain String.toList_ofList
  | name name => exact congrArg Piece.name String.toList_ofList

theorem Segment.toList_written (segment : Segment) : segment.written.toList = segment.piece.chars := by
  cases segment with
  | literal text => rfl
  | param name => simp [Segment.written, Segment.piece, Piece.chars, Placeholder.written]

theorem isPlain_toList_iff {text : String} :
    IsPlain text.toList ↔ ∀ name, ¬ Mentions text name := by
  constructor
  · rintro plain name ⟨isName, stands⟩
    exact plain name.toList isName stands
  · intro plain name isName stands
    refine plain (String.ofList name) ⟨?_, ?_⟩
    · rwa [String.toList_ofList]
    · rwa [String.toList_ofList]

namespace Body

theorem toList_written (body : Body) : body.written.toList = spell (body.map Segment.piece) := by
  rw [written, String.toList_join, spell, List.flatMap_map, List.flatMap_map]
  exact congrArg (List.flatMap · body) (funext Segment.toList_written)

/-- Segments are those of a message with placeholders when their pieces are proper and one of them
is a name. -/
theorem isCut_iff {body : Body} :
    body.IsCut ↔
      Placeholder.IsCut (body.map Segment.piece) ∧ (body.map Segment.piece).any Piece.isName = true := by
  have same (one next : Segment) : one.piece.isName = true ∨ next.piece.isName = true ↔
      one.isParam = true ∨ next.isParam = true := by
    cases one <;> cases next <;> rfl
  have chain : (body.map Segment.piece).IsChain
        (fun one next => one.isName = true ∨ next.isName = true) ↔
      body.IsChain fun one next => one.isParam = true ∨ next.isParam = true := by
    rw [List.isChain_map]
    simp only [same]
  have named : (body.map Segment.piece).any Piece.isName = true ↔ ∃ name, Segment.param name ∈ body := by
    rw [List.any_map, List.any_eq_true]
    constructor
    · rintro ⟨segment, member, isName⟩
      cases segment with
      | literal text => cases isName
      | param name => exact ⟨name, member⟩
    · rintro ⟨name, member⟩
      exact ⟨_, member, rfl⟩
  rw [named]
  constructor
  · rintro ⟨asks, names, literals, apart⟩
    refine ⟨⟨?_, chain.mpr apart⟩, asks⟩
    rw [List.forall_mem_map]
    intro segment member
    cases segment with
    | literal text =>
        obtain ⟨present, plain⟩ := literals text member
        exact ⟨fun empty => present (String.toList_eq_nil_iff.mp empty), isPlain_toList_iff.mpr plain⟩
    | param name => exact names name member
  · rintro ⟨⟨proper, apart⟩, asks⟩
    rw [List.forall_mem_map] at proper
    refine ⟨asks, fun name member => proper _ member, fun text member => ?_, chain.mp apart⟩
    obtain ⟨present, plain⟩ := proper _ member
    exact ⟨fun empty => present (String.toList_eq_nil_iff.mpr empty), isPlain_toList_iff.mp plain⟩

/-- The segments of a text are those of this form that are written so. -/
theorem ofText?_eq_some_iff {text : String} {body : Body} :
    ofText? text = some body ↔ body.IsCut ∧ body.written = text := by
  have pieces_iff : (pieces text.toList).map Piece.segment = body ↔
      pieces text.toList = body.map Segment.piece := by
    constructor
    · rintro rfl
      rw [List.map_map]
      exact (List.map_id'' Piece.segment_piece _).symm
    · intro same
      rw [same, List.map_map]
      exact List.map_id'' Segment.piece_segment body
  rw [ofText?, isCut_iff, ← String.toList_inj, toList_written, and_right_comm, ← pieces_eq_iff]
  split
  · rename_i named
    rw [Option.some_inj, pieces_iff]
    constructor
    · exact fun same => ⟨same, same ▸ named⟩
    · exact And.left
  · rename_i plain
    refine iff_of_false (Option.some_ne_none body).symm ?_
    rintro ⟨same, named⟩
    exact plain (same ▸ named)

/-- Texts with placeholders and lists of segments correspond one to one: a text that mentions no name
has no segments; the segments of any other text are in their proper form and are written as the text;
and the text that segments of this form are written as has just these segments. -/
theorem text_iff_segments :
    (∀ text, ofText? text = none ↔ ∀ name, ¬ Mentions text name) ∧
    (∀ text body, ofText? text = some body → body.IsCut ∧ body.written = text) ∧
    ∀ body : Body, body.IsCut → ofText? body.written = some body := by
  refine ⟨fun _ => ofText?_eq_none_iff, fun _ _ => ofText?_eq_some_iff.mp, fun body cut => ?_⟩
  exact ofText?_eq_some_iff.mpr ⟨cut, rfl⟩

/-- Braces around a placeholder, and half a placeholder behind it, are plain text. -/
example : ofText? "\x7b\x7b\x7b a \x7d\x7d\x7d \x7b\x7b b \x7d" =
    some [.literal "\x7b", .param "a", .literal "\x7d \x7b\x7b b \x7d"] := by
  decide +kernel

end Body

end Phrasebook
