import Mathlib.Data.List.Infix
import Phrasebook.Message.Placeholder

/-!
# What cutting at placeholders finds

A text is cut at every placeholder that it holds: the names among its pieces are exactly the
names whose placeholder stands somewhere in the text. Two placeholders never overlap, so
taking them from left to right misses none.
-/

namespace Phrasebook

namespace Placeholder

/-- A name that a placeholder may have. -/
def IsName (name : List Char) : Prop := name ≠ [] ∧ ∀ c ∈ name, c.isAlphanum = true

/-- How the placeholder of a name is written. -/
def written (name : List Char) : List Char :=
  '{' :: '{' :: ' ' :: (name ++ [' ', '}', '}'])

theorem nameThen_written
    {name : List Char} (letters : ∀ c ∈ name, c.isAlphanum = true) (after : List Char) :
    nameThen (name ++ ' ' :: '}' :: '}' :: after) = some (name, after) := by
  induction name with
  | nil => rfl
  | cons c rest ih =>
      have here := letters c List.mem_cons_self
      have later := ih fun other member => letters other (List.mem_cons_of_mem _ member)
      rw [List.cons_append]
      unfold nameThen
      rw [if_pos here, later]
      rfl

theorem eq_of_nameThen
    {text name after : List Char} (found : nameThen text = some (name, after)) :
    text = name ++ ' ' :: '}' :: '}' :: after ∧ ∀ c ∈ name, c.isAlphanum = true := by
  induction text generalizing name with
  | nil => cases found
  | cons c rest ih =>
      unfold nameThen at found
      split at found
      · rename_i here
        obtain ⟨⟨inner, innerAfter⟩, innerFound, same⟩ := Option.map_eq_some_iff.mp found
        cases same
        obtain ⟨split, letters⟩ := ih innerFound
        refine ⟨by rw [List.cons_append, ← split], ?_⟩
        intro other member
        rcases List.mem_cons.mp member with rfl | later
        · exact here
        · exact letters other later
      · split at found
        · cases found
          exact ⟨rfl, fun other member => absurd member List.not_mem_nil⟩
        · cases found

/-- The front of a text is a placeholder exactly when the text goes on from one. -/
theorem front?_eq_some_iff {text name after : List Char} :
    front? text = some (name, after) ↔ IsName name ∧ text = written name ++ after := by
  constructor
  · intro found
    unfold front? at found
    split at found
    · rename_i c rest
      split at found
      · rename_i here
        obtain ⟨⟨inner, innerAfter⟩, innerFound, same⟩ := Option.map_eq_some_iff.mp found
        cases same
        obtain ⟨split, letters⟩ := eq_of_nameThen innerFound
        refine ⟨⟨List.cons_ne_nil c inner, ?_⟩, by simp [written, split]⟩
        intro other member
        rcases List.mem_cons.mp member with rfl | later
        · exact here
        · exact letters other later
      · cases found
    · cases found
  · rintro ⟨⟨nonempty, letters⟩, rfl⟩
    cases name with
    | nil => exact absurd rfl nonempty
    | cons c rest =>
        have here := letters c List.mem_cons_self
        have later := nameThen_written
          (fun other member => letters other (List.mem_cons_of_mem _ member)) after
        simp only [written, List.cons_append, List.append_assoc, List.nil_append, front?]
        rw [if_pos here, later]
        rfl

/-- Behind its first two braces a placeholder opens no further brace. -/
theorem brace_not_mem {name : List Char} (isName : IsName name) :
    '{' ∉ ' ' :: (name ++ [' ', '}', '}']) := by
  intro member
  rcases List.mem_cons.mp member with same | member
  · exact absurd same (by decide)
  · rcases List.mem_append.mp member with inName | inEnd
    · exact absurd (isName.2 '{' inName) (by decide)
    · exact absurd inEnd (by decide)

/-- A placeholder in a text that opens with one is that one, or stands behind it. -/
theorem occurrence_behind
    {name other front back after : List Char} (isName : IsName name)
    (same : front ++ (written other ++ back) = written name ++ after) :
    front = [] ∨ ∃ gap, front = written name ++ gap ∧ after = gap ++ (written other ++ back) := by
  rcases List.append_eq_append_iff.mp same with ⟨rest, split, start⟩ | ⟨gap, split, behind⟩
  · cases rest with
    | nil => exact Or.inr ⟨[], by rw [List.append_nil, split, List.append_nil], start.symm⟩
    | cons c rest =>
        have opens : c = '{' := (List.cons.inj start).1.symm
        subst opens
        cases front with
        | nil => exact Or.inl rfl
        | cons first front =>
            exfalso
            have second := (List.cons.inj split).2
            cases front with
            | nil =>
                -- the second brace of the one would be the blank of the other
                have blank : ' ' :: (name ++ [' ', '}', '}']) = rest := (List.cons.inj second).2
                rw [← blank] at start
                exact absurd (List.cons.inj (List.cons.inj start).2).1 (by decide)
            | cons next front =>
                have third : ' ' :: (name ++ [' ', '}', '}']) = front ++ '{' :: rest :=
                  (List.cons.inj second).2
                refine brace_not_mem isName ?_
                rw [third]
                exact List.mem_append_right _ List.mem_cons_self
  · exact Or.inr ⟨gap, split, behind⟩

/-! ## The pieces of a text -/

theorem pieces_of_front
    {text name after : List Char} (found : front? text = some (name, after)) :
    pieces text = .name name :: pieces after := by
  rw [pieces]
  split
  · rename_i other otherFound
    rw [found] at otherFound
    cases otherFound
    rfl
  · rename_i otherFound
    rw [found] at otherFound
    cases otherFound

theorem pieces_nil : pieces [] = [] := by
  rw [pieces]
  split
  · rename_i found
    cases found
  · rfl

theorem pieces_cons
    {c : Char} {rest : List Char} (noFront : front? (c :: rest) = none) :
    pieces (c :: rest) = Piece.push c (pieces rest) := by
  rw [pieces]
  split
  · rename_i found
    rw [noFront] at found
    cases found
  · rfl

theorem mem_push {c : Char} {name : List Char} {pieces : List Piece} :
    Piece.name name ∈ Piece.push c pieces ↔ Piece.name name ∈ pieces := by
  unfold Piece.push
  split <;> simp

/-- The names that cutting finds are those whose placeholder stands in the text. -/
theorem mem_pieces {text name : List Char} :
    Piece.name name ∈ pieces text ↔ IsName name ∧ written name <:+: text := by
  induction text using pieces.induct with
  | case1 text first after found ih =>
      obtain ⟨isFirst, rfl⟩ := front?_eq_some_iff.mp found
      rw [pieces_of_front found]
      simp only [List.mem_cons, Piece.name.injEq, ih]
      constructor
      · rintro (rfl | ⟨isName, front, back, rfl⟩)
        · exact ⟨isFirst, [], after, rfl⟩
        · exact ⟨isName, written first ++ front, back, by simp only [List.append_assoc]⟩
      · rintro ⟨isName, front, back, same⟩
        rw [List.append_assoc] at same
        rcases occurrence_behind isFirst same with rfl | ⟨gap, _, behind⟩
        · have again := front?_eq_some_iff.mpr ⟨isName, same.symm⟩
          rw [found] at again
          cases again
          exact Or.inl rfl
        · exact Or.inr ⟨isName, gap, back, by rw [behind, List.append_assoc]⟩
  | case2 noFront =>
      rw [pieces_nil]
      simp only [List.not_mem_nil, false_iff, not_and]
      rintro _ ⟨front, back, same⟩
      simp [written] at same
  | case3 c rest noFront ih =>
      rw [pieces_cons noFront]
      simp only [mem_push, ih]
      refine and_congr_right fun isName => ?_
      constructor
      · exact fun inside => inside.trans (List.suffix_cons c rest).isInfix
      · rintro ⟨front, back, same⟩
        cases front with
        | nil =>
            rw [List.nil_append] at same
            have atFront := front?_eq_some_iff.mpr ⟨isName, same.symm⟩
            rw [noFront] at atFront
            cases atFront
        | cons first front => exact ⟨front, back, (List.cons.inj same).2⟩

end Placeholder

/-- The placeholder of a name stands somewhere in a text. -/
def Mentions (text name : String) : Prop :=
  Placeholder.IsName name.toList ∧ Placeholder.written name.toList <:+: text.toList

/-- A text without an opening brace mentions nothing. -/
theorem not_mentions {text : String} (plain : '{' ∉ text.toList) (name : String) :
    ¬ Mentions text name := by
  rintro ⟨_, stands⟩
  exact plain (stands.subset List.mem_cons_self)

namespace Body

theorem mentions_iff_mem_pieces {text name : String} :
    Mentions text name ↔ Placeholder.Piece.name name.toList ∈ Placeholder.pieces text.toList :=
  Placeholder.mem_pieces.symm

/-- A text is no call exactly when it mentions no name. -/
theorem ofText?_eq_none_iff {text : String} :
    ofText? text = none ↔ ∀ name, ¬ Mentions text name := by
  rw [ofText?, ite_eq_right_iff]
  simp only [reduceCtorEq, imp_false, List.any_eq_true, not_exists, not_and]
  constructor
  · intro plain name mentioned
    exact plain _ (mentions_iff_mem_pieces.mp mentioned) rfl
  · intro plain piece member isName
    cases piece with
    | plain _ => cases isName
    | name name =>
        refine plain (String.ofList name) (mentions_iff_mem_pieces.mpr ?_)
        rwa [String.toList_ofList]

/-- The parameters of a call are the names that its text mentions. -/
theorem mem_paramsInOrder_of_ofText?
    {text : String} {body : Body} (cut : ofText? text = some body) {name : String} :
    name ∈ body.paramsInOrder ↔ Mentions text name := by
  rw [ofText?] at cut
  split at cut
  · cases cut
    rw [mentions_iff_mem_pieces, paramsInOrder, List.filterMap_map, List.mem_filterMap]
    constructor
    · rintro ⟨piece, member, named⟩
      cases piece with
      | plain _ => cases named
      | name inner =>
          cases named
          rwa [String.toList_ofList]
    · intro member
      exact ⟨_, member, congrArg some String.ofList_toList⟩
  · cases cut

end Body

end Phrasebook
