import Mathlib.Data.List.Induction
import Phrasebook.Path
import Phrasebook.Proofs.Text.Pieces

/-!
# Paths side by side

A path leads on by its names, the pieces that are components. The directory of a path has its names
without the last one, whatever idle pieces and separators the path was written with. So what lies in
the directory of a path differs from it in the last name, unless both are the same.
-/

namespace Phrasebook.Path

/-! ## Pieces -/

/-- A separator at the front stands behind an empty piece. -/
theorem splitOn_separator_cons (rest : List Char) :
    ('/' :: rest).splitOn '/' = [] :: rest.splitOn '/' :=
  List.splitOn_append_cons_self [] rest

/-- A text with an empty first piece is empty or starts with a separator. -/
theorem chars_of_splitOn_empty {chars : List Char} {others : List (List Char)}
    (pieces : chars.splitOn '/' = [] :: others) :
    chars = [] ∧ others = [] ∨ ∃ rest, chars = '/' :: rest ∧ others = rest.splitOn '/' := by
  cases chars with
  | nil => exact Or.inl ⟨rfl, (List.cons.inj pieces).2.symm⟩
  | cons c rest =>
      by_cases separator : c = '/'
      · rw [separator, splitOn_separator_cons] at pieces
        exact Or.inr ⟨rest, by rw [separator], (List.cons.inj pieces).2.symm⟩
      · obtain ⟨first, others, _, cutRest⟩ := Text.exists_splitOn_cons separator rest
        rw [cutRest] at pieces
        cases pieces

/-! ## Names -/

/-- The pieces that are components. -/
def proper (pieces : List (List Char)) : List (List Char) :=
  pieces.filter fun piece => !isIdle piece

theorem proper_append (front back : List (List Char)) :
    proper (front ++ back) = proper front ++ proper back :=
  List.filter_append ..

theorem proper_cons_idle {piece : List Char} (idle : isIdle piece = true) (rest : List (List Char)) :
    proper (piece :: rest) = proper rest := by
  rw [proper, List.filter_cons_of_neg (by simp [idle])]
  rfl

theorem proper_singleton {piece : List Char} (notIdle : isIdle piece = false) :
    proper [piece] = [piece] := by
  rw [proper, List.filter_cons_of_pos (by simp [notIdle]), List.filter_nil]

/-- Pieces that end in a name are not those of the empty path. -/
theorem concat_ne_empty {front : List (List Char)} {last : List Char} (notIdle : isIdle last = false) :
    front ++ [last] ≠ [[]] := by
  intro same
  have empty : last = [] := by simpa using congrArg List.getLast? same
  rw [empty] at notIdle
  cases notIdle

theorem proper_splitOn_glue
    {pieces : List (List Char)} (noSeparator : ∀ piece ∈ pieces, '/' ∉ piece) :
    proper ((glue pieces).splitOn '/') = proper pieces := by
  cases pieces with
  | nil => rfl
  | cons first rest => rw [glue, List.splitOn_intercalate '/' noSeparator (List.cons_ne_nil _ _)]

/-- The names that a path leads on by. -/
def names (path : Path) : List (List Char) :=
  proper path.split.2

theorem notIdle_of_mem_names {path : Path} {name : List Char} (member : name ∈ path.names) :
    isIdle name = false := by
  simpa using (List.mem_filter.mp member).2

theorem components_eq (path : Path) :
    path.components = path.split.1.components ++ path.names.map Component.ofPiece :=
  rfl

theorem Component.ofPiece_injective {one other : List Char} (same : ofPiece one = ofPiece other) :
    one = other := by
  rw [ofPiece, ofPiece] at same
  split at same
  · split at same
    · rename_i up otherUp
      rw [up, otherUp]
    · cases same
  · split at same
    · cases same
    · exact String.ofList_injective (Component.name.inj same)

/-- No name looks like the start of a path. -/
theorem Component.ne_start {names : List (List Char)} {component : Component}
    (member : component ∈ names.map ofPiece) : component ≠ .root ∧ component ≠ .here := by
  obtain ⟨piece, _, rfl⟩ := List.mem_map.mp member
  rw [ofPiece]
  split <;> exact ⟨nofun, nofun⟩

/-- Paths are the same if they start alike and lead on by the same names. -/
theorem same_iff {one other : Path} :
    one.same other = true ↔ one.split.1 = other.split.1 ∧ one.names = other.names := by
  have names_iff : one.names.map Component.ofPiece = other.names.map Component.ofPiece ↔
      one.names = other.names :=
    List.map_inj_right fun _ _ => Component.ofPiece_injective
  rw [same, decide_eq_true_eq, components_eq, components_eq, ← names_iff]
  refine ⟨fun same => ?_, fun ⟨start, names⟩ => by rw [start, names]⟩
  have first {names : List (List Char)} {start : Component} {rest : List Component}
      (front : names.map Component.ofPiece = start :: rest) : start ≠ .root ∧ start ≠ .here :=
    Component.ne_start (front ▸ List.mem_cons_self)
  cases oneStart : one.split.1 <;> cases otherStart : other.split.1 <;>
    rw [oneStart, otherStart] at same
  · exact ⟨rfl, (List.cons.inj same).2⟩
  · cases same
  · exact absurd rfl (first same.symm).1
  · cases same
  · exact ⟨rfl, (List.cons.inj same).2⟩
  · exact absurd rfl (first same.symm).2
  · exact absurd rfl (first same).1
  · exact absurd rfl (first same).2
  · exact ⟨rfl, same⟩

section

variable {one other : Path}

theorem same_comm : one.same other = other.same one := by
  rw [same, same, decide_eq_decide]
  exact eq_comm

/-- The same paths are the same to every other path. -/
theorem same_congr (alike : one.same other = true) (path : Path) : one.same path = other.same path := by
  rw [same, same, of_decide_eq_true alike]

end

/-- The start of a path with given pieces: an empty piece before another one is the root. -/
def startOf : List (List Char) → Start
  | [] => .plain
  | first :: rest =>
      if first = [] ∧ rest ≠ [] then .root else if first = ['.'] then .here else .plain

/-- The start of a path does not depend on its last piece, unless that is its only one. -/
theorem startOf_concat {front : List (List Char)} (present : front ≠ []) (one other : List Char) :
    startOf (front ++ [one]) = startOf (front ++ [other]) := by
  obtain ⟨first, rest, rfl⟩ := List.exists_cons_of_ne_nil present
  have behind (piece : List Char) : rest ++ [piece] ≠ [] :=
    List.append_ne_nil_of_right_ne_nil _ (List.cons_ne_nil _ _)
  rw [List.cons_append, List.cons_append, startOf, startOf]
  simp only [ne_eq, behind, not_false_eq_true, and_true]

/-- One more piece does not change the start of a path, unless the path is empty. -/
theorem startOf_append {pieces : List (List Char)} (present : pieces ≠ []) (notEmpty : pieces ≠ [[]])
    (last : List Char) : startOf (pieces ++ [last]) = startOf pieces := by
  obtain ⟨first, rest, rfl⟩ := List.exists_cons_of_ne_nil present
  have atRoot : first = [] ∧ rest ++ [last] ≠ [] ↔ first = [] ∧ rest ≠ [] := by
    refine and_congr_right fun empty => iff_of_true ?_ ?_
    · exact List.append_ne_nil_of_right_ne_nil _ (List.cons_ne_nil _ _)
    · rintro rfl
      exact notEmpty (by rw [empty])
  rw [List.cons_append, startOf, startOf]
  simp only [atRoot]

/-- The pieces at the front of a plain path are plain. -/
theorem startOf_front {front back : List (List Char)} (plain : startOf (front ++ back) = .plain) :
    startOf front = .plain := by
  cases front with
  | nil => rfl
  | cons first rest =>
      rw [List.cons_append, startOf] at plain
      split at plain
      · cases plain
      · rename_i notRoot
        split at plain
        · cases plain
        · rename_i notDot
          have notRootInFront : ¬(first = [] ∧ rest ≠ []) := fun ⟨empty, present⟩ =>
            notRoot ⟨empty, List.append_ne_nil_of_left_ne_nil present back⟩
          rw [startOf, if_neg notRootInFront, if_neg notDot]

/-- The start and the names of a path are those of all its pieces. -/
theorem split_eq (path : Path) :
    path.split.1 = startOf (path.text.toList.splitOn '/') ∧
      path.names = proper (path.text.toList.splitOn '/') := by
  rw [names, split]
  split
  · rename_i rest chars
    rw [chars, splitOn_separator_cons]
    exact ⟨(if_pos ⟨rfl, List.splitOn_ne_nil '/' rest⟩).symm, (proper_cons_idle rfl _).symm⟩
  · rename_i chars
    rw [chars]
    exact ⟨rfl, rfl⟩
  · rename_i rest chars
    have pieces : ('.' :: '/' :: rest).splitOn '/' = ['.'] :: rest.splitOn '/' :=
      List.splitOn_append_cons_self ['.'] rest
    rw [chars, pieces, splitOn_separator_cons, proper_cons_idle rfl, proper_cons_idle rfl]
    exact ⟨rfl, rfl⟩
  · rename_i noRoot noDot noHere
    refine ⟨?_, rfl⟩
    cases chars : path.text.toList with
    | nil => rfl
    | cons c rest =>
        have noSeparator : c ≠ '/' := fun separator => noRoot rest (by rw [chars, separator])
        obtain ⟨first, others, pieces, cutRest⟩ := Text.exists_splitOn_cons noSeparator rest
        have noDotPiece : c :: first ≠ ['.'] := by
          rintro ⟨⟩
          rcases chars_of_splitOn_empty pieces with ⟨rfl, _⟩ | ⟨back, rfl, _⟩
          · exact noDot chars
          · exact noHere back chars
        rw [cutRest, startOf, if_neg fun both => absurd both.1 (List.cons_ne_nil _ _), if_neg noDotPiece]

/-! ## Joining -/

/-- A name that a file in a directory can have: one component, which leads to no other directory. -/
structure IsFileName (name : String) : Prop where
  noSeparator : '/' ∉ name.toList
  notIdle : isIdle name.toList = false
  notUp : name.toList ≠ ['.', '.']

instance (name : String) : Decidable (IsFileName name) :=
  decidable_of_iff ('/' ∉ name.toList ∧ isIdle name.toList = false ∧ name.toList ≠ ['.', '.'])
    ⟨fun ⟨noSeparator, notIdle, notUp⟩ => ⟨noSeparator, notIdle, notUp⟩,
      fun isName => ⟨isName.noSeparator, isName.notIdle, isName.notUp⟩⟩

theorem IsFileName.relative {name : String} (isName : IsFileName name) :
    name.toList.head? ≠ some '/' :=
  fun first => isName.noSeparator (List.mem_of_mem_head? first)

/-- A name in a directory keeps the start of the directory and comes behind its names. -/
theorem join_name (directory : Path) {name : String} (isName : IsFileName name) :
    (directory.join name).split.1 = directory.split.1 ∧
      (directory.join name).names = directory.names ++ [name.toList] := by
  have notIdle := isName.notIdle
  have cutName : name.toList.splitOn '/' = [name.toList] :=
    List.splitOn_eq_singleton isName.noSeparator
  obtain ⟨start, names⟩ := split_eq directory
  obtain ⟨joinStart, joinNames⟩ := split_eq (directory.join name)
  rw [start, names, joinStart, joinNames, join, if_neg isName.relative]
  rcases List.eq_nil_or_concat directory.text.toList with empty | ⟨front, last, chars⟩
  · have notDot : name.toList ≠ ['.'] := by
      intro dot
      rw [dot] at notIdle
      cases notIdle
    rw [empty]
    dsimp only [List.getLast?_nil]
    rw [cutName, proper_singleton notIdle, startOf, if_neg fun both => both.2 rfl, if_neg notDot]
    exact ⟨rfl, rfl⟩
  · have lastOf : directory.text.toList.getLast? = some last := by
      rw [chars, List.concat_eq_append, List.getLast?_concat]
    rw [lastOf]
    dsimp only
    by_cases trailing : last = '/'
    · have cutDirectory : directory.text.toList.splitOn '/' = front.splitOn '/' ++ [[]] := by
        rw [chars, trailing, List.concat_eq_append, List.splitOn_append_cons_self]
        rfl
      have cutJoined : (directory.text ++ name).toList.splitOn '/' =
          front.splitOn '/' ++ [name.toList] := by
        rw [String.toList_append, chars, trailing, List.concat_eq_append, List.append_assoc,
          List.singleton_append, List.splitOn_append_cons_self, cutName]
      rw [if_pos trailing, cutDirectory, cutJoined, proper_append, proper_append,
        proper_singleton notIdle]
      refine ⟨startOf_concat (List.splitOn_ne_nil '/' front) _ _, ?_⟩
      rw [proper_cons_idle rfl, List.append_assoc]
      rfl
    · have cutJoined : (directory.text ++ "/" ++ name).toList.splitOn '/' =
          directory.text.toList.splitOn '/' ++ [name.toList] := by
        have separated : (directory.text ++ "/" ++ name).toList =
            directory.text.toList ++ '/' :: name.toList := by
          rw [String.toList_append, String.toList_append, List.append_assoc]
          rfl
        rw [separated, List.splitOn_append_cons_self, cutName]
      rw [if_neg trailing, cutJoined, proper_append, proper_singleton notIdle]
      refine ⟨startOf_append (List.splitOn_ne_nil '/' _) (fun empty => ?_) _, rfl⟩
      rcases chars_of_splitOn_empty empty with ⟨nothing, _⟩ | ⟨rest, _, none⟩
      · rw [nothing] at lastOf
        cases lastOf
      · exact List.splitOn_ne_nil '/' rest none.symm

/-! ## Directories -/

theorem trim_concat (front : List (List Char)) (last : List Char) :
    trim (front ++ [last]) = if isIdle last then trim front else front ++ [last] := by
  rw [trim, List.reverse_append, List.reverse_singleton, List.singleton_append, List.dropWhile_cons]
  split
  · rfl
  · rw [List.reverse_cons, List.reverse_reverse]

/-- Whether pieces are empty or end in a name. -/
def EndInName (pieces : List (List Char)) : Prop :=
  pieces = [] ∨ ∃ front last, pieces = front ++ [last] ∧ isIdle last = false

/-- What is trimmed away has no names. -/
theorem exists_trim (pieces : List (List Char)) :
    EndInName (trim pieces) ∧ proper (trim pieces) = proper pieces ∧
      ∃ back, pieces = trim pieces ++ back := by
  induction pieces using List.reverseRecOn with
  | nil => exact ⟨Or.inl rfl, rfl, [], rfl⟩
  | append_singleton pieces piece ih =>
      rw [trim_concat, proper_append]
      by_cases idle : isIdle piece = true
      · obtain ⟨ends, names, back, split⟩ := ih
        rw [if_pos idle, proper_cons_idle idle]
        refine ⟨ends, names.trans (List.append_nil _).symm, back ++ [piece], ?_⟩
        rw [← List.append_assoc, ← split]
      · rw [if_neg idle, proper_append]
        exact ⟨Or.inr ⟨pieces, piece, rfl, Bool.not_eq_true _ ▸ idle⟩, rfl, [],
          (List.append_nil _).symm⟩

theorem separator_not_mem_split (path : Path) : ∀ piece ∈ path.split.2, '/' ∉ piece := by
  rw [split]
  split
  · exact Text.not_mem_of_mem_splitOn '/' _
  · nofun
  · exact Text.not_mem_of_mem_splitOn '/' _
  · exact Text.not_mem_of_mem_splitOn '/' _

/-- The pieces behind a dot start with an empty one, and those of a plain path with a name. -/
theorem split_cases (path : Path) :
    path.split.1 = .root ∨
      (path.split.1 = .here ∧ ∀ first ∈ path.split.2.head?, first = []) ∨
      (path.split.1 = .plain ∧ startOf path.split.2 = .plain) := by
  obtain ⟨start, _⟩ := split_eq path
  rw [split] at start ⊢
  split at start
  · exact Or.inl rfl
  · exact Or.inr (Or.inl ⟨rfl, nofun⟩)
  · refine Or.inr (Or.inl ⟨rfl, ?_⟩)
    rintro _ ⟨⟩
    rfl
  · exact Or.inr (Or.inr ⟨rfl, start.symm⟩)

/-- The pieces at the front of a path are those of a path with the same start, unless the last of
them is no component. -/
theorem split_front (path : Path) {front back : List (List Char)} (pieces : path.split.2 = front ++ back)
    (ends : EndInName front) :
    (Path.mk (String.ofList (path.split.1.chars ++ glue front))).split.1 = path.split.1 ∧
      (Path.mk (String.ofList (path.split.1.chars ++ glue front))).names = proper front := by
  have noSeparator : ∀ piece ∈ front, '/' ∉ piece := by
    have all := separator_not_mem_split path
    rw [pieces, List.forall_mem_append] at all
    exact all.1
  have notEmpty : front ≠ [[]] := by
    rcases ends with rfl | ⟨before, last, rfl, notIdle⟩
    · nofun
    · exact concat_ne_empty notIdle
  rcases split_cases path with start | ⟨start, dotted⟩ | ⟨start, plain⟩
  all_goals
    rw [(split_eq _).1, (split_eq _).2, start]
    simp only [String.toList_ofList]
  · -- from the root
    have cutRoot : (Start.root.chars ++ glue front).splitOn '/' = [] :: (glue front).splitOn '/' :=
      List.splitOn_append_cons_self [] (glue front)
    rw [cutRoot, proper_cons_idle rfl, proper_splitOn_glue noSeparator]
    exact ⟨if_pos ⟨rfl, List.splitOn_ne_nil '/' _⟩, rfl⟩
  · -- from a dot, with a separator before the first name
    cases front with
    | nil => exact ⟨rfl, rfl⟩
    | cons first rest =>
        rw [pieces] at dotted
        cases dotted first rfl
        obtain ⟨second, others, rfl⟩ := List.exists_cons_of_ne_nil
          (fun none : rest = [] => notEmpty (by rw [none]))
        have cutHere : (Start.here.chars ++ glue ([] :: second :: others)).splitOn '/' =
            ['.'] :: (glue (second :: others)).splitOn '/' :=
          List.splitOn_append_cons_self ['.'] (glue (second :: others))
        rw [List.forall_mem_cons] at noSeparator
        rw [cutHere, proper_cons_idle rfl, proper_cons_idle rfl, proper_splitOn_glue noSeparator.2]
        exact ⟨rfl, rfl⟩
  · -- right from the first name
    cases front with
    | nil => exact ⟨rfl, rfl⟩
    | cons first rest =>
        rw [pieces] at plain
        have cutPlain : (Start.plain.chars ++ glue (first :: rest)).splitOn '/' = first :: rest :=
          List.splitOn_intercalate '/' noSeparator (List.cons_ne_nil _ _)
        rw [cutPlain]
        exact ⟨startOf_front plain, rfl⟩

/-- The directory of a path with names has the same start, and the names without the last one. -/
theorem parent?_of_names {path : Path} (present : path.names ≠ []) :
    ∃ directory, path.parent? = some directory ∧ directory.split.1 = path.split.1 ∧
      directory.names = path.names.dropLast := by
  obtain ⟨ends, names, back, pieces⟩ := exists_trim path.split.2
  rcases ends with none | ⟨front, last, trimmed, notIdle⟩
  · rw [none] at names
    exact absurd names.symm present
  obtain ⟨frontEnds, frontNames, rest, frontPieces⟩ := exists_trim front
  have parent : path.parent? = some ⟨String.ofList (path.split.1.chars ++ glue (trim front))⟩ := by
    rw [parent?]
    simp only [trimmed, List.getLast?_concat, List.dropLast_concat]
  have pathPieces : path.split.2 = trim front ++ (rest ++ [last] ++ back) := by
    rw [pieces, trimmed, ← List.append_assoc, ← List.append_assoc, ← frontPieces]
  have pathNames : path.names = proper front ++ [last] := by
    rw [Path.names, ← names, trimmed, proper_append, proper_singleton notIdle]
  obtain ⟨start, namesOfFront⟩ := split_front path pathPieces frontEnds
  refine ⟨_, parent, start, ?_⟩
  rw [namesOfFront, frontNames, pathNames, List.dropLast_concat]

/-- The directory of a name in a directory is that directory. -/
theorem parent?_join (directory : Path) {name : String} (isName : IsFileName name) :
    ∃ parent, (directory.join name).parent? = some parent ∧ parent.same directory = true := by
  obtain ⟨start, names⟩ := join_name directory isName
  have present : (directory.join name).names ≠ [] := by
    rw [names]
    exact List.append_ne_nil_of_right_ne_nil _ (List.cons_ne_nil _ _)
  obtain ⟨parent, found, startOfParent, namesOfParent⟩ := parent?_of_names present
  refine ⟨parent, found, same_iff.mpr ⟨startOfParent.trans start, ?_⟩⟩
  rw [namesOfParent, names, List.dropLast_concat]

/-- A path without names lies in the directory of the empty path. -/
theorem parent?_of_no_names {path : Path} (absent : path.names = []) :
    path.parent?.getD ⟨""⟩ = ⟨""⟩ := by
  obtain ⟨ends, names, _⟩ := exists_trim path.split.2
  rcases ends with none | ⟨front, last, trimmed, notIdle⟩
  · rw [parent?]
    simp only [none, List.getLast?_nil]
    cases path.split.1 <;> rfl
  · rw [trimmed, proper_append, proper_singleton notIdle] at names
    exact absurd (names.trans absent) (List.append_ne_nil_of_right_ne_nil _ (List.cons_ne_nil _ _))

/-- The path of a name in the directory of a path. -/
def beside (path : Path) (name : String) : Path :=
  (path.parent?.getD ⟨""⟩).join name

section

variable {path : Path} {name : String} (isName : IsFileName name)

include isName

/-- What lies beside a path has its names but for the last one. -/
theorem names_beside : (path.beside name).names = path.names.dropLast ++ [name.toList] := by
  obtain ⟨_, names⟩ := join_name (path.parent?.getD ⟨""⟩) isName
  rw [beside, names]
  by_cases absent : path.names = []
  · rw [parent?_of_no_names absent, absent]
    rfl
  · obtain ⟨directory, parent, _, namesOfParent⟩ := parent?_of_names absent
    rw [parent, ← namesOfParent]
    rfl

/-- What lies beside a path with names starts where it does. -/
theorem start_beside (present : path.names ≠ []) : (path.beside name).split.1 = path.split.1 := by
  obtain ⟨start, _⟩ := join_name (path.parent?.getD ⟨""⟩) isName
  obtain ⟨directory, parent, startOfParent, _⟩ := parent?_of_names present
  rw [beside, start, parent, ← startOfParent]
  rfl

/-- What lies beside a path without names starts from the working directory. -/
theorem start_beside_of_no_names (absent : path.names = []) :
    (path.beside name).split.1 = .plain := by
  obtain ⟨start, _⟩ := join_name (path.parent?.getD ⟨""⟩) isName
  rw [beside, start, parent?_of_no_names absent]
  rfl

/-- What lies beside a path is the same path if it has the same last name. -/
theorem same_beside (lastName : path.names = path.names.dropLast ++ [name.toList]) :
    (path.beside name).same path = true := by
  have present : path.names ≠ [] := by
    rw [lastName]
    exact List.append_ne_nil_of_right_ne_nil _ (List.cons_ne_nil _ _)
  exact same_iff.mpr ⟨start_beside isName present, (names_beside isName).trans lastName.symm⟩

/-- From anything beside a path one gets back to the path by its last name. -/
theorem same_beside_beside {other : String} (isOther : IsFileName other)
    (lastName : path.names = path.names.dropLast ++ [name.toList]) :
    ((path.beside other).beside name).same path = true := by
  have present : path.names ≠ [] := by
    rw [lastName]
    exact List.append_ne_nil_of_right_ne_nil _ (List.cons_ne_nil _ _)
  have between : (path.beside other).names = path.names.dropLast ++ [other.toList] :=
    names_beside isOther
  have betweenPresent : (path.beside other).names ≠ [] := by
    rw [between]
    exact List.append_ne_nil_of_right_ne_nil _ (List.cons_ne_nil _ _)
  refine same_iff.mpr ⟨(start_beside isName betweenPresent).trans (start_beside isOther present), ?_⟩
  rw [names_beside isName, between, List.dropLast_concat, ← lastName]

/-- Different names beside a path are different paths. -/
theorem beside_same_iff {other : String} (isOther : IsFileName other) :
    (path.beside name).same (path.beside other) = true ↔ name = other := by
  refine ⟨fun same => ?_, fun same => by rw [same]; exact same_iff.mpr ⟨rfl, rfl⟩⟩
  have names := (same_iff.mp same).2
  rw [names_beside isName, names_beside isOther] at names
  exact String.toList_injective (List.cons.inj (List.append_cancel_left names)).1

end

/-! ## File names -/

/-- The file name of a path is the last of its names, unless that leads up. -/
theorem fileName?_eq (path : Path) :
    path.fileName? = path.names.getLast?.filter fun name => name ≠ ['.', '.'] := by
  obtain ⟨ends, names, _⟩ := exists_trim path.split.2
  have last : path.names.getLast? = (trim path.split.2).getLast? := by
    rw [Path.names, ← names]
    rcases ends with none | ⟨front, last, trimmed, notIdle⟩
    · rw [none]
      rfl
    · rw [trimmed, proper_append, proper_singleton notIdle, List.getLast?_concat,
        List.getLast?_concat]
  rw [last, fileName?]
  cases (trim path.split.2).getLast? with
  | none => rfl
  | some piece => by_cases up : piece = ['.', '.'] <;> simp [up, Option.filter_some]

/-- The file name of a path is the last of its names. -/
theorem names_of_fileName? {path : Path} {piece : List Char} (named : path.fileName? = some piece) :
    path.names = path.names.dropLast ++ [piece] ∧ '/' ∉ piece := by
  rw [fileName?_eq, Option.filter_eq_some_iff, List.getLast?_eq_some_iff] at named
  obtain ⟨⟨front, names⟩, _⟩ := named
  have member : piece ∈ path.names := by
    rw [names]
    exact List.mem_append_right _ List.mem_cons_self
  refine ⟨by rw [names, List.dropLast_concat], ?_⟩
  exact separator_not_mem_split path piece (List.mem_filter.mp member).1

/-- A path whose last name does not lead up has it as its file name. -/
theorem fileName?_of_names {path : Path} {front : List (List Char)} {name : List Char}
    (names : path.names = front ++ [name]) (notUp : name ≠ ['.', '.']) :
    path.fileName? = some name := by
  rw [fileName?_eq, names, List.getLast?_concat, Option.filter_some, if_pos (decide_eq_true notUp)]

/-- The same paths have the same file name. -/
theorem fileName?_congr {one other : Path} (alike : one.same other = true) :
    one.fileName? = other.fileName? := by
  rw [fileName?_eq, fileName?_eq, (same_iff.mp alike).2]

theorem fileName?_join (directory : Path) {name : String} (isName : IsFileName name) :
    (directory.join name).fileName? = some name.toList :=
  fileName?_of_names (join_name directory isName).2 isName.notUp

/-- A name beside a path leads to the path itself just if it is the file name of the path. -/
theorem same_beside_iff {path : Path} {name : String} (isName : IsFileName name) :
    (path.beside name).same path = true ↔ path.fileName? = some name.toList := by
  refine ⟨fun same => ?_, fun named => same_beside isName (names_of_fileName? named).1⟩
  have names := (same_iff.mp same).2
  rw [names_beside isName] at names
  exact fileName?_of_names names.symm isName.notUp

/-! ## Stems and extensions -/

theorem cutAtLastDot_eq_none_iff {chars : List Char} : cutAtLastDot chars = none ↔ '.' ∉ chars := by
  induction chars with
  | nil => exact iff_of_true rfl List.not_mem_nil
  | cons c rest ih =>
      rw [cutAtLastDot, List.mem_cons, not_or, ← ih]
      cases cutAtLastDot rest with
      | some cut => exact ⟨nofun, nofun⟩
      | none =>
          by_cases dot : c = '.'
          · exact iff_of_false (by simp [dot]) fun both => both.1 dot.symm
          · exact iff_of_true (if_neg dot) ⟨Ne.symm dot, rfl⟩

/-- The last dot is the one that no other one follows. -/
theorem cutAtLastDot_append (front : List Char) {back : List Char} (noDot : '.' ∉ back) :
    cutAtLastDot (front ++ '.' :: back) = some (front, back) := by
  induction front with
  | nil => rw [List.nil_append, cutAtLastDot, cutAtLastDot_eq_none_iff.mpr noDot, if_pos rfl]
  | cons c front ih => rw [List.cons_append, cutAtLastDot, ih]

theorem cutAtLastDot_eq_some {chars front back : List Char}
    (found : cutAtLastDot chars = some (front, back)) : chars = front ++ '.' :: back ∧ '.' ∉ back := by
  induction chars generalizing front with
  | nil => cases found
  | cons c rest ih =>
      rw [cutAtLastDot] at found
      split at found
      · rename_i later
        cases found
        obtain ⟨rfl, noDot⟩ := ih later
        exact ⟨rfl, noDot⟩
      · rename_i none
        split at found
        · rename_i dot
          cases found
          exact ⟨by rw [dot]; rfl, cutAtLastDot_eq_none_iff.mp none⟩
        · cases found

/-- The stem of a path is its file name without the extension. -/
theorem stem?_of_fileName? {path : Path} {stem extension : List Char} (present : stem ≠ [])
    (noDot : '.' ∉ extension) (named : path.fileName? = some (stem ++ '.' :: extension)) :
    path.stem? = some (String.ofList stem) := by
  obtain ⟨first, rest, rfl⟩ := List.exists_cons_of_ne_nil present
  rw [stem?, named, Option.map_some, stemAndExtension, cutAtLastDot_append _ noDot]

/-- A path has an extension just if its file name is a stem with a dot and the extension. -/
theorem stem?_extension?_iff {path : Path} {stem extension : String} :
    path.stem? = some stem ∧ path.extension? = some extension ↔
      stem.toList ≠ [] ∧ '.' ∉ extension.toList ∧
        path.fileName? = some (stem.toList ++ '.' :: extension.toList) := by
  constructor
  · rintro ⟨stemFound, extensionFound⟩
    rw [stem?, Option.map_eq_some_iff] at stemFound
    obtain ⟨name, named, stemOf⟩ := stemFound
    rw [extension?, named, Option.bind_some, Option.map_eq_some_iff] at extensionFound
    obtain ⟨back, extensionOf, rfl⟩ := extensionFound
    rw [stemAndExtension] at stemOf extensionOf
    split at extensionOf
    · cases extensionOf
    · rename_i first before after cut
      cases extensionOf
      rw [cut] at stemOf
      cases stemOf
      obtain ⟨rfl, noDot⟩ := cutAtLastDot_eq_some cut
      rw [String.toList_ofList, String.toList_ofList]
      exact ⟨List.cons_ne_nil _ _, noDot, named⟩
    · cases extensionOf
  · rintro ⟨present, noDot, named⟩
    refine ⟨(stem?_of_fileName? present noDot named).trans (congrArg some String.ofList_toList), ?_⟩
    obtain ⟨first, rest, chars⟩ := List.exists_cons_of_ne_nil present
    rw [extension?, named, Option.bind_some, stemAndExtension, cutAtLastDot_append _ noDot, chars]
    exact congrArg some String.ofList_toList

end Phrasebook.Path
