import Phrasebook.Proofs.Tree.Merge

/-!
# The first language wins

Unification fails only for what the list of names shows: there is no language, or a name
comes again. Otherwise the schema is the tree of the first language, and no later language
adds, removes, moves or replaces a node of it.
-/

namespace Phrasebook

/-- The name is the first one of the list that equals an earlier one. -/
def Tree.IsFirstRepeat (name : String) (names : List String) : Prop :=
  ∃ front back, names = front ++ name :: back ∧ front.Nodup ∧ name ∈ front

/-- Looking for a repetition with some names seen before. -/
theorem repeated?_eq_some {seen names : List String} {name : String} :
    repeated? seen names = some name ↔
      ∃ front back, names = front ++ name :: back ∧ front.Nodup ∧
        (∀ other ∈ front, other ∉ seen) ∧ (name ∈ front ∨ name ∈ seen) := by
  induction names generalizing seen with
  | nil => simp [repeated?]
  | cons first rest ih =>
      rw [repeated?]
      by_cases known : first ∈ seen
      · rw [if_pos (List.contains_iff_mem.mpr known)]
        constructor
        · intro same
          cases same
          exact ⟨[], rest, rfl, List.nodup_nil, by simp, Or.inr known⟩
        · rintro ⟨front, back, split, _, fresh, _⟩
          cases front with
          | nil =>
              cases split
              rfl
          | cons other front =>
              cases split
              exact absurd known (fresh first List.mem_cons_self)
      · rw [if_neg (mt List.contains_iff_mem.mp known), ih]
        constructor
        · rintro ⟨front, back, split, nodup, fresh, seenBefore⟩
          have unseen : first ∉ front := fun member =>
            fresh first member List.mem_cons_self
          refine ⟨first :: front, back, ?_, List.nodup_cons.mpr ⟨unseen, nodup⟩, ?_, ?_⟩
          · rw [split, List.cons_append]
          · intro other member
            rcases List.mem_cons.mp member with rfl | later
            · exact known
            · exact fun seenOther => fresh other later (List.mem_cons_of_mem _ seenOther)
          · rcases seenBefore with inFront | inSeen
            · exact Or.inl (List.mem_cons_of_mem _ inFront)
            · rcases List.mem_cons.mp inSeen with rfl | inSeen
              · exact Or.inl List.mem_cons_self
              · exact Or.inr inSeen
        · rintro ⟨front, back, split, nodup, fresh, seenBefore⟩
          cases front with
          | nil =>
              cases split
              exact absurd (seenBefore.resolve_left List.not_mem_nil) known
          | cons other front =>
              cases split
              rw [List.nodup_cons] at nodup
              refine ⟨front, back, rfl, nodup.2, ?_, ?_⟩
              · intro other member
                rw [List.mem_cons, not_or]
                exact ⟨fun same => nodup.1 (same ▸ member),
                  fresh other (List.mem_cons_of_mem _ member)⟩
              · rcases seenBefore with inFront | inSeen
                · rcases List.mem_cons.mp inFront with rfl | inFront
                  · exact Or.inr List.mem_cons_self
                  · exact Or.inl inFront
                · exact Or.inr (List.mem_cons_of_mem _ inSeen)

theorem repeated?_eq_some_iff {names : List String} {name : String} :
    repeated? [] names = some name ↔ Tree.IsFirstRepeat name names := by
  rw [repeated?_eq_some]
  simp [Tree.IsFirstRepeat]

/-- Nothing is repeated when the names are distinct and none was seen before. -/
theorem repeated?_eq_none {seen names : List String} :
    repeated? seen names = none ↔ names.Nodup ∧ ∀ name ∈ names, name ∉ seen := by
  induction names generalizing seen with
  | nil => simp [repeated?]
  | cons first rest ih =>
      rw [repeated?, List.nodup_cons]
      by_cases known : first ∈ seen
      · rw [if_pos (List.contains_iff_mem.mpr known)]
        constructor
        · intro impossible
          cases impossible
        · rintro ⟨_, fresh⟩
          exact absurd known (fresh first List.mem_cons_self)
      · rw [if_neg (mt List.contains_iff_mem.mp known), ih]
        constructor
        · rintro ⟨nodup, fresh⟩
          refine ⟨⟨fun member => fresh first member List.mem_cons_self, nodup⟩, ?_⟩
          intro name member
          rcases List.mem_cons.mp member with rfl | later
          · exact known
          · exact fun seenName => fresh name later (List.mem_cons_of_mem _ seenName)
        · rintro ⟨⟨unseen, nodup⟩, fresh⟩
          refine ⟨nodup, ?_⟩
          intro name member
          rw [List.mem_cons, not_or]
          exact ⟨fun same => unseen (same ▸ member), fresh name (List.mem_cons_of_mem _ member)⟩

theorem repeated?_eq_none_iff {names : List String} :
    repeated? [] names = none ↔ names.Nodup := by
  rw [repeated?_eq_none]
  simp

namespace Tree

/-- Without languages there is no schema. -/
theorem unified_nil (diagnostics : Diagnostics) :
    unified [] diagnostics = (.error .noLanguages, diagnostics) := rfl

/-- A name that comes again is reported before any tree is looked at. -/
theorem unified_of_repeat
    {trees : List (Named Tree)} {name : String}
    (isFirst : IsFirstRepeat name (trees.map Named.name)) (diagnostics : Diagnostics) :
    unified trees diagnostics = (.error (.duplicateLanguage name), diagnostics) := by
  have nonempty : ¬ trees.isEmpty = true := by
    intro empty
    obtain ⟨front, back, split, _⟩ := isFirst
    rw [List.isEmpty_iff.mp empty] at split
    exact absurd split (by simp)
  rw [unified, if_neg nonempty, repeated?_eq_some_iff.mpr isFirst]

/-- The three ways in which unification can end. -/
theorem unified_cases
    {trees : List (Named Tree)} (settled : ∀ tree ∈ trees, tree.value.Settled)
    (diagnostics : Diagnostics) :
    (trees = [] ∧ unified trees diagnostics = (.error .noLanguages, diagnostics)) ∨
    (∃ name, IsFirstRepeat name (trees.map Named.name) ∧
      unified trees diagnostics = (.error (.duplicateLanguage name), diagnostics)) ∨
    (∃ first rest, trees = first :: rest ∧ (trees.map Named.name).Nodup ∧
      unified trees diagnostics =
        (.ok first.value, recordDifferences first.value rest diagnostics)) := by
  cases trees with
  | nil => exact Or.inl ⟨rfl, unified_nil diagnostics⟩
  | cons first rest =>
      cases repetition : repeated? [] ((first :: rest).map Named.name) with
      | some name =>
          have isFirst := repeated?_eq_some_iff.mp repetition
          exact Or.inr (Or.inl ⟨name, isFirst, unified_of_repeat isFirst diagnostics⟩)
      | none =>
          have firstSettled := settled first List.mem_cons_self
          exact Or.inr (Or.inr ⟨first, rest, rfl, repeated?_eq_none_iff.mp repetition,
            unified_of_nodup firstSettled repetition diagnostics⟩)

/-- Unification fails exactly for a list without languages and for a name that comes
again, and then leaves the diagnostics as they were; otherwise the schema is the first
tree. -/
theorem unified_first_language
    {trees : List (Named Tree)} (settled : ∀ tree ∈ trees, tree.value.Settled)
    (diagnostics : Diagnostics) :
    (∀ failure, (unified trees diagnostics).1 = .error failure ↔
      trees = [] ∧ failure = .noLanguages ∨
      ∃ name, IsFirstRepeat name (trees.map Named.name) ∧ failure = .duplicateLanguage name) ∧
    (∀ failure, (unified trees diagnostics).1 = .error failure →
      (unified trees diagnostics).2 = diagnostics ∧ failure ≠ .unconstrainedSchema ∧
        ∀ expected actual, failure ≠ .pathMismatch expected actual) ∧
    (∀ schema, (unified trees diagnostics).1 = .ok schema →
      trees.head?.map Named.value = some schema) := by
  have ends := unified_cases settled diagnostics
  refine ⟨fun failure => ⟨?_, ?_⟩, ?_, ?_⟩
  · intro failed
    rcases ends with ⟨none, outcome⟩ | ⟨name, isFirst, outcome⟩ | ⟨_, _, _, _, outcome⟩
    · rw [outcome] at failed
      cases failed
      exact Or.inl ⟨none, rfl⟩
    · rw [outcome] at failed
      cases failed
      exact Or.inr ⟨name, isFirst, rfl⟩
    · rw [outcome] at failed
      cases failed
  · rintro (⟨rfl, rfl⟩ | ⟨name, isFirst, rfl⟩)
    · rw [unified_nil]
    · rw [unified_of_repeat isFirst]
  · intro failure failed
    rcases ends with ⟨_, outcome⟩ | ⟨_, _, outcome⟩ | ⟨_, _, _, _, outcome⟩
    · rw [outcome] at failed ⊢
      cases failed
      exact ⟨rfl, Failure.noConfusion, fun _ _ => Failure.noConfusion⟩
    · rw [outcome] at failed ⊢
      cases failed
      exact ⟨rfl, Failure.noConfusion, fun _ _ => Failure.noConfusion⟩
    · rw [outcome] at failed
      cases failed
  · intro schema succeeded
    rcases ends with ⟨_, outcome⟩ | ⟨_, _, outcome⟩ | ⟨first, rest, rfl, _, outcome⟩
    · rw [outcome] at succeeded
      cases succeeded
    · rw [outcome] at succeeded
      cases succeeded
    · rw [outcome] at succeeded
      cases succeeded
      rfl

/-- A greeting that takes a name. -/
def salute : Named Tree :=
  ⟨"en", { entries := [("greet", .call [.literal "hi ", .param "name"])] }⟩

/-- Three trees, the last of them in the language of the first. -/
def greetings : List (Named Tree) :=
  [salute,
   ⟨"zh", { entries := [("greet", .record false [("main", .text "你好")])] }⟩,
   ⟨"en", { entries := [] }⟩]

theorem greetings_settled : ∀ tree ∈ greetings, tree.value.Settled := by
  decide

/-- A third document in a language that was there already: its name is reported, whatever
the trees hold. -/
theorem unified_repeated_greeting :
    (∀ tree ∈ greetings, tree.value.Settled) ∧
      (unified greetings []).1 = .error (.duplicateLanguage "en") := by
  have isFirst : IsFirstRepeat "en" (greetings.map Named.name) :=
    ⟨["en", "zh"], [], rfl, by decide, by decide⟩
  exact ⟨greetings_settled, ((unified_first_language greetings_settled []).1 _).mpr
    (Or.inr ⟨"en", isFirst, rfl⟩)⟩

end Tree

end Phrasebook
