import Phrasebook.Proofs.Tree.Order
import Phrasebook.Proofs.Tree.Place

/-!
# Two languages in either order

Unification walks through two trees in different ways: once along the reference tree, and once
along the other one. For two languages the order still decides nothing but the point of view. The
same conflicts are recorded either way, and each has its sides exchanged.
-/

namespace Phrasebook

/-- The side that has the key which the given one lacks. -/
def MissingSide.opposite : MissingSide → MissingSide
  | .canonical => .incoming
  | .incoming => .canonical

/-- What is observed of a conflict when the reference tree and the language change places. -/
def Observation.mirrored : Observation → Observation
  | .unexpectedValueType typeName => .unexpectedValueType typeName
  | .notFoundKey side => .notFoundKey side.opposite
  | .mismatchedKind expected found => .mismatchedKind found expected
  | .mismatchedArguments expected found => .mismatchedArguments found expected

/-- Two diagnostics of one conflict between two languages: the first compares with the one
language and blames the other, the second is recorded when they change places. -/
inductive Diagnostic.Mirrors (one other : Named Tree) : Diagnostic → Diagnostic → Prop where
  | onlyInOne {path : KeyPath} {node : Node}
      (present : one.value.lookup path = some node) (absent : other.value.lookup path = none) :
      Mirrors one other ⟨path, .notFoundKey .incoming [other.name]⟩
        ⟨path, .notFoundKey .canonical [one.name]⟩
  | onlyInOther {path : KeyPath} {node : Node}
      (absent : one.value.lookup path = none) (present : other.value.lookup path = some node) :
      Mirrors one other ⟨path, .notFoundKey .canonical [other.name]⟩
        ⟨path, .notFoundKey .incoming [one.name]⟩
  | kinds {path : KeyPath} {kind otherKind : NodeKind}
      (isKind : (one.value.lookup path).map Node.kind = some kind)
      (isOther : (other.value.lookup path).map Node.kind = some otherKind)
      (apart : kind ≠ otherKind) :
      Mirrors one other ⟨path, .mismatchedKind kind [(other.name, otherKind)]⟩
        ⟨path, .mismatchedKind otherKind [(one.name, kind)]⟩
  | arguments {path : KeyPath} {names otherNames : List String}
      (takes : (one.value.lookup path).bind Node.params? = some names)
      (otherTakes : (other.value.lookup path).bind Node.params? = some otherNames)
      (apart : names ≠ otherNames) :
      Mirrors one other ⟨path, .mismatchedArguments names [(other.name, otherNames)]⟩
        ⟨path, .mismatchedArguments otherNames [(one.name, names)]⟩

/-- Exchanging the languages exchanges the diagnostics. -/
theorem Diagnostic.Mirrors.symm {one other : Named Tree} {diagnostic mirror : Diagnostic}
    (mirrors : Mirrors one other diagnostic mirror) : Mirrors other one mirror diagnostic := by
  cases mirrors with
  | onlyInOne present absent => exact .onlyInOther absent present
  | onlyInOther absent present => exact .onlyInOne present absent
  | kinds isKind isOther apart => exact .kinds isOther isKind apart.symm
  | arguments takes otherTakes apart => exact .arguments otherTakes takes apart.symm

theorem Diagnostic.Mirrors.key_eq {one other : Named Tree} {diagnostic mirror : Diagnostic}
    (mirrors : Mirrors one other diagnostic mirror) : diagnostic.key = mirror.key := by
  cases mirrors <;> rfl

namespace Node

theorem conflict?_mirrored (one other : Node) :
    conflict? other one = (conflict? one other).map Observation.mirrored := by
  cases one with
  | call body =>
      cases other with
      | call otherBody =>
          rw [conflict?, conflict?]
          by_cases same : Body.paramSet body = Body.paramSet otherBody
          · rw [if_pos same, if_pos same.symm]
            rfl
          · rw [if_neg same, if_neg (Ne.symm same)]
            rfl
      | _ => rfl
  | _ => cases other <;> rfl

/-- What one tree has against another at a path is the mirror image of what that one has against
it: a key is missing on the opposite side, and what is expected and what is found are exchanged. -/
theorem conflictAt?_mirrored (one other : Node) (path : KeyPath) :
    conflictAt? other one path = (conflictAt? one other path).map Observation.mirrored := by
  induction path generalizing one other with
  | nil =>
      rw [conflictAt?, conflictAt?]
      exact conflict?_mirrored one other
  | cons key rest ih =>
      cases one with
      | record isOpen entries =>
          cases other with
          | record isOther others =>
              rw [conflictAt?, conflictAt?]
              cases List.lookup key entries with
              | none =>
                  cases List.lookup key others with
                  | none => rfl
                  | some found => cases rest <;> rfl
              | some expected =>
                  cases List.lookup key others with
                  | none => cases rest <;> rfl
                  | some found => exact ih expected found
          | _ => rfl
      | _ => cases other <;> rfl

/-- A value that cannot be a message is no conflict of two trees. -/
theorem conflictAt?_ne_unexpectedValueType {one other : Node} {path : KeyPath} {typeName : String} :
    conflictAt? one other path ≠ some (.unexpectedValueType typeName) := by
  intro conflict
  rw [conflictAt?_eq_some_iff fun _ => Observation.noConfusion] at conflict
  obtain ⟨_, _, _, _, nodes⟩ := conflict
  rcases conflict?_cases nodes with ⟨_, _, _, impossible⟩ | impossible
  · cases impossible
  · cases impossible

end Node

namespace Tree

/-- What one tree has against another at a path is the mirror image of what that one has against
it. -/
theorem conflictAt?_mirrored (one other : Tree) (path : KeyPath) :
    other.conflictAt? one path = (one.conflictAt? other path).map Observation.mirrored :=
  Node.conflictAt?_mirrored one.toNode other.toNode path

theorem nodup_of_no_diagnostics (reference : Tree) (languages : List (Named Tree)) :
    ((recordDifferences reference languages []).map Diagnostic.key).Nodup :=
  nodup_recordDifferences reference languages List.nodup_nil

/-- The diagnostics of a single language are its conflicts with the reference tree. -/
theorem mem_recordDifferences_single
    {reference : Tree} (settled : reference.Settled) (language : Named Tree)
    (diagnostic : Diagnostic) :
    diagnostic ∈ recordDifferences reference [language] [] ↔
      ∃ seen, reference.conflictAt? language.value diagnostic.path = some seen ∧
        diagnostic.finding = seen.opened language.name := by
  rw [Diagnostics.mem_iff_finding? (nodup_of_no_diagnostics reference [language]),
    finding?_recordDifferences settled, conflictsOf, List.filterMap_cons]
  cases conflict : reference.conflictAt? language.value diagnostic.path with
  | none =>
      refine iff_of_false ?_ ?_
      · rintro ⟨⟩
      · rintro ⟨_, ⟨⟩, _⟩
  | some seen =>
      by_cases sameKind : seen.kind = diagnostic.kind
      · simp only [sameKind, if_true]
        constructor
        · intro found
          exact ⟨seen, rfl, (Option.some.inj found).symm⟩
        · rintro ⟨_, ⟨⟩, opened⟩
          rw [opened]
          rfl
      · simp only [sameKind, if_false]
        refine iff_of_false ?_ ?_
        · rintro ⟨⟩
        · rintro ⟨_, ⟨⟩, opened⟩
          refine sameKind ?_
          rw [Diagnostic.kind, opened, Finding.kind_opened]

/-- A conflict of two trees and its mirror image, as diagnostics. -/
theorem mirrors_opened {one other : Named Tree} {path : KeyPath} {seen : Observation}
    (conflict : one.value.conflictAt? other.value path = some seen) :
    Diagnostic.Mirrors one other ⟨path, seen.opened other.name⟩
      ⟨path, seen.mirrored.opened one.name⟩ := by
  have inside := ne_nil_of_conflictAt? conflict
  have here := lookup_eq_at? one.value inside
  have there := lookup_eq_at? other.value inside
  rw [conflictAt?] at conflict
  cases seen with
  | unexpectedValueType typeName =>
      exact absurd conflict Node.conflictAt?_ne_unexpectedValueType
  | notFoundKey side =>
      cases side with
      | incoming =>
          obtain ⟨⟨node, present⟩, absent⟩ := Node.at?_of_incoming conflict
          exact .onlyInOne (here.trans present) (there.trans absent)
      | canonical =>
          obtain ⟨absent, ⟨node, present⟩⟩ := Node.at?_of_canonical conflict
          exact .onlyInOther (here.trans absent) (there.trans present)
  | mismatchedKind kind otherKind =>
      rw [Node.conflictAt?_eq_mismatchedKind_iff, ← here, ← there] at conflict
      exact .kinds conflict.1 conflict.2.1 (Ne.symm conflict.2.2)
  | mismatchedArguments names otherNames =>
      rw [Node.conflictAt?_eq_mismatchedArguments_iff, ← here, ← there] at conflict
      exact .arguments conflict.1 conflict.2.1 (Ne.symm conflict.2.2)

/-- Every diagnostic of the one order has its mirror image in the other. -/
theorem exists_mirror_image
    {one other : Named Tree} (settled : one.value.Settled) (otherSettled : other.value.Settled)
    {diagnostic : Diagnostic}
    (member : diagnostic ∈ recordDifferences one.value [other] []) :
    ∃ image ∈ recordDifferences other.value [one] [], Diagnostic.Mirrors one other diagnostic image := by
  obtain ⟨path, finding⟩ := diagnostic
  obtain ⟨seen, conflict, opened⟩ :=
    (mem_recordDifferences_single settled other _).mp member
  cases opened
  have image : other.value.conflictAt? one.value path = some seen.mirrored := by
    rw [conflictAt?_mirrored one.value, conflict]
    rfl
  exact ⟨_, (mem_recordDifferences_single otherSettled one _).mpr
    ⟨seen.mirrored, image, rfl⟩, mirrors_opened conflict⟩

/-- Unification of two languages records the conflicts of the second with the first. -/
theorem unify_pair {one other : Named Tree} (apart : one.name ≠ other.name)
    (settled : one.value.Settled) :
    unify [one, other] [] = .ok (one.value, recordDifferences one.value [other] []) := by
  have names : ([one, other].map Named.name).Nodup := by simpa using apart
  rw [unify, unified_of_nodup settled (repeated?_eq_none_iff.mpr names)]

/-- For two languages the order decides only the point of view. Either way the first tree is the
schema and one diagnostic is recorded for each kind and path, with the same kinds and paths. Those
of the one order are the mirror images of those of the other: a key that only the first has is
missing in the language and, the other way round, beyond the reference tree; where kinds or
parameters differ, what is expected and what is found are exchanged; and the second language of
the order is blamed. -/
theorem unify_exchanged {one other : Named Tree} (apart : one.name ≠ other.name)
    (settled : one.value.Settled) (otherSettled : other.value.Settled) :
    ∃ forth back, unify [one, other] [] = .ok (one.value, forth) ∧
      unify [other, one] [] = .ok (other.value, back) ∧
      (forth.map Diagnostic.key).Nodup ∧ (back.map Diagnostic.key).Nodup ∧
      (∀ key, key ∈ forth.map Diagnostic.key ↔ key ∈ back.map Diagnostic.key) ∧
      ∃ images, forth.Perm images ∧ List.Forall₂ (Diagnostic.Mirrors one other) images back := by
  have nodup := nodup_of_no_diagnostics one.value [other]
  have otherNodup := nodup_of_no_diagnostics other.value [one]
  have sameKey (diagnostic image : Diagnostic) :
      Diagnostic.Mirrors one other diagnostic image → diagnostic.key = image.key :=
    Diagnostic.Mirrors.key_eq
  have each : ∀ image ∈ recordDifferences other.value [one] [],
      ∃ diagnostic ∈ recordDifferences one.value [other] [],
        Diagnostic.Mirrors one other diagnostic image := by
    intro image member
    obtain ⟨diagnostic, isThere, mirrors⟩ :=
      exists_mirror_image otherSettled settled member
    exact ⟨diagnostic, isThere, mirrors.symm⟩
  have noFurther : ∀ diagnostic ∈ recordDifferences one.value [other] [],
      diagnostic.key ∈ (recordDifferences other.value [one] []).map Diagnostic.key := by
    intro diagnostic member
    obtain ⟨image, isThere, mirrors⟩ :=
      exists_mirror_image settled otherSettled member
    exact List.mem_map.mpr ⟨image, isThere, mirrors.key_eq.symm⟩
  obtain ⟨partners, reordered, mirrored⟩ :=
    Diagnostics.exists_paired sameKey nodup otherNodup each noFurther
  refine ⟨_, _, unify_pair apart settled,
    unify_pair apart.symm otherSettled, nodup, otherNodup, ?_,
    partners, reordered, mirrored⟩
  intro key
  rw [← Diagnostics.keys_of_related sameKey mirrored]
  exact (reordered.map Diagnostic.key).mem_iff

/-- A menu with a record that the next one lacks a key of. -/
def menu : Named Tree :=
  ⟨"en", { entries :=
    [("order", .call [.literal "for ", .param "table"]), ("bill", .text "The bill"),
     ("drinks", .record false [("tea", .text "Tea"), ("water", .text "Water")])] }⟩

/-- A menu with another parameter, another kind of node, and a key of its own below the record. -/
def carte : Named Tree :=
  ⟨"fr", { entries :=
    [("drinks", .record false [("tea", .text "Thé"), ("wine", .text "Vin")]),
     ("bill", .call [.param "total"]), ("order", .call [.param "name"])] }⟩

/-- The menus have four conflicts in either order. -/
theorem unify_exchanged_menus :
    ∃ forth back, unify [menu, carte] [] = .ok (menu.value, forth) ∧
      unify [carte, menu] [] = .ok (carte.value, back) ∧
      (∀ key, key ∈ forth.map Diagnostic.key ↔ key ∈ back.map Diagnostic.key) ∧
      (∃ images, forth.Perm images ∧ List.Forall₂ (Diagnostic.Mirrors menu carte) images back) ∧
      forth.map Diagnostic.key =
        [(.mismatchedKind, ["bill"]), (.notFoundKey, ["drinks", "water"]),
         (.notFoundKey, ["drinks", "wine"]), (.mismatchedArguments, ["order"])] := by
  obtain ⟨forth, back, outcome, backOutcome, _, _, keys, images⟩ :=
    unify_exchanged (show menu.name ≠ carte.name by decide) (by decide) (by decide)
  have recorded : (unify [menu, carte] []).toOption.map (fun result => result.2.map Diagnostic.key) =
      some [(.mismatchedKind, ["bill"]), (.notFoundKey, ["drinks", "water"]),
        (.notFoundKey, ["drinks", "wine"]), (.mismatchedArguments, ["order"])] := by
    decide
  rw [outcome] at recorded
  exact ⟨forth, back, outcome, backOutcome, keys, images, Option.some.inj recorded⟩

end Tree

end Phrasebook
