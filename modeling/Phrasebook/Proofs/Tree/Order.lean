import Phrasebook.Proofs.Tree.Findings

/-!
# The order of the languages in diagnostics

Every language is compared with the first one alone, so the order of the others decides nothing
but the order of the diagnostics and of the languages that they list.
-/

namespace Phrasebook

/-- Two findings that expect the same and have the same of every language, in some order. -/
inductive Finding.Rearranged : Finding → Finding → Prop where
  | unexpectedValueType {found others : Entries String} (same : found.Perm others) :
      Rearranged (.unexpectedValueType found) (.unexpectedValueType others)
  | notFoundKey {languages others : List String} (side : MissingSide)
      (same : languages.Perm others) :
      Rearranged (.notFoundKey side languages) (.notFoundKey side others)
  | mismatchedKind {found others : Entries NodeKind} (expected : NodeKind)
      (same : found.Perm others) :
      Rearranged (.mismatchedKind expected found) (.mismatchedKind expected others)
  | mismatchedArguments {found others : Entries (List String)} (expected : List String)
      (same : found.Perm others) :
      Rearranged (.mismatchedArguments expected found) (.mismatchedArguments expected others)

/-- Two diagnostics of one path that differ in the order of their languages. -/
def Diagnostic.Rearranged (one other : Diagnostic) : Prop :=
  one.path = other.path ∧ one.finding.Rearranged other.finding

/-- Two lists of diagnostics that differ in the order of the diagnostics and of the languages in
them. -/
def Diagnostics.Rearranged (diagnostics others : Diagnostics) : Prop :=
  ∃ reordered, diagnostics.Perm reordered ∧
    List.Forall₂ Diagnostic.Rearranged reordered others

/-- Diagnostics as recording leaves them: one for each kind and path, which lists every language
once. -/
structure Diagnostics.Recorded (diagnostics : Diagnostics) : Prop where
  keys : (diagnostics.map Diagnostic.key).Nodup
  languages : ∀ diagnostic ∈ diagnostics, diagnostic.languages.Nodup

namespace Finding

theorem Rearranged.refl (finding : Finding) : Rearranged finding finding := by
  cases finding with
  | unexpectedValueType found => exact .unexpectedValueType (List.Perm.refl found)
  | notFoundKey side languages => exact .notFoundKey side (List.Perm.refl languages)
  | mismatchedKind expected found => exact .mismatchedKind expected (List.Perm.refl found)
  | mismatchedArguments expected found => exact .mismatchedArguments expected (List.Perm.refl found)

theorem Rearranged.trans {first second third : Finding} (one : Rearranged first second)
    (next : Rearranged second third) : Rearranged first third := by
  cases one with
  | unexpectedValueType same =>
      cases next with
      | unexpectedValueType more => exact .unexpectedValueType (same.trans more)
  | notFoundKey side same =>
      cases next with
      | notFoundKey _ more => exact .notFoundKey side (same.trans more)
  | mismatchedKind expected same =>
      cases next with
      | mismatchedKind _ more => exact .mismatchedKind expected (same.trans more)
  | mismatchedArguments expected same =>
      cases next with
      | mismatchedArguments _ more => exact .mismatchedArguments expected (same.trans more)

theorem Rearranged.symm {one other : Finding} (same : Rearranged one other) :
    Rearranged other one := by
  cases same with
  | unexpectedValueType same => exact .unexpectedValueType same.symm
  | notFoundKey side same => exact .notFoundKey side same.symm
  | mismatchedKind expected same => exact .mismatchedKind expected same.symm
  | mismatchedArguments expected same => exact .mismatchedArguments expected same.symm

theorem Rearranged.kind {one other : Finding} (same : Rearranged one other) :
    one.kind = other.kind := by
  cases same <;> rfl

/-! ## One observation -/

/-- The names after one more was noted. A name noted before keeps its place. -/
def noted (name : String) (names : List String) : List String :=
  if names.contains name then names else names ++ [name]

theorem noted_of_mem {name : String} {names : List String} (known : name ∈ names) :
    noted name names = names :=
  if_pos (List.contains_iff_mem.mpr known)

theorem noted_of_not_mem {name : String} {names : List String} (fresh : name ∉ names) :
    noted name names = names ++ [name] :=
  if_neg (mt List.contains_iff_mem.mp fresh)

theorem nodup_noted {names : List String} (nodup : names.Nodup) (name : String) :
    (noted name names).Nodup := by
  by_cases known : name ∈ names
  · rwa [noted_of_mem known]
  · rw [noted_of_not_mem known, ← List.concat_eq_append]
    exact nodup.concat known

theorem noted_perm {names others : List String} (same : names.Perm others) (name : String) :
    (noted name names).Perm (noted name others) := by
  by_cases known : name ∈ names
  · rwa [noted_of_mem known, noted_of_mem (same.mem_iff.mp known)]
  · rw [noted_of_not_mem known, noted_of_not_mem (mt same.mem_iff.mpr known)]
    exact same.append_right _

theorem noted_comm {name other : String} (apart : name ≠ other) (names : List String) :
    (noted other (noted name names)).Perm (noted name (noted other names)) := by
  by_cases known : name ∈ names
  · by_cases otherKnown : other ∈ names
    · rw [noted_of_mem known, noted_of_mem otherKnown, noted_of_mem known]
    · rw [noted_of_mem known, noted_of_not_mem otherKnown,
        noted_of_mem (List.mem_append_left _ known)]
  · by_cases otherKnown : other ∈ names
    · rw [noted_of_not_mem known, noted_of_mem otherKnown, noted_of_not_mem known,
        noted_of_mem (List.mem_append_left _ otherKnown)]
    · have fresh : name ∉ names ++ [other] := by simp [known, apart]
      have otherFresh : other ∉ names ++ [name] := by simp [otherKnown, Ne.symm apart]
      rw [noted_of_not_mem known, noted_of_not_mem otherKnown, noted_of_not_mem fresh,
        noted_of_not_mem otherFresh, List.append_assoc, List.append_assoc]
      exact (List.Perm.swap other name []).append_left names

theorem nodup_languages_add {finding : Finding} (nodup : finding.languages.Nodup)
    (language : String) (seen : Observation) : (finding.add language seen).languages.Nodup := by
  cases finding with
  | unexpectedValueType found =>
      cases seen with
      | unexpectedValueType typeName => exact Entries.nodup_keys_put nodup language typeName
      | _ => exact nodup
  | notFoundKey side names =>
      cases seen with
      | notFoundKey _ => exact nodup_noted nodup language
      | _ => exact nodup
  | mismatchedKind expected found =>
      cases seen with
      | mismatchedKind _ kind => exact Entries.nodup_keys_put nodup language kind
      | _ => exact nodup
  | mismatchedArguments expected found =>
      cases seen with
      | mismatchedArguments _ names => exact Entries.nodup_keys_put nodup language names
      | _ => exact nodup

/-- The same observation keeps findings rearrangements of each other. -/
theorem Rearranged.add {one other : Finding} (same : Rearranged one other)
    (nodup : one.languages.Nodup) (language : String) (seen : Observation) :
    Rearranged (one.add language seen) (other.add language seen) := by
  cases same with
  | unexpectedValueType same =>
      cases seen with
      | unexpectedValueType typeName =>
          exact .unexpectedValueType (Entries.put_perm nodup same language typeName)
      | _ => exact .unexpectedValueType same
  | notFoundKey side same =>
      cases seen with
      | notFoundKey _ => exact .notFoundKey side (noted_perm same language)
      | _ => exact .notFoundKey side same
  | mismatchedKind expected same =>
      cases seen with
      | mismatchedKind _ kind =>
          exact .mismatchedKind expected (Entries.put_perm nodup same language kind)
      | _ => exact .mismatchedKind expected same
  | mismatchedArguments expected same =>
      cases seen with
      | mismatchedArguments _ names =>
          exact .mismatchedArguments expected (Entries.put_perm nodup same language names)
      | _ => exact .mismatchedArguments expected same

/-- Observations of two languages can be added in any order. -/
theorem add_comm {seen otherSeen : Observation} (alike : Observation.Alike seen otherSeen)
    {language other : String} (apart : language ≠ other) (finding : Finding) :
    Rearranged ((finding.add language seen).add other otherSeen)
      ((finding.add other otherSeen).add language seen) := by
  cases alike with
  | unexpectedValueType typeName otherName =>
      cases finding with
      | unexpectedValueType found =>
          exact .unexpectedValueType (Entries.put_comm apart typeName otherName found)
      | _ => exact Rearranged.refl _
  | notFoundKey _ =>
      cases finding with
      | notFoundKey side names => exact .notFoundKey side (noted_comm apart names)
      | _ => exact Rearranged.refl _
  | mismatchedKind _ kind otherKind =>
      cases finding with
      | mismatchedKind expected found =>
          exact .mismatchedKind expected (Entries.put_comm apart kind otherKind found)
      | _ => exact Rearranged.refl _
  | mismatchedArguments _ names otherNames =>
      cases finding with
      | mismatchedArguments expected found =>
          exact .mismatchedArguments expected (Entries.put_comm apart names otherNames found)
      | _ => exact Rearranged.refl _

/-- The first two languages of a finding can be observed in any order. -/
theorem add_opened_comm {seen otherSeen : Observation} (alike : Observation.Alike seen otherSeen)
    {language other : String} (apart : language ≠ other) :
    Rearranged ((seen.opened language).add other otherSeen)
      ((otherSeen.opened other).add language seen) := by
  have swapped {α : Type} (value found : α) :
      (Entries.put other found [(language, value)]).Perm
        (Entries.put language value [(other, found)]) := Entries.put_comm apart value found []
  cases alike with
  | unexpectedValueType typeName otherName =>
      exact .unexpectedValueType (swapped typeName otherName)
  | notFoundKey side => exact .notFoundKey side (noted_comm apart [])
  | mismatchedKind expected kind otherKind =>
      exact .mismatchedKind expected (swapped kind otherKind)
  | mismatchedArguments expected names otherNames =>
      exact .mismatchedArguments expected (swapped names otherNames)

/-! ## All observations -/

/-- Two findings that may be there or not, and are rearrangements of each other if they are. -/
abbrev SameUpToOrder : Option Finding → Option Finding → Prop := Option.Rel Rearranged

theorem sameUpToOrder_refl (finding : Option Finding) : SameUpToOrder finding finding := by
  cases finding with
  | none => exact .none
  | some finding => exact .some (Rearranged.refl finding)

theorem SameUpToOrder.symm {first second : Option Finding} (same : SameUpToOrder first second) :
    SameUpToOrder second first := by
  cases same with
  | none => exact .none
  | some same => exact .some same.symm

theorem SameUpToOrder.trans {first second third : Option Finding}
    (one : SameUpToOrder first second) (next : SameUpToOrder second third) :
    SameUpToOrder first third := by
  cases one with
  | none => exact next
  | some one =>
      cases next with
      | some next => exact .some (one.trans next)

/-- A finding lists every language once, if there is one. -/
def ListsOnce (finding : Option Finding) : Prop :=
  ∀ found ∈ finding, found.languages.Nodup

variable {before after : Option Finding}

theorem listsOnce_gather (once : ListsOnce before) (language : String) (seen : Observation) :
    ListsOnce (some (gather language seen before)) := by
  rintro _ ⟨⟩
  cases before with
  | none =>
      rw [gather, languages_eq, shares_opened]
      exact List.nodup_singleton language
  | some finding => exact nodup_languages_add (once finding rfl) language seen

theorem gather_congr (same : SameUpToOrder before after) (once : ListsOnce before)
    (language : String) (seen : Observation) :
    Rearranged (gather language seen before) (gather language seen after) := by
  cases same with
  | none => exact Rearranged.refl _
  | @some one other same => exact same.add (once one rfl) language seen

theorem gather_comm {seen otherSeen : Observation} (alike : Observation.Alike seen otherSeen)
    {language other : String} (apart : language ≠ other) (before : Option Finding) :
    Rearranged (gather other otherSeen (some (gather language seen before)))
      (gather language seen (some (gather other otherSeen before))) := by
  cases before with
  | none => exact add_opened_comm alike apart
  | some finding => exact add_comm alike apart finding

/-- The same shares, gathered from findings that differ in their order. -/
theorem gatherAll_congr (shares : List (String × Observation))
    (same : SameUpToOrder before after) (once : ListsOnce before) :
    SameUpToOrder (gatherAll shares before) (gatherAll shares after) := by
  induction shares generalizing before after with
  | nil => exact same
  | cons share rest ih =>
      exact ih (.some (gather_congr same once share.1 share.2))
        (listsOnce_gather once share.1 share.2)

/-- Shares of distinct languages can be gathered in any order. -/
theorem gatherAll_perm {shares others : List (String × Observation)} (same : shares.Perm others)
    (names : (shares.map Prod.fst).Nodup)
    (alike : ∀ share ∈ shares, ∀ other ∈ shares, Observation.Alike share.2 other.2)
    (once : ListsOnce before) :
    SameUpToOrder (gatherAll shares before) (gatherAll others before) := by
  induction same generalizing before with
  | nil => exact sameUpToOrder_refl before
  | cons share same ih =>
      exact ih (List.nodup_cons.mp names).2
        (fun one member other otherMember => alike one (List.mem_cons_of_mem _ member) other
          (List.mem_cons_of_mem _ otherMember))
        (listsOnce_gather once share.1 share.2)
  | swap first second rest =>
      have apart : second.1 ≠ first.1 := fun same =>
        (List.nodup_cons.mp names).1 (same ▸ List.mem_cons_self)
      have pair := alike second List.mem_cons_self first (List.mem_cons_of_mem _ List.mem_cons_self)
      -- the two commute, and the tail is then gathered from findings that differ in their order
      exact gatherAll_congr rest (.some (gather_comm pair apart before))
        (listsOnce_gather (listsOnce_gather once second.1 second.2) first.1 first.2)
  | trans one next ihOne ihNext =>
      refine (ihOne names alike once).trans (ihNext ((one.map Prod.fst).nodup_iff.mp names) ?_ once)
      exact fun share member other otherMember =>
        alike share (one.mem_iff.mpr member) other (one.mem_iff.mpr otherMember)

end Finding

theorem Diagnostic.Rearranged.key_eq {one other : Diagnostic} (same : one.Rearranged other) :
    one.key = other.key :=
  Prod.ext same.2.kind same.1

namespace Diagnostics

variable {diagnostics others : Diagnostics}

/-- A diagnostic of the one list that the other has up to the order of its languages. -/
theorem exists_rearranged (nodup : (diagnostics.map Diagnostic.key).Nodup)
    (otherNodup : (others.map Diagnostic.key).Nodup)
    (same : ∀ kind path,
      Finding.SameUpToOrder (finding? kind path diagnostics) (finding? kind path others))
    {diagnostic : Diagnostic} (member : diagnostic ∈ others) :
    ∃ one ∈ diagnostics, one.Rearranged diagnostic := by
  have found := (mem_iff_finding? otherNodup diagnostic).mp member
  have rearranged := same diagnostic.kind diagnostic.path
  rw [found] at rearranged
  generalize isThere : finding? diagnostic.kind diagnostic.path diagnostics = there at rearranged
  cases rearranged with
  | @some finding _ rearranged =>
      exact ⟨⟨diagnostic.path, finding⟩, mem_of_finding? nodup isThere, rfl, rearranged⟩

section Pairing

variable {related : Diagnostic → Diagnostic → Prop}

/-- Each diagnostic of a list has a partner in another list, in a list of such partners. -/
theorem exists_partners
    (each : ∀ diagnostic ∈ others, ∃ one ∈ diagnostics, related one diagnostic) :
    ∃ partners, List.Forall₂ related partners others ∧ partners ⊆ diagnostics := by
  induction others with
  | nil => exact ⟨[], .nil, List.nil_subset _⟩
  | cons diagnostic rest ih =>
      obtain ⟨one, member, isRelated⟩ := each diagnostic List.mem_cons_self
      obtain ⟨partners, areRelated, members⟩ :=
        ih fun other later => each other (List.mem_cons_of_mem _ later)
      exact ⟨one :: partners, .cons isRelated areRelated, List.cons_subset.mpr ⟨member, members⟩⟩

theorem keys_of_related (sameKey : ∀ one other, related one other → one.key = other.key)
    (each : List.Forall₂ related diagnostics others) :
    diagnostics.map Diagnostic.key = others.map Diagnostic.key := by
  induction each with
  | nil => rfl
  | cons here _ ih => rw [List.map_cons, List.map_cons, ih, sameKey _ _ here]

/-- When each diagnostic of a list has a partner of its kind and path in another list, which has
no further kinds and paths, the other list is made of the partners. -/
theorem exists_paired (sameKey : ∀ one other, related one other → one.key = other.key)
    (nodup : (diagnostics.map Diagnostic.key).Nodup) (otherNodup : (others.map Diagnostic.key).Nodup)
    (each : ∀ diagnostic ∈ others, ∃ one ∈ diagnostics, related one diagnostic)
    (keys : ∀ diagnostic ∈ diagnostics, diagnostic.key ∈ others.map Diagnostic.key) :
    ∃ partners, diagnostics.Perm partners ∧ List.Forall₂ related partners others := by
  obtain ⟨partners, areRelated, members⟩ := exists_partners each
  have partnerKeys := keys_of_related sameKey areRelated
  refine ⟨partners, ?_, areRelated⟩
  have partnersNodup : partners.Nodup := by
    refine List.Nodup.of_map Diagnostic.key ?_
    rwa [partnerKeys]
  refine (List.perm_ext_iff_of_nodup (nodup.of_map _) partnersNodup).mpr fun diagnostic => ?_
  refine ⟨fun member => ?_, fun member => members member⟩
  have listed := keys diagnostic member
  rw [← partnerKeys] at listed
  obtain ⟨partner, isPartner, same⟩ := List.mem_map.mp listed
  have one : partner = diagnostic := List.inj_on_of_nodup_map nodup (members isPartner) member same
  rwa [← one]

end Pairing

/-- Diagnostics with the same findings up to the order of their languages are the same up to
their order. -/
theorem rearranged_of_finding? (nodup : (diagnostics.map Diagnostic.key).Nodup)
    (otherNodup : (others.map Diagnostic.key).Nodup)
    (same : ∀ kind path,
      Finding.SameUpToOrder (finding? kind path diagnostics) (finding? kind path others)) :
    Rearranged diagnostics others := by
  refine exists_paired (fun _ _ => Diagnostic.Rearranged.key_eq) nodup otherNodup
    (fun diagnostic member => exists_rearranged nodup otherNodup same member) ?_
  intro diagnostic member
  obtain ⟨other, otherMember, rearranged⟩ := exists_rearranged otherNodup nodup
    (fun kind path => (same kind path).symm) member
  exact List.mem_map.mpr ⟨other, otherMember, rearranged.key_eq⟩

end Diagnostics

namespace Tree

theorem conflictsOf_perm {languages others : List (Named Tree)} (same : languages.Perm others)
    (first : Tree) (kind : DiagnosticKind) (path : KeyPath) :
    (conflictsOf first kind path languages).Perm (conflictsOf first kind path others) :=
  same.filterMap _

/-- What the languages differ in from the first tree is recorded in any order. -/
theorem recordDifferences_perm
    {first : Tree} (settled : first.Settled) {languages others : List (Named Tree)}
    (names : (languages.map Named.name).Nodup) (same : languages.Perm others)
    {before : Diagnostics} (recorded : before.Recorded) :
    Diagnostics.Rearranged (recordDifferences first languages before)
      (recordDifferences first others before) := by
  refine Diagnostics.rearranged_of_finding? (nodup_recordDifferences first languages recorded.keys)
    (nodup_recordDifferences first others recorded.keys) fun kind path => ?_
  rw [finding?_recordDifferences settled, finding?_recordDifferences settled]
  refine Finding.gatherAll_perm (conflictsOf_perm same first kind path)
    (names.sublist (conflictsOf_names_sublist first kind path languages)) conflictsOf_alike ?_
  intro finding found
  exact recorded.languages _ (Diagnostics.mem_of_finding? recorded.keys found)

end Tree

end Phrasebook
