import Phrasebook.Proofs.Diagnostics
import Phrasebook.Proofs.Tree.Conflict
import Phrasebook.Proofs.Tree.FirstLanguage

/-!
# What unification records

The diagnostics of a unification are the conflicts of the first tree with each later
language and nothing else: one diagnostic for each kind and path with a conflict, which
lists the languages in their order, each with what it has there.
-/

namespace Phrasebook

/-- Two observations that agree on what is expected, and so may share a finding. -/
inductive Observation.Alike : Observation → Observation → Prop where
  | unexpectedValueType (first second : String) :
      Alike (.unexpectedValueType first) (.unexpectedValueType second)
  | notFoundKey (side : MissingSide) : Alike (.notFoundKey side) (.notFoundKey side)
  | mismatchedKind (expected first second : NodeKind) :
      Alike (.mismatchedKind expected first) (.mismatchedKind expected second)
  | mismatchedArguments (expected first second : List String) :
      Alike (.mismatchedArguments expected first) (.mismatchedArguments expected second)

namespace Finding

theorem shares_opened (language : String) (seen : Observation) :
    (seen.opened language).shares = [(language, seen)] := by
  cases seen <;> rfl

/-- A new language goes to the end, with what it has. -/
theorem shares_add
    {finding : Finding} {language : String} {seen : Observation}
    (alike : ∃ share ∈ finding.shares, Observation.Alike share.2 seen)
    (fresh : language ∉ finding.languages) :
    (finding.add language seen).shares = finding.shares ++ [(language, seen)] := by
  obtain ⟨⟨other, share⟩, member, alike⟩ := alike
  cases finding with
  | unexpectedValueType found =>
      obtain ⟨entry, _, same⟩ := List.mem_map.mp member
      cases same
      cases alike
      rw [add, shares, Entries.put_of_not_mem fresh, List.map_append]
      rfl
  | notFoundKey side names =>
      obtain ⟨entry, _, same⟩ := List.mem_map.mp member
      cases same
      cases alike
      have absent : ¬ names.contains language = true := mt List.contains_iff_mem.mp fresh
      rw [add, if_neg absent, shares, List.map_append]
      rfl
  | mismatchedKind expected found =>
      obtain ⟨entry, _, same⟩ := List.mem_map.mp member
      cases same
      cases alike
      rw [add, shares, Entries.put_of_not_mem fresh, List.map_append]
      rfl
  | mismatchedArguments expected found =>
      obtain ⟨entry, _, same⟩ := List.mem_map.mp member
      cases same
      cases alike
      rw [add, shares, Entries.put_of_not_mem fresh, List.map_append]
      rfl

/-- The finding after a list of shares. -/
def gatherAll (shares : List (String × Observation)) (before : Option Finding) : Option Finding :=
  shares.foldl (fun before share => some (gather share.1 share.2 before)) before

/-- Shares of distinct languages that agree on what is expected are all listed, in their
order. -/
theorem gatherAll_some
    {shares : List (String × Observation)} {finding : Finding} {first : String × Observation}
    (listed : first ∈ finding.shares)
    (alike : ∀ share ∈ shares, Observation.Alike first.2 share.2)
    (nodup : (finding.languages ++ shares.map Prod.fst).Nodup) :
    ∃ result, gatherAll shares (some finding) = some result ∧
      result.shares = finding.shares ++ shares := by
  induction shares generalizing finding with
  | nil => exact ⟨finding, rfl, (List.append_nil _).symm⟩
  | cons share rest ih =>
      have fresh : share.1 ∉ finding.languages := by
        intro member
        exact (List.nodup_append.mp nodup).2.2 share.1 member share.1 List.mem_cons_self rfl
      have added := shares_add ⟨first, listed, alike share List.mem_cons_self⟩ fresh
      have stillListed : first ∈ (finding.add share.1 share.2).shares := by
        rw [added]
        exact List.mem_append_left _ listed
      have restNodup : ((finding.add share.1 share.2).languages ++ rest.map Prod.fst).Nodup := by
        rw [languages_eq, added, List.map_append, ← languages_eq, List.append_assoc]
        exact nodup
      obtain ⟨result, outcome, same⟩ := ih stillListed
        (fun other member => alike other (List.mem_cons_of_mem _ member)) restNodup
      refine ⟨result, outcome, ?_⟩
      rw [same, added, List.append_assoc]
      rfl

theorem gatherAll_none
    {shares : List (String × Observation)}
    (alike : ∀ first ∈ shares, ∀ second ∈ shares, Observation.Alike first.2 second.2)
    (nodup : (shares.map Prod.fst).Nodup) (nonempty : shares ≠ []) :
    ∃ result, gatherAll shares none = some result ∧ result.shares = shares := by
  cases shares with
  | nil => exact absurd rfl nonempty
  | cons first rest =>
      have opened := shares_opened first.1 first.2
      have listed : first ∈ (first.2.opened first.1).shares := by
        rw [opened]
        exact List.mem_singleton_self first
      have restNodup : ((first.2.opened first.1).languages ++ rest.map Prod.fst).Nodup := by
        rw [languages_eq, opened]
        exact nodup
      obtain ⟨result, outcome, same⟩ := gatherAll_some listed
        (fun share member => alike first List.mem_cons_self share (List.mem_cons_of_mem _ member))
        restNodup
      refine ⟨result, outcome, ?_⟩
      rw [same, opened]
      rfl

end Finding

namespace Node

theorem conflict?_alike
    {expected first second : Node} {firstSeen secondSeen : Observation}
    (firstConflict : conflict? expected first = some firstSeen)
    (secondConflict : conflict? expected second = some secondSeen)
    (sameKind : firstSeen.kind = secondSeen.kind) : Observation.Alike firstSeen secondSeen := by
  rcases conflict?_cases firstConflict with ⟨body, found, rfl, rfl⟩ | rfl
  · rcases conflict?_cases secondConflict with ⟨other, otherFound, same, rfl⟩ | rfl
    · cases same
      exact .mismatchedArguments _ _ _
    · cases sameKind
  · rcases conflict?_cases secondConflict with ⟨other, otherFound, _, rfl⟩ | rfl
    · cases sameKind
    · exact .mismatchedKind _ _ _

/-- What two languages have against one tree at a path agrees on what is expected, if it is
of one kind. -/
theorem conflictAt?_alike
    {expected first second : Node} {path : KeyPath} {firstSeen secondSeen : Observation}
    (firstConflict : conflictAt? expected first path = some firstSeen)
    (secondConflict : conflictAt? expected second path = some secondSeen)
    (sameKind : firstSeen.kind = secondSeen.kind) : Observation.Alike firstSeen secondSeen := by
  induction path generalizing expected first second with
  | nil =>
      rw [conflictAt?] at firstConflict secondConflict
      exact conflict?_alike firstConflict secondConflict sameKind
  | cons key rest ih =>
      obtain ⟨isOpen, schema, _, firstEntries, rfl, rfl⟩ := records_of_conflictAt?_cons firstConflict
      obtain ⟨_, _, _, secondEntries, same, rfl⟩ := records_of_conflictAt?_cons secondConflict
      cases same
      -- a missing key is never of one kind with a conflict of two nodes
      have apart {node other : Node} {seen : Observation} {side : MissingSide}
          (conflict : conflictAt? node other [] = some seen) :
          seen.kind ≠ (Observation.notFoundKey side).kind := by
        rw [conflictAt?] at conflict
        rcases conflict?_cases conflict with ⟨_, _, _, rfl⟩ | rfl
        · exact DiagnosticKind.noConfusion
        · exact DiagnosticKind.noConfusion
      rcases conflictAt?_cons.mp firstConflict with
        ⟨node, _, known, _, inFirst⟩ | ⟨⟨node, known⟩, _, rfl, rfl⟩ | ⟨unknown, _, rfl, rfl⟩
      · rcases conflictAt?_cons.mp secondConflict with
          ⟨other, _, otherKnown, _, inSecond⟩ | ⟨_, _, rfl, rfl⟩ | ⟨unknown, _⟩
        · rw [known] at otherKnown
          cases otherKnown
          exact ih inFirst inSecond
        · exact absurd sameKind (apart inFirst)
        · rw [known] at unknown
          cases unknown
      · rcases conflictAt?_cons.mp secondConflict with
          ⟨_, _, _, _, inSecond⟩ | ⟨_, _, _, rfl⟩ | ⟨unknown, _⟩
        · exact absurd sameKind.symm (apart inSecond)
        · exact .notFoundKey _
        · rw [known] at unknown
          cases unknown
      · rcases conflictAt?_cons.mp secondConflict with
          ⟨_, _, known, _⟩ | ⟨⟨_, known⟩, _⟩ | ⟨_, _, _, rfl⟩
        · rw [known] at unknown
          cases unknown
        · rw [known] at unknown
          cases unknown
        · exact .notFoundKey _

end Node

namespace Tree

/-- What the languages have against the first tree in conflicts of one kind at a path, in
their order. -/
def conflictsOf (first : Tree) (kind : DiagnosticKind) (path : KeyPath)
    (languages : List (Named Tree)) : List (String × Observation) :=
  languages.filterMap fun language =>
    match first.conflictAt? language.value path with
    | some observation =>
        if observation.kind = kind then some (language.name, observation) else none
    | none => none

theorem mem_conflictsOf
    {first : Tree} {kind : DiagnosticKind} {path : KeyPath} {languages : List (Named Tree)}
    {name : String} {observation : Observation} :
    (name, observation) ∈ conflictsOf first kind path languages ↔
      ∃ language ∈ languages, language.name = name ∧
        first.conflictAt? language.value path = some observation ∧ observation.kind = kind := by
  rw [conflictsOf, List.mem_filterMap]
  refine exists_congr fun language => and_congr_right fun _ => ?_
  cases first.conflictAt? language.value path with
  | none => simp
  | some seen =>
      by_cases same : seen.kind = kind
      · simp only [same, if_true, Option.some.injEq, Prod.mk.injEq]
        constructor
        · rintro ⟨rfl, rfl⟩
          exact ⟨rfl, rfl, same⟩
        · rintro ⟨rfl, rfl, _⟩
          exact ⟨rfl, rfl⟩
      · simp only [same, if_false, Option.some.injEq]
        constructor
        · intro impossible
          cases impossible
        · rintro ⟨_, rfl, isKind⟩
          exact absurd isKind same

theorem conflictsOf_names_sublist
    (first : Tree) (kind : DiagnosticKind) (path : KeyPath) (languages : List (Named Tree)) :
    ((conflictsOf first kind path languages).map Prod.fst).Sublist (languages.map Named.name) := by
  induction languages with
  | nil => exact List.Sublist.refl _
  | cons language rest ih =>
      rw [conflictsOf, List.filterMap_cons]
      cases first.conflictAt? language.value path with
      | none => exact ih.cons _
      | some seen =>
          by_cases same : seen.kind = kind
          · simp only [same, if_true]
            exact ih.cons_cons _
          · simp only [same, if_false]
            exact ih.cons _

/-- Recording the differences of language after language gathers the conflicts in the order
of the languages. -/
theorem finding?_recordDifferences
    {first : Tree} (settled : first.Settled) (languages : List (Named Tree))
    (kind : DiagnosticKind) (path : KeyPath) (diagnostics : Diagnostics) :
    Diagnostics.finding? kind path (recordDifferences first languages diagnostics) =
      Finding.gatherAll (conflictsOf first kind path languages)
        (Diagnostics.finding? kind path diagnostics) := by
  induction languages generalizing diagnostics with
  | nil => rfl
  | cons language rest ih =>
      have here : ∀ {observation : Observation},
          (path, observation) ∈ first.differences language.value ↔
            first.conflictAt? language.value path = some observation :=
        mem_differences settled
      have later := ih (diagnostics.recordAll language.name (first.differences language.value))
      rw [recordDifferences, List.foldl_cons, conflictsOf, List.filterMap_cons]
      rw [recordDifferences, conflictsOf] at later
      rw [later]
      cases conflict : first.conflictAt? language.value path with
      | none =>
          rw [Diagnostics.finding?_recordAll_of_silent]
          intro observation member
          rw [here.mp member] at conflict
          cases conflict
      | some seen =>
          have only : ∀ observation, (path, observation) ∈ first.differences language.value →
              observation = seen := by
            intro observation member
            rw [here.mp member] at conflict
            exact Option.some.inj conflict
          by_cases same : seen.kind = kind
          · subst same
            rw [Diagnostics.finding?_recordAll fun observation member _ => only observation member,
              if_pos (here.mpr conflict)]
            simp only [if_true]
            rfl
          · rw [Diagnostics.finding?_recordAll_of_silent]
            · simp only [same, if_false]
            · intro observation member
              rw [only observation member]
              exact same

theorem nodup_recordDifferences
    (first : Tree) (languages : List (Named Tree)) {diagnostics : Diagnostics}
    (nodup : (diagnostics.map Diagnostic.key).Nodup) :
    ((recordDifferences first languages diagnostics).map Diagnostic.key).Nodup :=
  Diagnostics.nodup_foldl_recordAll languages nodup

theorem conflictsOf_alike
    {first : Tree} {kind : DiagnosticKind} {path : KeyPath} {languages : List (Named Tree)} :
    ∀ share ∈ conflictsOf first kind path languages,
      ∀ other ∈ conflictsOf first kind path languages, Observation.Alike share.2 other.2 := by
  intro share member other otherMember
  obtain ⟨_, _, _, conflict, isKind⟩ := mem_conflictsOf.mp member
  obtain ⟨_, _, _, otherConflict, otherKind⟩ := mem_conflictsOf.mp otherMember
  exact Node.conflictAt?_alike conflict otherConflict (isKind.trans otherKind.symm)

/-- Starting with no finding for a kind and a path, a conflict gets one that lists just the
languages in conflict. -/
theorem exists_finding?_of_silent
    {first : Tree} (settled : first.Settled) {languages : List (Named Tree)}
    (names : (languages.map Named.name).Nodup) {kind : DiagnosticKind} {path : KeyPath}
    {diagnostics : Diagnostics} (silent : Diagnostics.finding? kind path diagnostics = none)
    (present : conflictsOf first kind path languages ≠ []) :
    ∃ finding,
      Diagnostics.finding? kind path (recordDifferences first languages diagnostics) =
        some finding ∧ finding.shares = conflictsOf first kind path languages := by
  have nodup := names.sublist (conflictsOf_names_sublist first kind path languages)
  obtain ⟨finding, outcome, same⟩ := Finding.gatherAll_none conflictsOf_alike nodup present
  refine ⟨finding, ?_, same⟩
  rw [finding?_recordDifferences settled, silent]
  exact outcome

/-- Every finding that was recorded lists the languages in conflict, and there are some. -/
theorem shares_of_finding?_of_silent
    {first : Tree} (settled : first.Settled) {languages : List (Named Tree)}
    (names : (languages.map Named.name).Nodup) {kind : DiagnosticKind} {path : KeyPath}
    {diagnostics : Diagnostics} (silent : Diagnostics.finding? kind path diagnostics = none)
    {finding : Finding}
    (found : Diagnostics.finding? kind path (recordDifferences first languages diagnostics) =
      some finding) :
    finding.shares ≠ [] ∧ finding.shares = conflictsOf first kind path languages := by
  by_cases present : conflictsOf first kind path languages = []
  · rw [finding?_recordDifferences settled, present, silent] at found
    cases found
  · obtain ⟨other, otherFound, same⟩ :=
      exists_finding?_of_silent settled names silent present
    rw [found] at otherFound
    cases otherFound
    rw [same]
    exact ⟨present, rfl⟩

/-- Starting without diagnostics, a conflict has a finding that lists just the languages in
conflict. -/
theorem exists_finding?_recordDifferences
    {first : Tree} (settled : first.Settled) {languages : List (Named Tree)}
    (names : (languages.map Named.name).Nodup) {kind : DiagnosticKind} {path : KeyPath}
    (present : conflictsOf first kind path languages ≠ []) :
    ∃ finding, Diagnostics.finding? kind path (recordDifferences first languages []) = some finding ∧
      finding.shares = conflictsOf first kind path languages :=
  exists_finding?_of_silent settled names rfl present

/-- Without earlier diagnostics every finding lists the languages in conflict. -/
theorem shares_of_finding?_recordDifferences
    {first : Tree} (settled : first.Settled) {languages : List (Named Tree)}
    (names : (languages.map Named.name).Nodup) {kind : DiagnosticKind} {path : KeyPath}
    {finding : Finding}
    (found : Diagnostics.finding? kind path (recordDifferences first languages []) = some finding) :
    finding.shares ≠ [] ∧ finding.shares = conflictsOf first kind path languages :=
  shares_of_finding?_of_silent settled names rfl found

/-- The diagnostics of a unification: one for each kind and path at which some later
language is in conflict with the first tree, listing exactly those languages, in their order
and each once, with what is expected and what each one has. -/
theorem unified_diagnostics
    {first : Named Tree} {rest : List (Named Tree)}
    (names : ((first :: rest).map Named.name).Nodup)
    (settled : ∀ tree ∈ first :: rest, tree.value.Settled) :
    ∃ diagnostics, unified (first :: rest) [] = (.ok first.value, diagnostics) ∧
      (diagnostics.map Diagnostic.key).Nodup ∧
      (∀ diagnostic ∈ diagnostics,
        diagnostic.finding.shares ≠ [] ∧
        diagnostic.finding.shares =
          conflictsOf first.value diagnostic.kind diagnostic.path rest ∧
        diagnostic.languages.Nodup ∧ diagnostic.languages.Sublist (rest.map Named.name)) ∧
      (∀ language ∈ rest, ∀ path observation,
        first.value.conflictAt? language.value path = some observation →
        ∃ diagnostic ∈ diagnostics, diagnostic.kind = observation.kind ∧
          diagnostic.path = path ∧ (language.name, observation) ∈ diagnostic.finding.shares) := by
  have firstSettled := settled first List.mem_cons_self
  have restNames : (rest.map Named.name).Nodup := (List.nodup_cons.mp names).2
  have nodup : ((recordDifferences first.value rest []).map Diagnostic.key).Nodup :=
    nodup_recordDifferences first.value rest List.nodup_nil
  refine ⟨recordDifferences first.value rest [],
    unified_of_nodup firstSettled (repeated?_eq_none_iff.mpr names) [], nodup, ?_, ?_⟩
  · intro diagnostic member
    obtain ⟨present, same⟩ := shares_of_finding?_recordDifferences firstSettled restNames
      ((Diagnostics.mem_iff_finding? nodup diagnostic).mp member)
    have sublist : diagnostic.languages.Sublist (rest.map Named.name) := by
      rw [Diagnostic.languages, Finding.languages_eq, same]
      exact conflictsOf_names_sublist first.value diagnostic.kind diagnostic.path rest
    exact ⟨present, same, restNames.sublist sublist, sublist⟩
  · intro language member path observation conflict
    have share : (language.name, observation) ∈
        conflictsOf first.value observation.kind path rest :=
      mem_conflictsOf.mpr ⟨language, member, rfl, conflict, rfl⟩
    obtain ⟨finding, found, same⟩ := exists_finding?_recordDifferences firstSettled restNames
      (List.ne_nil_of_mem share)
    have kind : finding.kind = observation.kind := Diagnostics.kind_of_finding? found
    refine ⟨⟨path, finding⟩, ?_, kind, rfl, ?_⟩
    · refine (Diagnostics.mem_iff_finding? nodup _).mpr ?_
      rw [Diagnostic.kind, kind]
      exact found
    · rw [same]
      exact share

/-- Two fixed texts. -/
def plainSalute : Named Tree :=
  ⟨"zh", { entries := [("greet", .text "你好"), ("bye", .text "再见")] }⟩

/-- A fixed text and a call with another name in the place of the greeting. -/
def salutes : List (Named Tree) :=
  [plainSalute,
   ⟨"es", { entries := [("greet", .call [.param "nombre"])] }⟩]

/-- The text in the place of the call is reported, and so is the key that the first tree does
not have. -/
theorem unified_diagnostics_salutes :
    ∃ diagnostics, unified (salute :: salutes) [] = (.ok salute.value, diagnostics) ∧
      (∃ diagnostic ∈ diagnostics, diagnostic.kind = .mismatchedKind ∧
        diagnostic.path = ["greet"] ∧
        ("zh", .mismatchedKind .call .text) ∈ diagnostic.finding.shares) ∧
      (∃ diagnostic ∈ diagnostics, diagnostic.kind = .notFoundKey ∧ diagnostic.path = ["bye"] ∧
        ("zh", .notFoundKey .canonical) ∈ diagnostic.finding.shares) := by
  have names : ((salute :: salutes).map Named.name).Nodup := by decide
  obtain ⟨diagnostics, outcome, _, _, complete⟩ :=
    unified_diagnostics names (by decide)
  have zh := complete _ List.mem_cons_self
  exact ⟨diagnostics, outcome, zh ["greet"] _ rfl, zh ["bye"] _ rfl⟩

end Tree

end Phrasebook
