import Phrasebook.Proofs.Entries
import Phrasebook.Diagnostic

/-!
# Laws of recording

A collection of diagnostics is read through the finding that it has for a kind and a path.
Recording an observation changes the finding of its own kind and path only, adds no second
diagnostic for them, and recording the same thing again changes nothing.
-/

namespace Phrasebook

/-- What a diagnostic is identified by. -/
def Diagnostic.key (diagnostic : Diagnostic) : DiagnosticKind × KeyPath :=
  (diagnostic.kind, diagnostic.path)

namespace Finding

/-- What each language has to say in a conflict. -/
def shares : Finding → List (String × Observation)
  | .unexpectedValueType found =>
      found.map fun (language, typeName) => (language, .unexpectedValueType typeName)
  | .notFoundKey side languages => languages.map fun language => (language, .notFoundKey side)
  | .mismatchedKind expected found =>
      found.map fun (language, kind) => (language, .mismatchedKind expected kind)
  | .mismatchedArguments expected found =>
      found.map fun (language, names) => (language, .mismatchedArguments expected names)

theorem languages_eq (finding : Finding) : finding.languages = finding.shares.map Prod.fst := by
  cases finding with
  | notFoundKey side names => simp [languages, shares, Function.comp_def]
  | _ => simp [languages, shares, Entries.keys, Function.comp_def]

/-- The finding after an observation, when there may be one already. -/
def gather (language : String) (seen : Observation) : Option Finding → Finding
  | none => seen.opened language
  | some finding => finding.add language seen

theorem kind_opened (language : String) (seen : Observation) :
    (seen.opened language).kind = seen.kind := by
  cases seen <;> rfl

theorem kind_add (language : String) (seen : Observation) (finding : Finding) :
    (finding.add language seen).kind = finding.kind := by
  cases seen <;> cases finding <;> rfl

/-- Observing the same of a language again tells nothing new. -/
theorem gather_gather (language : String) (seen : Observation) (before : Option Finding) :
    gather language seen (some (gather language seen before)) = gather language seen before := by
  cases before with
  | none => cases seen <;> simp [gather, Observation.opened, add, Entries.put]
  | some finding =>
      cases seen <;> cases finding <;> simp only [gather, add, Entries.put_put]
      split <;> simp_all

end Finding

theorem Diagnostic.key_opened (language : String) (path : KeyPath) (seen : Observation) :
    Diagnostic.key ⟨path, seen.opened language⟩ = (seen.kind, path) :=
  Prod.ext (Finding.kind_opened language seen) rfl

/-- A diagnostic that takes another observation stays in its place. -/
theorem Diagnostic.key_add (language : String) (seen : Observation) (diagnostic : Diagnostic) :
    Diagnostic.key { diagnostic with finding := diagnostic.finding.add language seen } =
      diagnostic.key :=
  Prod.ext (Finding.kind_add language seen diagnostic.finding) rfl

namespace Diagnostics

/-- The finding for a kind and a path, if there is one. -/
def finding? (kind : DiagnosticKind) (path : KeyPath) (diagnostics : Diagnostics) :
    Option Finding :=
  (Diagnostics.find? kind path diagnostics).map Diagnostic.finding

theorem finding?_cons
    (kind : DiagnosticKind) (path : KeyPath) (first : Diagnostic) (rest : Diagnostics) :
    finding? kind path (first :: rest) =
      if first.key = (kind, path) then some first.finding else finding? kind path rest := by
  by_cases same : first.key = (kind, path)
  · obtain ⟨kindSame, pathSame⟩ := Prod.mk.inj same
    simp [finding?, find?, same, kindSame, pathSame]
  · have other : (decide (first.kind = kind) && decide (first.path = path)) = false := by
      rw [Bool.and_eq_false_iff, decide_eq_false_iff_not, decide_eq_false_iff_not]
      by_contra both
      rw [not_or, not_not, not_not] at both
      exact same (Prod.ext both.1 both.2)
    simp [finding?, find?, same, other]

theorem kind_of_finding?
    {kind : DiagnosticKind} {path : KeyPath} {diagnostics : Diagnostics} {finding : Finding}
    (found : finding? kind path diagnostics = some finding) : finding.kind = kind := by
  induction diagnostics with
  | nil => cases found
  | cons first rest ih =>
      rw [finding?_cons] at found
      by_cases same : first.key = (kind, path)
      · rw [if_pos same] at found
        cases found
        exact (Prod.mk.inj same).1
      · rw [if_neg same] at found
        exact ih found

/-- Only the finding of the observed kind and path changes. -/
theorem finding?_record
    (language : String) (path : KeyPath) (seen : Observation) (diagnostics : Diagnostics)
    (kind : DiagnosticKind) (other : KeyPath) :
    finding? kind other (diagnostics.record language path seen) =
      if (seen.kind, path) = (kind, other) then
        some (Finding.gather language seen (finding? kind other diagnostics))
      else finding? kind other diagnostics := by
  induction diagnostics with
  | nil =>
      rw [record, finding?_cons, Diagnostic.key_opened]
      rfl
  | cons first rest ih =>
      rw [record]
      by_cases here : first.kind = seen.kind ∧ first.path = path
      · have key : first.key = (seen.kind, path) := Prod.ext here.1 here.2
        rw [if_pos here, finding?_cons, finding?_cons, Diagnostic.key_add, key]
        split <;> rfl
      · have differs : first.key ≠ (seen.kind, path) := fun same =>
          here ⟨(Prod.mk.inj same).1, (Prod.mk.inj same).2⟩
        rw [if_neg here, finding?_cons, finding?_cons, ih]
        by_cases same : first.key = (kind, other)
        · rw [if_pos same, if_pos same, if_neg fun equal => differs (same.trans equal.symm)]
        · rw [if_neg same, if_neg same]

/-- Recording keeps the kinds and paths that are there and gives new ones the last place. -/
theorem keys_record
    (language : String) (path : KeyPath) (seen : Observation) (diagnostics : Diagnostics) :
    (diagnostics.record language path seen).map Diagnostic.key =
      if (seen.kind, path) ∈ diagnostics.map Diagnostic.key then diagnostics.map Diagnostic.key
      else diagnostics.map Diagnostic.key ++ [(seen.kind, path)] := by
  induction diagnostics with
  | nil => simp [record, Diagnostic.key_opened]
  | cons first rest ih =>
      rw [record]
      by_cases here : first.kind = seen.kind ∧ first.path = path
      · have key : first.key = (seen.kind, path) := Prod.ext here.1 here.2
        rw [if_pos here, List.map_cons, Diagnostic.key_add, List.map_cons, key,
          if_pos List.mem_cons_self]
      · have differs : (seen.kind, path) ≠ first.key := fun same =>
          here ⟨(Prod.mk.inj same).1.symm, (Prod.mk.inj same).2.symm⟩
        rw [if_neg here, List.map_cons, ih, List.map_cons]
        by_cases later : (seen.kind, path) ∈ rest.map Diagnostic.key
        · rw [if_pos later, if_pos (List.mem_cons_of_mem _ later)]
        · rw [if_neg later, if_neg (List.not_mem_cons_of_ne_of_not_mem differs later), List.cons_append]

/-- Recording keeps one diagnostic for each kind and path. -/
theorem nodup_record
    {diagnostics : Diagnostics} (nodup : (diagnostics.map Diagnostic.key).Nodup)
    (language : String) (path : KeyPath) (seen : Observation) :
    ((diagnostics.record language path seen).map Diagnostic.key).Nodup := by
  rw [keys_record]
  by_cases known : (seen.kind, path) ∈ diagnostics.map Diagnostic.key
  · rwa [if_pos known]
  · rw [if_neg known, ← List.concat_eq_append]
    exact List.Nodup.concat known nodup

theorem nodup_recordAll
    {diagnostics : Diagnostics} (nodup : (diagnostics.map Diagnostic.key).Nodup)
    (language : String) (seen : List (KeyPath × Observation)) :
    ((diagnostics.recordAll language seen).map Diagnostic.key).Nodup := by
  induction seen generalizing diagnostics with
  | nil => exact nodup
  | cons one rest ih => exact ih (nodup_record nodup language one.1 one.2)

/-- When a language has one thing to say for a kind and a path, however often, the finding
gathers it once. -/
theorem finding?_recordAll
    {language : String} {seen : List (KeyPath × Observation)} {path : KeyPath}
    {share : Observation}
    (one : ∀ observation, (path, observation) ∈ seen →
      observation.kind = share.kind → observation = share)
    (diagnostics : Diagnostics) :
    finding? share.kind path (diagnostics.recordAll language seen) =
      if (path, share) ∈ seen then
        some (Finding.gather language share (finding? share.kind path diagnostics))
      else finding? share.kind path diagnostics := by
  induction seen generalizing diagnostics with
  | nil => rfl
  | cons first rest ih =>
      obtain ⟨firstPath, observation⟩ := first
      have later := ih (fun other member => one other (List.mem_cons_of_mem _ member))
        (diagnostics.record language firstPath observation)
      have step := finding?_record language firstPath observation diagnostics share.kind path
      rw [recordAll, List.foldl_cons]
      rw [recordAll] at later
      rw [later, step]
      by_cases here : (observation.kind, firstPath) = (share.kind, path)
      · obtain ⟨sameKind, rfl⟩ := Prod.mk.inj here
        have same : observation = share := one observation List.mem_cons_self sameKind
        subst same
        simp only [if_true, List.mem_cons_self, Finding.gather_gather, ite_self]
      · have differs : (path, share) ≠ (firstPath, observation) := by
          intro same
          cases same
          exact here rfl
        simp only [if_neg here, List.mem_cons, differs, false_or]

/-- A language with nothing to say for a kind and a path leaves the finding there. -/
theorem finding?_recordAll_of_silent
    {seen : List (KeyPath × Observation)} {kind : DiagnosticKind} {path : KeyPath}
    (silent : ∀ observation, (path, observation) ∈ seen → observation.kind ≠ kind)
    (language : String) (diagnostics : Diagnostics) :
    finding? kind path (diagnostics.recordAll language seen) = finding? kind path diagnostics := by
  obtain ⟨share, rfl⟩ : ∃ share : Observation, share.kind = kind := by
    cases kind with
    | unexpectedValueType => exact ⟨.unexpectedValueType "", rfl⟩
    | notFoundKey => exact ⟨.notFoundKey .canonical, rfl⟩
    | mismatchedKind => exact ⟨.mismatchedKind .text .text, rfl⟩
    | mismatchedArguments => exact ⟨.mismatchedArguments [] [], rfl⟩
  rw [finding?_recordAll fun other member same => absurd same (silent other member)]
  exact if_neg fun member => silent share member rfl

/-- Recording always leaves something. -/
theorem record_ne_nil
    (language : String) (path : KeyPath) (seen : Observation) (diagnostics : Diagnostics) :
    record language path seen diagnostics ≠ [] := by
  cases diagnostics with
  | nil => exact List.cons_ne_nil _ _
  | cons first rest =>
      rw [record]
      split <;> exact List.cons_ne_nil _ _

/-- Diagnostics are empty only when nothing was recorded. -/
theorem recordAll_eq_nil_iff
    {language : String} {seen : List (KeyPath × Observation)} {diagnostics : Diagnostics} :
    diagnostics.recordAll language seen = [] ↔ diagnostics = [] ∧ seen = [] := by
  induction seen generalizing diagnostics with
  | nil => simp [recordAll]
  | cons one rest ih =>
      have later : (record language one.1 one.2 diagnostics).recordAll language rest = [] ↔
          record language one.1 one.2 diagnostics = [] ∧ rest = [] := ih
      rw [recordAll] at later
      rw [recordAll, List.foldl_cons, later]
      simp [record_ne_nil]

/-- The diagnostics of several languages are empty only when none had anything to record. -/
theorem foldl_recordAll_eq_nil_iff
    {α : Type} {name : α → String} {seen : α → List (KeyPath × Observation)} {items : List α}
    {diagnostics : Diagnostics} :
    items.foldl (fun all item => all.recordAll (name item) (seen item)) diagnostics = [] ↔
      diagnostics = [] ∧ ∀ item ∈ items, seen item = [] := by
  induction items generalizing diagnostics with
  | nil => simp
  | cons item rest ih => rw [List.foldl_cons, ih, recordAll_eq_nil_iff, List.forall_mem_cons, and_assoc]

section Folding

variable {α : Type} {name : α → String} {seen : α → List (KeyPath × Observation)}

/-- The diagnostics of several languages have one for each kind and path. -/
theorem nodup_foldl_recordAll (items : List α) {diagnostics : Diagnostics}
    (nodup : (diagnostics.map Diagnostic.key).Nodup) :
    ((items.foldl (fun all item => all.recordAll (name item) (seen item)) diagnostics).map
      Diagnostic.key).Nodup := by
  induction items generalizing diagnostics with
  | nil => exact nodup
  | cons item rest ih => exact ih (nodup_recordAll nodup (name item) (seen item))

end Folding

/-- A diagnostic is in a collection when the collection has its finding for its kind and
path. -/
theorem mem_iff_finding?
    {diagnostics : Diagnostics} (nodup : (diagnostics.map Diagnostic.key).Nodup)
    (diagnostic : Diagnostic) :
    diagnostic ∈ diagnostics ↔
      finding? diagnostic.kind diagnostic.path diagnostics = some diagnostic.finding := by
  induction diagnostics with
  | nil => simp [finding?, find?]
  | cons first rest ih =>
      rw [List.map_cons, List.nodup_cons] at nodup
      rw [finding?_cons, List.mem_cons]
      by_cases same : first.key = (diagnostic.kind, diagnostic.path)
      · rw [if_pos same]
        constructor
        · rintro (rfl | later)
          · rfl
          · exact absurd (List.mem_map.mpr ⟨diagnostic, later, same.symm⟩) nodup.1
        · intro found
          left
          obtain ⟨path, finding⟩ := diagnostic
          obtain ⟨firstPath, firstFinding⟩ := first
          cases found
          obtain ⟨_, rfl⟩ := Prod.mk.inj same
          rfl
      · rw [if_neg same, ← ih nodup.2]
        refine or_iff_right ?_
        rintro rfl
        exact same rfl

/-- A finding that is found belongs to a diagnostic at its path. -/
theorem mem_of_finding?
    {diagnostics : Diagnostics} (nodup : (diagnostics.map Diagnostic.key).Nodup)
    {kind : DiagnosticKind} {path : KeyPath} {finding : Finding}
    (found : finding? kind path diagnostics = some finding) : ⟨path, finding⟩ ∈ diagnostics := by
  have same : finding.kind = kind := kind_of_finding? found
  refine (mem_iff_finding? nodup _).mpr ?_
  rw [Diagnostic.kind, same]
  exact found

end Diagnostics

end Phrasebook
