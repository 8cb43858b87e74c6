import Phrasebook.Proofs.Diagnostics

/-!
# What a run of recordings leaves

Anything may be recorded of any language at any path, in any order. A diagnostic then tells
exactly what was recorded for its kind and path: what is expected is fixed by the first
recording, the languages stand in the order of theirs, and each has what was last recorded of it.

A collection can be kept as a register, in which each diagnostic is filed under a kind and a path
of its own and which adds to what is filed only when it is of the kind of what was observed. Each
diagnostic in a register has the kind and the path that it is filed under, so nothing is dropped.
-/

namespace Phrasebook

/-! ## What a finding says -/

/-- What a conflict is measured by, if by anything. -/
inductive Basis where
  | nothing
  | side (side : MissingSide)
  | kind (expected : NodeKind)
  | params (expected : List String)
deriving DecidableEq, Repr

/-- What a language has in a conflict. Of a key that is missing on one side there is nothing to
say but the language. -/
inductive Content where
  | typeName (found : String)
  | nothing
  | kind (found : NodeKind)
  | params (found : List String)
deriving DecidableEq, Repr

namespace Observation

def basis : Observation → Basis
  | .unexpectedValueType _ => .nothing
  | .notFoundKey side => .side side
  | .mismatchedKind expected _ => .kind expected
  | .mismatchedArguments expected _ => .params expected

def content : Observation → Content
  | .unexpectedValueType typeName => .typeName typeName
  | .notFoundKey _ => .nothing
  | .mismatchedKind _ found => .kind found
  | .mismatchedArguments _ found => .params found

end Observation

namespace Finding

def basis : Finding → Basis
  | .unexpectedValueType _ => .nothing
  | .notFoundKey side _ => .side side
  | .mismatchedKind expected _ => .kind expected
  | .mismatchedArguments expected _ => .params expected

/-- What each language has, in the order in which the languages were first observed. -/
def contents : Finding → Entries Content
  | .unexpectedValueType found => found.map fun entry => (entry.1, .typeName entry.2)
  | .notFoundKey _ languages => languages.map fun language => (language, .nothing)
  | .mismatchedKind _ found => found.map fun entry => (entry.1, .kind entry.2)
  | .mismatchedArguments _ found => found.map fun entry => (entry.1, .params entry.2)

theorem keys_contents (finding : Finding) : Entries.keys finding.contents = finding.languages := by
  cases finding with
  | notFoundKey side names => simp [contents, languages, Entries.keys, Function.comp_def]
  | _ => simp [contents, languages, Entries.keys, Function.comp_def]

theorem basis_opened (language : String) (seen : Observation) :
    (seen.opened language).basis = seen.basis := by
  cases seen <;> rfl

theorem contents_opened (language : String) (seen : Observation) :
    (seen.opened language).contents = [(language, seen.content)] := by
  cases seen <;> rfl

theorem basis_add (language : String) (seen : Observation) (finding : Finding) :
    (finding.add language seen).basis = finding.basis := by
  cases seen <;> cases finding <;> rfl

/-- An observation of the kind of the finding is never lost. -/
theorem contents_add (language : String) {seen : Observation} {finding : Finding}
    (same : finding.kind = seen.kind) :
    (finding.add language seen).contents =
      Entries.put language seen.content finding.contents := by
  cases finding with
  | unexpectedValueType found =>
      cases seen with
      | unexpectedValueType typeName => exact (Entries.put_map Content.typeName _ _ _).symm
      | _ => cases same
  | notFoundKey side languages =>
      cases seen with
      | notFoundKey _ =>
          simp only [add, contents, Observation.content, List.contains_iff_mem, Entries.put_listed]
      | _ => cases same
  | mismatchedKind expected found =>
      cases seen with
      | mismatchedKind _ value => exact (Entries.put_map Content.kind _ _ _).symm
      | _ => cases same
  | mismatchedArguments expected found =>
      cases seen with
      | mismatchedArguments _ value => exact (Entries.put_map Content.params _ _ _).symm
      | _ => cases same

end Finding

/-! ## Runs of recordings -/

/-- One call that records something of a language at a path. Of a value and of calls that differ,
the type name and the parameters are recorded. -/
structure Recording where
  path : KeyPath
  language : String
  seen : Observation
deriving DecidableEq, Repr

/-- The kind and the path under which a recording belongs. -/
def Recording.key (recording : Recording) : DiagnosticKind × KeyPath :=
  (recording.seen.kind, recording.path)

/-- The diagnostics that a run of recordings on a fresh collection leaves. -/
def Diagnostics.ofRecordings (recordings : List Recording) : Diagnostics :=
  recordings.foldl
    (fun all recording => all.record recording.language recording.path recording.seen) []

theorem Diagnostics.ofRecordings_concat (recordings : List Recording) (last : Recording) :
    ofRecordings (recordings ++ [last]) =
      (ofRecordings recordings).record last.language last.path last.seen :=
  List.foldl_concat _ _ _ _

namespace Finding

/-- A finding tells what was recorded, all of it of the kind of the finding. -/
structure Tells (finding : Finding) (recordings : List Recording) : Prop where
  /-- What is expected, or the side that lacks the key, is as it was first recorded. -/
  basis : (recordings.head?.map fun first => first.seen.basis) = some finding.basis
  /-- The languages are those of the recordings, in the order of their first ones. -/
  languages : finding.languages = (recordings.map Recording.language).eraseDups
  /-- Each language has what was last recorded of it. -/
  contents : ∀ language, finding.contents.lookup language =
    (recordings.filter fun recording => recording.language = language).getLast?.map
      fun last => last.seen.content

theorem Tells.opened (recording : Recording) :
    (recording.seen.opened recording.language).Tells [recording] := by
  refine ⟨?_, ?_, ?_⟩
  · rw [basis_opened]
    rfl
  · rw [← keys_contents, contents_opened]
    rfl
  · intro language
    rw [contents_opened, Entries.lookup_cons]
    by_cases same : recording.language = language
    · simp [same]
    · simp [same, Ne.symm same]

theorem Tells.add {finding : Finding} {recordings : List Recording} {last : Recording}
    (tells : finding.Tells recordings) (same : finding.kind = last.seen.kind) :
    (finding.add last.language last.seen).Tells (recordings ++ [last]) := by
  refine ⟨?_, ?_, ?_⟩
  · cases recordings with
    | nil => cases tells.basis
    | cons first rest => rw [basis_add, ← tells.basis]; rfl
  · rw [← keys_contents, contents_add _ same, Entries.keys_put, keys_contents, tells.languages,
      List.map_append, List.map_singleton, eraseDups_concat]
    simp only [List.mem_eraseDups]
  · intro language
    rw [contents_add _ same, Entries.lookup_put, tells.contents, List.filter_append]
    by_cases here : language = last.language
    · simp [here]
    · simp [here, Ne.symm here]

end Finding

namespace Diagnostics

/-- There is one diagnostic for each kind and path recorded, in the order of the first
recordings. -/
theorem keys_ofRecordings (recordings : List Recording) :
    (ofRecordings recordings).map Diagnostic.key = (recordings.map Recording.key).eraseDups := by
  induction recordings using List.reverseRecOn with
  | nil => rfl
  | append_singleton recordings last ih =>
      rw [ofRecordings_concat, keys_record, ih, List.map_append, List.map_singleton,
        eraseDups_concat]
      by_cases known : last.key ∈ recordings.map Recording.key
      · exact (if_pos (List.mem_eraseDups.mpr known)).trans (if_pos known).symm
      · exact (if_neg (mt List.mem_eraseDups.mp known)).trans (if_neg known).symm

theorem nodup_ofRecordings (recordings : List Recording) :
    ((ofRecordings recordings).map Diagnostic.key).Nodup := by
  rw [keys_ofRecordings]
  exact nodup_eraseDups _

theorem mem_keys_ofRecordings {recordings : List Recording} {key : DiagnosticKind × KeyPath} :
    key ∈ (ofRecordings recordings).map Diagnostic.key ↔ key ∈ recordings.map Recording.key := by
  rw [keys_ofRecordings, List.mem_eraseDups]

theorem finding?_ofRecordings_concat (recordings : List Recording) (last : Recording)
    (kind : DiagnosticKind) (path : KeyPath) :
    finding? kind path (ofRecordings (recordings ++ [last])) =
      if last.key = (kind, path) then
        some (Finding.gather last.language last.seen (finding? kind path (ofRecordings recordings)))
      else finding? kind path (ofRecordings recordings) := by
  rw [ofRecordings_concat]
  exact finding?_record last.language last.path last.seen _ kind path

/-- Where nothing is found, nothing was recorded. -/
theorem filter_eq_nil_of_finding? {recordings : List Recording} {kind : DiagnosticKind}
    {path : KeyPath} (absent : finding? kind path (ofRecordings recordings) = none) :
    (recordings.filter fun recording => recording.key = (kind, path)) = [] := by
  rw [List.filter_eq_nil_iff]
  intro recording member same
  have known : (kind, path) ∈ (ofRecordings recordings).map Diagnostic.key :=
    mem_keys_ofRecordings.mpr (List.mem_map.mpr ⟨recording, member, of_decide_eq_true same⟩)
  obtain ⟨diagnostic, present, key⟩ := List.mem_map.mp known
  obtain ⟨rfl, rfl⟩ := Prod.mk.inj key
  rw [(mem_iff_finding? (nodup_ofRecordings recordings) diagnostic).mp present] at absent
  cases absent

/-- What is found for a kind and a path tells the recordings for them. -/
theorem tells_of_finding? {recordings : List Recording} {kind : DiagnosticKind} {path : KeyPath}
    {finding : Finding} (found : finding? kind path (ofRecordings recordings) = some finding) :
    finding.Tells (recordings.filter fun recording => recording.key = (kind, path)) := by
  induction recordings using List.reverseRecOn generalizing finding with
  | nil => cases found
  | append_singleton recordings last ih =>
      rw [finding?_ofRecordings_concat] at found
      by_cases here : last.key = (kind, path)
      · have lastOnly : ([last].filter fun recording => recording.key = (kind, path)) = [last] := by
          simp [here]
        rw [if_pos here] at found
        rw [List.filter_append, lastOnly, ← Option.some.inj found]
        cases before : finding? kind path (ofRecordings recordings) with
        | none =>
            rw [filter_eq_nil_of_finding? before]
            exact .opened last
        | some finding =>
            have same : finding.kind = last.seen.kind :=
              (kind_of_finding? before).trans (Prod.mk.inj here).1.symm
            exact (ih before).add same
      · have none : ([last].filter fun recording => recording.key = (kind, path)) = [] := by
          simp [here]
        rw [if_neg here] at found
        rw [List.filter_append, none, List.append_nil]
        exact ih found

end Diagnostics

/-! ## The register -/

/-- Diagnostics in a register, each filed under a kind and a path of its own. -/
abbrev Register := List ((DiagnosticKind × KeyPath) × Diagnostic)

/-- The finding of the kind of an observation that nothing was added to yet. -/
def Observation.blank : Observation → Finding
  | .unexpectedValueType _ => .unexpectedValueType []
  | .notFoundKey side => .notFoundKey side []
  | .mismatchedKind expected _ => .mismatchedKind expected []
  | .mismatchedArguments expected _ => .mismatchedArguments expected []

theorem Observation.add_blank (language : String) (seen : Observation) :
    seen.blank.add language seen = seen.opened language := by
  cases seen <;> rfl

namespace Register

/-- Records under the kind and path of the recording: what is filed there takes the observation,
and a blank diagnostic is filed first when there is none. -/
def record (recording : Recording) : Register → Register
  | [] => [(recording.key,
      ⟨recording.path, recording.seen.blank.add recording.language recording.seen⟩)]
  | (key, filed) :: rest =>
      if key = recording.key then
        (key, { filed with finding := filed.finding.add recording.language recording.seen }) :: rest
      else (key, filed) :: record recording rest

/-- The register that a run of recordings on an empty one leaves. -/
def ofRecordings (recordings : List Recording) : Register :=
  recordings.foldl (fun register recording => register.record recording) []

/-- The diagnostic that is filed under a kind and a path. -/
def get? (kind : DiagnosticKind) (path : KeyPath) (register : Register) : Option Diagnostic :=
  (List.find? (fun entry => entry.1 = (kind, path)) register).map Prod.snd

/-- The diagnostics that are filed under a kind. -/
def ofKind (kind : DiagnosticKind) (register : Register) : List Diagnostic :=
  (register.filter fun entry => entry.1.1 = kind).map Prod.snd

end Register

namespace Diagnostics

/-- The register in which each diagnostic is filed under its own kind and path. -/
def filed (diagnostics : Diagnostics) : Register :=
  diagnostics.map fun diagnostic => (diagnostic.key, diagnostic)

/-- Recording keeps each diagnostic under its own kind and path. -/
theorem record_filed (recording : Recording) (diagnostics : Diagnostics) :
    diagnostics.filed.record recording =
      (diagnostics.record recording.language recording.path recording.seen).filed := by
  induction diagnostics with
  | nil =>
      rw [filed, List.map_nil, Register.record, record, filed, List.map_singleton,
        Diagnostic.key_opened, Observation.add_blank, Recording.key]
  | cons first rest ih =>
      rw [filed] at ih
      rw [filed, List.map_cons, Register.record, record]
      by_cases here : first.kind = recording.seen.kind ∧ first.path = recording.path
      · have same : first.key = recording.key := Prod.ext here.1 here.2
        rw [if_pos same, if_pos here, filed, List.map_cons, Diagnostic.key_add]
      · have differs : first.key ≠ recording.key := fun same => here (Prod.mk.inj same)
        rw [if_neg differs, if_neg here, ih, filed, filed, List.map_cons]

theorem ofRecordings_filed (recordings : List Recording) :
    Register.ofRecordings recordings = (ofRecordings recordings).filed := by
  induction recordings using List.reverseRecOn with
  | nil => rfl
  | append_singleton recordings last ih =>
      rw [Register.ofRecordings] at ih ⊢
      rw [List.foldl_concat, ih, record_filed, ofRecordings_concat]

theorem find?_eq_find_key (kind : DiagnosticKind) (path : KeyPath) (diagnostics : Diagnostics) :
    diagnostics.find? kind path =
      List.find? (fun diagnostic => diagnostic.key = (kind, path)) diagnostics := by
  rw [find?]
  congr
  funext diagnostic
  simp only [Diagnostic.key, Prod.mk.injEq, Bool.decide_and]

theorem get?_filed (kind : DiagnosticKind) (path : KeyPath) (diagnostics : Diagnostics) :
    diagnostics.filed.get? kind path = diagnostics.find? kind path := by
  rw [Register.get?, filed, List.find?_map, Option.map_map, find?_eq_find_key]
  exact Option.map_id'

theorem ofKind_filed (kind : DiagnosticKind) (diagnostics : Diagnostics) :
    diagnostics.filed.ofKind kind = diagnostics.ofKind kind := by
  rw [Register.ofKind, filed, List.filter_map, List.map_map, ofKind]
  exact List.map_id' _

/-! ## Lists by kind and single diagnostics -/

theorem mem_ofKind {kind : DiagnosticKind} {diagnostics : Diagnostics} {diagnostic : Diagnostic} :
    diagnostic ∈ diagnostics.ofKind kind ↔ diagnostic ∈ diagnostics ∧ diagnostic.kind = kind := by
  rw [ofKind, List.mem_filter, decide_eq_true_iff]

/-- Taken kind by kind, the diagnostics that have one of some kinds are all taken once. -/
theorem flatMap_ofKind_perm {kinds : List DiagnosticKind} (distinct : kinds.Nodup)
    {diagnostics : Diagnostics}
    (covered : ∀ diagnostic ∈ diagnostics, diagnostic.kind ∈ kinds) :
    (kinds.flatMap fun kind => diagnostics.ofKind kind).Perm diagnostics := by
  induction kinds generalizing diagnostics with
  | nil =>
      have empty : diagnostics = [] :=
        List.eq_nil_iff_forall_not_mem.mpr fun diagnostic member =>
          List.not_mem_nil (covered diagnostic member)
      rw [empty, List.flatMap_nil]
  | cons kind rest ih =>
      rw [List.nodup_cons] at distinct
      let others : Diagnostics := diagnostics.filter fun diagnostic => !decide (diagnostic.kind = kind)
      have restCovered : ∀ diagnostic ∈ others, diagnostic.kind ∈ rest := by
        intro diagnostic member
        obtain ⟨present, differs⟩ := List.mem_filter.mp member
        refine (List.mem_cons.mp (covered diagnostic present)).resolve_left ?_
        simpa using differs
      have sameRest : ∀ other ∈ rest, diagnostics.ofKind other = others.ofKind other := by
        intro other member
        rw [ofKind, ofKind, List.filter_filter]
        refine List.filter_congr fun diagnostic _ => ?_
        by_cases same : diagnostic.kind = other
        · have differs : ¬ other = kind := fun equal => distinct.1 (equal ▸ member)
          simp [same, differs]
        · simp [same]
      rw [List.flatMap_cons, List.flatMap_congr sameRest]
      exact ((ih distinct.2 restCovered).append_left _).trans (List.filter_append_perm _ diagnostics)

/-- A diagnostic that is found is one of the kind and at the path. -/
theorem find?_eq_some_iff {diagnostics : Diagnostics}
    (nodup : (diagnostics.map Diagnostic.key).Nodup) {kind : DiagnosticKind} {path : KeyPath}
    {diagnostic : Diagnostic} :
    diagnostics.find? kind path = some diagnostic ↔
      diagnostic ∈ diagnostics ∧ diagnostic.key = (kind, path) := by
  have of_found : ∀ {one : Diagnostic}, diagnostics.find? kind path = some one →
      one ∈ diagnostics ∧ one.key = (kind, path) := by
    intro one found
    rw [find?_eq_find_key] at found
    have here := List.find?_some found
    exact ⟨List.mem_of_find?_eq_some found, of_decide_eq_true here⟩
  refine ⟨of_found, ?_⟩
  rintro ⟨member, key⟩
  cases found : diagnostics.find? kind path with
  | none =>
      rw [find?_eq_find_key, List.find?_eq_none] at found
      exact absurd (decide_eq_true key) (found diagnostic member)
  | some one =>
      obtain ⟨present, same⟩ := of_found found
      rw [List.inj_on_of_nodup_map nodup present member (same.trans key.symm)]

/-! ## The account -/

/-- A collection of diagnostics that accounts for a run of recordings. -/
structure Accounts (diagnostics : Diagnostics) (recordings : List Recording) : Prop where
  /-- The kinds and paths are those of the recordings, in the order of their first ones. -/
  keys : diagnostics.map Diagnostic.key = (recordings.map Recording.key).eraseDups
  /-- There is one diagnostic for a kind and a path. -/
  unique : (diagnostics.map Diagnostic.key).Nodup
  /-- No recording is dropped: its language is told where it belongs. -/
  kept : ∀ recording ∈ recordings, ∃ diagnostic ∈ diagnostics,
    diagnostic.key = recording.key ∧ recording.language ∈ diagnostic.languages
  /-- A diagnostic tells the recordings for its kind and path, and no others. -/
  tells : ∀ diagnostic ∈ diagnostics,
    diagnostic.finding.Tells (recordings.filter fun recording => recording.key = diagnostic.key)
  /-- A diagnostic tells of a language once. -/
  languages : ∀ diagnostic ∈ diagnostics, diagnostic.languages.Nodup
  /-- Each diagnostic is in the list of one kind, once. -/
  partition : (DiagnosticKind.all.flatMap fun kind => diagnostics.ofKind kind).Perm diagnostics
  /-- The list of a kind has the diagnostics of that kind, in their order. -/
  ofKind : ∀ kind, (diagnostics.ofKind kind).Sublist diagnostics ∧
    ∀ diagnostic, diagnostic ∈ diagnostics.ofKind kind ↔
      diagnostic ∈ diagnostics ∧ diagnostic.kind = kind
  /-- A diagnostic is found for the kinds and paths recorded, and for no others. -/
  found : ∀ kind path, (diagnostics.find? kind path).isSome ↔
    (kind, path) ∈ recordings.map Recording.key
  /-- What is found is the diagnostic of that kind at that path. -/
  find : ∀ kind path diagnostic, diagnostics.find? kind path = some diagnostic ↔
    diagnostic ∈ diagnostics ∧ diagnostic.key = (kind, path)

theorem accounts_ofRecordings (recordings : List Recording) :
    (ofRecordings recordings).Accounts recordings := by
  have unique := nodup_ofRecordings recordings
  have tells : ∀ diagnostic ∈ ofRecordings recordings, diagnostic.finding.Tells
      (recordings.filter fun recording => recording.key = diagnostic.key) :=
    fun diagnostic member => tells_of_finding? ((mem_iff_finding? unique diagnostic).mp member)
  have kinds : ∀ diagnostic ∈ ofRecordings recordings, diagnostic.kind ∈ DiagnosticKind.all :=
    fun diagnostic _ => by cases diagnostic.kind <;> decide
  refine ⟨keys_ofRecordings recordings, unique, ?_, tells, ?_,
    flatMap_ofKind_perm (by decide) kinds, fun kind => ⟨List.filter_sublist, fun _ => mem_ofKind⟩,
    ?_, fun kind path diagnostic => find?_eq_some_iff unique⟩
  · intro recording member
    obtain ⟨diagnostic, present, key⟩ := List.mem_map.mp
      (mem_keys_ofRecordings.mpr (List.mem_map_of_mem member))
    refine ⟨diagnostic, present, key, ?_⟩
    rw [Diagnostic.languages, (tells diagnostic present).languages, List.mem_eraseDups]
    exact List.mem_map_of_mem (List.mem_filter.mpr ⟨member, decide_eq_true key.symm⟩)
  · intro diagnostic member
    rw [Diagnostic.languages, (tells diagnostic member).languages]
    exact nodup_eraseDups _
  · intro kind path
    rw [← mem_keys_ofRecordings, List.mem_map, Option.isSome_iff_exists]
    simp only [find?_eq_some_iff unique]

/-- However recordings follow each other, the collection that they leave accounts for all of them.
Kept as a register, it has each diagnostic under the diagnostic's own kind and path, so that every
recording met a finding of its kind, and the register is searched and listed by kind alike. -/
theorem recordings_accounted (recordings : List Recording) :
    (ofRecordings recordings).Accounts recordings ∧
      Register.ofRecordings recordings =
        (ofRecordings recordings).map (fun diagnostic => (diagnostic.key, diagnostic)) ∧
      (∀ kind path, (Register.ofRecordings recordings).get? kind path =
        (ofRecordings recordings).find? kind path) ∧
      ∀ kind, (Register.ofRecordings recordings).ofKind kind =
        (ofRecordings recordings).ofKind kind := by
  refine ⟨accounts_ofRecordings recordings, ofRecordings_filed recordings, fun kind path => ?_,
    fun kind => ?_⟩
  · rw [ofRecordings_filed, get?_filed]
  · rw [ofRecordings_filed, ofKind_filed]

/-- A conflict that is recorded again takes the new value and keeps its place and what is
expected. -/
example : ofRecordings
    [⟨["greet"], "zh", .mismatchedArguments ["name"] ["first"]⟩,
      ⟨["greet"], "sp", .notFoundKey .incoming⟩,
      ⟨["greet"], "sp", .mismatchedArguments ["title"] []⟩,
      ⟨["greet"], "zh", .mismatchedArguments ["title"] ["last"]⟩,
      ⟨["greet"], "sp", .notFoundKey .canonical⟩] =
    [⟨["greet"], .mismatchedArguments ["name"] [("zh", ["last"]), ("sp", [])]⟩,
      ⟨["greet"], .notFoundKey .incoming ["sp"]⟩] := by
  decide

end Diagnostics

end Phrasebook
