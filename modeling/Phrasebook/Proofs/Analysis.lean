import Phrasebook.Pipeline
import Phrasebook.Proofs.Diagnostics
import Phrasebook.Proofs.Tree.Agreement
import Phrasebook.Proofs.Tree.Build
import Phrasebook.Proofs.Tree.FirstLanguage
import Phrasebook.Proofs.Tree.Shape

/-!
# What the analysis accepts

Without plugins and further phases, the analysis builds the trees, unifies them and looks
at the diagnostics. It accepts the documents that are there at all, have distinct names,
hold nothing that cannot be a message and all have the shape of the first.
-/

namespace Phrasebook

/-- The trees of a list of documents. -/
def Tree.ofDocuments (documents : List (Named Document)) : List (Named Tree) :=
  documents.map (Named.map Tree.ofDocument)

/-- What building the trees records. -/
def builtDiagnostics (documents : List (Named Document)) : Diagnostics :=
  documents.foldl (fun all document =>
    all.recordAll document.name (Document.observations document.value)) []

section

variable {documents : List (Named Document)}

theorem Tree.names_ofDocuments :
    (Tree.ofDocuments documents).map Named.name = documents.map Named.name := by
  rw [Tree.ofDocuments, List.map_map]
  rfl

theorem Tree.ofDocuments_settled (documents : List (Named Document)) :
    ∀ tree ∈ Tree.ofDocuments documents, tree.value.Settled := by
  intro tree member
  obtain ⟨document, _, rfl⟩ := List.mem_map.mp member
  exact Tree.ofDocument_settled document.value

theorem Outcome.result_andThen {α β : Type} (outcome : Outcome α) (next : α → Outcome β) :
    (outcome.andThen next).result = outcome.result.bind fun value => (next value).result := by
  rw [Outcome.andThen]
  cases outcome.result with
  | error failure => rfl
  | ok value => rfl

/-- Without plugins a phase is just run. -/
theorem Pipeline.result_runPhase_nil (phase : Phase) (context : Context) :
    (runPhase [] phase context).result = phase.run context := by
  rw [runPhase, Outcome.result_andThen, Outcome.result_andThen]
  change ((Except.ok context).bind phase.run).bind Except.ok = phase.run context
  cases run : phase.run context with
  | error failure => simp [Except.bind, run]
  | ok after => simp [Except.bind, run]

/-- The built-in phases build the trees of the documents and unify them. -/
theorem run_eq (documents : List (Named Document)) :
    (Pipeline.run {} documents).result =
      match Tree.unified (Tree.ofDocuments documents) (builtDiagnostics documents) with
      | (.error failure, _) => .error failure
      | (.ok canonical, diagnostics) =>
          .ok ⟨documents, Tree.ofDocuments documents, some canonical, diagnostics⟩ := by
  have built : Pipeline.buildPhase.run ⟨documents, [], none, []⟩ =
      .ok ⟨documents, Tree.ofDocuments documents, none, builtDiagnostics documents⟩ := by
    rw [Pipeline.buildPhase]
    dsimp only
    rw [Tree.buildAll_eq]
    rfl
  rw [Pipeline.run]
  simp only [Pipeline.runPhases, Outcome.result_andThen, Pipeline.result_runPhase_nil, built]
  simp only [Except.bind, Pipeline.unifyPhase, Tree.unify]
  rcases Tree.unified (Tree.ofDocuments documents) (builtDiagnostics documents) with
    ⟨_ | canonical, diagnostics⟩
  · rfl
  · rfl

/-- The three ways in which a run of the built-in phases can end. -/
theorem run_cases (documents : List (Named Document)) :
    (documents = [] ∧ (Pipeline.run {} documents).result = .error .noLanguages) ∨
    (∃ name, Tree.IsFirstRepeat name (documents.map Named.name) ∧
      (Pipeline.run {} documents).result = .error (.duplicateLanguage name)) ∨
    (∃ first rest, documents = first :: rest ∧ (documents.map Named.name).Nodup ∧
      (Pipeline.run {} documents).result = .ok
        ⟨documents, Tree.ofDocuments documents, some (Tree.ofDocument first.value),
          Tree.recordDifferences (Tree.ofDocument first.value) (Tree.ofDocuments rest)
            (builtDiagnostics documents)⟩) := by
  rw [run_eq]
  rcases Tree.unified_cases (Tree.ofDocuments_settled documents) (builtDiagnostics documents) with
    ⟨empty, outcome⟩ | ⟨name, isFirst, outcome⟩ | ⟨first, rest, split, nodup, outcome⟩
  · rw [outcome]
    exact Or.inl ⟨List.map_eq_nil_iff.mp empty, rfl⟩
  · rw [outcome]
    rw [Tree.names_ofDocuments] at isFirst
    exact Or.inr (Or.inl ⟨name, isFirst, rfl⟩)
  · rw [outcome]
    rw [Tree.names_ofDocuments] at nodup
    cases documents with
    | nil => cases split
    | cons document others =>
        cases split
        exact Or.inr (Or.inr ⟨document, others, rfl, nodup, rfl⟩)

/-- The analysis looks at the diagnostics of a run of the built-in phases. -/
theorem analyze_eq (documents : List (Named Document)) :
    analyze documents = (Pipeline.run {} documents).result.bind Pipeline.schemaOf := by
  rw [analyze, Pipeline.compile, Outcome.result_andThen]

/-- The three ways in which the analysis can end, before the diagnostics are looked at. -/
theorem analyze_cases (documents : List (Named Document)) :
    (documents = [] ∧ analyze documents = .error .noLanguages) ∨
    (∃ name, Tree.IsFirstRepeat name (documents.map Named.name) ∧
      analyze documents = .error (.duplicateLanguage name)) ∨
    (∃ first rest, documents = first :: rest ∧ (documents.map Named.name).Nodup ∧
      analyze documents = Pipeline.schemaOf
        ⟨documents, Tree.ofDocuments documents, some (Tree.ofDocument first.value),
          Tree.recordDifferences (Tree.ofDocument first.value) (Tree.ofDocuments rest)
            (builtDiagnostics documents)⟩) := by
  rw [analyze_eq documents]
  rcases run_cases documents with
    ⟨empty, outcome⟩ | ⟨name, isFirst, outcome⟩ | ⟨first, rest, split, nodup, outcome⟩
  · exact Or.inl ⟨empty, by rw [outcome]; rfl⟩
  · exact Or.inr (Or.inl ⟨name, isFirst, by rw [outcome]; rfl⟩)
  · exact Or.inr (Or.inr ⟨first, rest, split, nodup, by rw [outcome]; rfl⟩)

/-- Nothing is recorded exactly when all documents are supported and have one shape. -/
theorem recorded_eq_nil_iff (first : Named Document) (rest : List (Named Document)) :
    Tree.recordDifferences (Tree.ofDocument first.value) (Tree.ofDocuments rest)
        (builtDiagnostics (first :: rest)) = [] ↔
      (∀ document ∈ first :: rest, document.value.Supported) ∧
        ∀ document ∈ first :: rest, first.value.SameShape document.value := by
  have usable : builtDiagnostics (first :: rest) = [] ↔
      ∀ document ∈ first :: rest, document.value.Supported := by
    rw [builtDiagnostics, Diagnostics.foldl_recordAll_eq_nil_iff]
    simp only [true_and]
    exact forall₂_congr fun document _ => Document.observations_eq_nil_iff
  rw [Tree.recordDifferences, Diagnostics.foldl_recordAll_eq_nil_iff, usable, Tree.ofDocuments,
    List.forall_mem_map]
  refine and_congr_right fun supported => ?_
  have firstSupported := supported first List.mem_cons_self
  have alike : ∀ document ∈ first :: rest,
      ((Tree.ofDocument first.value).differences (Tree.ofDocument document.value) = [] ↔
        first.value.SameShape document.value) := by
    intro document member
    rw [Tree.differences_eq_nil_iff (Tree.ofDocument_settled first.value)]
    exact Tree.agree_ofDocument_iff firstSupported (supported document member)
  constructor
  · intro agree document member
    rcases List.mem_cons.mp member with rfl | later
    · exact firstSupported.sameShape_self (Document.distinct _)
    · exact (alike document member).mp (agree document later)
  · intro same document later
    have member := List.mem_cons_of_mem first later
    exact (alike document member).mpr (same document member)

/-- A finished run with a schema stands for it exactly when nothing was recorded. -/
theorem Pipeline.schemaOf_eq_ok_iff
    {trees : List (Named Tree)} {canonical : Tree} {diagnostics : Diagnostics} {schema : Schema} :
    schemaOf ⟨documents, trees, some canonical, diagnostics⟩ = .ok schema ↔
      diagnostics = [] ∧ schema = ⟨canonical, trees⟩ := by
  rw [schemaOf]
  cases diagnostics with
  | nil =>
      dsimp only [List.isEmpty_nil, if_true]
      constructor
      · intro same
        cases same
        exact ⟨rfl, rfl⟩
      · rintro ⟨_, rfl⟩
        rfl
  | cons diagnostic rest =>
      constructor
      · intro impossible
        cases impossible
      · rintro ⟨impossible, _⟩
        cases impossible

/-- The schema of an accepted list of documents, and when there is one. -/
theorem analyze_eq_ok_iff {schema : Schema} :
    analyze documents = .ok schema ↔
      ∃ first rest, documents = first :: rest ∧ (documents.map Named.name).Nodup ∧
        (∀ document ∈ documents, document.value.Supported) ∧
        (∀ document ∈ documents, first.value.SameShape document.value) ∧
        schema = ⟨Tree.ofDocument first.value, Tree.ofDocuments documents⟩ := by
  rcases analyze_cases documents with
    ⟨rfl, outcome⟩ | ⟨name, isFirst, outcome⟩ | ⟨first, rest, rfl, nodup, outcome⟩
  · rw [outcome]
    refine iff_of_false nofun ?_
    rintro ⟨_, _, impossible, _⟩
    cases impossible
  · rw [outcome]
    refine iff_of_false nofun ?_
    rintro ⟨_, _, _, nodup, _⟩
    rw [← repeated?_eq_none_iff, repeated?_eq_some_iff.mpr isFirst] at nodup
    cases nodup
  · rw [outcome, Pipeline.schemaOf_eq_ok_iff, recorded_eq_nil_iff]
    constructor
    · rintro ⟨⟨supported, same⟩, rfl⟩
      exact ⟨first, rest, rfl, nodup, supported, same, rfl⟩
    · rintro ⟨_, _, split, _, supported, same, rfl⟩
      cases split
      exact ⟨⟨supported, same⟩, rfl⟩

theorem nodup_languageNames
    {schema : Schema} (accepted : analyze documents = .ok schema) : schema.languageNames.Nodup := by
  obtain ⟨_, _, _, nodup, _, _, rfl⟩ := analyze_eq_ok_iff.mp accepted
  rwa [Schema.languageNames, Tree.names_ofDocuments]

/-- Every language of a schema agrees with the canonical tree. -/
theorem agree_of_analyze
    {schema : Schema} (accepted : analyze documents = .ok schema) :
    ∀ language ∈ schema.languages,
      Node.Agree schema.canonical.toNode language.value.toNode := by
  obtain ⟨first, rest, rfl, _, supported, same, rfl⟩ := analyze_eq_ok_iff.mp accepted
  intro language member
  obtain ⟨document, listed, rfl⟩ := List.mem_map.mp member
  exact (Tree.agree_ofDocument_iff (supported first List.mem_cons_self)
    (supported document listed)).mpr (same document listed)

/-- The analysis accepts a list of documents exactly when there are some, their names are
distinct, none holds a value that cannot be a message and all have the shape of the first.
The schema then has the tree of the first document and, as languages, the trees of all
documents in their order. -/
theorem analyze_ok_iff (documents : List (Named Document)) :
    ((∃ schema, analyze documents = .ok schema) ↔
      documents ≠ [] ∧ (documents.map Named.name).Nodup ∧
        (∀ document ∈ documents, document.value.Supported) ∧
        ∀ first ∈ documents.head?, ∀ document ∈ documents, first.value.SameShape document.value) ∧
    (∀ schema, analyze documents = .ok schema →
      documents.head?.map (fun first => Tree.ofDocument first.value) = some schema.canonical ∧
        schema.languages = documents.map (Named.map Tree.ofDocument)) := by
  refine ⟨⟨?_, ?_⟩, ?_⟩
  · rintro ⟨schema, accepted⟩
    obtain ⟨first, rest, rfl, nodup, supported, same, _⟩ := analyze_eq_ok_iff.mp accepted
    refine ⟨List.cons_ne_nil first rest, nodup, supported, fun other isFirst => ?_⟩
    cases isFirst
    exact same
  · rintro ⟨nonempty, nodup, supported, same⟩
    obtain ⟨first, rest, rfl⟩ := List.exists_cons_of_ne_nil nonempty
    exact ⟨_, analyze_eq_ok_iff.mpr
      ⟨first, rest, rfl, nodup, supported, same first rfl, rfl⟩⟩
  · intro schema accepted
    obtain ⟨first, rest, rfl, _, _, _, rfl⟩ := analyze_eq_ok_iff.mp accepted
    exact ⟨rfl, rfl⟩

end

/-- A greeting in two languages, the second of which has its keys in another order. -/
def welcomes : List (Named Document) :=
  [⟨"en", { entries := [("greet", .string "\x7b\x7b name \x7d\x7d!"), ("bye", .string "Bye")] }⟩,
   ⟨"zh", { entries := [("bye", .string "再见"), ("greet", .string "\x7b\x7b name \x7d\x7d!")] }⟩]

theorem welcomes_supported : ∀ document ∈ welcomes, document.value.Supported := by
  intro document member
  refine Document.observations_eq_nil_iff.mp ?_
  rcases List.mem_pair.mp member with rfl | rfl
  · rfl
  · rfl

/-- A call in the place of the call and a text in the place of the text: the documents are
accepted, and the schema has the keys in the order of the first. -/
theorem analyze_welcomes :
    ∃ schema, analyze welcomes = .ok schema ∧
      Entries.keys schema.canonical.entries = ["greet", "bye"] ∧
      schema.languageNames = ["en", "zh"] := by
  have asks : Mentions "\x7b\x7b name \x7d\x7d!" "name" :=
    ⟨⟨by decide, List.all_eq_true.mp (by decide)⟩, by decide⟩
  have alike : ∀ document ∈ welcomes,
      Document.SameShape
        { entries := [("greet", .string "\x7b\x7b name \x7d\x7d!"), ("bye", .string "Bye")] }
        document.value := by
    intro document member
    rcases List.mem_pair.mp member with rfl | rfl
    · exact (welcomes_supported _ member).sameShape_self (Document.distinct _)
    · refine .record (fun key => List.mem_pair.trans (Or.comm.trans List.mem_pair.symm)) ?_
      intro key one other known present
      rcases List.mem_pair.mp (Entries.mem_of_lookup known) with same | same
      · cases same
        cases present
        exact .call rfl rfl ⟨"name", asks⟩ fun _ => Iff.rfl
      · cases same
        cases present
        exact .text rfl rfl (not_mentions (by decide)) (not_mentions (by decide))
  have ends := analyze_ok_iff welcomes
  obtain ⟨schema, accepted⟩ := ends.1.mpr
    ⟨List.cons_ne_nil _ _, by decide, welcomes_supported, fun _ isFirst => by
      cases isFirst
      exact alike⟩
  obtain ⟨canonical, languages⟩ := ends.2 schema accepted
  refine ⟨schema, accepted, ?_, ?_⟩
  · rw [← Option.some.inj canonical]
    rfl
  · rw [Schema.languageNames, languages]
    rfl

/-- A message that mentions one name twice in the first language, and its parameters in
another order in the second. -/
def medals : List (Named Document) :=
  [⟨"en", { entries :=
      [("won", .string "\x7b\x7b who \x7d\x7d, \x7b\x7b who \x7d\x7d: #\x7b\x7b rank \x7d\x7d"),
       ("dialog", .mapping [("ok", .string "OK")])] }⟩,
   ⟨"zh", { entries :=
      [("dialog", .mapping [("ok", .string "好")]),
       ("won", .string "第\x7b\x7b rank \x7d\x7d: \x7b\x7b who \x7d\x7d")] }⟩]

def medalsEnglish : Tree where
  entries :=
    [("won", .call [.param "who", .literal ", ", .param "who", .literal ": #", .param "rank"]),
     ("dialog", .record false [("ok", .text "OK")])]

def medalsChinese : Tree where
  entries :=
    [("dialog", .record false [("ok", .text "好")]),
     ("won", .call [.literal "第", .param "rank", .literal ": ", .param "who"])]

def medalSchema : Schema :=
  ⟨medalsEnglish, [⟨"en", medalsEnglish⟩, ⟨"zh", medalsChinese⟩]⟩

theorem analyze_medals : analyze medals = .ok medalSchema := by
  with_unfolding_all rfl

end Phrasebook
