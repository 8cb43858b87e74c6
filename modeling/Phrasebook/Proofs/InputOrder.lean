import Phrasebook.Proofs.Analysis
import Phrasebook.Proofs.Tree.Order

/-!
# What the order of the input decides

The order of the languages decides the order of what comes out, and the first of them the order
of the keys, but not whether the languages are accepted. Whatever language comes first, they are
accepted when any two of them are of one shape.
-/

namespace Phrasebook

/-- How an analysis ends: with a schema, or for one of three reasons without one. -/
inductive Verdict where
  | accepted
  | noLanguages
  | duplicateLanguage
  | disagreement
deriving DecidableEq, Repr

/-- The verdict that the end of an analysis stands for. No other failure is one. -/
def Verdict.of? : Except Failure Schema → Option Verdict
  | .ok _ => some .accepted
  | .error .noLanguages => some .noLanguages
  | .error (.duplicateLanguage _) => some .duplicateLanguage
  | .error (.disagreement _ _) => some .disagreement
  | .error _ => none

/-- Documents that hold messages only, any two of them of one shape. -/
structure Compatible (documents : List (Named Document)) : Prop where
  supported : ∀ document ∈ documents, document.value.Supported
  alike : ∀ one ∈ documents, ∀ other ∈ documents, one.value.SameShape other.value

section

variable {documents others : List (Named Document)}

theorem Compatible.perm (compatible : Compatible documents) (same : documents.Perm others) :
    Compatible others where
  supported document member := compatible.supported document (same.mem_iff.mpr member)
  alike one member other otherMember :=
    compatible.alike one (same.mem_iff.mpr member) other (same.mem_iff.mpr otherMember)

/-- Documents that have the shape of the first one have the shape of each other. -/
theorem compatible_iff {first : Named Document} {rest : List (Named Document)} :
    Compatible (first :: rest) ↔
      (∀ document ∈ first :: rest, document.value.Supported) ∧
        ∀ document ∈ first :: rest, first.value.SameShape document.value := by
  constructor
  · intro compatible
    exact ⟨compatible.supported, compatible.alike first List.mem_cons_self⟩
  · rintro ⟨supported, same⟩
    have agree : ∀ document ∈ first :: rest, Node.Agree (Tree.ofDocument first.value).toNode
        (Tree.ofDocument document.value).toNode := by
      intro document member
      exact (Tree.agree_ofDocument_iff (supported first List.mem_cons_self)
        (supported document member)).mpr (same document member)
    refine ⟨supported, fun one member other otherMember => ?_⟩
    exact (Tree.agree_ofDocument_iff (supported one member) (supported other otherMember)).mp
      ((agree one member).symm.trans (agree other otherMember))

open scoped Classical in
/-- The verdict on a list of documents, in which their order plays no part. -/
noncomputable def Verdict.ofDocuments (documents : List (Named Document)) : Verdict :=
  if documents.isEmpty then .noLanguages
  else if ¬ (documents.map Named.name).Nodup then .duplicateLanguage
  else if Compatible documents then .accepted
  else .disagreement

theorem Verdict.ofDocuments_perm (same : documents.Perm others) :
    Verdict.ofDocuments documents = Verdict.ofDocuments others := by
  have names : (documents.map Named.name).Nodup ↔ (others.map Named.name).Nodup :=
    (same.map Named.name).nodup_iff
  have compatible : Compatible documents = Compatible others :=
    propext ⟨fun compatible => compatible.perm same, fun compatible => compatible.perm same.symm⟩
  rw [Verdict.ofDocuments, Verdict.ofDocuments, compatible, same.isEmpty_eq]
  simp only [names]

/-- The analysis ends with the verdict on the documents. -/
theorem verdict_analyze (documents : List (Named Document)) :
    Verdict.of? (analyze documents) = some (Verdict.ofDocuments documents) := by
  rcases analyze_cases documents with
    ⟨rfl, outcome⟩ | ⟨name, isFirst, outcome⟩ | ⟨first, rest, rfl, nodup, outcome⟩
  · rw [outcome]
    rfl
  · have repeats := repeated?_eq_some_iff.mpr isFirst
    have twice : ¬ (documents.map Named.name).Nodup := by
      intro nodup
      rw [repeated?_eq_none_iff.mpr nodup] at repeats
      cases repeats
    have nonempty : ¬ documents.isEmpty = true := by
      intro empty
      rw [List.isEmpty_iff.mp empty] at repeats
      cases repeats
    rw [outcome, Verdict.ofDocuments, if_neg nonempty, if_pos twice]
    rfl
  · -- the diagnostics compare the first document with the others, which is all pairs of them
    have nothing := (recorded_eq_nil_iff first rest).trans compatible_iff.symm
    generalize Tree.recordDifferences (Tree.ofDocument first.value) (Tree.ofDocuments rest)
      (builtDiagnostics (first :: rest)) = diagnostics at outcome nothing
    have nonempty : ¬ (first :: rest).isEmpty = true := Bool.false_ne_true
    rw [outcome, Verdict.ofDocuments, if_neg nonempty, if_neg (not_not_intro nodup)]
    cases diagnostics with
    | nil =>
        rw [if_pos (nothing.mp rfl)]
        rfl
    | cons diagnostic more =>
        rw [if_neg fun compatible => List.cons_ne_nil diagnostic more (nothing.mpr compatible)]
        rfl

end

/-- What the order of the input can change. The verdict on documents does not depend on their
order. Trees that come after the first can be put in another order: the schema stays the first
tree, and the diagnostics differ only in their order and in the order of the languages in them. -/
theorem input_order :
    (∀ documents others : List (Named Document), documents.Perm others →
      ∃ verdict, Verdict.of? (analyze documents) = some verdict ∧
        Verdict.of? (analyze others) = some verdict) ∧
    ∀ (first : Named Tree) (rest others : List (Named Tree)) (before : Diagnostics),
      ((first :: rest).map Named.name).Nodup →
      (∀ tree ∈ first :: rest, tree.value.Settled) → before.Recorded →
      (first :: rest).Perm (first :: others) →
      ∃ diagnostics otherDiagnostics,
        Tree.unify (first :: rest) before = .ok (first.value, diagnostics) ∧
        Tree.unify (first :: others) before = .ok (first.value, otherDiagnostics) ∧
        diagnostics.Rearranged otherDiagnostics := by
  constructor
  · intro documents others same
    refine ⟨Verdict.ofDocuments documents, verdict_analyze documents, ?_⟩
    rw [Verdict.ofDocuments_perm same]
    exact verdict_analyze others
  · intro first rest others before names settled recorded same
    have otherNames := (same.map Named.name).nodup_iff.mp names
    have firstSettled := settled first List.mem_cons_self
    refine ⟨_, _, ?_, ?_, Tree.recordDifferences_perm firstSettled
      (List.nodup_cons.mp names).2 ((List.perm_cons first).mp same) recorded⟩
    · rw [Tree.unify, Tree.unified_of_nodup firstSettled
        (repeated?_eq_none_iff.mpr names)]
    · rw [Tree.unify, Tree.unified_of_nodup firstSettled
        (repeated?_eq_none_iff.mpr otherNames)]

/-- With the second language first the greetings are accepted as well, and the conflicts of two
languages with the first are the same in both orders. -/
theorem input_order_reversed :
    Verdict.of? (analyze medals.reverse) = some .accepted ∧
      ∃ diagnostics otherDiagnostics,
        Tree.unify (Tree.salute :: Tree.salutes) [] = .ok (Tree.salute.value, diagnostics) ∧
        Tree.unify (Tree.salute :: Tree.salutes.reverse) [] =
          .ok (Tree.salute.value, otherDiagnostics) ∧
        diagnostics.Rearranged otherDiagnostics := by
  obtain ⟨verdict, accepted, reversed⟩ :=
    input_order.1 medals medals.reverse (List.reverse_perm medals).symm
  rw [analyze_medals] at accepted
  cases accepted
  refine ⟨reversed, input_order.2 Tree.salute Tree.salutes Tree.salutes.reverse [] (by decide)
    (by decide) ⟨List.nodup_nil, fun _ member => absurd member List.not_mem_nil⟩
    ((List.reverse_perm Tree.salutes).symm.cons Tree.salute)⟩

end Phrasebook
