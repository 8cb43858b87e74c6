import Mathlib.Data.List.Forall2
import Phrasebook.Proofs.Recording
import Phrasebook.Report

/-!
# Reports number every diagnostic once

A report goes through the diagnostics once for each kind and counts on from kind to kind. Each
diagnostic has a kind, and only one, so each gets one block and one number.
-/

namespace Phrasebook.Report

/-- The block of a diagnostic under a number: behind an empty line the number in three columns at
least, the kind and the headline, and then a line for each detail. -/
def IsBlock (trees : List (Named Tree)) (number : Nat) (diagnostic : Diagnostic) (text : String) :
    Prop :=
  ∃ margin : String, margin.length = 3 - (toString number).length ∧ (∀ c ∈ margin.toList, c = ' ') ∧
    text = "\n" ++ (margin ++ toString number) ++ ". [" ++ diagnostic.kind.name ++ "] " ++
      headline trees diagnostic ++ "\n" ++
      String.join ((details trees diagnostic).map fun line => "       " ++ line ++ "\n")

/-- Blocks for all diagnostics of a collection. -/
structure Enumerates (trees : List (Named Tree)) (diagnostics listed : List Diagnostic)
    (texts : List String) : Prop where
  /-- Each diagnostic is listed as often as the collection has it. -/
  once : listed.Perm diagnostics
  /-- Diagnostics of a kind come before those of a kind that is reported later. -/
  kinds : listed.Pairwise fun one other =>
    DiagnosticKind.all.idxOf one.kind ≤ DiagnosticKind.all.idxOf other.kind
  /-- Diagnostics of one kind keep the order in which they were first recorded. -/
  order : ∀ kind, listed.filter (fun diagnostic => diagnostic.kind = kind) =
    diagnostics.filter fun diagnostic => diagnostic.kind = kind
  /-- Each one has a block, and the blocks are numbered from one on. -/
  numbered : List.Forall₂ (fun entry text => IsBlock trees entry.2 entry.1 text) (listed.zipIdx 1) texts

theorem isBlock_block (trees : List (Named Tree)) (number : Nat) (diagnostic : Diagnostic) :
    IsBlock trees number diagnostic (block trees number diagnostic) := by
  refine ⟨String.ofList (List.replicate (3 - (toString number).length) ' '), ?_, ?_, rfl⟩
  · rw [String.length_ofList, List.length_replicate]
  · intro c member
    rw [String.toList_ofList] at member
    exact List.eq_of_mem_replicate member

/-- The blocks of a list have the numbers that follow on each other from the first. -/
theorem numbered_blocks (trees : List (Named Tree)) (start : Nat) (listed : List Diagnostic) :
    List.Forall₂ (fun entry text => IsBlock trees entry.2 entry.1 text) (listed.zipIdx start)
      (blocks trees start listed) := by
  induction listed generalizing start with
  | nil => exact .nil
  | cons first rest ih =>
      rw [List.zipIdx_cons, blocks]
      exact .cons (isBlock_block trees start first) (ih (start + 1))

theorem ordered_perm (diagnostics : Diagnostics) : (ordered diagnostics).Perm diagnostics := by
  apply Diagnostics.flatMap_ofKind_perm
  · decide
  · intro diagnostic _
    cases diagnostic.kind <;> decide

theorem ordered_pairwise (diagnostics : Diagnostics) :
    (ordered diagnostics).Pairwise fun one other =>
      DiagnosticKind.all.idxOf one.kind ≤ DiagnosticKind.all.idxOf other.kind := by
  have ascending : DiagnosticKind.all.Pairwise fun one other =>
      DiagnosticKind.all.idxOf one ≤ DiagnosticKind.all.idxOf other := by
    decide
  unfold ordered
  rw [List.pairwise_flatMap]
  constructor
  · intro kind _
    refine List.pairwise_of_forall_mem_list fun one member other otherMember => ?_
    have same : one.kind = other.kind :=
      (Diagnostics.mem_ofKind.mp member).2.trans (Diagnostics.mem_ofKind.mp otherMember).2.symm
    exact Nat.le_of_eq (congrArg (fun kind => DiagnosticKind.all.idxOf kind) same)
  · refine ascending.imp fun {kind otherKind} before one member other otherMember => ?_
    rwa [(Diagnostics.mem_ofKind.mp member).2, (Diagnostics.mem_ofKind.mp otherMember).2]

/-- Among the diagnostics of one kind are all of this kind and none of another. -/
theorem filter_ofKind (diagnostics : Diagnostics) (kind other : DiagnosticKind) :
    (diagnostics.ofKind other).filter (fun diagnostic => diagnostic.kind = kind) =
      if other = kind then diagnostics.ofKind kind else [] := by
  split
  · rename_i same
    rw [same, Diagnostics.ofKind, List.filter_filter]
    simp only [Bool.and_self]
  · rename_i differs
    rw [List.filter_eq_nil_iff]
    intro diagnostic member same
    rw [(Diagnostics.mem_ofKind.mp member).2] at same
    exact differs (of_decide_eq_true same)

/-- Going through the kinds keeps the diagnostics of each kind in their order. -/
theorem filter_ordered (diagnostics : Diagnostics) (kind : DiagnosticKind) :
    (ordered diagnostics).filter (fun diagnostic => diagnostic.kind = kind) =
      diagnostics.ofKind kind := by
  unfold ordered
  rw [List.filter_flatMap]
  simp only [filter_ofKind]
  cases kind <;> simp [DiagnosticKind.all]

/-- A report tells how many diagnostics and how many languages there are, and then has one block for
each diagnostic. The blocks are numbered from one on, ordered by kind, and within a kind by first
recording. -/
theorem render_enumerates (diagnostics : Diagnostics) (trees : List (Named Tree)) :
    ∃ listed texts, Enumerates trees diagnostics listed texts ∧
      render diagnostics trees =
        "found " ++ toString diagnostics.length ++ " structural problem" ++
          (if diagnostics.length = 1 then "" else "s") ++ " across " ++ toString trees.length ++
          " language" ++ (if trees.length = 1 then "" else "s") ++ ":\n" ++ String.join texts := by
  refine ⟨ordered diagnostics, blocks trees 1 (ordered diagnostics), ?_, rfl⟩
  exact ⟨ordered_perm diagnostics, ordered_pairwise diagnostics, filter_ordered diagnostics,
    numbered_blocks trees 1 (ordered diagnostics)⟩

end Phrasebook.Report
