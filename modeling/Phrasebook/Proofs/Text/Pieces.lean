/-!
# Texts cut at a separator

Paths are cut at their separators and addresses at their dots. A character that is no separator
goes on the piece behind it, so that no piece has a separator.
-/

namespace Phrasebook.Text

theorem exists_splitOn_cons {separator c : Char} (other : c ≠ separator) (rest : List Char) :
    ∃ first others, rest.splitOn separator = first :: others ∧
      (c :: rest).splitOn separator = (c :: first) :: others := by
  obtain ⟨first, others, pieces⟩ :=
    List.exists_cons_of_ne_nil (List.splitOn_ne_nil separator rest)
  refine ⟨first, others, pieces, ?_⟩
  rw [List.splitOn_cons_eq_if_modifyHead, if_neg (mt beq_iff_eq.mp other), pieces,
    List.modifyHead_cons]

theorem not_mem_of_mem_splitOn (separator : Char) (text : List Char) :
    ∀ piece ∈ text.splitOn separator, separator ∉ piece := by
  induction text with
  | nil => simp
  | cons c rest ih =>
      by_cases here : c = separator
      · rw [List.splitOn_cons_eq_if_modifyHead, if_pos (beq_iff_eq.mpr here), List.forall_mem_cons]
        exact ⟨List.not_mem_nil, ih⟩
      · obtain ⟨first, others, pieces, longer⟩ := exists_splitOn_cons here rest
        rw [pieces, List.forall_mem_cons] at ih
        rw [longer, List.forall_mem_cons, List.mem_cons, not_or]
        exact ⟨⟨Ne.symm here, ih.1⟩, ih.2⟩

end Phrasebook.Text
