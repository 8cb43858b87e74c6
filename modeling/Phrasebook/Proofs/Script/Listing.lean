import Phrasebook.Proofs.Script.Token
import Phrasebook.Script.Reader

/-!
# Lists in emitted code

Lists are written with a separator between the items, or with one behind each of them. Both
are cut into the tokens of the items and the separators, and both are read back item by
item.
-/

namespace Phrasebook.Script

/-- Groups of tokens with a mark between them. -/
def separated (separator : Char) : List (List Token) → List Token
  | [] => []
  | [last] => last
  | first :: second :: rest => first ++ .mark separator :: separated separator (second :: rest)

theorem isNameRest_of_mark {c : Char} (isMark : c ∈ marks) : isNameRest c = false := by
  have none : marks.all (fun c => !isNameRest c) = true := by decide
  simpa using List.all_eq_true.mp none c isMark

section Scanning

variable {α : Type} {code : α → String} {tokens : α → List Token}

/-- Items joined by a mark and a blank are cut into their tokens and the marks. -/
theorem scansApart_intercalate
    {c : Char} (isMark : c ∈ marks) {separator : String} (written : separator.toList = [c, ' '])
    {items : List α} (each : ∀ item ∈ items, ScansApart (code item).toList (tokens item)) :
    ScansApart (separator.intercalate (items.map code)).toList
      (separated c (items.map tokens)) := by
  induction items with
  | nil => exact Scans.nil.apart
  | cons first rest ih =>
      have here := each first List.mem_cons_self
      cases rest with
      | nil =>
          rw [List.map_singleton, String.intercalate_singleton]
          exact here
      | cons second rest =>
          have later := ih fun item member => each item (List.mem_cons_of_mem _ member)
          have mark : Scans [c, ' '] [.mark c] := .mark_cons isMark .space
          have front := here c [' '] _ (isNameRest_of_mark isMark) mark
          have groups : separated c ((first :: second :: rest).map tokens) =
              (tokens first ++ [.mark c]) ++ separated c ((second :: rest).map tokens) :=
            List.append_cons _ _ _
          rw [groups, List.map_cons, List.map_cons, String.intercalate_cons_cons,
            String.toList_append, String.toList_append, written]
          exact ScansApart.append front later

end Scanning

namespace Reader

section Reading

variable {α β : Type} {item : Reader β} {separator close : Char} {tokens : α → List Token}
  {meaning : α → β}

/-- What a list reader needs of its items: each is read back whatever follows, and none opens
with the closing mark. -/
structure ReadsItems (item : Reader β) (close : Char) (tokens : α → List Token) (meaning : α → β)
    (items : List α) : Prop where
  reads : ∀ one ∈ items, ∀ rest, item (tokens one ++ rest) = some (meaning one, rest)
  opens : ∀ one ∈ items, ∀ rest, (tokens one ++ rest).head? ≠ some (.mark close)

theorem ReadsItems.tail {first : α} {rest : List α}
    (items : ReadsItems item close tokens meaning (first :: rest)) :
    ReadsItems item close tokens meaning rest where
  reads one member := items.reads one (List.mem_cons_of_mem _ member)
  opens one member := items.opens one (List.mem_cons_of_mem _ member)

theorem listUpTo_close (fuel : Nat) (rest : List Token) :
    listUpTo item separator close (fuel + 1) (.mark close :: rest) = some ([], rest) := by
  rw [listUpTo, List.head?_cons, if_pos rfl, List.tail_cons]

/-- An item with the closing mark behind it is the last one. -/
theorem listUpTo_last
    {one : α} (items : ReadsItems item close tokens meaning [one]) (fuel : Nat)
    (rest : List Token) :
    listUpTo item separator close (fuel + 1) (tokens one ++ .mark close :: rest) =
      some ([meaning one], rest) := by
  have first := List.mem_singleton_self one
  rw [listUpTo, if_neg (items.opens one first _), items.reads one first]
  dsimp only
  rw [List.head?_cons, if_pos rfl, List.tail_cons]

/-- An item with the separator behind it comes before the items that are read from there. -/
theorem listUpTo_item
    {one : α} {others : List α} (items : ReadsItems item close tokens meaning (one :: others))
    (apart : separator ≠ close) (fuel : Nat) (rest : List Token) :
    listUpTo item separator close (fuel + 1) (tokens one ++ .mark separator :: rest) =
      (listUpTo item separator close fuel rest).map fun (found, behind) =>
        (meaning one :: found, behind) := by
  have first : one ∈ one :: others := List.mem_cons_self
  have differs : ¬ some (Token.mark separator) = some (Token.mark close) := by
    rintro ⟨⟩
    exact apart rfl
  rw [listUpTo, if_neg (items.opens one first _), items.reads one first]
  dsimp only
  rw [List.head?_cons, if_neg differs, if_pos rfl, List.tail_cons]

theorem listUpTo_separated
    {items : List α} (readable : ReadsItems item close tokens meaning items)
    (apart : separator ≠ close) {fuel : Nat} (enough : items.length ≤ fuel) (rest : List Token) :
    listUpTo item separator close (fuel + 1)
        (separated separator (items.map tokens) ++ .mark close :: rest) =
      some (items.map meaning, rest) := by
  induction items generalizing fuel with
  | nil => exact listUpTo_close fuel rest
  | cons first others ih =>
      cases others with
      | nil =>
          exact listUpTo_last readable fuel rest
      | cons second others =>
          obtain ⟨fuel, rfl⟩ := Nat.exists_eq_succ_of_ne_zero
            (Nat.ne_of_gt (Nat.lt_of_lt_of_le (Nat.succ_pos _) enough))
          have later := ih readable.tail (Nat.le_of_succ_le_succ enough)
          have groups : separated separator ((first :: second :: others).map tokens) ++
              .mark close :: rest = tokens first ++ .mark separator ::
                (separated separator ((second :: others).map tokens) ++ .mark close :: rest) :=
            List.append_assoc _ _ _
          rw [groups, listUpTo_item readable apart, later]
          rfl

/-- Items with a separator behind each are read up to the closing mark. -/
theorem listUpTo_terminated
    {items : List α} (readable : ReadsItems item close tokens meaning items)
    (apart : separator ≠ close) {fuel : Nat} (enough : items.length ≤ fuel) (rest : List Token) :
    listUpTo item separator close (fuel + 1)
        (items.flatMap (fun one => tokens one ++ [.mark separator]) ++ .mark close :: rest) =
      some (items.map meaning, rest) := by
  induction items generalizing fuel with
  | nil => exact listUpTo_close fuel rest
  | cons first others ih =>
      obtain ⟨fuel, rfl⟩ := Nat.exists_eq_succ_of_ne_zero
        (Nat.ne_of_gt (Nat.lt_of_lt_of_le (Nat.succ_pos _) enough))
      have later := ih readable.tail (Nat.le_of_succ_le_succ enough)
      rw [List.flatMap_cons, List.append_assoc, List.append_assoc, List.singleton_append,
        listUpTo_item readable apart, later]
      rfl

theorem length_le_separated (groups : List (List Token)) :
    groups.length ≤ (separated separator groups).length + 1 := by
  induction groups with
  | nil => exact Nat.zero_le _
  | cons first rest ih =>
      cases rest with
      | nil => exact Nat.succ_le_succ (Nat.zero_le _)
      | cons second rest =>
          simp only [separated, List.length_append, List.length_cons] at ih ⊢
          omega

theorem length_le_terminated (items : List α) :
    items.length ≤ (items.flatMap fun one => tokens one ++ [.mark separator]).length := by
  induction items with
  | nil => exact Nat.zero_le _
  | cons first rest ih =>
      rw [List.flatMap_cons]
      simp only [List.length_append, List.length_cons]
      omega

/-- A list with marks between its items is read back. -/
theorem list_separated
    {items : List α} (readable : ReadsItems item close tokens meaning items)
    (apart : separator ≠ close) (rest : List Token) :
    list item separator close (separated separator (items.map tokens) ++ .mark close :: rest) =
      some (items.map meaning, rest) := by
  have bound : (items.map tokens).length ≤ (separated separator (items.map tokens)).length + 1 :=
    length_le_separated _
  refine listUpTo_separated readable apart ?_ rest
  rw [List.length_map] at bound
  rw [List.length_append, List.length_cons]
  omega

/-- A list with a mark behind each item is read back. -/
theorem list_terminated
    {items : List α} (readable : ReadsItems item close tokens meaning items)
    (apart : separator ≠ close) (rest : List Token) :
    list item separator close
        (items.flatMap (fun one => tokens one ++ [.mark separator]) ++ .mark close :: rest) =
      some (items.map meaning, rest) := by
  have bound : items.length ≤
      (items.flatMap fun one => tokens one ++ [.mark separator]).length := length_le_terminated items
  refine listUpTo_terminated readable apart ?_ rest
  rw [List.length_append]
  omega

end Reading

end Reader

end Phrasebook.Script
