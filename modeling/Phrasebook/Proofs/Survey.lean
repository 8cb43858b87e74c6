import Phrasebook.Survey

/-!
# Balanced surveys

A survey that succeeds wherever it starts, leaves the position as it found it and records
a list of observations that depends on the position only. Every combination of such surveys
is one again, so that a walk over a whole tree needs no reasoning about positions.
-/

namespace Phrasebook

/-- Recording two lists in turn records their concatenation. -/
theorem Diagnostics.recordAll_append
    (language : String) (front back : List (KeyPath × Observation)) (diagnostics : Diagnostics) :
    Diagnostics.recordAll language (front ++ back) diagnostics =
      Diagnostics.recordAll language back (Diagnostics.recordAll language front diagnostics) :=
  List.foldl_append

namespace KeyStack

@[simp]
theorem child_eq (key : String) (stack : KeyStack) :
    stack.child key = stack.keys ++ [key] := rfl

/-- A walk that ends where it started is left through the key by which it was entered. -/
theorem within_of_balanced {α : Type} (key : String) (value : α) (stack : KeyStack) :
    KeyStack.within key (fun _ => (.ok value, ⟨stack.child key⟩)) stack = (.ok value, stack) := by
  have deep : ¬ (KeyStack.mk (stack.child key)).depth ≠ stack.depth + 1 := by
    simp [depth]
  have last : (KeyStack.mk (stack.child key)).innermost = key := by
    simp [innermost]
  have back : (stack.child key).dropLast = stack.keys := by
    simp
  simp only [KeyStack.within, if_neg deep, if_pos last, back]

end KeyStack

namespace Survey

variable {α β : Type} {property : α → Prop}

/-- The survey gives `value` from every position, comes back to it, and records of the
language what `seen` lists there. -/
def Sees (survey : Survey α) (language : String) (value : α)
    (seen : KeyPath → List (KeyPath × Observation)) : Prop :=
  ∀ stack diagnostics, survey stack diagnostics =
    ⟨.ok value, stack, Diagnostics.recordAll language (seen stack.keys) diagnostics⟩

theorem sees_done (language : String) (value : α) :
    (done value).Sees language value fun _ => [] :=
  fun _ _ => rfl

theorem sees_note (language key : String) (observation : Observation) :
    (note language key observation).Sees language () fun path => [(path ++ [key], observation)] :=
  fun _ _ => rfl

/-- What two surveys in turn see is listed in turn. -/
theorem Sees.andThen
    {survey : Survey α} {next : α → Survey β} {language : String} {value : α} {result : β}
    {first second : KeyPath → List (KeyPath × Observation)}
    (sees : survey.Sees language value first) (goesOn : (next value).Sees language result second) :
    (survey.andThen next).Sees language result fun path => first path ++ second path := by
  intro stack diagnostics
  rw [Survey.andThen, sees stack diagnostics]
  dsimp only
  rw [goesOn, Diagnostics.recordAll_append]

/-- Going on with a plain value sees nothing more. -/
theorem Sees.andThen_done
    {survey : Survey α} {language : String} {value : α}
    {seen : KeyPath → List (KeyPath × Observation)}
    (sees : survey.Sees language value seen) (result : α → β) :
    (survey.andThen fun value => done (result value)).Sees language (result value) seen := by
  have both : (survey.andThen fun value => done (result value)).Sees language (result value)
      fun path => seen path ++ [] :=
    sees.andThen (sees_done language (result value))
  simpa only [List.append_nil] using both

/-- A survey below a key sees what it would see one level deeper, and leaves the key. -/
theorem Sees.within
    {survey : Survey α} {language : String} {value : α}
    {seen : KeyPath → List (KeyPath × Observation)}
    (sees : survey.Sees language value seen) (key : String) :
    (Survey.within key survey).Sees language value fun path => seen (path ++ [key]) := by
  intro stack diagnostics
  rw [Survey.within, sees]
  dsimp only
  rw [KeyStack.within_of_balanced]
  rfl

theorem attach_congr {one other : Survey α} (same : one = other) (gives : one.Gives property) :
    one.attach gives = other.attach (same ▸ gives) := by
  subst same
  rfl

theorem Sees.holds
    {survey : Survey α} {language : String} {value : α}
    {seen : KeyPath → List (KeyPath × Observation)}
    (sees : survey.Sees language value seen) (gives : survey.Gives property) : property value :=
  gives {} [] value (by rw [sees])

/-- A proof beside the value changes nothing else. -/
theorem Sees.attach
    {survey : Survey α} {language : String} {value : α}
    {seen : KeyPath → List (KeyPath × Observation)}
    (sees : survey.Sees language value seen) (gives : survey.Gives property) :
    (survey.attach gives).Sees language ⟨value, sees.holds gives⟩ seen := by
  intro stack diagnostics
  rw [Survey.attach]
  split
  · rename_i met
    rw [sees] at met
    cases met
  · rename_i met
    rw [sees] at met
    cases met
    rfl

/-- A whole balanced survey ends at the root. -/
theorem Sees.run
    {survey : Survey α} {language : String} {value : α}
    {seen : KeyPath → List (KeyPath × Observation)}
    (sees : survey.Sees language value seen) (diagnostics : Diagnostics) :
    survey.run diagnostics =
      (.ok value, Diagnostics.recordAll language (seen []) diagnostics) := by
  rw [Survey.run, sees]
  rfl

end Survey

end Phrasebook
