import Phrasebook.KeyStack

/-!
# Surveys

A survey walks through a tree and records what it meets. It carries the position of the
walk and the diagnostics along; both are left in either case, also when the survey fails.
A finished survey must be back at the root.
-/

namespace Phrasebook

/-- How a survey ended, with the position and the diagnostics it leaves. -/
structure Surveyed (α : Type) where
  result : Except Failure α
  stack : KeyStack
  diagnostics : Diagnostics

/-- A walk that records diagnostics. -/
abbrev Survey (α : Type) := KeyStack → Diagnostics → Surveyed α

namespace Survey

variable {α β : Type} {property : α → Prop} {wanted : β → Prop}

def done (value : α) : Survey α := fun stack diagnostics => ⟨.ok value, stack, diagnostics⟩

/-- Goes on with the result of a survey, unless it failed. -/
def andThen (survey : Survey α) (next : α → Survey β) : Survey β := fun stack diagnostics =>
  match survey stack diagnostics with
  | ⟨.error failure, after, recorded⟩ => ⟨.error failure, after, recorded⟩
  | ⟨.ok value, after, recorded⟩ => next value after recorded

/-- Records what is seen of a language at a key of the current record. -/
def note (language key : String) (seen : Observation) : Survey Unit := fun stack diagnostics =>
  ⟨.ok (), stack, diagnostics.record language (stack.child key) seen⟩

/-- Runs a survey below a key, which it must leave again. -/
def within (key : String) (survey : Survey α) : Survey α := fun stack diagnostics =>
  let inner := survey ⟨stack.child key⟩ diagnostics
  let (result, after) := KeyStack.within key (fun _ => (inner.result, inner.stack)) stack
  ⟨result, after, inner.diagnostics⟩

/-- Whatever the survey gives has a property. -/
def Gives (survey : Survey α) (property : α → Prop) : Prop :=
  ∀ stack diagnostics value, (survey stack diagnostics).result = .ok value → property value

theorem gives_done {value : α} (holds : property value) : (done value).Gives property := by
  intro _ _ _ outcome
  cases outcome
  exact holds

theorem Gives.andThen
    {survey : Survey α} {next : α → Survey β} (first : survey.Gives property)
    (second : ∀ value, property value → (next value).Gives wanted) :
    (survey.andThen next).Gives wanted := by
  intro stack diagnostics result outcome
  rw [Survey.andThen] at outcome
  split at outcome
  · cases outcome
  · rename_i value after recorded met
    exact second value (first stack diagnostics value (by rw [met])) after recorded result outcome

theorem gives_andThen
    {survey : Survey α} {next : α → Survey β} (second : ∀ value, (next value).Gives wanted) :
    (survey.andThen next).Gives wanted :=
  have first : survey.Gives fun _ => True := fun _ _ _ _ => trivial
  first.andThen fun value _ => second value

theorem Gives.within
    {survey : Survey α} (gives : survey.Gives property) (key : String) :
    (Survey.within key survey).Gives property := by
  intro stack diagnostics value outcome
  refine gives ⟨stack.child key⟩ diagnostics value ?_
  rw [Survey.within] at outcome
  dsimp only at outcome
  rw [KeyStack.within] at outcome
  -- leaving the key changes no value
  split at outcome
  · cases outcome
  · rename_i given
    split at outcome
    · cases outcome
    · split at outcome
      · cases outcome
        exact (Prod.mk.inj given).1
      · cases outcome

/-- The survey with a proof beside whatever it gives. -/
def attach (survey : Survey α) (gives : survey.Gives property) :
    Survey { value // property value } := fun stack diagnostics =>
  match met : survey stack diagnostics with
  | ⟨.error failure, after, recorded⟩ => ⟨.error failure, after, recorded⟩
  | ⟨.ok value, after, recorded⟩ =>
      ⟨.ok ⟨value, gives stack diagnostics value (by rw [met])⟩, after, recorded⟩

/-- Runs a whole survey, from the root and back to it. -/
def run (survey : Survey α) (diagnostics : Diagnostics) : Except Failure α × Diagnostics :=
  match survey {} diagnostics with
  | ⟨.error failure, _, recorded⟩ => (.error failure, recorded)
  | ⟨.ok value, after, recorded⟩ =>
      match after.finish with
      | .error failure => (.error failure, recorded)
      | .ok () => (.ok value, recorded)

end Survey

end Phrasebook
