import Phrasebook.Proofs.Pipeline

/-!
# Observers are invisible

A run makes its calls by a plan that is known beforehand, and ends early when one of them fails.
Observers never fail and never change anything, so a run with observers among its plugins ends as
the run without them. The calls that its plan has for the others are the calls of that run, with the
same states, in the same order.
-/

namespace Phrasebook

/-- A place in a list of plugins, taken by an observer or by any other plugin. -/
inductive Seat where
  | observer (plugin : Plugin) (silent : plugin.IsSilent)
  | other (plugin : Plugin)

namespace Seat

def plugin : Seat → Plugin
  | .observer plugin _ => plugin
  | .other plugin => plugin

/-- Whether the plugin is there without the observers as well. -/
def stays : Seat → Bool
  | .observer .. => false
  | .other _ => true

/-- All plugins of a list, observers included. -/
def plugins (seats : List Seat) : List Plugin :=
  seats.map plugin

/-- The plugins of a list that are no observers. -/
def others (seats : List Seat) : List Plugin :=
  (seats.filter stays).map plugin

end Seat

/-- A call that a run is to make, and whether it is made without the observers as well. -/
structure Planned where
  callee : Callee
  stays : Bool
deriving DecidableEq, Repr

namespace Planned

/-- The calls of the plugins at one moment of a phase. -/
def moment (moment : Moment) (phase : String) (seats : List Seat) : List Planned :=
  seats.map fun seat => ⟨.plugin seat.plugin.name moment phase, seat.stays⟩

/-- The calls of a phase: the plugins before it, the phase, and the plugins after it. -/
def phase (seats : List Seat) (name : String) : List Planned :=
  moment .before name seats ++ ⟨.phase name, true⟩ :: moment .after name seats

/-- The calls of a run in which nothing fails. -/
def run (seats : List Seat) (phases : List Phase) : List Planned :=
  (Pipeline.buildPhase :: Pipeline.unifyPhase :: phases).flatMap fun each => phase seats each.name

end Planned

/-- The calls of a journal that its plan would keep without the observers. The first call is the
first planned one, and so on. -/
def Journal.kept (plan : List Planned) (journal : List Call) : List Call :=
  ((plan.zip journal).filter fun pair => pair.1.stays).map Prod.snd

/-- A run with observers beside one without them. -/
structure Outcome.Observed {α : Type} (plan : List Planned) (watched plain : Outcome α) : Prop where
  /-- Both end with the same result. -/
  result : watched.result = plain.result
  /-- The run with observers makes the planned calls in turn, until one of them fails. -/
  planned : watched.journal.map Call.callee <+: plan.map Planned.callee
  /-- Without a failure it makes them all. -/
  complete : ∀ value, watched.result = .ok value → watched.journal.length = plan.length
  /-- Its calls that are not to observers are the calls of the run without observers. -/
  kept : Journal.kept plan watched.journal = plain.journal

namespace Journal

theorem kept_append {plan : List Planned} {journal : List Call}
    (whole : journal.length = plan.length) (later : List Planned) (rest : List Call) :
    kept (plan ++ later) (journal ++ rest) = kept plan journal ++ kept later rest := by
  rw [kept, List.zip_append whole.symm, List.filter_append, List.map_append]
  rfl

theorem kept_nil (plan : List Planned) : kept plan [] = [] := by
  rw [kept, List.zip_nil_right]
  rfl

/-- What is planned behind the end of a journal plays no part. -/
theorem kept_of_length_le {plan : List Planned} {journal : List Call}
    (short : journal.length ≤ plan.length) (later : List Planned) :
    kept (plan ++ later) journal = kept plan journal := by
  obtain ⟨front, back, rfl, whole⟩ : ∃ front back, plan = front ++ back ∧
      journal.length = front.length :=
    ⟨plan.take journal.length, plan.drop journal.length, (List.take_append_drop _ _).symm, by simp [short]⟩
  have ends (rest : List Planned) : kept (front ++ rest) journal = kept front journal := by
    have step := kept_append whole rest []
    rw [List.append_nil] at step
    rw [step, kept_nil, List.append_nil]
  rw [List.append_assoc, ends, ends]

end Journal

namespace Outcome.Observed

variable {plan later : List Planned}

/-- A run without calls is the same with and without observers. -/
theorem done {α : Type} (value : α) : Observed [] ⟨[], .ok value⟩ (⟨[], .ok value⟩ : Outcome α) where
  result := rfl
  planned := List.prefix_rfl
  complete _ _ := rfl
  kept := rfl

/-- A call that is no observer's is made in both runs. -/
theorem call (callee : Callee) (run : Context → Except Failure Context) (context : Context) :
    Observed [⟨callee, true⟩] (Pipeline.call callee run context) (Pipeline.call callee run context) where
  result := rfl
  planned := List.prefix_rfl
  complete _ _ := rfl
  kept := rfl

/-- The call of an observer has no counterpart. -/
theorem observer (callee : Callee) {run : Context → Except Failure Context} {context : Context}
    (silent : run context = .ok context) :
    Observed [⟨callee, false⟩] (Pipeline.call callee run context) ⟨[], .ok context⟩ where
  result := silent
  planned := List.prefix_rfl
  complete _ _ := rfl
  kept := rfl

theorem length_le {α : Type} {watched plain : Outcome α} (observed : Observed plan watched plain) :
    watched.journal.length ≤ plan.length := by
  have bound := observed.planned.length_le
  rwa [List.length_map, List.length_map] at bound

/-- Runs that go on in the same way after the same result. -/
theorem andThen {α β : Type} {watched plain : Outcome α} (observed : Observed plan watched plain)
    {next others : α → Outcome β} (goesOn : ∀ value, Observed later (next value) (others value)) :
    Observed (plan ++ later) (watched.andThen next) (plain.andThen others) := by
  have same := observed.result
  cases ended : watched.result with
  | error failure =>
      rw [ended] at same
      rw [Outcome.andThen, Outcome.andThen, ended, ← same]
      refine ⟨rfl, ?_, ?_, ?_⟩
      · rw [List.map_append]
        exact observed.planned.trans (List.prefix_append _ _)
      · intro last finished
        cases finished
      · exact (Journal.kept_of_length_le observed.length_le later).trans observed.kept
  | ok value =>
      have behind := goesOn value
      have whole := observed.complete value ended
      have all : watched.journal.map Call.callee = plan.map Planned.callee :=
        observed.planned.eq_of_length (by rw [List.length_map, List.length_map, whole])
      rw [ended] at same
      rw [Outcome.andThen, Outcome.andThen, ended, ← same]
      refine ⟨behind.result, ?_, ?_, ?_⟩
      · rw [List.map_append, List.map_append, all]
        exact (List.prefix_append_right_inj _).mpr behind.planned
      · intro last finished
        rw [List.length_append, List.length_append, whole, behind.complete last finished]
      · dsimp only
        rw [Journal.kept_append whole, observed.kept, behind.kept]

end Outcome.Observed

namespace Pipeline

end Pipeline

end Phrasebook
