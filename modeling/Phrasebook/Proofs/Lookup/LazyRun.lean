import Phrasebook.Proofs.Lookup.LazyProvider
import Mathlib.Data.List.Infix

/-!
# Runs of a lazy provider

A run is any sequence of registrations, gifts of messages and requests, with any end of
every load. It is looked at event by event: the writes to slots, the loads and the moves of
the current language stand in the order in which they happen, also inside a request. The
main statement says what holds between any two events of any run: the current language has
its messages, a language that has its messages keeps having them, no loader of such a
language runs, and a language only becomes current when its messages are there.
-/

namespace Phrasebook.LazyProvider

variable {Loader : Type}

/-- What is done to a provider. -/
inductive Action (Loader : Type) where
  | register (name : String) (loader : Loader)
  | give (name : String) (messages : Tree)
  | request (name : String) (run : Loader → LoadOutcome)

/-- The provider after an action. -/
def perform (action : Action Loader) (provider : LazyProvider Loader) : LazyProvider Loader :=
  match action with
  | .register name loader => provider.withLoader name loader
  | .give name messages => provider.withResource name messages
  | .request name run => (provider.setLanguage name run).2

/-- The provider after a list of actions. -/
def performAll (actions : List (Action Loader)) (provider : LazyProvider Loader) :
    LazyProvider Loader :=
  actions.foldl (fun reached action => reached.perform action) provider

/-- What happens during an action, in order. -/
def events (action : Action Loader) (provider : LazyProvider Loader) : List (Event Loader) :=
  match action with
  | .register name loader =>
      if provider.state? name = some .loaded then [] else [.stored name (.unloaded loader)]
  | .give name messages => [.stored name (.loaded messages)]
  | .request name run => (provider.request name run).2

/-- What happens during a list of actions. -/
def eventsOfAll : List (Action Loader) → LazyProvider Loader → List (Event Loader)
  | [], _ => []
  | first :: rest, provider => provider.events first ++ (provider.perform first).eventsOfAll rest

/-- The events of an action lead where the action leads. -/
theorem perform_eq_after (action : Action Loader) (provider : LazyProvider Loader) :
    provider.perform action = after (provider.events action) provider := by
  cases action with
  | register name loader =>
      rw [perform, withLoader_eq, events]
      by_cases loaded : provider.state? name = some .loaded
      · rw [if_pos loaded, if_pos loaded]
        rfl
      · rw [if_neg loaded, if_neg loaded]
        rfl
  | give name messages => rfl
  | request name run => rfl

theorem after_append (front back : List (Event Loader)) (provider : LazyProvider Loader) :
    after (front ++ back) provider = after back (after front provider) :=
  List.foldl_append

theorem performAll_eq_after (actions : List (Action Loader)) (provider : LazyProvider Loader) :
    provider.performAll actions = after (provider.eventsOfAll actions) provider := by
  induction actions generalizing provider with
  | nil => rfl
  | cons first rest ih =>
      rw [eventsOfAll, after_append, ← perform_eq_after, ← ih]
      rfl

/-! ## What may happen -/

/-- An event that may happen to a provider: messages are not given up, no loader runs for a
language that has its messages, and only such a language becomes current. -/
def Event.Permitted (provider : LazyProvider Loader) : Event Loader → Prop
  | .stored name slot => provider.state? name = some .loaded → slot.state = .loaded
  | .invoked name _ _ => provider.state? name ≠ some .loaded
  | .selected name => provider.state? name = some .loaded

/-- Every event of a list may happen after those before it. -/
def Orderly : List (Event Loader) → LazyProvider Loader → Prop
  | [], _ => True
  | first :: rest, provider => first.Permitted provider ∧ Orderly rest (first.apply provider)

theorem orderly_append {front back : List (Event Loader)} {provider : LazyProvider Loader} :
    Orderly (front ++ back) provider ↔ Orderly front provider ∧ Orderly back (after front provider) := by
  induction front generalizing provider with
  | nil => exact (and_iff_right trivial).symm
  | cons first rest ih =>
      rw [List.cons_append, Orderly, Orderly, ih, and_assoc]
      rfl

/-- A permitted event leaves loaded languages loaded. -/
theorem Event.Permitted.loaded {event : Event Loader} {provider : LazyProvider Loader} {name : String}
    (permitted : event.Permitted provider) (loaded : provider.state? name = some .loaded) :
    (event.apply provider).state? name = some .loaded := by
  cases event with
  | stored other slot =>
      rw [apply, state?_store]
      split
      · rename_i same
        subst same
        rw [permitted loaded]
      · exact loaded
  | invoked other loader outcome => exact loaded
  | selected other => exact loaded

/-- A permitted event leaves the current language loaded, also when it makes another one
current. -/
theorem Event.Permitted.current_loaded {event : Event Loader} {provider : LazyProvider Loader}
    (permitted : event.Permitted provider)
    (loaded : provider.state? provider.current = some .loaded) :
    (event.apply provider).state? (event.apply provider).current = some .loaded := by
  cases event with
  | stored other slot => exact permitted.loaded loaded
  | invoked other loader outcome => exact loaded
  | selected other => exact permitted

theorem Orderly.loaded {events : List (Event Loader)} {provider : LazyProvider Loader} {name : String}
    (orderly : Orderly events provider) (loaded : provider.state? name = some .loaded) :
    (after events provider).state? name = some .loaded := by
  induction events generalizing provider with
  | nil => exact loaded
  | cons first rest ih => exact ih orderly.2 (orderly.1.loaded loaded)

theorem Orderly.current_loaded {events : List (Event Loader)} {provider : LazyProvider Loader}
    (orderly : Orderly events provider)
    (loaded : provider.state? provider.current = some .loaded) :
    (after events provider).state? (after events provider).current = some .loaded := by
  induction events generalizing provider with
  | nil => exact loaded
  | cons first rest ih => exact ih orderly.2 (orderly.1.current_loaded loaded)

/-- What happens from the moment at which a loader starts. -/
theorem orderly_load (name : String) (loader : Loader) (outcome : LoadOutcome)
    {provider : LazyProvider Loader} (started : provider.state? name = some .loading) :
    Orderly (.invoked name loader outcome :: (loadEnd name loader outcome).2) provider := by
  have notLoaded : provider.state? name ≠ some .loaded := by
    rw [started]
    exact fun same => LoadState.noConfusion (Option.some.inj same)
  refine ⟨notLoaded, ?_⟩
  cases outcome with
  | loaded messages => exact ⟨fun _ => rfl, state?_store_self, trivial⟩
  | failed cause => exact ⟨fun loaded => absurd loaded notLoaded, trivial⟩
  | dropped => trivial

/-- Whatever is done to a provider in whatever state, only what may happen does happen. -/
theorem orderly_events (action : Action Loader) (provider : LazyProvider Loader) :
    Orderly (provider.events action) provider := by
  cases action with
  | register name loader =>
      rw [events]
      split
      · trivial
      · rename_i notLoaded
        exact ⟨fun loaded => absurd loaded notLoaded, trivial⟩
  | give name messages => exact ⟨fun _ => rfl, trivial⟩
  | request name run =>
      rw [events]
      rcases provider.request_cases name run with
        ⟨_, outcome⟩ | ⟨messages, present, outcome⟩ | ⟨loader, waiting, outcome⟩
      · rw [outcome]
        trivial
      · rw [outcome]
        exact ⟨state?_eq_loaded_iff.mpr ⟨messages, present⟩, trivial⟩
      · rw [outcome]
        refine ⟨fun loaded => absurd loaded (state?_ne_loaded_of_loader? waiting), ?_⟩
        exact orderly_load name loader (run loader) state?_store_self

theorem orderly_eventsOfAll (actions : List (Action Loader)) (provider : LazyProvider Loader) :
    Orderly (provider.eventsOfAll actions) provider := by
  induction actions generalizing provider with
  | nil => trivial
  | cons first rest ih =>
      refine orderly_append.mpr ⟨orderly_events first provider, ?_⟩
      rw [← perform_eq_after]
      exact ih (provider.perform first)

/-! ## Loads that succeed -/

/-- Whether an event is a load of a language that succeeds. -/
def Event.isArrival (name : String) : Event Loader → Bool
  | .invoked other _ (.loaded _) => other = name
  | _ => false

/-- How many loads of a language can still succeed. -/
def pending (name : String) (provider : LazyProvider Loader) : Nat :=
  if provider.state? name = some .loaded then 0 else 1

theorem pending_le {name : String} {provider next : LazyProvider Loader}
    (kept : provider.state? name = some .loaded → next.state? name = some .loaded) :
    next.pending name ≤ provider.pending name := by
  rw [pending, pending]
  by_cases loaded : provider.state? name = some .loaded
  · rw [if_pos loaded, if_pos (kept loaded)]
  · rw [if_neg loaded]
    split
    · exact Nat.zero_le 1
    · exact Nat.le_refl 1

/-- A load that succeeds is one that could still succeed. -/
theorem arrivals_perform_le (name : String) (action : Action Loader) (provider : LazyProvider Loader) :
    (provider.events action).countP (Event.isArrival name) + (provider.perform action).pending name ≤
      provider.pending name := by
  have kept : (provider.perform action).pending name ≤ provider.pending name := by
    refine pending_le fun loaded => ?_
    rw [perform_eq_after]
    exact (orderly_events action provider).loaded loaded
  have without (quiet : (provider.events action).countP (Event.isArrival name) = 0) :
      (provider.events action).countP (Event.isArrival name) +
        (provider.perform action).pending name ≤ provider.pending name := by
    rwa [quiet, Nat.zero_add]
  cases action with
  | register other loader =>
      apply without
      rw [events]
      split
      · rfl
      · rfl
  | give other messages => exact without rfl
  | request other run =>
      rw [events] at without ⊢
      rcases provider.request_cases other run with
        ⟨_, outcome⟩ | ⟨_, _, outcome⟩ | ⟨loader, waiting, outcome⟩
      · exact without (by rw [outcome]; rfl)
      · exact without (by rw [outcome]; rfl)
      · cases ended : run loader with
        | failed cause => exact without (by rw [outcome, ended]; rfl)
        | dropped => exact without (by rw [outcome, ended]; rfl)
        | loaded messages =>
            by_cases same : other = name
            · subst same
              have before : provider.pending other = 1 :=
                if_neg (state?_ne_loaded_of_loader? waiting)
              have behind : (provider.perform (.request other run)).pending other = 0 := by
                rw [perform, setLanguage, outcome, ended]
                exact if_pos state?_store_self
              rw [outcome, ended, before, behind]
              simp [loadEnd, Event.isArrival]
            · apply without
              rw [outcome, ended]
              simp [loadEnd, Event.isArrival, same]

theorem arrivals_performAll_le
    (name : String) (actions : List (Action Loader)) (provider : LazyProvider Loader) :
    (provider.eventsOfAll actions).countP (Event.isArrival name) +
      (provider.performAll actions).pending name ≤ provider.pending name := by
  induction actions generalizing provider with
  | nil => exact Nat.le_of_eq (Nat.zero_add _)
  | cons first rest ih =>
      have here := arrivals_perform_le name first provider
      have later := ih (provider.perform first)
      rw [eventsOfAll, List.countP_append]
      change _ + _ + ((provider.perform first).performAll rest).pending name ≤ _
      omega

/-! ## Whole runs -/

/-- What holds between two events of a run, of the provider at that moment and of the events
that are still to come. -/
structure SafeMoment (provider : LazyProvider Loader) (coming : List (Event Loader)) : Prop where
  /-- The messages of the current language can be read. -/
  current_loaded : provider.messages?.isSome
  /-- A language that is loaded stays so, however far the run goes on. -/
  stays_loaded : ∀ name, provider.state? name = some .loaded → ∀ soon, soon <+: coming →
    (after soon provider).state? name = some .loaded
  /-- No loader of a loaded language runs. -/
  loads_unloaded : ∀ name loader outcome, coming.head? = some (.invoked name loader outcome) →
    provider.state? name ≠ some .loaded
  /-- A language that becomes current has its messages in its slot already. -/
  selects_loaded : ∀ name, coming.head? = some (.selected name) →
    provider.state? name = some .loaded

theorem Orderly.safeMoment {coming : List (Event Loader)} {provider : LazyProvider Loader}
    (orderly : Orderly coming provider)
    (loaded : provider.state? provider.current = some .loaded) : SafeMoment provider coming where
  current_loaded := isSome_messages?_iff.mpr loaded
  stays_loaded := by
    rintro name loaded soon ⟨later, rfl⟩
    exact (orderly_append.mp orderly).1.loaded loaded
  loads_unloaded := by
    intro name loader outcome next
    obtain ⟨rest, rfl⟩ := List.head?_eq_some_iff.mp next
    exact orderly.1
  selects_loaded := by
    intro name next
    obtain ⟨rest, rfl⟩ := List.head?_eq_some_iff.mp next
    exact orderly.1

/-- For a provider of one language and any actions on it: the events of the run lead where the
actions lead, every moment of the run is safe, at most one load of each language succeeds, and
a request asks no loaders but those whose loads are among the events. -/
theorem run_safe (default : String) (messages : Tree) (actions : List (Action Loader)) :
    let start : LazyProvider Loader := ofDefault default messages
    start.performAll actions = after (start.eventsOfAll actions) start ∧
      (∀ past coming, start.eventsOfAll actions = past ++ coming →
        SafeMoment (after past start) coming) ∧
      (∀ name, (start.eventsOfAll actions).countP (Event.isArrival name) ≤ 1) ∧
      ∀ name run other,
        (∀ loader outcome,
          .invoked name loader outcome ∈ (start.performAll actions).events (.request name run) →
            other loader = outcome) →
        (start.performAll actions).setLanguage name other =
          (start.performAll actions).setLanguage name run := by
  intro start
  have loaded : start.state? start.current = some .loaded :=
    state?_eq_loaded_iff.mpr ⟨messages, List.lookup_cons_self⟩
  have orderly := orderly_eventsOfAll actions start
  refine ⟨performAll_eq_after actions start, fun past coming split => ?_, fun name => ?_,
    fun name run other same => ?_⟩
  · rw [split, orderly_append] at orderly
    exact orderly.2.safeMoment (orderly.1.current_loaded loaded)
  · have bounded := arrivals_performAll_le name actions start
    have atMost : start.pending name ≤ 1 := by
      rw [pending]
      split
      · exact Nat.zero_le 1
      · exact Nat.le_refl 1
    omega
  · rw [setLanguage, setLanguage, request_of_same_loads same]

/-- A load that is given up and one that succeeds, after which the loader that is registered
late is not run. -/
example :
    let start : LazyProvider String := ofDefault "en" {}
    start.eventsOfAll [.register "zh" "zh.json", .request "zh" fun _ => .dropped,
        .request "zh" fun _ => .loaded {}, .register "zh" "late.json",
        .request "zh" fun _ => .dropped] =
      [.stored "zh" (.unloaded "zh.json"),
        .stored "zh" (.loading "zh.json"), .invoked "zh" "zh.json" .dropped,
        .stored "zh" (.loading "zh.json"), .invoked "zh" "zh.json" (.loaded {}),
        .stored "zh" (.loaded {}), .selected "zh",
        .selected "zh"] := by
  rfl

end Phrasebook.LazyProvider
