import Phrasebook.Lookup.LazyProvider
import Phrasebook.Proofs.Entries

/-!
# What operations on a lazy provider do

The states of the slots after a write, and the ways in which a request for a language can
end. All that is said of lazy providers elsewhere follows from these.
-/

namespace Phrasebook.LazyProvider

variable {Loader : Type} {name other : String} {slot : Slot Loader} {provider : LazyProvider Loader}

@[simp]
theorem current_store : (provider.store name slot).current = provider.current := rfl

theorem lookup_store :
    (provider.store name slot).slots.lookup other =
      if other = name then some slot else provider.slots.lookup other :=
  Entries.lookup_put name other slot provider.slots

theorem state?_store :
    (provider.store name slot).state? other =
      if other = name then some slot.state else provider.state? other := by
  rw [state?, lookup_store]
  split
  · rfl
  · rfl

@[simp]
theorem state?_store_self : (provider.store name slot).state? name = some slot.state := by
  rw [state?_store, if_pos rfl]

/-- A language is loaded when its slot holds messages. -/
theorem state?_eq_loaded_iff :
    provider.state? name = some .loaded ↔
      ∃ messages, provider.slots.lookup name = some (.loaded messages) := by
  rw [state?, Option.map_eq_some_iff]
  constructor
  · rintro ⟨slot, present, loaded⟩
    cases slot with
    | loaded messages => exact ⟨messages, present⟩
    | loading loader => cases loaded
    | unloaded loader => cases loaded
  · rintro ⟨messages, present⟩
    exact ⟨.loaded messages, present, rfl⟩

/-- A registration counts unless the language is loaded. -/
theorem withLoader_eq (name : String) (loader : Loader) (provider : LazyProvider Loader) :
    provider.withLoader name loader =
      if provider.state? name = some .loaded then provider
      else provider.store name (.unloaded loader) := by
  rw [withLoader]
  split
  · rename_i messages present
    rw [if_pos (state?_eq_loaded_iff.mpr ⟨messages, present⟩)]
  · rename_i notLoaded
    rw [if_neg]
    intro loaded
    obtain ⟨messages, present⟩ := state?_eq_loaded_iff.mp loaded
    exact notLoaded messages present

/-- There are current messages exactly when the current language is loaded. -/
theorem messages?_eq_some_iff {messages : Tree} :
    provider.messages? = some messages ↔
      provider.slots.lookup provider.current = some (.loaded messages) := by
  rw [messages?]
  split
  · rename_i found
    rw [found, Option.some.injEq, Option.some.injEq, Slot.loaded.injEq]
  · rename_i notLoaded
    exact iff_of_false nofun (notLoaded messages)

theorem isSome_messages?_iff :
    provider.messages?.isSome ↔ provider.state? provider.current = some .loaded := by
  rw [Option.isSome_iff_exists, state?_eq_loaded_iff]
  exact exists_congr fun messages => messages?_eq_some_iff

/-- A slot without messages has a loader, which a request would run. -/
theorem loader?_eq_some_iff {loader : Loader} :
    provider.loader? name = some loader ↔
      provider.slots.lookup name = some (.loading loader) ∨
        provider.slots.lookup name = some (.unloaded loader) := by
  rw [loader?]
  split
  · rename_i found
    rw [found]
    simp
  · rename_i found
    rw [found]
    simp
  · rename_i notLoading notUnloaded
    exact iff_of_false nofun (not_or_intro (notLoading loader) (notUnloaded loader))

theorem state?_ne_loaded_of_loader? {loader : Loader} (waiting : provider.loader? name = some loader) :
    provider.state? name ≠ some .loaded := by
  intro loaded
  obtain ⟨messages, present⟩ := state?_eq_loaded_iff.mp loaded
  rw [loader?_eq_some_iff, present] at waiting
  rcases waiting with impossible | impossible
  · cases impossible
  · cases impossible

/-- The three ways of a request: the language is unknown, it is loaded, or its loader runs. -/
theorem request_cases
    (name : String) (run : Loader → LoadOutcome) (provider : LazyProvider Loader) :
    (provider.slots.lookup name = none ∧
      provider.request name run = (.failed (.unknownLanguage name), [])) ∨
    (∃ messages, provider.slots.lookup name = some (.loaded messages) ∧
      provider.request name run = (.switched, [.selected name])) ∨
    (∃ loader, provider.loader? name = some loader ∧
      provider.request name run = ((loadEnd name loader (run loader)).1,
        .stored name (.loading loader) :: .invoked name loader (run loader) ::
          (loadEnd name loader (run loader)).2)) := by
  rw [request, loader?]
  cases found : provider.slots.lookup name with
  | none => exact Or.inl ⟨rfl, rfl⟩
  | some slot =>
      cases slot with
      | loaded messages => exact Or.inr (Or.inl ⟨messages, rfl, rfl⟩)
      | loading loader => exact Or.inr (Or.inr ⟨loader, rfl, rfl⟩)
      | unloaded loader => exact Or.inr (Or.inr ⟨loader, rfl, rfl⟩)

/-- A request asks no loader but in the loads among its events. -/
theorem request_of_same_loads
    {run other : Loader → LoadOutcome}
    (same : ∀ loader outcome, .invoked name loader outcome ∈ (provider.request name run).2 →
      other loader = outcome) :
    provider.request name other = provider.request name run := by
  rcases provider.request_cases name run with
    ⟨unknown, outcome⟩ | ⟨messages, present, outcome⟩ | ⟨loader, waiting, outcome⟩
  · rw [outcome, request, unknown]
  · rw [outcome, request, loader?, present]
  · have asked : other loader = run loader := by
      refine same loader (run loader) ?_
      rw [outcome]
      exact List.mem_cons_of_mem _ List.mem_cons_self
    rcases loader?_eq_some_iff.mp waiting with present | present
    · rw [outcome, request, waiting, present, ← asked]
    · rw [outcome, request, waiting, present, ← asked]

end Phrasebook.LazyProvider
