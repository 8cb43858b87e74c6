import Phrasebook.Proofs.Lookup.LazyRun

/-!
# Requests that come to nothing

A request for a language can fail, and its load can be given up. Either way the provider is as it
was, but for one thing that no later run can make out: whether the load of the language counts as
started. So whatever is done next, a later request for the language comes to what it would have
come to without the first one.
-/

namespace Phrasebook

/-- A slot with a loader, whether a load was started or not. -/
def Slot.Awaits {Loader : Type} (loader : Loader) (slot : Slot Loader) : Prop :=
  slot = .loading loader ∨ slot = .unloaded loader

namespace LazyProvider

variable {Loader : Type} {name other : String} {loader : Loader} {slot : Slot Loader}
  {provider : LazyProvider Loader}

/-- The language that an action is about. -/
def Action.language : Action Loader → String
  | .register name _ => name
  | .give name _ => name
  | .request name _ => name

/-! ## Writing to slots -/

theorem store_store (first second : Slot Loader) :
    (provider.store name first).store name second = provider.store name second := by
  rw [store, store, store, Entries.put_put]

theorem store_comm (known : name ∈ provider.languages) (apart : other ≠ name)
    (first second : Slot Loader) :
    (provider.store name first).store other second =
      (provider.store other second).store name first := by
  rw [store, store, store, store, Entries.put_comm_of_mem known apart]

theorem store_of_lookup (present : provider.slots.lookup name = some slot) :
    provider.store name slot = provider := by
  rw [store, Entries.put_of_lookup present]

theorem lookup_store_of_ne (apart : other ≠ name) :
    (provider.store name slot).slots.lookup other = provider.slots.lookup other :=
  lookup_store.trans (if_neg apart)

theorem languages_store (known : name ∈ provider.languages) :
    (provider.store name slot).languages = provider.languages :=
  Entries.keys_put_of_mem known slot

theorem mem_languages_store (known : name ∈ provider.languages) :
    name ∈ (provider.store other slot).languages := by
  obtain ⟨there, present⟩ := Entries.exists_lookup_of_mem_keys known
  by_cases same : name = other
  · exact Entries.mem_keys_of_lookup (lookup_store.trans (if_pos same))
  · exact Entries.mem_keys_of_lookup ((lookup_store_of_ne same).trans present)

theorem loader?_store (awaits : slot.Awaits loader) :
    (provider.store name slot).loader? name = some loader := by
  rw [loader?_eq_some_iff, lookup_store, if_pos rfl, Option.some.injEq, Option.some.injEq]
  exact awaits

theorem exists_awaits (waiting : provider.loader? name = some loader) :
    ∃ slot, slot.Awaits loader ∧ provider.slots.lookup name = some slot := by
  rcases loader?_eq_some_iff.mp waiting with present | present
  · exact ⟨.loading loader, Or.inl rfl, present⟩
  · exact ⟨.unloaded loader, Or.inr rfl, present⟩

theorem known_of_loader? (waiting : provider.loader? name = some loader) :
    name ∈ provider.languages := by
  obtain ⟨slot, _, present⟩ := exists_awaits waiting
  exact Entries.mem_keys_of_lookup present

theorem state?_store_ne_loaded (awaits : slot.Awaits loader) :
    (provider.store name slot).state? name ≠ some .loaded :=
  state?_ne_loaded_of_loader? (loader?_store awaits)

theorem loader?_store_of_ne (apart : other ≠ name) :
    (provider.store name slot).loader? other = provider.loader? other := by
  rw [loader?, loader?, lookup_store_of_ne apart]

theorem state?_store_of_ne (apart : other ≠ name) :
    (provider.store name slot).state? other = provider.state? other :=
  state?_store.trans (if_neg apart)

/-! ## The outcomes of requests -/

theorem setLanguage_of_unknown (unknown : name ∉ provider.languages)
    (run : Loader → LoadOutcome) :
    provider.setLanguage name run = (.failed (.unknownLanguage name), provider) := by
  rw [setLanguage, request, Entries.lookup_eq_none.mpr unknown]
  rfl

theorem setLanguage_of_loaded {messages : Tree}
    (present : provider.slots.lookup name = some (.loaded messages))
    (run : Loader → LoadOutcome) :
    provider.setLanguage name run = (.switched, provider.select name) := by
  rw [setLanguage, request, loader?, present]
  rfl

/-- The failure of a request whose load failed. -/
def loadFailure (name : String) (cause : Failure) : Failure :=
  .during ("failed to load language '" ++ name ++ "'") cause

/-- What a load comes to is all that is left of a request: its start is written over. -/
theorem setLanguage_of_loader? (waiting : provider.loader? name = some loader)
    (run : Loader → LoadOutcome) :
    provider.setLanguage name run =
      match run loader with
      | .loaded messages => (.switched, (provider.store name (.loaded messages)).select name)
      | .failed cause => (.failed (loadFailure name cause), provider.store name (.unloaded loader))
      | .dropped => (.dropped, provider.store name (.loading loader)) := by
  have outcome : provider.request name run = ((loadEnd name loader (run loader)).1,
      .stored name (.loading loader) :: .invoked name loader (run loader) ::
        (loadEnd name loader (run loader)).2) := by
    obtain ⟨slot, _, present⟩ := exists_awaits waiting
    rw [request, waiting, present]
  rw [setLanguage, outcome]
  cases run loader with
  | loaded messages =>
      change (SwitchResult.switched,
        ((provider.store name (.loading loader)).store name (.loaded messages)).select name) = _
      rw [store_store]
  | failed cause =>
      change (SwitchResult.failed (loadFailure name cause),
        (provider.store name (.loading loader)).store name (.unloaded loader)) = _
      rw [store_store]
  | dropped => rfl

/-- A request is for an unknown language, for a loaded one, or for one whose loader runs. -/
theorem language_cases (name : String) (provider : LazyProvider Loader) :
    name ∉ provider.languages ∨
      (∃ messages, provider.slots.lookup name = some (.loaded messages)) ∨
      ∃ loader, provider.loader? name = some loader := by
  cases present : provider.slots.lookup name with
  | none => exact Or.inl (Entries.lookup_eq_none.mp present)
  | some slot =>
      cases slot with
      | loaded messages => exact Or.inr (Or.inl ⟨messages, rfl⟩)
      | loading loader =>
          exact Or.inr (Or.inr ⟨loader, loader?_eq_some_iff.mpr (Or.inl present)⟩)
      | unloaded loader =>
          exact Or.inr (Or.inr ⟨loader, loader?_eq_some_iff.mpr (Or.inr present)⟩)

/-! ## Actions on other languages -/

theorem mem_languages_perform (known : name ∈ provider.languages) (action : Action Loader) :
    name ∈ (provider.perform action).languages := by
  cases action with
  | register language loader =>
      rw [perform, withLoader_eq]
      split
      · exact known
      · exact mem_languages_store known
  | give language messages => exact mem_languages_store known
  | request language run =>
      rw [perform]
      rcases language_cases language provider with unknown | ⟨messages, present⟩ | ⟨loader, waiting⟩
      · rwa [setLanguage_of_unknown unknown]
      · rwa [setLanguage_of_loaded present]
      · rw [setLanguage_of_loader? waiting]
        cases run loader <;> exact mem_languages_store known

/-- An action on another language neither reads nor writes the slot of a language. -/
theorem perform_store {action : Action Loader} (known : name ∈ provider.languages)
    (apart : action.language ≠ name) (slot : Slot Loader) :
    (provider.store name slot).perform action = (provider.perform action).store name slot := by
  cases action with
  | register language loader =>
      change language ≠ name at apart
      rw [perform, perform, withLoader_eq, withLoader_eq, state?_store_of_ne apart]
      split
      · rfl
      · exact store_comm known apart slot _
  | give language messages => exact store_comm known apart slot _
  | request language run =>
      rw [perform, perform]
      rcases language_cases language provider with unknown | ⟨messages, present⟩ | ⟨loader, waiting⟩
      · have stillUnknown : language ∉ (provider.store name slot).languages := by
          rwa [languages_store known]
        rw [setLanguage_of_unknown unknown, setLanguage_of_unknown stillUnknown]
      · have there : (provider.store name slot).slots.lookup language = some (.loaded messages) :=
          (lookup_store_of_ne apart).trans present
        rw [setLanguage_of_loaded present, setLanguage_of_loaded there]
        rfl
      · have stillWaiting : (provider.store name slot).loader? language = some loader :=
          (loader?_store_of_ne apart).trans waiting
        rw [setLanguage_of_loader? waiting, setLanguage_of_loader? stillWaiting]
        cases run loader with
        | loaded messages => exact congrArg (select language) (store_comm known apart slot _)
        | failed cause => exact store_comm known apart slot _
        | dropped => exact store_comm known apart slot _

theorem performAll_store {actions : List (Action Loader)} (known : name ∈ provider.languages)
    (apart : ∀ action ∈ actions, action.language ≠ name) (slot : Slot Loader) :
    (provider.store name slot).performAll actions =
      (provider.performAll actions).store name slot := by
  induction actions generalizing provider with
  | nil => rfl
  | cons first rest ih =>
      change ((provider.store name slot).perform first).performAll rest =
        ((provider.perform first).performAll rest).store name slot
      rw [perform_store known (apart first List.mem_cons_self)]
      exact ih (mem_languages_perform known first)
        fun action member => apart action (List.mem_cons_of_mem _ member)

/-! ## Providers that cannot be told apart -/

/-- Two providers that differ at most in whether the load of a language was started. -/
inductive Alike (name : String) : LazyProvider Loader → LazyProvider Loader → Prop where
  | same (provider : LazyProvider Loader) : Alike name provider provider
  | waiting {provider : LazyProvider Loader} {loader : Loader} {slot other : Slot Loader}
      (known : name ∈ provider.languages) (here : slot.Awaits loader)
      (there : other.Awaits loader) :
      Alike name (provider.store name slot) (provider.store name other)

variable {one another : LazyProvider Loader}

/-- A request for the language comes to the same in both. -/
theorem Alike.setLanguage (alike : Alike name one another) (run : Loader → LoadOutcome) :
    one.setLanguage name run = another.setLanguage name run := by
  cases alike with
  | same => rfl
  | waiting known here there =>
      rw [setLanguage_of_loader? (loader?_store here), setLanguage_of_loader? (loader?_store there)]
      simp only [store_store]

/-- After any action the two differ in nothing else. -/
theorem Alike.perform (alike : Alike name one another) (action : Action Loader) :
    Alike name (one.perform action) (another.perform action) := by
  by_cases apart : action.language = name
  · -- an action on the language itself writes over the only difference
    suffices same : one.perform action = another.perform action from same ▸ .same _
    cases alike with
    | same => rfl
    | waiting known here there =>
        subst apart
        cases action with
        | register language late =>
            rw [perform, perform, withLoader_eq, withLoader_eq, Action.language,
              if_neg (state?_store_ne_loaded here), if_neg (state?_store_ne_loaded there)]
            exact (store_store _ _).trans (store_store _ _).symm
        | give language messages => exact (store_store _ _).trans (store_store _ _).symm
        | request language run =>
            exact congrArg Prod.snd (Alike.setLanguage (.waiting known here there) run)
  · cases alike with
    | same => exact .same _
    | waiting known here there =>
        rw [perform_store known apart, perform_store known apart]
        exact .waiting (mem_languages_perform known action) here there

theorem Alike.performAll (alike : Alike name one another) (actions : List (Action Loader)) :
    Alike name (one.performAll actions) (another.performAll actions) := by
  induction actions generalizing one another with
  | nil => exact alike
  | cons first rest ih => exact ih (alike.perform first)

/-- Writing either kind of waiting slot over a waiting slot leaves no difference. -/
theorem alike_store (waiting : provider.loader? name = some loader) (awaits : slot.Awaits loader) :
    Alike name provider (provider.store name slot) := by
  obtain ⟨there, thereAwaits, present⟩ := exists_awaits waiting
  have alike : Alike name (provider.store name there) (provider.store name slot) :=
    .waiting (known_of_loader? waiting) thereAwaits awaits
  rwa [store_of_lookup present] at alike

/-! ## Rolling back -/

/-- What a request that does not succeed leaves alone. -/
structure Untouched (name : String) (before after : LazyProvider Loader) : Prop where
  current : after.current = before.current
  languages : after.languages = before.languages
  others : ∀ other, other ≠ name → after.slots.lookup other = before.slots.lookup other

/-- The language is still to be had from its loader, as if it had never been requested. -/
structure CanRetry (name : String) (loader : Loader) (before after : LazyProvider Loader) :
    Prop where
  /-- Whatever is done in between, a later request comes to what it would have come to. -/
  same : ∀ actions again,
    (after.performAll actions).setLanguage name again =
      (before.performAll actions).setLanguage name again
  /-- It runs the loader, unless something else was done with the language in between. -/
  runs : ∀ actions again, (∀ action ∈ actions, action.language ≠ name) →
    .invoked name loader (again loader) ∈ ((after.performAll actions).request name again).2
  /-- When the load gives messages, the language becomes the current one with them. -/
  arrives : ∀ again messages, again loader = .loaded messages →
    after.setLanguage name again =
      (.switched, (before.store name (.loaded messages)).select name)

theorem untouched_store (known : name ∈ provider.languages) (slot : Slot Loader) :
    Untouched name provider (provider.store name slot) where
  current := rfl
  languages := languages_store known
  others := fun _ apart => lookup_store_of_ne apart

theorem canRetry_store (waiting : provider.loader? name = some loader)
    (awaits : slot.Awaits loader) : CanRetry name loader provider (provider.store name slot) where
  same := fun actions again =>
    (((alike_store waiting awaits).performAll actions).setLanguage again).symm
  runs := by
    intro actions again apart
    rw [performAll_store (known_of_loader? waiting) apart]
    rcases ((provider.performAll actions).store name slot).request_cases name again with
      ⟨unknown, _⟩ | ⟨messages, present, _⟩ | ⟨found, asked, outcome⟩
    · rw [lookup_store, if_pos rfl] at unknown
      cases unknown
    · exact absurd (state?_eq_loaded_iff.mpr ⟨messages, present⟩) (state?_store_ne_loaded awaits)
    · rw [loader?_store awaits] at asked
      cases asked
      rw [outcome]
      exact List.mem_cons_of_mem _ List.mem_cons_self
  arrives := by
    intro again messages arrived
    rw [setLanguage_of_loader? (loader?_store awaits), arrived]
    simp only [store_store]

/-- A request fails when its language is unknown or the load of its language fails. -/
theorem setLanguage_eq_failed_iff {run : Loader → LoadOutcome} {failure : Failure} :
    (provider.setLanguage name run).1 = .failed failure ↔
      (name ∉ provider.languages ∧ failure = .unknownLanguage name) ∨
        ∃ loader cause, provider.loader? name = some loader ∧ run loader = .failed cause ∧
          failure = loadFailure name cause := by
  rcases language_cases name provider with unknown | ⟨messages, present⟩ | ⟨loader, waiting⟩
  · have nowhere : ∀ loader, provider.loader? name ≠ some loader :=
      fun loader waiting => unknown (known_of_loader? waiting)
    rw [setLanguage_of_unknown unknown, or_iff_left fun ⟨loader, _, waiting, _⟩ =>
      nowhere loader waiting, and_iff_right unknown, SwitchResult.failed.injEq]
    exact eq_comm
  · have known := Entries.mem_keys_of_lookup present
    have loaded := state?_eq_loaded_iff.mpr ⟨messages, present⟩
    rw [setLanguage_of_loaded present]
    refine iff_of_false SwitchResult.noConfusion ?_
    rintro (⟨unknown, _⟩ | ⟨loader, _, waiting, _⟩)
    · exact unknown known
    · exact state?_ne_loaded_of_loader? waiting loaded
  · rw [setLanguage_of_loader? waiting, waiting,
      or_iff_right fun ⟨unknown, _⟩ => unknown (known_of_loader? waiting)]
    constructor
    · intro failed
      cases ended : run loader with
      | failed cause =>
          rw [ended] at failed
          cases failed
          exact ⟨loader, cause, rfl, ended, rfl⟩
      | _ =>
          rw [ended] at failed
          cases failed
    · rintro ⟨_, cause, ⟨⟩, ended, rfl⟩
      rw [ended]

/-- A request is given up when the load of its language is. -/
theorem setLanguage_eq_dropped_iff {run : Loader → LoadOutcome} :
    (provider.setLanguage name run).1 = .dropped ↔
      ∃ loader, provider.loader? name = some loader ∧ run loader = .dropped := by
  rcases language_cases name provider with unknown | ⟨messages, present⟩ | ⟨loader, waiting⟩
  · rw [setLanguage_of_unknown unknown]
    exact iff_of_false SwitchResult.noConfusion
      fun ⟨loader, waiting, _⟩ => unknown (known_of_loader? waiting)
  · have loaded := state?_eq_loaded_iff.mpr ⟨messages, present⟩
    rw [setLanguage_of_loaded present]
    exact iff_of_false SwitchResult.noConfusion
      fun ⟨loader, waiting, _⟩ => state?_ne_loaded_of_loader? waiting loaded
  · rw [setLanguage_of_loader? waiting, waiting]
    constructor
    · intro dropped
      cases ended : run loader with
      | dropped => exact ⟨loader, rfl, ended⟩
      | _ =>
          rw [ended] at dropped
          cases dropped
    · rintro ⟨_, ⟨⟩, ended⟩
      rw [ended]

theorem untouched_of_ne_switched {run : Loader → LoadOutcome}
    (unswitched : (provider.setLanguage name run).1 ≠ .switched) :
    Untouched name provider (provider.setLanguage name run).2 := by
  rcases language_cases name provider with unknown | ⟨messages, present⟩ | ⟨loader, waiting⟩
  · rw [setLanguage_of_unknown unknown]
    exact ⟨rfl, rfl, fun _ _ => rfl⟩
  · rw [setLanguage_of_loaded present] at unswitched
    exact absurd rfl unswitched
  · rw [setLanguage_of_loader? waiting] at unswitched ⊢
    cases ended : run loader with
    | loaded messages =>
        rw [ended] at unswitched
        exact absurd rfl unswitched
    | failed cause => exact untouched_store (known_of_loader? waiting) _
    | dropped => exact untouched_store (known_of_loader? waiting) _

/-- Whatever was done to a provider before: a request fails for an unknown language, and then changes
nothing; or because the load of its language fails, and then leaves the loader in the slot as one
that has not run. A load that is given up leaves the loader as one that was started. Nothing else
changes, and the language can be requested again as if it had not been requested before. -/
theorem request_rolled_back (provider : LazyProvider Loader) (name : String)
    (run : Loader → LoadOutcome) :
    let result := (provider.setLanguage name run).1
    let next := (provider.setLanguage name run).2
    (∀ failure, result = .failed failure ↔
      (name ∉ provider.languages ∧ failure = .unknownLanguage name) ∨
        ∃ loader cause, provider.loader? name = some loader ∧ run loader = .failed cause ∧
          failure = loadFailure name cause) ∧
    (result = .dropped ↔ ∃ loader, provider.loader? name = some loader ∧ run loader = .dropped) ∧
    (result ≠ .switched → Untouched name provider next) ∧
    (name ∉ provider.languages → next = provider) ∧
    ∀ loader, provider.loader? name = some loader →
      (∀ cause, run loader = .failed cause →
        next.slots.lookup name = some (.unloaded loader) ∧ CanRetry name loader provider next) ∧
      (run loader = .dropped →
        next.slots.lookup name = some (.loading loader) ∧ CanRetry name loader provider next) := by
  intro result next
  refine ⟨fun failure => setLanguage_eq_failed_iff, setLanguage_eq_dropped_iff,
    untouched_of_ne_switched, fun unknown => congrArg Prod.snd (setLanguage_of_unknown unknown run),
    fun loader waiting => ⟨fun cause failed => ?_, fun dropped => ?_⟩⟩
  · have stored : next = provider.store name (.unloaded loader) := by
      have outcome := setLanguage_of_loader? waiting run
      rw [failed] at outcome
      exact congrArg Prod.snd outcome
    rw [stored]
    exact ⟨lookup_store.trans (if_pos rfl), canRetry_store waiting (Or.inr rfl)⟩
  · have stored : next = provider.store name (.loading loader) := by
      have outcome := setLanguage_of_loader? waiting run
      rw [dropped] at outcome
      exact congrArg Prod.snd outcome
    rw [stored]
    exact ⟨lookup_store.trans (if_pos rfl), canRetry_store waiting (Or.inl rfl)⟩

/-- A load that was given up, is started again and fails: its loader waits in the slot, and gets the
messages when the language is requested once more, also after another one was given its own. -/
theorem request_rolled_back_twice :
    let start : LazyProvider String :=
      (ofDefault "en" {}).performAll [.register "zh" "zh.json", .request "zh" fun _ => .dropped]
    let next := (start.setLanguage "zh" fun _ => .failed (.raised "network down")).2
    start.loader? "zh" = some "zh.json" ∧
      next.slots.lookup "zh" = some (.unloaded "zh.json") ∧
      (next.performAll [.give "es" {}]).setLanguage "zh" (fun _ => .loaded {}) =
        (start.performAll [.give "es" {}]).setLanguage "zh" (fun _ => .loaded {}) := by
  intro start next
  have waiting : start.loader? "zh" = some "zh.json" := rfl
  obtain ⟨_, _, _, _, loads⟩ :=
    request_rolled_back start "zh" fun _ => .failed (.raised "network down")
  obtain ⟨unloaded, retry⟩ := (loads "zh.json" waiting).1 (.raised "network down") rfl
  exact ⟨waiting, unloaded, retry.same [.give "es" {}] fun _ => .loaded {}⟩

end LazyProvider

end Phrasebook
