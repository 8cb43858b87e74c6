import Phrasebook.Proofs.Lookup.LazyProvider
import Phrasebook.Proofs.Lookup.Provider

/-!
# A lazy provider stands in for an eager one

The same languages can be held in two ways: with all messages from the start, or with those
of a default language and a loader for each other one. Requests go to the lazy provider, and
those that succeed are repeated on the eager one. The two then always have the same current
language and the same messages in it. The relation that the requests keep is one of slots: a
slot has the messages of its language or a loader registered for it, so that a load that
fails or is given up stays within the relation.
-/

namespace Phrasebook.LazyProvider

variable {Loader : Type}

/-- A request for a language, and how a load ends during it. -/
structure Request (Loader : Type) where
  name : String
  run : Loader → LoadOutcome

/-- A provider of a default language and of others that have to be loaded. -/
def ofLoaders (default : Named Tree) (loaders : List (Named Loader)) : LazyProvider Loader :=
  loaders.foldl (fun provider named => provider.withLoader named.name named.value)
    (ofDefault default.name default.value)

/-- Makes a request to a lazy provider and repeats it on an eager one if it succeeded. -/
def follow (request : Request Loader) (lazy : LazyProvider Loader) (eager : Provider) :
    Except Failure (LazyProvider Loader × Provider) :=
  let (result, next) := lazy.setLanguage request.name request.run
  if result = .switched then (eager.setLanguage request.name).map fun moved => (next, moved)
  else .ok (next, eager)

/-- Makes requests in turn. -/
def followAll :
    List (Request Loader) → LazyProvider Loader → Provider →
      Except Failure (LazyProvider Loader × Provider)
  | [], lazy, eager => .ok (lazy, eager)
  | first :: rest, lazy, eager =>
      match follow first lazy eager with
      | .error failure => .error failure
      | .ok (next, moved) => followAll rest next moved

/-- A load that succeeds during a request gives the messages of the language. -/
def Request.Delivers (loaders : List (Named Loader)) (resources : List (Named Tree))
    (request : Request Loader) : Prop :=
  ∀ loader, ⟨request.name, loader⟩ ∈ loaders → ∀ messages,
    request.run loader = .loaded messages → ⟨request.name, messages⟩ ∈ resources

/-! ## The start -/

/-- Loaders of new languages get slots at the end. -/
theorem slots_foldl_withLoader
    (loaders : List (Named Loader)) (provider : LazyProvider Loader)
    (fresh : (Entries.keys provider.slots ++ loaders.map Named.name).Nodup) :
    (loaders.foldl (fun reached named => reached.withLoader named.name named.value) provider).slots =
      provider.slots ++ loaders.map fun named => (named.name, .unloaded named.value) := by
  induction loaders generalizing provider with
  | nil => exact (List.append_nil provider.slots).symm
  | cons first rest ih =>
      have new : first.name ∉ Entries.keys provider.slots := fun known =>
        (List.nodup_append.mp fresh).2.2 first.name known first.name List.mem_cons_self rfl
      have registered : (provider.withLoader first.name first.value).slots =
          provider.slots ++ [(first.name, .unloaded first.value)] := by
        rw [withLoader, Entries.lookup_eq_none.mpr new]
        exact Entries.put_of_not_mem new _
      rw [List.map_cons, List.append_cons] at fresh
      rw [List.foldl_cons, ih, registered, List.map_cons, List.append_assoc, List.singleton_append]
      rwa [registered, Entries.keys_append]

theorem slots_ofLoaders {default : Named Tree} {loaders : List (Named Loader)}
    (nodup : (default.name :: loaders.map Named.name).Nodup) :
    (ofLoaders default loaders).slots =
      (default.name, .loaded default.value) ::
        loaders.map fun named => (named.name, .unloaded named.value) :=
  slots_foldl_withLoader loaders (ofDefault default.name default.value) nodup

/-- Registering loaders does not move the current language. -/
theorem current_ofLoaders (default : Named Tree) (loaders : List (Named Loader)) :
    (ofLoaders default loaders).current = default.name := by
  suffices kept : ∀ provider : LazyProvider Loader, (loaders.foldl
      (fun reached named => reached.withLoader named.name named.value) provider).current =
        provider.current from
    kept (ofDefault default.name default.value)
  induction loaders with
  | nil => exact fun provider => rfl
  | cons first rest ih =>
      intro provider
      rw [List.foldl_cons, ih, withLoader_eq]
      split
      · rfl
      · rfl

/-! ## The relation -/

/-- What the slot of a language may have: nothing if the language is not one of those that
there are, and otherwise its messages or a loader registered for it. -/
inductive Stands (resources : List (Named Tree)) (loaders : List (Named Loader)) (name : String) :
    Option (Slot Loader) → Prop where
  | unknown (absent : name ∉ resources.map Named.name) : Stands resources loaders name none
  | loaded {messages : Tree} (listed : ⟨name, messages⟩ ∈ resources) :
      Stands resources loaders name (some (.loaded messages))
  | loading {loader : Loader} (registered : ⟨name, loader⟩ ∈ loaders)
      (known : name ∈ resources.map Named.name) :
      Stands resources loaders name (some (.loading loader))
  | unloaded {loader : Loader} (registered : ⟨name, loader⟩ ∈ loaders)
      (known : name ∈ resources.map Named.name) :
      Stands resources loaders name (some (.unloaded loader))

/-- A lazy and an eager provider of the same languages that cannot be told apart. -/
structure Simulates (resources : List (Named Tree)) (loaders : List (Named Loader))
    (lazy : LazyProvider Loader) (eager : Provider) : Prop where
  current : lazy.current = eager.current
  loaded : lazy.state? lazy.current = some .loaded
  slots : ∀ name, Stands resources loaders name (lazy.slots.lookup name)
  resources : ∀ {name messages},
    eager.resources.lookup name = some messages ↔ ⟨name, messages⟩ ∈ resources

variable {resources : List (Named Tree)} {loaders : List (Named Loader)}
  {lazy : LazyProvider Loader} {eager : Provider} {name : String}

/-- A loaded slot has the messages of the language. -/
theorem Simulates.listed {messages : Tree} (simulates : Simulates resources loaders lazy eager)
    (present : lazy.slots.lookup name = some (.loaded messages)) :
    ⟨name, messages⟩ ∈ resources := by
  have stands := simulates.slots name
  rw [present] at stands
  cases stands with
  | loaded listed => exact listed

/-- The loader that a request would run is registered for the language. -/
theorem Simulates.registered {loader : Loader} (simulates : Simulates resources loaders lazy eager)
    (waiting : lazy.loader? name = some loader) :
    ⟨name, loader⟩ ∈ loaders ∧ name ∈ resources.map Named.name := by
  have stands := simulates.slots name
  rcases loader?_eq_some_iff.mp waiting with present | present
  · rw [present] at stands
    cases stands with
    | loading registered known => exact ⟨registered, known⟩
  · rw [present] at stands
    cases stands with
    | unloaded registered known => exact ⟨registered, known⟩

theorem Simulates.messages (simulates : Simulates resources loaders lazy eager) :
    lazy.messages? = some eager.messages := by
  obtain ⟨messages, present⟩ := state?_eq_loaded_iff.mp simulates.loaded
  have held := simulates.resources.mpr (simulates.listed present)
  rw [simulates.current, eager.lookup_current] at held
  rw [messages?_eq_some_iff, present, Option.some.inj held]

theorem Simulates.unknown (simulates : Simulates resources loaders lazy eager)
    (absent : name ∉ resources.map Named.name) (run : Loader → LoadOutcome) :
    lazy.setLanguage name run = (.failed (.unknownLanguage name), lazy) ∧
      eager.setLanguage name = .error (.unknownLanguage name) := by
  constructor
  · rcases lazy.request_cases name run with
      ⟨_, outcome⟩ | ⟨messages, present, _⟩ | ⟨loader, waiting, _⟩
    · rw [setLanguage, outcome]
      rfl
    · exact absurd (List.mem_map_of_mem (simulates.listed present)) absent
    · exact absurd (simulates.registered waiting).2 absent
  · rcases eager.setLanguage_cases name with ⟨known, _⟩ | ⟨_, outcome⟩
    · obtain ⟨messages, held⟩ := Option.isSome_iff_exists.mp known
      exact absurd (List.mem_map_of_mem (simulates.resources.mp held)) absent
    · exact outcome

/-- Something else may be put into a slot if it is right there, and if a language that has its
messages keeps them. -/
theorem Simulates.store {slot : Slot Loader} (simulates : Simulates resources loaders lazy eager)
    (stands : Stands resources loaders name (some slot))
    (kept : lazy.state? name = some .loaded → slot.state = .loaded) :
    Simulates resources loaders (lazy.store name slot) eager where
  current := simulates.current
  loaded := by
    rw [current_store, state?_store]
    split
    · rename_i same
      rw [kept (same ▸ simulates.loaded)]
    · exact simulates.loaded
  slots := by
    intro other
    rw [lookup_store]
    split
    · rename_i same
      rwa [same]
    · exact simulates.slots other
  resources := simulates.resources

/-- A loaded language can become the current one of both. -/
theorem Simulates.select (simulates : Simulates resources loaders lazy eager)
    (loaded : lazy.state? name = some .loaded) :
    ∃ moved, eager.setLanguage name = .ok moved ∧
      Simulates resources loaders (lazy.select name) moved := by
  obtain ⟨messages, present⟩ := state?_eq_loaded_iff.mp loaded
  have held := simulates.resources.mpr (simulates.listed present)
  rcases eager.setLanguage_cases name with ⟨_, moved, outcome, current, same⟩ | ⟨absent, _⟩
  · refine ⟨moved, outcome, current.symm, loaded, simulates.slots, ?_⟩
    rw [same]
    exact simulates.resources
  · rw [held] at absent
    cases absent

/-- A loader that starts. -/
theorem Simulates.started {loader : Loader} (simulates : Simulates resources loaders lazy eager)
    (waiting : lazy.loader? name = some loader) :
    Simulates resources loaders (lazy.store name (.loading loader)) eager := by
  obtain ⟨registered, known⟩ := simulates.registered waiting
  exact simulates.store (.loading registered known) fun loaded =>
    absurd loaded (state?_ne_loaded_of_loader? waiting)

/-- The providers that are built from the same languages. -/
theorem Simulates.start {default : Named Tree} {start : Provider}
    (nodup : (resources.map Named.name).Nodup) (listed : default ∈ resources)
    (registered : (default.name :: loaders.map Named.name).Perm (resources.map Named.name))
    (built : Provider.ofResources resources default.name = .ok start) :
    Simulates resources loaders (ofLoaders default loaders) start where
  current := by rw [current_ofLoaders, Provider.current_ofResources built]
  loaded := by
    rw [current_ofLoaders, state?_eq_loaded_iff, slots_ofLoaders (registered.nodup_iff.mpr nodup)]
    exact ⟨default.value, List.lookup_cons_self⟩
  slots := by
    intro name
    have slots := slots_ofLoaders (registered.nodup_iff.mpr nodup)
    cases found : (ofLoaders default loaders).slots.lookup name with
    | none =>
        rw [slots, Entries.lookup_eq_none, Entries.keys_cons, Entries.keys_map,
          registered.mem_iff] at found
        exact .unknown found
    | some slot =>
        rw [slots] at found
        rcases List.mem_cons.mp (Entries.mem_of_lookup found) with same | later
        · cases same
          exact .loaded listed
        · obtain ⟨named, member, same⟩ := List.mem_map.mp later
          cases same
          exact .unloaded member
            (registered.mem_iff.mp (List.mem_cons_of_mem _ (List.mem_map_of_mem member)))
  resources := by
    rw [Provider.resources_ofResources built]
    exact Named.lookup_ofPairs nodup

/-! ## Requests -/

/-- The eager provider can follow a request that succeeded. -/
theorem Simulates.request_switched {request : Request Loader}
    (simulates : Simulates resources loaders lazy eager)
    (delivers : request.Delivers loaders resources)
    (switched : (lazy.setLanguage request.name request.run).1 = .switched) :
    ∃ moved, eager.setLanguage request.name = .ok moved ∧
      Simulates resources loaders (lazy.setLanguage request.name request.run).2 moved := by
  rw [setLanguage] at switched ⊢
  rcases lazy.request_cases request.name request.run with
    ⟨_, outcome⟩ | ⟨messages, present, outcome⟩ | ⟨loader, waiting, outcome⟩
  · rw [outcome] at switched
    cases switched
  · rw [outcome]
    exact simulates.select (state?_eq_loaded_iff.mpr ⟨messages, present⟩)
  · rw [outcome] at switched ⊢
    cases ended : request.run loader with
    | failed cause =>
        rw [ended] at switched
        cases switched
    | dropped =>
        rw [ended] at switched
        cases switched
    | loaded messages =>
        have listed := delivers loader (simulates.registered waiting).1 messages ended
        have stored := (simulates.started waiting).store (.loaded listed) fun _ => rfl
        exact stored.select state?_store_self

/-- A language that there is can be switched to, unless a load fails or is given up. -/
theorem Simulates.switched {run : Loader → LoadOutcome}
    (simulates : Simulates resources loaders lazy eager) (known : name ∈ resources.map Named.name)
    (loads : ∀ loader, ⟨name, loader⟩ ∈ loaders → ∃ messages, run loader = .loaded messages) :
    (lazy.setLanguage name run).1 = .switched := by
  rw [setLanguage]
  rcases lazy.request_cases name run with
    ⟨absent, _⟩ | ⟨messages, _, outcome⟩ | ⟨loader, waiting, outcome⟩
  · have stands := simulates.slots name
    rw [absent] at stands
    cases stands with
    | unknown notListed => exact absurd known notListed
  · rw [outcome]
  · obtain ⟨messages, ended⟩ := loads loader (simulates.registered waiting).1
    rw [outcome, ended]
    rfl

/-- The eager provider does not have to follow a request that fails or is given up. -/
theorem Simulates.request_unswitched {run : Loader → LoadOutcome}
    (simulates : Simulates resources loaders lazy eager)
    (unswitched : (lazy.setLanguage name run).1 ≠ .switched) :
    Simulates resources loaders (lazy.setLanguage name run).2 eager := by
  rw [setLanguage] at unswitched ⊢
  rcases lazy.request_cases name run with
    ⟨_, outcome⟩ | ⟨_, _, outcome⟩ | ⟨loader, waiting, outcome⟩
  · rw [outcome]
    exact simulates
  · rw [outcome] at unswitched
    exact absurd rfl unswitched
  · rw [outcome] at unswitched ⊢
    -- A load that fails puts its loader back, one that is given up leaves the slot marked.
    have started := simulates.started waiting
    cases ended : run loader with
    | loaded messages =>
        rw [ended] at unswitched
        exact absurd rfl unswitched
    | failed cause =>
        obtain ⟨registered, known⟩ := simulates.registered waiting
        refine started.store (.unloaded registered known) fun loaded => ?_
        rw [state?_store_self] at loaded
        cases loaded
    | dropped => exact started

theorem Simulates.follow {request : Request Loader}
    (simulates : Simulates resources loaders lazy eager)
    (delivers : request.Delivers loaders resources) :
    ∃ next moved, LazyProvider.follow request lazy eager = .ok (next, moved) ∧
      Simulates resources loaders next moved := by
  rw [LazyProvider.follow]
  by_cases switched : (lazy.setLanguage request.name request.run).1 = .switched
  · obtain ⟨moved, outcome, reached⟩ := simulates.request_switched delivers switched
    refine ⟨_, moved, (if_pos switched).trans ?_, reached⟩
    rw [outcome]
    rfl
  · exact ⟨_, eager, if_neg switched, simulates.request_unswitched switched⟩

theorem Simulates.followAll {requests : List (Request Loader)}
    (simulates : Simulates resources loaders lazy eager)
    (delivers : ∀ request ∈ requests, request.Delivers loaders resources) :
    ∃ next moved, LazyProvider.followAll requests lazy eager = .ok (next, moved) ∧
      Simulates resources loaders next moved := by
  induction requests generalizing lazy eager with
  | nil => exact ⟨lazy, eager, rfl, simulates⟩
  | cons first rest ih =>
      rw [List.forall_mem_cons] at delivers
      obtain ⟨next, moved, outcome, reached⟩ := simulates.follow delivers.1
      rw [LazyProvider.followAll, outcome]
      exact ih reached delivers.2

/-- A provider with all languages from the start, and one of a default language with loaders
of all others: after any requests, each of which is repeated on the eager provider if it
succeeded on the lazy one, both are in the same language and give the same messages. Then an
unknown language is refused by both and changes neither, a request that fails or is given up
changes neither the language nor the messages, and one for a known language does succeed if
its loader does. -/
theorem refines_eager
    {default : Named Tree} {requests : List (Request Loader)}
    (nodup : (resources.map Named.name).Nodup) (listed : default ∈ resources)
    (registered : (default.name :: loaders.map Named.name).Perm (resources.map Named.name))
    (delivers : ∀ request ∈ requests, request.Delivers loaders resources) :
    ∃ start, Provider.ofResources resources default.name = .ok start ∧
    ∃ lazy eager, followAll requests (ofLoaders default loaders) start = .ok (lazy, eager) ∧
      lazy.current = eager.current ∧ lazy.messages? = some eager.messages ∧
      (∀ name run, name ∉ resources.map Named.name →
        lazy.setLanguage name run = (.failed (.unknownLanguage name), lazy) ∧
          eager.setLanguage name = .error (.unknownLanguage name)) ∧
      (∀ name run, (lazy.setLanguage name run).1 ≠ .switched →
        (lazy.setLanguage name run).2.current = lazy.current ∧
          (lazy.setLanguage name run).2.messages? = lazy.messages?) ∧
      ∀ name run, name ∈ resources.map Named.name →
        (∀ loader, ⟨name, loader⟩ ∈ loaders → ∃ messages, run loader = .loaded messages) →
        (lazy.setLanguage name run).1 = .switched := by
  obtain ⟨start, built⟩ := Provider.exists_ofResources nodup listed
  obtain ⟨lazy, eager, outcome, reached⟩ :=
    (Simulates.start nodup listed registered built).followAll delivers
  refine ⟨start, built, lazy, eager, outcome, reached.current, reached.messages,
    fun name run absent => reached.unknown absent run, fun name run unswitched => ?_,
    fun name run known loads => reached.switched known loads⟩
  have next := reached.request_unswitched unswitched
  exact ⟨next.current.trans reached.current.symm, next.messages.trans reached.messages.symm⟩

/-! ## A run -/

/-- A tree of one message. -/
def consent (text : String) : Tree where
  entries := [("ok", .text text)]
  distinct := of_decide_eq_true rfl

/-- One message in three languages. -/
def consents : List (Named Tree) :=
  [⟨"en", consent "OK"⟩, ⟨"fr", consent "D'accord"⟩, ⟨"zh", consent "好"⟩]

/-- The files that the languages other than the first are loaded from. -/
def consentFiles : List (Named String) := [⟨"zh", "zh.json"⟩, ⟨"fr", "fr.json"⟩]

/-- A load that fails, one that is given up, a language that there is not, the first load
again, and one more that is given up. -/
def consentRequests : List (Request String) :=
  [⟨"zh", fun file => .failed (.raised file)⟩, ⟨"zh", fun _ => .dropped⟩,
    ⟨"de", fun file => .failed (.raised file)⟩, ⟨"zh", fun _ => .loaded (consent "好")⟩,
    ⟨"fr", fun _ => .dropped⟩]

/-- Of five requests for languages only one succeeds, and both providers are in its language. -/
theorem consents_refined :
    ∃ start lazy eager, Provider.ofResources consents "en" = .ok start ∧
      followAll consentRequests (ofLoaders ⟨"en", consent "OK"⟩ consentFiles) start =
        .ok (lazy, eager) ∧
      lazy.current = eager.current ∧ lazy.messages? = some eager.messages ∧
      eager.current = "zh" ∧ lazy.state? "fr" = some .loading := by
  have nodup : (consents.map Named.name).Nodup := by decide
  have registered : ("en" :: consentFiles.map Named.name).Perm (consents.map Named.name) := by
    decide
  have delivers : ∀ request ∈ consentRequests, request.Delivers consentFiles consents := by
    simp [consentRequests, Request.Delivers, consents]
  obtain ⟨start, built, lazy, eager, outcome, current, messages, _⟩ :=
    refines_eager nodup List.mem_cons_self registered delivers
  refine ⟨start, lazy, eager, built, outcome, current, messages, ?_⟩
  cases built
  cases outcome
  exact ⟨rfl, rfl⟩

end Phrasebook.LazyProvider
