import Phrasebook.Lookup.Message
import Phrasebook.Text.Displayed

/-!
# Switching between languages loaded on demand

A lazy provider has a slot for each language: its messages, or the loader that can get
them. A switch to a language without messages runs its loader first and moves the current
language only when the messages are there. A load may also be given up before it is done;
its slot then stays marked and can be loaded again. A request is a list of events, which are
applied to the provider one after the other.
-/

namespace Phrasebook

/-- What a provider has of a language. -/
inductive Slot (Loader : Type) where
  | loaded (messages : Tree)
  | loading (loader : Loader)
  | unloaded (loader : Loader)

inductive LoadState where
  | unloaded
  | loading
  | loaded
deriving DecidableEq, Repr

def Slot.state {Loader : Type} : Slot Loader → LoadState
  | .loaded _ => .loaded
  | .loading _ => .loading
  | .unloaded _ => .unloaded

/-- How a load ends: with messages, with a failure, or not at all. -/
inductive LoadOutcome where
  | loaded (messages : Tree)
  | failed (cause : Failure)
  | dropped

inductive SwitchResult where
  | switched
  | failed (failure : Failure)
  | dropped
deriving DecidableEq, Repr

/-- The slots of all languages, and which language is current. -/
structure LazyProvider (Loader : Type) where
  slots : Entries (Slot Loader)
  current : String

namespace LazyProvider

variable {Loader : Type}

def ofDefault (name : String) (messages : Tree) : LazyProvider Loader where
  slots := [(name, .loaded messages)]
  current := name

def store (name : String) (slot : Slot Loader) (provider : LazyProvider Loader) :
    LazyProvider Loader :=
  { provider with slots := Entries.put name slot provider.slots }

def select (name : String) (provider : LazyProvider Loader) : LazyProvider Loader :=
  { provider with current := name }

/-- Registers a loader. A language that has its messages keeps them. -/
def withLoader (name : String) (loader : Loader) (provider : LazyProvider Loader) :
    LazyProvider Loader :=
  match provider.slots.lookup name with
  | some (.loaded _) => provider
  | _ => provider.store name (.unloaded loader)

/-- Gives a language its messages. -/
def withResource (name : String) (messages : Tree) (provider : LazyProvider Loader) :
    LazyProvider Loader :=
  provider.store name (.loaded messages)

def languages (provider : LazyProvider Loader) : List String := Entries.keys provider.slots

def state? (name : String) (provider : LazyProvider Loader) : Option LoadState :=
  (provider.slots.lookup name).map Slot.state

def loader? (name : String) (provider : LazyProvider Loader) : Option Loader :=
  match provider.slots.lookup name with
  | some (.loading loader) => some loader
  | some (.unloaded loader) => some loader
  | _ => none

/-- The messages of the current language, if they are there. -/
def messages? (provider : LazyProvider Loader) : Option Tree :=
  match provider.slots.lookup provider.current with
  | some (.loaded messages) => some messages
  | _ => none

inductive Event (Loader : Type) where
  | stored (name : String) (slot : Slot Loader)
  | invoked (name : String) (loader : Loader) (outcome : LoadOutcome)
  | selected (name : String)

/-- The provider after an event. Running a loader does not change it. -/
def Event.apply (provider : LazyProvider Loader) : Event Loader → LazyProvider Loader
  | .stored name slot => provider.store name slot
  | .invoked _ _ _ => provider
  | .selected name => provider.select name

def after (events : List (Event Loader)) (provider : LazyProvider Loader) : LazyProvider Loader :=
  events.foldl Event.apply provider

/-- What a request comes to when the load of its language has ended, and what happens then.
The messages are stored before the language becomes the current one. -/
def loadEnd (name : String) (loader : Loader) :
    LoadOutcome → SwitchResult × List (Event Loader)
  | .loaded messages => (.switched, [.stored name (.loaded messages), .selected name])
  | .failed cause =>
      (.failed (.during ("failed to load language '" ++ name ++ "'") cause),
        [.stored name (.unloaded loader)])
  | .dropped => (.dropped, [])

/-- What a request for a language comes to, and what happens until then. `run` says how the
load ends, if there has to be one. -/
def request (name : String) (run : Loader → LoadOutcome) (provider : LazyProvider Loader) :
    SwitchResult × List (Event Loader) :=
  match provider.slots.lookup name, provider.loader? name with
  | none, _ => (.failed (.unknownLanguage name), [])
  | some _, none => (.switched, [.selected name])
  | some _, some loader =>
      let outcome := run loader
      let (result, ending) := loadEnd name loader outcome
      (result, .stored name (.loading loader) :: .invoked name loader outcome :: ending)

def setLanguage (name : String) (run : Loader → LoadOutcome) (provider : LazyProvider Loader) :
    SwitchResult × LazyProvider Loader :=
  let (result, events) := provider.request name run
  (result, after events provider)

def stateName : LoadState → String
  | .unloaded => "Unloaded"
  | .loading => "Loading"
  | .loaded => "Loaded"

/-- A display of the provider: the states of all slots, and the current language. -/
def display (provider : LazyProvider Loader) : String :=
  let slots := provider.slots.map fun (name, slot) =>
    Text.Displayed.encode name ++ ": " ++ stateName slot.state
  "LazyProvider \x7b slots: \x7b" ++ ", ".intercalate slots ++ "\x7d, current: " ++
    Text.Displayed.encode provider.current ++ " \x7d"

end LazyProvider

end Phrasebook
