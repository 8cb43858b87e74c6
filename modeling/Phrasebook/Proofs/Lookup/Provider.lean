import Phrasebook.Lookup.Provider
import Phrasebook.Proofs.Analysis
import Phrasebook.Proofs.Lookup.Message

/-!
# Languages of a schema stand in for each other

A provider of a schema gives the tree of the language that is current, whatever switches
led to it. All trees of a schema agree, so a caller who looks up messages and renders them
cannot tell by success or failure which language is current.
-/

namespace Phrasebook

namespace Provider

/-- Requests languages in turn, each of which must be known. -/
def switchAll : List String → Provider → Except Failure Provider
  | [], provider => .ok provider
  | first :: rest, provider =>
      match provider.setLanguage first with
      | .error failure => .error failure
      | .ok next => next.switchAll rest

/-- A language can be made current exactly when there are messages in it. -/
theorem setLanguage_cases (name : String) (provider : Provider) :
    ((provider.resources.lookup name).isSome ∧
      ∃ next, provider.setLanguage name = .ok next ∧ next.current = name ∧
        next.resources = provider.resources) ∨
    (provider.resources.lookup name = none ∧
      provider.setLanguage name = .error (.unknownLanguage name)) := by
  by_cases known : (provider.resources.lookup name).isSome
  · exact Or.inl ⟨known, _, dif_pos known, rfl, rfl⟩
  · exact Or.inr ⟨Option.not_isSome_iff_eq_none.mp known, dif_neg known⟩

theorem resources_setLanguage {name : String} {provider next : Provider}
    (switched : provider.setLanguage name = .ok next) : next.resources = provider.resources := by
  rcases provider.setLanguage_cases name with ⟨_, other, outcome, _, resources⟩ | ⟨_, outcome⟩
  · rw [outcome] at switched
    cases switched
    exact resources
  · rw [outcome] at switched
    cases switched

theorem resources_switchAll {names : List String} {provider reached : Provider}
    (switched : provider.switchAll names = .ok reached) :
    reached.resources = provider.resources := by
  induction names generalizing provider with
  | nil =>
      cases switched
      rfl
  | cons name rest ih =>
      rw [switchAll] at switched
      cases step : provider.setLanguage name with
      | error failure =>
          rw [step] at switched
          cases switched
      | ok next =>
          rw [step] at switched
          exact (ih switched).trans (resources_setLanguage step)

/-- The current messages are those of the current language. -/
theorem lookup_current (provider : Provider) :
    provider.resources.lookup provider.current = some provider.messages :=
  (Option.some_get provider.current_mem).symm

theorem resources_ofResources {resources : List (Named Tree)} {default : String}
    {provider : Provider} (built : ofResources resources default = .ok provider) :
    provider.resources =
      Entries.ofPairs (resources.map fun resource => (resource.name, resource.value)) := by
  rw [ofResources] at built
  split at built
  · cases built
    rfl
  · cases built

theorem current_ofResources {resources : List (Named Tree)} {default : String}
    {provider : Provider} (built : ofResources resources default = .ok provider) :
    provider.current = default := by
  rw [ofResources] at built
  split at built
  · cases built
    rfl
  · cases built

theorem resources_ofSchema {schema : Schema} {default : Option String} {provider : Provider}
    (built : ofSchema schema default = .ok provider) :
    provider.resources =
      Entries.ofPairs (schema.languages.map fun language => (language.name, language.value)) := by
  rw [ofSchema] at built
  split at built
  · cases built
  · exact resources_ofResources built

end Provider

/-- Languages by name, if no two have the same one. -/
theorem Named.lookup_ofPairs {α : Type} {all : List (Named α)} (nodup : (all.map Named.name).Nodup)
    {name : String} {value : α} :
    List.lookup name (Entries.ofPairs (all.map fun named => (named.name, named.value))) =
        some value ↔ ⟨name, value⟩ ∈ all := by
  rw [← Entries.keys_map Named.name Named.value all] at nodup
  rw [Entries.ofPairs_of_nodup nodup, Entries.lookup_eq_some_iff nodup, List.mem_map]
  constructor
  · rintro ⟨named, member, same⟩
    cases same
    exact member
  · exact fun member => ⟨⟨name, value⟩, member, rfl⟩

/-- One of several languages can be the one to start with. -/
theorem Provider.exists_ofResources {resources : List (Named Tree)} {default : Named Tree}
    (nodup : (resources.map Named.name).Nodup) (listed : default ∈ resources) :
    ∃ provider, ofResources resources default.name = .ok provider := by
  have held := (Named.lookup_ofPairs nodup).mpr listed
  exact ⟨_, dif_pos (Option.isSome_of_mem held)⟩

/-- The trees that a caller can have for the languages of a schema: that of a language
itself, and the current one of a provider after any switches. -/
inductive Schema.Offers (schema : Schema) : String → Tree → Prop where
  | language {language : Named Tree} (listed : language ∈ schema.languages) :
      Offers schema language.name language.value
  | provider {default : Option String} {names : List String} {start reached : Provider}
      (built : Provider.ofSchema schema default = .ok start)
      (switched : start.switchAll names = .ok reached) :
      Offers schema reached.current reached.messages

/-- What is offered for a language is its tree. -/
theorem Schema.Offers.listed {schema : Schema} {name : String} {tree : Tree}
    (offered : schema.Offers name tree) (nodup : schema.languageNames.Nodup) :
    ⟨name, tree⟩ ∈ schema.languages := by
  cases offered with
  | language listed => exact listed
  | @provider default names start reached built switched =>
      have current := reached.lookup_current
      rw [Provider.resources_switchAll switched, Provider.resources_ofSchema built] at current
      exact (Named.lookup_ofPairs nodup).mp current

section

variable {documents : List (Named Document)}

/-- Any two languages of a schema agree. -/
theorem agree_of_languages {schema : Schema} (accepted : analyze documents = .ok schema)
    {one other : Named Tree}
    (first : one ∈ schema.languages) (second : other ∈ schema.languages) :
    Node.Agree one.value.toNode other.value.toNode := by
  have agree := agree_of_analyze accepted
  exact (agree one first).symm.trans (agree other second)

/-- Whichever two languages of a schema a caller has at hand, by themselves or as the current
languages of providers after any switches: the message at a path has the same kind and the
same parameters in both or fails to be found in the same way, and rendering it succeeds in
both, lacks an option in both, or fails like the lookup. -/
theorem languages_interchangeable {schema : Schema} (accepted : analyze documents = .ok schema)
    {one other : String} {oneTree otherTree : Tree}
    (first : schema.Offers one oneTree) (second : schema.Offers other otherTree)
    (path : String) (arguments : Arguments) :
    ⟨one, oneTree⟩ ∈ schema.languages ∧ ⟨other, otherTree⟩ ∈ schema.languages ∧
      SameLookup path (oneTree.message path) (otherTree.message path) ∧
      SameTranslation path (oneTree.translate path arguments)
        (otherTree.translate path arguments) := by
  have nodup := nodup_languageNames accepted
  have oneListed := first.listed nodup
  have otherListed := second.listed nodup
  have agree := agree_of_languages accepted oneListed otherListed
  exact ⟨oneListed, otherListed, agree.sameLookup path, agree.sameTranslation path arguments⟩

end

/-- A provider that was switched back and forth, and the other language by itself: without
options both lack one, though not the same. -/
theorem medals_interchangeable :
    ∃ start reached, Provider.ofSchema medalSchema (some "zh") = .ok start ∧
      start.switchAll ["en", "zh", "en"] = .ok reached ∧
      SameLookup "won" (reached.messages.message "won") (medalsChinese.message "won") ∧
      SameTranslation "won" (reached.messages.translate "won" [])
        (medalsChinese.translate "won" []) ∧
      reached.messages.translate "won" [] = .error (.missingOption "who") ∧
      medalsChinese.translate "won" [] = .error (.missingOption "rank") := by
  let start : Provider := ⟨[("en", medalsEnglish), ("zh", medalsChinese)], "zh", rfl⟩
  let reached : Provider := ⟨[("en", medalsEnglish), ("zh", medalsChinese)], "en", rfl⟩
  have built : Provider.ofSchema medalSchema (some "zh") = .ok start := rfl
  have switched : start.switchAll ["en", "zh", "en"] = .ok reached := rfl
  have listed : ⟨"zh", medalsChinese⟩ ∈ medalSchema.languages :=
    List.mem_cons_of_mem _ List.mem_cons_self
  obtain ⟨_, _, lookup, translation⟩ := languages_interchangeable analyze_medals
    (.provider built switched) (.language listed) "won" []
  exact ⟨start, reached, built, switched, lookup, translation, rfl, rfl⟩

end Phrasebook
