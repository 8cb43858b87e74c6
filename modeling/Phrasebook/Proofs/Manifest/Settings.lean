import Phrasebook.Manifest.Reading

/-!
# Where the names of a manifest come from

Settings are taken over one by one, and each changes what it is about and nothing else. So a name
that a manifest has is the default for its role, or it is the text that the section about code has at
the key for this role.
-/

namespace Phrasebook.Manifest

/-- What names can be set for, with the keys that set them. -/
def nameKeys : List (String × String) :=
  [("root type", "root_type"), ("language type", "language_type"),
   ("provider class", "provider_class"), ("provider", "provider_name")]

theorem eq_string_of_text? {value : Value} {text : String} (found : text? value = some text) :
    value = .string text := by
  unfold text? at found
  split at found
  · cases found
    rfl
  · cases found

theorem setMessageKey_naming {manifest changed : Manifest} {key : String} {value : Value}
    (set : setMessageKey manifest key value = some changed) : changed.naming = manifest.naming := by
  unfold setMessageKey at set
  split at set
  rotate_right
  · cases set
  all_goals
    obtain ⟨_, _, rfl⟩ := Option.map_eq_some_iff.mp set
    rfl

/-- A setting about code changes at most the name that its key is for. -/
theorem setCodeKey_roles {manifest changed : Manifest} {key : String} {value : Value}
    (set : setCodeKey manifest key value = some changed) {role name : String}
    (named : (role, name) ∈ changed.roles) :
    (role, name) ∈ manifest.roles ∨ (role, key) ∈ nameKeys ∧ value = .string name := by
  -- a key for a name puts it in the place of its role
  have replaced (index : Nat) {own text : String} (isText : text? value = some text)
      (after : changed.roles = manifest.roles.set index (own, text)) (isKey : (own, key) ∈ nameKeys) :
      (role, name) ∈ manifest.roles ∨ (role, key) ∈ nameKeys ∧ value = .string name := by
    rw [after] at named
    refine (List.mem_or_eq_of_mem_set named).imp_right fun same => ?_
    cases same
    exact ⟨isKey, eq_string_of_text? isText⟩
  unfold setCodeKey at set
  dsimp only at set
  split at set
  -- the four names, the three other settings, and no setting at all
  rotate_right
  · cases set
  all_goals obtain ⟨_, isText, rfl⟩ := Option.map_eq_some_iff.mp set
  · exact replaced 0 isText rfl (by decide)
  · exact replaced 1 isText rfl (by decide)
  · exact replaced 2 isText rfl (by decide)
  · exact replaced 3 isText rfl (by decide)
  all_goals exact Or.inl named

/-- What holds of settings, and is kept by each further one, holds when all are taken over. -/
theorem setAll_induction {set : Manifest → String → Value → Option Manifest} {P : Manifest → Prop}
    {entries : List (String × Value)}
    (step : ∀ key value, (key, value) ∈ entries → ∀ manifest changed,
      set manifest key value = some changed → P manifest → P changed)
    {manifest result : Manifest} (start : P manifest)
    (all : setAll set manifest entries = some result) : P result := by
  induction entries generalizing manifest with
  | nil =>
      cases all
      exact start
  | cons first rest ih =>
      rw [setAll] at all
      obtain ⟨changed, set, later⟩ := Option.bind_eq_some_iff.mp all
      have kept := step first.1 first.2 List.mem_cons_self manifest changed set start
      exact ih (fun key value member => step key value (List.mem_cons_of_mem first member)) kept later

/-- A name for a role that is the default, or that a document has at the key for the role. -/
def HasSource (document : Entries Value) (role name : String) : Prop :=
  (role, name) ∈ ({} : Manifest).roles ∨
    ∃ key entries, (role, key) ∈ nameKeys ∧ ("codegen", .mapping entries) ∈ document ∧
      (key, .string name) ∈ entries

/-- Settings all of whose names have a source in a document. -/
def Sourced (document : Entries Value) (manifest : Manifest) : Prop :=
  ∀ role name, (role, name) ∈ manifest.roles → HasSource document role name

theorem sourced_default (document : Entries Value) : Sourced document {} :=
  fun _ _ named => Or.inl named

/-- The sections of a document keep the names sourced. A section that is a list has its values
without keys, and none of a document does here. -/
theorem sourced_setSectionOf {document : Entries Value}
    (noList : ∀ name items, (name, .sequence items) ∉ document) {manifest changed : Manifest}
    {name : String} {value : Value} (member : (name, value) ∈ document)
    (set : setSectionOf manifest name value = some changed) (sourced : Sourced document manifest) :
    Sourced document changed := by
  unfold setSectionOf at set
  split at set
  · -- the section about messages
    unfold setSection at set
    split at set
    · refine setAll_induction (fun key value _ before after one kept => ?_) sourced set
      rintro role name named
      rw [roles, setMessageKey_naming one] at named
      exact kept role name named
    · exact absurd member (noList _ _)
    · cases set
  · -- the section about code
    unfold setSection at set
    split at set
    · rename_i entries
      refine setAll_induction (fun key value listed before after one kept => ?_) sourced set
      rintro role name named
      rcases setCodeKey_roles one named with earlier | ⟨isKey, rfl⟩
      · exact kept role name earlier
      · exact Or.inr ⟨key, entries, isKey, member, listed⟩
    · exact absurd member (noList _ _)
    · cases set
  · cases set

theorem sourced_ofDocument? {document : Entries Value}
    (noList : ∀ name items, (name, .sequence items) ∉ document) {manifest : Manifest}
    (read : ofDocument? document = some manifest) : Sourced document manifest :=
  setAll_induction (fun _ _ member _ _ => sourced_setSectionOf noList member)
    (sourced_default document) read

/-- The names of the defaults can be declared. -/
theorem nameFault?_default {role name : String} (named : (role, name) ∈ ({} : Manifest).roles) :
    nameFault? name = none := by
  simp only [roles, List.mem_cons, Prod.mk.injEq, List.not_mem_nil, or_false] at named
  rcases named with ⟨_, rfl⟩ | ⟨_, rfl⟩ | ⟨_, rfl⟩ | ⟨_, rfl⟩ <;> decide

end Phrasebook.Manifest
