import Phrasebook.Entries
import Mathlib.Data.List.Induction
import Mathlib.Data.List.Nodup

/-!
# Laws of entries

What putting does to the keys and to the other entries, and how looking up and membership
agree when the keys are distinct.
-/

namespace Phrasebook

section FirstOccurrences

variable {α : Type} [BEq α] [LawfulBEq α]

/-- Of what comes last, only a first occurrence counts. -/
theorem eraseDups_concat (items : List α) (last : α) [Decidable (last ∈ items)] :
    (items ++ [last]).eraseDups =
      if last ∈ items then items.eraseDups else items.eraseDups ++ [last] := by
  rw [List.eraseDups_append]
  by_cases known : last ∈ items
  · simp [List.removeAll, known]
  · simp [List.removeAll, known, List.eraseDups_cons]

theorem nodup_eraseDups (items : List α) : items.eraseDups.Nodup := by
  classical
  induction items using List.reverseRecOn with
  | nil => exact List.nodup_nil
  | append_singleton items last ih =>
      rw [eraseDups_concat]
      by_cases known : last ∈ items
      · rwa [if_pos known]
      · rw [if_neg known, ← List.concat_eq_append]
        exact List.Nodup.concat (mt List.mem_eraseDups.mp known) ih

end FirstOccurrences

namespace Entries

variable {α : Type}

theorem keys_map {β : Type} (key : β → String) (value : β → α) (items : List β) :
    keys (items.map fun item => (key item, value item)) = items.map key := by
  rw [keys, List.map_map]
  rfl

theorem mem_keys_of_mem {key : String} {value : α} {entries : Entries α}
    (member : (key, value) ∈ entries) : key ∈ keys entries :=
  List.mem_map.mpr ⟨(key, value), member, rfl⟩

/-- An entry of a longer list is the first one or one of the others. -/
theorem exists_mem_cons {key : String} {value : α} {rest : Entries α} {property : String → α → Prop} :
    (∃ other found, (other, found) ∈ (key, value) :: rest ∧ property other found) ↔
      property key value ∨ ∃ other found, (other, found) ∈ rest ∧ property other found := by
  constructor
  · rintro ⟨other, found, member, holds⟩
    rcases List.mem_cons.mp member with same | later
    · cases same
      exact Or.inl holds
    · exact Or.inr ⟨other, found, later, holds⟩
  · rintro (holds | ⟨other, found, member, holds⟩)
    · exact ⟨key, value, List.mem_cons_self, holds⟩
    · exact ⟨other, found, List.mem_cons_of_mem _ member, holds⟩

/-- A key without an entry is found nowhere. -/
theorem lookup_eq_none {key : String} {entries : Entries α} :
    entries.lookup key = none ↔ key ∉ keys entries := by
  induction entries with
  | nil => simp
  | cons entry rest ih =>
      rw [lookup_cons]
      by_cases same : key = entry.1
      · simp [same]
      · simp [same, ih]

theorem mem_keys_of_lookup {key : String} {value : α} {entries : Entries α}
    (found : entries.lookup key = some value) : key ∈ keys entries :=
  mem_keys_of_mem (mem_of_lookup found)

/-- Looking up a key finds the entry that is listed, if no other one has the key. -/
theorem lookup_of_mem {key : String} {value : α} {entries : Entries α}
    (distinct : (keys entries).Nodup) (member : (key, value) ∈ entries) :
    entries.lookup key = some value := by
  induction entries with
  | nil => cases member
  | cons entry rest ih =>
      rw [keys_cons, List.nodup_cons] at distinct
      rw [lookup_cons]
      rcases List.mem_cons.mp member with rfl | later
      · exact if_pos rfl
      · have differs : key ≠ entry.1 := fun same => distinct.1 (same ▸ mem_keys_of_mem later)
        rw [if_neg differs]
        exact ih distinct.2 later

theorem lookup_eq_some_iff {key : String} {value : α} {entries : Entries α}
    (distinct : (keys entries).Nodup) :
    entries.lookup key = some value ↔ (key, value) ∈ entries :=
  ⟨mem_of_lookup, lookup_of_mem distinct⟩

theorem exists_lookup_of_mem_keys {key : String} {entries : Entries α}
    (member : key ∈ keys entries) : ∃ value, entries.lookup key = some value := by
  cases found : entries.lookup key with
  | none => exact absurd member (lookup_eq_none.mp found)
  | some value => exact ⟨value, rfl⟩

theorem lookup_map {β : Type} (change : α → β) (entries : Entries α) (key : String) :
    (entries.map fun entry => (entry.1, change entry.2)).lookup key =
      (entries.lookup key).map change := by
  induction entries with
  | nil => rfl
  | cons entry rest ih =>
      rw [List.map_cons, lookup_cons, lookup_cons, ih]
      by_cases same : key = entry.1
      · rw [if_pos same, if_pos same, Option.map_some]
      · rw [if_neg same, if_neg same]

/-- Entries with the same keys have values at a key both or neither. -/
theorem lookups_of_same_keys {β : Type} {first : Entries α} {second : Entries β}
    (same : ∀ key, key ∈ keys first ↔ key ∈ keys second) (key : String) :
    (first.lookup key = none ∧ second.lookup key = none) ∨
      ∃ one other, first.lookup key = some one ∧ second.lookup key = some other := by
  by_cases known : key ∈ keys first
  · obtain ⟨one, present⟩ := exists_lookup_of_mem_keys known
    obtain ⟨other, found⟩ := exists_lookup_of_mem_keys ((same key).mp known)
    exact Or.inr ⟨one, other, present, found⟩
  · exact Or.inl ⟨lookup_eq_none.mpr known, lookup_eq_none.mpr (mt (same key).mpr known)⟩

/-- An entry is the only one of its key, and other entries with the same keys have a value there
as well. -/
theorem lookups_of_mem {β : Type} {first : Entries α} {second : Entries β} {key : String} {value : α}
    (distinct : (keys first).Nodup) (same : ∀ key, key ∈ keys first ↔ key ∈ keys second)
    (member : (key, value) ∈ first) :
    first.lookup key = some value ∧ ∃ other, second.lookup key = some other :=
  ⟨lookup_of_mem distinct member,
    exists_lookup_of_mem_keys ((same key).mp (mem_keys_of_mem member))⟩

/-- Putting a changed value among changed values is putting before the change. -/
theorem put_map {β : Type} (change : α → β) (key : String) (value : α) (entries : Entries α) :
    put key (change value) (entries.map fun entry => (entry.1, change entry.2)) =
      (put key value entries).map fun entry => (entry.1, change entry.2) := by
  induction entries with
  | nil => rfl
  | cons entry rest ih =>
      rw [List.map_cons, put, put, ih]
      by_cases same : entry.1 = key
      · rw [if_pos same, if_pos same, List.map_cons]
      · rw [if_neg same, if_neg same, List.map_cons]

/-- Putting what is there already changes nothing. -/
theorem put_of_lookup {key : String} {value : α} {entries : Entries α}
    (found : entries.lookup key = some value) : put key value entries = entries := by
  induction entries with
  | nil => cases found
  | cons entry rest ih =>
      rw [lookup_cons] at found
      rw [put]
      by_cases same : key = entry.1
      · rw [if_pos same] at found
        rw [if_pos same.symm, ← Option.some.inj found]
      · rw [if_neg same] at found
        rw [if_neg (Ne.symm same), ih found]

/-- Among names that all have one value, putting it lists a name. -/
theorem put_listed (name : String) (value : α) (names : List String) :
    put name value (names.map fun other => (other, value)) =
      (if name ∈ names then names else names ++ [name]).map fun other => (other, value) := by
  have keys_listed : keys (names.map fun other => (other, value)) = names := by
    rw [keys_map, List.map_id']
  by_cases known : name ∈ names
  · obtain ⟨found, present⟩ := exists_lookup_of_mem_keys (keys_listed.symm ▸ known)
    obtain ⟨other, _, same⟩ := List.mem_map.mp (mem_of_lookup present)
    cases same
    rw [if_pos known, put_of_lookup present]
  · rw [if_neg known, put_of_not_mem (keys_listed.symm ▸ known), List.map_append, List.map_singleton]

/-- Of two values for one key the later one stays. -/
theorem put_put (key : String) (first second : α) (entries : Entries α) :
    put key second (put key first entries) = put key second entries := by
  induction entries with
  | nil => simp only [put, if_true]
  | cons entry rest ih =>
      by_cases same : entry.1 = key
      · simp only [put, same, if_true]
      · simp only [put, same, if_false, ih]

/-- Putting at a known key and at another one can be done in either order. -/
theorem put_comm_of_mem {key other : String} {entries : Entries α} (known : key ∈ keys entries)
    (apart : other ≠ key) (value found : α) :
    put other found (put key value entries) = put key value (put other found entries) := by
  induction entries with
  | nil => cases known
  | cons entry rest ih =>
      obtain ⟨here, old⟩ := entry
      by_cases isKey : here = key
      · subst isKey
        simp only [put, if_true, Ne.symm apart, if_false]
      · have later := (List.mem_cons.mp known).resolve_left (Ne.symm isKey)
        by_cases isOther : here = other
        · subst isOther
          simp only [put, isKey, if_false, if_true]
        · simp only [put, isKey, isOther, if_false, ih later]

/-- Putting at two keys in the other order gives the same entries in some order. -/
theorem put_comm {key other : String} (apart : key ≠ other) (value found : α)
    (entries : Entries α) :
    (put other found (put key value entries)).Perm (put key value (put other found entries)) := by
  induction entries with
  | nil =>
      simp only [put, apart, Ne.symm apart, if_false]
      exact List.Perm.swap _ _ _
  | cons entry rest ih =>
      obtain ⟨here, old⟩ := entry
      by_cases isKey : here = key
      · subst isKey
        simp only [put, if_true, apart, if_false]
        exact List.Perm.refl _
      · by_cases isOther : here = other
        · subst isOther
          simp only [put, isKey, if_false, if_true]
          exact List.Perm.refl _
        · simp only [put, isKey, isOther, if_false]
          exact ih.cons _

/-- Entries in another order stay so when the same is put into both. -/
theorem put_perm {entries others : Entries α} (distinct : (keys entries).Nodup)
    (same : entries.Perm others) (key : String) (value : α) :
    (put key value entries).Perm (put key value others) := by
  induction same with
  | nil => exact List.Perm.refl _
  | cons entry same ih =>
      rw [keys_cons, List.nodup_cons] at distinct
      rw [put, put]
      split
      · exact same.cons _
      · exact (ih distinct.2).cons _
  | swap first second rest =>
      rw [keys_cons, keys_cons, List.nodup_cons, List.mem_cons, not_or] at distinct
      by_cases isFirst : first.1 = key
      · have other : ¬ second.1 = key := fun isSecond => distinct.1.1 (isSecond.trans isFirst.symm)
        simp only [put, isFirst, other, if_true, if_false]
        exact List.Perm.swap _ _ _
      · by_cases isSecond : second.1 = key
        · simp only [put, isFirst, isSecond, if_true, if_false]
          exact List.Perm.swap _ _ _
        · simp only [put, isFirst, isSecond, if_false]
          exact List.Perm.swap _ _ _
  | trans one two ihOne ihTwo =>
      have between := (one.map Prod.fst).nodup_iff.mp distinct
      exact (ihOne distinct).trans (ihTwo between)

/-- Pairs with distinct keys are entries as they stand. -/
theorem ofPairs_of_nodup {pairs : List (String × α)} (distinct : (keys pairs).Nodup) :
    ofPairs pairs = pairs := by
  suffices added : ∀ entries : Entries α, (keys (entries ++ pairs)).Nodup →
      pairs.foldl (fun entries pair => put pair.1 pair.2 entries) entries = entries ++ pairs from
    added [] distinct
  clear distinct
  induction pairs with
  | nil => exact fun entries _ => (List.append_nil entries).symm
  | cons pair rest ih =>
      intro entries distinct
      have fresh : pair.1 ∉ keys entries := by
        intro known
        rw [keys_append, List.nodup_append] at distinct
        exact distinct.2.2 pair.1 known pair.1 List.mem_cons_self rfl
      rw [List.append_cons] at distinct ⊢
      rw [List.foldl_cons, put_of_not_mem fresh]
      exact ih _ distinct

end Entries

end Phrasebook
