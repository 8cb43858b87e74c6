/-!
# Entries in order of first appearance

A list of keyed values in the order in which the keys were first put. Putting a key again
changes its value and keeps its place.
-/

namespace Phrasebook

/-- Keyed values, in the order in which the keys were first put. -/
abbrev Entries (α : Type) := List (String × α)

namespace Entries

variable {α : Type}

/-- Gives a key a value: in place when the key is there, at the end otherwise. -/
def put (key : String) (value : α) : Entries α → Entries α
  | [] => [(key, value)]
  | (other, old) :: rest =>
      if other = key then (other, value) :: rest else (other, old) :: put key value rest

/-- The entries that putting a list of pairs in turn leaves. -/
def ofPairs (pairs : List (String × α)) : Entries α :=
  pairs.foldl (fun entries pair => put pair.1 pair.2 entries) []

def keys (entries : Entries α) : List String :=
  entries.map Prod.fst

theorem lookup_cons (key : String) (entry : String × α) (rest : Entries α) :
    List.lookup key (entry :: rest) = if key = entry.1 then some entry.2 else rest.lookup key := by
  rw [List.lookup_cons]
  by_cases same : key = entry.1
  · rw [if_pos same, beq_iff_eq.mpr same]
  · rw [if_neg same, beq_eq_false_iff_ne.mpr same]

/-- A key that was put has the new value, and every other key keeps its own. -/
theorem lookup_put (key other : String) (value : α) (entries : Entries α) :
    (put key value entries).lookup other =
      if other = key then some value else entries.lookup other := by
  induction entries with
  | nil => simp only [put, lookup_cons]
  | cons entry rest ih =>
      by_cases found : entry.1 = key
      · simp only [put, found, if_true, lookup_cons]
        split <;> rfl
      · simp only [put, found, if_false, lookup_cons, ih]
        by_cases same : other = entry.1
        · have differs : ¬ other = key := fun equal => found (same.symm.trans equal)
          rw [if_pos same, if_neg differs, if_pos same]
        · rw [if_neg same, if_neg same]

/-! ### Keys -/

@[simp]
theorem keys_nil : keys ([] : Entries α) = [] := rfl

@[simp]
theorem keys_cons (entry : String × α) (rest : Entries α) :
    keys (entry :: rest) = entry.1 :: keys rest := rfl

@[simp]
theorem keys_append (front back : Entries α) : keys (front ++ back) = keys front ++ keys back := by
  simp [keys]

theorem forall_mem_cons {key : String} {value : α} {rest : Entries α} {property : α → Prop} :
    (∀ other found, (other, found) ∈ (key, value) :: rest → property found) ↔
      property value ∧ ∀ other found, (other, found) ∈ rest → property found := by
  constructor
  · intro all
    exact ⟨all key value List.mem_cons_self,
      fun other found member => all other found (List.mem_cons_of_mem _ member)⟩
  · rintro ⟨first, others⟩ other found member
    rcases List.mem_cons.mp member with same | later
    · cases same
      exact first
    · exact others other found later

theorem mem_of_lookup {key : String} {value : α} {entries : Entries α}
    (found : entries.lookup key = some value) : (key, value) ∈ entries := by
  induction entries with
  | nil => cases found
  | cons entry rest ih =>
      rw [lookup_cons] at found
      by_cases same : key = entry.1
      · rw [if_pos same] at found
        have value_eq : entry.2 = value := Option.some.inj found
        rw [same, ← value_eq]
        exact List.mem_cons_self
      · rw [if_neg same] at found
        exact List.mem_cons_of_mem _ (ih found)

/-- A new key goes to the end. -/
theorem put_of_not_mem {key : String} {entries : Entries α}
    (fresh : key ∉ keys entries) (value : α) :
    put key value entries = entries ++ [(key, value)] := by
  induction entries with
  | nil => rfl
  | cons entry rest ih =>
      rw [keys_cons, List.mem_cons, not_or] at fresh
      rw [put, if_neg (Ne.symm fresh.1), ih fresh.2, List.cons_append]

/-- A known key keeps its place, and so do all the others. -/
theorem keys_put_of_mem {key : String} {entries : Entries α}
    (known : key ∈ keys entries) (value : α) : keys (put key value entries) = keys entries := by
  induction entries with
  | nil => cases known
  | cons entry rest ih =>
      rw [put]
      by_cases same : entry.1 = key
      · rw [if_pos same, keys_cons, keys_cons]
      · rw [if_neg same, keys_cons, keys_cons, ih]
        exact (List.mem_cons.mp known).resolve_left (Ne.symm same)

/-- Putting keeps the keys that are there and gives a new one the last place. -/
theorem keys_put (key : String) (value : α) (entries : Entries α) :
    keys (put key value entries) =
      if key ∈ keys entries then keys entries else keys entries ++ [key] := by
  by_cases known : key ∈ keys entries
  · rw [if_pos known, keys_put_of_mem known]
  · rw [if_neg known, put_of_not_mem known, keys_append, keys_cons, keys_nil]

theorem nodup_keys_put {entries : Entries α}
    (distinct : (keys entries).Nodup) (key : String) (value : α) :
    (keys (put key value entries)).Nodup := by
  rw [keys_put]
  by_cases known : key ∈ keys entries
  · rwa [if_pos known]
  · rw [if_neg known]
    refine List.nodup_append.mpr ⟨distinct, List.pairwise_singleton _ key, ?_⟩
    intro other there last isLast same
    rw [List.mem_singleton.mp isLast] at same
    exact known (same ▸ there)

/-- Entries that were put one by one have distinct keys. -/
theorem nodup_keys_ofPairs (pairs : List (String × α)) : (keys (ofPairs pairs)).Nodup := by
  suffices kept : ∀ entries : Entries α, (keys entries).Nodup →
      (keys (pairs.foldl (fun entries pair => put pair.1 pair.2 entries) entries)).Nodup from
    kept [] List.nodup_nil
  induction pairs with
  | nil => exact fun entries distinct => distinct
  | cons pair rest ih => exact fun entries distinct => ih _ (nodup_keys_put distinct _ _)

/-- An entry that was put is the new one or was there before. -/
theorem mem_put {key : String} {value : α} {entry : String × α} {entries : Entries α}
    (member : entry ∈ put key value entries) : entry = (key, value) ∨ entry ∈ entries := by
  induction entries with
  | nil => exact Or.inl (List.mem_singleton.mp member)
  | cons first rest ih =>
      rw [put] at member
      split at member
      · rename_i same
        rcases List.mem_cons.mp member with new | later
        · exact Or.inl (same ▸ new)
        · exact Or.inr (List.mem_cons_of_mem _ later)
      · rcases List.mem_cons.mp member with rfl | later
        · exact Or.inr List.mem_cons_self
        · exact (ih later).imp_right (List.mem_cons_of_mem first)

/-- Entries that were put one by one are among what was put. -/
theorem mem_of_mem_ofPairs {pairs : List (String × α)} {entry : String × α}
    (member : entry ∈ ofPairs pairs) : entry ∈ pairs := by
  suffices kept : ∀ entries : Entries α,
      entry ∈ pairs.foldl (fun entries pair => put pair.1 pair.2 entries) entries →
        entry ∈ pairs ∨ entry ∈ entries from
    (kept [] member).resolve_right List.not_mem_nil
  clear member
  induction pairs with
  | nil => exact fun entries member => Or.inr member
  | cons pair rest ih =>
      intro entries member
      rcases ih _ member with later | earlier
      · exact Or.inl (List.mem_cons_of_mem pair later)
      · rcases mem_put earlier with rfl | there
        · exact Or.inl List.mem_cons_self
        · exact Or.inr there

end Entries

end Phrasebook
