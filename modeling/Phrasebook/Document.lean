import Phrasebook.Value

/-!
# Documents

A reader gives the entries of a mapping as they are written. In a document every mapping has
distinct keys: a repeated key keeps its place and takes its last value.
-/

namespace Phrasebook

/-- A value whose mappings have distinct keys. What is inside a sequence does not matter. -/
inductive Value.Distinct : Value → Prop where
  | string (text : String) : Distinct (.string text)
  | number (number : Number) : Distinct (.number number)
  | mapping {entries : List (String × Value)}
      (keys : (Entries.keys entries).Nodup)
      (inner : ∀ key value, (key, value) ∈ entries → Distinct value) :
      Distinct (.mapping entries)
  | boolean (value : Bool) : Distinct (.boolean value)
  | sequence (items : List Value) : Distinct (.sequence items)
  | null : Distinct .null

namespace Value

mutual

def decideDistinct : Value → Bool
  | .mapping entries => decide (Entries.keys entries).Nodup && decideDistinctIn entries
  | .string _ => true
  | .number _ => true
  | .boolean _ => true
  | .sequence _ => true
  | .null => true

def decideDistinctIn : List (String × Value) → Bool
  | [] => true
  | (_, value) :: rest => decideDistinct value && decideDistinctIn rest

end

mutual

theorem decideDistinct_iff : ∀ value : Value, decideDistinct value = true ↔ value.Distinct
  | .mapping entries => by
      rw [decideDistinct, Bool.and_eq_true, decide_eq_true_iff, decideDistinctIn_iff entries]
      constructor
      · exact fun ⟨keys, inner⟩ => .mapping keys inner
      · intro distinct
        cases distinct with
        | mapping keys inner => exact ⟨keys, inner⟩
  | .string text => iff_of_true rfl (.string text)
  | .number it => iff_of_true rfl (.number it)
  | .boolean value => iff_of_true rfl (.boolean value)
  | .sequence items => iff_of_true rfl (.sequence items)
  | .null => iff_of_true rfl .null

theorem decideDistinctIn_iff :
    ∀ entries : List (String × Value), decideDistinctIn entries = true ↔
      ∀ key value, (key, value) ∈ entries → value.Distinct
  | [] => by simp [decideDistinctIn]
  | (key, value) :: rest => by
      rw [decideDistinctIn, Bool.and_eq_true, decideDistinct_iff value, decideDistinctIn_iff rest]
      exact Entries.forall_mem_cons.symm

end

instance (value : Value) : Decidable value.Distinct :=
  decidable_of_iff _ (decideDistinct_iff value)

mutual

/-- A value with distinct keys in all mappings, also in those inside of sequences. -/
def tidy : Value → Value
  | .mapping entries => .mapping (Entries.ofPairs (tidyPairs entries))
  | .sequence items => .sequence (tidyItems items)
  | .string text => .string text
  | .number it => .number it
  | .boolean value => .boolean value
  | .null => .null

def tidyPairs : List (String × Value) → List (String × Value)
  | [] => []
  | (key, value) :: rest => (key, value.tidy) :: tidyPairs rest

def tidyItems : List Value → List Value
  | [] => []
  | value :: rest => value.tidy :: tidyItems rest

end

mutual

theorem distinct_tidy : ∀ value : Value, value.tidy.Distinct
  | .mapping entries => by
      rw [tidy]
      exact .mapping (Entries.nodup_keys_ofPairs _) fun key value member =>
        distinct_of_mem_tidyPairs entries key value (Entries.mem_of_mem_ofPairs member)
  | .sequence items => .sequence (tidyItems items)
  | .string text => .string text
  | .number it => .number it
  | .boolean value => .boolean value
  | .null => .null

theorem distinct_of_mem_tidyPairs :
    ∀ (pairs : List (String × Value)) (key : String) (value : Value),
      (key, value) ∈ tidyPairs pairs → value.Distinct
  | [] => nofun
  | (_, value) :: rest =>
      Entries.forall_mem_cons.mpr ⟨distinct_tidy value, distinct_of_mem_tidyPairs rest⟩

end

end Value

/-- The root mapping of a locale document. -/
structure Document where
  entries : Entries Value
  distinct : (Value.mapping entries).Distinct := by decide

/-- The document with some entries as they are written. -/
def Document.ofPairs (pairs : List (String × Value)) : Document where
  entries := Entries.ofPairs (Value.tidyPairs pairs)
  distinct := by
    have distinct := Value.distinct_tidy (.mapping pairs)
    rwa [Value.tidy] at distinct

end Phrasebook
