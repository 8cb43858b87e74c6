import Phrasebook.Proofs.Entries
import Phrasebook.Proofs.Survey
import Phrasebook.Tree.Difference
import Phrasebook.Tree.Unify

/-!
# Merging a language into the schema

The survey that merges a language succeeds, leaves the schema that has adopted the
language, and records exactly the differences between the two. A settled schema adopts
nothing, so after the first language the schema stays.
-/

namespace Phrasebook

namespace Node

theorem noteLacking_sees
    (language : String) (incoming : Entries Node) (schema : List (String × Node)) :
    (noteLacking language incoming schema).Sees language ()
      fun path => lacking path incoming schema := by
  induction schema with
  | nil => exact Survey.sees_done language ()
  | cons entry rest ih =>
      obtain ⟨key, expected⟩ := entry
      simp only [noteLacking, lacking]
      refine Survey.Sees.andThen (show Survey.Sees _ language () _ from ?_) ih
      cases incoming.lookup key with
      | none => exact Survey.sees_note language key _
      | some found =>
          by_cases same : found.kind = expected.kind
          · simp only [if_pos same]
            exact Survey.sees_done language ()
          · simp only [if_neg same]
            exact Survey.sees_note language key _

theorem keepAgainst_sees (language key : String) (expected : Node) (found : NodeKind) :
    (keepAgainst language key expected found).Sees language expected
      fun path => [(path ++ [key], .mismatchedKind expected.kind found)] :=
  (Survey.sees_note language key _).andThen_done fun _ => expected

/-! ## What a change of the schema at one key leaves alone -/

/-- Only what the schema has at the keys of the language counts. -/
theorem surplus_congr
    {schema other : Entries Node} {incoming : List (String × Node)}
    (same : ∀ key ∈ Entries.keys incoming, schema.lookup key = other.lookup key)
    (path : KeyPath) (isOpen : Bool) :
    surplus path isOpen schema incoming = surplus path isOpen other incoming := by
  induction incoming with
  | nil => rfl
  | cons entry rest ih =>
      obtain ⟨key, found⟩ := entry
      have here := same key List.mem_cons_self
      have later := ih fun key member => same key (List.mem_cons_of_mem _ member)
      rw [surplus, surplus, here, later]

theorem unknownEntries_congr
    {schema other : Entries Node} {incoming : List (String × Node)}
    (same : ∀ key ∈ Entries.keys incoming, schema.lookup key = other.lookup key) :
    unknownEntries schema incoming = unknownEntries other incoming := by
  refine List.filter_congr ?_
  intro entry member
  rw [same entry.1 (Entries.mem_keys_of_mem member)]

/-- Another value at a key that the language does not have any more is not looked at. -/
theorem lookup_put_of_not_mem
    {key : String} {value : Node} {schema : Entries Node} {incoming : List (String × Node)}
    (fresh : key ∉ Entries.keys incoming) :
    ∀ other ∈ Entries.keys incoming,
      (Entries.put key value schema).lookup other = schema.lookup other := by
  intro other member
  have differs : other ≠ key := fun same => fresh (same ▸ member)
  rw [Entries.lookup_put, if_neg differs]

theorem adoptEntries_nil (schema : List (String × Node)) : adoptEntries [] schema = schema := by
  induction schema with
  | nil => rfl
  | cons entry rest ih =>
      obtain ⟨key, expected⟩ := entry
      rw [adoptEntries, ih, List.lookup_nil]

theorem adoptEntries_append (incoming front back : List (String × Node)) :
    adoptEntries incoming (front ++ back) =
      adoptEntries incoming front ++ adoptEntries incoming back := by
  induction front with
  | nil => rfl
  | cons entry rest ih =>
      obtain ⟨key, expected⟩ := entry
      simp only [List.cons_append, adoptEntries, ih]

/-- An entry with a key that the schema does not have changes no entry of the schema. -/
theorem adoptEntries_cons_of_not_mem
    {key : String} {schema : List (String × Node)} (unknown : key ∉ Entries.keys schema)
    (found : Node) (rest : List (String × Node)) :
    adoptEntries ((key, found) :: rest) schema = adoptEntries rest schema := by
  induction schema with
  | nil => rfl
  | cons entry others ih =>
      obtain ⟨other, expected⟩ := entry
      rw [Entries.keys_cons, List.mem_cons, not_or] at unknown
      rw [adoptEntries, adoptEntries, ih unknown.2, Entries.lookup_cons,
        if_neg (Ne.symm unknown.1)]

/-- Merging the entry of a key first and the remaining ones later merges them all. -/
theorem adoptEntries_put
    {key : String} {schema rest : List (String × Node)} {expected : Node}
    (distinct : (Entries.keys schema).Nodup) (known : List.lookup key schema = some expected)
    (fresh : key ∉ Entries.keys rest) (found : Node) :
    adoptEntries rest (Entries.put key (expected.adopt found) schema) =
      adoptEntries ((key, found) :: rest) schema := by
  induction schema with
  | nil => cases known
  | cons entry others ih =>
      obtain ⟨other, node⟩ := entry
      rw [Entries.keys_cons, List.nodup_cons] at distinct
      rw [Entries.lookup_cons] at known
      by_cases same : key = other
      · subst same
        rw [if_pos rfl] at known
        cases known
        rw [Entries.put, if_pos rfl, adoptEntries, adoptEntries,
          Entries.lookup_eq_none.mpr fresh, adoptEntries_cons_of_not_mem distinct.1,
          Entries.lookup_cons, if_pos rfl]
      · rw [if_neg same] at known
        rw [Entries.put, if_neg (Ne.symm same), adoptEntries, adoptEntries,
          ih distinct.2 known, Entries.lookup_cons, if_neg (Ne.symm same)]

/-! ## The entries that merging leaves -/

/-- The entries of a schema record after a language was merged into it. -/
def mergedEntries (isOpen : Bool) (schema incoming : List (String × Node)) :
    List (String × Node) :=
  adoptEntries incoming schema ++ if isOpen then unknownEntries schema incoming else []

theorem mergedEntries_nil (isOpen : Bool) (schema : List (String × Node)) :
    mergedEntries isOpen schema [] = schema := by
  have nothing : (if isOpen then unknownEntries schema [] else []) = [] := by
    cases isOpen <;> rfl
  rw [mergedEntries, nothing, List.append_nil, adoptEntries_nil]

/-- The first entry of a language goes into the schema entry of its key. -/
theorem mergedEntries_known
    {key : String} {schema rest : List (String × Node)} {expected : Node}
    (distinct : (Entries.keys schema).Nodup) (known : List.lookup key schema = some expected)
    (fresh : key ∉ Entries.keys rest) (isOpen : Bool) (found : Node) :
    mergedEntries isOpen (Entries.put key (expected.adopt found) schema) rest =
      mergedEntries isOpen schema ((key, found) :: rest) := by
  have isKnown : unknownEntries schema ((key, found) :: rest) = unknownEntries schema rest := by
    simp [unknownEntries, known]
  rw [mergedEntries, mergedEntries, isKnown, adoptEntries_put distinct known fresh,
    unknownEntries_congr (lookup_put_of_not_mem fresh)]

/-- An open record takes an entry with a new key at its end. -/
theorem mergedEntries_open
    {key : String} {schema rest : List (String × Node)}
    (unknown : List.lookup key schema = none) (fresh : key ∉ Entries.keys rest) (found : Node) :
    mergedEntries true (Entries.put key found schema) rest =
      mergedEntries true schema ((key, found) :: rest) := by
  have absent := Entries.lookup_eq_none.mp unknown
  have isUnknown : unknownEntries schema ((key, found) :: rest) =
      (key, found) :: unknownEntries schema rest := by
    simp [unknownEntries, unknown]
  have taken : adoptEntries rest (Entries.put key found schema) =
      adoptEntries ((key, found) :: rest) schema ++ [(key, found)] := by
    rw [Entries.put_of_not_mem absent, adoptEntries_append,
      adoptEntries_cons_of_not_mem absent, adoptEntries, adoptEntries,
      Entries.lookup_eq_none.mpr fresh]
  rw [mergedEntries, mergedEntries, if_pos rfl, if_pos rfl, isUnknown, taken,
    unknownEntries_congr (lookup_put_of_not_mem fresh), List.append_assoc]
  rfl

/-- A settled record takes no entry with a new key. -/
theorem mergedEntries_closed
    {key : String} {schema : List (String × Node)} (unknown : List.lookup key schema = none)
    (rest : List (String × Node)) (found : Node) :
    mergedEntries false schema rest = mergedEntries false schema ((key, found) :: rest) := by
  rw [mergedEntries, mergedEntries,
    adoptEntries_cons_of_not_mem (Entries.lookup_eq_none.mp unknown)]
  rfl

theorem lookup_adoptEntries (incoming schema : List (String × Node)) (key : String) :
    List.lookup key (adoptEntries incoming schema) =
      (List.lookup key schema).map fun expected =>
        match incoming.lookup key with
        | some found => expected.adopt found
        | none => expected := by
  induction schema with
  | nil => rfl
  | cons entry rest ih =>
      obtain ⟨other, expected⟩ := entry
      rw [adoptEntries, Entries.lookup_cons, Entries.lookup_cons, ih]
      by_cases same : key = other
      · subst same
        rw [if_pos rfl, if_pos rfl]
        rfl
      · rw [if_neg same, if_neg same]

theorem lookup_unknownEntries {schema : List (String × Node)} {key : String}
    (unknown : List.lookup key schema = none) (incoming : List (String × Node)) :
    List.lookup key (unknownEntries schema incoming) = List.lookup key incoming := by
  induction incoming with
  | nil => rfl
  | cons entry rest ih =>
      rw [unknownEntries] at ih
      rw [unknownEntries, Entries.lookup_cons, List.filter_cons]
      split
      · rw [Entries.lookup_cons, ih]
      · rename_i known
        have differs : key ≠ entry.1 := by
          rintro rfl
          exact known (by rw [unknown]; rfl)
        rw [if_neg differs, ih]

/-- At a key of the schema the two nodes are merged, and an open record takes the other keys. -/
theorem lookup_mergedEntries (isOpen : Bool) (schema incoming : List (String × Node))
    (key : String) :
    List.lookup key (mergedEntries isOpen schema incoming) =
      match schema.lookup key, incoming.lookup key with
      | some expected, some found => some (expected.adopt found)
      | some expected, none => some expected
      | none, found => if isOpen then found else none := by
  rw [mergedEntries, List.lookup_append, lookup_adoptEntries]
  cases known : List.lookup key schema with
  | some expected =>
      rw [Option.map_some, Option.some_or]
      cases List.lookup key incoming with
      | none => rfl
      | some found => rfl
  | none =>
      rw [Option.map_none, Option.none_or]
      cases isOpen with
      | true => exact lookup_unknownEntries known incoming
      | false => rfl

theorem adopt_records (isOpen isFound : Bool) (schema incoming : List (String × Node)) :
    (record isOpen schema).adopt (.record isFound incoming) =
      .record false (mergedEntries isOpen schema incoming) := by
  rw [adopt, mergedEntries]

theorem keys_adoptEntries (incoming schema : List (String × Node)) :
    Entries.keys (adoptEntries incoming schema) = Entries.keys schema := by
  induction schema with
  | nil => rfl
  | cons entry rest ih =>
      obtain ⟨key, expected⟩ := entry
      rw [adoptEntries, Entries.keys_cons, Entries.keys_cons, ih]

theorem nodup_keys_mergedEntries {schema incoming : List (String × Node)}
    (keys : (Entries.keys schema).Nodup) (incomingKeys : (Entries.keys incoming).Nodup)
    (isOpen : Bool) : (Entries.keys (mergedEntries isOpen schema incoming)).Nodup := by
  rw [mergedEntries, Entries.keys_append, keys_adoptEntries]
  cases isOpen with
  | false => simpa using keys
  | true =>
      have sublist : (Entries.keys (unknownEntries schema incoming)).Sublist
          (Entries.keys incoming) := List.filter_sublist.map Prod.fst
      refine List.nodup_append.mpr ⟨keys, incomingKeys.sublist sublist, ?_⟩
      rintro key known _ unknown rfl
      obtain ⟨entry, member, rfl⟩ := List.mem_map.mp unknown
      obtain ⟨value, present⟩ := Entries.exists_lookup_of_mem_keys known
      have absent := (List.mem_filter.mp member).2
      rw [present] at absent
      cases absent

/-- Merging keeps the keys distinct at every level. -/
theorem adopt_distinct {expected found : Node} (expectedDistinct : expected.Distinct)
    (distinct : found.Distinct) : (expected.adopt found).Distinct := by
  induction expectedDistinct generalizing found with
  | text value => cases found <;> exact .text value
  | call body => cases found <;> exact .call body
  | @record isOpen schema keys inner ih =>
      cases found with
      | text value => exact .record keys inner
      | call body => exact .record keys inner
      | record isFound incoming =>
          rw [adopt_records]
          have merged := nodup_keys_mergedEntries keys distinct.here isOpen
          refine .record merged fun key node member => ?_
          have known := Entries.lookup_of_mem merged member
          rw [lookup_mergedEntries] at known
          split at known
          · rename_i one other present beside
            cases known
            exact ih key one (Entries.mem_of_lookup present) (distinct.of_lookup beside)
          · rename_i present _
            cases known
            exact inner key node (Entries.mem_of_lookup present)
          · split at known
            · exact distinct.of_lookup known
            · cases known

/-! ## The surveys -/

mutual

theorem merge_sees (language key : String) :
    ∀ found expected : Node, found.Distinct → expected.Distinct →
      (merge language key expected found).Sees language (expected.adopt found)
        fun path => differences (path ++ [key]) expected found
  | .text value, .text kept, _, _ => Survey.sees_done language (Node.text kept)
  | .text value, .call body, _, _ => keepAgainst_sees language key (Node.call body) _
  | .text value, .record isOpen schema, _, _ =>
      keepAgainst_sees language key (Node.record isOpen schema) _
  | .call found, .text kept, _, _ => keepAgainst_sees language key (Node.text kept) _
  | .call found, .call body, _, _ => by
      simp only [merge, differences, adopt]
      by_cases same : Body.params body = Body.params found
      · simp only [if_pos same]
        exact Survey.sees_done language (Node.call body)
      · simp only [if_neg same]
        exact (Survey.sees_note language key _).andThen_done fun _ => Node.call body
  | .call found, .record isOpen schema, _, _ =>
      keepAgainst_sees language key (Node.record isOpen schema) _
  | .record isFound incoming, .text kept, _, _ => keepAgainst_sees language key (Node.text kept) _
  | .record isFound incoming, .call body, _, _ => keepAgainst_sees language key (Node.call body) _
  | .record isFound incoming, .record isOpen schema, found, expected => by
      have entries := mergeEntries_sees language isOpen incoming schema found.here
        (fun _ _ member => found.of_mem member) expected.here
        (fun _ _ _ known => expected.of_lookup known)
      have below : Survey.Sees
          ((noteLacking language incoming schema).andThen fun _ =>
            mergeEntries language isOpen schema incoming) language _
          fun path => lacking path incoming schema ++ surplus path isOpen schema incoming :=
        (noteLacking_sees language incoming schema).andThen entries
      exact (below.within key).andThen_done fun merged => Node.record false merged

/-- The entries are merged one by one, so the schema changes on the way. Nothing that
changed is met again, since the keys of the language are distinct. -/
theorem mergeEntries_sees (language : String) (isOpen : Bool) :
    ∀ (incoming : List (String × Node)) (schema : Entries Node),
      (Entries.keys incoming).Nodup →
      (∀ key node, (key, node) ∈ incoming → node.Distinct) →
      (Entries.keys schema).Nodup →
      (∀ key ∈ Entries.keys incoming, ∀ node, schema.lookup key = some node → node.Distinct) →
      (mergeEntries language isOpen schema incoming).Sees language
        (mergedEntries isOpen schema incoming) fun path => surplus path isOpen schema incoming
  | [], schema, _, _, _, _ => by
      rw [mergedEntries_nil]
      exact Survey.sees_done language schema
  | (key, found) :: rest, schema, keys, inner, schemaKeys, schemaInner => by
      rw [Entries.keys_cons, List.nodup_cons] at keys
      have restInner : ∀ other node, (other, node) ∈ rest → node.Distinct :=
        fun other node member => inner other node (List.mem_cons_of_mem _ member)
      have schemaRest : ∀ other ∈ Entries.keys rest, ∀ node,
          schema.lookup other = some node → node.Distinct :=
        fun other member => schemaInner other (List.mem_cons_of_mem _ member)
      have unchanged (value : Node) : ∀ other ∈ Entries.keys rest,
          (Entries.put key value schema).lookup other = schema.lookup other :=
        lookup_put_of_not_mem keys.1
      have others (value : Node) := mergeEntries_sees language isOpen rest
        (Entries.put key value schema) keys.2 restInner (Entries.nodup_keys_put schemaKeys key _)
        (fun other member node found =>
          schemaRest other member node (unchanged value other member ▸ found))
      cases known : schema.lookup key with
      | some expected =>
          have here := merge_sees language key found expected
            (inner key found List.mem_cons_self)
            (schemaInner key List.mem_cons_self expected known)
          simp only [mergeEntries, surplus, known]
          rw [← mergedEntries_known schemaKeys known keys.1]
          simp only [← surplus_congr (unchanged (expected.adopt found))]
          exact here.andThen (others _)
      | none =>
          cases isOpen with
          | true =>
              simp only [mergeEntries, surplus, known, if_true, List.nil_append]
              rw [← mergedEntries_open known keys.1]
              simp only [← surplus_congr (unchanged found)]
              exact others found
          | false =>
              simp only [mergeEntries, surplus, known, Bool.false_eq_true, if_false]
              rw [← mergedEntries_closed known]
              exact (Survey.sees_note language key _).andThen
                (mergeEntries_sees language false rest schema keys.2 restInner schemaKeys schemaRest)

end

/-! ## Settled schemas -/

/-- A settled node adopts nothing. -/
theorem adopt_of_settled {expected : Node} (settled : expected.Settled) (found : Node) :
    expected.adopt found = expected := by
  induction settled generalizing found with
  | text value => cases found <;> rfl
  | call body => cases found <;> rfl
  | @record isOpen entries closed inner ih =>
      subst closed
      cases found with
      | text value => rfl
      | call body => rfl
      | record isOpen incoming =>
          have kept : ∀ schema : List (String × Node),
              (∀ entry ∈ schema, entry ∈ entries) → adoptEntries incoming schema = schema := by
            intro schema within
            induction schema with
            | nil => rfl
            | cons entry rest restKept =>
                obtain ⟨key, node⟩ := entry
                have here := ih key node (within _ List.mem_cons_self)
                rw [adoptEntries, restKept fun other member => within _ (List.mem_cons_of_mem _ member)]
                cases incoming.lookup key with
                | none => rfl
                | some other => simp only [here]
          rw [adopt, kept entries fun _ member => member]
          simp

/-- Against no keys at all nothing is observed. -/
theorem surplus_of_open (path : KeyPath) (incoming : List (String × Node)) :
    surplus path true [] incoming = [] := by
  induction incoming with
  | nil => rfl
  | cons entry rest ih =>
      obtain ⟨key, found⟩ := entry
      simp only [surplus, List.lookup_nil, if_true, List.nil_append, ih]

end Node

namespace Tree

/-- The schema after a language has been merged into it. -/
def adopt (schema incoming : Tree) : Tree where
  entries := Node.mergedEntries schema.isOpen schema.entries incoming.entries
  distinct := Node.adopt_distinct schema.distinct_toNode incoming.distinct_toNode

theorem toNode_adopt (schema language : Tree) :
    (schema.adopt language).toNode = schema.toNode.adopt language.toNode := rfl

/-- Merging a whole language adopts it and records the differences. -/
theorem run_merge (schema incoming : Tree) (language : String) (diagnostics : Diagnostics) :
    (merge language schema incoming).run diagnostics =
      (.ok (schema.adopt incoming),
        diagnostics.recordAll language (schema.differences incoming)) := by
  have entries := Node.mergeEntries_sees language schema.isOpen incoming.entries schema.entries
    incoming.distinct.here (fun _ _ => incoming.distinct.of_mem)
    schema.distinct.here (fun _ _ _ => schema.distinct.of_lookup)
  have gives := Node.mergeEntries_gives language schema.isOpen incoming.entries
    (fun _ _ => incoming.distinct.of_mem) schema.distinct
  have both : Survey.Sees
      ((Node.noteLacking language incoming.entries schema.entries).andThen fun _ =>
        (Node.mergeEntries language schema.isOpen schema.entries incoming.entries).attach gives)
      language _
      fun path => Node.lacking path incoming.entries schema.entries ++
        Node.surplus path schema.isOpen schema.entries incoming.entries :=
    (Node.noteLacking_sees language incoming.entries schema.entries).andThen (entries.attach gives)
  have whole := both.andThen_done ofRecord
  exact whole.run diagnostics

/-- The first language fixes the schema. -/
theorem adopt_unconstrained {first : Tree} (settled : first.Settled) :
    unconstrained.adopt first = first := by
  have closed : first.isOpen = false := Node.Every.here settled
  have all : Node.unknownEntries [] first.entries = first.entries := by
    simp [Node.unknownEntries]
  ext1
  · exact all
  · exact closed.symm

/-- Nothing is observed of the first language. -/
theorem differences_unconstrained (first : Tree) : unconstrained.differences first = [] :=
  Node.surplus_of_open [] first.entries

/-- A settled schema stays as it is. -/
theorem adopt_of_settled {schema : Tree} (settled : schema.Settled) (incoming : Tree) :
    schema.adopt incoming = schema := by
  have whole := Node.adopt_of_settled settled incoming.toNode
  rw [← toNode_adopt, toNode, toNode, Node.record.injEq] at whole
  exact Tree.ext whole.2 whole.1

/-- What the languages after the first add to the diagnostics. -/
def recordDifferences (first : Tree) (rest : List (Named Tree)) (diagnostics : Diagnostics) :
    Diagnostics :=
  rest.foldl (fun all language =>
    all.recordAll language.name (first.differences language.value)) diagnostics

/-- A settled schema is merged with language after language and stays, while the
differences of each are recorded. -/
theorem mergeAll_of_settled
    {schema : Tree} (settled : schema.Settled) (languages : List (Named Tree))
    (diagnostics : Diagnostics) :
    mergeAll schema languages diagnostics =
      (.ok schema, recordDifferences schema languages diagnostics) := by
  induction languages generalizing diagnostics with
  | nil => rfl
  | cons language rest ih =>
      rw [mergeAll, run_merge]
      dsimp only
      rw [adopt_of_settled settled, ih]
      rfl

/-- Merging all languages from the start gives the first of them. -/
theorem mergeAll_unconstrained
    {first : Named Tree} (settled : first.value.Settled) (rest : List (Named Tree))
    (diagnostics : Diagnostics) :
    mergeAll unconstrained (first :: rest) diagnostics =
      (.ok first.value, recordDifferences first.value rest diagnostics) := by
  rw [mergeAll, run_merge]
  dsimp only
  rw [adopt_unconstrained settled, differences_unconstrained]
  exact mergeAll_of_settled settled rest diagnostics

/-- Languages with distinct names are unified, whatever they contain. -/
theorem unified_of_nodup
    {first : Named Tree} {rest : List (Named Tree)} (settled : first.value.Settled)
    (unrepeated : repeated? [] ((first :: rest).map Named.name) = none)
    (diagnostics : Diagnostics) :
    unified (first :: rest) diagnostics =
      (.ok first.value, recordDifferences first.value rest diagnostics) := by
  have closed : first.value.isOpen = false := Node.Every.here settled
  have nonempty : ¬ (first :: rest).isEmpty = true := Bool.false_ne_true
  rw [unified, if_neg nonempty, unrepeated]
  dsimp only
  rw [mergeAll_unconstrained settled]
  simp only [closed, Bool.false_eq_true, if_false]

end Tree

end Phrasebook
