import Phrasebook.Proofs.Entries
import Phrasebook.Toml.Table

/-!
# What a document holds

Tables grow line by line, and nothing gets into them but by an assignment. So every value of a
document comes from a line that assigns its full path: the header in force there, followed by the key
of the line. No two lines assign the same path, because a place that is taken is not assigned again.
-/

namespace Phrasebook.Toml

/-- The parts of a key. -/
def Key.full (key : Key) : List String :=
  key.path ++ [key.last]

/-! ## Values in tables -/

/-- A value at the end of a path of tables. -/
inductive Leaf : Entries Item → List String → Value → Prop where
  | here {table : Entries Item} {key : String} {value : Value}
      (member : (key, .value value) ∈ table) : Leaf table [key] value
  | deeper {table inner : Entries Item} {key : String} {origin : Origin} {path : List String}
      {value : Value} (member : (key, .table origin inner) ∈ table) (leaf : Leaf inner path value) :
      Leaf table (key :: path) value

/-- A place where a value is found, so that no other one can be put there. -/
inductive Taken : Entries Item → List String → Prop where
  | here {table : Entries Item} {key : String} {value : Value}
      (found : table.lookup key = some (.value value)) : Taken table [key]
  | deeper {table inner : Entries Item} {key : String} {origin : Origin} {path : List String}
      (found : table.lookup key = some (.table origin inner)) (taken : Taken inner path) :
      Taken table (key :: path)

/-- A table without lists of tables, at any depth. -/
inductive ListFree : Entries Item → Prop where
  | intro {table : Entries Item}
      (noList : ∀ key earlier entries, (key, .tables earlier entries) ∉ table)
      (inner : ∀ key origin entries, (key, .table origin entries) ∈ table → ListFree entries) :
      ListFree table

theorem not_leaf_nil (path : List String) (value : Value) : ¬ Leaf [] path value := by
  intro leaf
  cases leaf with
  | here member => cases member
  | deeper member _ => cases member

theorem listFree_nil : ListFree [] :=
  .intro nofun nofun

/-- A table that has an item at a key and is otherwise as before. -/
structure Sets (key : String) (item : Item) (table after : Entries Item) : Prop where
  member : ∀ entry ∈ after, entry ∈ table ∨ entry = (key, item)
  found : after.lookup key = some item
  others : ∀ other, other ≠ key → after.lookup other = table.lookup other

/-- How a table grows by values at some paths, which were all free. -/
structure Adds (added : List (List String × Value)) (table after : Entries Item) : Prop where
  /-- A value was there, or is one of those that were added. -/
  leaf : ∀ path value, Leaf after path value → Leaf table path value ∨ (path, value) ∈ added
  kept : ∀ path, Taken table path → Taken after path
  taken : ∀ entry ∈ added, Taken after entry.1
  fresh : ∀ entry ∈ added, ¬ Taken table entry.1
  distinct : (added.map Prod.fst).Nodup
  listFree : ListFree table → ListFree after

/-- The added values, seen from further out. -/
def under (path : List String) (added : List (List String × Value)) : List (List String × Value) :=
  added.map fun entry => (path ++ entry.1, entry.2)

theorem lookup_filter_ne (key other : String) (table : Entries Item) :
    (table.filter fun entry => entry.1 ≠ key).lookup other =
      if other = key then none else table.lookup other := by
  induction table with
  | nil => simp
  | cons first rest ih =>
      by_cases isKey : first.1 = key
      · rw [List.filter_cons_of_neg (by simpa using isKey), ih, Entries.lookup_cons]
        by_cases same : other = key
        · rw [if_pos same, if_pos same]
        · rw [if_neg same, if_neg same, if_neg (fun here => same (here.trans isKey))]
      · rw [List.filter_cons_of_pos (by simpa using isKey), Entries.lookup_cons, ih,
          Entries.lookup_cons]
        by_cases same : other = key
        · have apart : ¬ other = first.1 := fun here => isKey (here.symm.trans same)
          rw [if_pos same, if_pos same, if_neg apart]
        · rw [if_neg same, if_neg same]

namespace Sets

theorem append {key : String} {table : Entries Item} (free : table.lookup key = none) (item : Item) :
    Sets key item table (table ++ [(key, item)]) where
  member entry isMember := by
    rw [List.mem_append, List.mem_singleton] at isMember
    exact isMember
  found := by
    rw [List.lookup_append, free, Option.none_or, Entries.lookup_cons, if_pos rfl]
  others other apart := by
    rw [List.lookup_append, Entries.lookup_cons, if_neg apart, List.lookup_nil, Option.or_none]

theorem put (key : String) (item : Item) (table : Entries Item) :
    Sets key item table (Entries.put key item table) where
  member entry isMember := by
    induction table with
    | nil => exact Or.inr (List.mem_singleton.mp isMember)
    | cons first rest ih =>
        rw [Entries.put] at isMember
        split at isMember
        · rename_i same
          rcases List.mem_cons.mp isMember with rfl | later
          · exact Or.inr (by rw [same])
          · exact Or.inl (List.mem_cons_of_mem _ later)
        · rcases List.mem_cons.mp isMember with rfl | later
          · exact Or.inl List.mem_cons_self
          · exact (ih later).imp_left (List.mem_cons_of_mem _)
  found := by rw [Entries.lookup_put, if_pos rfl]
  others other apart := by rw [Entries.lookup_put, if_neg apart]

/-- An item that leaves its place and comes back at the end. -/
theorem moved (key : String) (item : Item) (table : Entries Item) :
    Sets key item table (table.filter (fun entry => entry.1 ≠ key) ++ [(key, item)]) where
  member entry isMember := by
    rw [List.mem_append, List.mem_singleton] at isMember
    exact isMember.imp_left List.mem_of_mem_filter
  found := by
    rw [List.lookup_append, lookup_filter_ne, if_pos rfl, Option.none_or, Entries.lookup_cons,
      if_pos rfl]
  others other apart := by
    rw [List.lookup_append, lookup_filter_ne, if_neg apart, Entries.lookup_cons, if_neg apart,
      List.lookup_nil, Option.or_none]

/-- A table stays without lists when the item that is set has none. -/
theorem listFree {key : String} {item : Item} {table after : Entries Item}
    (sets : Sets key item table after) (noList : ∀ earlier entries, item ≠ .tables earlier entries)
    (inner : ∀ origin entries, item = .table origin entries → ListFree entries)
    (free : ListFree table) : ListFree after := by
  obtain ⟨others, below⟩ := free
  refine .intro (fun other earlier entries member => ?_) (fun other origin entries member => ?_)
  · rcases sets.member _ member with before | new
    · exact others _ _ _ before
    · exact noList _ _ (congrArg Prod.snd new).symm
  · rcases sets.member _ member with before | new
    · exact below _ _ _ before
    · exact inner _ _ (congrArg Prod.snd new).symm

end Sets

namespace Adds

theorem refl (table : Entries Item) : Adds [] table table where
  leaf _ _ leaf := Or.inl leaf
  kept _ taken := taken
  taken := nofun
  fresh := nofun
  distinct := List.nodup_nil
  listFree free := free

/-- What was added stays taken, so what is added behind has other paths. -/
theorem trans {first second : List (List String × Value)} {table between after : Entries Item}
    (one : Adds first table between) (two : Adds second between after) :
    Adds (first ++ second) table after where
  leaf path value leaf := by
    rcases two.leaf path value leaf with earlier | new
    · exact (one.leaf path value earlier).imp_right (List.mem_append_left second)
    · exact Or.inr (List.mem_append_right first new)
  kept path taken := two.kept path (one.kept path taken)
  taken entry member := by
    rcases List.mem_append.mp member with earlier | later
    · exact two.kept entry.1 (one.taken entry earlier)
    · exact two.taken entry later
  fresh entry member := by
    rcases List.mem_append.mp member with earlier | later
    · exact one.fresh entry earlier
    · exact fun taken => two.fresh entry later (one.kept entry.1 taken)
  distinct := by
    rw [List.map_append, List.nodup_append]
    refine ⟨one.distinct, two.distinct, ?_⟩
    rintro _ isFirst _ isSecond rfl
    obtain ⟨earlier, listed, same⟩ := List.mem_map.mp isFirst
    obtain ⟨later, there, path⟩ := List.mem_map.mp isSecond
    exact two.fresh later there (path ▸ same ▸ one.taken earlier listed)
  listFree free := two.listFree (one.listFree free)

/-- A value is put at a free key. -/
theorem value {key : String} {table : Entries Item} (free : table.lookup key = none) (value : Value) :
    Adds [([key], value)] table (table ++ [(key, .value value)]) := by
  have sets := Sets.append free (.value value)
  refine ⟨?_, ?_, ?_, ?_, List.nodup_singleton _, ?_⟩
  · intro path other leaf
    cases leaf with
    | here member =>
        rcases sets.member _ member with earlier | new
        · exact Or.inl (.here earlier)
        · cases new
          exact Or.inr List.mem_cons_self
    | deeper member leaf =>
        rcases sets.member _ member with earlier | new
        · exact Or.inl (.deeper earlier leaf)
        · cases new
  · intro path taken
    have apart {other : String} {item : Item} (found : table.lookup other = some item) : other ≠ key := by
      rintro rfl
      rw [free] at found
      cases found
    cases taken with
    | here found => exact .here ((sets.others _ (apart found)).trans found)
    | deeper found taken => exact .deeper ((sets.others _ (apart found)).trans found) taken
  · rw [List.forall_mem_singleton]
    exact .here sets.found
  · rw [List.forall_mem_singleton]
    intro taken
    cases taken with
    | here found =>
        rw [free] at found
        cases found
    | deeper found _ =>
        rw [free] at found
        cases found
  · exact sets.listFree nofun nofun

/-- What is added to a table is added to the table that has it at a key. -/
theorem inner {key : String} {origin : Origin} {added : List (List String × Value)}
    {entries changed table after : Entries Item} (adds : Adds added entries changed)
    (before : table.lookup key = none ∧ entries = [] ∨
      ∃ origin, table.lookup key = some (.table origin entries))
    (sets : Sets key (.table origin changed) table after) : Adds (under [key] added) table after := by
  -- no value stands at the key, and a table that does is the one that grows
  have noValue {value : Value} (found : table.lookup key = some (.value value)) : False := by
    rcases before with ⟨free, _⟩ | ⟨_, there⟩
    · rw [free] at found
      cases found
    · rw [there] at found
      cases found
  have sameTable {origin : Origin} {other : Entries Item}
      (found : table.lookup key = some (.table origin other)) : other = entries := by
    rcases before with ⟨free, _⟩ | ⟨_, there⟩
    · rw [free] at found
      cases found
    · rw [there] at found
      cases found
      rfl
  refine ⟨?_, ?_, ?_, ?_, ?_, ?_⟩
  · intro path value leaf
    cases leaf with
    | here member =>
        rcases sets.member _ member with earlier | new
        · exact Or.inl (.here earlier)
        · cases new
    | @deeper _ _ _ _ path _ member leaf =>
        rcases sets.member _ member with earlier | new
        · exact Or.inl (.deeper earlier leaf)
        · cases new
          rcases adds.leaf path value leaf with old | isNew
          · rcases before with ⟨_, rfl⟩ | ⟨_, there⟩
            · exact absurd old (not_leaf_nil path value)
            · exact Or.inl (.deeper (Entries.mem_of_lookup there) old)
          · exact Or.inr (List.mem_map.mpr ⟨(path, value), isNew, rfl⟩)
  · intro path taken
    cases taken with
    | @here _ other _ found =>
        have apart : other ≠ key := by
          rintro rfl
          exact noValue found
        exact .here ((sets.others other apart).trans found)
    | @deeper _ _ other _ _ found taken =>
        by_cases same : other = key
        · subst same
          cases sameTable found
          exact .deeper sets.found (adds.kept _ taken)
        · exact .deeper ((sets.others other same).trans found) taken
  · intro entry member
    obtain ⟨inside, listed, rfl⟩ := List.mem_map.mp member
    exact .deeper sets.found (adds.taken inside listed)
  · intro entry member taken
    obtain ⟨inside, listed, rfl⟩ := List.mem_map.mp member
    rw [List.singleton_append] at taken
    generalize path : inside.1 = rest at taken
    cases taken with
    | here found => exact noValue found
    | deeper found taken =>
        cases sameTable found
        exact adds.fresh inside listed (path ▸ taken)
  · rw [under, List.map_map]
    have paths : Prod.fst ∘ (fun entry : List String × Value => ([key] ++ entry.1, entry.2)) =
        (key :: ·) ∘ Prod.fst := rfl
    rw [paths, ← List.map_map]
    exact adds.distinct.map (List.cons_injective)
  · intro free
    refine sets.listFree nofun (fun _ _ same => ?_) free
    cases same
    obtain ⟨_, inside⟩ := free
    rcases before with ⟨_, rfl⟩ | ⟨_, there⟩
    · exact adds.listFree listFree_nil
    · exact adds.listFree (inside _ _ _ (Entries.mem_of_lookup there))

end Adds

/-! ## Assignments and headers -/

theorem adds_assignAt {last : String} {value : Value} {path : List String} {table after : Entries Item}
    (assigned : assignAt last value path table = some after) :
    Adds [(path ++ [last], value)] table after := by
  induction path generalizing table after with
  | nil =>
      rw [assignAt] at assigned
      split at assigned
      · cases assigned
      · rename_i free
        cases assigned
        exact .value free value
  | cons first rest ih =>
      rw [assignAt] at assigned
      split at assigned
      · rename_i free
        obtain ⟨inner, changed, rfl⟩ := Option.map_eq_some_iff.mp assigned
        exact (ih changed).inner (Or.inl ⟨free, rfl⟩) (Sets.append free _)
      · rename_i origin inner there
        split at assigned
        · cases assigned
        · obtain ⟨changed, made, rfl⟩ := Option.map_eq_some_iff.mp assigned
          exact (ih made).inner (Or.inr ⟨origin, there⟩) (Sets.put first _ table)
      · cases assigned

/-- The full paths of assignments with their values. -/
def placed (assignments : List (Key × Value)) : List (List String × Value) :=
  assignments.map fun (key, value) => (key.full, value)

theorem adds_fill {assignments : List (Key × Value)} {table after : Entries Item}
    (filled : fill assignments table = some after) : Adds (placed assignments) table after := by
  induction assignments generalizing table with
  | nil =>
      cases filled
      exact .refl _
  | cons first rest ih =>
      rw [fill, List.foldlM_cons] at filled
      obtain ⟨between, assigned, later⟩ := Option.bind_eq_some_iff.mp filled
      exact (adds_assignAt assigned).trans (ih later)

/-- What is added to the table at the end of a path. -/
theorem adds_changeAt {change : Entries Item → Option (Entries Item)}
    {added : List (List String × Value)}
    (adds : ∀ {table after}, ListFree table → change table = some after → Adds added table after)
    {path : List String} {table after : Entries Item} (free : ListFree table)
    (changed : changeAt change path table = some after) : Adds (under path added) table after := by
  induction path generalizing table after with
  | nil =>
      have same : under [] added = added := List.map_id' added
      rw [same]
      exact adds free changed
  | cons first rest ih =>
      have split : under (first :: rest) added = under [first] (under rest added) := by
        rw [under, under, under, List.map_map]
        rfl
      obtain ⟨noList, inside⟩ := free
      rw [split]
      rw [changeAt] at changed
      split at changed
      · rename_i absent
        obtain ⟨inner, made, rfl⟩ := Option.map_eq_some_iff.mp changed
        exact (ih listFree_nil made).inner (Or.inl ⟨absent, rfl⟩) (Sets.append absent _)
      · rename_i origin inner there
        obtain ⟨grown, made, rfl⟩ := Option.map_eq_some_iff.mp changed
        exact (ih (inside _ _ _ (Entries.mem_of_lookup there)) made).inner (Or.inr ⟨origin, there⟩)
          (Sets.put first _ table)
      · rename_i there
        exact absurd (Entries.mem_of_lookup there) (noList _ _ _)
      · cases changed

/-- A section adds its assignments below its name. -/
theorem adds_addTo {part : Section} (single : part.isListed = false) {parent after : Entries Item}
    (added : part.addTo parent = some after) :
    Adds (under [part.key.last] (placed part.assignments)) parent after := by
  rw [Section.addTo, single] at added
  split at added
  · rename_i absent _
    obtain ⟨table, filled, rfl⟩ := Option.map_eq_some_iff.mp added
    exact (adds_fill filled).inner (Or.inl ⟨absent, rfl⟩) (Sets.append absent _)
  · rename_i inner there _
    obtain ⟨table, filled, rfl⟩ := Option.map_eq_some_iff.mp added
    exact (adds_fill filled).inner (Or.inr ⟨_, there⟩) (Sets.moved _ _ parent)
  · rename_i impossible
    cases impossible
  · rename_i impossible
    cases impossible
  · cases added

/-! ## Documents -/

/-- The full paths of the assignments of lines below a header, with their values. -/
def assigned : List String → List Line → List (List String × Value)
  | _, [] => []
  | header, .assignment key value :: rest => (header ++ key.full, value) :: assigned header rest
  | _, .header _ key :: rest => assigned key.full rest

/-- The full paths of the assignments of a section, with their values. -/
def Section.assigned (part : Section) : List (List String × Value) :=
  under part.key.full (placed part.assignments)

theorem assigned_eq (header : List String) (lines : List Line) :
    assigned header lines =
      under header (placed (sections lines).1) ++ (sections lines).2.flatMap Section.assigned := by
  induction lines generalizing header with
  | nil => rfl
  | cons line rest ih =>
      cases line with
      | assignment key value =>
          rw [assigned, ih]
          rfl
      | header isListed key =>
          rw [assigned, ih]
          rfl

theorem single_of_mem_sections {lines : List Line} (single : ∀ key, Line.header true key ∉ lines) :
    ∀ part ∈ (sections lines).2, part.isListed = false := by
  induction lines with
  | nil => exact nofun
  | cons line rest ih =>
      have later := ih fun key member => single key (List.mem_cons_of_mem line member)
      cases line with
      | assignment key value => exact later
      | header isListed key =>
          refine List.forall_mem_cons.mpr ⟨?_, later⟩
          cases isListed with
          | false => rfl
          | true => exact absurd List.mem_cons_self (single key)

theorem adds_section {part : Section} (single : part.isListed = false) {root after : Entries Item}
    (free : ListFree root) (added : changeAt part.addTo part.key.path root = some after) :
    Adds part.assigned root after := by
  have path : part.assigned =
      under part.key.path (under [part.key.last] (placed part.assignments)) := by
    simp only [Section.assigned, Key.full, under, List.map_map, Function.comp_def, List.append_assoc]
  rw [path]
  exact adds_changeAt (fun _ grown => adds_addTo single grown) free added

theorem adds_sections {parts : List Section} (single : ∀ part ∈ parts, part.isListed = false)
    {root after : Entries Item} (free : ListFree root)
    (added : parts.foldlM (fun root part => changeAt part.addTo part.key.path root) root = some after) :
    Adds (parts.flatMap Section.assigned) root after := by
  induction parts generalizing root with
  | nil =>
      cases added
      exact .refl _
  | cons part rest ih =>
      rw [List.forall_mem_cons] at single
      rw [List.foldlM_cons] at added
      obtain ⟨between, first, later⟩ := Option.bind_eq_some_iff.mp added
      have adds := adds_section single.1 free first
      exact adds.trans (ih single.2 (adds.listFree free) later)

/-- A document has the values that its lines assign, each at a path of its own. -/
theorem adds_documentOf? {lines : List Line} (single : ∀ key, Line.header true key ∉ lines)
    {document : Entries Value} (made : documentOf? lines = some document) :
    ∃ root, document = closeEntries root ∧ Adds (assigned [] lines) [] root := by
  rw [documentOf?] at made
  dsimp only at made
  split at made
  · cases made
  · rename_i start filled
    obtain ⟨root, added, rfl⟩ := Option.map_eq_some_iff.mp made
    have own := adds_fill filled
    have later := adds_sections (single_of_mem_sections single) (own.listFree listFree_nil) added
    have same : under [] (placed (sections lines).1) = placed (sections lines).1 := List.map_id' _
    refine ⟨root, rfl, ?_⟩
    rw [assigned_eq, same]
    exact own.trans later

theorem mem_closeEntries {table : Entries Item} {key : String} {value : Value} :
    (key, value) ∈ closeEntries table ↔ ∃ item, (key, item) ∈ table ∧ value = item.close := by
  induction table with
  | nil => simp [closeEntries]
  | cons entry rest ih =>
      rw [closeEntries, List.mem_cons, ih]
      constructor
      · rintro (here | ⟨item, member, same⟩)
        · cases here
          exact ⟨entry.2, List.mem_cons_self, rfl⟩
        · exact ⟨item, List.mem_cons_of_mem _ member, same⟩
      · rintro ⟨item, member, same⟩
        rcases List.mem_cons.mp member with rfl | later
        · exact Or.inl (by rw [same])
        · exact Or.inr ⟨item, later, same⟩

/-- What stands at a key of a finished table is a value, or a table. -/
theorem ListFree.entry {table : Entries Item} (free : ListFree table) {key : String} {value : Value}
    (member : (key, value) ∈ closeEntries table) :
    (key, .value value) ∈ table ∨
      ∃ origin inner, (key, .table origin inner) ∈ table ∧ value = .mapping (closeEntries inner) := by
  obtain ⟨item, there, rfl⟩ := mem_closeEntries.mp member
  obtain ⟨noList, _⟩ := free
  cases item with
  | value it => exact Or.inl there
  | table origin inner => exact Or.inr ⟨origin, inner, there, rfl⟩
  | tables earlier entries => exact absurd there (noList _ _ _)

section Texts

variable {lines : List Line} (single : ∀ key, Line.header true key ∉ lines)
  (texts : ∀ entry ∈ assigned [] lines, ∃ text, entry.2 = .string text)
  {document : Entries Value} (made : documentOf? lines = some document)

include single made

theorem nodup_assigned : ((assigned [] lines).map Prod.fst).Nodup := by
  obtain ⟨_, _, adds⟩ := adds_documentOf? single made
  exact adds.distinct

include texts

/-- At the root of a document whose lines assign texts there are texts and tables. -/
theorem entry_documentOf? {key : String} {value : Value} (member : (key, value) ∈ document) :
    (∃ text, value = .string text) ∨
      ∃ entries, value = .mapping entries ∧
        ∀ name text, (name, .string text) ∈ entries → ([key, name], .string text) ∈ assigned [] lines := by
  obtain ⟨root, rfl, adds⟩ := adds_documentOf? single made
  have isAssigned {path : List String} {value : Value} (leaf : Leaf root path value) :
      (path, value) ∈ assigned [] lines :=
    (adds.leaf path value leaf).resolve_left (not_leaf_nil path value)
  have free := adds.listFree listFree_nil
  rcases free.entry member with there | ⟨origin, inner, there, rfl⟩
  · obtain ⟨text, isText⟩ := texts _ (isAssigned (.here there))
    exact Or.inl ⟨text, isText⟩
  · refine Or.inr ⟨_, rfl, fun name text listed => ?_⟩
    obtain ⟨_, inside⟩ := free
    rcases (inside _ _ _ there).entry listed with leaf | ⟨_, _, _, impossible⟩
    · exact isAssigned (.deeper there (.here leaf))
    · cases impossible

end Texts

end Phrasebook.Toml
