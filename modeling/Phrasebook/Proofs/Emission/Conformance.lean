import Phrasebook.Emission.Shape
import Phrasebook.Proofs.Emission.Arrangement

/-!
# Emitted literals have the emitted type

The type of a schema comes from its canonical tree, and the functions in a literal carry the
parameters of the language they are from. The two fit, since a language that agrees with the
canonical tree has the same parameters at every call, and since types list the parameters of
a call in one order.
-/

namespace Phrasebook.Emission

open Node Script

mutual

/-- Whether an expression has a type. A text has the type of strings, an object has that of a
literal with a member for each property, and a function has the type that gives its options as
the function itself does, if the code of the function reads no options but members of that. -/
inductive Conforms : Expr → TypeExpr → Prop where
  | text (value : String) : Conforms (.text value) (.raw "string")
  | function {arrow : Arrow} {members : List (String × TypeExpr)} {body : Body}
      (params : arrow.params = "options: " ++ (TypeExpr.literal members).inline)
      (reads : Reading.ofCode? arrow.code = some (.function (Entries.keys members) body))
      (known : ∀ name ∈ body.paramsInOrder, name ∈ Entries.keys members) :
      Conforms (.arrow arrow)
        (.raw ("(options: " ++ (TypeExpr.literal members).inline ++ ") => " ++ "string"))
  | object {properties : List (String × Expr)} {members : List (String × TypeExpr)}
      (inner : ConformsAll properties members) : Conforms (.object properties) (.literal members)

/-- Properties with the keys of the members, in the same order, and values of their types. -/
inductive ConformsAll : List (String × Expr) → List (String × TypeExpr) → Prop where
  | nil : ConformsAll [] []
  | cons {value : Expr} {type : TypeExpr} {properties : List (String × Expr)}
      {members : List (String × TypeExpr)} (key : String) (first : Conforms value type)
      (rest : ConformsAll properties members) :
      ConformsAll ((key, value) :: properties) ((key, type) :: members)

end

/-- A function fits the type of any call with the same parameters. -/
theorem callArrow_conforms {expected found : Body} (params : expected.paramSet = found.paramSet) :
    Conforms (.arrow (callArrow found)) (.raw (callType expected)) := by
  have reads := ofCode?_callArrow found
  have known : ∀ name ∈ found.paramsInOrder, name ∈ found.params := fun name =>
    Body.mem_params.mpr
  have members : Entries.keys (found.params.map fun name => (name, TypeExpr.raw paramType)) =
      found.params :=
    (Entries.keys_map id _ found.params).trans (List.map_id found.params)
  rw [← members] at reads known
  rw [callType, optionsType_eq params]
  exact .function rfl reads known

/-- Properties for the canonical entries fit their types when each value does. -/
theorem propertiesOf_conform
    {language entries : List (String × Node)}
    (each : ∀ key expected, (key, expected) ∈ entries → ∃ found,
      List.lookup key language = some found ∧
      Conforms (literalOf (arranged expected found)) (nodeType expected)) :
    ConformsAll (propertiesOf (arrangedEntries language entries)) (memberTypes entries) := by
  induction entries with
  | nil => exact .nil
  | cons entry rest ih =>
      obtain ⟨key, expected⟩ := entry
      obtain ⟨found, present, conforms⟩ := each key expected List.mem_cons_self
      rw [arrangedEntries, present]
      exact .cons key conforms
        (ih fun other node member => each other node (List.mem_cons_of_mem _ member))

/-- The literal of a node that agrees with the canonical one has the type of that. -/
theorem literalOf_conforms
    {expected found : Node} (agree : Agree expected found) (distinct : expected.Distinct) :
    Conforms (literalOf (arranged expected found)) (nodeType expected) := by
  induction agree with
  | text expected found => exact .text found
  | call params => exact callArrow_conforms params
  | @record isOpen isFound schema incoming keys inner ih =>
      refine .object (propertiesOf_conform fun key expected member => ?_)
      obtain ⟨known, found, present⟩ := Entries.lookups_of_mem distinct.here keys member
      exact ⟨found, present, ih key expected found known present (distinct.of_mem member)⟩

/-- Every language of a schema has a literal, and the literal has the type of the canonical tree
of the schema. -/
theorem treeLiteral_conforms
    {documents : List (Named Document)} {schema : Schema}
    (accepted : analyze documents = .ok schema) {language : Named Tree}
    (listed : language ∈ schema.languages) :
    ∃ literal, treeLiteral schema.canonical language.value = .ok literal ∧
      Conforms literal (treeType schema.canonical) := by
  have agree := agree_of_analyze accepted language listed
  have distinct := schema.canonical.distinct_toNode
  exact ⟨_, literalAt_eq agree distinct [], literalOf_conforms agree distinct⟩

/-- The literal of a language that has its keys, and the parameters of a call, in another order
than the type. -/
theorem medals_conform :
    ∃ literal, treeLiteral medalsEnglish medalsChinese = .ok literal ∧
      Conforms literal (.literal
        [("won", .raw "(options: \x7b rank: string | number; who: string | number \x7d) => string"),
         ("dialog", .literal [("ok", .raw "string")])]) := by
  have listed : ⟨"zh", medalsChinese⟩ ∈ medalSchema.languages :=
    List.mem_cons_of_mem _ List.mem_cons_self
  have type : treeType medalSchema.canonical = .literal
      [("won", .raw "(options: \x7b rank: string | number; who: string | number \x7d) => string"),
       ("dialog", .literal [("ok", .raw "string")])] := by
    rfl
  have conforms := treeLiteral_conforms analyze_medals listed
  rwa [type] at conforms

end Phrasebook.Emission
