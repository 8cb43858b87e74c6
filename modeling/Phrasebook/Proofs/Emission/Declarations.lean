import Phrasebook.Proofs.Analysis
import Phrasebook.Proofs.Emission.Indentation
import Phrasebook.Proofs.Script.Token
import Phrasebook.Script.TopLevel

/-!
# What a main unit declares

The declarations at the top of a main unit are the two aliases and, where there is a provider, its
class and its constant, all under the configured names. Names are accepted one by one, so nothing
keeps two of them apart: the declarations clash just when configured names do that share a scope.
-/

namespace Phrasebook

namespace Script

open Code Text

/-! ## Lines that declare -/

/-- What a line declares at the outermost level, behind its margin. -/
def declaredBy? (indent : Indent) (line : Line) : Option Declared :=
  declared? (margin indent line.depth ++ line.text.toList)

/-- What lines declare at the outermost level. -/
def declaredIn (indent : Indent) (lines : List Line) : List Declared :=
  lines.filterMap (declaredBy? indent)

theorem declaredIn_append (indent : Indent) (front back : List Line) :
    declaredIn indent (front ++ back) = declaredIn indent front ++ declaredIn indent back :=
  List.filterMap_append

/-- Laid out code declares what its lines declare. -/
theorem declarations_render (indent : Indent) {lines : List Line}
    (tidy : ∀ line ∈ lines, line.IsTidy) :
    declarations (render indent lines) = declaredIn indent lines := by
  rw [declarations, splitLines_render indent tidy, List.filterMap_map]
  rfl

/-- A line with a margin declares nothing. -/
theorem declared?_margin (indent : Indent) (depth : Nat) (text : List Char) :
    declared? (margin indent (depth + 1) ++ text) = none := by
  rw [margin, List.replicate_succ, List.flatten_cons]
  unfold Indent.unit
  split
  · rfl
  · rfl
  · rfl
  · rfl

/-- At the outermost level a line has no margin. -/
theorem declaredIn_top (indent : Indent) (text : String) :
    declaredIn indent [⟨0, text⟩] = (declared? text.toList).toList := by
  have noMargin : declaredBy? indent ⟨0, text⟩ = declared? text.toList := rfl
  cases found : declared? text.toList with
  | none => exact List.filterMap_cons_none (noMargin.trans found)
  | some one => exact List.filterMap_cons_some (noMargin.trans found)

theorem declaredIn_deep (indent : Indent) (depth : Nat) (text : String) :
    declaredIn indent [⟨depth + 1, text⟩] = [] := by
  have none : declaredBy? indent ⟨depth + 1, text⟩ = none := declared?_margin indent depth text.toList
  rw [declaredIn, List.filterMap_cons_none none, List.filterMap_nil]

mutual

/-- Below the outermost level a fragment declares nothing. -/
theorem declaredIn_lines_deep (indent : Indent) (depth : Nat) :
    ∀ fragment : Fragment, declaredIn indent (fragment.lines (depth + 1)) = []
  | .line text => declaredIn_deep indent depth text
  | .blank => rfl
  | .block header body none => by
      rw [Fragment.lines, List.append_nil, ← List.singleton_append, declaredIn_append,
        declaredIn_deep, declaredIn_linesOfAll_deep indent (depth + 1) body, List.append_nil]
  | .block header body (some close) => by
      rw [Fragment.lines, ← List.singleton_append, declaredIn_append, declaredIn_append,
        declaredIn_deep, declaredIn_linesOfAll_deep indent (depth + 1) body, declaredIn_deep,
        List.append_nil, List.append_nil]

theorem declaredIn_linesOfAll_deep (indent : Indent) (depth : Nat) :
    ∀ fragments : List Fragment, declaredIn indent (Fragment.linesOfAll (depth + 1) fragments) = []
  | [] => rfl
  | first :: rest => by
      rw [Fragment.linesOfAll, declaredIn_append, declaredIn_lines_deep indent depth first,
        declaredIn_linesOfAll_deep indent depth rest, List.append_nil]

end

/-! ## Fragments that declare -/

/-- A fragment that declares some names when it stands at the outermost level. -/
def Declares (fragment : Fragment) (found : List Declared) : Prop :=
  ∀ indent, declaredIn indent (fragment.lines 0) = found

theorem Declares.only {fragment : Fragment} {found : List Declared} (declares : Declares fragment found)
    (indent : Indent) : declaredIn indent (Fragment.linesOfAll 0 [fragment]) = found := by
  rw [Fragment.linesOfAll, Fragment.linesOfAll, List.append_nil, declares indent]

theorem Declares.line {text : String} {found : Option Declared}
    (opens : declared? text.toList = found) : Declares (.line text) found.toList :=
  fun indent => opens ▸ declaredIn_top indent text

/-- A block declares what its first line declares, if its last one opens no declaration. -/
theorem Declares.block {header close : String} {found : Option Declared} (body : List Fragment)
    (opens : declared? header.toList = found) (ends : declared? close.toList = none) :
    Declares (.block header body (some close)) found.toList := by
  intro indent
  rw [Fragment.lines, ← List.singleton_append, declaredIn_append, declaredIn_append,
    declaredIn_top, declaredIn_linesOfAll_deep, declaredIn_top, opens, ends, Option.toList_none,
    List.append_nil, List.append_nil]

/-! ## Declared names -/

/-- A line declares the name that stands behind the word of a kind. -/
theorem declared?_opened {opening name gap : String} {kind : DeclarationKind}
    (opens : ∀ rest, openedKind? (opening.toList ++ rest) = some (kind, rest))
    (identifier : isIdentifier name = true) (ends : gap.toList.head?.any (!isNameRest ·) = true)
    (rest : List Char) :
    declared? ((opening ++ name ++ gap).toList ++ rest) = some ⟨kind, name⟩ := by
  obtain ⟨c, isHead, apart⟩ := (Option.any_eq_true _ _).mp ends
  obtain ⟨others, spelled⟩ := List.head?_eq_some_iff.mp isHead
  rw [Bool.not_eq_true'] at apart
  rw [declared?, String.toList_append, String.toList_append, List.append_assoc, List.append_assoc,
    opens, spelled]
  dsimp only [List.cons_append]
  rw [token?_word identifier apart]

theorem Union.declares {it : Union} (identifier : isIdentifier it.name = true) :
    Declares it.fragment [⟨.ofAlias, it.name⟩] := by
  have named (rest : String) :
      declared? ("export type " ++ it.name ++ " = " ++ rest ++ ";").toList = some ⟨.ofAlias, it.name⟩ := by
    rw [String.toList_append, String.toList_append, List.append_assoc]
    exact declared?_opened (fun _ => rfl) identifier (by decide) _
  exact Declares.line (named _)

/-- An exported alias of a literal type. -/
theorem Alias.declares {name : String} (members : List (String × TypeExpr))
    (identifier : isIdentifier name = true) :
    Declares (Alias.fragment { name := name, type := .literal members }) [⟨.ofAlias, name⟩] := by
  have named (rest : List Char) :
      declared? (("export " ++ "type " ++ name ++ " = ").toList ++ rest) = some ⟨.ofAlias, name⟩ :=
    declared?_opened (fun _ => rfl) identifier (by decide) rest
  cases members with
  | nil =>
      refine @Declares.line _ (some ⟨.ofAlias, name⟩) ?_
      rw [String.toList_append, String.toList_append, List.append_assoc]
      exact named _
  | cons first rest =>
      refine @Declares.block _ _ (some ⟨.ofAlias, name⟩) _ ?_ rfl
      rw [String.toList_append]
      exact named _

theorem Class.declares {it : Class} (identifier : isIdentifier it.name = true) :
    Declares it.fragment [⟨.ofClass, it.name⟩] := by
  refine @Declares.block _ _ (some ⟨.ofClass, it.name⟩) _ ?_ rfl
  rw [← List.append_nil (String.toList _)]
  refine declared?_opened (fun rest => ?_) identifier (by decide) []
  cases it.exported <;> cases it.declared <;> rfl

/-- A constant that is made by a constructor with arguments. -/
theorem Const.declares_construct {name className : String} (first : Expr) (rest : List Expr)
    (identifier : isIdentifier name = true) :
    Declares (Const.fragment { name := name, value := some (.construct className (first :: rest)) })
      [⟨.ofConst, name⟩] := by
  have opens (rest : List Char) :
      openedKind? ((exportWord false ++ "const ").toList ++ rest) = some (.ofConst, rest) := rfl
  refine @Declares.block _ _ (some ⟨.ofConst, name⟩) _ ?_ rfl
  unfold annotation
  rw [String.append_empty, String.toList_append]
  exact declared?_opened opens identifier (by decide) _

/-- A constant that is only announced. -/
theorem Const.declares_announced {name : String} (type : String)
    (identifier : isIdentifier name = true) :
    Declares (Const.fragment { name := name, type := some type }) [⟨.ofConst, name⟩] := by
  have opens (rest : List Char) :
      openedKind? ((exportWord false ++ "declare const ").toList ++ rest) = some (.ofConst, rest) := rfl
  refine @Declares.line _ (some ⟨.ofConst, name⟩) ?_
  unfold annotation
  rw [← String.append_assoc, String.toList_append, String.toList_append, List.append_assoc]
  exact declared?_opened opens identifier (by decide) _

/-- Exporting a name declares none. -/
theorem Export.declares_raw (code : String) (indent : Indent) :
    declaredIn indent (Fragment.linesOfAll 0 (Export.fragments { default := some (.raw code) })) = [] := by
  have nothing : declared? ("export default " ++ code ++ ";").toList = none := by
    rw [String.toList_append, String.toList_append, List.append_assoc]
    rfl
  exact (Declares.line nothing).only indent

/-- Exporting an object of a type declares no name. -/
theorem Export.declares_object (properties : List (String × Expr)) (type : String) (indent : Indent) :
    declaredIn indent (Fragment.linesOfAll 0
      (Export.fragments { default := some (.ascribed (.object properties) type) })) = [] := by
  cases properties with
  | nil =>
      have nothing : declared? ("export default " ++ ("\x7b\x7d" ++ (" as " ++ type)) ++ ";").toList =
          none := by
        rw [String.toList_append, String.toList_append, List.append_assoc]
        rfl
      exact (Declares.line nothing).only indent
  | cons first rest =>
      have ends : declared? ("\x7d" ++ (" as " ++ type) ++ ";").toList = none := by
        rw [String.toList_append, String.toList_append, List.append_assoc]
        rfl
      exact (@Declares.block ("export default " ++ "\x7b") _ none
        (Expr.propertyFragments (first :: rest)) rfl ends).only indent

/-! ## Source files -/

/-- The body of a file declares what its declarations declare in turn. -/
theorem SourceFile.declaredIn_bodyLines {indent : Indent} {body : List Fragment}
    {founds : List (List Declared)} (each : List.Forall₂ Declares body founds) :
    declaredIn indent (bodyLines (body.map fun fragment => [fragment])) = founds.flatten := by
  induction each with
  | nil => rfl
  | @cons fragment found body founds first rest ih =>
      have here := first.only indent
      cases rest with
      | nil =>
          rw [List.flatten_singleton]
          exact here
      | cons second rest =>
          rw [List.map_cons, List.map_cons, bodyLines, declaredIn_append, here,
            ← List.singleton_append, declaredIn_append]
          exact congrArg (found ++ ·) ih

/-- A file without imports whose exports declare nothing declares what its body does. -/
theorem SourceFile.declaredIn_lines {indent : Indent} {body : List Fragment}
    {founds : List (List Declared)} (each : List.Forall₂ Declares body founds) {it : Export}
    (exports : declaredIn indent (Fragment.linesOfAll 0 it.fragments) = []) :
    declaredIn indent
      (SourceFile.lines { body := body.map fun fragment => [fragment], exports := [it] }) =
        founds.flatten := by
  have separation (condition : Bool) :
      declaredIn indent (if condition then [] else [emptyLine]) = [] := by
    cases condition <;> rfl
  have exported : [it].flatMap Export.fragments = it.fragments := by
    rw [List.flatMap_cons, List.flatMap_nil, List.append_nil]
  rw [SourceFile.lines, declaredIn_append, declaredIn_append, declaredIn_append, separation,
    declaredIn_bodyLines each, exported, exports, List.append_nil, List.append_nil]
  rfl

end Script

namespace Emission

open Script

/-- The declarations of a main unit, by the names that are configured for them. -/
def declaredNames (options : EmissionOptions) : List Declared :=
  [⟨.ofAlias, options.naming.languageType⟩, ⟨.ofAlias, options.naming.rootType⟩] ++
    match options.target with
    | .resource => []
    | .provider | .type =>
        [⟨.ofClass, options.naming.providerClass⟩, ⟨.ofConst, options.naming.providerName⟩]

/-- The lines of a main unit declare the configured names. -/
theorem declaredIn_mainFile {schema : Schema} {options : EmissionOptions} {default : String}
    {file : SourceFile} (valid : options.naming.validate = .ok ())
    (written : mainFile schema options default = .ok file) (indent : Code.Indent) :
    declaredIn indent file.lines = declaredNames options := by
  have plain {role name : String} (listed : (role, name) ∈ options.naming.roles) :
      isIdentifier name = true := (Naming.declarable_of_validate valid listed).1
  have rootType : isIdentifier options.naming.rootType = true :=
    plain (show ("root type", options.naming.rootType) ∈ options.naming.roles by
      simp [Naming.roles])
  have languageType : isIdentifier options.naming.languageType = true :=
    plain (show ("language type", options.naming.languageType) ∈ options.naming.roles by
      simp [Naming.roles])
  have className : isIdentifier options.naming.providerClass = true :=
    plain (show ("provider class", options.naming.providerClass) ∈ options.naming.roles by
      simp [Naming.roles])
  have providerName : isIdentifier options.naming.providerName = true :=
    plain (show ("provider name", options.naming.providerName) ∈ options.naming.roles by
      simp [Naming.roles])
  have languages : Declares (languageUnion schema options.naming).fragment
      [⟨.ofAlias, options.naming.languageType⟩] := Union.declares languageType
  have root : Declares (rootAlias schema options.naming).fragment
      [⟨.ofAlias, options.naming.rootType⟩] := Alias.declares _ rootType
  have provider (isLazy declared : Bool) :
      Declares (providerClass options.naming isLazy declared).fragment
        [⟨.ofClass, options.naming.providerClass⟩] := Class.declares className
  rw [mainFile] at written
  split at written
  · rename_i target
    obtain ⟨map, mapped, rfl⟩ := ok_of_map_eq_ok written
    obtain ⟨properties, _, rfl⟩ := ok_of_map_eq_ok mapped
    rw [declaredNames, target]
    exact SourceFile.declaredIn_lines (.cons languages (.cons root .nil))
      (Export.declares_object properties _ indent)
  · rename_i target
    obtain ⟨map, _, rfl⟩ := ok_of_map_eq_ok written
    rw [declaredNames, target]
    exact SourceFile.declaredIn_lines (.cons languages (.cons root (.cons (provider _ _)
      (.cons (Const.declares_construct _ _ providerName) .nil)))) (Export.declares_raw _ indent)
  · rename_i target
    cases written
    rw [declaredNames, target]
    exact SourceFile.declaredIn_lines (.cons languages (.cons root (.cons (provider _ _)
      (.cons (Const.declares_announced _ providerName) .nil)))) (Export.declares_raw _ indent)

/-- The text of a main unit declares the configured names, which are accepted. -/
theorem declarations_of_generate {schema : Schema} {options : EmissionOptions} {artifact : Artifact}
    (outcome : generate schema options = .ok artifact) :
    options.naming.validate = .ok () ∧ declarations artifact.main = declaredNames options := by
  rw [generate] at outcome
  split at outcome
  · cases outcome
  · rename_i valid
    have tidy := Naming.isTidy_of_validate valid
    refine ⟨valid, ?_⟩
    split at outcome
    · cases outcome
    · split at outcome
      · cases outcome
      · rename_i file written
        have main : declarations (file.render options.indent) = declaredNames options := by
          rw [SourceFile.render, declarations_render _
            (SourceFile.lines_isTidy (mainFile_isTidy tidy written))]
          exact declaredIn_mainFile valid written _
        dsimp only at outcome
        split at outcome
        · obtain ⟨units, _, rfl⟩ := ok_of_map_eq_ok outcome
          exact main
        · cases outcome
          exact main

/-- Whether no two declarations take the same name for the same. -/
def ClashFree (declared : List Declared) : Prop :=
  declared.Pairwise fun one other => one.clashes other = false

instance (declared : List Declared) : Decidable (ClashFree declared) :=
  inferInstanceAs (Decidable (List.Pairwise _ _))

/-- An alias and a constant may share a name; every other two of the declarations may not. -/
theorem clashFree_provider_iff (language root provider const : String) :
    ClashFree [⟨.ofAlias, language⟩, ⟨.ofAlias, root⟩, ⟨.ofClass, provider⟩, ⟨.ofConst, const⟩] ↔
      language ≠ root ∧ provider ≠ language ∧ provider ≠ root ∧ provider ≠ const := by
  have pairs : ClashFree [⟨.ofAlias, language⟩, ⟨.ofAlias, root⟩, ⟨.ofClass, provider⟩, ⟨.ofConst, const⟩] ↔
      (language ≠ root ∧ language ≠ provider) ∧ root ≠ provider ∧ provider ≠ const := by
    simp [ClashFree, Declared.clashes, DeclarationKind.namesType, DeclarationKind.namesValue]
  rw [pairs, and_assoc, @ne_comm _ language provider, @ne_comm _ root provider]

theorem clashFree_declaredNames_iff (options : EmissionOptions) :
    ClashFree (declaredNames options) ↔
      options.naming.languageType ≠ options.naming.rootType ∧
        (options.target = .resource ∨
          options.naming.providerClass ≠ options.naming.languageType ∧
          options.naming.providerClass ≠ options.naming.rootType ∧
          options.naming.providerClass ≠ options.naming.providerName) := by
  rw [declaredNames]
  cases options.target with
  | resource => simp [ClashFree, Declared.clashes, DeclarationKind.namesType]
  | provider => simpa using clashFree_provider_iff _ _ _ _
  | type => simpa using clashFree_provider_iff _ _ _ _

/-- A main unit is generated only under names that are accepted, and declares the aliases, the class
and the constant that its target has under these names. Its declarations are free of clashes just
when the names of the aliases differ and, where there is a provider, the name of its class is none of
the others. -/
theorem generate_declares {schema : Schema} {options : EmissionOptions} {artifact : Artifact}
    (outcome : generate schema options = .ok artifact) :
    options.naming.validate = .ok () ∧ declarations artifact.main = declaredNames options ∧
      (ClashFree (declarations artifact.main) ↔
        options.naming.languageType ≠ options.naming.rootType ∧
          (options.target = .resource ∨
            options.naming.providerClass ≠ options.naming.languageType ∧
            options.naming.providerClass ≠ options.naming.rootType ∧
            options.naming.providerClass ≠ options.naming.providerName)) := by
  obtain ⟨valid, declared⟩ := declarations_of_generate outcome
  refine ⟨valid, declared, ?_⟩
  rw [declared]
  exact clashFree_declaredNames_iff options

/-- A declared provider under names of its own. -/
def clearOptions : EmissionOptions where
  target := .type
  naming := { rootType := "Messages", languageType := "Locale", providerClass := "Phrases" }

/-- Four declarations without a clash, though the alias of the messages is named in the class. -/
theorem generate_declares_medals :
    ∃ artifact, generate medalSchema clearOptions = .ok artifact ∧
      declarations artifact.main = [⟨.ofAlias, "Locale"⟩, ⟨.ofAlias, "Messages"⟩, ⟨.ofClass, "Phrases"⟩,
        ⟨.ofConst, "provider"⟩] ∧ ClashFree (declarations artifact.main) := by
  obtain ⟨artifact, outcome⟩ : ∃ artifact, generate medalSchema clearOptions = .ok artifact :=
    ⟨_, rfl⟩
  obtain ⟨_, declared, clashFree⟩ := generate_declares outcome
  exact ⟨artifact, outcome, declared, clashFree.mpr (by decide)⟩

/-- One name for both aliases. -/
def doubledOptions : EmissionOptions where
  target := .resource
  naming := { rootType := "Messages", languageType := "Messages" }

/-- Accepted names can clash: both aliases of a generated unit take the same name. -/
theorem accepted_names_clash :
    ¬ ∀ (schema : Schema) (options : EmissionOptions) (artifact : Artifact),
      options.naming.validate = .ok () → generate schema options = .ok artifact →
      ClashFree (declarations artifact.main) := by
  intro always
  obtain ⟨artifact, outcome⟩ : ∃ artifact, generate medalSchema doubledOptions = .ok artifact :=
    ⟨_, rfl⟩
  obtain ⟨valid, declared⟩ := declarations_of_generate outcome
  have apart := always medalSchema doubledOptions artifact valid outcome
  rw [declared] at apart
  exact absurd apart (by decide)

end Emission

end Phrasebook
