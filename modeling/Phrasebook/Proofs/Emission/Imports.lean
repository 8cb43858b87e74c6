import Phrasebook.Proofs.Emission.Layout
import Phrasebook.Proofs.Emission.Silence
import Phrasebook.Proofs.Emission.Units

/-!
# What generated units import

When units are split, the map of languages has a function for every language but the default
one, which imports the unit of this language. The unit of a language imports the root type from
the main unit. Apart from these, generated units refer to no module, whatever the texts and the
names of the languages are.
-/

namespace Phrasebook

open Code Script Text

namespace Emission

/-! ## The map of languages -/

mutual

/-- What is emitted for a part of a tree is the expression of a node. -/
theorem exists_literalOf :
    ∀ (expected found : Node) (path : KeyPath) {expr : Expr},
      literalAt path expected found = .ok expr → ∃ node, expr = literalOf node
  | .text _, .text value, _, _, rfl => ⟨.text value, rfl⟩
  | .call _, .call body, _, _, rfl => ⟨.call body, rfl⟩
  | .record isOpen entries, .record _ language, path, _, outcome => by
      rw [literalAt] at outcome
      obtain ⟨properties, written, rfl⟩ := ok_of_map_eq_ok outcome
      obtain ⟨nodes, rfl⟩ := exists_propertiesOf entries path language written
      exact ⟨.record isOpen nodes, rfl⟩

theorem exists_propertiesOf :
    ∀ (entries : List (String × Node)) (path : KeyPath) (language : Entries Node)
      {properties : List (String × Expr)},
      propertiesAt path language entries = .ok properties →
      ∃ nodes, properties = propertiesOf nodes
  | [], _, _, _, outcome => by
      cases outcome
      exact ⟨[], rfl⟩
  | (key, expected) :: rest, path, language, _, outcome => by
      rw [propertiesAt] at outcome
      split at outcome
      · cases outcome
      · split at outcome
        · cases outcome
        · rename_i found _ _ value here
          obtain ⟨others, written, rfl⟩ := ok_of_map_eq_ok outcome
          obtain ⟨node, rfl⟩ := exists_literalOf expected found _ here
          obtain ⟨nodes, rfl⟩ := exists_propertiesOf rest path language written
          exact ⟨(key, node) :: nodes, rfl⟩

end

theorem exists_treeLiteralOf {canonical language : Tree} {expr : Expr}
    (outcome : treeLiteral canonical language = .ok expr) : ∃ node, expr = literalOf node := by
  obtain ⟨properties, written, rfl⟩ := ok_of_map_eq_ok outcome
  obtain ⟨nodes, rfl⟩ := exists_propertiesOf canonical.entries [] language.entries written
  exact ⟨.record false nodes, rfl⟩

/-- The tokens of the function that imports a module. -/
def loaderTokens (module : String) : List Token :=
  [.mark '(', .mark ')', .arrow, .word "import", .mark '(', .text module, .mark ')', .mark '.',
   .word "then", .mark '(', .mark '(', .word "m", .mark ')', .arrow, .word "m", .mark '.',
   .word "default", .mark ')']

theorem scans_loader (options : EmissionOptions) (language : String) :
    Scans (loader options language).code.toList (loaderTokens (options.importPrefix ++ language)) := by
  have arrow : Scans [')', ' ', '=', '>', ' '] [.mark ')', .arrow] :=
    .mark_cons (by decide) (.space_cons (Scans.arrow.append .space))
  have call : Scans ("import".toList ++ ['(']) [.word "import", .mark '('] :=
    ScansApart.word (by decide) '(' [] _ (by decide) (.mark (by decide))
  have default : Scans ("default".toList ++ [')']) [.word "default", .mark ')'] :=
    ScansApart.word (by decide) ')' [] _ (by decide) (.mark (by decide))
  have member : Scans ("m".toList ++ '.' :: ("default".toList ++ [')']))
      [.word "m", .mark '.', .word "default", .mark ')'] :=
    ScansApart.word (by decide) '.' _ _ (by decide) (.mark_cons (by decide) default)
  have param : Scans ("m".toList ++ [')', ' ', '=', '>', ' ']) [.word "m", .mark ')', .arrow] :=
    ScansApart.word (by decide) ')' _ _ (by decide) arrow
  have next : Scans ("then".toList ++ ['(', '(']) [.word "then", .mark '(', .mark '('] :=
    ScansApart.word (by decide) '(' _ _ (by decide) (.mark_cons (by decide) (.mark (by decide)))
  have close : Scans [')', '.'] [.mark ')', .mark '.'] := .mark_cons (by decide) (.mark (by decide))
  have whole := Scans.mark_cons (show '(' ∈ marks by decide) ((arrow.append call).append
    ((Scans.literal (options.importPrefix ++ language)).append
      ((close.append next).append (param.append member))))
  have code : (loader options language).code.toList =
      '(' :: ([')', ' ', '=', '>', ' '] ++ ("import".toList ++ ['(']) ++
        ((Quoted.encode (options.importPrefix ++ language)).toList ++
          ([')', '.'] ++ ("then".toList ++ ['(', '(']) ++
            ("m".toList ++ [')', ' ', '=', '>', ' '] ++
              ("m".toList ++ '.' :: ("default".toList ++ [')'])))))) := by
    simp [loader, Arrow.code]
  rw [code]
  exact whole

/-- The function that imports the unit of a language refers to this unit, and to nothing else. -/
theorem yields_loaderTokens (module : String) : Yields (loaderTokens module) [module] := by
  have params : Yields [.mark '(', .mark ')', .arrow] [] :=
    .mark_cons '(' (.mark_cons ')' (.arrow_cons .nil))
  have default : Quiet [.mark ')', .mark '.', .word "then", .mark '(', .mark '(', .word "m", .mark ')',
      .arrow, .word "m", .mark '.', .word "default"] :=
    .of_no_text (by simp)
  exact (params.append (.import_call module)).append (default ')' (by decide))

/-- The code of a loader refers to the module of its language. -/
theorem specifiers?_loader (options : EmissionOptions) (language : String) :
    specifiers? (loader options language).code = some [options.importPrefix ++ language] :=
  specifiers?_of_scans (scans_loader options language) (yields_loaderTokens _)

/-- What the map of languages imports: the units of all languages but the default one. -/
theorem languageProperties_refer {schema : Schema} {options : EmissionOptions} {default : String}
    (splits : options.splitsUnits = true) {languages : List (Named Tree)}
    {properties : List (String × Expr)}
    (outcome : languageProperties schema options default languages = .ok properties) :
    FragmentsRefer (Expr.propertyFragments properties)
      ((languages.filter fun language => language.name != default).map fun language =>
        options.importPrefix ++ language.name) := by
  have comma : Scans ",".toList [.mark ','] := .mark (by decide)
  induction languages generalizing properties with
  | nil =>
      cases outcome
      exact .nil
  | cons first rest ih =>
      rw [languageProperties] at outcome
      split at outcome
      · cases outcome
      · rename_i value here
        obtain ⟨others, written, rfl⟩ := ok_of_map_eq_ok outcome
        rw [languageExpr, splits, Bool.true_and] at here
        rw [Expr.propertyFragments, List.filter_cons]
        split at here
        · rename_i isOther
          cases here
          have yields := ((quiet_keyTokens first.name ':' (by decide)).append
            (yields_loaderTokens (options.importPrefix ++ first.name))).append (.mark ',')
          rw [if_pos isOther, List.map_cons]
          exact .cons (fun depth => .of_scans (fun indent => scans_dressed_line
            (scans_propertyKey first.name) (scans_loader options first.name) comma indent depth) yields)
            (ih written)
        · rename_i isDefault
          obtain ⟨node, rfl⟩ := exists_treeLiteralOf here
          have yields := ((quiet_keyTokens first.name ':' (by decide)).append
            (yields_nodeTokens node)).append (.mark ',')
          rw [if_neg isDefault]
          exact .cons_quiet (fun depth => .of_scans (fun indent => scans_literalOf indent node depth
            (scans_propertyKey first.name) comma) yields) (ih written)

/-- An object refers to what its properties refer to, between texts that refer to nothing. -/
theorem object_refers {properties : List (String × Expr)} {found : List String}
    (each : FragmentsRefer (Expr.propertyFragments properties) found) {front back : String}
    (opening : Unquoted front) (closing : Plain ("\x7d" ++ back)) (depth : Nat) :
    LinesRefer ((((Expr.object properties).fragment.prepend front).append back).lines depth) found := by
  have brace : Plain "\x7b" := by decide
  have header : Plain (front ++ "\x7b") := .prepend opening brace
  cases properties with
  | nil =>
      have whole : Plain (front ++ "\x7b\x7d" ++ back) := by
        have split : front ++ "\x7b\x7d" ++ back = front ++ "\x7b" ++ ("\x7d" ++ back) := by
          simp [String.append_assoc, ← String.toList_inj]
        rw [split]
        exact .prepend header.unquoted closing
      have lines := (each depth).append (.line whole.line depth)
      rw [List.append_nil] at lines
      exact lines
  | cons first rest => exact FragmentsRefer.block header.line each closing.line depth

/-- Texts behind an object come together. -/
theorem append_object (properties : List (String × Expr)) (front back more : String) :
    (((Expr.object properties).fragment.append back).prepend front).append more =
      ((Expr.object properties).fragment.prepend front).append (back ++ more) := by
  cases properties <;>
    simp [Expr.fragment, Fragment.prepend, Fragment.append, String.append_assoc]

/-! ## Units -/

section

variable {schema : Schema} {options : EmissionOptions} {default : String} {file : SourceFile}

/-- The languages whose units a main unit imports. -/
def importedModules (schema : Schema) (options : EmissionOptions) (default : String) : List String :=
  (separateLanguages schema default).map fun language => options.importPrefix ++ language.name

/-- The constructed provider refers to what the map of languages refers to. -/
theorem provider_refers {naming : Naming} {properties : List (String × Expr)} {found : List String}
    (each : FragmentsRefer (Expr.propertyFragments properties) found)
    (valid : naming.validate = .ok ()) (default : String) (depth : Nat) :
    LinesRefer ((Const.fragment
        { name := naming.providerName
          value := some (.construct naming.providerClass [.object properties, .text default]) }).lines
      depth) found := by
  obtain ⟨className, other⟩ := Naming.providerClass_of_validate valid
  have providerName := (Naming.isUnquoted_of_validate valid).providerName
  have equals : Plain ("" ++ "const " ++ naming.providerName ++ "" ++ " =") :=
    .prepend (((show Unquoted ("" ++ "const ") by decide).append providerName).append (by decide))
      (by decide)
  have word : Scans ("new".toList ++ [' ']) [.word "new"] :=
    ScansApart.word (by decide) ' ' [] _ (by decide) .space
  have new : Refers ("new".toList ++ [' ']) [] :=
    .of_scans word (apart_concat (by decide) (by decide)) (.word (by decide) (by decide))
  have header : LineRefers ("" ++ "const " ++ naming.providerName ++ "" ++ " = " ++
      ("new " ++ naming.providerClass ++ "(")) [] := by
    have line := (equals.space.append new).append
      (opening_refers className other)
    have code : ("" ++ "const " ++ naming.providerName ++ "" ++ " = " ++
          ("new " ++ naming.providerClass ++ "(")).toList ++ ['\n'] =
        ("" ++ "const " ++ naming.providerName ++ "" ++ " =").toList ++ [' '] ++
          ("new".toList ++ [' ']) ++ ((naming.providerClass ++ "(").toList ++ ['\n']) := by
      simp
    rw [LineRefers, code]
    exact line
  have map (depth : Nat) :
      LinesRefer (((Expr.object properties).fragment.append ",").lines depth) found := by
    have undressed : ((Expr.object properties).fragment.prepend "").append "," =
        (Expr.object properties).fragment.append "," := by
      cases properties <;> simp [Expr.fragment, Fragment.prepend, Fragment.append]
    rw [← undressed]
    exact object_refers each (by decide) (by decide) depth
  have start (depth : Nat) :
      LinesRefer ((Fragment.line (Quoted.encode default ++ ",")).lines depth) [] := by
    have comma : Plain "," := by decide
    have line := (Refers.literal default).append comma.line
    rw [← List.append_assoc, ← String.toList_append] at line
    exact .line line depth
  have closing : Plain ");" := by decide
  have arguments : FragmentsRefer
      [(Expr.object properties).fragment.append ",", .line (Quoted.encode default ++ ",")] found := by
    have whole := FragmentsRefer.cons map (.cons_quiet start .nil)
    rw [List.append_nil] at whole
    exact whole
  exact FragmentsRefer.block header arguments closing.line depth

/-- The map of languages is an object that refers to the imported units. -/
theorem languageMap_refers (splits : options.splitsUnits = true) {map : Expr}
    (written : languageMap schema options default = .ok map) :
    ∃ properties, map = .object properties ∧
      FragmentsRefer (Expr.propertyFragments properties)
        (importedModules schema options default) := by
  obtain ⟨properties, listed, rfl⟩ := ok_of_map_eq_ok written
  exact ⟨properties, rfl, languageProperties_refer splits listed⟩

/-- The map as an export by itself. -/
theorem exportedMap_refers {properties : List (String × Expr)} {found : List String}
    (each : FragmentsRefer (Expr.propertyFragments properties) found)
    (unquoted : options.naming.IsUnquoted) (depth : Nat) :
    LinesRefer ((((ascribedMap options (.object properties)).fragment.prepend
      "export default ").append ";").lines depth) found := by
  have closing : Plain ("\x7d" ++ (" as " ++ mapsType options.naming options.splitsUnits ++ ";")) :=
    .prepend (by decide) (.prepend ((show Unquoted " as " by decide).append
      (mapsType_unquoted unquoted _)) (by decide))
  rw [ascribedMap, Expr.fragment, append_object]
  exact object_refers each (by decide) closing depth

theorem exportedProvider_refers {naming : Naming} (unquoted : naming.IsUnquoted) :
    LinesRefer (Fragment.linesOfAll 0 [.line ("export default " ++ naming.providerName ++ ";")])
      [] := by
  have line : Plain ("export default " ++ naming.providerName ++ ";") :=
    .prepend ((show Unquoted "export default " by decide).append unquoted.providerName) (by decide)
  exact FragmentsRefer.line_cons line .nil 0

/-- The main unit imports the units of all languages but the default one, and nothing else. -/
theorem mainFile_refers (valid : options.naming.validate = .ok ()) (splits : options.splitsUnits = true)
    (outcome : mainFile schema options default = .ok file) :
    LinesRefer file.lines (importedModules schema options default) := by
  have unquoted := Naming.isUnquoted_of_validate valid
  have union := languageUnion_refers schema unquoted 0
  have root := rootAlias_refers schema unquoted
  rw [mainFile] at outcome
  split at outcome
  · obtain ⟨map, written, rfl⟩ := ok_of_map_eq_ok outcome
    obtain ⟨properties, rfl, each⟩ := languageMap_refers splits written
    exact SourceFile.lines_refer .nil (.cons union.fragment (.cons root.fragment .nil))
      (exportedMap_refers each unquoted 0).fragment rfl
  · obtain ⟨map, written, rfl⟩ := ok_of_map_eq_ok outcome
    obtain ⟨properties, rfl, each⟩ := languageMap_refers splits written
    have held := providerClass_refers unquoted 0
    have provider := provider_refers each valid default 0
    rw [splits, if_pos rfl]
    exact SourceFile.lines_refer .nil
      (.cons union.fragment (.cons root.fragment (.cons held.fragment (.cons provider.fragment .nil))))
      (exportedProvider_refers unquoted) (by simp)
  · rename_i isType
    exact absurd isType (splitsUnits_iff.mp splits).2

/-- An import refers to its module, whatever the name of the module is. -/
theorem import_refers {front : String} (plain : Plain front) (module : String) :
    LineRefers (front ++ " from " ++ Quoted.encode module ++ ";") [module] := by
  have source : Scans (' ' :: ((Quoted.encode module).toList ++ [';', '\n']))
      [.text module, .mark ';'] :=
    .space_cons ((Scans.literal module).append (.mark_cons (by decide) (.spaces (by decide))))
  have scans : Scans ("from".toList ++ ' ' :: ((Quoted.encode module).toList ++ [';', '\n']))
      [.word "from", .text module, .mark ';'] :=
    ScansApart.word (by decide) ' ' _ _ (by decide) source
  have split : "from".toList ++ ' ' :: ((Quoted.encode module).toList ++ [';', '\n']) =
      "from".toList ++ ' ' :: ((Quoted.encode module).toList ++ [';']) ++ ['\n'] := by
    simp
  rw [split] at scans
  have whole := plain.space.append
    (.of_scans scans (apart_concat (by decide) (by decide))
      ((Yields.from_text module).append (.mark ';')))
  have code : (front ++ " from " ++ Quoted.encode module ++ ";").toList ++ ['\n'] =
      front.toList ++ [' '] ++
        ("from".toList ++ ' ' :: ((Quoted.encode module).toList ++ [';']) ++ ['\n']) := by
    simp
  rw [LineRefers, code]
  exact whole

theorem append_literalOf (node : Node) (front back more : String) :
    (((literalOf node).fragment.append back).prepend front).append more =
      ((literalOf node).fragment.prepend front).append (back ++ more) := by
  cases node with
  | text value => simp [literalOf, Expr.fragment, Fragment.prepend, Fragment.append, String.append_assoc]
  | call body => simp [literalOf, Expr.fragment, Fragment.prepend, Fragment.append, String.append_assoc]
  | record isOpen entries => exact append_object (propertiesOf entries) front back more

/-- The literal of a language refers to nothing, whatever its messages are. -/
theorem exportedLiteral_refers {rootType : String} (identifier : isIdentifier rootType = true)
    (node : Node) (depth : Nat) :
    LinesRefer ((((Expr.ascribed (literalOf node) rootType).fragment.prepend
      "export default ").append ";").lines depth) [] := by
  have before : Scans "export default ".toList [.word "export", .word "default"] :=
    ScansApart.word (show isIdentifier "export" = true by decide) ' ' _ _ (by decide)
      (.space_cons (ScansApart.word (show isIdentifier "default" = true by decide) ' ' [] _ (by decide)
        .space))
  have behind : Scans (" as " ++ rootType ++ ";").toList [.word "as", .word rootType, .mark ';'] := by
    have root : Scans (rootType.toList ++ [';']) [.word rootType, .mark ';'] :=
      ScansApart.word identifier ';' [] _ (by decide) (.mark (by decide))
    have word : Scans ("as".toList ++ ' ' :: (rootType.toList ++ [';'])) _ :=
      ScansApart.word (by decide) ' ' _ _ (by decide) (.space_cons root)
    have code : (" as " ++ rootType ++ ";").toList =
        ' ' :: ("as".toList ++ ' ' :: (rootType.toList ++ [';'])) := by
      simp
    rw [code]
    exact .space_cons word
  have yields : Yields ([.word "export", .word "default"] ++ nodeTokens node ++
      [.word "as", .word rootType, .mark ';']) [] := by
    have words : Yields [.word "export", .word "default"] [] :=
      (Yields.word (by decide) (by decide)).append (.word (by decide) (by decide))
    have root : Quiet [.word "as", .word rootType] := .of_no_text (by simp)
    exact (words.append (yields_nodeTokens node)).append (root ';' (by decide))
  rw [Expr.fragment, append_literalOf]
  exact .of_scans (fun indent => scans_literalOf indent node depth before behind) yields

/-- The unit of a language imports the main unit, and nothing else. -/
theorem languageFile_refers (valid : options.naming.validate = .ok ()) {language : Named Tree}
    (outcome : languageFile schema options language = .ok file) :
    LinesRefer file.lines [options.importPrefix ++ options.mainModule] := by
  obtain ⟨literal, written, rfl⟩ := ok_of_map_eq_ok outcome
  obtain ⟨node, rfl⟩ := exists_treeLiteralOf written
  have rootType : isIdentifier options.naming.rootType = true :=
    (Naming.declarable_of_validate valid
      (show ("root type", options.naming.rootType) ∈ options.naming.roles by simp [Naming.roles])).1
  have listed : Unquoted (", ".intercalate [options.naming.rootType]) := by
    simpa using unquoted_of_isIdentifier rootType
  have front : Plain ("import " ++ typeWord true ++ braced [options.naming.rootType]) :=
    .prepend (by decide) (.prepend ((show Unquoted "\x7b " by decide).append listed) (by decide))
  have imported : LinesRefer ((Import.fragment
      { module := options.importPrefix ++ options.mainModule, named := [options.naming.rootType]
        typeOnly := true }).lines 0) [options.importPrefix ++ options.mainModule] :=
    .line (import_refers front _) 0
  exact SourceFile.lines_refer imported.fragment .nil (exportedLiteral_refers rootType node 0).fragment rfl

/-! ## Generated units -/

/-- The map of languages has the loader of every language but the default one. -/
theorem lookup_languageProperties (splits : options.splitsUnits = true)
    {languages : List (Named Tree)} {properties : List (String × Expr)}
    (outcome : languageProperties schema options default languages = .ok properties) {name : String}
    (listed : name ∈ languages.map Named.name) (isOther : name ≠ default) :
    List.lookup name properties = some (.arrow (loader options name)) := by
  induction languages generalizing properties with
  | nil => cases listed
  | cons first rest ih =>
      rw [languageProperties] at outcome
      split at outcome
      · cases outcome
      · rename_i value here
        obtain ⟨others, written, rfl⟩ := ok_of_map_eq_ok outcome
        rw [Entries.lookup_cons]
        split
        · rename_i same
          subst same
          have isLoaded : (true && first.name != default) = true := by simpa using isOther
          rw [languageExpr, splits, if_pos isLoaded] at here
          cases here
          rfl
        · rename_i differs
          exact ih written ((List.mem_cons.mp listed).resolve_left differs)

/-- The units of languages import the main unit. -/
theorem specifiers?_of_languageUnits (valid : options.naming.validate = .ok ())
    {languages : List (Named Tree)} {units : List (Named String)}
    (written : languageUnits schema options languages = .ok units) :
    ∀ unit ∈ units, specifiers? unit.value = some [options.importPrefix ++ options.mainModule] := by
  induction languages generalizing units with
  | nil =>
      cases written
      nofun
  | cons first rest ih =>
      rw [languageUnits] at written
      split at written
      · cases written
      · rename_i file here
        obtain ⟨others, behind, rfl⟩ := ok_of_map_eq_ok written
        rw [List.forall_mem_cons]
        exact ⟨(languageFile_refers valid here options.indent).specifiersIn?_eq, ih behind⟩

/-- When units are split, a generated artifact has a main unit that imports the unit of every
language but the default one, each through the loader of its language, and nothing else. The unit of
a language imports the main one, and nothing else. -/
theorem imports_of_generate {artifact : Artifact} (splits : options.splitsUnits = true)
    (outcome : generate schema options = .ok artifact)
    (starts : schema.defaultLanguage options.defaultLanguage = .ok default) :
    ∃ main units entries, artifact = .split main units ∧
      units.map Named.name = schema.languageNames.filter (fun name => name != default) ∧
      specifiers? main = some (units.map fun unit => options.importPrefix ++ unit.name) ∧
      HoldsMap options default main (.object entries) ∧
      ∀ unit ∈ units,
        List.lookup unit.name entries = some (.arrow (loader options unit.name)) ∧
          specifiers? unit.value = some [options.importPrefix ++ options.mainModule] := by
  rw [generate, starts] at outcome
  split at outcome
  · cases outcome
  · rename_i valid
    dsimp only at outcome
    split at outcome
    · cases outcome
    · rename_i file written
      rw [if_pos splits] at outcome
      obtain ⟨units, others, rfl⟩ := ok_of_map_eq_ok outcome
      obtain ⟨_, mapped, holds⟩ := holdsMap_of_mainFile written (splitsUnits_iff.mp splits).2
      obtain ⟨entries, listed, rfl⟩ := ok_of_map_eq_ok mapped
      have names : units.map Named.name = schema.languageNames.filter (fun name => name != default) := by
        rw [names_of_languageUnits others, separateLanguages, Schema.languageNames, List.filter_map]
        rfl
      refine ⟨_, units, entries, rfl, names, ?_, holds, fun unit member => ⟨?_, ?_⟩⟩
      · have modules : importedModules schema options default =
            units.map fun unit => options.importPrefix ++ unit.name := by
          have prefixed := congrArg (List.map fun name => options.importPrefix ++ name)
            (names_of_languageUnits others)
          rw [List.map_map, List.map_map] at prefixed
          exact prefixed.symm
        rw [← modules]
        exact (mainFile_refers valid splits written options.indent).specifiersIn?_eq
      · have inFilter : unit.name ∈ schema.languageNames.filter (fun name => name != default) :=
          names ▸ List.mem_map_of_mem member
        obtain ⟨known, isOther⟩ := List.mem_filter.mp inFilter
        exact lookup_languageProperties splits listed known (bne_iff_ne.mp isOther)
      · exact specifiers?_of_languageUnits valid others unit member

end

end Emission

end Phrasebook
