import Phrasebook.Emission.Unit
import Phrasebook.Pipeline
import Phrasebook.Proofs.Failure
import Phrasebook.Proofs.Script.Tidy

/-!
# Indentation changes margins only

Every text of a generated unit stays on its line, whatever the keys, messages, languages and
prefixes hold. So two units that are generated with different indentation have the same lines, but
for their margins.
-/

namespace Phrasebook

open Code

/-- Names for declarations that stay on their lines. -/
structure Naming.IsTidy (naming : Naming) : Prop where
  rootType : Tidy naming.rootType
  languageType : Tidy naming.languageType
  providerClass : Tidy naming.providerClass
  providerName : Tidy naming.providerName

/-- Names that can be declared are identifiers that the language does not claim. -/
theorem Naming.declarable_of_validate {naming : Naming} (valid : naming.validate = .ok ())
    {role name : String} (listed : (role, name) ∈ naming.roles) :
    Script.isIdentifier name = true ∧ Script.isReserved name = false := by
  rw [validate] at valid
  split at valid
  · cases valid
  rename_i accepted
  have noObjection : objection? role name = none :=
    List.findSome?_eq_none_iff.mp accepted (role, name) listed
  rw [objection?] at noObjection
  split at noObjection
  · cases noObjection
  · rename_i identifier
    split at noObjection
    · cases noObjection
    · rename_i free
      exact ⟨by simpa using identifier, by simpa using free⟩

/-- Names that can be declared are plain names. -/
theorem Naming.isTidy_of_validate {naming : Naming} (valid : naming.validate = .ok ()) :
    naming.IsTidy := by
  have tidy (role : String) {name : String} (listed : (role, name) ∈ naming.roles) : Tidy name :=
    Script.tidy_of_isIdentifier (declarable_of_validate valid listed).1
  exact
    { rootType := tidy "root type" (by simp [roles])
      languageType := tidy "language type" (by simp [roles])
      providerClass := tidy "provider class" (by simp [roles])
      providerName := tidy "provider name" (by simp [roles]) }

namespace Emission

open Script Text

/-! ## Messages -/

theorem optionsType_isTidy (body : Body) : (optionsType body).IsTidy := by
  refine .literal ?_
  rw [List.forall_mem_map]
  exact fun name _ => .raw (by decide)

theorem tidy_callType (body : Body) : Tidy (callType body) :=
  (((show Tidy "(options: " by decide).append
    (TypeExpr.inline_oneLine _ (optionsType_isTidy body))).append (by decide)).append (by decide)

mutual

theorem nodeType_isTidy : ∀ node : Node, (nodeType node).IsTidy
  | .text _ => .raw (by decide)
  | .call body => .raw (tidy_callType body)
  | .record _ entries => .literal (memberTypes_isTidy entries)

theorem memberTypes_isTidy :
    ∀ entries : List (String × Node), ∀ member ∈ memberTypes entries, member.2.IsTidy
  | [] => nofun
  | (key, node) :: rest => by
      rw [memberTypes, List.forall_mem_cons]
      exact ⟨nodeType_isTidy node, memberTypes_isTidy rest⟩

end

theorem segmentCode_oneLine (segment : Segment) : OneLine (segmentCode segment) := by
  cases segment with
  | literal text => exact .encode text
  | param name => exact (tidy_memberAccess (by decide) name).oneLine

theorem callArrow_isTidy (body : Body) : (Expr.arrow (callArrow body)).IsTidy := by
  have segments : ∀ code ∈ body.map segmentCode, OneLine code := by
    rw [List.forall_mem_map]
    exact fun segment _ => segmentCode_oneLine segment
  refine .arrow ?_ ?_
  · exact (show OneLine (optionsName ++ ": ") by decide).append
      (TypeExpr.inline_oneLine _ (optionsType_isTidy body))
  · exact ((show OneLine "[" by decide).append (.intercalate (by decide) segments)).append (by decide)

mutual

/-- What a language has for a node is tidy, if it is of the kind that is expected. -/
theorem literalAt_isTidy :
    ∀ (expected found : Node) (path : KeyPath) {expr : Expr},
      literalAt path expected found = .ok expr → expr.IsTidy
  | .text _, .text value, _, _, rfl => .text value
  | .call _, .call body, _, _, rfl => callArrow_isTidy body
  | .record _ entries, .record _ language, path, _, outcome => by
      rw [literalAt] at outcome
      obtain ⟨properties, written, rfl⟩ := ok_of_map_eq_ok outcome
      exact .object (propertiesAt_isTidy entries path language written)

theorem propertiesAt_isTidy :
    ∀ (entries : List (String × Node)) (path : KeyPath) (language : Entries Node)
      {properties : List (String × Expr)},
      propertiesAt path language entries = .ok properties →
      ∀ property ∈ properties, property.2.IsTidy
  | [], _, _, _, outcome => by
      cases outcome
      nofun
  | (key, expected) :: rest, path, language, _, outcome => by
      rw [propertiesAt] at outcome
      split at outcome
      · cases outcome
      · split at outcome
        · cases outcome
        · rename_i found _ _ value here
          obtain ⟨others, written, rfl⟩ := ok_of_map_eq_ok outcome
          rw [List.forall_mem_cons]
          exact ⟨literalAt_isTidy expected found _ here,
            propertiesAt_isTidy rest path language written⟩

end

theorem treeLiteral_isTidy {canonical language : Tree} {expr : Expr}
    (outcome : treeLiteral canonical language = .ok expr) : expr.IsTidy := by
  obtain ⟨properties, written, rfl⟩ := ok_of_map_eq_ok outcome
  exact .object (propertiesAt_isTidy canonical.entries [] language.entries written)

/-! ## Units -/

section

variable {naming : Naming}

theorem mapsType_oneLine (tidy : naming.IsTidy) (isLazy : Bool) : OneLine (mapsType naming isLazy) := by
  have record : OneLine ("Record<" ++ naming.languageType ++ ", " ++ naming.rootType) :=
    (((show OneLine "Record<" by decide).append tidy.languageType.oneLine).append (by decide)).append
      tidy.rootType.oneLine
  rw [mapsType]
  split
  · exact ((record.append (by decide)).append tidy.rootType.oneLine).append (by decide)
  · exact record.append (by decide)

theorem currentLine_tidy (tidy : naming.IsTidy) (isLazy : Bool) : Tidy (currentLine naming isLazy) := by
  rw [currentLine]
  split
  · exact ((show Tidy "return this.maps[this._lang] as " by decide).append
      tidy.rootType.oneLine).append (by decide)
  · decide

theorem switchMethod_isTidy (isLazy : Bool) {param : String} (oneLine : OneLine param) :
    (switchMethod isLazy param).IsTidy := by
  have assignment : (Fragment.line "this._lang = lang;").IsTidy := .line (by decide)
  have name : Tidy "setLanguage" := by decide
  rw [switchMethod]
  split
  · have load : (Fragment.line "this.maps[lang] = await value();").IsTidy := .line (by decide)
    refine ⟨name, oneLine, ?_, ?_⟩
    · rintro _ ⟨⟩
      decide
    · rw [List.forall_mem_cons, List.forall_mem_cons, List.forall_mem_singleton]
      exact ⟨.line (by decide), .block (by decide) (List.forall_mem_singleton.mpr load) (by decide),
        assignment⟩
  · refine ⟨name, oneLine, ?_, List.forall_mem_singleton.mpr assignment⟩
    rintro _ ⟨⟩
    decide

theorem providerClass_isTidy (tidy : naming.IsTidy) (isLazy declared : Bool) :
    (providerClass naming isLazy declared).IsTidy := by
  have empty : OneLine "" := by decide
  have lang : Tidy "lang" := by decide
  have param : OneLine ("lang: " ++ naming.languageType) :=
    (show OneLine "lang: " by decide).append tidy.languageType.oneLine
  have typed {type : String} (isTidy : Tidy type) : ∀ code ∈ some type, OneLine code := by
    rintro _ ⟨⟩
    exact isTidy.oneLine
  have body {text : String} (isTidy : Tidy text) :
      ∀ fragment ∈ [Fragment.line text], fragment.IsTidy :=
    List.forall_mem_singleton.mpr (.line isTidy)
  refine ⟨tidy.providerClass.oneLine, ?_, ?_⟩
  · have held : Tidy (if declared then "lang" else "_lang") := by
      cases declared <;> decide
    rw [providerClass, List.forall_mem_cons, List.forall_mem_singleton]
    exact ⟨⟨show Tidy "maps" by decide, mapsType_oneLine tidy isLazy⟩,
      held, tidy.languageType.oneLine⟩
  · rw [providerClass, List.forall_mem_append, List.forall_mem_cons, List.forall_mem_cons,
      List.forall_mem_singleton]
    refine ⟨⟨⟨lang, empty, typed tidy.languageType, body (by decide)⟩, ?_⟩,
      switchMethod_isTidy isLazy param,
      show Tidy "t" by decide, empty, typed tidy.rootType, body (currentLine_tidy tidy isLazy)⟩
    cases isLazy with
    | true => nofun
    | false => exact List.forall_mem_singleton.mpr ⟨lang, param, nofun, body (by decide)⟩

variable {schema : Schema} {options : EmissionOptions} {default : String}

theorem languageUnion_isTidy (tidy : naming.IsTidy) :
    (languageUnion schema naming).fragment.IsTidy := by
  refine Union.fragment_isTidy tidy.languageType.oneLine ?_
  rw [languageUnion, List.forall_mem_map]
  exact fun name _ => .encode name

theorem rootAlias_isTidy (tidy : naming.IsTidy) : (rootAlias schema naming).fragment.IsTidy :=
  Alias.fragment_isTidy tidy.rootType.oneLine (.literal (memberTypes_isTidy schema.canonical.entries))

/-- The import of a unit is on one line, whatever the prefix and the name of the language hold. -/
theorem loader_isTidy (options : EmissionOptions) (language : String) :
    (Expr.arrow (loader options language)).IsTidy := by
  refine .arrow (show OneLine "" by decide) ?_
  exact ((show OneLine "import(" by decide).append (.encode _)).append (by decide)

theorem languageExpr_isTidy {language : Named Tree} {expr : Expr}
    (outcome : languageExpr schema options default language = .ok expr) : expr.IsTidy := by
  rw [languageExpr] at outcome
  split at outcome
  · cases outcome
    exact loader_isTidy options language.name
  · exact treeLiteral_isTidy outcome

theorem languageProperties_isTidy {languages : List (Named Tree)} {properties : List (String × Expr)}
    (outcome : languageProperties schema options default languages = .ok properties) :
    ∀ property ∈ properties, property.2.IsTidy := by
  induction languages generalizing properties with
  | nil =>
      cases outcome
      nofun
  | cons first rest ih =>
      rw [languageProperties] at outcome
      split at outcome
      · cases outcome
      · rename_i value here
        obtain ⟨others, written, rfl⟩ := ok_of_map_eq_ok outcome
        rw [List.forall_mem_cons]
        exact ⟨languageExpr_isTidy here, ih written⟩

theorem languageMap_isTidy {map : Expr}
    (outcome : languageMap schema options default = .ok map) : map.IsTidy := by
  obtain ⟨properties, written, rfl⟩ := ok_of_map_eq_ok outcome
  exact .object (languageProperties_isTidy written)

theorem ascribedMap_isTidy (tidy : options.naming.IsTidy) {map : Expr} (inner : map.IsTidy) :
    (ascribedMap options map).IsTidy :=
  .ascribed inner (mapsType_oneLine tidy options.splitsUnits)

/-- A default export of a tidy value. -/
theorem defaultExport_isTidy {value : Expr} (tidy : value.IsTidy) :
    ∀ it ∈ [({ default := some value } : Export)], ∀ fragment ∈ it.fragments, fragment.IsTidy := by
  rw [List.forall_mem_singleton]
  refine Export.fragments_isTidy ?_ nofun
  rintro _ ⟨⟩
  exact tidy

/-- The main unit is tidy for every target. -/
theorem mainFile_isTidy (tidy : options.naming.IsTidy) {file : SourceFile}
    (outcome : mainFile schema options default = .ok file) : file.IsTidy := by
  have types : ∀ declaration ∈ [[(languageUnion schema options.naming).fragment],
      [(rootAlias schema options.naming).fragment]], ∀ fragment ∈ declaration, fragment.IsTidy := by
    simp only [List.forall_mem_cons]
    exact ⟨⟨languageUnion_isTidy tidy, nofun⟩, ⟨rootAlias_isTidy tidy, nofun⟩, nofun⟩
  have exportProvider := defaultExport_isTidy (.raw tidy.providerName)
  -- behind the types stand the class and the provider, declared or constructed
  have withProvider {isLazy declared : Bool} {const : Const} (isTidy : const.fragment.IsTidy) :
      ∀ declaration ∈ [[(languageUnion schema options.naming).fragment],
          [(rootAlias schema options.naming).fragment]] ++
        [[(providerClass options.naming isLazy declared).fragment], [const.fragment]],
        ∀ fragment ∈ declaration, fragment.IsTidy := by
    rw [List.forall_mem_append]
    refine ⟨types, ?_⟩
    simp only [List.forall_mem_cons]
    exact ⟨⟨Class.fragment_isTidy (providerClass_isTidy tidy isLazy declared), nofun⟩,
      ⟨isTidy, nofun⟩, nofun⟩
  rw [mainFile] at outcome
  split at outcome
  · obtain ⟨map, written, rfl⟩ := ok_of_map_eq_ok outcome
    exact ⟨nofun, types, defaultExport_isTidy (ascribedMap_isTidy tidy (languageMap_isTidy written))⟩
  · obtain ⟨map, written, rfl⟩ := ok_of_map_eq_ok outcome
    have inner := languageMap_isTidy written
    have argument : (if options.splitsUnits then map else ascribedMap options map).IsTidy := by
      split
      · exact inner
      · exact ascribedMap_isTidy tidy inner
    refine ⟨nofun, withProvider (Const.fragment_isTidy tidy.providerName.oneLine nofun ?_),
      exportProvider⟩
    rintro _ ⟨⟩
    refine .construct tidy.providerClass.oneLine ?_
    rw [List.forall_mem_cons, List.forall_mem_singleton]
    exact ⟨argument, .text default⟩
  · cases outcome
    refine ⟨nofun, withProvider (Const.fragment_isTidy tidy.providerName.oneLine ?_ nofun),
      exportProvider⟩
    rintro _ ⟨⟩
    exact tidy.providerClass.oneLine

/-- The unit of a language is tidy. -/
theorem languageFile_isTidy (tidy : options.naming.IsTidy) {language : Named Tree} {file : SourceFile}
    (outcome : languageFile schema options language = .ok file) : file.IsTidy := by
  obtain ⟨literal, written, rfl⟩ := ok_of_map_eq_ok outcome
  refine ⟨?_, nofun, defaultExport_isTidy
    (.ascribed (treeLiteral_isTidy written) tidy.rootType.oneLine)⟩
  rw [List.forall_mem_singleton]
  exact Import.fragment_isTidy nofun (List.forall_mem_singleton.mpr tidy.rootType.oneLine)

end

/-! ## Two indentations -/

section

variable {schema : Schema} {options : EmissionOptions} {default : String} (indent : Indent)

/-- Indentation plays no part before a file is laid out. -/
theorem mainFile_indent :
    mainFile schema { options with indent := indent } default = mainFile schema options default := by
  have properties (languages : List (Named Tree)) :
      languageProperties schema { options with indent := indent } default languages =
        languageProperties schema options default languages := by
    induction languages with
    | nil => rfl
    | cons first rest ih =>
        rw [languageProperties, languageProperties, ih]
        rfl
  have map : languageMap schema { options with indent := indent } default =
      languageMap schema options default := by
    rw [languageMap, languageMap, properties]
  rw [mainFile, mainFile, map]
  rfl

/-- The units of languages, under their names: twice the lines of the file of each of them. -/
inductive SameUnits (schema : Schema) (options : EmissionOptions) (indent : Indent) :
    List (Named Tree) → List (Named String) → List (Named String) → Prop where
  | none : SameUnits schema options indent [] [] []
  | cons {language : Named Tree} {file : SourceFile} {text otherText : String}
      {languages : List (Named Tree)} {units others : List (Named String)}
      (written : languageFile schema options language = .ok file)
      (same : Code.SameCode options.indent indent file.lines text otherText)
      (rest : SameUnits schema options indent languages units others) :
      SameUnits schema options indent (language :: languages) (⟨language.name, text⟩ :: units)
        (⟨language.name, otherText⟩ :: others)

/-- Two artifacts of the same code: twice the lines of the main file and, when units are split, of the
files of all languages but the default one. -/
inductive SameCode (schema : Schema) (options : EmissionOptions) (indent : Indent) (default : String) :
    Artifact → Artifact → Prop where
  | single {file : SourceFile} {main otherMain : String}
      (written : mainFile schema options default = .ok file)
      (same : Code.SameCode options.indent indent file.lines main otherMain) :
      SameCode schema options indent default (.single main) (.single otherMain)
  | split {file : SourceFile} {main otherMain : String} {units others : List (Named String)}
      (written : mainFile schema options default = .ok file)
      (same : Code.SameCode options.indent indent file.lines main otherMain)
      (each : SameUnits schema options indent (separateLanguages schema default) units others) :
      SameCode schema options indent default (.split main units) (.split otherMain others)

theorem languageUnits_reindented (tidy : options.naming.IsTidy) {languages : List (Named Tree)}
    {units : List (Named String)} (outcome : languageUnits schema options languages = .ok units) :
    ∃ others, languageUnits schema { options with indent := indent } languages = .ok others ∧
      SameUnits schema options indent languages units others := by
  induction languages generalizing units with
  | nil =>
      cases outcome
      exact ⟨[], rfl, .none⟩
  | cons first rest ih =>
      rw [languageUnits] at outcome
      split at outcome
      · cases outcome
      · rename_i file written
        obtain ⟨units, here, rfl⟩ := ok_of_map_eq_ok outcome
        obtain ⟨others, there, each⟩ := ih here
        have again : languageFile schema { options with indent := indent } first = .ok file := written
        have lines := SourceFile.lines_isTidy (languageFile_isTidy tidy written)
        refine ⟨⟨first.name, file.render indent⟩ :: others, ?_,
          .cons written (sameCode_render options.indent indent lines) each⟩
        rw [languageUnits, again]
        dsimp only
        rw [there]
        rfl

/-- What is generated with one indentation is generated with every other one: the same units, line
by line with the same text behind as many levels of indentation, and with the same empty lines. The
lines of a unit are those of its file, one for each, and the text of a line opens with no blank and
has no line break, whatever the keys, messages, languages and prefixes hold. -/
theorem generate_reindented {artifact : Artifact} (outcome : generate schema options = .ok artifact) :
    ∃ default other, schema.defaultLanguage options.defaultLanguage = .ok default ∧
      generate schema { options with indent := indent } = .ok other ∧
      SameCode schema options indent default artifact other := by
  rw [generate] at outcome
  split at outcome
  · cases outcome
  · rename_i valid
    have tidy := Naming.isTidy_of_validate valid
    split at outcome
    · cases outcome
    · rename_i default starts
      split at outcome
      · cases outcome
      · rename_i file written
        have again := (mainFile_indent indent).trans written
        have main := sameCode_render options.indent indent
          (SourceFile.lines_isTidy (mainFile_isTidy tidy written))
        refine ⟨default, ?_⟩
        rw [generate, valid, starts]
        dsimp only at outcome ⊢
        rw [again]
        dsimp only
        split at outcome
        · rename_i splits
          obtain ⟨units, here, rfl⟩ := ok_of_map_eq_ok outcome
          obtain ⟨others, there, each⟩ := languageUnits_reindented indent tidy here
          have splitsAgain : EmissionOptions.splitsUnits { options with indent := indent } = true := splits
          rw [if_pos splitsAgain, there]
          exact ⟨_, rfl, rfl, .split written main each⟩
        · rename_i whole
          cases outcome
          have wholeAgain : ¬EmissionOptions.splitsUnits { options with indent := indent } = true := whole
          rw [if_neg wholeAgain]
          exact ⟨_, rfl, rfl, .single written main⟩

end

/-- Line breaks wherever a document can have them. -/
def torn : List (Named Document) :=
  [⟨"en\n", { entries := [("a\r\nb", .string "\u2028{{ who }}")] }⟩,
   ⟨"zh", { entries := [("a\r\nb", .string "{{ who }}\n")] }⟩]

def tornTree (body : Body) : Tree where
  entries := [("a\r\nb", .call body)]
  distinct := of_decide_eq_true rfl

def tornSchema : Schema :=
  ⟨tornTree [.literal "\u2028", .param "who"],
   [⟨"en\n", tornTree [.literal "\u2028", .param "who"]⟩, ⟨"zh", tornTree [.param "who", .literal "\n"]⟩]⟩

/-- Units of their own, imported from behind a line break. -/
def tornOptions : EmissionOptions := { isLazy := true, importPrefix := "\n" }

/-- The two units, once with spaces and once with tabs. -/
theorem generate_torn_with_tabs :
    analyze torn = .ok tornSchema ∧ ∃ main others,
      generate tornSchema tornOptions = .ok (.split main others) ∧ others.map Named.name = ["zh"] ∧
      ∃ default artifact, tornSchema.defaultLanguage none = .ok default ∧
        generate tornSchema { tornOptions with indent := .tab } = .ok artifact ∧
        SameCode tornSchema tornOptions .tab default (.split main others) artifact := by
  have accepted : analyze torn = .ok tornSchema := by
    with_unfolding_all rfl
  obtain ⟨main, others, outcome, names⟩ : ∃ main others,
      generate tornSchema tornOptions = .ok (.split main others) ∧ others.map Named.name = ["zh"] :=
    ⟨_, _, rfl, rfl⟩
  exact ⟨accepted, main, others, outcome, names, generate_reindented .tab outcome⟩

end Emission

end Phrasebook
