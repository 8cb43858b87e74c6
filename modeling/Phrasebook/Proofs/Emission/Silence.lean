import Phrasebook.Proofs.Emission.Indentation
import Phrasebook.Proofs.Emission.TypeText
import Phrasebook.Proofs.Script.SourceFile

/-!
# What refers to no module

Most of a unit imports nothing, whatever its messages are. The literals of messages and of their
types only stand behind marks, or as keys and values, where no text names a module. Declarations
have the names of the naming policy in them, which are identifiers and so hold no quotes; that
none of them is a reserved word keeps a construction from becoming a call of `import`.
-/

namespace Phrasebook

open Code Script Text

/-- Names for declarations that have no quotes. -/
structure Naming.IsUnquoted (naming : Naming) : Prop where
  rootType : Unquoted naming.rootType
  languageType : Unquoted naming.languageType
  providerClass : Unquoted naming.providerClass
  providerName : Unquoted naming.providerName

theorem Naming.isUnquoted_of_validate {naming : Naming} (valid : naming.validate = .ok ()) :
    naming.IsUnquoted := by
  have unquoted (role : String) {name : String} (listed : (role, name) ∈ naming.roles) :
      Unquoted name :=
    unquoted_of_isIdentifier (declarable_of_validate valid listed).1
  exact
    { rootType := unquoted "root type" (by simp [roles])
      languageType := unquoted "language type" (by simp [roles])
      providerClass := unquoted "provider class" (by simp [roles])
      providerName := unquoted "provider name" (by simp [roles]) }

/-- The class of a provider has a name, which is not the word that imports. -/
theorem Naming.providerClass_of_validate {naming : Naming} (valid : naming.validate = .ok ()) :
    isIdentifier naming.providerClass = true ∧ naming.providerClass ≠ "import" := by
  have listed : ("provider class", naming.providerClass) ∈ naming.roles := by simp [roles]
  obtain ⟨identifier, free⟩ := declarable_of_validate valid listed
  refine ⟨identifier, fun same => ?_⟩
  rw [same] at free
  cases free

namespace Emission

/-! ## Messages and their types -/

theorem quiet_keyTokens (key : String) : Quiet (keyTokens key) := by
  rw [keyTokens]
  split
  · exact (Yields.mark_cons '[' (.text_cons key (.mark ']'))).quiet
  · split
    · exact .word key
    · exact (Yields.text key).quiet

theorem quiet_accessTokens (object member : String) : Quiet (accessTokens object member) := by
  rw [accessTokens]
  split
  · exact .of_no_text (by simp)
  · have opened : Yields [.word object, .mark '['] [] := Quiet.word object '[' (by decide)
    exact (opened.append (.text_cons member (.mark ']'))).quiet

theorem quiet_segmentTokens (segment : Segment) : Quiet (segmentTokens segment) := by
  cases segment with
  | literal text => exact (Yields.text text).quiet
  | param name => exact quiet_accessTokens "options" name

theorem quiet_paramTokens (name : String) : Quiet (paramTokens name) := by
  intro c noBracket
  have type : Quiet [.word "string", .mark '|', .word "number"] := .of_no_text (by simp)
  rw [paramTokens, List.append_assoc]
  exact (quiet_keyTokens name).mark_cons (by decide) (type c noBracket)

/-- The options of a call refer to nothing. -/
theorem quiet_params (names : List String) : Quiet (separated ';' (names.map paramTokens)) := by
  refine Quiet.separated (by decide) ?_
  rw [List.forall_mem_map]
  exact fun name _ => quiet_paramTokens name

theorem quiet_segments (body : Body) : Quiet (separated ',' (body.map segmentTokens)) := by
  refine Quiet.separated (by decide) ?_
  rw [List.forall_mem_map]
  exact fun segment _ => quiet_segmentTokens segment

theorem yields_callTokens (body : Body) : Yields (callTokens body) [] := by
  have join : Yields [.mark '.', .word "join", .mark '(', .text "", .mark ')'] [] :=
    .mark_cons '.' (.word_mark '(' (by decide) (.text_cons "" (.mark ')')))
  have items := (quiet_segments body).mark_cons (show ']' ≠ '(' by decide) join
  have array : Yields (.mark ')' :: .arrow :: .mark '[' :: _) [] :=
    .mark_cons ')' (.arrow_cons (.mark_cons '[' items))
  have options := (quiet_params body.params).mark_cons (show '}' ≠ '(' by decide) array
  simp only [callTokens, List.append_assoc, List.cons_append, List.nil_append]
  exact .word_mark ':' (by decide) (.mark_cons '{' options)

mutual

/-- The literal of a node refers to nothing, whatever its texts and keys are. -/
theorem yields_nodeTokens : ∀ node : Node, Yields (nodeTokens node) []
  | .text value => .text value
  | .call body => .mark_cons '(' (yields_callTokens body)
  | .record _ entries => .mark_cons '{' ((yields_entryTokens entries).append (.mark '}'))

theorem yields_entryTokens : ∀ entries : List (String × Node), Yields (entryTokens entries) []
  | [] => .nil
  | (key, node) :: rest => by
      have value := (yields_nodeTokens node).append (.mark_cons ',' (yields_entryTokens rest))
      rw [entryTokens, List.append_assoc]
      exact (quiet_keyTokens key).mark_cons (by decide) value

end

mutual

/-- The type of a node refers to nothing. -/
theorem quiet_typeTokens : ∀ node : Node, Quiet (typeTokens node)
  | .text _ => .word "string"
  | .call body => by
      intro c noBracket
      have result : Quiet [.mark ')', .arrow, .word "string"] := .of_no_text (by simp)
      have options := (quiet_params (Body.params body)).mark_cons (show '}' ≠ '(' by decide)
        (result c noBracket)
      rw [typeTokens, List.cons_append, List.cons_append, List.cons_append, List.cons_append,
        List.append_assoc]
      exact .mark_cons '(' (.word_mark ':' (by decide) (.mark_cons '{' options))
  | .record _ entries =>
      (Yields.mark_cons '{' ((yields_memberTokens entries).append (.mark '}'))).quiet

theorem yields_memberTokens : ∀ entries : List (String × Node), Yields (memberTokens entries) []
  | [] => .nil
  | (key, node) :: rest => by
      have type := (quiet_typeTokens node).mark_cons (show ';' ≠ '(' by decide)
        (yields_memberTokens rest)
      rw [memberTokens]
      exact (quiet_keyTokens key).mark_cons (by decide) type

end

/-! ## Declarations -/

/-- Names of languages in a union refer to nothing, whatever they are. -/
theorem refers_variants (names : List String) :
    Refers (" | ".intercalate (names.map Quoted.encode)).toList [] := by
  have bar : Refers [' ', '|', ' '] [] :=
    Refers.plain (show '"' ∉ [' '] by decide) (by decide) (by decide)
  induction names with
  | nil => exact .nil
  | cons first names ih =>
      cases names with
      | nil =>
          rw [List.map_singleton, String.intercalate_singleton]
          exact .literal first
      | cons second names =>
          rw [List.map_cons, List.map_cons, String.intercalate_cons_cons, String.toList_append,
            String.toList_append]
          exact ((Refers.literal first).append bar).append ih

theorem languageUnion_refers (schema : Schema) {naming : Naming}
    (unquoted : naming.IsUnquoted) (depth : Nat) :
    LinesRefer ((languageUnion schema naming).fragment.lines depth) [] := by
  have header : Unquoted ("export type " ++ naming.languageType) :=
    (show Unquoted "export type " by decide).append unquoted.languageType
  have equals : Plain ("export type " ++ naming.languageType ++ " =") :=
    .prepend header (by decide)
  have semicolon : Plain ";" := by decide
  rw [Union.fragment]
  refine .line ?_ depth
  split
  · have never : Plain ("export type " ++ naming.languageType ++ " = " ++ "never" ++ ";") :=
      .prepend ((header.append (by decide)).append (by decide)) semicolon
    exact never.line
  · have line := (equals.space.append
      (refers_variants schema.languageNames)).append semicolon.line
    have code : ("export type " ++ naming.languageType ++ " = " ++
          " | ".intercalate (schema.languageNames.map Quoted.encode) ++ ";").toList ++ ['\n'] =
        ("export type " ++ naming.languageType ++ " =").toList ++ [' '] ++
          (" | ".intercalate (schema.languageNames.map Quoted.encode)).toList ++
            (";".toList ++ ['\n']) := by
      simp
    rw [← code] at line
    exact line

/-- The declaration of the root type refers to nothing. -/
theorem rootAlias_refers (schema : Schema) {naming : Naming} (unquoted : naming.IsUnquoted) :
    LinesRefer ((rootAlias schema naming).fragment.lines 0) [] := by
  intro indent
  have equals : Plain ("export type " ++ naming.rootType ++ " =") :=
    .prepend ((show Unquoted "export type " by decide).append unquoted.rootType)
      (by decide)
  have type : LinesRefer ((((nodeType schema.canonical.toNode).fragment.prepend "").append ";").lines 0)
      [] :=
    .of_scans (fun indent => scans_nodeType indent schema.canonical.toNode 0 Scans.nil)
      (quiet_typeTokens schema.canonical.toNode ';' (by decide))
  have whole := equals.space.append (type indent)
  have code : (render indent ((rootAlias schema naming).fragment.lines 0)).toList =
      ("export type " ++ naming.rootType ++ " =").toList ++ [' '] ++
        (render indent ((((nodeType schema.canonical.toNode).fragment.prepend "").append ";").lines
          0)).toList := by
    have prepended : render indent ((rootAlias schema naming).fragment.lines 0) = _ :=
      render_prepend (nodeType schema.canonical.toNode).fragment _ ";" indent
    rw [prepended]
    simp [rootAlias, exportWord]
  rw [code]
  exact whole

/-! ## The provider -/

theorem mapsType_unquoted {naming : Naming} (unquoted : naming.IsUnquoted) (isLazy : Bool) :
    Unquoted (mapsType naming isLazy) := by
  have record : Unquoted ("Record<" ++ naming.languageType ++ ", " ++ naming.rootType) :=
    (((show Unquoted "Record<" by decide).append unquoted.languageType).append (by decide)).append
      unquoted.rootType
  rw [mapsType]
  split
  · exact ((record.append (by decide)).append unquoted.rootType).append (by decide)
  · exact record.append (by decide)

theorem annotation_unquoted {type : Option String} (each : ∀ code ∈ type, Unquoted code) :
    Unquoted <| annotation type := by
  cases type with
  | none => exact (by decide : Unquoted "")
  | some code => exact (show Unquoted ": " by decide).append (each code rfl)

/-- A method refers to what its body refers to, if its signature has no quotes. -/
theorem method_refers {method : Method} (name : Unquoted method.name)
    (params : Unquoted method.params) (returns : ∀ type ∈ method.returns, Unquoted type)
    (body : FragmentsRefer method.body []) (depth : Nat) :
    LinesRefer ((method.fragment false).lines depth) [] := by
  have word : Unquoted (method.word false) := by
    rw [Method.word]
    split
    · decide
    · decide
    · split <;> decide
  have signature : Unquoted (method.signature false) :=
    ((((word.append name).append (by decide)).append params).append (by decide)).append
      (annotation_unquoted returns)
  have opening : Plain (method.signature false ++ " \x7b") :=
    .prepend signature (by decide)
  have closing : Plain "\x7d" := by decide
  exact FragmentsRefer.block opening.line body closing.line depth

theorem switchMethod_refers {param : String} (unquoted : Unquoted param) (depth : Nat) :
    LinesRefer (((switchMethod true param).fragment false).lines depth) [] := by
  have test : LineRefers "if (typeof value === \"function\") \x7b" [] := by
    have equals : Plain "if (typeof value ===" := by decide
    have opening : Plain ") \x7b" := by decide
    exact (equals.space.append
      (Refers.literal "function")).append opening.line
  have closing : Plain "\x7d" := by decide
  have load : Plain "this.maps[lang] = await value();" := by decide
  have value : Plain "const value = this.maps[lang];" := by decide
  have assignment : Plain "this._lang = lang;" := by decide
  have body : FragmentsRefer (switchMethod true param).body [] :=
    .line_cons value
      (.cons_quiet (FragmentsRefer.block test (.line_cons load .nil) closing.line)
        (.line_cons assignment .nil))
  refine @method_refers (switchMethod true param) (show Unquoted "setLanguage" by decide) unquoted ?_
    body depth
  rintro _ ⟨⟩
  decide

/-- A call that goes on in the next line imports nothing, unless it is a call of `import`. -/
theorem opening_refers {name : String} (identifier : isIdentifier name = true)
    (other : name ≠ "import") : LineRefers (name ++ "(") [] := by
  have bracket : Scans ['(', '\n'] [.mark '('] := .mark_cons (by decide) (.spaces (by decide))
  have scans : Scans (name.toList ++ ['(', '\n']) [.word name, .mark '('] :=
    ScansApart.word identifier '(' ['\n'] _ (by decide) bracket
  have split : name.toList ++ ['(', '\n'] = name.toList ++ ['('] ++ ['\n'] := by simp
  rw [split] at scans
  rw [LineRefers, String.toList_append]
  exact .of_scans scans (apart_concat (by decide) (by decide)) (.word_mark '(' other .nil)

/-- The class of a lazy provider refers to nothing: it imports through the map that it is given. -/
theorem providerClass_refers {naming : Naming} (unquoted : naming.IsUnquoted) (depth : Nat) :
    LinesRefer ((providerClass naming true false).fragment.lines depth) [] := by
  have comma : Plain "," := by decide
  have closing : Plain "\x7d" := by decide
  have header : Plain ("" ++ "" ++ "class " ++ naming.providerClass ++ " \x7b") :=
    .prepend ((show Unquoted ("" ++ "" ++ "class ") by decide).append unquoted.providerClass)
      (by decide)
  have opened : LineRefers "constructor(" [] := by
    have word : "constructor(" = "constructor" ++ "(" := by decide
    rw [word]
    exact opening_refers (by decide) (by decide)
  have maps : Plain ("private " ++ "maps" ++ ": " ++ mapsType naming true ++ ",") :=
    .prepend ((show Unquoted ("private " ++ "maps" ++ ": ") by decide).append
      (mapsType_unquoted unquoted true)) comma
  have start : Plain ("private " ++ "_lang" ++ ": " ++ naming.languageType ++ ",") :=
    .prepend ((show Unquoted ("private " ++ "_lang" ++ ": ") by decide).append unquoted.languageType) comma
  have closed : Plain ") \x7b\x7d" := by decide
  have construction :=
    FragmentsRefer.block opened (.line_cons maps (.line_cons start .nil)) closed.line
  have blank (depth : Nat) : LinesRefer (Fragment.blank.lines depth) [] := .line lineRefers_blank 0
  have selected : Plain "return this._lang;" := by decide
  have current : Plain ("return this.maps[this._lang] as " ++ naming.rootType ++ ";") :=
    .prepend ((show Unquoted "return this.maps[this._lang] as " by decide).append unquoted.rootType)
      (by decide)
  have returns {type : String} (plain : Unquoted type) : ∀ code ∈ some type, Unquoted code := by
    rintro _ ⟨⟩
    exact plain
  have getLanguage := @method_refers
    { kind := .getter, name := "lang", returns := some naming.languageType
      body := [.line "return this._lang;"] }
    (show Unquoted "lang" by decide) (show Unquoted "" by decide) (returns unquoted.languageType)
    (.line_cons selected .nil)
  have setLanguage := switchMethod_refers
    ((show Unquoted "lang: " by decide).append unquoted.languageType)
  have getMessages := @method_refers
    { kind := .getter, name := "t", returns := some naming.rootType
      body := [.line (currentLine naming true)] }
    (show Unquoted "t" by decide) (show Unquoted "" by decide) (returns unquoted.rootType)
    (.line_cons current .nil)
  exact FragmentsRefer.block header.line
    (.cons_quiet construction (.cons_quiet blank (.cons_quiet getLanguage (.cons_quiet blank
      (.cons_quiet setLanguage (.cons_quiet blank (.cons_quiet getMessages .nil)))))))
    closing.line depth

end Emission

end Phrasebook
