import Phrasebook.Proofs.Code.Tidy
import Phrasebook.Script.SourceFile

/-!
# Emitted code is tidy

Keys and texts stay on their line because they are quoted where they are no plain names. What is
given as code must stay on its line by itself; then every fragment of an expression, a type or a
declaration is tidy, and so are the lines of a source file.
-/

namespace Phrasebook.Script

open Code Text

/-! ## Names -/

theorem isNameRest_of_isNameStart {c : Char} (start : isNameStart c = true) :
    isNameRest c = true := by
  simp only [isNameStart, isNameRest, Char.isAlphanum, Bool.or_eq_true] at start ⊢
  exact start.imp_left (Or.imp_left Or.inl)

/-- Letters and digits are printable and no blanks. -/
theorem bounds_of_isAlphanum {c : Char} (alphanum : c.isAlphanum = true) :
    32 < c.toNat ∧ c.toNat < 127 := by
  change ((decide (c.val ≥ 'A'.val ∧ c.val ≤ 'Z'.val) ||
    (decide (c.val ≥ 'a'.val) && decide (c.val ≤ 'z'.val))) ||
    (decide (c.val ≥ '0'.val) && decide (c.val ≤ '9'.val))) = true at alphanum
  simp only [Bool.or_eq_true, Bool.and_eq_true, decide_eq_true_eq, ge_iff_le,
    UInt32.le_iff_toNat_le] at alphanum
  change ((65 ≤ c.toNat ∧ c.toNat ≤ 90) ∨ (97 ≤ c.toNat ∧ c.toNat ≤ 122)) ∨
    (48 ≤ c.toNat ∧ c.toNat ≤ 57) at alphanum
  omega

/-- The characters of plain names are printable and no blanks. -/
theorem bounds_of_isNameRest {c : Char} (inName : isNameRest c = true) :
    32 < c.toNat ∧ c.toNat < 127 := by
  simp only [isNameRest, Bool.or_eq_true, decide_eq_true_eq] at inName
  rcases inName with ((alphanum | rfl) | rfl)
  · exact bounds_of_isAlphanum alphanum
  · decide
  · decide

theorem staysInline_of_bounds {c : Char} (bounds : 32 < c.toNat ∧ c.toNat < 127) :
    staysInline c = true := by
  have noSeparator : c ≠ '\u2028' ∧ c ≠ '\u2029' := by
    constructor
    · rintro rfl
      exact absurd bounds (by decide)
    · rintro rfl
      exact absurd bounds (by decide)
  have noControl : isControl c = false := by
    simp only [isControl, Bool.or_eq_false_iff, Bool.and_eq_false_iff, decide_eq_false_iff_not]
    omega
  simp [staysInline, noControl, noSeparator]

/-- Plain names are tidy. -/
theorem tidy_of_isIdentifier {name : String} (identifier : isIdentifier name = true) : Tidy name := by
  rw [isIdentifier] at identifier
  split at identifier
  · cases identifier
  · rename_i first rest spelled
    rw [Bool.and_eq_true, List.all_eq_true] at identifier
    have firstBounds := bounds_of_isNameRest (isNameRest_of_isNameStart identifier.1)
    have noBlank : first ≠ ' ' ∧ first ≠ '\t' := by
      constructor
      · rintro rfl
        exact absurd firstBounds (by decide)
      · rintro rfl
        exact absurd firstBounds (by decide)
    constructor
    · rw [OneLine, spelled, List.all_eq_true, List.forall_mem_cons]
      exact ⟨staysInline_of_bounds firstBounds, fun c member =>
        staysInline_of_bounds (bounds_of_isNameRest (identifier.2 c member))⟩
    · rw [spelled]
      simp [isInk, noBlank]

theorem tidy_propertyKey (key : String) : Tidy (propertyKey key) := by
  rw [propertyKey]
  split
  · have opening : Tidy "[" := by decide
    exact (opening.append (.encode key)).append (by decide)
  · split
    · rename_i identifier
      exact tidy_of_isIdentifier identifier
    · exact .encode key

theorem tidy_memberAccess {object : String} (tidy : Tidy object) (member : String) :
    Tidy (memberAccess object member) := by
  rw [memberAccess]
  split
  · rename_i identifier
    exact (tidy.append (by decide)).append (tidy_of_isIdentifier identifier).oneLine
  · exact ((tidy.append (by decide)).append (.encode member)).append (by decide)

/-! ## Expressions -/

/-- An expression whose code parts stay on their lines. -/
inductive Expr.IsTidy : Expr → Prop where
  | raw {code : String} (tidy : Tidy code) : IsTidy (.raw code)
  | text (value : String) : IsTidy (.text value)
  | object {properties : List (String × Expr)}
      (each : ∀ property ∈ properties, IsTidy property.2) : IsTidy (.object properties)
  | arrow {function : Arrow} (params : OneLine function.params) (body : OneLine function.body) :
      IsTidy (.arrow function)
  | construct {className : String} {arguments : List Expr} (name : OneLine className)
      (each : ∀ argument ∈ arguments, IsTidy argument) : IsTidy (.construct className arguments)
  | ascribed {expr : Expr} {type : String} (inner : IsTidy expr) (annotated : OneLine type) :
      IsTidy (.ascribed expr type)

theorem tidy_arrowCode {function : Arrow} (params : OneLine function.params)
    (body : OneLine function.body) : Tidy function.code := by
  have opening : Tidy ((if function.isAsync then "async " else "") ++ "(") := by
    split <;> decide
  exact ((opening.append params).append (by decide)).append body

namespace Expr

mutual

theorem fragment_isTidy : ∀ expr : Expr, expr.IsTidy → expr.fragment.IsTidy
  | .raw _, .raw tidy => .line tidy
  | .text value, .text _ => .line (.encode value)
  | .object [], _ => .line (by decide)
  | .object (first :: rest), .object each =>
      .block (by decide) (propertyFragments_isTidy (first :: rest) each) (by decide)
  | .arrow _, .arrow params body => .line (tidy_arrowCode params body)
  | .construct className [], .construct name _ =>
      .line (((show Tidy "new " by decide).append name).append (by decide))
  | .construct className (first :: rest), .construct name each =>
      .block (((show Tidy "new " by decide).append name).append (by decide))
        (argumentFragments_isTidy (first :: rest) each) (by decide)
  | .ascribed expr _, .ascribed inner annotated =>
      Fragment.append_isTidy (OneLine.append (by decide) annotated) (fragment_isTidy expr inner)

theorem propertyFragments_isTidy :
    ∀ properties : List (String × Expr), (∀ property ∈ properties, property.2.IsTidy) →
      ∀ fragment ∈ propertyFragments properties, fragment.IsTidy
  | [], _ => nofun
  | (key, value) :: rest, each => by
      rw [List.forall_mem_cons] at each
      rw [propertyFragments, List.forall_mem_cons]
      exact ⟨(fragment_isTidy value each.1).between ((tidy_propertyKey key).append (by decide))
        (by decide), propertyFragments_isTidy rest each.2⟩

theorem argumentFragments_isTidy :
    ∀ arguments : List Expr, (∀ argument ∈ arguments, argument.IsTidy) →
      ∀ fragment ∈ argumentFragments arguments, fragment.IsTidy
  | [], _ => nofun
  | first :: rest, each => by
      rw [List.forall_mem_cons] at each
      rw [argumentFragments, List.forall_mem_cons]
      exact ⟨Fragment.append_isTidy (by decide) (fragment_isTidy first each.1),
        argumentFragments_isTidy rest each.2⟩

end

end Expr

/-! ## Types -/

/-- A type whose code parts stay on their lines. -/
inductive TypeExpr.IsTidy : TypeExpr → Prop where
  | raw {code : String} (tidy : Tidy code) : IsTidy (.raw code)
  | literal {members : List (String × TypeExpr)} (each : ∀ member ∈ members, IsTidy member.2) :
      IsTidy (.literal members)

namespace TypeExpr

mutual

/-- The short form of a type is on one line. -/
theorem inline_oneLine : ∀ type : TypeExpr, type.IsTidy → OneLine type.inline
  | .raw _, .raw tidy => tidy.oneLine
  | .literal [], _ => by decide
  | .literal (first :: rest), .literal each =>
      ((show OneLine "\x7b " by decide).append
        (OneLine.intercalate (by decide) (inlineMembers_oneLine (first :: rest) each))).append
        (by decide)

theorem inlineMembers_oneLine :
    ∀ members : List (String × TypeExpr), (∀ member ∈ members, member.2.IsTidy) →
      ∀ text ∈ inlineMembers members, OneLine text
  | [], _ => nofun
  | (key, type) :: rest, each => by
      rw [List.forall_mem_cons] at each
      rw [inlineMembers, List.forall_mem_cons]
      exact ⟨((tidy_propertyKey key).oneLine.append (by decide)).append
        (inline_oneLine type each.1), inlineMembers_oneLine rest each.2⟩

end

mutual

theorem fragment_isTidy : ∀ type : TypeExpr, type.IsTidy → type.fragment.IsTidy
  | .raw _, .raw tidy => .line tidy
  | .literal [], _ => .line (by decide)
  | .literal (first :: rest), .literal each =>
      .block (by decide) (memberFragments_isTidy (first :: rest) each) (by decide)

theorem memberFragments_isTidy :
    ∀ members : List (String × TypeExpr), (∀ member ∈ members, member.2.IsTidy) →
      ∀ fragment ∈ memberFragments members, fragment.IsTidy
  | [], _ => nofun
  | (key, type) :: rest, each => by
      rw [List.forall_mem_cons] at each
      rw [memberFragments, List.forall_mem_cons]
      exact ⟨(fragment_isTidy type each.1).between ((tidy_propertyKey key).append (by decide))
        (by decide), memberFragments_isTidy rest each.2⟩

end

end TypeExpr

/-! ## Declarations -/

theorem oneLine_typeWord (typeOnly : Bool) : OneLine (typeWord typeOnly) := by
  cases typeOnly <;> decide

theorem annotation_oneLine {type : Option String} (annotated : ∀ code ∈ type, OneLine code) :
    OneLine <| annotation type := by
  cases type with
  | none => decide
  | some code => exact (show OneLine ": " by decide).append (annotated code rfl)

theorem oneLine_braced {names : List String} (each : ∀ name ∈ names, OneLine name) :
    OneLine (braced names) :=
  ((show OneLine "\x7b " by decide).append (OneLine.intercalate (by decide) each)).append
    (by decide)

theorem Const.fragment_isTidy {const : Const} (name : OneLine const.name)
    (annotated : ∀ type ∈ const.type, OneLine type) (tidy : ∀ value ∈ const.value, value.IsTidy) :
    const.fragment.IsTidy := by
  rw [Const.fragment]
  split
  · rename_i value given
    have opening : Tidy (exportWord const.exported ++ "const ") := by
      cases const.exported <;> decide
    exact ((Expr.fragment_isTidy value (tidy value given)).between
      (((opening.append name).append (annotation_oneLine annotated)).append (by decide))
      (by decide))
  · have opening : Tidy (exportWord const.exported ++ "declare const ") := by
      cases const.exported <;> decide
    exact .line (((opening.append name).append (annotation_oneLine annotated)).append (by decide))

theorem Alias.fragment_isTidy {it : Alias} (name : OneLine it.name) (tidy : it.type.IsTidy) :
    it.fragment.IsTidy := by
  have opening : Tidy (exportWord it.exported ++ "type ") := by
    cases it.exported <;> decide
  exact (TypeExpr.fragment_isTidy it.type tidy).between
    ((opening.append name).append (by decide)) (by decide)

theorem Union.fragment_isTidy {it : Union} (name : OneLine it.name)
    (each : ∀ variant ∈ it.variants, OneLine variant) : it.fragment.IsTidy := by
  have type : OneLine (if it.variants.isEmpty then "never" else " | ".intercalate it.variants) := by
    split
    · decide
    · exact .intercalate (by decide) each
  have opening : Tidy "export type " := by decide
  exact .line ((((opening.append name).append (by decide)).append type).append (by decide))

/-! ### Classes -/

/-- A parameter whose name and type stay on the line. -/
structure Parameter.IsTidy (parameter : Parameter) : Prop where
  name : Tidy parameter.name
  type : OneLine parameter.type

theorem Parameter.tidy_code {parameter : Parameter} (tidy : parameter.IsTidy) (declared : Bool) :
    Tidy (parameter.code declared) := by
  have named : Tidy ((if parameter.isPrivate && !declared then "private " else "") ++ parameter.name) := by
    split
    · exact (show Tidy "private " by decide).append tidy.name.oneLine
    · rw [String.empty_append]
      exact tidy.name
  exact (named.append (by decide)).append tidy.type

/-- A method whose parts stay on their lines. -/
structure Method.IsTidy (method : Method) : Prop where
  name : Tidy method.name
  params : OneLine method.params
  returns : ∀ type ∈ method.returns, OneLine type
  body : ∀ fragment ∈ method.body, fragment.IsTidy

theorem Method.tidy_signature {method : Method} (tidy : method.IsTidy) (declared : Bool) :
    Tidy (method.signature declared) := by
  have named : Tidy (method.word declared ++ method.name) := by
    rw [Method.word]
    split
    · exact (show Tidy "get " by decide).append tidy.name.oneLine
    · exact (show Tidy "set " by decide).append tidy.name.oneLine
    · split
      · exact (show Tidy "async " by decide).append tidy.name.oneLine
      · rw [String.empty_append]
        exact tidy.name
  exact (((named.append (by decide)).append tidy.params).append (by decide)).append
    (annotation_oneLine tidy.returns)

theorem Method.fragment_isTidy {method : Method} (tidy : method.IsTidy) (declared : Bool) :
    (method.fragment declared).IsTidy := by
  rw [Method.fragment]
  split
  · exact .line ((tidy_signature tidy true).append (by decide))
  · exact .block ((tidy_signature tidy false).append (by decide)) tidy.body (by decide)

/-- A class whose name, parameters and methods stay on their lines. -/
structure Class.IsTidy (it : Class) : Prop where
  name : OneLine it.name
  params : ∀ parameter ∈ it.params, parameter.IsTidy
  methods : ∀ method ∈ it.methods, method.IsTidy

theorem Class.constructorFragment_isTidy {it : Class} (tidy : it.IsTidy) :
    it.constructorFragment.IsTidy := by
  have params : ∀ param ∈ it.params.map (Parameter.code it.declared), Tidy param := by
    intro param member
    obtain ⟨parameter, listed, rfl⟩ := List.mem_map.mp member
    exact Parameter.tidy_code (tidy.params parameter listed) it.declared
  rw [Class.constructorFragment]
  split
  · have opening : Tidy "constructor(" := by decide
    exact .line ((opening.append (OneLine.intercalate (by decide)
      fun param member => (params param member).oneLine)).append (by decide))
  · split
    · exact .line (by decide)
    · refine .block (by decide) ?_ (by decide)
      intro fragment member
      obtain ⟨param, listed, rfl⟩ := List.mem_map.mp member
      exact .line ((params param listed).append (by decide))

theorem Class.methodFragments_isTidy {methods : List Method}
    (tidy : ∀ method ∈ methods, method.IsTidy) (declared : Bool) :
    ∀ fragment ∈ methodFragments declared methods, fragment.IsTidy := by
  rw [methodFragments, List.forall_mem_flatMap]
  intro method listed
  have here := Method.fragment_isTidy (tidy method listed)
  split
  · rw [List.forall_mem_singleton]
    exact here true
  · rw [List.forall_mem_cons, List.forall_mem_singleton]
    exact ⟨.blank, here false⟩

theorem Class.fragment_isTidy {it : Class} (tidy : it.IsTidy) : it.fragment.IsTidy := by
  have opening : Tidy (exportWord it.exported ++ (if it.declared then "declare " else "") ++ "class ") := by
    cases it.exported <;> cases it.declared <;> decide
  refine .block ((opening.append tidy.name).append (by decide)) ?_ (by decide)
  rw [List.forall_mem_cons]
  exact ⟨constructorFragment_isTidy tidy, methodFragments_isTidy tidy.methods it.declared⟩

/-! ### Imports and exports -/

theorem Import.fragment_isTidy {it : Import} (default : ∀ name ∈ it.default, OneLine name)
    (named : ∀ name ∈ it.named, OneLine name) : it.fragment.IsTidy := by
  have opening : Tidy ("import " ++ typeWord it.typeOnly) :=
    (show Tidy "import " by decide).append (oneLine_typeWord it.typeOnly)
  have source : OneLine (Quoted.encode it.module) := .encode it.module
  have between : OneLine " from " := by decide
  rw [Import.fragment]
  refine .line ?_
  split
  · rename_i name given _
    exact (((opening.append (default name given)).append between).append source).append (by decide)
  · rename_i name first rest given names
    rw [names] at named
    exact (((((opening.append (default name given)).append (by decide)).append
      (oneLine_braced named)).append between).append source).append (by decide)
  · rename_i first rest _ names
    rw [names] at named
    exact (((opening.append (oneLine_braced named)).append between).append source).append (by decide)
  · exact ((show Tidy "import " by decide).append source).append (by decide)

theorem Export.fragments_isTidy {it : Export} (default : ∀ value ∈ it.default, value.IsTidy)
    (named : ∀ name ∈ it.named, OneLine name) : ∀ fragment ∈ it.fragments, fragment.IsTidy := by
  rw [Export.fragments, List.forall_mem_append]
  constructor
  · split
    · nofun
    · rename_i first rest names
      rw [names] at named
      have opening : Tidy ("export " ++ typeWord it.typeOnly) :=
        (show Tidy "export " by decide).append (oneLine_typeWord it.typeOnly)
      rw [List.forall_mem_singleton]
      exact .line ((opening.append (oneLine_braced named)).append (by decide))
  · split
    · rename_i value given
      rw [List.forall_mem_singleton]
      exact (Expr.fragment_isTidy value (default value given)).between (by decide) (by decide)
    · nofun

/-! ## Source files -/

namespace SourceFile

/-- A source file of tidy fragments. -/
structure IsTidy (file : SourceFile) : Prop where
  imports : ∀ it ∈ file.imports, it.fragment.IsTidy
  body : ∀ declaration ∈ file.body, ∀ fragment ∈ declaration, fragment.IsTidy
  exports : ∀ it ∈ file.exports, ∀ fragment ∈ it.fragments, fragment.IsTidy

theorem bodyLines_isTidy {body : List (List Fragment)}
    (tidy : ∀ declaration ∈ body, ∀ fragment ∈ declaration, fragment.IsTidy) :
    ∀ line ∈ bodyLines body, line.IsTidy := by
  induction body with
  | nil => nofun
  | cons first rest ih =>
      rw [List.forall_mem_cons] at tidy
      have here := Fragment.linesOfAll_isTidy tidy.1 0
      cases rest with
      | nil => exact here
      | cons second rest =>
          rw [bodyLines, List.forall_mem_append, List.forall_mem_cons]
          exact ⟨here, Or.inr rfl, ih tidy.2⟩

/-- The lines of a source file of tidy fragments are tidy. -/
theorem lines_isTidy {file : SourceFile} (tidy : file.IsTidy) : ∀ line ∈ file.lines, line.IsTidy := by
  have gap (isAbsent : Bool) : ∀ line ∈ if isAbsent then [] else [emptyLine], line.IsTidy := by
    cases isAbsent with
    | true => nofun
    | false =>
        rw [if_neg Bool.false_ne_true, List.forall_mem_singleton]
        exact Or.inr rfl
  have imports : ∀ fragment ∈ file.imports.map Import.fragment, fragment.IsTidy := by
    rw [List.forall_mem_map]
    exact tidy.imports
  have exports : ∀ fragment ∈ file.exports.flatMap Export.fragments, fragment.IsTidy := by
    intro fragment member
    obtain ⟨it, listed, written⟩ := List.mem_flatMap.mp member
    exact tidy.exports it listed fragment written
  simp only [lines, List.forall_mem_append]
  exact ⟨⟨⟨⟨Fragment.linesOfAll_isTidy imports 0, gap _⟩, bodyLines_isTidy tidy.body⟩, gap _⟩,
    Fragment.linesOfAll_isTidy exports 0⟩

end SourceFile

end Phrasebook.Script
