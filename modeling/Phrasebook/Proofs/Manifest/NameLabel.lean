import Phrasebook.Proofs.Manifest.Occurrence
import Phrasebook.Proofs.Manifest.Page
import Phrasebook.Proofs.Manifest.Settings

/-!
# Labels of names that are refused

A name that cannot be declared is labelled where it first stands between quotes. On a page this is
the first setting that has the name as its value, whatever its key is. The label is at the setting of
the name itself when no setting before it has the same value, and otherwise it is not.
-/

namespace Phrasebook.Manifest

open Text (Span byteSize byteSize_append byteSize_cons byteSize_nil)
open Toml (BareKey PlainText assigned)

/-! ## Names between quotes -/

theorem quote_not_mem (value : PlainText) : '"' ∉ value.text.toList :=
  fun member => (value.plain _ member).2.1 rfl

variable (name : PlainText)

/-- A name between quotes. -/
def quoted : List Char :=
  '"' :: (name.text.toList ++ ['"'])

/-- The quote that opens a name is not passed over. -/
theorem find?_quoted_append {front : List Char} (noQuote : '"' ∉ front) (offset : Nat)
    (rest : List Char) :
    find? (quoted name) offset (front ++ rest) =
      find? (quoted name) (offset + byteSize front) rest :=
  find?_append_of_not_mem noQuote offset rest

/-- The span of a name whose opening quote is at an offset. -/
def labelAt (start : Nat) : Span :=
  ⟨start + 1, byteSize name.text.toList⟩

/-- Between the quotes of a value there is a name just when the value is the name. -/
theorem quoted_here_iff (value : PlainText) (tail : List Char) :
    quoted name <+: '"' :: (value.text.toList ++ '"' :: tail) ↔ value.text = name.text := by
  constructor
  · rintro ⟨rest, same⟩
    have upToQuote (chars : PlainText) (behind : List Char) :
        (chars.text.toList ++ '"' :: behind).takeWhile (· ≠ '"') = chars.text.toList := by
      have inside : ∀ c ∈ chars.text.toList, decide (c ≠ '"') = true := fun c member =>
        decide_eq_true (chars.plain c member).2.1
      rw [List.takeWhile_append_of_pos inside, List.takeWhile_cons_of_neg (by decide),
        List.append_nil]
    rw [quoted, List.cons_append, List.append_assoc, List.singleton_append] at same
    have values := congrArg (List.takeWhile (· ≠ '"')) (List.cons.inj same).2
    rw [upToQuote, upToQuote] at values
    exact String.toList_injective values.symm
  · intro same
    refine ⟨tail, ?_⟩
    rw [quoted, same, List.cons_append, List.append_assoc, List.singleton_append]

/-- The quote behind a value does not open a name, when the line ends there. -/
theorem not_quoted_lineEnd {tail : List Char}
    (ends : ∀ c, tail.head? = some c → Toml.isPlain c = false) : ¬ quoted name <+: '"' :: tail := by
  rintro ⟨rest, same⟩
  rw [quoted, List.cons_append, List.append_assoc, List.singleton_append] at same
  rw [← (List.cons.inj same).2] at ends
  cases chars : name.text.toList with
  | nil =>
      rw [chars] at ends
      exact absurd (ends '"' rfl) (by decide)
  | cons c others =>
      rw [chars] at ends
      have plain := (name.plain c (chars ▸ List.mem_cons_self)).1
      rw [ends c rfl] at plain
      cases plain

/-- A search for a name ends at a value that is the name, and goes on behind every other one. -/
theorem find?_value (value : PlainText) {tail : List Char}
    (ends : ∀ c, tail.head? = some c → Toml.isPlain c = false) (start : Nat) :
    find? (quoted name) start ('"' :: (value.text.toList ++ '"' :: tail)) =
      if value.text = name.text then some start
      else find? (quoted name) (start + (byteSize value.text.toList + 2)) tail := by
  by_cases same : value.text = name.text
  · rw [if_pos same, find?_cons_of_here ((quoted_here_iff name value tail).mpr same)]
  · have quote : '"'.utf8Size = 1 := rfl
    have behind : start + 1 + byteSize value.text.toList + 1 =
        start + (byteSize value.text.toList + 2) := by
      omega
    rw [if_neg same, find?_cons_of_elsewhere (mt (quoted_here_iff name value tail).mp same),
      find?_quoted_append name (quote_not_mem value),
      find?_cons_of_elsewhere (not_quoted_lineEnd name ends), quote, behind]

/-- The label of the first of some settings that has a name as its value. -/
def firstLabel? (settings : List Setting) : Option Span :=
  (settings.find? fun setting => setting.value.text = name.text).map Setting.label

theorem firstLabel?_append (front back : List Setting) :
    firstLabel? name (front ++ back) = (firstLabel? name front).or (firstLabel? name back) := by
  rw [firstLabel?, List.find?_append, Option.map_or]
  rfl

theorem firstLabel?_singleton (setting : Setting) :
    firstLabel? name [setting] = if setting.value.text = name.text then some setting.label else none := by
  rw [firstLabel?, List.find?_singleton]
  by_cases same : setting.value.text = name.text
  · rw [if_pos same, if_pos (decide_eq_true same), Option.map_some]
  · rw [if_neg same, if_neg (by simpa using same), Option.map_none]

theorem byteSize_setting (key : BareKey) (value : PlainText) :
    byteSize (PageLine.setting key value).code =
      byteSize (settingFront key) + (byteSize value.text.toList + 2) := by
  have quote : '"'.utf8Size = 1 := rfl
  rw [code_setting, byteSize_append, byteSize_cons, byteSize_append, byteSize_cons, byteSize_nil, quote]
  omega

theorem find?_line (line : PageLine) {tail : List Char}
    (ends : ∀ c, tail.head? = some c → Toml.isPlain c = false) (header : List String) (offset : Nat) :
    (find? (quoted name) offset (line.code ++ tail)).map (labelAt name) =
      (firstLabel? name (line.settings header offset)).or
        ((find? (quoted name) (offset + byteSize line.code) tail).map (labelAt name)) := by
  cases line with
  | blank blanks areBlank =>
      have noQuote : '"' ∉ blanks := fun member => absurd (areBlank _ member) (by decide)
      rw [PageLine.code, find?_quoted_append name noQuote]
      rfl
  | header key =>
      have noQuote : '"' ∉ '[' :: (key.code ++ [']']) := by
        simp [key.quote_not_mem_code]
      rw [PageLine.code, find?_quoted_append name noQuote]
      rfl
  | setting key value =>
      have noQuote : '"' ∉ settingFront key := by
        simp [settingFront, key.quote_not_mem_code]
      have text : (PageLine.setting key value).code ++ tail =
          settingFront key ++ '"' :: (value.text.toList ++ '"' :: tail) := by
        rw [code_setting, List.append_assoc, List.cons_append, List.append_assoc, List.singleton_append]
      rw [text, find?_quoted_append name noQuote, find?_value name value ends, byteSize_setting,
        PageLine.settings, firstLabel?_singleton]
      by_cases same : value.text = name.text
      · rw [if_pos same, if_pos same, Option.map_some, Option.some_or, labelAt, same,
          byteSize_settingFront, Nat.add_assoc]
      · rw [if_neg same, if_neg same, Option.none_or, Nat.add_assoc]

/-- A search for a name in a page finds the first setting that has it as its value. -/
theorem find?_page (page : Page) (header : List String) (offset : Nat) :
    (find? (quoted name) offset page.code).map (labelAt name) =
      firstLabel? name (page.settingsFrom header offset) := by
  induction page generalizing header offset with
  | last line =>
      have nothing (offset : Nat) : find? (quoted name) offset [] = none := rfl
      have ends : ∀ c, [].head? = some c → Toml.isPlain c = false := nofun
      have found := find?_line name line ends header offset
      rw [List.append_nil, nothing, Option.map_none, Option.or_none] at found
      exact found
  | more line ending rest ih =>
      have noQuote : '"' ∉ ending.code := by cases ending <;> decide
      have ends : ∀ c, (ending.code ++ rest.code).head? = some c → Toml.isPlain c = false := by
        cases ending <;> (rintro _ ⟨⟩; rfl)
      rw [Page.code, find?_line name line ends header offset, find?_quoted_append name noQuote,
        ih (line.headerBehind header), Page.settingsFrom, firstLabel?_append, Nat.add_assoc]

/-! ## Refused names -/

/-- The other settings are judged without a look at the names. -/
theorem nameError?_of_error? {text : String} {manifest : Manifest} {role name : String}
    {fault : NameFault} {label : Option Span}
    (found : error? text manifest = some (.invalidName role name fault label)) :
    nameError? text manifest = some (.invalidName role name fault label) := by
  have noIndent : indentError? text manifest ≠ some (.invalidName role name fault label) := by
    unfold indentError?
    split <;> exact nofun
  have noLanguages : languagesError? text manifest ≠ some (.invalidName role name fault label) := by
    unfold languagesError?
    repeat' split
    all_goals exact nofun
  rw [error?, Option.or_eq_some_iff, Option.or_eq_some_iff] at found
  rcases found with (isName | ⟨_, isIndent⟩) | ⟨_, isLanguages⟩
  · exact isName
  · exact absurd isIndent noIndent
  · exact absurd isLanguages noLanguages

theorem ofText_invalidName {text role name : String} {fault : NameFault} {label : Option Span}
    (refused : ofText text = .error (.invalidName role name fault label)) :
    ∃ document manifest, Toml.readDocument? text.toList = some document ∧
      ofDocument? document = some manifest ∧ (role, name) ∈ manifest.roles ∧
      nameFault? name = some fault ∧ label = valueSpan? text name := by
  unfold ofText at refused
  split at refused
  · cases refused
  · rename_i manifest given
    split at refused
    · rename_i error found
      cases refused
      obtain ⟨document, read, settings⟩ := Option.bind_eq_some_iff.mp given
      obtain ⟨⟨own, word⟩, isRole, made⟩ := List.exists_of_findSome?_eq_some (nameError?_of_error? found)
      obtain ⟨reason, isFault, same⟩ := Option.map_eq_some_iff.mp made
      cases same
      exact ⟨document, manifest, read, settings, isRole, isFault, rfl⟩
    · cases refused

theorem texts_lines (page : Page) :
    ∀ entry ∈ assigned [] page.lines, ∃ text, entry.2 = .string text := by
  rw [assigned_lines page [] 0]
  intro entry member
  obtain ⟨setting, _, rfl⟩ := List.mem_map.mp member
  exact ⟨setting.value.text, rfl⟩

/-- A name of a page that cannot be declared is the value of one setting. -/
theorem exists_setting_of_refused {page : Page} {document : Entries Value} {manifest : Manifest}
    (read : Toml.readDocument? page.text.toList = some document)
    (given : ofDocument? document = some manifest) {role name : String}
    (named : (role, name) ∈ manifest.roles) {fault : NameFault} (faulty : nameFault? name = some fault) :
    ∃ key, (role, key) ∈ nameKeys ∧
      ∃ own ∈ page.settings, own.path = ["codegen", key] ∧ own.value.text = name := by
  rw [readDocument?_page] at read
  have entries {key : String} {value : Value} (member : (key, value) ∈ document) :=
    Toml.entry_documentOf? (single_lines page) (texts_lines page) read member
  have noList (key : String) (items : List Value) : (key, .sequence items) ∉ document := by
    intro member
    rcases entries member with ⟨_, impossible⟩ | ⟨_, impossible, _⟩ <;> cases impossible
  rcases sourced_ofDocument? noList given role name named with default | ⟨key, inner, isKey, there, listed⟩
  · rw [nameFault?_default default] at faulty
    cases faulty
  · rcases entries there with ⟨_, impossible⟩ | ⟨_, same, inside⟩
    · cases impossible
    · cases same
      have member := inside key name listed
      rw [assigned_lines page [] 0] at member
      obtain ⟨own, isSetting, same⟩ := List.mem_map.mp member
      exact ⟨key, isKey, own, isSetting, congrArg Prod.fst same,
        Value.string.inj (congrArg Prod.snd same)⟩

/-- No two settings of a page that can be read have one path. -/
theorem nodup_paths {page : Page} {document : Entries Value}
    (read : Toml.readDocument? page.text.toList = some document) :
    (page.settings.map Setting.path).Nodup := by
  rw [readDocument?_page] at read
  have distinct := Toml.nodup_assigned (single_lines page) read
  rw [assigned_lines page [] 0, List.map_map] at distinct
  exact distinct

/-- A name that a setting of a page has as its value is found at the first such setting. -/
theorem valueSpan?_page {page : Page} {setting : Setting} (member : setting ∈ page.settings) :
    valueSpan? page.text setting.value.text = firstLabel? setting.value page.settings := by
  have double : quotedSpan? page.text.toList setting.value.text.toList '"' =
      firstLabel? setting.value page.settings := by
    rw [Page.text, String.toList_ofList]
    exact find?_page setting.value page [] 0
  have found : (firstLabel? setting.value page.settings).isSome = true := by
    rw [firstLabel?, Option.isSome_map, List.find?_isSome]
    exact ⟨setting, member, decide_eq_true rfl⟩
  rw [valueSpan?, double, Option.or_of_isSome found]

/-- The first setting with a name is another one than a setting behind it. -/
theorem firstLabel?_eq_iff {page : Page} {earlier later : List Setting} {own : Setting}
    (split : page.settings = earlier ++ own :: later) :
    firstLabel? own.value page.settings = some own.label ↔
      ∀ other ∈ earlier, other.value.text ≠ own.value.text := by
  rw [split, ← List.singleton_append, firstLabel?_append, firstLabel?_append, firstLabel?_singleton,
    if_pos rfl, Option.some_or]
  constructor
  · intro label other member same
    have isThere : (earlier.find? fun setting => setting.value.text = own.value.text).isSome = true :=
      List.find?_isSome.mpr ⟨other, member, decide_eq_true same⟩
    obtain ⟨first, found⟩ := Option.isSome_iff_exists.mp isThere
    rw [firstLabel?, found, Option.map_some, Option.some_or] at label
    have order := pairwise_settingsFrom page [] 0
    rw [← Page.settings, split, List.pairwise_append] at order
    have before := order.2.2 first (List.mem_of_find?_eq_some found) own List.mem_cons_self
    rw [Option.some.inj label] at before
    exact Nat.lt_irrefl _ before
  · intro others
    have none : firstLabel? own.value earlier = none := by
      rw [firstLabel?, Option.map_eq_none_iff, List.find?_eq_none]
      exact fun other member same => others other member (of_decide_eq_true same)
    rw [none, Option.none_or]

/-- A name of a page that is refused is assigned on one line, and its label is at the first setting
that has it as its value. This is the setting on that line just when no earlier one has the value. -/
theorem invalidName_label (page : Page) {role name : String} {fault : NameFault} {label : Option Span}
    (refused : ofText page.text = .error (.invalidName role name fault label)) :
    ∃ key earlier own later, (role, key) ∈ nameKeys ∧ page.settings = earlier ++ own :: later ∧
      own.path = ["codegen", key] ∧ own.value.text = name ∧
      (∀ other ∈ earlier ++ later, other.path ≠ own.path) ∧
      label = firstLabel? own.value page.settings ∧
      (label = some own.label ↔ ∀ other ∈ earlier, other.value.text ≠ name) := by
  obtain ⟨document, manifest, read, given, named, faulty, rfl⟩ := ofText_invalidName refused
  obtain ⟨key, isKey, own, member, path, rfl⟩ := exists_setting_of_refused read given named faulty
  obtain ⟨earlier, later, split⟩ := List.append_of_mem member
  have unique : ∀ other ∈ earlier ++ later, other.path ≠ own.path := by
    have distinct := nodup_paths read
    rw [split, List.map_append, List.map_cons, List.nodup_middle, List.nodup_cons, ← List.map_append]
      at distinct
    exact fun other there same => distinct.1 (same ▸ List.mem_map_of_mem there)
  rw [valueSpan?_page member]
  exact ⟨key, earlier, own, later, isKey, split, path, rfl, unique, rfl, firstLabel?_eq_iff split⟩

/-! ## A page with a name twice -/

/-- A word that cannot name a declaration. -/
def reservedWord : PlainText :=
  ⟨"default", by simp [Toml.isPlain]⟩

/-- A page that has one word as the default language and as the name of the provider. -/
def repeatingPage : Page :=
  .more (.header (.single ⟨"i18n", by decide, List.all_eq_true.mp (by decide)⟩)) .feed <|
  .more (.setting (.single ⟨"default_language", by decide, List.all_eq_true.mp (by decide)⟩)
    reservedWord) .feed <|
  .more (.blank [] (List.forall_mem_nil _)) .feed <|
  .more (.header (.single ⟨"codegen", by decide, List.all_eq_true.mp (by decide)⟩)) .feed <|
  .more (.setting (.single ⟨"provider_name", by decide, List.all_eq_true.mp (by decide)⟩)
    reservedWord) .feed <|
  .last (.blank [] (List.forall_mem_nil _))

theorem settings_repeatingPage :
    repeatingPage.settings =
      [⟨["i18n", "default_language"], reservedWord, ⟨27, 7⟩⟩,
       ⟨["codegen", "provider_name"], reservedWord, ⟨64, 7⟩⟩] := rfl

theorem ofText_repeatingPage :
    ofText repeatingPage.text =
      .error (.invalidName "provider" "default" .reserved (some ⟨27, 7⟩)) := by
  have read : Toml.readDocument? repeatingPage.text.toList =
      some [("i18n", .mapping [("default_language", .string "default")]),
        ("codegen", .mapping [("provider_name", .string "default")])] := by
    rw [readDocument?_page]
    rfl
  have given : ofDocument? [("i18n", .mapping [("default_language", .string "default")]),
        ("codegen", .mapping [("provider_name", .string "default")])] =
      some { defaultLanguage := some "default", naming := { providerName := "default" } } := rfl
  have first : ⟨["i18n", "default_language"], reservedWord, ⟨27, 7⟩⟩ ∈ repeatingPage.settings :=
    List.mem_cons_self
  have label : valueSpan? repeatingPage.text "default" = some ⟨27, 7⟩ := valueSpan?_page first
  have judged : nameError? repeatingPage.text
      { defaultLanguage := some "default", naming := { providerName := "default" } } =
      some (.invalidName "provider" "default" .reserved (some ⟨27, 7⟩)) := by
    rw [nameError?, ← label]
    rfl
  rw [ofText, read, Option.bind_some, given]
  dsimp only
  rw [error?, judged]
  rfl

theorem invalidName_label_repeating :
    ofText repeatingPage.text =
        .error (.invalidName "provider" "default" .reserved (some ⟨27, 7⟩)) ∧
      ∃ earlier own later, repeatingPage.settings = earlier ++ own :: later ∧
        own.value.text = "default" ∧
        (some ⟨27, 7⟩ = some own.label ↔ ∀ other ∈ earlier, other.value.text ≠ "default") := by
  obtain ⟨_, earlier, own, later, _, split, _, value, _, _, atOwn⟩ :=
    invalidName_label repeatingPage ofText_repeatingPage
  exact ⟨ofText_repeatingPage, earlier, own, later, split, value, atOwn⟩

/-- The label is not always at the setting that assigns the name. -/
theorem invalidName_label_not_always_own :
    ¬ ∀ (page : Page) (role name : String) (fault : NameFault) (label : Option Span),
      ofText page.text = .error (.invalidName role name fault label) →
        ∃ key, (role, key) ∈ nameKeys ∧
          ∃ own ∈ page.settings, own.path = ["codegen", key] ∧ label = some own.label := by
  intro always
  obtain ⟨key, isKey, own, member, path, label⟩ := always _ _ _ _ _ ofText_repeatingPage
  rw [settings_repeatingPage, List.mem_cons, List.mem_singleton] at member
  rcases member with rfl | rfl
  · exact absurd (List.cons.inj path).1 (by decide)
  · cases label

end Phrasebook.Manifest
