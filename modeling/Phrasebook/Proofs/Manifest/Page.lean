import Phrasebook.Proofs.Text.Label
import Phrasebook.Proofs.Toml.Reader
import Phrasebook.Proofs.Toml.Table

/-!
# Manifests as they are mostly written

A page is a manifest that consists of blank lines, headers, and settings: keys without quotes that are
assigned texts without escapes. Its settings are known with the full path of each key, and with the
place of each value.
-/

namespace Phrasebook.Manifest

open Text (Span byteSize byteSize_append byteSize_cons)
open Toml (BareKey PlainText assigned assignmentCode takeBreak? readLinesWithin)

/-- The end of a line behind which there is another one. -/
inductive LineEnd where
  | feed
  | returnAndFeed

def LineEnd.code : LineEnd → List Char
  | .feed => ['\n']
  | .returnAndFeed => ['\r', '\n']

/-- A line of a page. -/
inductive PageLine where
  | blank (blanks : List Char) (areBlank : ∀ c ∈ blanks, Toml.isBlank c = true)
  | header (key : BareKey)
  | setting (key : BareKey) (value : PlainText)

namespace PageLine

/-- A line, as it is written. -/
def code : PageLine → List Char
  | .blank blanks _ => blanks
  | .header key => '[' :: (key.code ++ [']'])
  | .setting key value => assignmentCode key value

/-- What a line means, unless it is blank. -/
def meaning? : PageLine → Option Toml.Line
  | .blank _ _ => none
  | .header key => some (.header false key.key)
  | .setting key value => some (.assignment key.key (.string value.text))

end PageLine

/-- A manifest that consists of such lines. -/
inductive Page where
  | last (line : PageLine)
  | more (line : PageLine) (ending : LineEnd) (rest : Page)

/-- A setting: the full path of its key, its value, and where the value is written. -/
structure Setting where
  path : List String
  value : PlainText
  label : Span

namespace PageLine

/-- The setting on a line that starts at a byte offset below a header. The value is written behind
the key, the equals sign between its blanks, and a quote. -/
def settings (header : List String) (offset : Nat) : PageLine → List Setting
  | .setting key value =>
      [⟨header ++ key.key.full, value,
        ⟨offset + (byteSize key.code + 4), byteSize value.text.toList⟩⟩]
  | _ => []

/-- The header in force behind a line. -/
def headerBehind (header : List String) : PageLine → List String
  | .header key => key.key.full
  | _ => header

end PageLine

namespace Page

/-- A page, as it is written. -/
def code : Page → List Char
  | .last line => line.code
  | .more line ending rest => line.code ++ (ending.code ++ rest.code)

def text (page : Page) : String :=
  String.ofList page.code

/-- What the lines of a page mean. -/
def lines : Page → List Toml.Line
  | .last line => line.meaning?.toList
  | .more line _ rest => line.meaning?.toList ++ rest.lines

/-- The settings of a page that starts at a byte offset below a header. -/
def settingsFrom (header : List String) (offset : Nat) : Page → List Setting
  | .last line => line.settings header offset
  | .more line ending rest =>
      line.settings header offset ++
        rest.settingsFrom (line.headerBehind header)
          (offset + (byteSize line.code + byteSize ending.code))

/-- The settings of a page, in the order in which they are written. -/
def settings (page : Page) : List Setting :=
  page.settingsFrom [] 0

end Page

/-! ## Reading pages -/

theorem takeBreak?_code (ending : LineEnd) (rest : List Char) :
    takeBreak? (ending.code ++ rest) = some rest := by
  cases ending <;> rfl

/-- The first line of a text is read. -/
theorem readLinesWithin_line (line : PageLine) {tail rest : List Char}
    (found : takeBreak? tail = some rest) (fuel : Nat) {lines : List Toml.Line}
    (read : ∀ {enough}, rest.length < enough → readLinesWithin enough rest = some lines)
    (enough : rest.length < fuel) :
    readLinesWithin (fuel + 1) (line.code ++ tail) = some (line.meaning?.toList ++ lines) := by
  have ends := Toml.endLine?_break found
  cases line with
  | blank blanks areBlank =>
      exact (Toml.readLinesWithin_blank areBlank found fuel).trans (read (Nat.lt_succ_of_lt enough))
  | header key =>
      rw [PageLine.code, List.cons_append, List.append_assoc, List.singleton_append,
        Toml.readLinesWithin_header key ends, read enough]
      rfl
  | setting key value =>
      rw [PageLine.code, Toml.readLinesWithin_assignment key value ends, read enough]
      rfl

/-- The last line of a text is read. -/
theorem readLinesWithin_last (line : PageLine) {fuel : Nat} (enough : line.code.length < fuel) :
    readLinesWithin fuel line.code = some line.meaning?.toList := by
  obtain ⟨fuel, rfl⟩ := Nat.exists_eq_succ_of_ne_zero (Nat.ne_zero_of_lt enough)
  have nothing (positive : fuel ≠ 0) : readLinesWithin fuel [] = some [] := by
    obtain ⟨fuel, rfl⟩ := Nat.exists_eq_succ_of_ne_zero positive
    exact Toml.readLinesWithin_blanks (List.forall_mem_nil _) fuel
  cases line with
  | blank blanks areBlank => exact Toml.readLinesWithin_blanks areBlank fuel
  | header key =>
      have positive : fuel ≠ 0 := by
        rw [PageLine.code, List.length_cons] at enough
        omega
      rw [PageLine.code, Toml.readLinesWithin_header key rfl, nothing positive]
      rfl
  | setting key value =>
      have positive : fuel ≠ 0 := by
        rw [PageLine.code, assignmentCode, List.length_append, List.length_cons] at enough
        omega
      have ends : Toml.endLine? [] = some [] := rfl
      have read := Toml.readLinesWithin_assignment key value ends fuel
      rw [List.append_nil, nothing positive] at read
      exact read

theorem readLinesWithin_page (page : Page) {fuel : Nat} (enough : page.code.length < fuel) :
    readLinesWithin fuel page.code = some page.lines := by
  induction page generalizing fuel with
  | last line => exact readLinesWithin_last line enough
  | more line ending rest ih =>
      have size : ending.code.length ≠ 0 := by cases ending <;> decide
      rw [Page.code, List.length_append, List.length_append] at enough
      obtain ⟨fuel, rfl⟩ := Nat.exists_eq_succ_of_ne_zero (Nat.ne_zero_of_lt enough)
      exact readLinesWithin_line line (takeBreak?_code ending rest.code) fuel ih (by omega)

/-- A line with what follows it does not start with the mark of a byte order. -/
theorem head?_line_ne (line : PageLine) {tail : List Char} (noMark : tail.head? ≠ some '\uFEFF') :
    (line.code ++ tail).head? ≠ some '\uFEFF' := by
  cases line with
  | blank blanks areBlank =>
      cases blanks with
      | nil => exact noMark
      | cons c blanks =>
          rintro mark
          obtain rfl : c = '\uFEFF' := Option.some.inj mark
          exact absurd (areBlank _ List.mem_cons_self) (by decide)
  | header key => exact nofun
  | setting key value =>
      obtain ⟨c, rest, same, bare⟩ := key.code_eq_cons
      rw [PageLine.code, assignmentCode, same]
      rintro mark
      exact Toml.ne_of_isBareKey bare rfl (Option.some.inj mark)

theorem dropMark_page (page : Page) : Toml.dropMark page.code = page.code := by
  have noMark : page.code.head? ≠ some '\uFEFF' := by
    cases page with
    | last line =>
        have start : (line.code ++ []).head? ≠ some '\uFEFF' := head?_line_ne line nofun
        rwa [List.append_nil] at start
    | more line ending rest => exact head?_line_ne line (by cases ending <;> exact nofun)
  unfold Toml.dropMark
  split
  · rename_i mark
    rw [mark] at noMark
    exact absurd rfl noMark
  · rfl

theorem readDocument?_page (page : Page) :
    Toml.readDocument? page.text.toList = Toml.documentOf? page.lines := by
  rw [Page.text, String.toList_ofList, Toml.readDocument?, dropMark_page,
    readLinesWithin_page page (Nat.lt_succ_self _)]

theorem single_lines (page : Page) (key : Toml.Key) : Toml.Line.header true key ∉ page.lines := by
  have single (line : PageLine) : Toml.Line.header true key ∉ line.meaning?.toList := by
    cases line <;> simp [PageLine.meaning?]
  induction page with
  | last line => exact single line
  | more line ending rest ih => exact fun member => (List.mem_append.mp member).elim (single line) ih

/-- The settings of a page are what its lines assign. -/
theorem assigned_lines (page : Page) (header : List String) (offset : Nat) :
    assigned header page.lines =
      (page.settingsFrom header offset).map fun setting => (setting.path, .string setting.value.text) := by
  induction page generalizing header offset with
  | last line => cases line <;> rfl
  | more line ending rest ih =>
      have later := ih (line.headerBehind header) (offset + (byteSize line.code + byteSize ending.code))
      rw [Page.settingsFrom, List.map_append, ← later]
      cases line <;> rfl

/-! ## Places of values -/

/-- What stands on the line of a setting before the quote that opens the value. -/
def settingFront (key : BareKey) : List Char :=
  key.code ++ [' ', '=', ' ']

theorem byteSize_settingFront (key : BareKey) :
    byteSize (settingFront key) = byteSize key.code + 3 :=
  byteSize_append _ _

theorem code_setting (key : BareKey) (value : PlainText) :
    (PageLine.setting key value).code =
      settingFront key ++ '"' :: (value.text.toList ++ ['"']) := by
  rw [settingFront, List.append_assoc]
  rfl

/-- A value stands between quotes on the line of its setting. -/
theorem exists_quotes_line (line : PageLine) {header : List String} {offset : Nat} {setting : Setting}
    (member : setting ∈ line.settings header offset) :
    ∃ front, line.code = front ++ '"' :: (setting.value.text.toList ++ ['"']) ∧
      setting.label = ⟨offset + byteSize front + 1, byteSize setting.value.text.toList⟩ := by
  cases line with
  | blank blanks areBlank => cases member
  | header key => cases member
  | setting key value =>
      obtain rfl := List.mem_singleton.mp member
      exact ⟨settingFront key, code_setting key value, by rw [byteSize_settingFront, Nat.add_assoc]⟩

/-- The label of a setting is the text between the quotes on its line. -/
theorem exists_quotes (page : Page) {header : List String} {offset : Nat} {setting : Setting}
    (member : setting ∈ page.settingsFrom header offset) :
    ∃ front back, page.code = front ++ '"' :: (setting.value.text.toList ++ '"' :: back) ∧
      setting.label = ⟨offset + byteSize front + 1, byteSize setting.value.text.toList⟩ := by
  induction page generalizing header offset with
  | last line =>
      obtain ⟨front, code, label⟩ := exists_quotes_line line member
      exact ⟨front, [], code, label⟩
  | more line ending rest ih =>
      rcases List.mem_append.mp member with onLine | behind
      · obtain ⟨front, code, label⟩ := exists_quotes_line line onLine
        refine ⟨front, ending.code ++ rest.code, ?_, label⟩
        simp [Page.code, code]
      · obtain ⟨front, back, code, label⟩ := ih behind
        refine ⟨line.code ++ (ending.code ++ front), back, ?_, ?_⟩
        · simp [Page.code, code]
        · rw [label, byteSize_append, byteSize_append]
          simp only [Nat.add_assoc]

/-- The values of a page are written one behind the other. -/
theorem pairwise_settingsFrom (page : Page) (header : List String) (offset : Nat) :
    (page.settingsFrom header offset).Pairwise fun one other => one.label.offset < other.label.offset := by
  induction page generalizing header offset with
  | last line => cases line <;> simp [Page.settingsFrom, PageLine.settings]
  | more line ending rest ih =>
      rw [Page.settingsFrom, List.pairwise_append]
      refine ⟨by cases line <;> simp [PageLine.settings], ih _ _, fun one onLine other behind => ?_⟩
      obtain ⟨front, code, label⟩ := exists_quotes_line line onLine
      obtain ⟨before, _, _, place⟩ := exists_quotes rest behind
      have size := congrArg byteSize code
      have quote : '"'.utf8Size = 1 := rfl
      rw [byteSize_append, byteSize_cons, quote] at size
      rw [label, place]
      dsimp only
      omega

end Phrasebook.Manifest
