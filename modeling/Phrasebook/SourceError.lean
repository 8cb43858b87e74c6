import Phrasebook.Locale.Format
import Phrasebook.Text.Span

/-!
# Errors in sources

Why a project cannot be read: its manifest or a locale file is missing, malformed, or says
something that cannot be. Every error has words, a code, and perhaps an advice; some label
a part of the source.
-/

namespace Phrasebook

/-- Why a setting is refused that has the right type. -/
inductive SettingFault where
  | indent (width : Nat)
  | noLanguages
  | repeatedLanguage (name : String)
  | defaultNotListed (name : String)
deriving DecidableEq, Repr

def SettingFault.message : SettingFault → String
  | .indent width => "indent must be 2, 4 or 8 spaces, got " ++ toString width
  | .noLanguages => "languages must not be empty"
  | .repeatedLanguage name => "language '" ++ name ++ "' is listed twice"
  | .defaultNotListed name => "default language '" ++ name ++ "' is not in languages"

/-- Why a text cannot name a declaration. -/
inductive NameFault where
  | empty
  | reserved
  | notAnIdentifier
deriving DecidableEq, Repr

def NameFault.reason : NameFault → String
  | .empty => "name cannot be empty"
  | .reserved => "name is a reserved word"
  | .notAnIdentifier => "name is not a valid identifier"

inductive LocaleFault where
  /-- The text is malformed. Where that shows is labelled if it is known. -/
  | malformed (span : Option Text.Span)
  /-- The root of the document is of a kind other than a mapping. -/
  | notAMapping (typeName : String)
deriving DecidableEq, Repr

/-- What a locale file is refused for, in words, where they are this library's own. -/
def LocaleFault.detail? : LocaleFault → Option String
  | .malformed _ => none
  | .notAMapping typeName => some ("locale document root must be a mapping, found " ++ typeName)

def LocaleFault.span? : LocaleFault → Option Text.Span
  | .malformed span => span
  | .notAMapping _ => none

/-- Why a project cannot be read. -/
inductive SourceError where
  | unreadable (path : Path)
  /-- The text is no manifest. The label that its reader gives is left out. -/
  | malformedManifest
  | refusedSetting (fault : SettingFault) (span : Option Text.Span)
  | invalidName (role name : String) (fault : NameFault) (span : Option Text.Span)
  | refusedLocale (path : Path) (format : LocaleFormat) (fault : LocaleFault)
  | noLocales (directory : Path)
  | missingLocale (language : String) (directory : Path)
  | duplicateLocale (language : String) (first second : Path)
deriving DecidableEq, Repr

namespace SourceError

def message : SourceError → String
  | unreadable path => "failed to read '" ++ path.text ++ "'"
  | malformedManifest => "failed to parse glossa.toml"
  | refusedSetting fault _ => fault.message
  | invalidName role name _ _ => "invalid " ++ role ++ " name '" ++ name ++ "'"
  | refusedLocale path _ _ => "failed to parse locale file '" ++ path.text ++ "'"
  | noLocales directory => "no locale files found in '" ++ directory.text ++ "'"
  | missingLocale language directory =>
      "language '" ++ language ++ "' has no locale file in '" ++ directory.text ++ "'"
  | duplicateLocale language first second =>
      "language '" ++ language ++ "' is defined by both '" ++ first.text ++ "' and '" ++
        second.text ++ "'"

def code : SourceError → String
  | unreadable _ => "glossa::io_error"
  | malformedManifest => "glossa::parse_error"
  | refusedSetting _ _ => "glossa::validation_error"
  | invalidName _ _ _ _ => "glossa::invalid_name"
  | refusedLocale _ _ _ => "glossa::locale_error"
  | noLocales _ => "glossa::no_locales"
  | missingLocale _ _ => "glossa::missing_locale"
  | duplicateLocale _ _ _ => "glossa::duplicate_locale"

def help? : SourceError → Option String
  | invalidName _ _ fault _ =>
      some (fault.reason ++ ". Use letters, digits, '_' or '$', not starting with a digit.")
  | noLocales _ => some "add one <language>.yaml, .yml, .json or .toml file per language"
  | duplicateLocale _ _ _ => some "keep a single locale file per language"
  | _ => none

/-- The part of the source that an error is about. -/
def span? : SourceError → Option Text.Span
  | refusedSetting _ span => span
  | invalidName _ _ _ span => span
  | refusedLocale _ _ fault => fault.span?
  | _ => none

/-- What the label of that part says. -/
def label : SourceError → String
  | invalidName _ _ _ _ => "invalid name"
  | error => error.message

end SourceError

end Phrasebook
