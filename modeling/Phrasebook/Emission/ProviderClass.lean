import Phrasebook.Emission.Options
import Phrasebook.Script.Declaration

/-!
# The provider class

The class that holds the messages of all languages and switches between them. When
languages are loaded on demand, switching is asynchronous and keeps what was loaded.
-/

namespace Phrasebook.Emission

open Code Script

/-- The type of the map from languages to their messages. -/
def mapsType (naming : Naming) (isLazy : Bool) : String :=
  let root := naming.rootType
  if isLazy then
    "Record<" ++ naming.languageType ++ ", " ++ root ++ " | (() => Promise<" ++ root ++ ">)>"
  else "Record<" ++ naming.languageType ++ ", " ++ root ++ ">"

def switchMethod (isLazy : Bool) (param : String) : Method :=
  if isLazy then
    { name := "setLanguage", params := param, isAsync := true, returns := some "Promise<void>"
      body :=
        [.line "const value = this.maps[lang];",
         .block "if (typeof value === \"function\") \x7b"
           [.line "this.maps[lang] = await value();"] (some "\x7d"),
         .line "this._lang = lang;"] }
  else
    { name := "setLanguage", params := param, returns := some "void"
      body := [.line "this._lang = lang;"] }

/-- The accessor of the current messages. A lazy provider only ever selects languages that
have been loaded, which the type system has to be told. -/
def currentLine (naming : Naming) (isLazy : Bool) : String :=
  if isLazy then "return this.maps[this._lang] as " ++ naming.rootType ++ ";"
  else "return this.maps[this._lang];"

/-- The class, or its exported declaration. A lazy provider has no setter, since a switch
that loads cannot be a plain assignment. -/
def providerClass (naming : Naming) (isLazy declared : Bool) : Script.Class where
  name := naming.providerClass
  exported := declared
  declared := declared
  params :=
    [{ name := "maps", type := mapsType naming isLazy, isPrivate := true },
     { name := if declared then "lang" else "_lang", type := naming.languageType, isPrivate := true }]
  methods :=
    let param := "lang: " ++ naming.languageType
    { kind := .getter, name := "lang", returns := some naming.languageType
      body := [.line "return this._lang;"] } ::
    (if isLazy then []
      else [{ kind := .setter, name := "lang", params := param, body := [.line "this._lang = lang;"] }]) ++
    [switchMethod isLazy param,
     { kind := .getter, name := "t", returns := some naming.rootType
       body := [.line (currentLine naming isLazy)] }]

end Phrasebook.Emission
