import Phrasebook.Script.Token
import Phrasebook.Text.Lines

/-!
# Declarations at the top of a file

What a text of code declares at its outermost level, read off the lines that open a declaration:
they have no margin, and after the words that export or merely announce it they name its kind. A
class takes its name for a type and for a value, an alias only for a type, a constant only for a
value; two declarations clash when they take one name for the same.
-/

namespace Phrasebook.Script

open Text

/-- What a declaration declares. -/
inductive DeclarationKind where
  | ofAlias
  | ofClass
  | ofConst
deriving DecidableEq, Repr

namespace DeclarationKind

def all : List DeclarationKind := [.ofAlias, .ofClass, .ofConst]

/-- What stands before the name. -/
def word : DeclarationKind → List Char
  | .ofAlias => ['t', 'y', 'p', 'e', ' ']
  | .ofClass => ['c', 'l', 'a', 's', 's', ' ']
  | .ofConst => ['c', 'o', 'n', 's', 't', ' ']

def namesType : DeclarationKind → Bool
  | .ofAlias => true
  | .ofClass => true
  | .ofConst => false

def namesValue : DeclarationKind → Bool
  | .ofAlias => false
  | .ofClass => true
  | .ofConst => true

end DeclarationKind

structure Declared where
  kind : DeclarationKind
  name : String
deriving DecidableEq, Repr

/-- Whether two declarations take the same name for the same. -/
def Declared.clashes (one other : Declared) : Bool :=
  one.name = other.name &&
    (one.kind.namesType && other.kind.namesType || one.kind.namesValue && other.kind.namesValue)

/-- A text without a word in front, if it stands there. -/
def withoutWord (word text : List Char) : List Char :=
  (word.isPrefixOf? text).getD text

/-- The kind of the declaration that a line opens, and what stands behind its word. -/
def openedKind? (line : List Char) : Option (DeclarationKind × List Char) :=
  let announced := withoutWord "declare ".toList (withoutWord "export ".toList line)
  DeclarationKind.all.findSome? fun kind =>
    (kind.word.isPrefixOf? announced).map fun rest => (kind, rest)

/-- What a line declares that has no margin: the name behind the word of the kind. -/
def declared? (line : List Char) : Option Declared :=
  match openedKind? line with
  | some (kind, rest) =>
      match token? rest with
      | some (.word name, _) => some ⟨kind, name⟩
      | _ => none
  | none => none

/-- What a text of code declares at its outermost level, in order. -/
def declarations (code : String) : List Declared :=
  (splitLines code.toList).filterMap declared?

end Phrasebook.Script
