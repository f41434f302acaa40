import Fieldbus.Text.Lowercase
import Fieldbus.Text.Numeral

/-!
# Names of the standard vocabulary

Object types, properties and enumerated values have names that people spell in several ways.
Folding removes the differences that do not count: letter case and the separators `-`, `_` and
space.  A vocabulary gives numeric codes their canonical names; codes without one are written
`proprietary-` and the number.
-/

namespace Fieldbus.Name

open Fieldbus.Text

/-- Whether a character only separates the words of a name. -/
def isSeparator (c : Char) : Bool := c = '-' || c = '_' || c = ' '

/-- The form of a name in which all its spellings agree: lower case without separators. -/
def fold (name : String) : List Char :=
  lowercaseAll (name.toList.filter fun c => !isSeparator c)

/-- The names of a range of codes. -/
structure Vocabulary where
  /-- The codes that have a name, with it, in ascending order. -/
  entries : List (Nat × String)
  /-- The least number that is too large to be a code. -/
  limit : Nat

namespace Vocabulary

/-- The word before the number of a code without a name. -/
def proprietary : String := "proprietary"

/-- The text after the word for codes without a name, or the whole text where it does not start
with that word. -/
def afterProprietary (folded : List Char) : List Char :=
  if proprietary.toList.isPrefixOf folded then folded.drop proprietary.length else folded

/-- The code that a name stands for: a canonical name in any spelling, or a number below the
limit, alone or after the word `proprietary`. -/
def code? (vocabulary : Vocabulary) (name : String) : Option Nat :=
  let folded := fold name
  match vocabulary.entries.find? fun entry => fold entry.2 = folded with
  | some entry => some entry.1
  | none => (natural? (vocabulary.limit - 1) (afterProprietary folded))

/-- The canonical name of a code. -/
def name? (vocabulary : Vocabulary) (code : Nat) : Option String :=
  (vocabulary.entries.find? fun entry => entry.1 = code).map Prod.snd

/-- The text of a code: its canonical name, or `proprietary-` and the number. -/
def text (vocabulary : Vocabulary) (code : Nat) : String :=
  (vocabulary.name? code).getD (proprietary ++ "-" ++ decimal code)

end Vocabulary

end Fieldbus.Name
