import Fieldbus.Text.Numeral

/-!
# The shape of a JSON text

Reading a JSON text down to its shape: which values it nests, with the characters of its strings
and the digits of its numbers still to be understood.  A text has a shape when it obeys the
grammar; whether its strings are text and its numbers in range is asked only of the parts that are
used.
-/

namespace Fieldbus.Json

open Fieldbus.Text

/-- A piece of a string: a character, or a code unit of 16 bits given by number. -/
inductive StringPiece where
  | char (c : Char)
  | unit (code : Nat)
  deriving DecidableEq, Repr

/-- The digits of a number. -/
structure NumberShape where
  negative : Bool
  whole : List Char
  /-- The digits after the point, if there is a point. -/
  fraction : Option (List Char)
  /-- Whether the exponent is negative, and its digits, if there is one. -/
  exponent : Option (Bool × List Char)
  deriving DecidableEq, Repr

/-- The shape of a JSON value. -/
inductive Tree where
  | null
  | bool (value : Bool)
  | number (shape : NumberShape)
  | string (pieces : List StringPiece)
  | array (items : List Tree)
  | object (members : List (List StringPiece × Tree))
  deriving Repr

namespace Tree

/-- Whether a character may stand between the parts of a JSON text. -/
def isBlank (c : Char) : Bool := c = ' ' || c = '\n' || c = '\t' || c = '\r'

/-- The text without its leading blanks. -/
def skipBlanks (text : List Char) : List Char := text.dropWhile isBlank

/-- The text after a word that it has to start with. -/
def afterWord? (word : List Char) (text : List Char) : Option (List Char) :=
  if word.isPrefixOf text then some (text.drop word.length) else none

/-- The digits that a text starts with, at least one, and the text after them. -/
def someDigits? (text : List Char) : Option (List Char × List Char) :=
  let row := text.takeWhile isDigit
  if row.isEmpty then none else some (row, text.dropWhile isDigit)

/-- The digits before the point: a zero alone, or digits of which the first is no zero. -/
def wholeDigits? (text : List Char) : Option (List Char × List Char) :=
  (someDigits? text).filter fun found => found.1 = ['0'] || found.1.head? != some '0'

/-- A point and digits, or nothing. -/
def fractionDigits? : List Char → Option (Option (List Char) × List Char)
  | '.' :: rest => (someDigits? rest).map fun found => (some found.1, found.2)
  | text => some (none, text)

/-- A mark, an optional sign and digits, or nothing. -/
def exponentDigits? : List Char → Option (Option (Bool × List Char) × List Char)
  | [] => some (none, [])
  | mark :: rest =>
    if mark = 'e' ∨ mark = 'E' then
      let (negative, row) := match rest with
        | '-' :: row => (true, row)
        | '+' :: row => (false, row)
        | row => (false, row)
      (someDigits? row).map fun found => (some (negative, found.1), found.2)
    else some (none, mark :: rest)

/-- The number that a text starts with, and the text after it. -/
def number? (text : List Char) : Option (NumberShape × List Char) := do
  let (negative, text) := match text with
    | '-' :: rest => (true, rest)
    | text => (false, text)
  let (whole, text) ← wholeDigits? text
  let (fraction, text) ← fractionDigits? text
  let (exponent, text) ← exponentDigits? text
  return (⟨negative, whole, fraction, exponent⟩, text)

/-- The code unit that four hexadecimal digits spell, and the text after them. -/
def unit? : List Char → Option (Nat × List Char)
  | a :: b :: c :: d :: rest => do
    let a ← hexDigit? a
    let b ← hexDigit? b
    let c ← hexDigit? c
    let d ← hexDigit? d
    return (((a * 16 + b) * 16 + c) * 16 + d, rest)
  | _ => none

/-- The character that a letter stands for after a backslash. -/
def escaped? (letter : Char) : Option Char :=
  [('"', '"'), ('\\', '\\'), ('/', '/'), ('b', '\x08'), ('f', '\x0c'), ('n', '\n'),
   ('r', '\r'), ('t', '\t')].lookup letter

/-- The rest of a string after its opening quotation mark, and the text after the string. -/
def stringRest? : Nat → List Char → Option (List StringPiece × List Char)
  | 0, _ => none
  | _, [] => none
  | fuel + 1, c :: rest =>
    if c = '"' then some ([], rest)
    else if c = '\\' then
      match rest with
      | [] => none
      | letter :: rest =>
        if letter = 'u' then do
          let (code, rest) ← unit? rest
          let (pieces, rest) ← stringRest? fuel rest
          return (.unit code :: pieces, rest)
        else do
          let char ← escaped? letter
          let (pieces, rest) ← stringRest? fuel rest
          return (.char char :: pieces, rest)
    else if c.toNat < 32 then none
    else do
      let (pieces, rest) ← stringRest? fuel rest
      return (.char c :: pieces, rest)

/-- The string that a text starts with, and the text after it. -/
def string? : List Char → Option (List StringPiece × List Char)
  | '"' :: rest => stringRest? (rest.length + 1) rest
  | _ => none

mutual

/-- The value that a text starts with, and the text after it.  Every level of recursion uses up a
character, so the length of the text bounds them. -/
def value? : Nat → List Char → Option (Tree × List Char)
  | 0, _ => none
  | fuel + 1, text =>
    match skipBlanks text with
    | [] => none
    | '[' :: rest =>
      match skipBlanks rest with
      | ']' :: rest => some (.array [], rest)
      | rest => (items? fuel rest).map fun found => (.array found.1, found.2)
    | '\x7b' :: rest =>
      match skipBlanks rest with
      | '\x7d' :: rest => some (.object [], rest)
      | rest => (members? fuel rest).map fun found => (.object found.1, found.2)
    | '"' :: rest => (string? ('"' :: rest)).map fun found => (.string found.1, found.2)
    | 'n' :: rest => (afterWord? "ull".toList rest).map fun rest => (.null, rest)
    | 't' :: rest => (afterWord? "rue".toList rest).map fun rest => (.bool true, rest)
    | 'f' :: rest => (afterWord? "alse".toList rest).map fun rest => (.bool false, rest)
    | text => (number? text).map fun found => (.number found.1, found.2)

/-- One or more values with commas between them, up to a closing bracket. -/
def items? : Nat → List Char → Option (List Tree × List Char)
  | 0, _ => none
  | fuel + 1, text => do
    let (item, text) ← value? fuel text
    match skipBlanks text with
    | ']' :: rest => return ([item], rest)
    | ',' :: rest =>
      let (items, rest) ← items? fuel rest
      return (item :: items, rest)
    | _ => none

/-- One or more members with commas between them, up to a closing brace. -/
def members? : Nat → List Char → Option (List (List StringPiece × Tree) × List Char)
  | 0, _ => none
  | fuel + 1, text => do
    let (name, text) ← string? (skipBlanks text)
    match skipBlanks text with
    | ':' :: text =>
      let (value, text) ← value? fuel text
      match skipBlanks text with
      | '\x7d' :: rest => return ([(name, value)], rest)
      | ',' :: rest =>
        let (members, rest) ← members? fuel rest
        return ((name, value) :: members, rest)
      | _ => none
    | _ => none

end

/-- The shape of a whole text. -/
def ofText? (text : String) : Option Tree := do
  let (tree, rest) ← value? (text.length + 1) text.toList
  if (skipBlanks rest).isEmpty then return tree else none

end Tree

end Fieldbus.Json
