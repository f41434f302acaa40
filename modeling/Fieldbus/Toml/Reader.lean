import Fieldbus.Toml.Lexeme
import Fieldbus.Toml.Quoted
import Fieldbus.Toml.Table

/-!
# Reading TOML documents

A document is a row of lines: headers, keys with values, and comments.  What stands before the
first header belongs to the root table.
-/

namespace Fieldbus.Toml

open Fieldbus.Text Members

/-- Arrays, inline tables and dotted keys have fewer levels than this. -/
def levelLimit : Nat := 80

/-- Whether a character may stand in a key without quotes. -/
def isBareKey (c : Char) : Bool := c.isAlphanum || c = '_' || c = '-'

/-- One part of a key, and the text after it. -/
def keyPart? (text : List Char) : Option (String × List Char) :=
  let row := text.takeWhile isBareKey
  if row.isEmpty then lineString? text
  else some (String.ofList row, text.dropWhile isBareKey)

/-- The parts of a key, with dots and perhaps spaces between them, and the text after it. -/
def keyParts? : Nat → List Char → Option (List String × List Char)
  | 0, _ => none
  | fuel + 1, text => do
    let (part, rest) ← keyPart? (skipSpaces text)
    match skipSpaces rest with
    | '.' :: rest =>
      let (parts, rest) ← keyParts? fuel rest
      return (part :: parts, rest)
    | rest => return ([part], rest)

/-- A key, as the path to its table and its own name, and the text after it. -/
def key? (text : List Char) : Option ((List String × String) × List Char) := do
  let (parts, rest) ← keyParts? (levelLimit - 1) text
  let last ← parts.getLast?
  return ((parts.dropLast, last), rest)

/-- The text after a comment, which may hold any characters but control characters. -/
def afterComment? (text : List Char) : Option (List Char) :=
  match text with
  | '#' :: rest => some (rest.dropWhile fun c => !isControl c)
  | text => some text

/-- The text after spaces and a comment, which have to fill the rest of the line. -/
def endLine? (text : List Char) : Option (List Char) := do
  let rest ← afterComment? (skipSpaces text)
  match rest with
  | [] => some []
  | rest => afterNewline? rest

/-- The text without the spaces, line breaks and comments that it starts with. -/
def skipFiller? : Nat → List Char → Option (List Char)
  | 0, text => some text
  | fuel + 1, text => do
    let text := skipSpaces text
    let rest ← afterComment? text
    match afterNewline? rest with
    | some rest => skipFiller? fuel rest
    | none => if rest.length = text.length then some rest else none

/-- A plain value, and the text after it.  A date may be followed by a space and a time. -/
def plainValue? (text : List Char) : Option (Toml × List Char) :=
  let row := text.takeWhile isPlain
  let rest := text.dropWhile isPlain
  let time := match rest with
    | ' ' :: more => more.takeWhile isPlain
    | _ => []
  if isDate row && isTime true time then some (.datetime, rest.drop (1 + time.length))
  else (plain? row).map fun value => (value, rest)

mutual

/-- The value that a text starts with, nested fewer than `levels` deep, and the text after it. -/
def value? (levels : Nat) : Nat → List Char → Option (Toml × List Char)
  | 0, _ => none
  | fuel + 1, text =>
    match text with
    | '[' :: rest =>
      if levels = 0 then none
      else (items? (levels - 1) fuel rest).map fun found => (.array found.1, found.2)
    | '\x7b' :: rest =>
      if levels = 0 then none
      else do
        let (entries, rest) ← match skipSpaces rest with
          | '\x7d' :: rest => some ([], rest)
          | rest => pairs? (levels - 1) fuel rest
        let members ← addEntries [] entries
        return (.table (Item.values members), rest)
    | '"' :: rest => (string? ('"' :: rest)).map fun found => (.string found.1, found.2)
    | '\'' :: rest => (string? ('\'' :: rest)).map fun found => (.string found.1, found.2)
    | text => plainValue? text

/-- The values of an array up to its closing bracket; a comma may follow the last one. -/
def items? (levels : Nat) : Nat → List Char → Option (List Toml × List Char)
  | 0, _ => none
  | fuel + 1, text => do
    let text ← skipFiller? text.length text
    match text with
    | ']' :: rest => return ([], rest)
    | text =>
      let (item, rest) ← value? levels fuel text
      let rest ← skipFiller? rest.length rest
      match rest with
      | ']' :: rest => return ([item], rest)
      | ',' :: rest =>
        let (items, rest) ← items? levels fuel rest
        return (item :: items, rest)
      | _ => none

/-- One or more keys with values up to the closing brace of an inline table. -/
def pairs? (levels : Nat) : Nat → List Char → Option (List Entry × List Char)
  | 0, _ => none
  | fuel + 1, text => do
    let ((path, key), rest) ← key? text
    match rest with
    | '=' :: rest =>
      let (value, rest) ← value? levels fuel (skipSpaces rest)
      match skipSpaces rest with
      | '\x7d' :: rest => return ([⟨path, key, value⟩], rest)
      | ',' :: rest =>
        let (entries, rest) ← pairs? levels fuel rest
        return (⟨path, key, value⟩ :: entries, rest)
      | _ => none
    | _ => none

end

/-- A header: the path to its table, its name, and whether it repeats. -/
structure Header where
  path : List String
  key : String
  repeats : Bool

/-- A line that counts. -/
inductive Line where
  | header (header : Header)
  | entry (entry : Entry)

/-- The line with a header that a text starts with, and the text after it. -/
def headerLine? (text : List Char) : Option (Line × List Char) := do
  match text with
  | '[' :: '[' :: rest =>
    let ((path, key), rest) ← key? rest
    match rest with
    | ']' :: ']' :: rest => return (.header ⟨path, key, true⟩, ← endLine? rest)
    | _ => none
  | '[' :: rest =>
    let ((path, key), rest) ← key? rest
    match rest with
    | ']' :: rest => return (.header ⟨path, key, false⟩, ← endLine? rest)
    | _ => none
  | _ => none

/-- The line with a key and a value that a text starts with, and the text after it. -/
def entryLine? (text : List Char) : Option (Line × List Char) := do
  let ((path, key), rest) ← key? text
  match rest with
  | '=' :: rest =>
    let (value, rest) ← value? (levelLimit - 1) (text.length + 1) (skipSpaces rest)
    return (.entry ⟨path, key, value⟩, ← endLine? rest)
  | _ => none

/-- The lines of a text that count, in order. -/
def lines? : Nat → List Char → Option (List Line)
  | 0, _ => none
  | fuel + 1, text =>
    match skipSpaces text with
    | [] => some []
    | '#' :: rest => (endLine? ('#' :: rest)).bind (lines? fuel)
    | '[' :: rest => do
      let (line, rest) ← headerLine? ('[' :: rest)
      return line :: (← lines? fuel rest)
    | text =>
      match afterNewline? text with
      | some rest => lines? fuel rest
      | none => do
        let (line, rest) ← entryLine? text
        return line :: (← lines? fuel rest)

/-- A header, or none for the root table, and the entries under it. -/
abbrev Section := Option Header × List Entry

/-- Lines grouped by the headers over them. -/
def sections : List Line → List Section
  | [] => [(none, [])]
  | .entry entry :: rest =>
    match sections rest with
    | (none, entries) :: more => (none, entry :: entries) :: more
    | more => (none, [entry]) :: more
  | .header header :: rest =>
    match sections rest with
    | (none, entries) :: more => (none, []) :: (some header, entries) :: more
    | more => (none, []) :: (some header, []) :: more

/-- Adds a section to the root table. -/
def addSection (root : Members) : Section → Option Members
  | (none, entries) => addEntries root entries
  | (some header, entries) =>
    if header.repeats then addRow root header.path header.key entries
    else addTable root header.path header.key entries

/-- The members of the root table of a document; a byte order mark may start its text. -/
def document? (text : String) : Option (List (String × Toml)) := do
  let text := match text.toList with
    | '\ufeff' :: rest => rest
    | text => text
  let lines ← lines? (text.length + 1) text
  let root ← (sections lines).foldlM addSection []
  return Item.values root

end Fieldbus.Toml
