import Fieldbus.Text.Numeral

/-!
# Strings of TOML

The four ways to write a string: with escapes or literally, on one line or over several.
-/

namespace Fieldbus.Toml

open Fieldbus.Text

/-- Whether a character is a control character that text may not hold; the tabulator may. -/
def isControl (c : Char) : Bool := (c.toNat < 32 && c != '\t') || c.toNat = 127

/-- The text after a line break, if it starts with one. -/
def afterNewline? : List Char → Option (List Char)
  | '\n' :: rest => some rest
  | '\r' :: '\n' :: rest => some rest
  | _ => none

/-- Whether a character is a space or tabulator. -/
def isSpace (c : Char) : Bool := c = ' ' || c = '\t'

/-- The text without its leading spaces. -/
def skipSpaces (text : List Char) : List Char := text.dropWhile isSpace

/-- The character of a code point, if it has one. -/
def scalar? (code : Nat) : Option Char :=
  if code < 0xd800 ∨ (0xdfff < code ∧ code < 0x110000) then some (Char.ofNat code) else none

/-- The character that `width` hexadecimal digits spell, and the text after them. -/
def scalarEscape? (width : Nat) (text : List Char) : Option (Char × List Char) := do
  let row := text.take width
  if row.length = width then
    let digits ← row.mapM hexDigit?
    let c ← scalar? (digits.foldl (fun value digit => 16 * value + digit) 0)
    return (c, text.drop width)
  else none

/-- The character of an escape after its backslash, and the text after it. -/
def escape? : List Char → Option (Char × List Char)
  | 'b' :: rest => some ('\x08', rest)
  | 't' :: rest => some ('\t', rest)
  | 'n' :: rest => some ('\n', rest)
  | 'f' :: rest => some ('\x0c', rest)
  | 'r' :: rest => some ('\r', rest)
  | '"' :: rest => some ('"', rest)
  | '\\' :: rest => some ('\\', rest)
  | 'u' :: rest => scalarEscape? 4 rest
  | 'U' :: rest => scalarEscape? 8 rest
  | _ => none

/-- The rest of a string on one line, up to its closing mark.  `escapes` tells whether a backslash
starts an escape. -/
def lineRest? (mark : Char) (escapes : Bool) : Nat → List Char → Option (List Char × List Char)
  | 0, _ => none
  | _, [] => none
  | fuel + 1, c :: rest =>
    if c = mark then some ([], rest)
    else if c = '\\' && escapes then do
      let (char, rest) ← escape? rest
      let (text, rest) ← lineRest? mark escapes fuel rest
      return (char :: text, rest)
    else if isControl c then none
    else do
      let (text, rest) ← lineRest? mark escapes fuel rest
      return (c :: text, rest)

/-- The text without the spaces and line breaks that it starts with. -/
def skipSpacesAndLines : Nat → List Char → List Char
  | 0, text => text
  | fuel + 1, text =>
    match afterNewline? (skipSpaces text) with
    | some rest => skipSpacesAndLines fuel rest
    | none => skipSpaces text

/-- The rest of a string over several lines.  Up to two closing marks may stand right before the
three that end it; a backslash at the end of a line joins it to the next word. -/
def linesRest? (mark : Char) (escapes : Bool) : Nat → List Char → Option (List Char × List Char)
  | 0, _ => none
  | _, [] => none
  | fuel + 1, c :: rest =>
    if c = mark then
      let run := ((c :: rest).takeWhile (· = mark)).length
      if 3 ≤ run then
        let inside := min (run - 3) 2
        some (List.replicate inside mark, (c :: rest).drop (inside + 3))
      else do
        let (text, rest) ← linesRest? mark escapes fuel ((c :: rest).drop run)
        return (List.replicate run mark ++ text, rest)
    else
      match afterNewline? (c :: rest) with
      | some rest => do
        let (text, rest) ← linesRest? mark escapes fuel rest
        return ('\n' :: text, rest)
      | none =>
        if c = '\\' && escapes then
          match afterNewline? (skipSpaces rest) with
          | some next => linesRest? mark escapes fuel (skipSpacesAndLines next.length next)
          | none => do
            let (char, rest) ← escape? rest
            let (text, rest) ← linesRest? mark escapes fuel rest
            return (char :: text, rest)
        else if isControl c then none
        else do
          let (text, rest) ← linesRest? mark escapes fuel rest
          return (c :: text, rest)

/-- The string on one line that a text starts with, and the text after it. -/
def lineString? : List Char → Option (String × List Char)
  | mark :: rest =>
    if mark = '"' ∨ mark = '\'' then
      (lineRest? mark (mark = '"') (rest.length + 1) rest).map fun found =>
        (String.ofList found.1, found.2)
    else none
  | [] => none

/-- The string that a text starts with, in any of the four forms, and the text after it. -/
def string? (text : List Char) : Option (String × List Char) :=
  match text with
  | a :: b :: c :: rest =>
    if (a = '"' ∨ a = '\'') ∧ b = a ∧ c = a then
      let body := (afterNewline? rest).getD rest
      (linesRest? a (a = '"') (body.length + 1) body).map fun found =>
        (String.ofList found.1, found.2)
    else lineString? text
  | text => lineString? text

end Fieldbus.Toml
