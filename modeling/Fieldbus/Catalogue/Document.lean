import Fieldbus.Catalogue.Basic
import Fieldbus.Json.Reader

/-!
# Catalogue documents

A catalogue is written as a JSON object with one member for each object type.  An entry gives the
access right, and may give the meaning, the representation and the stand-in; members with other
names are passed over.  A document is taken as a whole or refused as a whole.
-/

namespace Fieldbus

/-- Why a document is no catalogue. -/
inductive CatalogueError where
  /-- There is no such document. -/
  | unreadable
  /-- The text is no JSON, or an entry does not have the form of one. -/
  | malformed
  | invalidAccess (name access : String)
  /-- A meaning or representation that does not exist, with the member that names it. -/
  | unknownType (name member value : String)
  deriving DecidableEq, Repr

/-- The message that states the cause. -/
def CatalogueError.message : CatalogueError → String
  | .unreadable => "The catalogue cannot be read"
  | .malformed => "The catalogue is not valid JSON"
  | .invalidAccess name access =>
    "Invalid access '" ++ access ++ "' for object type '" ++ name ++
      "' (expected \"R\" or \"R/W\")"
  | .unknownType name member value =>
    "Unknown " ++ member ++ " '" ++ value ++ "' for object type '" ++ name ++ "'"

namespace Catalogue

open Json

/-- An entry with its words still unchecked. -/
structure Entry where
  access : String
  meaning : String
  representation : String
  standIn : Json
  deriving Repr

/-- The member that gives the meaning of present values. -/
def meaningMember : String := "bacnet_type"

/-- The member that gives their representation. -/
def representationMember : String := "datalayer_type"

/-- The definition that an entry gives, if its words are known ones; they are checked in the order
access, meaning, representation. -/
def Entry.definition (entry : Entry) (name : String) : Except CatalogueError Definition := do
  let access ← match Access.ofText? entry.access with
    | some access => .ok access
    | none => .error (.invalidAccess name entry.access)
  let meaning ← match Meaning.ofText? entry.meaning with
    | some meaning => .ok meaning
    | none => .error (.unknownType name meaningMember entry.meaning)
  let representation ← match Representation.ofText? entry.representation with
    | some representation => .ok representation
    | none => .error (.unknownType name representationMember entry.representation)
  let standIn := match entry.standIn with
    | .null => none
    | value => some value
  return ⟨access, meaning, representation, standIn⟩

/-- The catalogue of named entries, if every one of them is valid. -/
def ofEntries (entries : List (String × Entry)) : Except CatalogueError Catalogue :=
  entries.foldlM (fun catalogue entry => do
    return catalogue.insert entry.1 (← entry.2.definition entry.1)) empty

/-- The meaning of an entry that gives none. -/
def defaultMeaning : String := "UNKNOWN"

/-- The representation of an entry that gives none. -/
def defaultRepresentation : String := "string"

/-- How deep the stand-in of an entry may nest. -/
def standInLevels : Nat := 125

/-- The text that a shape stands for, if it is a string. -/
def textOf? : Tree → Option String
  | .string pieces => string? pieces
  | _ => none

/-- The only member with a name: `some none` if there is none, and `none` if there are two. -/
def onlyMember? (name : String) (members : List (String × Tree)) : Option (Option Tree) :=
  match members.filter fun member => member.1 = name with
  | [] => some none
  | [member] => some (some member.2)
  | _ => none

/-- The entry that an object with named members stands for. -/
def entryOfMembers? (members : List (String × Tree)) : Option Entry := do
  let access ← textOf? (← (← onlyMember? "access" members))
  let meaning ← match ← onlyMember? meaningMember members with
    | some tree => textOf? tree
    | none => some defaultMeaning
  let representation ← match ← onlyMember? representationMember members with
    | some tree => textOf? tree
    | none => some defaultRepresentation
  let standIn ← match ← onlyMember? "uninitialized_default" members with
    | some tree => ofTree? standInLevels tree
    | none => some .null
  return ⟨access, meaning, representation, standIn⟩

/-- The names of the members of an object, made out. -/
def namedMembers? (members : List (List StringPiece × Tree)) :
    Option (List (String × Tree)) :=
  members.mapM fun member => (string? member.1).map fun name => (name, member.2)

/-- The entry that a shape stands for: an object, or an array of the members' values in the order
access, meaning, representation, stand-in, of which all but the first may be left out. -/
def entryOfTree : Tree → Option Entry
  | .object members => (namedMembers? members).bind entryOfMembers?
  | .array [access] => do
    return ⟨← textOf? access, defaultMeaning, defaultRepresentation, .null⟩
  | .array [access, meaning] => do
    return ⟨← textOf? access, ← textOf? meaning, defaultRepresentation, .null⟩
  | .array [access, meaning, representation] => do
    return ⟨← textOf? access, ← textOf? meaning, ← textOf? representation, .null⟩
  | .array [access, meaning, representation, standIn] => do
    return ⟨← textOf? access, ← textOf? meaning, ← textOf? representation,
      ← ofTree? standInLevels standIn⟩
  | _ => none

/-- Named entries without those that a later one of the same name replaces. -/
def lastOfEachName : List (String × Entry) → List (String × Entry)
  | [] => []
  | entry :: rest =>
    if rest.any fun later => later.1 = entry.1 then lastOfEachName rest
    else entry :: lastOfEachName rest

/-- The named entries of a document. -/
def entries? (text : String) : Option (List (String × Entry)) := do
  match ← Tree.ofText? text with
  | .object members =>
    let named ← namedMembers? members
    let entries ← named.mapM fun member => (entryOfTree member.2).map fun entry => (member.1, entry)
    return lastOfEachName entries
  | _ => none

/-- The catalogue that a document holds. -/
def ofText (text : String) : Except CatalogueError Catalogue :=
  match entries? text with
  | some entries => ofEntries entries
  | none => .error .malformed

end Catalogue

end Fieldbus
