import Fieldbus.Binary.Number

/-!
# JSON values

Values of the JSON data format.  A number is an integer or a floating-point number, and the two
differ even where their values agree.  The members of an object are kept in ascending order of
their names, one for each name.
-/

namespace Fieldbus

open Fieldbus.Binary

/-- A JSON value. -/
inductive Json where
  | null
  | bool (value : Bool)
  /-- An integer of at most 64 bits, with or without sign. -/
  | int (value : Int)
  /-- A floating-point number that is neither infinite nor undefined. -/
  | float (value : Double)
  | string (text : String)
  | array (items : List Json)
  | object (members : List (String × Json))
  deriving Repr

namespace Json

/-- Members with a value put under a name, in place of the one that was there. -/
def insertMember (name : String) (value : Json) :
    List (String × Json) → List (String × Json)
  | [] => [(name, value)]
  | (other, old) :: rest =>
    if name = other then (name, value) :: rest
    else if name < other then (name, value) :: (other, old) :: rest
    else (other, old) :: insertMember name value rest

/-- The object with the given members; of two with one name the later counts. -/
def ofMembers (members : List (String × Json)) : Json :=
  .object (members.foldl (fun sorted member => insertMember member.1 member.2 sorted) [])

/-- The floating-point number, or `none` where it is infinite or undefined, which JSON cannot
say. -/
def ofDouble? (x : Double) : Option Json := if x.isFinite then some (.float x) else none

/-- The number as a natural one. -/
def ofNat (n : Nat) : Json := .int n

end Json

end Fieldbus
