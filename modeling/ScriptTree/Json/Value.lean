/-
  JSON values, as they are read from a document and quoted back in messages.

  A number is an integer as long as it was written as one and fits 64 bits (with either sign
  convention); every other number is the binary64 number its text was read as.  The fields of an
  object stand in increasing order of their names, each name once; `Json.setField` is the one way
  a reader adds a field and keeps both properties.
-/
import ScriptTree.Decimal.Shortest

namespace ScriptTree

/-- A JSON number. -/
inductive Json.Number where
  /-- An integer between -2^63 and 2^64 - 1. -/
  | integer (value : Int)
  /-- Any other number. -/
  | real (value : Binary64)
  deriving DecidableEq, Repr

/-- A JSON value. -/
inductive Json where
  | null
  | bool (value : Bool)
  | number (value : Json.Number)
  | string (text : String)
  | array (items : List Json)
  | object (fields : List (String × Json))
  deriving Repr

namespace Json

/-- The number as a signed integer of 64 bits, if it is one. -/
def Number.toInt64? : Number → Option Int64
  | .integer n =>
    if -0x8000000000000000 ≤ n ∧ n < 0x8000000000000000 then some (Int64.ofInt n) else none
  | .real _ => none

/-- The fields with `name` set to `value`: in order of names, and a name that is there already
    takes the new value. -/
def setField (name : String) (value : Json) : List (String × Json) → List (String × Json)
  | [] => [(name, value)]
  | (n, v) :: rest =>
    if name < n then (name, value) :: (n, v) :: rest
    else if name = n then (n, value) :: rest
    else (n, v) :: setField name value rest

end Json

end ScriptTree
