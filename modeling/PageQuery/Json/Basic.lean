import PageQuery.Binary64.Basic

/-!
# JSON values

Whole numbers from `-2 ^ 63` up to `2 ^ 64 - 1` are integers and all other
numbers are doubles.  The fields of an object are kept in the order of their
keys, each key once; a field that is set again keeps its last value.
-/

namespace PageQuery

inductive Json
  | null
  | bool (value : Bool)
  | integer (value : Int)
  | real (value : Binary64)
  | string (value : String)
  | array (items : List Json)
  | object (fields : List (String × Json))
  deriving Repr, Inhabited, BEq

namespace Json

/-- Sets the field `key` among fields in key order. -/
def setField (key : String) (value : Json) :
    List (String × Json) → List (String × Json)
  | [] => [(key, value)]
  | (k, v) :: rest =>
    if key < k then (key, value) :: (k, v) :: rest
    else if key = k then (key, value) :: rest
    else (k, v) :: setField key value rest

/-- The object with the given fields, the last of each key. -/
def ofFields (fields : List (String × Json)) : Json :=
  .object (fields.foldl (fun done field => setField field.1 field.2 done) [])

/-- The value of the field `key`. -/
def field? (key : String) : List (String × Json) → Option Json :=
  List.lookup key

/-- The fields without the field `key`. -/
def eraseField (key : String) (fields : List (String × Json)) :
    List (String × Json) :=
  fields.filter fun field => field.1 != key

/-- The largest integer that stays an integer. -/
def maxInteger : Nat := 0xFFFFFFFFFFFFFFFF

/-- The value as a count, when it is a whole number that is not negative. -/
def count? : Json → Option Nat
  | .integer n => if 0 ≤ n then some n.toNat else none
  | _ => none

end Json

end PageQuery
