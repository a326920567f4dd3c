import PageQuery.Options
import PageQuery.Sql.Literal

/-!
# Rows as objects

A row becomes one JSON object.  A function of the database takes at most a hundred
arguments, which is fifty fields; where `jsonb` is supported, longer objects are
built in chunks of fifty and joined.
-/

namespace PageQuery

open Sql

/-- The alias of the cursor among the selected fields. -/
def cursorAlias : String := "__cursor"

/-- The alias of the primary key among the selected fields. -/
def identifiersAlias : String := "__identifiers"

/-- A selected expression under its name. -/
structure Field where
  expr : Fragment
  name : String

/-- The number of fields that one call takes. -/
def chunkSize : Nat := 50

/-- The items in runs of `size + 1`. -/
def chunksOf {α : Type} (size : Nat) : List α → List (List α)
  | [] => []
  | x :: xs => (x :: xs.take size) :: chunksOf size (xs.drop size)
termination_by items => items.length
decreasing_by simp only [List.length_drop, List.length_cons]; omega

/-- The JSON form of a row. -/
inductive RowObject
  /-- The row as it is. -/
  | whole (rowAlias : Node)
  /-- The row as it is, and its cursor. -/
  | withCursor (rowAlias : Node) (cursor : Fragment)
  /-- The given fields. -/
  | fields (fields : List Field)
  /-- The given fields in chunks. -/
  | chunked (chunks : List (List Field))

namespace RowObject

def pair (field : Field) : Fragment :=
  constant field.name ++ text "::text, " ++ field.expr

def pairs (fields : List Field) : Fragment := join (fields.map pair) ", "

def fragment : RowObject → Fragment
  | .whole rowAlias => text "to_json(" ++ [rowAlias] ++ text ")"
  | .withCursor rowAlias cursor =>
    text "(to_jsonb(" ++ [rowAlias] ++ text ") || jsonb_build_object(" ++
      constant cursorAlias ++ text "::text, " ++ cursor ++ text "))::json"
  | .fields selected => text "json_build_object(" ++ pairs selected ++ text ")"
  | .chunked parts =>
    text "(" ++
      join (parts.map fun chunk => text "jsonb_build_object(" ++ pairs chunk ++ text ")")
        " || " ++
      text ")::json"

/-- The object of some fields. -/
def ofFields (supportsJsonb : Bool) (fields : List Field) : RowObject :=
  if supportsJsonb ∧ chunkSize < fields.length then .chunked (chunksOf (chunkSize - 1) fields)
  else .fields fields

/-- Null in place of the object of a row that is null. -/
def orNull (options : BuildOptions) (rowAlias : Node) (object : Fragment) : Fragment :=
  if options.notDistinctCase then
    text "(case when (" ++ [rowAlias] ++ text " is not distinct from null) then null else " ++
      object ++ text " end)"
  else if options.nullCase then
    text "(case when (" ++ [rowAlias] ++ text " is null) then null else " ++ object ++
      text " end)"
  else object

end RowObject

/-- `to_json(<expr>) as "<alias>", ...`. -/
def selectList (fields : List Field) : Fragment :=
  join (fields.map fun field =>
    text "to_json(" ++ field.expr ++ text ") as " ++ [ident field.name]) ", "

end PageQuery
