import PageQuery.Connection.Basic
import PageQuery.Sql.Compile

/-!
# Clients

A client answers a statement with rows.  A row is read by the names of its
columns: the column of exactly that name, or else the first that differs from it
in the case of ASCII letters only.
-/

namespace PageQuery

inductive ColumnType
  | json
  | bool
  | text
  | int8
  deriving DecidableEq, Repr

/-- A value of a row; a JSON value is given as text. -/
inductive Cell
  | null
  | json (text : String)
  | bool (value : Bool)
  | text (value : String)
  | int8 (value : Int)
  deriving DecidableEq, Repr

structure Column where
  name : String
  type : ColumnType
  deriving DecidableEq, Repr

/-- A client that answers every statement alike: with rows, or with a failure. -/
structure Client where
  columns : List Column
  rows : List (List Cell)
  failure : Option String
  deriving DecidableEq, Repr

namespace Client

def query (client : Client) (_statement : Sql.Compiled) : Except Error (List (List Cell)) :=
  match client.failure with
  | some message => .error (.validation (.other message))
  | none => .ok client.rows

/-- The place of the column `name`. -/
def position? (client : Client) (name : String) : Option Nat :=
  (client.columns.findIdx? fun column => column.name = name).or
    (client.columns.findIdx? fun column => column.name.toLower = name.toLower)

/-- Reads a cell of type `type` with `decode`. -/
def read {α : Type} (client : Client) (row : List Cell) (name : String)
    (type : ColumnType) (decode : Cell → Option α) : Except Error α :=
  match client.position? name with
  | none => .error (.decode name (.noColumn name))
  | some i =>
    let value := do
      if (← client.columns[i]?).type = type then decode (← row[i]?) else none
    match value with
    | some value => .ok value
    | none => .error (.decode name (.badCell i))

def jsonOf? : Cell → Option Json
  | .json text => Json.parse? text.toList
  | _ => none

def boolOf? : Cell → Option Bool
  | .bool value => some value
  | _ => none

/-- The connection in a row of a page query. -/
def connectionOf (client : Client) (row : List Cell) : Except Error Connection := do
  let data ← client.read row "data" .json jsonOf?
  let hasNextPage ← client.read row "has_next_page" .bool boolOf?
  let hasPreviousPage ← client.read row "has_previous_page" .bool boolOf?
  Connection.ofJson data hasNextPage hasPreviousPage

end Client

end PageQuery
