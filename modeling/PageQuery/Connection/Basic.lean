import PageQuery.Cursor.Code
import PageQuery.Statement.RowObject

/-!
# Connections

A page of rows as a client gets it: each row with its cursor, and what lies beside
the page.
-/

namespace PageQuery

structure PageInfo where
  hasNextPage : Bool
  hasPreviousPage : Bool
  startCursor : Option String
  endCursor : Option String
  deriving DecidableEq, Repr

structure Edge where
  cursor : Option String
  node : Json
  deriving Repr

structure Connection where
  edges : List Edge
  pageInfo : PageInfo
  deriving Repr

namespace Edge

/-- The cursor of a row, from the value of its cursor field. -/
def cursorOf : Option Json → Except Error (Option String)
  | none => .ok none
  | some .null => .ok none
  | some (.array values) => .ok (some (Cursor.encode values))
  | some value => .error (.decode cursorAlias (.notArray value))

/-- The edge of a row.  The cursor field is taken out of an object. -/
def ofRow : Json → Except Error Edge
  | .object fields => do
    let cursor ← cursorOf (Json.field? cursorAlias fields)
    return ⟨cursor, .object (Json.eraseField cursorAlias fields)⟩
  | row => .ok ⟨none, row⟩

/-- The edges of rows, or the fault of the first row that has one. -/
def ofRows : List Json → Except Error (List Edge)
  | [] => .ok []
  | row :: rows => do return (← ofRow row) :: (← ofRows rows)

end Edge

namespace Connection

/-- The rows of a page: an array of them, or null for none. -/
def rowsOf : Json → Except Error (List Json)
  | .array rows => .ok rows
  | .null => .ok []
  | value => .error (.decode "data" (.notArray value))

def ofEdges (edges : List Edge) (hasNextPage hasPreviousPage : Bool) : Connection :=
  ⟨edges, {
    hasNextPage, hasPreviousPage
    startCursor := edges.head?.bind Edge.cursor
    endCursor := edges.getLast?.bind Edge.cursor }⟩

/-- The connection of the rows that a page query returns. -/
def ofJson (data : Json) (hasNextPage hasPreviousPage : Bool) : Except Error Connection := do
  let edges ← Edge.ofRows (← rowsOf data)
  return ofEdges edges hasNextPage hasPreviousPage

end Connection

end PageQuery
