import PageQuery.Json.Printer
import PageQuery.Sql.Node

/-!
# Literals

Small constants are written straight into the statement: numbers, booleans, null,
and text of a few harmless characters.  Everything else becomes a bound value.
-/

namespace PageQuery.Sql

inductive LiteralValue
  | null
  | bool (value : Bool)
  | integer (value : Int)
  | natural (value : Nat)
  | float (value : Binary64)
  | text (value : String)
  deriving Repr

/-- The characters that text may hold to be written into a statement. -/
def isSafeChar (c : Char) : Bool :=
  c.isAlphanum || c = '-' || c = '_' || c = '@' || c = '!' || c = ' '

def isSafeText (s : String) : Bool := s.toList.all isSafeChar

/-- A finite double in positional notation, with its shortest digits; of two that
are equally near, the larger. -/
def floatText (x : Binary64) : List Char :=
  let sign := if x.isNegative then ['-'] else []
  if x.isZero then sign ++ ['0'] else sign ++ (x.shortest .up).positional []

/-- Text between single quotes. -/
def quoted (s : String) : String := "'" ++ s ++ "'"

/-- The node of a constant. -/
def literal : LiteralValue → Node
  | .null => .raw "NULL"
  | .bool true => .raw "true"
  | .bool false => .raw "false"
  | .integer n => .raw (String.ofList (Numeral.signed n))
  | .natural n => .raw (Numeral.text n)
  | .float x =>
    if x.isFinite then .raw (quoted (String.ofList (floatText x)) ++ "::float8")
    else .value (.float8 (some x))
  | .text s => if isSafeText s then .raw (quoted s) else .value (.text (some s))

/-- A count, as a constant. -/
def count (n : Nat) : Fragment := [literal (.natural n)]

/-- Text, as a constant. -/
def constant (s : String) : Fragment := [literal (.text s)]

end PageQuery.Sql
