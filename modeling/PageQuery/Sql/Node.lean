import PageQuery.Json.Basic

/-!
# Fragments of SQL

A fragment is a sequence of nodes, and a node is one of three things: raw text, a
dotted identifier, or a bound value.  Data reaches a statement through bound
values only, so no text that came from a client is ever spliced into SQL.
-/

namespace PageQuery.Sql

/-- The name of a row source before it has any text.  Each compiled statement
numbers the tokens that it meets. -/
structure AliasToken where
  id : Nat
  deriving DecidableEq, Repr

inductive IdentPart
  | name (text : String)
  | token (token : AliasToken)
  deriving DecidableEq, Repr

/-- A bound value with its type; an absent value is SQL `NULL`. -/
inductive Param
  | bool (value : Option Bool)
  | int2 (value : Option Int)
  | int4 (value : Option Int)
  | int8 (value : Option Int)
  | float8 (value : Option Binary64)
  | text (value : Option String)
  | json (value : Json)
  deriving Repr

inductive Node
  | raw (text : String)
  | identifier (parts : List IdentPart)
  | value (param : Param)
  deriving Repr

abbrev Fragment := List Node

/-- An identifier of one name. -/
def ident (name : String) : Node := .identifier [.name name]

/-- An identifier of one alias token. -/
def aliasNode (token : AliasToken) : Node := .identifier [.token token]

/-- Static text; the empty text is no node at all. -/
def text (s : String) : Fragment := if s = "" then [] else [.raw s]

def Node.isIdentifier : Node → Bool
  | .identifier _ => true
  | _ => false

/-- The column `name` of a row source: an identifier is extended by the name,
anything else is put into parentheses first. -/
def Node.column (node : Node) (name : String) : Fragment :=
  match node with
  | .identifier parts => [.identifier (parts ++ [.name name])]
  | _ => text "(" ++ [node] ++ text ")." ++ [ident name]

/-- The items one after the other, with a separator between them. -/
def join (items : List Fragment) (separator : String) : Fragment :=
  (items.intersperse (text separator)).flatten

def parens (f : Fragment) : Fragment := text "(" ++ f ++ text ")"

end PageQuery.Sql
