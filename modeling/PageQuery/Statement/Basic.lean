import PageQuery.Statement.RowObject
import PageQuery.Statement.Source
import PageQuery.Sql.OrderTerm

/-!
# Statements

A statement by its clauses, and what it is written as.  When a page is taken from
the end of the rows, the order is turned around; an aggregate puts the rows back
into the order that was asked for, by the number each row got in the turned order.
-/

namespace PageQuery

open Sql

/-- The alias of a row's number in the turned order. -/
def flipIndexAlias : String := "__flip_index"

inductive Projection
  /-- Every column of the table. -/
  | asterisk (rowAlias : Node)
  /-- One object, and the number of the row in an order turned around, if the order
  has terms. -/
  | object (object : Fragment) (numberedBy : List OrderTerm)
  | fields (fields : List Field)

def Projection.fragment : Projection → Fragment
  | .asterisk rowAlias => [rowAlias] ++ text ".*"
  | .object row numberedBy =>
    row ++ text " as object" ++
      match orderClause? numberedBy true with
      | none => []
      | some order =>
        text ", row_number() over (order by " ++ order ++ text ") as " ++
          [ident flipIndexAlias]
  | .fields selected => selectList selected

structure Statement where
  projection : Projection
  source : Option (Fragment × Node)
  joins : List Fragment
  filter : Filter
  order : List OrderTerm
  /-- The rows come in the order turned around. -/
  flip : Bool
  limit : Option Nat
  skip : Skip

namespace Statement

def sourceClause : Option (Fragment × Node) → Fragment
  | none => []
  | some (table, rowAlias) => text " from " ++ table ++ text " as " ++ [rowAlias]

def orderByClause (terms : List OrderTerm) (flip : Bool) : Fragment :=
  match orderClause? terms flip with
  | none => []
  | some order => text " order by " ++ order

def limitClause : Option Nat → Fragment
  | none => []
  | some n => text " limit " ++ count n

def offsetClause (skip : Skip) : Fragment :=
  match skip.fragment? with
  | none => []
  | some offset => text " offset " ++ offset

def fragment (s : Statement) : Fragment :=
  text "select " ++ s.projection.fragment ++ sourceClause s.source ++
    joinClauses s.joins ++ text " where " ++ s.filter.fragment ++
    orderByClause s.order s.flip ++ limitClause s.limit ++ offsetClause s.skip

/-- The statement's rows in one array, `[]` when there are none; in the turned
order of their numbers if `numbered` is set. -/
def aggregate (s : Statement) (token : AliasToken) (numbered : Bool) : Fragment :=
  let row := aliasNode token
  let items :=
    if numbered then
      text "json_agg(" ++ row.column "object" ++ text " order by " ++
        row.column flipIndexAlias ++ text " desc)"
    else text "json_agg(" ++ row.column "object" ++ text ")"
  text "select coalesce((select " ++ items ++ text " from (" ++ s.fragment ++ text ") as " ++
    [row] ++ text "), '[]'::json)"

end Statement

/-- What a build gives. -/
inductive Built
  /-- The expression of a row's object. -/
  | object (object : Fragment)
  | rows (statement : Statement)
  /-- The rows of the statement in one array, named by the token. -/
  | aggregate (statement : Statement) (token : AliasToken)

namespace Built

/-- An aggregate sorts by the row numbers when its page is taken from the end of an
ordered result. -/
def isNumbered (s : Statement) : Bool := s.flip && !s.order.isEmpty

def fragment : Built → Fragment
  | .object row => row
  | .rows s => s.fragment
  | .aggregate s token => s.aggregate token (isNumbered s)

end Built

/-- The expression of a row's cursor. -/
inductive CursorExpr
  /-- The tag and the values of the order. -/
  | keyed (tag : String) (exprs : List Fragment)
  /-- The position of the row, the skipped rows counted. -/
  | fromStart (skip : Skip)
  /-- The position of a row that is found from the end. -/
  | fromEnd (source : RowSource) (filter : Filter) (offset : Nat)

namespace CursorExpr

def rowNumber : Fragment := text "(row_number() over (partition by 1))"

def natural (position : Fragment) : Fragment :=
  text "json_build_array(" ++ constant naturalTag ++ text ", " ++ position ++ text ")"

def fragment : CursorExpr → Fragment
  | .keyed tag exprs =>
    text "json_build_array(" ++ constant tag ++ text "::text, " ++ join exprs ", " ++ text ")"
  | .fromStart skip =>
    natural (rowNumber ++ text " + " ++ skip.fragment?.getD (count 0))
  | .fromEnd source filter offset =>
    natural (text "(" ++ source.fragment "count(*)" ++ text " where " ++ filter.fragment ++
      text ") - " ++ count offset ++ text " - " ++ rowNumber ++ text " + 1")

end CursorExpr

/-- A page with its two flags, in one row. -/
structure ConnectionStatement where
  page : Built
  next : FlagExpr
  previous : FlagExpr

def ConnectionStatement.fragment (s : ConnectionStatement) : Fragment :=
  text "select (" ++ s.page.fragment ++ text ") as data, " ++ s.next.fragment ++
    text " as has_next_page, " ++ s.previous.fragment ++ text " as has_previous_page"

end PageQuery
