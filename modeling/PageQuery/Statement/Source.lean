import PageQuery.Cursor.Bound
import PageQuery.Sql.Literal

/-!
# Sources and filters

Where the rows of a statement come from, which of them pass, and how many are
skipped.  The same source and filter stand in the page itself and in the
subqueries that count its rows.
-/

namespace PageQuery

open Sql
open Cursor (Bound)

/-- A table under its alias, with the joined tables. -/
structure RowSource where
  table : Fragment
  rowAlias : Node
  joins : List Fragment

/-- Each join stands behind a blank. -/
def joinClauses (joins : List Fragment) : Fragment :=
  joins.flatMap fun clause => text " " ++ clause

/-- `select <projection> from <table> as <alias> <joins>`. -/
def RowSource.fragment (source : RowSource) (projection : String) : Fragment :=
  text "select " ++ text projection ++ text " from " ++ source.table ++ text " as " ++
    [source.rowAlias] ++ joinClauses source.joins

/-- The parts of a where clause in their order. -/
structure Filter where
  guards : List Fragment
  wheres : List Fragment
  /-- The lower bounds that are asked for. -/
  lower : List Bound
  /-- The upper bounds that are asked for. -/
  upper : List Bound

namespace Filter

/-- `(<p>) and (<q>) ...`. -/
def conjunction (parts : List Fragment) : Fragment :=
  text "(" ++ join parts ") and (" ++ text ")"

/-- One side of the bounds on its own. -/
def side (bounds : List Bound) : Fragment :=
  if bounds.isEmpty then [.raw "true"] else conjunction (bounds.map Bound.fragment)

/-- One side of the bounds as part of a where clause: nothing without bounds. -/
def sidePart (bounds : List Bound) : List Fragment :=
  if bounds.isEmpty then [] else [side bounds]

def parts (filter : Filter) : List Fragment :=
  filter.guards ++ filter.wheres ++ sidePart filter.lower ++ sidePart filter.upper

def fragment (filter : Filter) : Fragment :=
  if filter.parts.isEmpty then text "1 = 1" else conjunction filter.parts

end Filter

/-- The rows that are left out before a page. -/
inductive Skip
  | nothing
  | rows (n : Nat)
  /-- All rows of a window but the final `last`, where the window may hold fewer
  rows than its size. -/
  | windowHead (source : RowSource) (filter : Filter) (window last : Nat)

def Skip.fragment? : Skip → Option Fragment
  | .nothing => none
  | .rows n => some (count n)
  | .windowHead source filter window last =>
    some (text "greatest(0, least((" ++ source.fragment "count(*)" ++ text " where " ++
      filter.fragment ++ text "), " ++ count window ++ text ") - " ++ count last ++ text ")")

/-- Whether there are rows on one side of a page. -/
inductive FlagExpr
  | never
  /-- More than `skip` rows pass the filter. -/
  | beyond (source : RowSource) (filter : Filter) (skip : Nat)
  /-- A row passes the filter and not the bounds. -/
  | outside (source : RowSource) (filter : Filter) (bounds : List Bound)

def FlagExpr.fragment : FlagExpr → Fragment
  | .never => [.raw "false"]
  | .beyond source filter skip =>
    text "exists(" ++ source.fragment "1" ++ text " where " ++ filter.fragment ++
      text " offset " ++ count skip ++ text ")"
  | .outside source filter bounds =>
    text "exists(" ++ source.fragment "1" ++ text " where " ++ filter.fragment ++
      text " and not (" ++ Filter.side bounds ++ text "))"

end PageQuery
