import PageQuery.Sql.Literal
import PageQuery.Sql.Template

/-!
# Expressions

A fragment that is not put together yet.  It may name the row source of the
builder that evaluates it, that of the builder's parent, and fragments that were
saved before.  Parts are evaluated from left to right, and the first that has no value
decides.  A name under which nothing is saved is a mistake of the script that no builder
can answer for, so it aborts the run.
-/

namespace PageQuery

open Sql

/-- What the names in an expression stand for. -/
structure Scope where
  tableAlias : Except Error Node
  parentAlias : Except Error Node
  saved : List (String × Fragment)

inductive NodeExpr
  | fixed (node : Node)
  | tableAlias
  | parentAlias

def NodeExpr.eval (scope : Scope) : NodeExpr → Except Error Node
  | .fixed node => .ok node
  | .tableAlias => scope.tableAlias
  | .parentAlias => scope.parentAlias

inductive Expr
  | text (s : String)
  | node (node : NodeExpr)
  | column (node : NodeExpr) (name : String)
  | sequence (items : List Expr)
  | join (items : List Expr) (separator : String)
  | parens (inner : Expr)
  | template (segments : List String) (holes : List Expr)
  | saved (name : String)

namespace Expr

mutual

def eval (scope : Scope) : Expr → Except Halt Fragment
  | .text s => .ok (Sql.text s)
  | .node n => do return [← (n.eval scope).mapError .refused]
  | .column n name => do return (← (n.eval scope).mapError .refused).column name
  | .sequence items => do return (← evalAll scope items).flatten
  | .join items separator => do return Sql.join (← evalAll scope items) separator
  | .parens inner => do return Sql.parens (← eval scope inner)
  | .template segments holes => do
    (Sql.template segments (← evalAll scope holes)).mapError .refused
  | .saved name =>
    match scope.saved.lookup name with
    | some f => .ok f
    | none => .error (.aborted (.unsaved name))

def evalAll (scope : Scope) : List Expr → Except Halt (List Fragment)
  | [] => .ok []
  | item :: rest => do return (← eval scope item) :: (← evalAll scope rest)

end

end Expr

end PageQuery
