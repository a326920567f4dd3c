import PageQuery.Connection.Arguments
import PageQuery.Connection.Client
import PageQuery.Options
import PageQuery.Script.Expr
import PageQuery.Sql.OrderTerm

/-!
# Scripts

Everything that a builder can be asked is an operation, and a script is a list of
steps that each perform one.  Callbacks, lazy values and comparators are scripts
too, so a builder that holds them is plain data.
-/

namespace PageQuery

open Sql

/-- The comparators that the library provides. -/
inductive ComparatorKind
  | row
  | natural
  | relay
  deriving DecidableEq, Repr

/-- The value of a lazy fragment, after its script has run. -/
inductive FragmentSource
  | expr (expr : Expr)
  | cursorExpression

/-- The value of a lazy count, after its script has run. -/
inductive CountSource
  | fixed (n : Nat)
  /-- The sum of `n` and the offset. -/
  | aboveOffset (n : Nat)
  /-- The number of rows between the offset and a position. -/
  | beforePosition (position : Nat)
  deriving DecidableEq, Repr

mutual

/-- An operation on the builder that the script runs on, or on the descendant that
the names lead to. -/
inductive Step
  | mk (path : List String) (op : Op) (optional : Bool) (save : Option String)

inductive Op
  -- changes
  | source (table : Expr) (rowAlias : Option NodeExpr)
  | select (expr : Expr) (name : String)
  | selectLazy (steps : List Step) (value : FragmentSource) (name : String)
  | selectIdentifiers (primaryKey : List String)
  | selectCursor (expr : Expr)
  | selectCursorLazy (steps : List Step) (value : FragmentSource)
  | join (clause : Expr)
  | filter (expr : Expr)
  | filterLazy (steps : List Step) (value : FragmentSource)
  | bound (expr : Expr) (isLower : Bool)
  | orderBy (expr : Expr) (ascending : Bool) (nulls : Option NullsOrder)
  | orderByLazy (steps : List Step) (value : FragmentSource) (ascending : Bool)
      (nulls : Option NullsOrder)
  | setOrderUnique
  | limit (n : Nat)
  | limitLazy (steps : List Step) (value : CountSource)
  | offset (n : Nat)
  | offsetLazy (steps : List Step) (value : CountSource)
  | first (n : Nat)
  | last (n : Nat)
  | setComparator (kind : ComparatorKind)
  | setCustomComparator (steps : List Step)
  | setCursorTag (tag : String)
  | addCursorCondition (cursor : List Json) (isAfter : Bool)
  | compareWith (kind : ComparatorKind) (cursor : List Json) (isAfter : Bool)
  | setUpConnection (setup : ConnectionSetup) (args : ConnectionArgs)
  | beforeLock (concern : Concern) (steps : List Step)
  | lock (concern : Concern)
  | checkLock (concern : Concern)
  | lockEverything
  | fail (error : Error)
  | addChild (name : String) (table : Expr) (rowAlias : Option NodeExpr)
      (selecting : Option (Expr × String))
  -- questions
  | phase
  | isFinalized
  | tableAlias
  | tableExpression
  | orderTerms
  | isOrderUnique (lock : Bool)
  | cursorTag
  | totalOffset
  | fieldCount
  | cursor
  | plan
  | options
  | selectFields
  | cursorExpression
  | rowObject (options : BuildOptions)
  | boundClause (isLower : Bool)
  | whereClause (lower upper : Bool) (options : BuildOptions)
  | build (options : BuildOptions)
  | buildConnection (options : BuildOptions)
  | compile (options : BuildOptions)
  | compileExpr (expr : Expr)
  | child (name : String)
  | childNames
  | parent
  | fetchRows (options : BuildOptions) (client : Client)
  | fetchConnection (client : Client)

end

namespace Step

/-- The names of the children that lead to the builder of the step. -/
def path : Step → List String
  | .mk path _ _ _ => path

def op : Step → Op
  | .mk _ op _ _ => op

/-- Whether the steps after it run even if it fails. -/
def optional : Step → Bool
  | .mk _ _ optional _ => optional

/-- The name under which the fragment that it gives is saved. -/
def save : Step → Option String
  | .mk _ _ _ save => save

end Step

/-- A value that is known, or that is computed when its concern locks. -/
inductive Deferred (α : Type) (σ : Type)
  | ready (value : α)
  | lazy (steps : List Step) (value : σ)

abbrev DeferredFragment := Deferred Fragment FragmentSource
abbrev DeferredCount := Deferred Nat CountSource

/-- Turns a cursor into bounds. -/
inductive Comparator
  | kind (kind : ComparatorKind)
  | custom (steps : List Step)

/-- What runs once before a concern locks. -/
inductive Callback
  | script (steps : List Step)
  /-- Locks the bounds, on which the rest depends. -/
  | settleBounds
  /-- Locks the cursor expression and selects it. -/
  | settleCursor
  /-- Turns a cursor into bounds. -/
  | cursorCondition (cursor : List Json) (isAfter : Bool)
  /-- Appends the primary key to an order that is not unique. -/
  | breakTies (primaryKey : List String)
  /-- Refuses to take `last` from the end of all rows. -/
  | refuseLastFromEnd

end PageQuery
