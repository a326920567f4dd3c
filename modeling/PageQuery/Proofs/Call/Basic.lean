import PageQuery.Builder.Changes

/-!
# Calls

The calls that register something with one concern, as data: whatever is known of them can
be shown once for all.
-/

namespace PageQuery

open Sql

/-- A call that registers something with one concern, when its arguments are evaluated. -/
inductive Call
  | select (expr : DeferredFragment) (name : String)
  | selectIdentifiers (primaryKey : List String)
  | selectCursor (expr : DeferredFragment)
  | join (clause : Fragment)
  | filter (expr : DeferredFragment)
  | bound (condition : Cursor.Bound) (isLower : Bool)
  | orderBy (expr : DeferredFragment) (ascending : Bool) (nulls : Option NullsOrder)
  | setOrderUnique
  | limit (n : DeferredCount)
  | offset (n : DeferredCount)
  | first (n : Nat)
  | last (n : Nat)
  | setCursorTag (tag : String)
  | addCursorCondition (cursor : List Json) (isAfter : Bool)
  | beforeLock (c : Concern) (callback : Callback)

namespace Call

def action : Call → Action Unit
  | .select expr name => Action.select expr name
  | .selectIdentifiers primaryKey => Action.selectIdentifiers primaryKey
  | .selectCursor expr => Action.selectCursor expr
  | .join clause => Action.join clause
  | .filter expr => Action.filter expr
  | .bound condition isLower => Action.bound condition isLower
  | .orderBy expr ascending nulls => Action.orderBy expr ascending nulls
  | .setOrderUnique => Action.setOrderUnique
  | .limit n => Action.limit n
  | .offset n => Action.offset n
  | .first n => Action.first n
  | .last n => Action.last n
  | .setCursorTag tag => Action.setCursorTag tag
  | .addCursorCondition cursor isAfter => Action.addCursorCondition cursor isAfter
  | .beforeLock c callback => Action.beforeLock c callback

end Call

end PageQuery
