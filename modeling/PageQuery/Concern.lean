/-!
# Concerns

A builder is configured in fourteen parts.  Each part is a concern, which starts
open and is locked at some time; a locked concern refuses changes.  `lockOrder`
is the order in which a whole builder is locked, and a builder's phase says how
far that has come.
-/

namespace PageQuery

/-- A part of a builder that is locked on its own. -/
inductive Concern
  | source
  | joins
  | order
  | uniqueness
  | comparator
  | cursorTag
  | bounds
  | wheres
  | offset
  | limit
  | first
  | last
  | cursor
  | select
  deriving DecidableEq, Repr

namespace Concern

/-- Every concern once, in the order in which a builder is locked as a whole. -/
def lockOrder : List Concern :=
  [.source, .joins, .order, .uniqueness, .comparator, .cursorTag, .bounds, .wheres,
    .offset, .limit, .first, .last, .cursor, .select]

theorem mem_lockOrder (c : Concern) : c ∈ lockOrder := by
  cases c <;> decide

/-- The name of a concern in messages and events. -/
def name : Concern → String
  | .source => "from"
  | .joins => "join"
  | .order => "orderBy"
  | .uniqueness => "orderIsUnique"
  | .comparator => "cursorComparator"
  | .cursorTag => "cursorPrefix"
  | .bounds => "whereBound"
  | .wheres => "where"
  | .offset => "offset"
  | .limit => "limit"
  | .first => "first"
  | .last => "last"
  | .cursor => "selectCursor"
  | .select => "select"

def ofName? (name : String) : Option Concern :=
  lockOrder.find? fun c => c.name = name

end Concern

/-- How far a builder has come. -/
inductive Phase
  | unlocked
  | orderLocked
  | whereLocked
  | built
  deriving DecidableEq, Repr

/-- The phase of a builder, given which concerns are locked. -/
def Phase.of (locked : Concern → Bool) : Phase :=
  if Concern.lockOrder.all locked then .built
  else if locked .wheres then .whereLocked
  else if locked .order then .orderLocked
  else .unlocked

end PageQuery
