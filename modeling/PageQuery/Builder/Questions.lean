import PageQuery.Builder.Changes

/-!
# Questions

To ask for the value of a concern locks the concern, so that the answer is final.
-/

namespace PageQuery.Action

open Sql

variable (lock : Locker)

/-- Locks every concern, in their fixed order. -/
def lockEverything : Action Unit := Concern.lockOrder.forM lock

def orderTerms : Action (List OrderTerm) := do
  lock .order
  return (← self).resolved.orderTerms

/-- Whether the order is declared unique; unless it is settled first, as it stands. -/
def isOrderUnique (settled : Bool) : Action Bool := do
  if settled then
    lock .order
    lock .uniqueness
  return (← self).orderIsUnique

def cursorTag : Action String := do
  lock .cursorTag
  return (← self).cursorTag

def totalOffset : Action Nat := do
  lock .offset
  return (← self).resolved.offset

def cursor : Action (Option Fragment) := do
  lock .cursor
  return (← self).resolved.cursor

/-- The number of selected fields, the cursor among them. -/
def fieldCount : Action Nat := do
  lockEverything lock
  return (← self).resolved.selects.length

/-- The plan of the page, from the concerns that it depends on. -/
def pagePlan : Action Plan := do
  [Concern.offset, .limit, .first, .last].forM lock
  let b ← self
  ofExcept (Plan.make b.resolved.limit b.resolved.offset b.first b.last)

/-- The plan of the page, once everything is locked. -/
def plan : Action Plan := do
  lockEverything lock
  pagePlan lock

end PageQuery.Action
