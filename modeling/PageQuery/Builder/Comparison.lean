import PageQuery.Builder.Assembly

/-!
# Comparison

A comparator turns a cursor into bounds or into limits of a builder.  A cursor
that does not fit the builder's order is not an error: it has no rows on its wanted
side.
-/

namespace PageQuery.Action

open Sql

variable (lock : Locker)

/-- Leaves no rows, because the cursor does not fit. -/
def rejectCursor (isAfter : Bool) (reason : Cursor.Mismatch) : Action Unit := do
  log (.cursorRejected (← read) isAfter reason)
  bound .never isAfter

/-- Cursors that hold the values of a unique order. -/
def compareRow (cursor : List Json) (isAfter : Bool) : Action Unit := do
  let terms ← orderTerms lock
  if terms.isEmpty then refuse (.validation .orderNotUnique)
  if !(← isOrderUnique lock true) then refuse (.validation .orderNotUnique)
  let tag ← cursorTag lock
  match Cursor.keyedBound tag terms cursor isAfter with
  | .error reason => rejectCursor isAfter reason
  | .ok condition => bound condition isAfter

/-- The position in a natural cursor. -/
def naturalPosition? : List Json → Option Nat
  | [.string tag, position] => if tag = naturalTag then position.count? else none
  | _ => none

/-- Cursors that hold a position, for an order that does not tell rows apart.  Rows
up to an `after` position are skipped; a `before` position limits the page. -/
def compareNatural (cursor : List Json) (isAfter : Bool) : Action Unit := do
  match naturalPosition? cursor with
  | none => rejectCursor isAfter .notNatural
  | some position =>
    if ← isOrderUnique lock true then rejectCursor isAfter .keyedOrder
    else if isAfter then
      offset (.ready position)
      beforeLock .last .refuseLastFromEnd
    else limit (.lazy [] (.beforePosition position))

/-- Natural cursors by position and all others by value. -/
def compareRelay (cursor : List Json) (isAfter : Bool) : Action Unit := do
  if Cursor.tag? cursor = some naturalTag then
    if ← isOrderUnique lock true then compareRow lock cursor isAfter
    else compareNatural lock cursor isAfter
  else compareRow lock cursor isAfter

def compareWith (kind : ComparatorKind) (cursor : List Json) (isAfter : Bool) :
    Action Unit :=
  match kind with
  | .row => compareRow lock cursor isAfter
  | .natural => compareNatural lock cursor isAfter
  | .relay => compareRelay lock cursor isAfter

/-- Appends the primary key to the order, unless the order is unique. -/
def breakTies (primaryKey : List String) : Action Unit := do
  if ← isOrderUnique lock false then return
  let table ← ofExcept (← self).tableAlias
  primaryKey.forM fun column => orderBy (.ready (table.column column)) true none
  setOrderUnique

/-- Checks the arguments of a connection and applies them: ties in the order are
broken by the primary key, and every row gets its cursor. -/
def setUpConnection (setup : ConnectionSetup) (args : ConnectionArgs) : Action Unit := do
  let counts ← ofExcept args.counts
  let cursors ← ofExcept args.cursors
  if !setup.primaryKey.isEmpty then beforeLock .order (.breakTies setup.primaryKey)
  setCursorTag setup.tag
  setComparator lock (.kind .relay)
  selectCursor (.lazy [] .cursorExpression)
  counts.first.forM first
  counts.last.forM last
  if 0 < counts.offset then offset (.ready counts.offset)
  cursors.after.forM fun cursor => addCursorCondition cursor true
  cursors.before.forM fun cursor => addCursorCondition cursor false

end PageQuery.Action
