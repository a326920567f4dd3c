import PageQuery.Builder.Action

/-!
# Changes

Each change belongs to a concern and is refused once that concern is locked.
Nothing is changed by a call that is refused, and nothing is locked by one that is
not, except that the row source and the comparator lock as soon as they are set.
-/

namespace PageQuery.Action

open Sql

/-- Refuses if the concern is locked. -/
def checkLock (c : Concern) : Action Unit := do
  if (← self).locked c then refuse (.lockedMutation c)

/-- Registers a callback that runs once before the concern locks. -/
def beforeLock (c : Concern) (callback : Callback) : Action Unit := do
  checkLock c
  update fun b => b.setCallbacks c (b.callbacks c ++ [callback])

/-- The name behind an at sign, or the name itself. -/
def nameBody (name : String) : List Char :=
  match name.toList with
  | '@' :: rest => rest
  | cs => cs

def isNameChar (c : Char) : Bool := c.isAlphanum || c = '_'

/-- The name of a field is one or more letters, digits and underscores, which may stand behind
an at sign, and is not too long. -/
def checkName (name : String) : Except Error Unit :=
  if maxAliasLength < name.utf8ByteSize then .error (.validation (.aliasTooLong name))
  else if (nameBody name).isEmpty ∨ (nameBody name).all isNameChar = false then
    .error (.validation (.aliasMalformed name))
  else .ok ()

def select (expr : DeferredFragment) (name : String) : Action Unit := do
  checkLock .select
  ofExcept (checkName name)
  update fun b =>
    { b with pending := { b.pending with selects := b.pending.selects ++ [⟨expr, name⟩] } }

/-- The primary key columns as one array. -/
def identifiers (table : Node) (primaryKey : List String) : Fragment :=
  text "json_build_array(" ++ join (primaryKey.map table.column) ", " ++ text ")"

/-- Selects the primary key, once. -/
def selectIdentifiers (primaryKey : List String) : Action Unit := do
  checkLock .select
  let b ← self
  if b.identifiersSelected || primaryKey.isEmpty then return
  let table ← ofExcept b.tableAlias
  select (.ready (identifiers table primaryKey)) identifiersAlias
  update fun b => { b with identifiersSelected := true }

def selectCursor (expr : DeferredFragment) : Action Unit := do
  checkLock .cursor
  update fun b => { b with pending := { b.pending with cursor := some expr } }

def join (clause : Fragment) : Action Unit := do
  checkLock .joins
  update fun b => { b with joins := b.joins ++ [clause] }

def filter (expr : DeferredFragment) : Action Unit := do
  checkLock .wheres
  update fun b => { b with pending := { b.pending with wheres := b.pending.wheres ++ [expr] } }
  remember (.filterAccepted (← read) expr)

/-- Adds a bound; lower bounds come from `after` cursors. -/
def bound (condition : Cursor.Bound) (isLower : Bool) : Action Unit := do
  checkLock .bounds
  update fun b =>
    if isLower then { b with lower := b.lower ++ [condition] }
    else { b with upper := b.upper ++ [condition] }

def orderBy (expr : DeferredFragment) (ascending : Bool) (nulls : Option NullsOrder) :
    Action Unit := do
  checkLock .order
  update fun b =>
    { b with pending :=
      { b.pending with orderTerms := b.pending.orderTerms ++ [⟨expr, ascending, nulls⟩] } }

/-- Declares that no two rows are equal in the order. -/
def setOrderUnique : Action Unit := do
  checkLock .uniqueness
  update fun b => { b with orderIsUnique := true }

/-- Sets the limit, once. -/
def limit (n : DeferredCount) : Action Unit := do
  checkLock .limit
  if (← self).pending.limit.isSome then refuse (.validation .limitSet)
  update fun b => { b with pending := { b.pending with limit := some n } }

/-- Adds to the offset. -/
def offset (n : DeferredCount) : Action Unit := do
  checkLock .offset
  update fun b => { b with pending := { b.pending with offsets := b.pending.offsets ++ [n] } }

/-- Sets `first`, once. -/
def first (n : Nat) : Action Unit := do
  checkLock .first
  if (← self).first.isSome then refuse (.validation .firstSet)
  update fun b => { b with first := some n }

/-- Sets `last`, once. -/
def last (n : Nat) : Action Unit := do
  checkLock .last
  if (← self).last.isSome then refuse (.validation .lastSet)
  update fun b => { b with last := some n }

def setCursorTag (tag : String) : Action Unit := do
  checkLock .cursorTag
  update fun b => { b with cursorTag := tag }

/-- Applies a cursor when the bounds lock. -/
def addCursorCondition (cursor : List Json) (isAfter : Bool) : Action Unit :=
  beforeLock .bounds (.cursorCondition cursor isAfter)

/-- The given alias, or a fresh token. -/
def aliasOrToken : Option Node → Action Node
  | some rowAlias => return rowAlias
  | none => return aliasNode (← mintToken)

def registerSource (table : Fragment) (rowAlias : Option Node) : Action Unit := do
  checkLock .source
  let rowAlias ← aliasOrToken rowAlias
  update fun b => { b with source := some (table, rowAlias) }

def registerComparator (comparator : Comparator) : Action Unit := do
  checkLock .comparator
  update fun b => { b with pending := { b.pending with comparator := some comparator } }

variable (lock : Locker)

/-- Sets the row source and locks it. -/
def source (table : Fragment) (rowAlias : Option Node) : Action Unit := do
  registerSource table rowAlias
  lock .source

/-- Sets the comparator and locks it. -/
def setComparator (comparator : Comparator) : Action Unit := do
  registerComparator comparator
  lock .comparator

/-- Adds a child that reads from `table`. -/
def addChild (name : String) (table : Fragment) (rowAlias : Option Node) :
    Action BuilderId := do
  let b ← self
  if (b.children.lookup name).isSome then refuse (.duplicateChild name)
  let id ← read
  let tableAlias ← ofExcept b.tableAlias
  let child ← spawn (.fresh b.options (some ⟨id, tableAlias⟩))
  within child (source lock table rowAlias)
  log (.childAdded id child name)
  update fun b => { b with children := Builder.insertChild name child b.children }
  return child

/-- Adds a child and selects an expression on it. -/
def addChildSelecting (name : String) (table : Fragment) (rowAlias : Option Node)
    (expr : Fragment) (exprName : String) : Action BuilderId := do
  let child ← addChild lock name table rowAlias
  within child (select (.ready expr) exprName)
  return child

end PageQuery.Action
