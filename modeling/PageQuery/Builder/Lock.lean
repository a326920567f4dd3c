import PageQuery.Builder.Perform

/-!
# Locking

To lock a concern is to run its callbacks and then to settle its values.  Callbacks
run in the order of their registration, those that are registered meanwhile after
the others; if one fails, the concern stays open and the callbacks behind it stay
registered.  A callback or a lazy value may lock concerns itself, also the one that
is being locked, so locking takes fuel: each lock inside another one has less.
-/

namespace PageQuery.Action

open Sql

section

variable (lock : Locker)

/-- The value of a fragment. -/
def resolveFragment : DeferredFragment → Action Fragment
  | .ready f => return f
  | .lazy steps (.expr expr) => do
    runSteps lock steps
    evaluate expr
  | .lazy steps .cursorExpression => do
    runSteps lock steps
    return (← cursorExpression lock).fragment

/-- The value of a count. -/
def resolveCount : DeferredCount → Action Nat
  | .ready n => return n
  | .lazy steps value => do
    runSteps lock steps
    match value with
    | .fixed n => return n
    | .aboveOffset n => return addCounts n (← totalOffset lock)
    | .beforePosition position => return position - (← totalOffset lock) - 1

def resolveTerm (term : PendingTerm) : Action OrderTerm := do
  return ⟨← resolveFragment lock term.expr, term.ascending, term.nulls⟩

/-- The sum of the offsets. -/
def resolveOffsets (total : Nat) : List DeferredCount → Action Nat
  | [] => return total
  | n :: rest => do resolveOffsets (addCounts total (← resolveCount lock n)) rest

/-- The select list.  A field takes the place of an earlier one of its name, at the
end of the list. -/
def resolveFields (done : List Field) : List PendingField → Action (List Field)
  | [] => return done
  | field :: rest => do
    let expr ← resolveFragment lock field.expr
    resolveFields ((done.filter fun f => f.name != field.name) ++ [⟨expr, field.name⟩]) rest

def updatePending (change : Pending → Pending) : Action Unit :=
  update fun b => { b with pending := change b.pending }

def updateResolved (change : Resolved → Resolved) : Action Unit :=
  update fun b => { b with resolved := change b.resolved }

def resolveOrder : Action Unit := do
  let terms := (← self).pending.orderTerms
  updatePending fun p => { p with orderTerms := [] }
  let terms ← terms.mapM (resolveTerm lock)
  updateResolved fun r => { r with orderTerms := terms }

/-- Settles the values of a concern that has just been locked.  What was registered
is gone even if one of the values fails. -/
def resolve : Concern → Action Unit
  | .source | .joins | .uniqueness | .cursorTag | .bounds | .first | .last => pure ()
  | .order => do
    resolveOrder lock
    lock .uniqueness
  | .comparator => do
    let comparator := (← self).pending.comparator.getD (.kind .row)
    updatePending fun p => { p with comparator := none }
    updateResolved fun r => { r with comparator := some comparator }
  | .wheres => do
    let wheres := (← self).pending.wheres
    updatePending fun p => { p with wheres := [] }
    let wheres ← wheres.mapM (resolveFragment lock)
    updateResolved fun r => { r with wheres }
  | .offset => do
    let offsets := (← self).pending.offsets
    updatePending fun p => { p with offsets := [] }
    let offset ← resolveOffsets lock 0 offsets
    updateResolved fun r => { r with offset }
  | .limit => do
    let limit := (← self).pending.limit
    updatePending fun p => { p with limit := none }
    let limit ← limit.mapM (resolveCount lock)
    updateResolved fun r => { r with limit }
  | .cursor => do
    let cursor := (← self).pending.cursor
    updatePending fun p => { p with cursor := none }
    let cursor ← cursor.mapM (resolveFragment lock)
    updateResolved fun r => { r with cursor }
  | .select => do
    let selects := (← self).pending.selects
    updatePending fun p => { p with selects := [] }
    let selects ← resolveFields lock [] selects
    updateResolved fun r => { r with selects }

/-- Turns a cursor into bounds. -/
def applyComparator (cursor : List Json) (isAfter : Bool) : Comparator → Action Unit
  | .kind kind => compareWith lock kind cursor isAfter
  | .custom steps => do
    record (.comparator cursor isAfter)
    runSteps lock steps

def runCallback : Callback → Action Unit
  | .script steps => runSteps lock steps
  | .settleBounds => lock .bounds
  | .settleCursor => do
    lock .cursor
    (← self).resolved.cursor.forM fun f => select (.ready f) cursorAlias
  | .cursorCondition cursor isAfter => do
    lock .comparator
    match (← self).resolved.comparator with
    | none => refuse (.validation .noComparator)
    | some comparator => applyComparator lock cursor isAfter comparator
  | .breakTies primaryKey => breakTies lock primaryKey
  | .refuseLastFromEnd => do
    if (← self).takesLastFromEnd then refuse (.ambiguousPagination .lastAfterPosition)

/-- Runs callbacks of `c`.  If one fails, those behind it are registered again, ahead
of what has been registered meanwhile. -/
def runCallbacks (c : Concern) : List Callback → Action Unit
  | [] => pure ()
  | callback :: rest => do
    match ← attempt (runCallback lock callback) with
    | .ok () => runCallbacks c rest
    | .error e =>
      update fun b => b.setCallbacks c (rest ++ b.callbacks c)
      remember (.callbackRefused (← read) c callback)
      refuse e

/-- Runs the callbacks of `c` until none is registered; at most `rounds` times those
that were registered together. -/
def drain (c : Concern) : (rounds : Nat) → Action Unit
  | 0 => exhaust
  | rounds + 1 => do
    let queue := (← self).callbacks c
    if queue.isEmpty then return
    update fun b => b.setCallbacks c []
    runCallbacks lock c queue
    drain c rounds

/-- Settles the values of a concern that is locked from now on. -/
def settleValues (c : Concern) : Action Unit := do
  log (.locked (← read) c)
  resolve lock c
  remember (.settled (← read) c)

/-- Locks a concern whose callbacks have run, and settles its values. -/
def settle (c : Concern) : Action Unit := do
  update fun b => b.setLocked c
  settleValues lock c

/-- Settles a concern that its callbacks have not locked meanwhile. -/
def settleOpen (c : Concern) : Action Unit := do
  if (← self).locked c then return
  settle lock c

end

/-- Locks a concern.  A concern that is locked already, or that its callbacks have
locked, is left alone. -/
def lockWith : (fuel : Nat) → Locker
  | 0, c => do if (← self).locked c then return else exhaust
  | fuel + 1, c => do
    if (← self).locked c then return
    drain (lockWith fuel) c fuel
    settleOpen (lockWith fuel) c

end PageQuery.Action
