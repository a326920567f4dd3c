import PageQuery.Builder.Basic
import PageQuery.Script.Weight

/-!
# Budgets

Every lock inside another one uses up a concern that was open, or something that
was registered.  The weight of a world counts both, and so bounds how deep locks
can be nested.
-/

namespace PageQuery

/-- All weights together. -/
def totalWeight (weights : List Nat) : Nat := weights.foldr (· + ·) 0

namespace Pending

/-- The lazy values, with what weighs in each. -/
def sum (p : Pending) (fragment : DeferredFragment → Nat) (count : DeferredCount → Nat) :
    Nat :=
  totalWeight (p.selects.map fun field => fragment field.expr) +
    totalWeight (p.wheres.map fragment) +
    totalWeight (p.orderTerms.map fun term => fragment term.expr) +
    totalWeight (p.limit.toList.map count) +
    totalWeight (p.offsets.map count) +
    totalWeight (p.cursor.toList.map fragment)

def weight (heaviest : Nat) (p : Pending) : Nat :=
  p.sum (Deferred.weight heaviest) (Deferred.weight heaviest)

def heaviestComparator (p : Pending) : Nat :=
  p.sum Deferred.heaviestComparator Deferred.heaviestComparator +
    totalWeight (p.comparator.toList.map Comparator.heaviestComparator)

end Pending

namespace Builder

def weight (heaviest : Nat) (b : Builder) : Nat :=
  (Concern.lockOrder.filter fun c => !b.locked c).length +
    totalWeight (Concern.lockOrder.map fun c =>
      totalWeight ((b.callbacks c).map (Callback.weight heaviest))) +
    b.pending.weight heaviest

def heaviestComparator (b : Builder) : Nat :=
  totalWeight (Concern.lockOrder.map fun c =>
      totalWeight ((b.callbacks c).map Callback.heaviestComparator)) +
    b.pending.heaviestComparator +
    totalWeight (b.resolved.comparator.toList.map Comparator.heaviestComparator)

end Builder

namespace World

def weight (heaviest : Nat) (w : World) : Nat :=
  totalWeight (w.builders.map fun entry => entry.2.weight heaviest)

def heaviestComparator (w : World) : Nat :=
  totalWeight (w.builders.map fun entry => entry.2.heaviestComparator)

/-- What is allowed on top of the weights, for comparators that add cursor
conditions themselves. -/
def allowance : Nat := 0x100000000

/-- The fuel for the locks in one step. -/
def budget (w : World) (step : Step) : Nat :=
  let heaviest := w.heaviestComparator + step.heaviestComparator
  w.weight heaviest + step.weight heaviest + allowance

end World

end PageQuery
