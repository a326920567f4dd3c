import PageQuery.Script.Basic

/-!
# Weights

How much work an operation can leave behind: the callbacks and lazy values that it
registers, each counted with everything that it registers in turn.  A cursor
condition counts for the heaviest comparator that may be called for it.
-/

namespace PageQuery

/-- A cursor condition, where custom comparators weigh at most `heaviest`. -/
def conditionWeight (heaviest : Nat) : Nat := heaviest + 3

/-- A new builder: its open concerns and the callbacks that it begins with. -/
def builderWeight : Nat := 20

mutual

def Step.weight (heaviest : Nat) : Step → Nat
  | .mk _ op _ _ => op.weight heaviest

def Op.weight (heaviest : Nat) : Op → Nat
  | .selectLazy steps _ _ => 1 + scriptWeight heaviest steps
  | .selectCursorLazy steps _ => 1 + scriptWeight heaviest steps
  | .filterLazy steps _ => 1 + scriptWeight heaviest steps
  | .orderByLazy steps _ _ _ => 1 + scriptWeight heaviest steps
  | .limitLazy steps _ => 1 + scriptWeight heaviest steps
  | .offsetLazy steps _ => 1 + scriptWeight heaviest steps
  | .beforeLock _ steps => 1 + scriptWeight heaviest steps
  | .addCursorCondition _ _ => conditionWeight heaviest
  | .compareWith _ _ _ => 1
  | .setUpConnection _ _ => 2 + 2 * conditionWeight heaviest
  | .addChild _ _ _ _ => builderWeight
  | _ => 0

def scriptWeight (heaviest : Nat) : List Step → Nat
  | [] => 0
  | step :: rest => step.weight heaviest + scriptWeight heaviest rest

end

mutual

/-- The heaviest custom comparator that a step can set, directly or in something
that it registers. -/
def Step.heaviestComparator : Step → Nat
  | .mk _ op _ _ => op.heaviestComparator

def Op.heaviestComparator : Op → Nat
  | .selectLazy steps _ _ => heaviestComparatorIn steps
  | .selectCursorLazy steps _ => heaviestComparatorIn steps
  | .filterLazy steps _ => heaviestComparatorIn steps
  | .orderByLazy steps _ _ _ => heaviestComparatorIn steps
  | .limitLazy steps _ => heaviestComparatorIn steps
  | .offsetLazy steps _ => heaviestComparatorIn steps
  | .beforeLock _ steps => heaviestComparatorIn steps
  | .setCustomComparator steps => max (scriptWeight 0 steps) (heaviestComparatorIn steps)
  | _ => 0

def heaviestComparatorIn : List Step → Nat
  | [] => 0
  | step :: rest => max step.heaviestComparator (heaviestComparatorIn rest)

end

namespace Deferred

variable {α σ : Type}

def weight (heaviest : Nat) : Deferred α σ → Nat
  | .ready _ => 0
  | .lazy steps _ => 1 + scriptWeight heaviest steps

def heaviestComparator : Deferred α σ → Nat
  | .ready _ => 0
  | .lazy steps _ => heaviestComparatorIn steps

end Deferred

def Comparator.heaviestComparator : Comparator → Nat
  | .kind _ => 0
  | .custom steps => max (scriptWeight 0 steps) (heaviestComparatorIn steps)

namespace Callback

def weight (heaviest : Nat) : Callback → Nat
  | .script steps => 1 + scriptWeight heaviest steps
  | .cursorCondition _ _ => conditionWeight heaviest
  | _ => 1

def heaviestComparator : Callback → Nat
  | .script steps => heaviestComparatorIn steps
  | _ => 0

end Callback

end PageQuery
