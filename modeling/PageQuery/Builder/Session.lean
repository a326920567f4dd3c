import PageQuery.Builder.Budget
import PageQuery.Builder.Lock

/-!
# Sessions

A session performs steps on the first builder of a world, one after the other.
Each step is reported with its answer, the locks of the builder that it was
performed on, and what happened meanwhile.
-/

namespace PageQuery

structure Report where
  /-- What the step answered, unless it was aborted. -/
  outcome : Except Abort (Except Error Answer)
  /-- The locks of the builder of the step, if there is that builder. -/
  locks : Option (List Bool)
  nested : List Entry
  events : List Event

namespace World

/-- Runs an action on the first builder. -/
def run {α : Type} (w : World) (action : Action α) : Except Halt α × World :=
  ((action.run root).run).run w

/-- The locks of the builder that the names lead to. -/
def locksAt (w : World) (path : List String) : Option (List Bool) :=
  match (w.run (Action.follow path Action.self)).1 with
  | .ok b => some b.locks
  | .error _ => none

/-- Performs a step and reports on it. -/
def step (w : World) (step : Step) : Report × World :=
  let (result, w) := { w with events := [], journal := [] }.run
    (Action.performStep (Action.lockWith (w.budget step)) step)
  (⟨answered result, w.locksAt step.path, w.journal, w.events⟩, w)

/-- Performs the steps and reports on each. -/
def steps (w : World) : List Step → List Report
  | [] => []
  | s :: rest =>
    let (report, w) := w.step s
    report :: w.steps rest

end World

end PageQuery
