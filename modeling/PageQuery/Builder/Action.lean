import PageQuery.Builder.Basic

/-!
# Actions

An action works on one builder of the world.  It may be refused with an error; what
it has changed until then stays changed.  An action that is aborted is not refused, and
nothing can make up for it.
-/

namespace PageQuery

open Sql

/-- An action on the builder with the id that it is given. -/
abbrev Action (α : Type) := ReaderT BuilderId (ExceptT Halt (StateM World)) α

/-- What makes the lock of a concern settled, for the actions that need it. -/
abbrev Locker := Concern → Action Unit

namespace Action

variable {α : Type}

def refuse (error : Error) : Action α := throw (.refused error)

def abort (reason : Abort) : Action α := throw (.aborted reason)

def exhaust : Action α := abort .exhausted

def ofExcept : Except Error α → Action α
  | .ok a => pure a
  | .error e => refuse e

def ofHalting : Except Halt α → Action α
  | .ok a => pure a
  | .error (.refused e) => refuse e
  | .error (.aborted reason) => abort reason

/-- Runs an action and gives its error as a value. -/
def attempt (action : Action α) : Action (Except Error α) :=
  tryCatch (do return .ok (← action)) fun
    | .refused e => return .error e
    | .aborted reason => abort reason

def self : Action Builder := do
  return (← get).builder (← read)

def update (change : Builder → Builder) : Action Unit := do
  let id ← read
  modify fun w => w.setBuilder id (change (w.builder id))

/-- Runs an action on another builder. -/
def within (id : BuilderId) (action : Action α) : Action α :=
  withReader (fun _ => id) action

/-- Runs an action on the descendant that the names lead to. -/
def follow : List String → Action α → Action α
  | [], action => action
  | name :: names, action => do
    within (← ofExcept ((← self).child name)) (follow names action)

def log (event : Event) : Action Unit :=
  modify fun w => { w with events := w.events ++ [event] }

def record (entry : Entry) : Action Unit :=
  modify fun w => { w with journal := w.journal ++ [entry] }

def remember (moment : Moment) : Action Unit :=
  modify fun w => { w with history := w.history ++ [moment] }

def save (name : String) (f : Fragment) : Action Unit :=
  modify fun w => { w with saved := (name, f) :: w.saved }

/-- A token that was never given out before. -/
def mintToken : Action AliasToken := do
  let w ← get
  set { w with nextToken := w.nextToken + 1 }
  return ⟨w.nextToken⟩

/-- A new builder under an id that was never given out before. -/
def spawn (b : Builder) : Action BuilderId := do
  let w ← get
  set { w.setBuilder w.nextBuilder b with nextBuilder := w.nextBuilder + 1 }
  return w.nextBuilder

def scope : Action Scope := do
  let b ← self
  return ⟨b.tableAlias, b.parentAlias, (← get).saved⟩

def evaluate (expr : Expr) : Action Fragment := do
  ofHalting (expr.eval (← scope))

def evaluateNode (node : NodeExpr) : Action Node := do
  ofExcept (node.eval (← scope))

def evaluateNode? : Option NodeExpr → Action (Option Node)
  | none => return none
  | some node => return some (← evaluateNode node)

end Action

end PageQuery
