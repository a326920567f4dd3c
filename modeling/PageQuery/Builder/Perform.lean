import PageQuery.Builder.Comparison

/-!
# Performing operations

Every operation of a script, on the builder that the script runs on.  Expressions
are evaluated before the builder is asked, so their errors come first.
-/

namespace PageQuery.Action

open Sql

variable (lock : Locker)

def answering (action : Action Unit) : Action Answer := do
  action
  return .done

/-- Adds a child, with a selected expression if one is given.  All expressions are
evaluated on the parent. -/
def addChildWith (name : String) (table : Expr) (rowAlias : Option NodeExpr)
    (selecting : Option (Expr × String)) : Action Unit := do
  let table ← evaluate table
  let rowAlias ← evaluateNode? rowAlias
  match selecting with
  | none => discard (addChild lock name table rowAlias)
  | some (expr, exprName) =>
    let expr ← evaluate expr
    discard (addChildSelecting lock name table rowAlias expr exprName)

/-- Whether the builder has a parent: whether that is the first builder of the run,
and the alias of its row source. -/
def parentAnswer : Action Answer := do
  return .parent ((← self).parent.map fun parent =>
    (parent.id == World.root, parent.tableAlias))

def childAnswer (name : String) : Action Answer := do
  let id ← ofExcept ((← self).child name)
  let child := (← get).builder id
  return .child child.phase child.locks

def perform : Op → Action Answer
  | .source table rowAlias => answering do
    let table ← evaluate table
    source lock table (← evaluateNode? rowAlias)
  | .select expr name => answering do select (.ready (← evaluate expr)) name
  | .selectLazy steps value name => answering do select (.lazy steps value) name
  | .selectIdentifiers primaryKey => answering do selectIdentifiers primaryKey
  | .selectCursor expr => answering do selectCursor (.ready (← evaluate expr))
  | .selectCursorLazy steps value => answering do selectCursor (.lazy steps value)
  | .join clause => answering do join (← evaluate clause)
  | .filter expr => answering do filter (.ready (← evaluate expr))
  | .filterLazy steps value => answering do filter (.lazy steps value)
  | .bound expr isLower => answering do bound (.given (← evaluate expr)) isLower
  | .orderBy expr ascending nulls => answering do
    orderBy (.ready (← evaluate expr)) ascending nulls
  | .orderByLazy steps value ascending nulls => answering do
    orderBy (.lazy steps value) ascending nulls
  | .setOrderUnique => answering setOrderUnique
  | .limit n => answering do limit (.ready n)
  | .limitLazy steps value => answering do limit (.lazy steps value)
  | .offset n => answering do offset (.ready n)
  | .offsetLazy steps value => answering do offset (.lazy steps value)
  | .first n => answering do first n
  | .last n => answering do last n
  | .setComparator kind => answering do setComparator lock (.kind kind)
  | .setCustomComparator steps => answering do setComparator lock (.custom steps)
  | .setCursorTag tag => answering do setCursorTag tag
  | .addCursorCondition cursor isAfter => answering do addCursorCondition cursor isAfter
  | .compareWith kind cursor isAfter => answering do compareWith lock kind cursor isAfter
  | .setUpConnection setup args => answering do setUpConnection lock setup args
  | .beforeLock concern steps => answering do beforeLock concern (.script steps)
  | .lock concern => answering do lock concern
  | .checkLock concern => answering do checkLock concern
  | .lockEverything => answering do lockEverything lock
  | .fail error => refuse error
  | .addChild name table rowAlias selecting => answering do
    addChildWith lock name table rowAlias selecting
  | .phase => do return .phase (← self).phase
  | .isFinalized => do return .flag (← self).isFinalized
  | .tableAlias => do return .fragment [← ofExcept (← self).tableAlias]
  | .tableExpression => do return .fragment (← ofExcept (← self).tableExpression)
  | .orderTerms => do return .terms (← orderTerms lock)
  | .isOrderUnique settled => do return .flag (← isOrderUnique lock settled)
  | .cursorTag => do return .text (← cursorTag lock)
  | .totalOffset => do return .count (← totalOffset lock)
  | .fieldCount => do return .count (← fieldCount lock)
  | .cursor => do return .cursor (← cursor lock)
  | .plan => do return .plan (← plan lock)
  | .options => do return .options (← self).options
  | .selectFields => do return .fragment (← selectFields lock)
  | .cursorExpression => do return .fragment (← cursorExpression lock).fragment
  | .rowObject options => do return .fragment (← rowObject lock options)
  | .boundClause isLower => do return .fragment (← boundClause lock isLower)
  | .whereClause lower upper options => do
    return .fragment (← whereClause lock lower upper options).fragment
  | .build options => do return .fragment (← build lock options).fragment
  | .buildConnection options => do
    return .fragment (← buildConnection lock options).fragment
  | .compile options => do return .compiled (← compile lock options)
  | .compileExpr expr => do return .compiled (← compileFragment (← evaluate expr))
  | .child name => childAnswer name
  | .childNames => do return .names ((← self).children.map Prod.fst)
  | .parent => parentAnswer
  | .fetchRows options client => do
    let (statement, rows) ← fetchRows lock options client
    return .rows statement rows
  | .fetchConnection client => do
    let (statement, connection) ← fetchConnection lock client
    return .connection statement connection

/-- Performs a step, on the builder that it names, and saves the fragment that it
gives if that is asked for. -/
def performStep (step : Step) : Action Answer := do
  let answer ← follow step.path (perform lock step.op)
  match step.save, answer.fragment? with
  | some name, some f => save name f
  | _, _ => pure ()
  return answer

/-- Runs a script inside another operation, and records every step when it is
done.  The first step that fails ends the script, unless it is optional. -/
def runSteps : List Step → Action Unit
  | [] => pure ()
  | step :: rest => do
    let outcome ← attempt (performStep lock step)
    record (.step step.op (← self).locks outcome)
    match outcome with
    | .ok _ => runSteps rest
    | .error e => if step.optional then runSteps rest else refuse e

end PageQuery.Action
