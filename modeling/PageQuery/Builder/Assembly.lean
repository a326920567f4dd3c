import PageQuery.Builder.Questions

/-!
# Assembly

Statements are put together from the values of the locked concerns.
-/

namespace PageQuery

open Sql

namespace Builder

/-- The bounds of one side. -/
def bounds (b : Builder) (isLower : Bool) : List Cursor.Bound :=
  if isLower then b.lower else b.upper

/-- The conditions that keep rows out that are null. -/
def guards (b : Builder) (options : BuildOptions) : Except Error (List Fragment) := do
  let nullGuard ←
    if options.nullCase then
      pure [text "not (" ++ [← b.tableAlias] ++ text " is null)"]
    else pure []
  let distinctGuard ←
    if options.notDistinctCase then
      pure [text "not (" ++ [← b.tableAlias] ++ text " is not distinct from null)"]
    else pure []
  return nullGuard ++ distinctGuard

def rowSource (b : Builder) : Except Error RowSource := do
  return ⟨← b.tableExpression, ← b.tableAlias, b.joins⟩

/-- The JSON form of a row, from the selected fields. -/
def objectOfRow (b : Builder) : Except Error RowObject :=
  match b.resolved.selects with
  | [] => do return .whole (← b.tableAlias)
  | [field] =>
    if field.name = cursorAlias then do return .withCursor (← b.tableAlias) field.expr
    else .ok (RowObject.ofFields b.options.supportsJsonb [field])
  | fields => .ok (RowObject.ofFields b.options.supportsJsonb fields)

/-- The expression of a row's object, null for null rows if that is asked for. -/
def rowObject (b : Builder) (options : BuildOptions) : Except Error Fragment := do
  let object := (← b.objectOfRow).fragment
  if options.notDistinctCase || options.nullCase then
    return RowObject.orNull options (← b.tableAlias) object
  else return object

/-- What is selected from each row. -/
def projection (b : Builder) (plan : Plan) (options : BuildOptions) :
    Except Error Projection := do
  if options.asterisk then
    return .asterisk (← b.tableAlias)
  else if options.asJson || options.asJsonAggregate then
    let numberedBy :=
      if plan.flip && options.asJsonAggregate then b.resolved.orderTerms else []
    return .object (← b.rowObject options) numberedBy
  else
    return .fields b.resolved.selects

end Builder

namespace Action

variable (lock : Locker)

/-- One side of the bounds. -/
def boundClause (isLower : Bool) : Action Fragment := do
  lock .bounds
  return Filter.side ((← self).bounds isLower)

/-- One side of the bounds, if it is wanted.  There is nothing to lock while it has
none. -/
def wantedBounds (wanted isLower : Bool) : Action (List Cursor.Bound) := do
  if wanted && !((← self).bounds isLower).isEmpty then
    lock .bounds
    return (← self).bounds isLower
  else return []

/-- The where clause with the wanted sides of the bounds. -/
def whereClause (lower upper : Bool) (options : BuildOptions) : Action Filter := do
  lock .wheres
  let b ← self
  let guards ← ofExcept (b.guards options)
  let lowerBounds ← wantedBounds lock lower true
  let upperBounds ← wantedBounds lock upper false
  return ⟨guards, b.resolved.wheres, lowerBounds, upperBounds⟩

def rowSource : Action RowSource := do
  ofExcept (← self).rowSource

/-- The rows that the statement of a plan leaves out before the page. -/
def skip (plan : Plan) (options : BuildOptions) : Action Skip := do
  match plan.window, plan.limit with
  | some window, some last =>
    let source ← rowSource
    let filter ← whereClause lock true true options
    return .windowHead source filter window last
  | _, _ => return if 0 < plan.offset then .rows plan.offset else .nothing

/-- The position of each row, for an order that does not tell rows apart. -/
def positionExpression : Action CursorExpr := do
  let plan ← pagePlan lock
  if plan.flip then
    let source ← rowSource
    let filter ← whereClause lock true true {}
    return .fromEnd source filter plan.offset
  else
    return .fromStart (← skip lock plan {})

/-- The cursor of each row: the tag and the values of the order where it tells rows
apart, and the position elsewhere. -/
def cursorExpression : Action CursorExpr := do
  let terms ← orderTerms lock
  if terms.isEmpty then positionExpression lock
  else if ← isOrderUnique lock true then
    return .keyed (← cursorTag lock) (terms.map OrderTerm.expr)
  else positionExpression lock

def selectFields : Action Fragment := do
  lockEverything lock
  return selectList (← self).resolved.selects

def rowObject (options : BuildOptions) : Action Fragment := do
  lockEverything lock
  ofExcept ((← self).rowObject options)

/-- The statement of a plan. -/
def statement (plan : Plan) (options : BuildOptions) : Action Statement := do
  let b ← self
  let projection ← ofExcept (b.projection plan options)
  let filter ← whereClause lock true true options
  let skip ← skip lock plan options
  return {
    projection, source := b.source, joins := b.joins, filter
    order := b.resolved.orderTerms, flip := plan.flip, limit := plan.limit, skip }

/-- Locks everything and puts the statement together. -/
def build (options : BuildOptions) : Action Built := do
  lockEverything lock
  if options.onlyJsonField then
    return .object (← rowObject lock options)
  let plan ← plan lock
  let statement ← statement lock plan options
  remember (.built (← read) statement)
  if options.asJsonAggregate then
    return .aggregate statement (← mintToken)
  else return .rows statement

/-- The expression of a flag of a page, about the rows on one side of it. -/
def flagExpression (flag : PageFlag) (isLower : Bool) (options : BuildOptions) :
    Action FlagExpr := do
  match flag with
  | .never => return .never
  | .beyond skipped =>
    let source ← rowSource
    let filter ← whereClause lock true true options
    return .beyond source filter skipped
  | .outside =>
    let source ← rowSource
    let filter ← whereClause lock false false options
    lock .bounds
    return .outside source filter ((← self).bounds isLower)

/-- A page with its flags: whether there are rows after it and before it. -/
def buildConnection (options : BuildOptions) : Action ConnectionStatement := do
  let page ← build lock
    { options with asJson := false, asJsonAggregate := true, onlyJsonField := false }
  let plan ← plan lock
  let offset ← totalOffset lock
  let b ← self
  let next ← flagExpression lock (plan.next b.first !b.upper.isEmpty) false options
  let b ← self
  let previous ←
    flagExpression lock (plan.previous offset b.last !b.lower.isEmpty) true options
  return ⟨page, next, previous⟩

/-- Compiles a fragment and logs the statement. -/
def compileFragment (f : Fragment) : Action Compiled := do
  let compiled ← ofExcept (Sql.compile f)
  let b ← self
  log (.compiled (← read) compiled.params.length (b.options.loggedText compiled.text))
  return compiled

def compile (options : BuildOptions) : Action Compiled := do
  compileFragment (← build lock options).fragment

/-- The statement and its rows, in the order that was asked for. -/
def fetchRows (options : BuildOptions) (client : Client) :
    Action (Compiled × List (List Cell)) := do
  let compiled ← compile lock options
  let plan ← plan lock
  let rows ← ofExcept (client.query compiled)
  if plan.flip && !options.asJsonAggregate && !options.onlyJsonField then
    return (compiled, rows.reverse)
  else return (compiled, rows)

/-- The statement of a page and the connection that its first row holds. -/
def fetchConnection (client : Client) : Action (Compiled × Connection) := do
  let compiled ← compileFragment (← buildConnection lock {}).fragment
  match ← ofExcept (client.query compiled) with
  | [] => refuse (.decode "data" .noRows)
  | row :: _ => return (compiled, ← ofExcept (client.connectionOf row))

end Action

end PageQuery
