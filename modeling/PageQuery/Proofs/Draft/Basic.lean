import PageQuery.Proofs.Run.Finalized
import PageQuery.Proofs.Run.Settings

/-!
# Drafts

A builder that was told ready values only, and that a connection was set up on, is known
completely: by what it was told, its draft, and by how far each of its concerns has come.
Concerns may be settled in any order, and a lock inside another one finds the outer concern
half-way; but whatever has come about by then, every value is the one that the draft gives
it.  When all concerns are settled, the builder is a function of its draft alone.
-/

namespace PageQuery

open Sql

/-- How far a concern has come. -/
inductive Stage
  | waiting
  /-- Its callbacks have been taken from their queue. -/
  | drained
  /-- It is locked, and its values are not there yet. -/
  | locked
  | settled
  deriving DecidableEq

namespace Stage

def isWaiting : Stage → Bool
  | .waiting => true
  | _ => false

def isLocked : Stage → Bool
  | .waiting | .drained => false
  | .locked | .settled => true

def isSettled : Stage → Bool
  | .settled => true
  | _ => false

end Stage

/-- How far each concern has come. -/
abbrev Progress := Concern → Stage

/-- What a cursor does to a builder whose order is settled. -/
inductive Effect
  | bounds (condition : Cursor.Bound)
  /-- The rows up to a position are skipped. -/
  | skips (position : Nat)
  /-- The rows from a position on are cut off. -/
  | cuts (position : Nat)

/-- What a builder was told. -/
structure Draft where
  options : Options
  table : Fragment
  rowAlias : Node
  joins : List Fragment
  lower : List Cursor.Bound
  upper : List Cursor.Bound
  unique : Bool
  first : Option Nat
  last : Option Nat
  tag : String
  identified : Bool
  selects : List Field
  wheres : List Fragment
  terms : List OrderTerm
  limit : Option Nat
  offsets : List Nat
  /-- The cursor of each row, if there is one: a given one, or the one that fits the order. -/
  cursor : Option (Option Fragment)
  primaryKey : List String
  after : Option (List Json)
  before : Option (List Json)

namespace Draft

variable (d : Draft)

/-! The values that come of a draft. -/

def order : List OrderTerm := d.terms ++ if d.unique then [] else keyTerms d.rowAlias d.primaryKey

def isUnique : Bool := d.unique || !d.primaryKey.isEmpty

def isKeyed : Bool := !d.order.isEmpty && d.isUnique

/-- What a cursor does, unless it is refused. -/
def effect? (isAfter : Bool) (cursor : List Json) : Option Effect :=
  if Cursor.tag? cursor = some naturalTag ∧ d.isUnique = false then
    match Action.naturalPosition? cursor with
    | none => some (.bounds .never)
    | some position =>
      if isAfter then some (.skips position)
      else if d.limit.isSome then none
      else some (.cuts position)
  else if d.isKeyed then
    match Cursor.keyedBound d.tag d.order cursor isAfter with
    | .error _ => some (.bounds .never)
    | .ok condition => some (.bounds condition)
  else none

def afterEffect? : Option Effect := d.after.bind (d.effect? true)

def beforeEffect? : Option Effect := d.before.bind (d.effect? false)

def boundsOf : Option Effect → List Cursor.Bound
  | some (.bounds condition) => [condition]
  | _ => []

def lowerBounds : List Cursor.Bound := d.lower ++ boundsOf d.afterEffect?

def upperBounds : List Cursor.Bound := d.upper ++ boundsOf d.beforeEffect?

/-- The position that an `after` cursor skips to. -/
def skipped? : Option Nat :=
  match d.afterEffect? with
  | some (.skips position) => some position
  | _ => none

/-- The position that a `before` cursor cuts off. -/
def cut? : Option Nat :=
  match d.beforeEffect? with
  | some (.cuts position) => some position
  | _ => none

def allOffsets : List Nat := d.offsets ++ d.skipped?.toList

def offsetValue : Nat := d.allOffsets.foldl addCounts 0

def limitValue : Option Nat :=
  match d.cut? with
  | some position => some (position - d.offsetValue - 1)
  | none => d.limit

def plan : Except Error Plan := Plan.make d.limitValue d.offsetValue d.first d.last

def source : RowSource := ⟨d.table, d.rowAlias, d.joins⟩

def filter : Filter := ⟨[], d.wheres, d.lowerBounds, d.upperBounds⟩

/-- The rows that a plan skips, as the cursor counts them. -/
def skip (plan : Plan) : Skip :=
  match plan.window, plan.limit with
  | some window, some last => .windowHead d.source d.filter window last
  | _, _ => if 0 < plan.offset then .rows plan.offset else .nothing

def position : Except Error CursorExpr := do
  let plan ← d.plan
  if plan.flip then return .fromEnd d.source d.filter plan.offset
  else return .fromStart (d.skip plan)

/-- The cursor that fits the order. -/
def cursorExpr : Except Error CursorExpr :=
  if d.isKeyed then .ok (.keyed d.tag (d.order.map OrderTerm.expr)) else d.position

/-- The cursor of each row, unless the one that fits the order is refused. -/
def cursorValue : Option Fragment :=
  match d.cursor with
  | none => none
  | some (some given) => some given
  | some none => d.cursorExpr.toOption.map CursorExpr.fragment

def fields : List Field :=
  latest [] (d.selects ++ (d.cursorValue.map fun f => ⟨f, cursorAlias⟩).toList)

/-! The callbacks that wait, and the values that they make. -/

/-- The cursors that become bounds or limits. -/
def conditions : List Callback :=
  (d.after.map fun cursor => .cursorCondition cursor true).toList ++
    (d.before.map fun cursor => .cursorCondition cursor false).toList

def queue (connected : Bool) : Concern → List Callback
  | .order => if connected && !d.primaryKey.isEmpty then [.breakTies d.primaryKey] else []
  | .bounds => if connected then d.conditions else []
  | c => Builder.initialCallbacks c

/-- What `last` waits for once the bounds are settled. -/
def guards : List Callback := (d.skipped?.map fun _ => .refuseLastFromEnd).toList

def pendingLimit (bounded : Bool) : Option DeferredCount :=
  match bounded, d.cut? with
  | true, some position => some (.lazy [] (.beforePosition position))
  | _, _ => d.limit.map .ready

def pendingOffsets (bounded : Bool) : List DeferredCount :=
  (if bounded then d.allOffsets else d.offsets).map .ready

def pendingCursor : Option DeferredFragment :=
  d.cursor.map fun
    | some given => .ready given
    | none => .lazy [] .cursorExpression

/-- The callbacks that have not been taken from their queue. -/
def callbacks (X : Progress) (c : Concern) : List Callback :=
  (if (X c).isWaiting then d.queue (X .comparator).isSettled c else []) ++
    if c = .last ∧ (X .bounds).isSettled ∧ (X .last).isLocked = false then d.guards else []

/-- The builder of a draft whose concerns have come as far as `X` says. -/
def builder (X : Progress) : Builder where
  options := d.options
  parent := none
  source := if (X .source).isSettled then some (d.table, d.rowAlias) else none
  joins := d.joins
  lower := if (X .bounds).isSettled then d.lowerBounds else d.lower
  upper := if (X .bounds).isSettled then d.upperBounds else d.upper
  orderIsUnique := if (X .order).isSettled then d.isUnique else d.unique
  first := d.first
  last := d.last
  cursorTag := d.tag
  identifiersSelected := d.identified
  pending := {
    selects :=
      if (X .select).isSettled then []
      else d.selects.map fun field => ⟨.ready field.expr, field.name⟩
    wheres := if (X .wheres).isSettled then [] else d.wheres.map .ready
    orderTerms :=
      if (X .order).isSettled then []
      else d.terms.map fun term => ⟨.ready term.expr, term.ascending, term.nulls⟩
    limit := if (X .limit).isLocked then none else d.pendingLimit (X .bounds).isSettled
    offsets :=
      if (X .offset).isSettled then [] else d.pendingOffsets (X .bounds).isSettled
    cursor := if (X .cursor).isLocked then none else d.pendingCursor
    comparator := none }
  resolved := {
    selects := if (X .select).isSettled then d.fields else []
    wheres := if (X .wheres).isSettled then d.wheres else []
    orderTerms := if (X .order).isSettled then d.order else []
    limit := if (X .limit).isSettled then d.limitValue else none
    offset := if (X .offset).isSettled then d.offsetValue else 0
    cursor := if (X .cursor).isSettled then d.cursorValue else none
    comparator := if (X .comparator).isSettled then some (.kind .relay) else none }
  locked := fun c => (X c).isLocked
  callbacks := d.callbacks X
  children := []

end Draft

namespace Progress

variable {X : Progress} {c : Concern} {stage : Stage}

def set (X : Progress) (c : Concern) (stage : Stage) : Progress :=
  fun e => if e = c then stage else X e

@[simp]
theorem set_same : X.set c stage c = stage := if_pos rfl

theorem set_set {other : Stage} : (X.set c stage).set c other = X.set c other := by
  funext e
  by_cases he : e = c <;> simp [set, he]

theorem set_ne {e : Concern} (he : e ≠ c) : X.set c stage e = X e := if_neg he

end Progress

namespace Draft

variable {d : Draft} {X : Progress} {c : Concern}

/-- To take the callbacks of a concern from their queue. -/
theorem builder_drained (hwaiting : X c = .waiting)
    (hlast : c = .last → (X .bounds).isSettled = false) :
    (d.builder X).setCallbacks c [] = d.builder (X.set c .drained) := by
  have hsettled (e : Concern) : (X.set c .drained e).isSettled = (X e).isSettled := by
    by_cases he : e = c
    · rw [he, Progress.set_same, hwaiting]
      rfl
    · rw [Progress.set_ne he]
  have hlocked (e : Concern) : (X.set c .drained e).isLocked = (X e).isLocked := by
    by_cases he : e = c
    · rw [he, Progress.set_same, hwaiting]
      rfl
    · rw [Progress.set_ne he]
  simp only [Draft.builder, Builder.setCallbacks, hsettled, hlocked]
  congr 1
  funext e
  by_cases he : e = c
  · subst he
    by_cases hc : e = .last
    · simp [callbacks, hsettled, hlast hc, Stage.isWaiting]
    · simp [callbacks, hsettled, hc, Stage.isWaiting]
  · simp [callbacks, hsettled, hlocked, he, Progress.set_ne he]

theorem locked_set (stage : Stage) (hstage : stage.isLocked = true) :
    (fun e => (X.set c stage e).isLocked) = fun e => if e = c then true else (X e).isLocked := by
  funext e
  by_cases he : e = c
  · simp [he, hstage]
  · simp [he, Progress.set_ne he]

theorem locked_set_of_locked (c : Concern) (stage : Stage)
    (hlocked : (X c).isLocked = stage.isLocked) :
    (fun e => (X.set c stage e).isLocked) = fun e => (X e).isLocked := by
  funext e
  by_cases he : e = c
  · rw [he, Progress.set_same, hlocked]
  · rw [Progress.set_ne he]

/-- A concern that is locked has no callbacks any more. -/
theorem callbacks_set (stage : Stage) (hc : c ∉ [Concern.comparator, .bounds, .last])
    (hstage : stage.isWaiting = false) (hnone : d.callbacks X c = []) :
    d.callbacks (X.set c stage) = d.callbacks X := by
  simp only [List.mem_cons, List.not_mem_nil, or_false, not_or] at hc
  obtain ⟨hcomparator, hbounds, hlast⟩ := hc
  funext e
  by_cases he : e = c
  · rw [he, hnone]
    simp [callbacks, hlast, hstage]
  · simp [callbacks, Progress.set_ne he, Progress.set_ne (Ne.symm hcomparator),
      Progress.set_ne (Ne.symm hbounds), Progress.set_ne (Ne.symm hlast)]

/-! Concerns that are locked without any values. -/

theorem builder_joins (hnone : d.callbacks X .joins = []) :
    (d.builder X).setLocked .joins = d.builder (X.set .joins .settled) := by
  simp only [Draft.builder, Builder.setLocked, locked_set .settled rfl,
    callbacks_set .settled (by decide) rfl hnone]
  rfl

theorem builder_uniqueness (hnone : d.callbacks X .uniqueness = []) :
    (d.builder X).setLocked .uniqueness = d.builder (X.set .uniqueness .settled) := by
  simp only [Draft.builder, Builder.setLocked, locked_set .settled rfl,
    callbacks_set .settled (by decide) rfl hnone]
  rfl

theorem builder_cursorTag (hnone : d.callbacks X .cursorTag = []) :
    (d.builder X).setLocked .cursorTag = d.builder (X.set .cursorTag .settled) := by
  simp only [Draft.builder, Builder.setLocked, locked_set .settled rfl,
    callbacks_set .settled (by decide) rfl hnone]
  rfl

theorem builder_first (hnone : d.callbacks X .first = []) :
    (d.builder X).setLocked .first = d.builder (X.set .first .settled) := by
  simp only [Draft.builder, Builder.setLocked, locked_set .settled rfl,
    callbacks_set .settled (by decide) rfl hnone]
  rfl

/-! Concerns with values. -/

/-- An order without a primary key. -/
theorem builder_order (hnone : d.callbacks X .order = []) (hkey : d.primaryKey = []) :
    { (d.builder X).setLocked .order with
      pending := { (d.builder X).pending with orderTerms := [] }
      resolved := { (d.builder X).resolved with orderTerms := d.order } } =
    d.builder (X.set .order .settled) := by
  have hunique : d.isUnique = d.unique := by simp [isUnique, hkey]
  simp only [Draft.builder, Builder.setLocked, locked_set .settled rfl,
    callbacks_set .settled (by decide) rfl hnone,
    Progress.set_same, hunique, ite_self]
  rfl

/-- An order whose ties the primary key breaks. -/
theorem builder_tiesBroken (hkey : d.primaryKey ≠ []) :
    { ((d.builder (X.set .order .drained)).tiesBroken d.rowAlias d.primaryKey).setLocked .order with
      pending := { (d.builder X).pending with orderTerms := [] }
      resolved := { (d.builder X).resolved with orderTerms := d.order } } =
    d.builder (X.set .order .settled) := by
  have hunique : d.isUnique = true := by simp [isUnique, hkey]
  have hnone : d.callbacks (X.set .order .drained) .order = [] := by
    simp [callbacks, Stage.isWaiting]
  have hqueues : d.callbacks (X.set .order .settled) = d.callbacks (X.set .order .drained) := by
    rw [← callbacks_set .settled (by decide) rfl hnone, Progress.set_set]
  simp only [Draft.builder, Builder.tiesBroken, Builder.withTerms, Builder.setLocked, hqueues,
    locked_set .settled rfl, Progress.set_same, hunique]
  congr 1
  funext e
  by_cases he : e = .order
  · simp [he]
  · simp [he, Progress.set_ne he]

theorem builder_wheres (hnone : d.callbacks X .wheres = []) :
    { (d.builder X).setLocked .wheres with
      pending := { (d.builder X).pending with wheres := [] }
      resolved := { (d.builder X).resolved with wheres := d.wheres } } =
    d.builder (X.set .wheres .settled) := by
  simp only [Draft.builder, Builder.setLocked, locked_set .settled rfl,
    callbacks_set .settled (by decide) rfl hnone]
  rfl

theorem builder_offset (hnone : d.callbacks X .offset = []) :
    { (d.builder X).setLocked .offset with
      pending := { (d.builder X).pending with offsets := [] }
      resolved := { (d.builder X).resolved with offset := d.offsetValue } } =
    d.builder (X.set .offset .settled) := by
  simp only [Draft.builder, Builder.setLocked, locked_set .settled rfl,
    callbacks_set .settled (by decide) rfl hnone]
  rfl

theorem builder_limit_locked (hnone : d.callbacks X .limit = [])
    (hopen : (X .limit).isLocked = false) :
    { (d.builder X).setLocked .limit with
      pending := { (d.builder X).pending with limit := none } } =
    d.builder (X.set .limit .locked) := by
  have hunsettled : (X .limit).isSettled = false := by
    cases hstage : X .limit <;> simp_all [Stage.isLocked, Stage.isSettled]
  simp only [Draft.builder, Builder.setLocked, locked_set .locked rfl,
    callbacks_set .locked (by decide) rfl hnone,
    hunsettled]
  rfl

theorem builder_limit (hlocked : X .limit = .locked) :
    { d.builder X with
      resolved := { (d.builder X).resolved with limit := d.limitValue } } =
    d.builder (X.set .limit .settled) := by
  have hnone : d.callbacks X .limit = [] := by simp [callbacks, hlocked, Stage.isWaiting]
  have hsame : (X .limit).isLocked = Stage.settled.isLocked := by rw [hlocked]; rfl
  simp only [Draft.builder, locked_set_of_locked .limit .settled hsame,
    callbacks_set .settled (by decide) rfl hnone, hlocked]
  rfl

theorem builder_cursor_locked (hnone : d.callbacks X .cursor = [])
    (hopen : (X .cursor).isLocked = false) :
    { (d.builder X).setLocked .cursor with
      pending := { (d.builder X).pending with cursor := none } } =
    d.builder (X.set .cursor .locked) := by
  have hunsettled : (X .cursor).isSettled = false := by
    cases hstage : X .cursor <;> simp_all [Stage.isLocked, Stage.isSettled]
  simp only [Draft.builder, Builder.setLocked, locked_set .locked rfl,
    callbacks_set .locked (by decide) rfl hnone,
    hunsettled]
  rfl

theorem builder_cursor (hlocked : X .cursor = .locked) :
    { d.builder X with
      resolved := { (d.builder X).resolved with cursor := d.cursorValue } } =
    d.builder (X.set .cursor .settled) := by
  have hnone : d.callbacks X .cursor = [] := by simp [callbacks, hlocked, Stage.isWaiting]
  have hsame : (X .cursor).isLocked = Stage.settled.isLocked := by rw [hlocked]; rfl
  simp only [Draft.builder, locked_set_of_locked .cursor .settled hsame,
    callbacks_set .settled (by decide) rfl hnone, hlocked]
  rfl

theorem builder_select (hnone : d.callbacks X .select = []) :
    { (d.builder X).setLocked .select with
      pending := { (d.builder X).pending with selects := [] }
      resolved := { (d.builder X).resolved with selects := d.fields } } =
    d.builder (X.set .select .settled) := by
  simp only [Draft.builder, Builder.setLocked, locked_set .settled rfl,
    callbacks_set .settled (by decide) rfl hnone]
  rfl

end Draft

namespace Builder

/-- The builder with what a cursor does to it. -/
def touched (b : Builder) (isAfter : Bool) : Option Effect → Builder
  | none => b
  | some (.bounds condition) => b.bounded isAfter [condition]
  | some (.skips position) =>
    { b with pending := { b.pending with
      offsets := b.pending.offsets ++ [Deferred.ready position] } : Builder }.withCallback .last
        .refuseLastFromEnd
  | some (.cuts position) =>
    { b with pending := { b.pending with limit := some (.lazy [] (.beforePosition position)) } }

theorem touched_locked (b : Builder) (isAfter : Bool) (effect : Option Effect) :
    (b.touched isAfter effect).locked = b.locked := by
  rcases effect with _ | _ | _ | _ <;> rfl

theorem touched_callbacks (b : Builder) (isAfter : Bool) (effect : Option Effect) :
    (b.touched isAfter effect).callbacks .bounds = b.callbacks .bounds := by
  rcases effect with _ | _ | _ | _ <;> rfl

end Builder

namespace Draft

variable {d : Draft} {X : Progress} {b : Builder}

theorem effect?_after {cursor : List Json} {position : Nat} :
    d.effect? true cursor ≠ some (.cuts position) := by
  simp only [effect?]
  repeat' split
  all_goals simp_all

theorem effect?_before {cursor : List Json} {position : Nat} :
    d.effect? false cursor ≠ some (.skips position) := by
  simp only [effect?]
  repeat' split
  all_goals simp_all

/-- An `after` cursor is a lower bound, or one more offset with a guard of `last`. -/
theorem touched_after (hlower : b.lower = d.lower)
    (hoffsets : b.pending.offsets = d.offsets.map .ready) :
    b.touched true d.afterEffect? =
      { b with
        lower := d.lowerBounds
        pending := { b.pending with offsets := d.pendingOffsets true }
        callbacks := fun e => b.callbacks e ++ if e = .last then d.guards else [] } := by
  have hcallbacks : (fun e => b.callbacks e ++ if e = Concern.last then [] else []) = b.callbacks := by
    simp
  rcases hafter : d.afterEffect? with _ | condition | position | position
  · simp only [Builder.touched, lowerBounds, pendingOffsets, allOffsets, guards, skipped?, hafter,
      boundsOf, ← hlower, Option.toList_none, Option.map_none, List.append_nil, if_true, ← hoffsets,
      hcallbacks]
  · simp only [Builder.touched, Builder.bounded, lowerBounds, pendingOffsets, allOffsets, guards,
      skipped?, hafter, boundsOf, ← hlower, Option.toList_none, Option.map_none, List.append_nil,
      if_true, ← hoffsets, hcallbacks]
  · simp only [Builder.touched, Builder.withCallback, Builder.setCallbacks, lowerBounds,
      pendingOffsets, allOffsets, guards, skipped?, hafter, boundsOf, ← hlower, Option.toList_some,
      Option.map_some, List.append_nil, if_true, List.map_append, ← hoffsets]
    congr 1
    funext e
    split <;> simp [*]
  · obtain ⟨cursor, _, heffect⟩ := Option.bind_eq_some_iff.mp hafter
    exact absurd heffect effect?_after

/-- A `before` cursor is an upper bound, or the limit. -/
theorem touched_before (hupper : b.upper = d.upper)
    (hpending : b.pending.limit = d.limit.map .ready) :
    b.touched false d.beforeEffect? =
      { b with
        upper := d.upperBounds
        pending := { b.pending with limit := d.pendingLimit true } } := by
  rcases hbefore : d.beforeEffect? with _ | condition | position | position
  · simp only [Builder.touched, upperBounds, pendingLimit, cut?, hbefore, boundsOf, ← hupper,
      List.append_nil, ← hpending]
  · simp only [Builder.touched, Builder.bounded, upperBounds, pendingLimit, cut?, hbefore, boundsOf,
      ← hupper, List.append_nil, ← hpending, Bool.false_eq_true, if_false]
  · obtain ⟨cursor, _, heffect⟩ := Option.bind_eq_some_iff.mp hbefore
    exact absurd heffect effect?_before
  · simp only [Builder.touched, upperBounds, pendingLimit, cut?, hbefore, boundsOf, ← hupper,
      List.append_nil]

/-- The guard of `last` is there once the bounds are settled. -/
theorem callbacks_bounds (hdrained : X .bounds = .drained) (hlast : (X .last).isLocked = false) :
    d.callbacks (X.set .bounds .settled) =
      fun e => d.callbacks X e ++ if e = .last then d.guards else [] := by
  have hcomparator : X.set .bounds .settled .comparator = X .comparator := rfl
  have hlast' : X.set .bounds .settled .last = X .last := rfl
  have hsettled : Stage.settled.isSettled = true := rfl
  have hunsettled : Stage.drained.isSettled = false := rfl
  funext e
  by_cases he : e = .bounds
  · simp [callbacks, he, hdrained, Stage.isWaiting]
  · simp [callbacks, Progress.set_ne he, hcomparator, hlast', hlast, hdrained, hsettled, hunsettled]

theorem builder_bounds (hdrained : X .bounds = .drained) (hoffset : (X .offset).isLocked = false)
    (hlimit : (X .limit).isLocked = false) (hlast : (X .last).isLocked = false) :
    (((d.builder X).touched true d.afterEffect?).touched false d.beforeEffect?).setLocked .bounds =
      d.builder (X.set .bounds .settled) := by
  have hunsettled : (X .bounds).isSettled = false := by rw [hdrained]; rfl
  have hoffset' : (X .offset).isSettled = false := by
    cases hstage : X .offset <;> simp_all [Stage.isLocked, Stage.isSettled]
  rw [touched_after, touched_before]
  · simp only [Draft.builder, Builder.setLocked, callbacks_bounds hdrained hlast,
      locked_set .settled rfl]
    have hoffset'' : (X.set .bounds .settled .offset).isSettled = false := hoffset'
    have hlimit' : (X.set .bounds .settled .limit).isLocked = false := hlimit
    simp only [Progress.set_same, hoffset'', hlimit', hoffset']
    rfl
  · simp [Draft.builder, hunsettled]
  · simp [Draft.builder, hunsettled, hlimit, pendingLimit]
  · simp [Draft.builder, hunsettled]
  · simp [Draft.builder, hunsettled, hoffset', pendingOffsets]

/-- `last` is locked behind its guard. -/
theorem builder_last :
    ((d.builder X).setCallbacks .last []).setLocked .last = d.builder (X.set .last .settled) := by
  have hqueues : d.callbacks (X.set .last .settled) =
      fun e => if e = .last then [] else d.callbacks X e := by
    funext e
    by_cases he : e = .last
    · simp [callbacks, he, Stage.isWaiting, Stage.isLocked]
    · simp [callbacks, he, Progress.set_ne he, Progress.set_ne (show Concern.comparator ≠ .last by decide)]
  simp only [Draft.builder, Builder.setCallbacks, Builder.setLocked, locked_set .settled rfl, hqueues]
  rfl

end Draft

end PageQuery
