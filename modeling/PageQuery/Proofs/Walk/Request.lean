import PageQuery.Proofs.Run.Finalized
import PageQuery.Proofs.Run.Settings
import PageQuery.Proofs.Walk.Listing

/-!
# Requests for a page

A request sets a connection up on a builder and builds its statement.  The tie breaker,
the cursor and the bounds of the cursor come about while the concerns lock, each from
values that are final by then.  What comes out is the page of a listing, whatever else the
builder was told before.
-/

namespace PageQuery

open Sql

/-- The builder is configured for a listing, and nothing has been asked of it yet: its row
source and its joins may be locked, it has no callbacks but those that it began with, and
no page has been asked for. -/
structure Builder.Lists (b : Builder) (saved : List (String × Fragment))
    (setup : ConnectionSetup) (l : Listing) : Prop where
  source : b.source = some (l.source.table, l.source.rowAlias)
  joins : b.joins = l.source.joins
  opened : ∀ c, c ≠ .source → c ≠ .joins → b.locked c = false
  callbacks : b.callbacks = Builder.initialCallbacks
  lower : b.lower = []
  upper : b.upper = []
  first : b.first = none
  last : b.last = none
  limit : b.pending.limit = none
  offsets : b.pending.offsets = []
  wheres : List.Forall₂ (Comes (b.scope saved)) b.pending.wheres l.wheres
  selects : ∃ fields,
    List.Forall₂ (fun p field => Comes (b.scope saved) p.expr field.expr ∧ p.name = field.name)
      b.pending.selects fields ∧ l.selects = latest [] fields
  order : ∃ terms,
    List.Forall₂ (fun p term => Comes (b.scope saved) p.expr term.expr ∧
      p.ascending = term.ascending ∧ p.nulls = term.nulls) b.pending.orderTerms terms ∧
      l.order = terms ++
        if b.orderIsUnique then [] else keyTerms l.source.rowAlias setup.primaryKey
  primaryKey : setup.primaryKey ≠ []
  tag : l.tag = setup.tag
  supportsJsonb : l.supportsJsonb = b.options.supportsJsonb

namespace Builder

/-- The builder with everything locked that its bounds wait for. -/
def ordered (b : Builder) (table : Node) (primaryKey : List String) (terms : List OrderTerm) :
    Builder :=
  (((b.setLocked .source).setLocked .joins).orderSettled table primaryKey terms).setLocked
    .cursorTag

/-- The builder after a concern with a callback has locked. -/
def settled (b : Builder) (c : Concern) : Builder := (b.setCallbacks c []).setLocked c

/-- The builder with everything locked that waits for its bounds only, where nothing but
the wheres has been asked for. -/
def countsSettled (b : Builder) (wheres : List Fragment) : Builder :=
  { ((((b.settled .wheres).settled .offset).settled .limit).settled .first).settled .last with
    pending := { b.pending with wheres := [], offsets := [], limit := none }
    resolved := { b.resolved with wheres, offset := 0, limit := none } }

/-- The builder after its cursor and its select list have locked. -/
def selectSettled (b : Builder) (cursor : Fragment) (selects : List Field) : Builder :=
  { (b.setLocked .cursor).settled .select with
    pending := { b.pending with cursor := none, selects := [] }
    resolved := { b.resolved with cursor := some cursor, selects } }

/-- The locks that settle a unique order, and the order itself. -/
structure KeyOrdered (b : Builder) (terms : List OrderTerm) (tag : String) : Prop where
  order : b.locked .order = true
  uniqueness : b.locked .uniqueness = true
  cursorTag : b.locked .cursorTag = true
  unique : b.orderIsUnique = true
  nonempty : terms ≠ []
  terms : b.resolved.orderTerms = terms
  tag : b.cursorTag = tag

/-- The builder after a connection has been set up on it. -/
def connected (b : Builder) (setup : ConnectionSetup) (d : Direction) (size : Nat)
    (cursor : Option (List Json)) : Builder :=
  withCursor
    { (b.withCallback .order (.breakTies setup.primaryKey)).setLocked .comparator with
      cursorTag := setup.tag
      first := if d.flips then none else some size
      last := if d.flips then some size else none
      pending := { b.pending with comparator := none, cursor := some (.lazy [] .cursorExpression) }
      resolved := { b.resolved with comparator := some (.kind .relay) } }
    (!d.flips) cursor

section

variable {b : Builder} {setup : ConnectionSetup} {d : Direction} {size : Nat}
  {cursor : Option (List Json)} (hcallbacks : b.callbacks = initialCallbacks)

include hcallbacks

theorem connected_callbacks {c : Concern} (horder : c ≠ .order) (hbounds : c ≠ .bounds) :
    (b.connected setup d size cursor).callbacks c = initialCallbacks c :=
  (withCursor_callbacks hbounds).trans ((if_neg horder).trans (congrFun hcallbacks c))

/-- The order waits for its tie breakers. -/
theorem connected_order :
    (b.connected setup d size cursor).callbacks .order = [.breakTies setup.primaryKey] := by
  apply (withCursor_callbacks (by decide)).trans
  change b.callbacks .order ++ _ = _
  rw [hcallbacks]
  rfl

/-- The bounds wait for the cursor. -/
theorem connected_bounds :
    (b.connected setup d size cursor).callbacks .bounds =
      (cursor.map fun cursor => Callback.cursorCondition cursor (!d.flips)).toList := by
  apply (withCursor_bounds _ _ _).trans
  change b.callbacks .bounds ++ _ = _
  rw [hcallbacks]
  rfl

end

/-- The builder, completely locked, asks for the page of a listing. -/
structure Asks (b : Builder) (l : Listing) (d : Direction) (size : Nat)
    (bounds : List Cursor.Bound) : Prop where
  locked : ∀ c, b.locked c = true
  source : b.source = some (l.source.table, l.source.rowAlias)
  joins : b.joins = l.source.joins
  lower : b.lower = if d.flips then [] else bounds
  upper : b.upper = if d.flips then bounds else []
  first : b.first = if d.flips then none else some size
  last : b.last = if d.flips then some size else none
  wheres : b.resolved.wheres = l.wheres
  order : b.resolved.orderTerms = l.order
  limit : b.resolved.limit = none
  offset : b.resolved.offset = 0
  selects : b.resolved.selects =
    (l.selects.filter fun field => field.name != cursorAlias) ++ [⟨l.cursor, cursorAlias⟩]
  supportsJsonb : b.options.supportsJsonb = l.supportsJsonb

end Builder

namespace Action

/-- Sets a connection up and builds its statement. -/
def request (lock : Locker) (setup : ConnectionSetup) (args : ConnectionArgs) :
    Action ConnectionStatement := do
  setUpConnection lock setup args
  buildConnection lock {}

namespace Turns

variable {id : BuilderId} {saved : List (String × Fragment)} {b : Builder} {lock : Locker}
  {c : Concern}

section

variable {terms : List OrderTerm} {tag : String} (hidle : lock.Idle)
  (hkeyed : b.KeyOrdered terms tag)

include hidle hkeyed

theorem orderTerms : Turns id saved b (orderTerms lock) terms b := by
  apply (idle hidle hkeyed.order).bind
  apply self_bind
  rw [hkeyed.terms]
  exact pure terms

theorem isOrderUnique : Turns id saved b (isOrderUnique lock true) true b := by
  change Turns id saved b (lock .order >>= fun _ => lock .uniqueness >>= fun _ => do
    return (← PageQuery.Action.self).orderIsUnique) true b
  apply (idle hidle hkeyed.order).bind
  apply (idle hidle hkeyed.uniqueness).bind
  apply self_bind
  rw [hkeyed.unique]
  exact pure true

theorem cursorTag : Turns id saved b (cursorTag lock) tag b := by
  apply (idle hidle hkeyed.cursorTag).bind
  apply self_bind
  rw [hkeyed.tag]
  exact pure tag

theorem cursorExpression :
    Turns id saved b (cursorExpression lock) (.keyed tag (terms.map OrderTerm.expr)) b := by
  apply (orderTerms hidle hkeyed).bind
  rw [if_neg (by simpa using hkeyed.nonempty)]
  apply (isOrderUnique hidle hkeyed).bind
  exact bind (cursorTag hidle hkeyed) (pure _)

/-- A cursor with the tag and the number of values of the order becomes a bound. -/
theorem compareRow {values : List Json} (hlength : values.length = terms.length)
    (isAfter : Bool) (hopen : b.locked .bounds = false) :
    Turns id saved b (compareRow lock (.string tag :: values) isAfter) ()
      (b.bounded isAfter [Cursor.Bound.ofOrder isAfter terms values]) := by
  have hbound : Cursor.keyedBound tag terms (.string tag :: values) isAfter =
      .ok (Cursor.Bound.ofOrder isAfter terms values) := by
    simp [Cursor.keyedBound, Cursor.tag?, hlength]
  apply (orderTerms hidle hkeyed).bind
  change Turns id saved b (if terms.isEmpty then _ else _) () _
  rw [if_neg (by simpa using hkeyed.nonempty)]
  apply (isOrderUnique hidle hkeyed).bind
  apply bind (cursorTag hidle hkeyed)
  rw [hbound]
  exact bound _ isAfter hopen

/-- So does it whatever its tag is, natural or not. -/
theorem compareRelay {values : List Json} (hlength : values.length = terms.length)
    (isAfter : Bool) (hopen : b.locked .bounds = false) :
    Turns id saved b (compareRelay lock (.string tag :: values) isAfter) ()
      (b.bounded isAfter [Cursor.Bound.ofOrder isAfter terms values]) := by
  have hrow : Turns id saved b (PageQuery.Action.compareRow lock (.string tag :: values) isAfter)
      () (b.bounded isAfter [Cursor.Bound.ofOrder isAfter terms values]) :=
    compareRow hidle hkeyed hlength isAfter hopen
  rw [PageQuery.Action.compareRelay]
  split
  · exact (isOrderUnique hidle hkeyed).bind hrow
  · exact hrow

/-- The cursor is turned into the bound of its values. -/
theorem cursorCondition {values : List Json} (hlength : values.length = terms.length)
    (hcomparator : b.locked .comparator = true)
    (hrelay : b.resolved.comparator = some (.kind .relay)) (isAfter : Bool)
    (hopen : b.locked .bounds = false) :
    Turns id saved b (runCallback lock (.cursorCondition (.string tag :: values) isAfter)) ()
      (b.bounded isAfter [Cursor.Bound.ofOrder isAfter terms values]) := by
  apply (idle hidle hcomparator).bind
  apply self_bind
  rw [hrelay]
  exact compareRelay hidle hkeyed hlength isAfter hopen

end

/-- The request of a page sets up the builder of the listing. -/
theorem setUpConnection {setup : ConnectionSetup} {l : Listing} (hlists : b.Lists saved setup l)
    (d : Direction) (size fuel : Nat) {text : Option String} {cursor : Option (List Json)}
    (hcursor : ConnectionArgs.cursor text = .ok cursor) :
    Turns id saved b (setUpConnection (PageQuery.Action.lockWith (fuel + 2)) setup
      (d.args size text)) () (b.connected setup d size cursor) := by
  have hcounts : (d.args size text).counts =
      .ok ⟨if d.flips then none else some size, if d.flips then some size else none, 0⟩ := by
    cases d <;> simp [Direction.args, ConnectionArgs.counts, ConnectionArgs.natural] <;> rfl
  have hcursors : (d.args size text).cursors =
      .ok ⟨if d.flips then none else cursor, if d.flips then cursor else none⟩ := by
    cases d <;> simp only [Direction.args, ConnectionArgs.cursors, hcursor] <;> rfl
  have hopened := hlists.opened
  have hqueue (c : Concern) : b.callbacks c = Builder.initialCallbacks c :=
    congrFun hlists.callbacks c
  have hkey : (!setup.primaryKey.isEmpty) = true := by simpa using hlists.primaryKey
  apply (ofExcept hcounts).bind
  apply (ofExcept hcursors).bind
  change Turns id saved b (if (!setup.primaryKey.isEmpty) = true then _ else _) () _
  rw [if_pos hkey]
  apply bind (beforeLock _ (hopened .order (by decide) (by decide)))
  apply bind (setCursorTag _ (by exact hopened .cursorTag (by decide) (by decide)))
  apply bind (setComparator _ fuel (by exact hopened .comparator (by decide) (by decide))
    (by exact hqueue .comparator))
  apply bind (selectCursor _ (by exact hopened .cursor (by decide) (by decide)))
  apply bind (first _ (by exact hopened .first (by decide) (by decide)) (by exact hlists.first))
  apply bind (last _ (by exact hopened .last (by decide) (by decide)) (by exact hlists.last))
  cases d with
  | forward =>
      exact bind (addCursorCondition cursor true (hopened .bounds (by decide) (by decide)))
        (pure ())
  | backward =>
      exact bind (pure ())
        (addCursorCondition cursor false (hopened .bounds (by decide) (by decide)))

/-- The bounds lock behind the order, with the bound of the cursor. -/
theorem lock_bounds {terms : List OrderTerm} {tag : String} (hkeyed : b.KeyOrdered terms tag)
    (hcomparator : b.locked .comparator = true)
    (hrelay : b.resolved.comparator = some (.kind .relay)) (isAfter : Bool) (fuel : Nat)
    {anchor : Option (List Json)}
    (hlength : ∀ values ∈ anchor, values.length = terms.length)
    (hqueue : b.callbacks .bounds = ((anchor.map (.string tag :: ·)).map
      fun cursor => Callback.cursorCondition cursor isAfter).toList)
    (hopen : b.locked .bounds = false) :
    ∃ callbacks : Concern → List Callback, (∀ c, c ≠ .bounds → callbacks c = b.callbacks c) ∧
      Turns id saved b (PageQuery.Action.lockWith (fuel + 3) .bounds) ()
        { (b.bounded isAfter (anchor.map (Cursor.Bound.ofOrder isAfter terms)).toList).setLocked
            .bounds with callbacks } := by
  cases anchor with
  | none =>
      refine ⟨b.callbacks, fun _ _ => rfl, ?_⟩
      rw [Option.map_none, Option.toList_none, Builder.bounded_nil]
      exact lock_plain (fuel + 1) hopen hqueue (pure ())
  | some values =>
      have hkeyed' : (b.setCallbacks .bounds []).KeyOrdered terms tag := { hkeyed with }
      have hrun : Turns id saved (b.setCallbacks .bounds [])
          (runCallback (PageQuery.Action.lockWith (fuel + 2))
            (.cursorCondition (.string tag :: values) isAfter)) ()
          ((b.setCallbacks .bounds []).bounded isAfter
            [Cursor.Bound.ofOrder isAfter terms values]) :=
        cursorCondition (idle_lockWith _) hkeyed' (hlength values rfl) hcomparator hrelay
          isAfter hopen
      refine ⟨(b.setCallbacks .bounds []).callbacks, fun c hc => if_neg hc, ?_⟩
      exact lock_behind fuel hopen hqueue hrun rfl hopen (pure ())

/-- Everything locks that the bounds wait for. -/
theorem lock_ordered {table : Node} {primaryKey : List String} {terms order : List OrderTerm}
    (fuel : Nat) (htable : b.tableAlias = .ok table)
    (hopened : ∀ c, c ≠ .source → c ≠ .joins → c ≠ .comparator → b.locked c = false)
    (hcomparator : b.locked .comparator = true)
    (hqueue : ∀ c, c ≠ .order → c ≠ .bounds → b.callbacks c = Builder.initialCallbacks c)
    (hbreak : b.callbacks .order = [.breakTies primaryKey])
    (hterms : List.Forall₂ (fun p term => Comes (b.scope saved) p.expr term.expr ∧
      p.ascending = term.ascending ∧ p.nulls = term.nulls) b.pending.orderTerms terms)
    (horder : order = terms ++ if b.orderIsUnique then [] else keyTerms table primaryKey) :
    Turns id saved b ([.source, .joins, .order, .uniqueness, .comparator, .cursorTag].forM
      (PageQuery.Action.lockWith (fuel + 3))) () (b.ordered table primaryKey order) := by
  obtain ⟨options, parent, source, joins, lower, upper, unique, first, last, tag, identified,
    pending, resolved, locked, callbacks, children⟩ := b
  let b₀ : Builder := ⟨options, parent, source, joins, lower, upper, unique, first, last, tag,
    identified, pending, resolved, locked, callbacks, children⟩
  let b₁ := b₀.setLocked .source
  have hsource : Turns id saved b₀ (PageQuery.Action.lockWith (fuel + 3) .source) () b₁ :=
    lock_either (fuel + 1) (hqueue .source (by decide) (by decide)) fun _ => rfl
  let b₂ := b₁.setLocked .joins
  have hjoins : Turns id saved b₁ (PageQuery.Action.lockWith (fuel + 3) .joins) () b₂ :=
    lock_either (fuel + 1) (hqueue .joins (by decide) (by decide)) fun _ => rfl
  let b₃ := b₂.orderSettled table primaryKey order
  have hsettled : Turns id saved b₂ (PageQuery.Action.lockWith (fuel + 3) .order) () b₃ :=
    lock_order fuel htable (hopened .order (by decide) (by decide) (by decide))
      (hopened .uniqueness (by decide) (by decide) (by decide)) hbreak
      (hqueue .uniqueness (by decide) (by decide)) hterms horder
  have htag : Turns id saved b₃ (PageQuery.Action.lockWith (fuel + 3) .cursorTag) ()
      (b₃.setLocked .cursorTag) :=
    lock_plain (fuel + 1) (hopened .cursorTag (by decide) (by decide) (by decide))
      (hqueue .cursorTag (by decide) (by decide)) (pure ())
  have hidle : (PageQuery.Action.lockWith (fuel + 3)).Idle := idle_lockWith _
  apply forM_cons hsource
  apply forM_cons hjoins
  apply forM_cons hsettled
  have hcomparator' : b₃.locked .comparator = true := hcomparator
  apply forM_cons (idle hidle rfl)
  apply forM_cons (idle hidle hcomparator')
  exact forM_cons htag (pure ())

/-- Behind the bounds, everything locks that waits for nothing else. -/
theorem lock_counts {wheres : List Fragment} (fuel : Nat)
    (hbounds : b.locked .bounds = true)
    (hopened : ∀ c ∈ [Concern.wheres, .offset, .limit, .first, .last], b.locked c = false)
    (hqueue : ∀ c ∈ [Concern.wheres, .offset, .limit, .first, .last],
      b.callbacks c = [.settleBounds])
    (hwheres : List.Forall₂ (Comes (b.scope saved)) b.pending.wheres wheres)
    (hoffsets : b.pending.offsets = []) (hlimit : b.pending.limit = none) :
    Turns id saved b ([.wheres, .offset, .limit, .first, .last].forM
      (PageQuery.Action.lockWith (fuel + 3))) () (b.countsSettled wheres) := by
  obtain ⟨options, parent, source, joins, lower, upper, unique, first, last, tag, identified,
    pending, resolved, locked, callbacks, children⟩ := b
  let b₀ : Builder := ⟨options, parent, source, joins, lower, upper, unique, first, last, tag,
    identified, pending, resolved, locked, callbacks, children⟩
  let b₁ := { b₀.settled .wheres with
    pending := { pending with wheres := [] }
    resolved := { resolved with wheres } }
  have hlock₁ : Turns id saved b₀ (PageQuery.Action.lockWith (fuel + 3) .wheres) () b₁ :=
    lock_behind_bounds fuel (hopened .wheres (by simp)) (hqueue .wheres (by simp)) hbounds
      (resolve_wheres hwheres)
  let b₂ := { b₁.settled .offset with
    pending := { b₁.pending with offsets := [] }
    resolved := { b₁.resolved with offset := 0 } }
  have hnone : (b₁.settled .offset).pending.offsets = ([] : List Nat).map .ready := hoffsets
  have hlock₂ : Turns id saved b₁ (PageQuery.Action.lockWith (fuel + 3) .offset) () b₂ :=
    lock_behind_bounds fuel (hopened .offset (by simp)) (hqueue .offset (by simp)) hbounds
      (resolve_offset hnone)
  let b₃ := { b₂.settled .limit with
    pending := { b₂.pending with limit := none }
    resolved := { b₂.resolved with limit := none } }
  have hlock₃ : Turns id saved b₂ (PageQuery.Action.lockWith (fuel + 3) .limit) () b₃ :=
    lock_behind_bounds fuel (hopened .limit (by simp)) (hqueue .limit (by simp)) hbounds
      (resolve_limit hlimit)
  have hlock₄ : Turns id saved b₃ (PageQuery.Action.lockWith (fuel + 3) .first) ()
      (b₃.settled .first) :=
    lock_behind_bounds fuel (hopened .first (by simp)) (hqueue .first (by simp)) hbounds (pure ())
  have hlock₅ : Turns id saved (b₃.settled .first) (PageQuery.Action.lockWith (fuel + 3) .last) ()
      ((b₃.settled .first).settled .last) :=
    lock_behind_bounds fuel (hopened .last (by simp)) (hqueue .last (by simp)) hbounds (pure ())
  apply forM_cons hlock₁
  apply forM_cons hlock₂
  apply forM_cons hlock₃
  apply forM_cons hlock₄
  exact forM_cons hlock₅ (pure ())

/-- The cursor locks, and the select list with the cursor in it. -/
theorem lock_select {terms : List OrderTerm} {tag : String} (fuel : Nat)
    (hkeyed : b.KeyOrdered terms tag)
    (hcursor : b.locked .cursor = false) (hselect : b.locked .select = false)
    (hnone : b.callbacks .cursor = []) (hsettle : b.callbacks .select = [.settleCursor])
    (hexpr : b.pending.cursor = some (.lazy [] .cursorExpression)) {fields : List Field}
    (hfields : List.Forall₂ (fun p field => Comes (b.scope saved) p.expr field.expr ∧
      p.name = field.name) b.pending.selects fields) :
    let cursor := (CursorExpr.keyed tag (terms.map OrderTerm.expr)).fragment
    Turns id saved b ([.cursor, .select].forM (PageQuery.Action.lockWith (fuel + 3))) ()
      (b.selectSettled cursor (latest [] (fields ++ [⟨cursor, cursorAlias⟩]))) := by
  intro cursor
  obtain ⟨options, parent, source, joins, lower, upper, unique, first, last, tag', identified,
    pending, resolved, locked, callbacks, children⟩ := b
  let b₀ : Builder := ⟨options, parent, source, joins, lower, upper, unique, first, last, tag',
    identified, pending, resolved, locked, callbacks, children⟩
  let b₁ := { b₀.setLocked .cursor with
    pending := { pending with cursor := none }
    resolved := { resolved with cursor := some cursor } }
  have hvalue : Turns id saved (b₀.setLocked .cursor)
      (resolve (PageQuery.Action.lockWith (fuel + 2)) .cursor) () b₁ :=
    resolve_cursor (b := b₀.setLocked .cursor) hexpr
      (cursorExpression (idle_lockWith _) { hkeyed with })
  have hlock₁ : Turns id saved b₀ (PageQuery.Action.lockWith (fuel + 3) .cursor) () b₁ :=
    lock_plain (fuel + 1) hcursor hnone hvalue
  have hlock₂ : Turns id saved b₁ (PageQuery.Action.lockWith (fuel + 3) .select) ()
      (b₀.selectSettled cursor (latest [] (fields ++ [⟨cursor, cursorAlias⟩]))) :=
    lock_behind fuel hselect hsettle (settleCursor (idle_lockWith _) rfl rfl hselect) rfl hselect
      (resolve_select (List.rel_append hfields (.cons (And.intro (.ready _) rfl) .nil)))
  apply forM_cons hlock₁
  exact forM_cons hlock₂ (pure ())

/-- Once a connection is set up, everything locks, and what is asked for is settled. -/
theorem lockEverything {setup : ConnectionSetup} {l : Listing} (hlists : b.Lists saved setup l)
    (hnonempty : l.order ≠ []) (d : Direction) (size fuel : Nat) {anchor : Option (List Json)}
    (hlength : ∀ values ∈ anchor, values.length = l.order.length) :
    ∃ b', Turns id saved (b.connected setup d size (anchor.map (.string l.tag :: ·)))
        (lockEverything (PageQuery.Action.lockWith (fuel + 3))) () b' ∧
      b'.Asks l d size (l.bounds d anchor) := by
  obtain ⟨terms, hterms, horder⟩ := hlists.order
  obtain ⟨fields, hfields, hselects⟩ := hlists.selects
  let b₀ := b.connected setup d size (anchor.map (.string l.tag :: ·))
  have hqueue : ∀ c, c ≠ .order → c ≠ .bounds → b₀.callbacks c = Builder.initialCallbacks c :=
    fun c hc hc' => Builder.connected_callbacks hlists.callbacks hc hc'
  have hbreak : b₀.callbacks .order = [.breakTies setup.primaryKey] :=
    Builder.connected_order hlists.callbacks
  have hcursors : b₀.callbacks .bounds = ((anchor.map (.string l.tag :: ·)).map
      fun cursor => Callback.cursorCondition cursor (!d.flips)).toList :=
    Builder.connected_bounds hlists.callbacks
  obtain ⟨options, parent, source, joins, lower, upper, unique, first, last, tag, identified,
    pending, resolved, locked, callbacks, children⟩ := b
  have hsource : source = some (l.source.table, l.source.rowAlias) := hlists.source
  have hlower : lower = [] := hlists.lower
  have hupper : upper = [] := hlists.upper
  have hopened : ∀ c, c ≠ .source → c ≠ .joins → locked c = false := hlists.opened
  subst hsource hlower hupper
  have hopened₀ : ∀ c, c ≠ .source → c ≠ .joins → c ≠ .comparator → b₀.locked c = false := by
    intro c hc hc' hcomparator
    exact (if_neg hcomparator).trans (hopened c hc hc')
  let b₁ := b₀.ordered l.source.rowAlias setup.primaryKey l.order
  have hordered : Turns id saved b₀
      ([.source, .joins, .order, .uniqueness, .comparator, .cursorTag].forM
        (PageQuery.Action.lockWith (fuel + 3))) () b₁ :=
    lock_ordered fuel rfl hopened₀ rfl hqueue hbreak hterms horder
  have hkeyed : b₁.KeyOrdered l.order l.tag := ⟨rfl, rfl, rfl, rfl, hnonempty, rfl, hlists.tag.symm⟩
  obtain ⟨queues, hkept, hbounds⟩ : ∃ queues : Concern → List Callback,
      (∀ c, c ≠ .bounds → queues c = b₁.callbacks c) ∧
      Turns id saved b₁ (PageQuery.Action.lockWith (fuel + 3) .bounds) ()
        { (b₁.bounded (!d.flips) (anchor.map
          (Cursor.Bound.ofOrder (!d.flips) l.order)).toList).setLocked .bounds with
          callbacks := queues } :=
    lock_bounds hkeyed rfl rfl (!d.flips) fuel hlength hcursors
      (hopened .bounds (by decide) (by decide))
  let b₂ := { (b₁.bounded (!d.flips) (anchor.map
    (Cursor.Bound.ofOrder (!d.flips) l.order)).toList).setLocked .bounds with callbacks := queues }
  have hqueues (c : Concern) (hc : c ≠ .order) (hc' : c ≠ .bounds) :
      queues c = Builder.initialCallbacks c :=
    (hkept c hc').trans ((if_neg hc).trans (hqueue c hc hc'))
  have hcounts : Turns id saved b₂ ([.wheres, .offset, .limit, .first, .last].forM
      (PageQuery.Action.lockWith (fuel + 3))) () (b₂.countsSettled l.wheres) := by
    apply lock_counts (b := b₂) fuel rfl _ _ hlists.wheres hlists.offsets hlists.limit
    · intro c hc
      simp only [List.mem_cons, List.not_mem_nil, or_false] at hc
      obtain rfl | rfl | rfl | rfl | rfl := hc <;> exact hopened _ (by decide) (by decide)
    · intro c hc
      simp only [List.mem_cons, List.not_mem_nil, or_false] at hc
      obtain rfl | rfl | rfl | rfl | rfl := hc <;> exact hqueues _ (by decide) (by decide)
  let b₃ := b₂.countsSettled l.wheres
  let b₄ := b₃.selectSettled l.cursor (latest [] (fields ++ [⟨l.cursor, cursorAlias⟩]))
  have hselect : Turns id saved b₃
      ([.cursor, .select].forM (PageQuery.Action.lockWith (fuel + 3))) () b₄ :=
    lock_select (b := b₃) fuel { hkeyed with } (hopened .cursor (by decide) (by decide))
      (hopened .select (by decide) (by decide)) (hqueues .cursor (by decide) (by decide))
      (hqueues .select (by decide) (by decide)) rfl hfields
  refine ⟨b₄, ?_, ?_⟩
  · exact forM_append hordered (forM_cons hbounds (forM_append hcounts hselect))
  · have hanchor : (anchor.map (Cursor.Bound.ofOrder (!d.flips) l.order)).toList =
        l.bounds d anchor := by
      cases anchor <;> rfl
    exact {
      locked := fun c => by cases c <;> rfl
      source := rfl
      joins := hlists.joins
      lower := by
        rw [← hanchor]
        cases d <;> rfl
      upper := by
        rw [← hanchor]
        cases d <;> rfl
      first := rfl
      last := rfl
      wheres := rfl
      order := rfl
      limit := rfl
      offset := rfl
      selects := by
        rw [hselects]
        exact latest_concat [] fields _
      supportsJsonb := hlists.supportsJsonb.symm }

end Turns

end Action

namespace Builder.Asks

variable {b : Builder} {l : Listing} {d : Direction} {size : Nat} {bounds : List Cursor.Bound}
  (hasks : b.Asks l d size bounds)

/-- The plan of a page. -/
def plan (d : Direction) (size : Nat) : Plan := ⟨some size, 0, d.flips, none⟩

include hasks

/-- The plan is that of a page of the direction. -/
theorem planOf : b.planOf = .ok (plan d size) := by
  rw [Builder.planOf, hasks.limit, hasks.offset, hasks.first, hasks.last]
  cases d <;> rfl

theorem rowSource : b.rowSource = .ok l.source := by
  rw [rowSource_ok hasks.source, hasks.joins]

theorem filterOf {options : BuildOptions} (hnull : options.nullCase = false)
    (hdistinct : options.notDistinctCase = false) :
    b.filterOf true true options = .ok (l.filter d bounds) := by
  rw [Builder.filterOf, guards, hnull, hdistinct, hasks.wheres, hasks.lower, hasks.upper]
  cases d <;> rfl

theorem objectOfRow : ∃ object, b.objectOfRow = .ok object ∧ object.fragment = l.object := by
  rw [Builder.objectOfRow, hasks.selects, Listing.object, tableAlias_ok hasks.source,
    hasks.supportsJsonb]
  cases hfields : l.selects.filter fun field => field.name != cursorAlias with
  | nil => exact ⟨_, rfl, rfl⟩
  | cons field fields =>
      cases fields with
      | nil => exact ⟨_, rfl, rfl⟩
      | cons other fields => exact ⟨_, rfl, rfl⟩

/-- The statement is that of the page. -/
theorem pageStatement :
    b.pageStatement { asJsonAggregate := true } = .ok (l.statement d size bounds) := by
  obtain ⟨object, hobject, hfragment⟩ := hasks.objectOfRow
  have hprojection : b.projection (plan d size) { asJsonAggregate := true } =
      .ok (.object l.object (if d.flips then l.order else [])) := by
    rw [projection, rowObject, hobject, hasks.order, ← hfragment]
    cases d <;> rfl
  rw [Builder.pageStatement, hasks.planOf]
  change b.statementOf (plan d size) _ = _
  rw [statementOf, hprojection, hasks.filterOf rfl rfl, hasks.source, hasks.joins, hasks.order]
  rfl

theorem flagOf_beyond (isLower : Bool) :
    b.flagOf (.beyond (addCounts 0 size)) isLower {} = .ok (l.more d size bounds) := by
  rw [flagOf, hasks.rowSource, hasks.filterOf rfl rfl]
  rfl

/-- The side that a walk comes from is looked at only if there are bounds. -/
theorem flagOf_passed :
    b.flagOf (if !bounds.isEmpty then .outside else .never) (!d.flips) {} =
      .ok (l.passed bounds) := by
  have hbounds : b.bounds (!d.flips) = bounds := by
    rw [Builder.bounds, hasks.lower, hasks.upper]
    cases d <;> rfl
  rw [Listing.passed]
  cases hempty : bounds.isEmpty with
  | true => rfl
  | false =>
      change b.flagOf .outside (!d.flips) {} = .ok (.outside l.source ⟨[], l.wheres, [], []⟩ bounds)
      rw [flagOf, hasks.rowSource, Builder.filterOf, hasks.wheres, hbounds]
      rfl

theorem next (hsize : 0 < size) :
    b.flagOf ((plan d size).next b.first !b.upper.isEmpty) false {} =
      .ok (if d.flips then l.passed bounds else l.more d size bounds) := by
  rw [hasks.first, hasks.upper]
  cases d with
  | forward =>
      have hflag : (plan .forward size).next (some size) false = .beyond (addCounts 0 size) := by
        simp [Plan.next, plan, Nat.ne_of_gt hsize]
      calc
        b.flagOf ((plan .forward size).next (some size) false) false {}
            = b.flagOf (.beyond (addCounts 0 size)) false {} := by rw [hflag]
        _ = .ok (l.more .forward size bounds) := hasks.flagOf_beyond false
  | backward =>
      have hflag : (plan .backward size).next none (!bounds.isEmpty) =
          if !bounds.isEmpty then .outside else .never := by
        simp [Plan.next, plan, Nat.ne_of_gt hsize]
      calc
        b.flagOf ((plan .backward size).next none !bounds.isEmpty) false {}
            = b.flagOf (if !bounds.isEmpty then .outside else .never) false {} := by rw [hflag]
        _ = .ok (l.passed bounds) := hasks.flagOf_passed

theorem previous (hsize : 0 < size) :
    b.flagOf ((plan d size).previous 0 b.last !b.lower.isEmpty) true {} =
      .ok (if d.flips then l.more d size bounds else l.passed bounds) := by
  rw [hasks.last, hasks.lower]
  cases d with
  | forward =>
      have hflag : (plan .forward size).previous 0 none (!bounds.isEmpty) =
          if !bounds.isEmpty then .outside else .never := by
        simp [Plan.previous, plan, Nat.ne_of_gt hsize]
      calc
        b.flagOf ((plan .forward size).previous 0 none !bounds.isEmpty) true {}
            = b.flagOf (if !bounds.isEmpty then .outside else .never) true {} := by rw [hflag]
        _ = .ok (l.passed bounds) := hasks.flagOf_passed
  | backward =>
      have hflag : (plan .backward size).previous 0 (some size) false =
          .beyond (addCounts 0 size) := by
        simp [Plan.previous, plan, Direction.flips, Nat.ne_of_gt hsize]
      calc
        b.flagOf ((plan .backward size).previous 0 (some size) false) true {}
            = b.flagOf (.beyond (addCounts 0 size)) true {} := by rw [hflag]
        _ = .ok (l.more .backward size bounds) := hasks.flagOf_beyond true

end Builder.Asks

namespace Action

variable {id : BuilderId} {w : World} {l : Listing} {d : Direction} {size : Nat}

/-- A builder that asks for the page of a listing builds it. -/
theorem exec_buildConnection {lock : Locker} (hidle : lock.Idle) {bounds : List Cursor.Bound}
    (hasks : (w.builder id).Asks l d size bounds) (hsize : 0 < size) :
    ∃ token w', (buildConnection lock {}).exec id w = (.ok (l.page d size bounds token), w') := by
  have hlocked := hasks.locked
  obtain ⟨token, w₁, hbuild, hsame⟩ : ∃ token w₁,
      (build lock { asJsonAggregate := true }).exec id w =
        (.ok (.aggregate (l.statement d size bounds) token), w₁) ∧
      w₁.builder id = w.builder id := by
    rw [exec_build hidle hlocked rfl, hasks.pageStatement]
    exact ⟨_, _, rfl, rfl⟩
  rw [← hsame] at hasks hlocked
  have hplan : (plan lock).exec id w₁ = (.ok (Builder.Asks.plan d size), w₁) := by
    rw [exec_plan hidle hlocked, hasks.planOf]
    rfl
  have hoffset : (totalOffset lock).exec id w₁ = (.ok 0, w₁) := by
    rw [exec_totalOffset hidle hlocked, hasks.offset]
  refine ⟨token, w₁, ?_⟩
  change (build lock { asJsonAggregate := true } >>= fun page => _).exec id w = _
  rw [exec_bind_ok hbuild, exec_bind_ok hplan, exec_bind_ok hoffset, exec_self_bind, exec_bind,
    exec_flagExpression hidle hlocked, hasks.next hsize]
  change (self >>= fun b => _).exec id w₁ = _
  rw [exec_self_bind, exec_bind, exec_flagExpression hidle hlocked, hasks.previous hsize]
  cases d <;> rfl

/-- A request turns the arguments of a page into the page of the listing. -/
theorem exec_request {saved : List (String × Fragment)} {setup : ConnectionSetup}
    (hlists : (w.builder id).Lists saved setup l) (hsaved : w.saved = saved)
    (hnonempty : l.order ≠ []) (hsize : 0 < size) (fuel : Nat) {text : Option String}
    {anchor : Option (List Json)}
    (hcursor : ConnectionArgs.cursor text = .ok (anchor.map (.string l.tag :: ·)))
    (hlength : ∀ values ∈ anchor, values.length = l.order.length) :
    ∃ token w', (request (lockWith (fuel + 3)) setup (d.args size text)).exec id w =
      (.ok (l.page d size (l.bounds d anchor) token), w') := by
  let connected := (w.builder id).connected setup d size (anchor.map (.string l.tag :: ·))
  obtain ⟨b', hlocks, hasks⟩ : ∃ b', Turns id saved connected
      (lockEverything (lockWith (fuel + 3))) () b' ∧ b'.Asks l d size (l.bounds d anchor) :=
    Turns.lockEverything hlists hnonempty d size fuel hlength
  have hsetUp : Turns id saved (w.builder id)
      (setUpConnection (lockWith (fuel + 3)) setup (d.args size text)) () connected :=
    Turns.setUpConnection hlists d size (fuel + 1) hcursor
  obtain ⟨w₁, hrun₁, hb₁, hsaved₁, _⟩ := hsetUp w rfl hsaved
  obtain ⟨w₂, hrun₂, hb₂, _⟩ := hlocks w₁ hb₁ hsaved₁
  have hidle : (lockWith (fuel + 3)).Idle := idle_lockWith _
  rw [← hb₂] at hasks
  obtain ⟨token, w', hbuild⟩ := exec_buildConnection hidle hasks hsize
  refine ⟨token, w', ?_⟩
  have hsame := exec_build_locked hidle hrun₂ hasks.locked { asJsonAggregate := true }
  rw [request, exec_bind_ok hrun₁, ← hbuild]
  change (build _ { asJsonAggregate := true } >>= fun page => _).exec id w₁ =
    (build _ { asJsonAggregate := true } >>= fun page => _).exec id w₂
  rw [exec_bind, hsame, exec_bind]

end Action

end PageQuery
