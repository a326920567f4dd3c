import PageQuery.Proofs.Run.Turns

/-!
# Settings of a known builder

What is set on an open builder, one thing at a time, and how the order locks with its tie
breaker: each call turns the builder into one that differs in a single respect.
-/

namespace PageQuery

open Sql

/-- The terms of a primary key. -/
def keyTerms (table : Node) (primaryKey : List String) : List OrderTerm :=
  primaryKey.map fun column => ⟨table.column column, true, none⟩

/-- The terms of a primary key before they are settled. -/
def keyFields (table : Node) (primaryKey : List String) : List PendingTerm :=
  primaryKey.map fun column => ⟨.ready (table.column column), true, none⟩

namespace Builder

/-- The builder with terms put behind its order. -/
def withTerms (b : Builder) (terms : List PendingTerm) : Builder :=
  { b with pending := { b.pending with orderTerms := b.pending.orderTerms ++ terms } }

/-- The builder with an order that tells all rows apart, by the primary key unless it did
so before. -/
def tiesBroken (b : Builder) (table : Node) (primaryKey : List String) : Builder :=
  { b.withTerms (if b.orderIsUnique then [] else keyFields table primaryKey) with
    orderIsUnique := true }

/-- A unique order needs no tie breakers. -/
theorem tiesBroken_of_unique {b : Builder} {table : Node} {primaryKey : List String}
    (hunique : b.orderIsUnique = true) : b.tiesBroken table primaryKey = b := by
  rw [tiesBroken, withTerms, if_pos hunique, List.append_nil, ← hunique]

/-- The builder after its order has locked, with the terms that were settled. -/
def orderSettled (b : Builder) (table : Node) (primaryKey : List String)
    (terms : List OrderTerm) : Builder :=
  setLocked
    { ((b.setCallbacks .order []).tiesBroken table primaryKey).setLocked .order with
      pending := { b.pending with orderTerms := [] }
      resolved := { b.resolved with orderTerms := terms } }
    .uniqueness

/-- The builder with one more callback. -/
def withCallback (b : Builder) (c : Concern) (callback : Callback) : Builder :=
  b.setCallbacks c (b.callbacks c ++ [callback])

/-- The builder with a cursor that becomes a bound when the bounds lock. -/
def withCursor (b : Builder) (isAfter : Bool) (cursor : Option (List Json)) : Builder :=
  { b with callbacks :=
      match cursor with
      | none => b.callbacks
      | some cursor => (b.withCallback .bounds (.cursorCondition cursor isAfter)).callbacks }

theorem withCursor_callbacks {b : Builder} {isAfter : Bool} {cursor : Option (List Json)}
    {c : Concern} (hc : c ≠ .bounds) :
    (b.withCursor isAfter cursor).callbacks c = b.callbacks c := by
  cases cursor with
  | none => rfl
  | some cursor => exact if_neg hc

/-- A cursor is put into the queue of the bounds. -/
theorem withCursor_bounds (b : Builder) (isAfter : Bool) (cursor : Option (List Json)) :
    (b.withCursor isAfter cursor).callbacks .bounds =
      b.callbacks .bounds ++
        (cursor.map fun cursor => Callback.cursorCondition cursor isAfter).toList := by
  cases cursor with
  | none => exact (List.append_nil _).symm
  | some cursor => rfl

/-- The builder with more bounds on one side. -/
def bounded (b : Builder) (isAfter : Bool) (bounds : List Cursor.Bound) : Builder :=
  { b with
    lower := b.lower ++ if isAfter then bounds else []
    upper := b.upper ++ if isAfter then [] else bounds }

theorem bounded_nil (b : Builder) (isAfter : Bool) : b.bounded isAfter [] = b := by
  simp only [bounded, ite_self, List.append_nil]

end Builder

namespace Action.Turns

variable {id : BuilderId} {saved : List (String × Fragment)} {b : Builder} {lock : Locker}
  {c : Concern}

/-- A callback is put behind those of an open concern. -/
theorem beforeLock (callback : Callback) (hopen : b.locked c = false) :
    Turns id saved b (beforeLock c callback) () (b.withCallback c callback) :=
  (checkLock hopen).bind (update _)

theorem first (n : Option Nat) (hopen : b.locked .first = false) (hnone : b.first = none) :
    Turns id saved b (n.forM first) () { b with first := n } := by
  cases n with
  | none =>
      have hsame : { b with first := none } = b := by rw [← hnone]
      rw [hsame]
      exact pure ()
  | some n =>
      apply (checkLock hopen).bind
      apply self_bind
      rw [hnone]
      exact update fun b => { b with first := some n }

theorem last (n : Option Nat) (hopen : b.locked .last = false) (hnone : b.last = none) :
    Turns id saved b (n.forM last) () { b with last := n } := by
  cases n with
  | none =>
      have hsame : { b with last := none } = b := by rw [← hnone]
      rw [hsame]
      exact pure ()
  | some n =>
      apply (checkLock hopen).bind
      apply self_bind
      rw [hnone]
      exact update fun b => { b with last := some n }

theorem addCursorCondition (cursor : Option (List Json)) (isAfter : Bool)
    (hopen : b.locked .bounds = false) :
    Turns id saved b (cursor.forM fun cursor => addCursorCondition cursor isAfter) ()
      (b.withCursor isAfter cursor) := by
  cases cursor with
  | none => exact pure ()
  | some cursor => exact beforeLock _ hopen

theorem setCursorTag (tag : String) (hopen : b.locked .cursorTag = false) :
    Turns id saved b (setCursorTag tag) () { b with cursorTag := tag } :=
  (checkLock hopen).bind (update _)

theorem selectCursor (expr : DeferredFragment) (hopen : b.locked .cursor = false) :
    Turns id saved b (selectCursor expr) ()
      { b with pending := { b.pending with cursor := some expr } } :=
  (checkLock hopen).bind (update _)

/-- A comparator that is set is in force at once if nothing waits for it. -/
theorem setComparator (comparator : Comparator) (fuel : Nat)
    (hopen : b.locked .comparator = false) (hnone : b.callbacks .comparator = []) :
    Turns id saved b (setComparator (PageQuery.Action.lockWith (fuel + 2)) comparator) ()
      { b.setLocked .comparator with
        pending := { b.pending with comparator := none }
        resolved := { b.resolved with comparator := some comparator } } := by
  have hregister : Turns id saved b (registerComparator comparator) ()
      { b with pending := { b.pending with comparator := some comparator } } :=
    (checkLock hopen).bind (update _)
  exact hregister.bind (lock_plain fuel hopen hnone (resolve_comparator rfl))

/-- A bound joins those of its side. -/
theorem bound (condition : Cursor.Bound) (isLower : Bool) (hopen : b.locked .bounds = false) :
    Turns id saved b (bound condition isLower) () (b.bounded isLower [condition]) := by
  have hbounded : b.bounded isLower [condition] =
      if isLower then { b with lower := b.lower ++ [condition] }
      else { b with upper := b.upper ++ [condition] } := by
    cases isLower <;> simp [Builder.bounded]
  rw [hbounded]
  exact (checkLock hopen).bind (update _)

/-- The columns of the primary key join the order one by one. -/
theorem orderBy_keys (table : Node) (primaryKey : List String) (hopen : b.locked .order = false) :
    Turns id saved b
      (primaryKey.forM fun column => orderBy (.ready (table.column column)) true none) ()
      (b.withTerms (keyFields table primaryKey)) := by
  induction primaryKey generalizing b with
  | nil =>
      rw [keyFields, List.map_nil, Builder.withTerms, List.append_nil]
      exact pure _
  | cons column rest ih =>
      have horder : Turns id saved b (orderBy (.ready (table.column column)) true none) ()
          (b.withTerms [⟨.ready (table.column column), true, none⟩]) :=
        (checkLock hopen).bind (update _)
      have hrest := forM_cons (f := fun column => orderBy (.ready (table.column column)) true none)
        horder (ih hopen)
      rwa [Builder.withTerms, Builder.withTerms, List.append_assoc] at hrest

/-- An order that is not unique gets the primary key and is declared unique. -/
theorem breakTies {table : Node} (primaryKey : List String) (htable : b.tableAlias = .ok table)
    (horder : b.locked .order = false) (huniqueness : b.locked .uniqueness = false) :
    Turns id saved b (breakTies lock primaryKey) () (b.tiesBroken table primaryKey) := by
  have hasked : Turns id saved b (isOrderUnique lock false) b.orderIsUnique b :=
    self_bind (pure _)
  apply hasked.bind
  cases hunique : b.orderIsUnique with
  | true =>
      rw [Builder.tiesBroken_of_unique hunique]
      exact pure ()
  | false =>
      apply self_bind
      apply (ofExcept htable).bind
      apply (orderBy_keys table primaryKey horder).bind
      rw [Builder.tiesBroken, hunique]
      exact bind (checkLock huniqueness) (update _)

theorem comes_tiesBroken {scope : Scope} {pending : List PendingTerm} {terms : List OrderTerm}
    (hterms : List.Forall₂ (fun p term => Comes scope p.expr term.expr ∧
      p.ascending = term.ascending ∧ p.nulls = term.nulls) pending terms)
    (unique : Bool) (table : Node) (primaryKey : List String) :
    List.Forall₂ (fun p term => Comes scope p.expr term.expr ∧
        p.ascending = term.ascending ∧ p.nulls = term.nulls)
      (pending ++ if unique then [] else keyFields table primaryKey)
      (terms ++ if unique then [] else keyTerms table primaryKey) := by
  apply List.rel_append hterms
  cases unique with
  | true => exact .nil
  | false =>
      change List.Forall₂ _ (primaryKey.map _) (primaryKey.map _)
      rw [List.forall₂_map_left_iff, List.forall₂_map_right_iff, List.forall₂_same]
      intro column _
      exact ⟨.ready _, rfl, rfl⟩

/-- The order locks with its tie breaker, and the uniqueness of the order with it. -/
theorem lock_order {table : Node} {primaryKey : List String} {terms order : List OrderTerm}
    (fuel : Nat) (htable : b.tableAlias = .ok table) (hopen : b.locked .order = false)
    (huniqueness : b.locked .uniqueness = false)
    (hbreak : b.callbacks .order = [.breakTies primaryKey])
    (hnone : b.callbacks .uniqueness = [])
    (hterms : List.Forall₂ (fun p term => Comes (b.scope saved) p.expr term.expr ∧
      p.ascending = term.ascending ∧ p.nulls = term.nulls) b.pending.orderTerms terms)
    (horder : order = terms ++ if b.orderIsUnique then [] else keyTerms table primaryKey) :
    Turns id saved b (PageQuery.Action.lockWith (fuel + 3) .order) ()
      (b.orderSettled table primaryKey order) := by
  rw [horder]
  apply lock_behind fuel hopen hbreak (breakTies primaryKey htable hopen huniqueness) rfl hopen
  apply resolve_order (comes_tiesBroken hterms b.orderIsUnique table primaryKey)
  exact lock_plain fuel huniqueness hnone (pure ())

/-- The cursor that is settled becomes the last field of the select list. -/
theorem settleCursor {f : Fragment} (hidle : lock.Idle) (hcursor : b.locked .cursor = true)
    (hvalue : b.resolved.cursor = some f) (hopen : b.locked .select = false) :
    Turns id saved b (runCallback lock .settleCursor) ()
      { b with pending :=
        { b.pending with selects := b.pending.selects ++ [⟨.ready f, cursorAlias⟩] } } := by
  have hname : checkName cursorAlias = .ok () := by rfl
  apply (idle hidle hcursor).bind
  apply self_bind
  rw [hvalue]
  apply (checkLock hopen).bind
  exact bind (ofExcept hname) (update _)

end Action.Turns

end PageQuery
