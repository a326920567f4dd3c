import PageQuery.Proofs.Draft.Progress

/-!
# The bounds of a draft

The bounds lock behind the order if there are cursors.  What a cursor does is up to the
settled order alone, so it does not matter what else has been settled by then.
-/

namespace PageQuery

open Sql

namespace Builder

/-- What a cursor reads and changes of a builder, while the bounds are open. -/
structure Consulted (b : Builder) (d : Draft) : Prop where
  order : b.locked .order = true
  uniqueness : b.locked .uniqueness = true
  comparator : b.locked .comparator = true
  bounds : b.locked .bounds = false
  offset : b.locked .offset = false
  limit : b.locked .limit = false
  last : b.locked .last = false
  terms : b.resolved.orderTerms = d.order
  unique : b.orderIsUnique = d.isUnique
  relay : b.resolved.comparator = some (.kind .relay)
  tag : b.cursorTag = d.tag
  untagged : b.callbacks .cursorTag = []
  limited : b.pending.limit = d.limit.map .ready

/-- The builder with the tag of its cursors locked, if cursors have one. -/
def tagged (b : Builder) (d : Draft) : Builder :=
  if d.isKeyed then b.setLocked .cursorTag else b

end Builder

namespace Builder.Consulted

open PageQuery.Action

variable {id : BuilderId} {saved : List (String × Fragment)} {b : Builder} {d : Draft} {fuel : Nat}
  (hconsulted : b.Consulted d)

include hconsulted

theorem turns_terms : Turns id saved b (orderTerms (lockWith fuel)) d.order b := by
  apply (Turns.idle (idle_lockWith fuel) hconsulted.order).bind
  apply Turns.self_bind
  rw [hconsulted.terms]
  exact Turns.pure _

theorem turns_unique : Turns id saved b (isOrderUnique (lockWith fuel) true) d.isUnique b := by
  change Turns id saved b (lockWith fuel .order >>= fun _ => lockWith fuel .uniqueness >>= fun _ =>
    do return (← self).orderIsUnique) d.isUnique b
  apply (Turns.idle (idle_lockWith fuel) hconsulted.order).bind
  apply (Turns.idle (idle_lockWith fuel) hconsulted.uniqueness).bind
  apply Turns.self_bind
  rw [hconsulted.unique]
  exact Turns.pure _

theorem turns_tag :
    Turns id saved b (Action.cursorTag (lockWith (fuel + 2))) d.tag (b.setLocked .cursorTag) := by
  apply (Turns.lock_either fuel hconsulted.untagged fun _ => rfl).bind
  apply Turns.self_bind
  change Turns id saved _ (pure b.cursorTag) d.tag _
  rw [hconsulted.tag]
  exact Turns.pure _

omit hconsulted in
theorem turns_reject (hbounds : b.locked .bounds = false) (isAfter : Bool)
    (reason : Cursor.Mismatch) :
    Turns id saved b (rejectCursor isAfter reason) () (b.bounded isAfter [.never]) :=
  Turns.read_bind ((Turns.log _).bind (Turns.bound .never isAfter hbounds))

/-- Cursors with values become bounds where the order tells rows apart, and are refused
elsewhere. -/
theorem ends_compareRow (cursor : List Json) (isAfter : Bool) :
    Ends id saved b (compareRow (lockWith (fuel + 2)) cursor isAfter) (d.isKeyed = true)
      fun _ b' => d.isKeyed = true ∧ b' = (b.setLocked .cursorTag).touched isAfter
        (some (match Cursor.keyedBound d.tag d.order cursor isAfter with
          | .error _ => .bounds .never
          | .ok condition => .bounds condition)) := by
  apply Ends.behind hconsulted.turns_terms
  cases hempty : d.order.isEmpty with
  | true =>
      have hposition : d.isKeyed ≠ true := by simp [Draft.isKeyed, hempty]
      exact Ends.of_halts hposition (Halts.bind (Halts.refuse _))
  | false =>
      simp only [Bool.false_eq_true, if_false]
      apply Ends.behind hconsulted.turns_unique
      cases hunique : d.isUnique with
      | false =>
          have hposition : d.isKeyed ≠ true := by simp [Draft.isKeyed, hunique]
          exact Ends.of_halts hposition (Halts.bind (Halts.refuse _))
      | true =>
          have hend : Turns id saved (b.setLocked .cursorTag)
              (match Cursor.keyedBound d.tag d.order cursor isAfter with
                | .error reason => rejectCursor isAfter reason
                | .ok condition => bound condition isAfter) ()
              ((b.setLocked .cursorTag).touched isAfter
                (some (match Cursor.keyedBound d.tag d.order cursor isAfter with
                  | .error _ => .bounds .never
                  | .ok condition => .bounds condition))) := by
            cases Cursor.keyedBound d.tag d.order cursor isAfter with
            | error reason =>
                exact turns_reject (b := b.setLocked .cursorTag) hconsulted.bounds isAfter reason
            | ok condition => exact Turns.bound condition isAfter hconsulted.bounds
          have hkeyed : d.isKeyed = true := by simp [Draft.isKeyed, hempty, hunique]
          exact Ends.of_turns (hconsulted.turns_tag.bind hend) ⟨hkeyed, rfl⟩

/-- Cursors with positions become offsets and limits where the order does not tell rows
apart, unless there is a limit already. -/
theorem ends_compareNatural (hunique : d.isUnique = false) {cursor : List Json}
    (htag : Cursor.tag? cursor = some naturalTag) (isAfter : Bool) :
    Ends id saved b (compareNatural (lockWith (fuel + 2)) cursor isAfter)
      ((d.effect? isAfter cursor).isSome = true)
      fun _ b' => (d.effect? isAfter cursor).isSome = true ∧
        b' = b.touched isAfter (d.effect? isAfter cursor) := by
  rw [compareNatural, Draft.effect?, if_pos ⟨htag, hunique⟩]
  cases naturalPosition? cursor with
  | none => exact Ends.of_turns (turns_reject hconsulted.bounds isAfter .notNatural) ⟨rfl, rfl⟩
  | some position =>
      apply Ends.behind hconsulted.turns_unique
      rw [hunique]
      cases isAfter with
      | true =>
          have hoffset : Turns id saved b (Action.offset (.ready position)) ()
              { b with pending :=
                { b.pending with offsets := b.pending.offsets ++ [.ready position] } } :=
            (Turns.checkLock hconsulted.offset).bind (Turns.update _)
          exact Ends.of_turns (hoffset.bind (Turns.beforeLock _ hconsulted.last)) ⟨rfl, rfl⟩
      | false =>
          have hpending : b.pending.limit.isSome = d.limit.isSome := by
            rw [hconsulted.limited, Option.isSome_map]
          let cut (b : Builder) : Builder :=
            { b with pending := { b.pending with limit := some (.lazy [] (.beforePosition position)) } }
          apply Ends.behind (Turns.checkLock hconsulted.limit)
          apply Ends.self_bind
          rw [hpending]
          cases d.limit.isSome with
          | true => exact Ends.of_halts (by simp) (Halts.bind (Halts.refuse _))
          | false => exact Ends.of_turns (Turns.update cut) ⟨rfl, rfl⟩

theorem ends_compareRelay (cursor : List Json) (isAfter : Bool) :
    Ends id saved b (compareRelay (lockWith (fuel + 2)) cursor isAfter)
      ((d.effect? isAfter cursor).isSome = true)
      fun _ b' => (d.effect? isAfter cursor).isSome = true ∧
        b' = (b.tagged d).touched isAfter (d.effect? isAfter cursor) := by
  have hrow : Cursor.tag? cursor ≠ some naturalTag ∨ d.isUnique = true →
      Ends id saved b (compareRow (lockWith (fuel + 2)) cursor isAfter)
        ((d.effect? isAfter cursor).isSome = true)
        fun _ b' => (d.effect? isAfter cursor).isSome = true ∧
        b' = (b.tagged d).touched isAfter (d.effect? isAfter cursor) := by
    intro hkeyed
    have hnot : ¬(Cursor.tag? cursor = some naturalTag ∧ d.isUnique = false) := by
      rintro ⟨htag, hunique⟩
      rw [hunique] at hkeyed
      exact hkeyed.elim (absurd htag) Bool.noConfusion
    rw [Draft.effect?, if_neg hnot, Builder.tagged]
    apply (hconsulted.ends_compareRow cursor isAfter).imp
    · intro hsome
      cases hkeyed : d.isKeyed with
      | true => rfl
      | false =>
          rw [hkeyed] at hsome
          cases hsome
    · rintro _ b' ⟨hkeyed, rfl⟩
      rw [if_pos hkeyed, if_pos hkeyed]
      cases Cursor.keyedBound d.tag d.order cursor isAfter <;> exact ⟨rfl, rfl⟩
  rw [compareRelay]
  by_cases htag : Cursor.tag? cursor = some naturalTag
  · rw [if_pos htag]
    apply Ends.behind hconsulted.turns_unique
    cases hunique : d.isUnique with
    | true => exact hrow (Or.inr hunique)
    | false =>
        have hposition : d.isKeyed = false := by simp [Draft.isKeyed, hunique]
        rw [Builder.tagged, hposition]
        exact hconsulted.ends_compareNatural hunique htag isAfter
  · rw [if_neg htag]
    exact hrow (Or.inl htag)

omit hconsulted in
/-- Whatever a cursor is, the order locks first. -/
theorem compareRelay_starts (lock : Locker) (cursor : List Json) (isAfter : Bool) :
    ∃ rest, compareRelay lock cursor isAfter = lock .order >>= rest := by
  rw [compareRelay]
  split
  · exact ⟨_, bind_assoc _ _ _⟩
  · exact ⟨_, bind_assoc _ _ _⟩

theorem ends_condition (cursor : List Json) (isAfter : Bool) :
    Ends id saved b (runCallback (lockWith (fuel + 2)) (.cursorCondition cursor isAfter))
      ((d.effect? isAfter cursor).isSome = true)
      fun _ b' => (d.effect? isAfter cursor).isSome = true ∧
        b' = (b.tagged d).touched isAfter (d.effect? isAfter cursor) := by
  apply Ends.behind (Turns.idle (idle_lockWith _) hconsulted.comparator)
  apply Ends.self_bind
  rw [hconsulted.relay]
  exact hconsulted.ends_compareRelay cursor isAfter

/-- An `after` cursor leaves what a `before` cursor reads as it is. -/
theorem touched {effect : Option Effect} (heffect : ∀ position, effect ≠ some (.cuts position)) :
    ((b.tagged d).touched true effect).Consulted d := by
  have htagged : (b.tagged d).Consulted d := by
    rw [Builder.tagged]
    split
    · exact { hconsulted with }
    · exact hconsulted
  rcases effect with _ | condition | position | position
  · exact htagged
  · exact { htagged with }
  · exact { htagged with }
  · exact absurd rfl (heffect position)

end Builder.Consulted

namespace Draft

open PageQuery.Action

variable {d : Draft} {X Y : Progress} {b : Builder} {id : BuilderId}
  {saved : List (String × Fragment)}

/-- Behind the order, a builder whose bounds are open is one that cursors can consult. -/
theorem Sound.consulted (hsound : d.Sound X) (hbounds : (X .bounds).isLocked = false)
    (horder : X .order = .settled) : (d.builder X).Consulted d := by
  have hopen : X .bounds ≠ .settled := by
    intro hsettled
    rw [hsettled] at hbounds
    cases hbounds
  have hunsettled : (X .bounds).isSettled = false := by
    cases hstage : X .bounds <;> simp_all [Stage.isSettled]
  have huniqueness : X .uniqueness = .settled := hsound.uniqueness.trans horder
  have hlimit : (X .limit).isLocked = false := hsound.unbounded hopen .limit (by simp)
  have hsettled : Stage.settled.isSettled = true := rfl
  refine {
    order := locked_of_settled horder
    uniqueness := locked_of_settled huniqueness
    comparator := locked_of_settled hsound.comparator
    bounds := hbounds
    offset := hsound.unbounded hopen .offset (by simp)
    limit := hlimit
    last := hsound.unbounded hopen .last (by simp)
    terms := ?_, unique := ?_, relay := ?_, tag := rfl
    untagged := callbacks_idle (by decide), limited := ?_ }
  · simp [Draft.builder, horder, hsettled]
  · simp [Draft.builder, horder, hsettled]
  · simp [Draft.builder, hsound.comparator, hsettled]
  · simp [Draft.builder, hlimit, hunsettled, pendingLimit]

/-- The tag of cursors is locked if they have one. -/
theorem Sound.tagged (hsound : d.Sound X) :
    ∃ Y, (d.builder X).tagged d = d.builder Y ∧ X.Forward Y ∧ d.Sound Y := by
  rw [Builder.tagged]
  split
  · exact ⟨_, builder_cursorTag (callbacks_idle (by decide)), hsound.cursorTag.set,
      hsound.cursorTagSettled⟩
  · exact ⟨X, rfl, .refl X, hsound⟩

/-- A cursor has the order locked first, and does then what the draft says. -/
theorem ends_compareRelay (hsound : d.Sound X) (hbounds : (X .bounds).isLocked = false) (fuel : Nat)
    (cursor : List Json) (isAfter : Bool) :
    Ends id saved (d.builder X) (compareRelay (lockWith (fuel + 3)) cursor isAfter)
      ((d.effect? isAfter cursor).isSome = true)
      fun _ b => (d.effect? isAfter cursor).isSome = true ∧
        b = ((d.builder X.ordered).tagged d).touched isAfter (d.effect? isAfter cursor) := by
  have hconsulted : (d.builder X.ordered).Consulted d :=
    hsound.ordered.consulted hbounds rfl
  obtain ⟨rest, hstarts⟩ :=
    Builder.Consulted.compareRelay_starts (lockWith (fuel + 3)) cursor isAfter
  have horder : Ends id saved (d.builder X) (lockWith (fuel + 3) .order)
      ((d.effect? isAfter cursor).isSome = true) fun _ b => b = d.builder X.ordered :=
    Ends.of_turns (turns_order hsound fuel) rfl
  apply Ends.ahead (idle_lockWith _) hstarts horder
  · rintro _ rfl
    exact hconsulted.order
  · rintro _ rfl
    exact hconsulted.ends_compareRelay cursor isAfter

theorem ends_condition (hsound : d.Sound X) (hbounds : (X .bounds).isLocked = false) (fuel : Nat)
    (cursor : List Json) (isAfter : Bool) :
    Ends id saved (d.builder X)
      (runCallback (lockWith (fuel + 3)) (.cursorCondition cursor isAfter))
      ((d.effect? isAfter cursor).isSome = true)
      fun _ b => (d.effect? isAfter cursor).isSome = true ∧
        b = ((d.builder X.ordered).tagged d).touched isAfter (d.effect? isAfter cursor) := by
  have hrelay : (d.builder X).resolved.comparator = some (.kind .relay) := by
    simp [Draft.builder, hsound.comparator, Stage.isSettled]
  apply Ends.behind (idle _ hsound.comparator)
  apply Ends.self_bind
  rw [hrelay]
  exact ends_compareRelay hsound hbounds fuel cursor isAfter

/-- What a builder looks like when both cursors have been used. -/
def Touched (d : Draft) (X : Progress) (b : Builder) : Prop :=
  ∃ Y, b = ((d.builder Y).touched true d.afterEffect?).touched false d.beforeEffect? ∧
    X.Forward Y ∧ d.Sound Y ∧ d.Readable

theorem retagged {effect : Option Effect} :
    ((b.tagged d).touched true effect).tagged d = (b.tagged d).touched true effect := by
  rw [Builder.tagged, Builder.tagged]
  split
  · apply Builder.setLocked_self
    rw [Builder.touched_locked]
    rfl
  · rfl

theorem Sound.touched_nothing (hsound : d.Sound X) (hnone : d.conditions = []) :
    d.Touched X (d.builder X) := by
  obtain ⟨hafter, hbefore⟩ : d.after = none ∧ d.before = none := by simpa [conditions] using hnone
  have hnothing : d.afterEffect? = none := by rw [afterEffect?, hafter]; rfl
  have hnothing' : d.beforeEffect? = none := by rw [beforeEffect?, hbefore]; rfl
  refine ⟨X, ?_, .refl X, hsound, by simp [Readable, hafter, hbefore]⟩
  rw [hnothing, hnothing']
  rfl

/-- The cursors of a draft are used one after the other. -/
theorem ends_conditions (hsound : d.Sound X) (hbounds : (X .bounds).isLocked = false) (fuel : Nat) :
    Ends id saved (d.builder X) (runCallbacks (lockWith (fuel + 3)) .bounds d.conditions) d.Good
      fun _ b => d.Touched X b := by
  obtain ⟨Y, htagged, hforward', hsound'⟩ := hsound.ordered.tagged
  have hforward : X.Forward Y := hsound.forward_ordered.trans hforward'
  cases hafter : d.after with
  | none =>
      have hnothing : d.afterEffect? = none := by rw [afterEffect?, hafter]; rfl
      cases hbefore : d.before with
      | none =>
          have hnone : d.conditions = [] := by simp [conditions, hafter, hbefore]
          rw [hnone]
          exact Ends.runCallbacks_nil (hsound.touched_nothing hnone)
      | some before =>
          have heffect : d.beforeEffect? = d.effect? false before := by rw [beforeEffect?, hbefore]; rfl
          rw [conditions, hafter, hbefore]
          apply Ends.runCallbacks_cons ((ends_condition hsound hbounds fuel before false).under
            fun hgood => hgood.readable.2 before (by rw [hbefore]; rfl))
          rintro _ ⟨hsome, rfl⟩
          refine Ends.runCallbacks_nil ⟨Y, ?_, hforward, hsound', ?_⟩
          · rw [htagged, hnothing, heffect]
            rfl
          · simp [Readable, hafter, hbefore, hsome]
  | some after =>
      have heffect : d.afterEffect? = d.effect? true after := by rw [afterEffect?, hafter]; rfl
      rw [conditions, hafter]
      apply Ends.runCallbacks_cons ((ends_condition hsound hbounds fuel after true).under
        fun hgood => hgood.readable.1 after (by rw [hafter]; rfl))
      rintro _ ⟨hsome, rfl⟩
      cases hbefore : d.before with
      | none =>
          have hnothing : d.beforeEffect? = none := by rw [beforeEffect?, hbefore]; rfl
          refine Ends.runCallbacks_nil ⟨Y, ?_, hforward, hsound', ?_⟩
          · rw [htagged, heffect, hnothing]
            rfl
          · simp [Readable, hafter, hbefore, hsome]
      | some before =>
          have heffect' : d.beforeEffect? = d.effect? false before := by
            rw [beforeEffect?, hbefore]
            rfl
          have hconsulted :
              (((d.builder X.ordered).tagged d).touched true (d.effect? true after)).Consulted d :=
            (hsound.ordered.consulted hbounds rfl).touched fun _ hcuts => effect?_after hcuts
          apply Ends.runCallbacks_cons ((hconsulted.ends_condition before false).under
            fun hgood => hgood.readable.2 before (by rw [hbefore]; rfl))
          rintro _ ⟨hsome', rfl⟩
          refine Ends.runCallbacks_nil ⟨Y, ?_, hforward, hsound', ?_⟩
          · rw [retagged, htagged, heffect, heffect']
          · simp [Readable, hafter, hbefore, hsome, hsome']

/-- The bounds lock behind the order if there are cursors, and take them in. -/
theorem ends_bounds (hsound : d.Sound X) (hfree : X.Free .bounds) (fuel : Nat) :
    Ends id saved (d.builder X) (lockWith (fuel + 4) .bounds) d.Good
      fun _ b => d.Reaches X [.bounds] b := by
  rcases hfree with hwaiting | hsettled
  · have hopen : X .bounds ≠ .settled := by rw [hwaiting]; simp
    have hdrained : d.Sound (X.set .bounds .drained) :=
      hsound.set .drained (by simp) (fun _ => ⟨hopen, fun h => by cases h⟩) (by simp)
        (fun h => by cases h) fun h => by cases h
    have hqueue : (d.builder X).callbacks .bounds = d.conditions := by
      simp [Draft.builder, callbacks_waiting hwaiting, queue, hsound.comparator, Stage.isSettled]
    have hcalled : (d.builder X).setCallbacks .bounds [] = d.builder (X.set .bounds .drained) :=
      builder_drained hwaiting (by simp)
    have hconditions : Ends id saved (d.builder (X.set .bounds .drained))
        (runCallbacks (lockWith (fuel + 3)) .bounds d.conditions) d.Good
        fun _ b => d.Touched (X.set .bounds .drained) b :=
      ends_conditions hdrained (by rw [Progress.set_same]; rfl) fuel
    -- No cursor registers another condition, so there is one round of callbacks at most.
    have hdrain : Ends id saved (d.builder X) (drain (lockWith (fuel + 3)) .bounds (fuel + 3)) d.Good
        fun _ b => d.Touched (X.set .bounds .drained) b := by
      by_cases hnone : d.conditions = []
      · rw [hnone] at hqueue
        have hsame : d.builder X = d.builder (X.set .bounds .drained) :=
          ((d.builder X).setCallbacks_self hqueue).symm.trans hcalled
        exact Ends.drain_nil (fuel + 2) hqueue (hsame ▸ hdrained.touched_nothing hnone)
      · apply Ends.drain_round (fuel + 2) hqueue hnone (hcalled ▸ hconditions)
        rintro _ ⟨Y, rfl, hforward, hsound', hreadable⟩
        have hbusy : Y .bounds = .drained := hforward.busy (by simp)
        apply Ends.drain_nil (fuel + 1)
        · rw [Builder.touched_callbacks, Builder.touched_callbacks]
          exact callbacks_none (by simp [hbusy]) (by simp)
        · exact ⟨Y, rfl, hforward, hsound', hreadable⟩
    apply Ends.lockWith (open_of_waiting hwaiting) hdrain
    rintro _ ⟨Y, rfl, hforward, hsound', hreadable⟩
    have hbusy : Y .bounds = .drained := hforward.busy (by simp)
    have hopen' : Y .bounds ≠ .settled := by rw [hbusy]; simp
    constructor
    · rw [Builder.touched_locked, Builder.touched_locked]
      exact open_of_drained hbusy
    · rw [builder_bounds hbusy (hsound'.unbounded hopen' .offset (by simp))
        (hsound'.unbounded hopen' .limit (by simp)) (hsound'.unbounded hopen' .last (by simp))]
      refine Ends.of_turns (Turns.pure ()) ⟨_, rfl, hforward.finish hwaiting, ?_, by simp⟩
      exact hsound'.set .settled (by simp) (fun _ => ⟨hopen', fun _ => hreadable⟩) (by simp)
        (fun h => by cases h) fun h => by cases h
  · exact Ends.of_turns (idle _ hsettled) ⟨X, rfl, .refl X, hsound, by simpa using hsettled⟩

end Draft

end PageQuery
