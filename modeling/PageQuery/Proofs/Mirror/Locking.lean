import PageQuery.Proofs.Mirror.Operations
import PageQuery.Proofs.Run.Locking

/-!
# Locks mirror each other

A lock runs the callbacks of its concern and then settles its values.  Two callbacks that turn
alike cursors into bounds do the same unless the comparator reads them as positions.  From
this it follows, by induction on the fuel, that every lock mirrors itself.
-/

namespace PageQuery

open Sql

/-- The comparator that is set, or that of row values, is in force from now on. -/
def Builder.settleComparator (b : Builder) : Builder :=
  { b.setLocked .comparator with
    pending := { b.pending with comparator := none }
    resolved := { b.resolved with comparator := some (b.pending.comparator.getD (.kind .row)) } }

/-- The comparator is the same in alike builders, and so it is when it is settled. -/
theorem Builder.Alike.settleComparator {R : Json → Json → Prop} {own id : BuilderId}
    {b b' : Builder} (h : b.Alike R own id b') :
    b.settleComparator.Alike R own id b'.settleComparator :=
  { h.setLocked .comparator with
    pending := { h.pending with comparator := rfl }
    comparator := by
      rw [Builder.settleComparator, Builder.settleComparator, h.pending.comparator] }

/-- The last builder that is put under an id is the one that stands there. -/
theorem World.replace_replace (id : BuilderId) (b b' : Builder)
    (builders : List (BuilderId × Builder)) :
    replace id b' (replace id b builders) = replace id b' builders := by
  induction builders with
  | nil => simp [replace]
  | cons entry rest ih =>
      obtain ⟨i, old⟩ := entry
      by_cases h : i = id
      · simp [replace, h]
      · simp [replace, h, ih]

/-- The comparator settles without asking for anything else. -/
theorem Action.exec_settle_comparator (lock : Locker) {id : BuilderId} {w : World} :
    (settle lock .comparator).exec id w =
      (.ok (), { w.setBuilder id (w.builder id).settleComparator with
        events := w.events ++ [.locked id .comparator]
        history := w.history ++ [.settled id .comparator] }) := by
  have hrun : (settle lock .comparator).exec id w = (.ok (), _) := rfl
  rw [hrun]
  simp only [World.setBuilder, World.builder, World.replace_replace, World.lookup_replace, if_true,
    Option.getD_some]
  rfl

namespace Action

/-- The comparator that is in force once its concern is locked. -/
def comparatorInForce (lock : Locker) : Action (Option Comparator) := do
  lock .comparator
  return (← self).resolved.comparator

/-- Turns a cursor into bounds if there is a comparator to do so. -/
def applyInForce (lock : Locker) (cursor : List Json) (isAfter : Bool) :
    Option Comparator → Action Unit
  | none => refuse (.validation .noComparator)
  | some comparator => applyComparator lock cursor isAfter comparator

end Action

namespace Locker.Mirrored

open PageQuery.Action

variable {R : Json → Json → Prop} {own id : BuilderId} {lock : Locker} (h : lock.Mirrored R own)

include h

/-! Values -/

/-- A script is the same in both runs; a fragment that is ready may vary. -/
theorem resolveFragment {expr expr' : DeferredFragment}
    (hexpr : expr.Like (.mirror R own) 0 expr') :
    Mirrors R own id (resolveFragment lock expr) (resolveFragment lock expr') := by
  cases hexpr with
  | ready hf => exact Mirrors.pure hf
  | @lazy _ steps hsteps value _ hvalue =>
      obtain rfl := hsteps.eq Eq.symm
      obtain ⟨rfl, -⟩ := hvalue
      have hcursor : Mirrors R own id (Action.cursorExpression lock) _ :=
        h.logic.cursorExpression (n := 0)
      cases value with
      | expr expr => exact (h.runSteps steps).bind_plain fun _ => Mirrors.evaluate expr
      | cursorExpression =>
          refine (h.runSteps steps).bind_plain fun _ => ?_
          exact hcursor.bind fun _ _ hexpr => Mirrors.pure hexpr.cursorFragment

/-- Counts do not vary. -/
theorem resolveCount (count : DeferredCount) :
    Mirrors R own id (resolveCount lock count) (resolveCount lock count) := by
  have htotal : Mirrors R own id (Action.totalOffset lock) _ := h.logic.totalOffset (n := 0)
  cases count with
  | ready count => exact Mirrors.pure rfl
  | lazy steps value =>
      refine (h.runSteps steps).bind_plain fun _ => ?_
      cases value with
      | fixed count => exact Mirrors.pure rfl
      | aboveOffset count => exact htotal.bind_plain fun _ => Mirrors.pure rfl
      | beforePosition position => exact htotal.bind_plain fun _ => Mirrors.pure rfl

theorem resolveLimit (limit : Option DeferredCount) :
    Mirrors R own id (limit.mapM (Action.resolveCount lock))
      (limit.mapM (Action.resolveCount lock)) := by
  cases limit with
  | none => exact Mirrors.pure .none
  | some count => exact (h.resolveCount count).bind_plain fun _ => Mirrors.pure (.of_plain _)

/-- Terms vary in their expressions only. -/
theorem resolveTerm {term term' : PendingTerm} (hterm : term.Alike R own term') :
    Mirrors R own id (resolveTerm lock term) (resolveTerm lock term') := by
  refine (h.resolveFragment hterm.expr).bind fun _ _ hexpr => ?_
  rw [hterm.ascending, hterm.nulls]
  exact Mirrors.pure ⟨hexpr, rfl, .of_plain _⟩

theorem resolveOffsets (total : Nat) (offsets : List DeferredCount) :
    Mirrors R own id (resolveOffsets lock total offsets) (resolveOffsets lock total offsets) := by
  induction offsets generalizing total with
  | nil => exact Mirrors.pure rfl
  | cons count rest ih => exact (h.resolveCount count).bind_plain fun _ => ih _

/-- Fields of the same name replace each other in both runs. -/
theorem resolveFields {done done' : List Field} (hdone : Alike (.values R) done done')
    {fields fields' : List PendingField}
    (hfields : List.Forall₂ (PendingField.Alike R own) fields fields') :
    Mirrors R own id (resolveFields lock done fields) (resolveFields lock done' fields') := by
  induction hfields generalizing done done' with
  | nil => exact Mirrors.pure hdone
  | @cons field field' _ _ hfield _ ih =>
      refine (h.resolveFragment hfield.expr).bind fun expr expr' hexpr => ?_
      rw [hfield.name]
      have hothers : Alike (.values R) (done.filter (·.name != field.name))
          (done'.filter (·.name != field.name)) := by
        refine List.rel_filter (fun f f' hf => ?_) hdone
        simp only [(Alike.field hf).2]
      exact ih (hothers.concat ⟨hexpr, rfl⟩)

omit h in
theorem updatePending {change change' : Pending → Pending}
    (hchange : ∀ p p', p.Alike R own p' → (change p).Alike R own (change' p')) :
    Mirrors R own id (updatePending change) (updatePending change') :=
  Mirrors.register (fun _ _ hb => hb.setPending (hchange _ _ hb.pending)) fun _ => ⟨rfl, rfl, rfl⟩

/-- The terms of alike orders are settled one by one. -/
theorem resolveOrder : Mirrors R own id (resolveOrder lock) (resolveOrder lock) := by
  refine Mirrors.self_bind fun b b' hb => ?_
  refine Mirrors.bind_plain (updatePending fun _ _ hp => { hp with orderTerms := .nil }) fun _ => ?_
  refine (Mirrors.mapM hb.pending.orderTerms fun _ _ => h.resolveTerm).bind fun _ _ hterms => ?_
  refine Mirrors.register (fun _ _ hb => ?_) fun _ => ⟨rfl, rfl, rfl⟩
  exact { hb with orderTerms := hterms }

/-- All concerns but the comparator settle to alike values. -/
theorem resolve {c : Concern} (hc : c ≠ .comparator) :
    Mirrors R own id (resolve lock c) (resolve lock c) := by
  cases c with
  | source | joins | uniqueness | cursorTag | bounds | first | last => exact Mirrors.pure rfl
  | comparator => exact absurd rfl hc
  | order => exact h.resolveOrder.bind_plain fun _ => h.lock .uniqueness id
  | wheres =>
      refine Mirrors.self_bind fun b b' hb => ?_
      refine Mirrors.bind_plain (updatePending fun _ _ hp => { hp with wheres := .nil }) fun _ => ?_
      refine (Mirrors.mapM hb.pending.wheres fun _ _ => h.resolveFragment).bind
        fun _ _ hwheres => ?_
      refine Mirrors.register (fun _ _ hb => ?_) fun _ => ⟨rfl, rfl, rfl⟩
      exact { hb with wheres := hwheres }
  | offset =>
      refine Mirrors.self_bind fun b b' hb => ?_
      rw [hb.pending.offsets]
      refine Mirrors.bind_plain (updatePending fun _ _ hp => { hp with offsets := rfl }) fun _ => ?_
      refine (h.resolveOffsets 0 _).bind_plain fun _ => ?_
      refine Mirrors.register (fun _ _ hb => ?_) fun _ => ⟨rfl, rfl, rfl⟩
      exact { hb with offset := rfl }
  | limit =>
      refine Mirrors.self_bind fun b b' hb => ?_
      rw [hb.pending.limit]
      refine Mirrors.bind_plain (updatePending fun _ _ hp => { hp with limit := rfl }) fun _ => ?_
      refine (h.resolveLimit _).bind_plain fun _ => ?_
      refine Mirrors.register (fun _ _ hb => ?_) fun _ => ⟨rfl, rfl, rfl⟩
      exact { hb with limit := rfl }
  | cursor =>
      refine Mirrors.self_bind fun b b' hb => ?_
      refine Mirrors.bind_plain (updatePending fun _ _ hp => { hp with cursor := .none })
        fun _ => ?_
      refine (Mirrors.mapM_option hb.pending.cursor fun _ _ => h.resolveFragment).bind
        fun _ _ hcursor => ?_
      refine Mirrors.register (fun _ _ hb => ?_) fun _ => ⟨rfl, rfl, rfl⟩
      exact { hb with cursor := hcursor }
  | select =>
      refine Mirrors.self_bind fun b b' hb => ?_
      refine Mirrors.bind_plain (updatePending fun _ _ hp => { hp with selects := .nil })
        fun _ => ?_
      refine (h.resolveFields .nil hb.pending.selects).bind fun _ _ hselects => ?_
      refine Mirrors.register (fun _ _ hb => ?_) fun _ => ⟨rfl, rfl, rfl⟩
      exact { hb with selects := hselects }

/-! Settlements -/

omit h in
/-- The comparator is settled only once. -/
theorem settleOpen_comparator :
    Mirrors R own id (settleOpen lock .comparator) (settleOpen lock .comparator) where
  later w := by
    rw [exec_settleOpen]
    split
    · exact .refl w
    · have hlater : (w.builder id).Later (w.builder id).settleComparator :=
        ⟨fun _ => setLocked_of_locked .comparator, fun _ => rfl, fun hlocked => absurd hlocked ‹_›⟩
      have hworld : w.Later own (w.setBuilder id (w.builder id).settleComparator) :=
        .setBuilder hlater
      rw [exec_settle_comparator]
      exact ⟨hworld.grows, hworld.builder⟩
  follows {w w'} hworld := by
    have hb := hworld.builder id
    rw [exec_settleOpen, exec_settleOpen, hb.locked]
    split
    · exact .inr ⟨.refl_values _, hworld⟩
    · rw [exec_settle_comparator, exec_settle_comparator]
      exact .inr ⟨.refl_values _, { hworld.setBuilder hb.settleComparator with }⟩

theorem settleValues {c : Concern} (hc : c ≠ .comparator) :
    Mirrors R own id (settleValues lock c) (settleValues lock c) := by
  refine Mirrors.read_bind ((Mirrors.log _ _).bind_plain fun _ => ?_)
  exact (h.resolve hc).bind_plain fun _ => Mirrors.read_bind (Mirrors.remember _ _)

/-- A concern is open in both runs or in neither. -/
theorem settleOpen (c : Concern) : Mirrors R own id (settleOpen lock c) (settleOpen lock c) := by
  by_cases hc : c = .comparator
  · subst hc
    exact settleOpen_comparator
  · refine Mirrors.self_bind fun b b' hb => ?_
    rw [hb.locked]
    refine Mirrors.ite (Mirrors.pure rfl) (Mirrors.bind_plain (Mirrors.update ?_ ?_) fun _ => ?_)
    · exact fun _ _ hb => hb.setLocked c
    · exact fun b => ⟨fun _ => setLocked_of_locked c, fun _ => rfl, fun _ => rfl⟩
    · exact h.settleValues hc

/-- Nothing opens the concern again that is being settled. -/
theorem settleOpen_locks {c : Concern} {w w' : World} (hlive : own < w.nextBuilder)
    (hrun : (Action.settleOpen lock c).exec own w = (.ok (), w')) :
    (w'.builder own).locked c = true := by
  rw [exec_settleOpen] at hrun
  split at hrun
  · cases hrun
    assumption
  · by_cases hc : c = .comparator
    · subst hc
      rw [exec_settle_comparator] at hrun
      cases hrun
      change ((w.setBuilder own _).builder own).locked .comparator = true
      rw [World.builder_setBuilder_self]
      exact setLocked_locked (w.builder own) .comparator
    · have hvalues : Mirrors R own own _ _ := h.settleValues hc
      have hlater := (hvalues.later (w.setBuilder own ((w.builder own).setLocked c))).builder hlive
      rw [← exec_settle, hrun, World.builder_setBuilder_self] at hlater
      exact hlater.locked c (setLocked_locked _ c)

/-! Callbacks -/

theorem applyComparator (cursor : List Json) (isAfter : Bool) (comparator : Comparator) :
    Mirrors R own id (applyComparator lock cursor isAfter comparator)
      (applyComparator lock cursor isAfter comparator) := by
  cases comparator with
  | kind kind => exact h.logic.compareWith (n := 0) kind cursor isAfter
  | custom steps => exact (Mirrors.record _ _).bind_plain fun _ => h.runSteps steps

omit h in
/-- A cursor is turned into bounds by the comparator that its lock has put in force. -/
theorem runCallback_cursorCondition (cursor : List Json) (isAfter : Bool) :
    runCallback lock (.cursorCondition cursor isAfter) =
      comparatorInForce lock >>= applyInForce lock cursor isAfter := by
  simp only [Action.runCallback, comparatorInForce, bind_assoc, pure_bind]
  rfl

/-- Both runs have the same comparator in force. -/
theorem comparatorInForce :
    Mirrors R own id (comparatorInForce lock) (comparatorInForce lock) := by
  refine (h.lock .comparator id).bind_plain fun _ => Mirrors.self_bind fun b b' hb => ?_
  rw [hb.comparator]
  exact Mirrors.pure (.of_plain _)

/-- Once the comparator of positions is in force cursors are positions for good. -/
theorem positional_of_natural {w w' : World} (hlive : own < w.nextBuilder)
    (hrun : (Action.comparatorInForce lock).exec own w = (.ok (some (.kind .natural)), w')) :
    w'.Positional own := by
  obtain ⟨_, w₁, hlock, hanswer⟩ := exec_bind_eq_ok hrun
  obtain ⟨hnatural, rfl⟩ := Prod.mk.inj hanswer
  have hgrows := ((h.lock .comparator own).later w).grows
  rw [hlock] at hgrows
  exact ⟨Nat.lt_of_lt_of_le hlive hgrows, .inr ⟨h.locks hlive hlock, Except.ok.inj hnatural⟩⟩

/-- The same cursor is turned into alike bounds, also on other builders. -/
theorem applyInForce (cursor : List Json) (isAfter : Bool) (comparator : Option Comparator) :
    Mirrors R own id (applyInForce lock cursor isAfter comparator)
      (applyInForce lock cursor isAfter comparator) := by
  cases comparator with
  | none => exact Mirrors.refuse _
  | some comparator => exact h.applyComparator cursor isAfter comparator

/-- Only the comparator of positions uses the values in a cursor for more than to bind them. -/
theorem applyInForce_own {cursor cursor' : List Json}
    (hcursor : Cursor.Alike (.values R) cursor cursor') (isAfter : Bool)
    {comparator : Option Comparator} (hkeyed : comparator ≠ some (.kind .natural)) :
    Mirrors R own own (Action.applyInForce lock cursor isAfter comparator)
      (Action.applyInForce lock cursor' isAfter comparator) := by
  cases comparator with
  | none => exact Mirrors.refuse _
  | some comparator =>
      cases comparator with
      | custom steps => exact (Mirrors.record _ _).bind_plain fun _ => h.runSteps steps
      | kind kind =>
          cases kind with
          | row => exact h.compareRow hcursor isAfter
          | relay => exact h.compareRelay_own hcursor isAfter
          | natural => exact absurd rfl hkeyed

/-- Cursors that differ in their values part the runs only if they are positions. -/
theorem runCallback_own {cursor cursor' : List Json}
    (hcursor : Cursor.Alike (.values R) cursor cursor') (isAfter : Bool) :
    Mirrors R own own (runCallback lock (.cursorCondition cursor isAfter))
      (runCallback lock (.cursorCondition cursor' isAfter)) := by
  rw [runCallback_cursorCondition, runCallback_cursorCondition]
  refine h.comparatorInForce.bind_of ?_ ?_
  · intro comparator
    have happlied : Mirrors R own own _ _ := h.applyInForce cursor isAfter comparator
    exact happlied.later
  · intro w w₁ comparator comparator' hlive hrun hsame
    obtain rfl := hsame.plain
    by_cases hnatural : comparator = some (.kind .natural)
    · subst hnatural
      exact .inl (h.positional_of_natural hlive hrun)
    · exact .inr (h.applyInForce_own hcursor isAfter hnatural)

/-- Every callback mirrors itself. -/
theorem runCallback_same (callback : Callback) :
    Mirrors R own id (runCallback lock callback) (runCallback lock callback) := by
  cases callback with
  | script steps => exact h.runSteps steps
  | settleBounds => exact h.lock .bounds id
  | settleCursor =>
      refine (h.lock .cursor id).bind_plain fun _ => Mirrors.self_bind fun b b' hb => ?_
      have hcursor := hb.cursor
      generalize b.resolved.cursor = cursor, b'.resolved.cursor = cursor' at hcursor ⊢
      cases hcursor with
      | none => exact Mirrors.pure rfl
      | some hf => exact Mirrors.select (.ready hf) _
  | cursorCondition cursor isAfter =>
      rw [runCallback_cursorCondition]
      refine h.comparatorInForce.bind_plain fun comparator => ?_
      exact h.applyInForce cursor isAfter comparator
  | breakTies primaryKey => exact h.logic.breakTies (n := 0) primaryKey
  | refuseLastFromEnd =>
      refine Mirrors.self_bind fun b b' hb => ?_
      rw [hb.takesLastFromEnd]
      exact Mirrors.ite (Mirrors.refuse _) (Mirrors.pure rfl)

theorem runCallback {callback callback' : Callback}
    (hcallback : callback.Like (.mirror R own) 0 id callback') :
    Mirrors R own id (runCallback lock callback) (runCallback lock callback') := by
  cases hcallback with
  | same => exact h.runCallback_same callback
  | script hsteps =>
      obtain rfl := hsteps.eq Eq.symm
      exact h.runSteps _
  | cursor hcursor isAfter =>
      obtain ⟨rfl, hcursor⟩ := hcursor
      exact h.runCallback_own hcursor isAfter

/-- Alike callbacks are refused together, and then the same number of them is queued again. -/
theorem runCallbacks (c : Concern) {queue queue' : List Callback}
    (hqueue : List.Forall₂ (Callback.Like (.mirror R own) 0 id) queue queue') :
    Mirrors R own id (runCallbacks lock c queue) (runCallbacks lock c queue') := by
  induction hqueue with
  | nil => exact Mirrors.pure rfl
  | @cons callback callback' rest rest' hcallback hrest ih =>
      refine (h.runCallback hcallback).attempt.bind_plain fun outcome => ?_
      cases outcome with
      | ok _ => exact ih
      | error e =>
          refine Mirrors.bind_plain (Mirrors.register ?_ fun _ => ⟨rfl, rfl, rfl⟩) fun _ => ?_
          · exact fun _ _ hb => hb.setCallbacks c (List.rel_append hrest (hb.callbacks c))
          · exact Mirrors.read_bind ((Mirrors.remember _ _).bind_plain fun _ => Mirrors.refuse e)

/-- Both runs need the same number of rounds. -/
theorem drain (c : Concern) (rounds : Nat) :
    Mirrors R own id (drain lock c rounds) (drain lock c rounds) := by
  induction rounds with
  | zero => exact Mirrors.exhaust
  | succ rounds ih =>
      refine Mirrors.self_bind fun b b' hb => ?_
      have hqueue := hb.callbacks c
      generalize b.callbacks c = queue, b'.callbacks c = queue' at hqueue ⊢
      have hempty : queue'.isEmpty = queue.isEmpty := by cases hqueue <;> rfl
      simp only [hempty]
      refine Mirrors.ite (Mirrors.pure rfl) ?_
      refine Mirrors.bind_plain (Mirrors.register ?_ fun _ => ⟨rfl, rfl, rfl⟩) fun _ => ?_
      · exact fun _ _ hb => hb.setCallbacks c .nil
      · exact (h.runCallbacks c hqueue).bind_plain fun _ => ih

end Locker.Mirrored

namespace Action

variable {R : Json → Json → Prop} {own : BuilderId}

/-- Without fuel a lock answers in both runs or gives up in both. -/
theorem mirrored_lockWith_zero : (lockWith 0).Mirrored R own where
  locks {c w w'} _ hrun := by
    rw [exec_lockWith_zero] at hrun
    split at hrun
    · cases hrun
      assumption
    · cases hrun
  lock c id := by
    refine Mirrors.self_bind fun b b' hb => ?_
    rw [hb.locked]
    exact Mirrors.ite (Mirrors.pure rfl) Mirrors.exhaust

/-- What a run does does not depend on the values in cursors, unless these are positions. -/
theorem mirrored_lockWith (fuel : Nat) : (lockWith fuel).Mirrored R own := by
  induction fuel with
  | zero => exact mirrored_lockWith_zero
  | succ fuel ih =>
      refine ⟨fun {c w w'} hlive hrun => ?_, fun c id => ?_⟩
      · cases hlocked : (w.builder own).locked c with
        | true =>
            rw [exec_lockWith_locked fuel hlocked] at hrun
            cases hrun
            exact hlocked
        | false =>
            rw [exec_lockWith_open fuel hlocked] at hrun
            obtain ⟨_, middle, hdrain, hsettle⟩ := exec_bind_eq_ok hrun
            have hmirrors : Mirrors R own own _ _ := ih.drain c fuel
            have hgrows := (hmirrors.later w).grows
            rw [hdrain] at hgrows
            exact ih.settleOpen_locks (Nat.lt_of_lt_of_le hlive hgrows) hsettle
      · refine Mirrors.self_bind fun b b' hb => ?_
        rw [hb.locked]
        exact Mirrors.ite (Mirrors.pure rfl) ((ih.drain c fuel).bind_plain fun _ => ih.settleOpen c)

end Action

end PageQuery
