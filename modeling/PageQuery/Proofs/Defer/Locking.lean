import PageQuery.Proofs.Defer.Operations
import PageQuery.Proofs.Run.Locking

/-!
# Locks on deferred values

When a concern locks, a closure gives its value, and from then on it cannot be told that the
value was deferred.  Main statement: a lock does in a world that defers values what it does in
the other world, also with more fuel.
-/

namespace PageQuery

open Sql

namespace Locker.Defers

open PageQuery.Action
open PageQuery.Action.Defers (ask self_bind read_bind)

variable {lock lock' : Locker} (h : lock.Defers lock')

/-- A closure that gives a fragment gives it in every world, and does nothing else. -/
theorem exec_gives {source : FragmentSource} {f : Fragment} (hgives : source.Gives f)
    (lock : Locker) {id : BuilderId} {w : World} :
    (resolveFragment lock (.lazy [] source)).exec id w = (.ok f, w) := by
  cases source with
  | cursorExpression => exact hgives.elim
  | expr expr =>
      change (evaluate expr).exec id w = _
      rw [exec_evaluate, hgives _]

include h

/-- A closure gives the fragment that the other run has ready. -/
theorem resolveFragment {value value' : DeferredFragment} (hvalue : FragmentDefers value value') :
    Action.Defers (resolveFragment lock value) (resolveFragment lock' value') := by
  cases hvalue with
  | ready f => exact .pure f
  | lazy hsteps source =>
      cases source with
      | expr expr => exact (h.runSteps hsteps).bind fun _ => .evaluate expr
      | cursorExpression =>
          refine (h.runSteps hsteps).bind fun _ => ?_
          exact h.cursorExpression.bind fun _ => .pure _
  | value hgives =>
      intro id w w' hworld _
      rw [exec_gives hgives]
      exact ⟨rfl, hworld⟩

/-- A closure gives the number that the other run has ready. -/
theorem resolveCount {value value' : DeferredCount} (hvalue : CountDefers value value') :
    Action.Defers (resolveCount lock value) (resolveCount lock' value') := by
  cases hvalue with
  | ready n => exact .pure n
  | @lazy _ _ hsteps source =>
      refine (h.runSteps hsteps).bind fun _ => ?_
      cases source with
      | fixed n => exact .pure n
      | aboveOffset n => exact h.totalOffset.bind fun _ => .pure _
      | beforePosition position => exact h.totalOffset.bind fun _ => .pure _
  | @value source n hgives =>
      cases source with
      | fixed m =>
          obtain rfl : m = n := hgives
          exact .pure m
      | aboveOffset | beforePosition => exact hgives.elim

theorem resolveTerm {term term' : PendingTerm} (hterm : term.Defers term') :
    Action.Defers (resolveTerm lock term) (resolveTerm lock' term') := by
  refine (h.resolveFragment hterm.expr).bind fun expr => ?_
  rw [hterm.ascending, hterm.nulls]
  exact .pure _

/-- Offsets add up to the same number. -/
theorem resolveOffsets (total : Nat) {values values' : List DeferredCount}
    (hvalues : List.Forall₂ CountDefers values values') :
    Action.Defers (resolveOffsets lock total values) (resolveOffsets lock' total values') := by
  induction hvalues generalizing total with
  | nil => exact .pure total
  | cons hvalue _ ih => exact (h.resolveCount hvalue).bind fun _ => ih _

/-- Fields of the same name replace each other in both runs. -/
theorem resolveFields (done : List Field) {fields fields' : List PendingField}
    (hfields : List.Forall₂ PendingField.Defers fields fields') :
    Action.Defers (resolveFields lock done fields) (resolveFields lock' done fields') := by
  induction hfields generalizing done with
  | nil => exact .pure done
  | cons hfield _ ih =>
      refine (h.resolveFragment hfield.expr).bind fun expr => ?_
      rw [hfield.name]
      exact ih _

omit h in
/-- What waits is rewritten in both runs. -/
theorem updatePending {change : Pending → Pending}
    (hchange : ∀ p p', p.Defers p' → (change p).Defers (change p')) :
    Action.Defers (updatePending change) (updatePending change) :=
  .update fun _ _ hb => hb.setPending (hchange _ _ hb.pending)

omit h in
/-- Values other than the comparator are settled to the same. -/
theorem updateResolved {change : Resolved → Resolved}
    (hchange : ∀ (r : Resolved) (comparator : Option Comparator),
      change { r with comparator } = { change r with comparator })
    (hkeeps : ∀ r, (change r).comparator = r.comparator) :
    Action.Defers (updateResolved change) (updateResolved change) := by
  refine .update ?_
  rintro b _ @⟨_, _, comparator, hpending, hcallbacks, hcomparator⟩
  dsimp only
  rw [hchange b.resolved comparator]
  rw [← hkeeps] at hcomparator
  exact .mk (b := { b with resolved := change b.resolved }) hpending hcallbacks hcomparator

omit h in
/-- What waits is taken out of the builder, and then gone through. -/
theorem take_bind {α : Type} {change : Pending → Pending} {next next' : Builder → Action α}
    (hchange : ∀ p p', p.Defers p' → (change p).Defers (change p'))
    (hnext : ∀ b b' : Builder, b.pending.Defers b'.pending → Action.Defers (next b) (next' b')) :
    Action.Defers (do let b ← self; PageQuery.Action.updatePending change; next b)
      (do let b ← self; PageQuery.Action.updatePending change; next' b) :=
  self_bind fun b b' hb => (updatePending hchange).bind fun _ => hnext b b' hb.pending

/-- Each concern settles to the same values, deferred or not. -/
theorem resolve (c : Concern) : Action.Defers (resolve lock c) (resolve lock' c) := by
  cases c with
  | source | joins | uniqueness | cursorTag | bounds | first | last => exact .pure _
  | order =>
      refine Action.Defers.bind ?_ fun _ => h _
      refine take_bind (fun _ _ hp => { hp with orderTerms := .nil }) fun _ _ hp => ?_
      refine (Action.Defers.mapM hp.orderTerms fun _ _ => h.resolveTerm).bind fun _ => ?_
      exact updateResolved (fun _ _ => rfl) fun _ => rfl
  | comparator =>
      refine take_bind (fun _ _ hp => { hp with comparator := .none }) fun _ _ hp => .update ?_
      rintro b _ ⟨hpending, hcallbacks, -⟩
      have hset := getD_of_rel hp.comparator (.kind .row)
      exact .mk (b := { b with resolved := { b.resolved with comparator := some _ } }) hpending
        hcallbacks (.some hset)
  | wheres =>
      refine take_bind (fun _ _ hp => { hp with wheres := .nil }) fun _ _ hp => ?_
      refine (Action.Defers.mapM hp.wheres fun _ _ => h.resolveFragment).bind fun _ => ?_
      exact updateResolved (fun _ _ => rfl) fun _ => rfl
  | offset =>
      refine take_bind (fun _ _ hp => { hp with offsets := .nil }) fun _ _ hp => ?_
      refine (h.resolveOffsets 0 hp.offsets).bind fun _ => ?_
      exact updateResolved (fun _ _ => rfl) fun _ => rfl
  | limit =>
      refine take_bind (fun _ _ hp => { hp with limit := .none }) fun _ _ hp => ?_
      refine (Action.Defers.mapM_option hp.limit fun _ _ => h.resolveCount).bind fun _ => ?_
      exact updateResolved (fun _ _ => rfl) fun _ => rfl
  | cursor =>
      refine take_bind (fun _ _ hp => { hp with cursor := .none }) fun _ _ hp => ?_
      refine (Action.Defers.mapM_option hp.cursor fun _ _ => h.resolveFragment).bind fun _ => ?_
      exact updateResolved (fun _ _ => rfl) fun _ => rfl
  | select =>
      refine take_bind (fun _ _ hp => { hp with selects := .nil }) fun _ _ hp => ?_
      refine (h.resolveFields [] hp.selects).bind fun _ => ?_
      exact updateResolved (fun _ _ => rfl) fun _ => rfl

/-! Callbacks -/

theorem applyComparator (cursor : List Json) (isAfter : Bool) {comparator comparator' : Comparator}
    (hsame : comparator.Defers comparator') :
    Action.Defers (applyComparator lock cursor isAfter comparator)
      (applyComparator lock' cursor isAfter comparator') := by
  cases hsame with
  | kind kind => exact h.compareWith kind cursor isAfter
  | custom hsteps =>
      exact (Action.Defers.record (.comparator cursor isAfter)).bind fun _ => h.runSteps hsteps

/-- A callback does the same in both runs. -/
theorem runCallback {callback callback' : Callback} (hcallback : callback.Defers callback') :
    Action.Defers (runCallback lock callback) (runCallback lock' callback') := by
  cases hcallback with
  | script hsteps => exact h.runSteps hsteps
  | same =>
      cases callback with
      | script steps => exact h.runSteps (.refl steps)
      | settleBounds => exact h .bounds
      | settleCursor =>
          refine (h .cursor).bind fun _ => ask (fun _ _ _ _ => rfl) fun b => ?_
          exact .forM_option b.resolved.cursor fun _ => .select (.ready _) _
      | cursorCondition cursor isAfter =>
          refine (h .comparator).bind fun _ => self_bind fun b b' hb => ?_
          have hcomparator := hb.comparator
          generalize b.resolved.comparator = comparator,
            b'.resolved.comparator = comparator' at hcomparator ⊢
          cases hcomparator with
          | none => exact .refuse _
          | some hsame => exact h.applyComparator cursor isAfter hsame
      | breakTies primaryKey => exact h.breakTies primaryKey
      | refuseLastFromEnd =>
          refine self_bind fun b b' hb => ?_
          rw [hb.takesLastFromEnd]
          exact .ite (.refuse _) (.pure _)

/-- Callbacks are refused at the same place, and the same ones are queued again. -/
theorem runCallbacks (c : Concern) {queue queue' : List Callback}
    (hqueue : List.Forall₂ Callback.Defers queue queue') :
    Action.Defers (runCallbacks lock c queue) (runCallbacks lock' c queue') := by
  induction hqueue with
  | nil => exact .pure _
  | @cons callback callback' rest rest' hcallback hrest ih =>
      refine (h.runCallback hcallback).attempt.bind fun outcome => ?_
      cases outcome with
      | ok _ => exact ih
      | error e =>
          refine Action.Defers.bind (.update fun b b' hb => ?_) fun _ => ?_
          · exact hb.setCallbacks c (List.rel_append hrest (hb.callbacks c))
          · refine read_bind fun _ => ?_
            exact (Action.Defers.remember _ _).bind fun _ => .refuse e

/-- A drain may have more rounds. -/
theorem drain (c : Concern) {rounds rounds' : Nat} (hrounds : rounds ≤ rounds') :
    Action.Defers (drain lock c rounds) (drain lock' c rounds') := by
  induction rounds generalizing rounds' with
  | zero => exact .exhaust _
  | succ rounds ih =>
      obtain ⟨rounds', rfl⟩ := Nat.exists_eq_add_of_le' (Nat.one_le_of_lt hrounds)
      refine self_bind fun b b' hb => ?_
      have hqueue := hb.callbacks c
      generalize b.callbacks c = queue, b'.callbacks c = queue' at hqueue ⊢
      have hempty : queue'.isEmpty = queue.isEmpty := by cases hqueue <;> rfl
      simp only [hempty]
      refine .ite (.pure _) (.bind (.update fun b b' hb => ?_) fun _ => ?_)
      · exact hb.setCallbacks c .nil
      · exact (h.runCallbacks c hqueue).bind fun _ => ih (Nat.le_of_succ_le_succ hrounds)

/-- A settlement is reported and remembered in both runs. -/
theorem settleValues (c : Concern) :
    Action.Defers (settleValues lock c) (settleValues lock' c) := by
  refine read_bind fun _ => (Action.Defers.log _).bind fun _ => ?_
  refine (h.resolve c).bind fun _ => ?_
  exact read_bind fun _ => .remember _ _

/-- A concern is open in both runs or in neither. -/
theorem settleOpen (c : Concern) : Action.Defers (settleOpen lock c) (settleOpen lock' c) := by
  refine ask (fun _ _ _ _ => rfl) fun b => .ite (.pure _) ?_
  refine Action.Defers.bind (.amend ?_ ?_) fun _ => h.settleValues c
  · exact fun _ _ _ _ => rfl
  · exact fun _ => ⟨rfl, rfl, rfl⟩

end Locker.Defers

namespace Action

/-- A lock does in a world that defers values what it does in the other world, also with more
fuel. -/
theorem defers_lockWith {fuel fuel' : Nat} (hfuel : fuel ≤ fuel') :
    (lockWith fuel).Defers (lockWith fuel') := by
  induction fuel generalizing fuel' with
  | zero =>
      intro c id w w' hworld hhalt
      -- Without fuel a lock ends only where the concern is locked, and then it does nothing.
      rw [exec_lockWith_zero] at hhalt ⊢
      split at hhalt
      · have hlocked : (w'.builder id).locked c = true := by
          rw [(hworld.builder id).locked]
          assumption
        rw [if_pos ‹_›, idle_lockWith fuel' hlocked]
        exact ⟨rfl, hworld⟩
      · exact absurd rfl hhalt
  | succ fuel ih =>
      intro c
      obtain ⟨fuel', rfl⟩ := Nat.exists_eq_add_of_le' (Nat.one_le_of_lt hfuel)
      have hinner := ih (Nat.le_of_succ_le_succ hfuel)
      refine Defers.ask (fun _ _ _ _ => rfl) fun b => .ite (.pure _) ?_
      exact (hinner.drain c (Nat.le_of_succ_le_succ hfuel)).bind fun _ => hinner.settleOpen c

end Action

end PageQuery
