import PageQuery.Proofs.Run.Locking
import PageQuery.Proofs.Work.Operations

/-!
# Locks that end

To lock a concern takes work out of a world: each round of callbacks is done once, and the
concern is open no longer when its values are settled.  So the locks inside have less work
before them than the lock around them.  Main statement: with a little more fuel than there is
work in the world, no lock runs out of it.
-/

namespace PageQuery

open Sql

namespace Locker.Serves

open PageQuery.Action
open PageQuery.Action.Costs (self)

variable {heaviest room : Nat} {id : BuilderId} {lock : Locker} (h : lock.Serves heaviest room)

include h

/-! Values -/

/-- A lazy fragment costs its script. -/
theorem resolveFragment {value : DeferredFragment} (hvalue : value.SetsOnly (Affordable heaviest)) :
    Costs heaviest room (value.work heaviest) id (resolveFragment lock value) := by
  cases value with
  | ready f => exact .pure f
  | lazy steps source =>
      have hsteps : Costs heaviest room (1 + scriptWork heaviest steps) id
          (Action.runSteps lock steps) := (h.runSteps hvalue).mono (Nat.le_add_left _ 1)
      cases source with
      | expr expr => exact hsteps.then_free fun _ => .evaluate expr
      | cursorExpression =>
          refine hsteps.then_free fun _ => ?_
          exact h.cursorExpression.bind_free fun _ => .pure _

/-- A lazy count costs its script. -/
theorem resolveCount {value : DeferredCount} (hvalue : value.SetsOnly (Affordable heaviest)) :
    Costs heaviest room (value.work heaviest) id (resolveCount lock value) := by
  cases value with
  | ready n => exact .pure n
  | lazy steps source =>
      have hsteps : Costs heaviest room (1 + scriptWork heaviest steps) id
          (Action.runSteps lock steps) := (h.runSteps hvalue).mono (Nat.le_add_left _ 1)
      refine hsteps.then_free fun _ => ?_
      cases source with
      | fixed n => exact .pure n
      | aboveOffset n => exact h.totalOffset.bind_free fun _ => .pure _
      | beforePosition position => exact h.totalOffset.bind_free fun _ => .pure _

theorem resolveTerm {term : PendingTerm} (hterm : term.expr.SetsOnly (Affordable heaviest)) :
    Costs heaviest room (term.expr.work heaviest) id (resolveTerm lock term) :=
  (h.resolveFragment hterm).then_free fun _ => .pure _

/-- Offsets are paid for one by one. -/
theorem resolveOffsets (total : Nat) {values : List DeferredCount}
    (hvalues : ∀ value ∈ values, value.SetsOnly (Affordable heaviest)) :
    Costs heaviest room (totalWeight (values.map (Deferred.work heaviest))) id
      (resolveOffsets lock total values) := by
  induction values generalizing total with
  | nil => exact .pure total
  | cons value rest ih =>
      obtain ⟨hvalue, hrest⟩ := List.forall_mem_cons.mp hvalues
      exact (h.resolveCount hvalue).bind fun _ => ih _ hrest

/-- Fields are paid for one by one. -/
theorem resolveFields (done : List Field) {fields : List PendingField}
    (hfields : ∀ field ∈ fields, field.expr.SetsOnly (Affordable heaviest)) :
    Costs heaviest room (totalWeight (fields.map fun field => field.expr.work heaviest)) id
      (resolveFields lock done fields) := by
  induction fields generalizing done with
  | nil => exact .pure done
  | cons field rest ih =>
      obtain ⟨hfield, hrest⟩ := List.forall_mem_cons.mp hfields
      exact (h.resolveFragment hfield).bind fun _ => ih _ hrest

omit h in
/-- Values other than the comparator are no work once they are settled. -/
theorem updateResolved {change : Resolved → Resolved}
    (hkeeps : ∀ r, (change r).comparator = r.comparator) :
    Costs heaviest room 0 id (updateResolved change) :=
  .update (.of_same fun b => ⟨rfl, rfl, rfl, hkeeps b.resolved, rfl⟩)

omit h in
/-- Values that are taken out of a builder pay for the scripts that give them. -/
theorem settles {α : Type} (change : Pending → Pending) (part : Pending → Nat)
    {value : Builder → Action α} {settle : α → Resolved → Resolved}
    (hsets : ∀ p, p.SetsOnly (Affordable heaviest) → (change p).SetsOnly (Affordable heaviest))
    (hwork : ∀ p, (change p).work heaviest + part p ≤ p.work heaviest)
    (hvalue : ∀ b, b.SetsOnly (Affordable heaviest) →
      Costs heaviest room (part b.pending) id (value b))
    (hkeeps : ∀ a r, (settle a r).comparator = r.comparator) :
    Costs heaviest room 0 id (do
      let b ← Action.self
      updatePending change
      let a ← value b
      Action.updateResolved (settle a)) :=
  .take change part hsets hwork fun b hb =>
    (hvalue b hb).then_free fun a => updateResolved (hkeeps a)

/-- What waits is taken out first, and pays for the scripts that give its values. -/
theorem resolve (c : Concern) : Costs heaviest room 0 id (resolve lock c) := by
  cases c with
  | source | joins | uniqueness | cursorTag | bounds | first | last => exact .pure _
  | order =>
      refine Costs.bind_free ?_ fun _ => h .uniqueness id
      refine settles (fun p => { p with orderTerms := [] })
        (fun p => totalWeight (p.orderTerms.map fun term => term.expr.work heaviest))
        ?_ ?_ ?_ fun _ _ => rfl
      · exact fun _ hp => { hp with orderTerms := List.forall_mem_nil _ }
      · intro p
        simp only [Pending.work, Pending.sum, List.map_nil, totalWeight_nil]
        omega
      · intro b hb
        exact .mapM _ fun term hterm => h.resolveTerm (hb.pending.orderTerms term hterm)
  | comparator =>
      refine .take (fun p => { p with comparator := none }) (fun _ => 0)
        (fun _ hp => { hp with comparator := by simp }) (fun p => Nat.le_refl _) fun b hb => ?_
      refine .update ⟨fun hb' => { hb' with comparator := ?_ }, fun _ => rfl, fun b' => ?_⟩
      · rintro _ ⟨⟩
        cases hset : b.pending.comparator with
        | none => trivial
        | some comparator => exact hb.pending.comparator comparator hset
      · exact Nat.le_add_right_of_le (Builder.work_of_same (b := b') rfl rfl rfl).le
  | wheres =>
      refine settles (fun p => { p with wheres := [] })
        (fun p => totalWeight (p.wheres.map (Deferred.work heaviest))) ?_ ?_ ?_ fun _ _ => rfl
      · exact fun _ hp => { hp with wheres := List.forall_mem_nil _ }
      · intro p
        simp only [Pending.work, Pending.sum, List.map_nil, totalWeight_nil]
        omega
      · intro b hb
        exact .mapM _ fun expr hexpr => h.resolveFragment (hb.pending.wheres expr hexpr)
  | offset =>
      refine settles (fun p => { p with offsets := [] })
        (fun p => totalWeight (p.offsets.map (Deferred.work heaviest))) ?_ ?_ ?_ fun _ _ => rfl
      · exact fun _ hp => { hp with offsets := List.forall_mem_nil _ }
      · intro p
        simp only [Pending.work, Pending.sum, List.map_nil, totalWeight_nil]
        omega
      · exact fun b hb => h.resolveOffsets 0 hb.pending.offsets
  | limit =>
      refine settles (fun p => { p with limit := none })
        (fun p => totalWeight (p.limit.toList.map (Deferred.work heaviest))) ?_ ?_ ?_
        fun _ _ => rfl
      · exact fun _ hp => { hp with limit := by simp }
      · intro p
        simp only [Pending.work, Pending.sum, Option.toList_none, List.map_nil, totalWeight_nil]
        omega
      · intro b hb
        exact .mapM_option _ fun n hn => h.resolveCount (hb.pending.limit n hn)
  | cursor =>
      refine settles (fun p => { p with cursor := none })
        (fun p => totalWeight (p.cursor.toList.map (Deferred.work heaviest))) ?_ ?_ ?_
        fun _ _ => rfl
      · exact fun _ hp => { hp with cursor := by simp }
      · intro p
        simp only [Pending.work, Pending.sum, Option.toList_none, List.map_nil, totalWeight_nil]
        omega
      · intro b hb
        exact .mapM_option _ fun expr hexpr => h.resolveFragment (hb.pending.cursor expr hexpr)
  | select =>
      refine settles (fun p => { p with selects := [] })
        (fun p => totalWeight (p.selects.map fun field => field.expr.work heaviest))
        ?_ ?_ ?_ fun _ _ => rfl
      · exact fun _ hp => { hp with selects := List.forall_mem_nil _ }
      · intro p
        simp only [Pending.work, Pending.sum, List.map_nil, totalWeight_nil]
        omega
      · exact fun b hb => h.resolveFields [] hb.pending.selects

/-- A settlement costs nothing beyond the work that was there. -/
theorem settleValues (c : Concern) : Costs heaviest room 0 id (settleValues lock c) := by
  refine Costs.read.bind_free fun _ => (Costs.log _).bind_free fun _ => ?_
  refine (h.resolve c).bind_free fun _ => ?_
  exact Costs.read.bind_free fun _ => .remember _

/-! Callbacks -/

/-- A comparator leaves behind less than the cursor condition that it is called for. -/
theorem applyComparator (cursor : List Json) (isAfter : Bool) {comparator : Comparator}
    (hcomparator : comparator.SetsOnly (Affordable heaviest)) :
    Costs heaviest room (conditionWeight heaviest - 1) id
      (applyComparator lock cursor isAfter comparator) := by
  cases comparator with
  | kind kind =>
      have hcompare : Costs heaviest room 1 id (Action.compareWith lock kind cursor isAfter) :=
        h.logic.compareWith (n := 0) kind cursor isAfter
      exact hcompare.mono (Nat.le_add_left 1 (heaviest + 1))
  | custom steps =>
      have hle : scriptWork heaviest steps ≤ heaviest + 2 := Nat.le_add_right_of_le hcomparator.1
      exact ((Costs.record _).bind_free fun _ => h.runSteps hcomparator.2).mono hle

/-- A callback leaves behind less than the work that it was. -/
theorem runCallback {callback : Callback} (hcallback : callback.SetsOnly (Affordable heaviest)) :
    Costs heaviest room (callback.work heaviest - 1) id (runCallback lock callback) := by
  cases callback with
  | script steps => exact (h.runSteps hcallback).mono (Nat.add_sub_cancel_left 1 _).ge
  | settleBounds => exact h .bounds id
  | settleCursor =>
      refine (h .cursor id).bind_free fun _ => self.bind_free fun b => ?_
      apply Costs.mono (Costs.forM_option b.resolved.cursor ?_) (Nat.mul_zero _).le
      intro cursor
      exact .select (.ready cursor) trivial cursorAlias
  | cursorCondition cursor isAfter =>
      refine (h .comparator id).bind_free fun _ => .inspect fun b hb => ?_
      cases hcomparator : b.resolved.comparator with
      | none => exact (Costs.refuse _).mono (Nat.zero_le _)
      | some comparator =>
          exact h.applyComparator cursor isAfter (hb.comparator comparator hcomparator)
  | breakTies primaryKey => exact h.logic.breakTies (n := 0) primaryKey
  | refuseLastFromEnd => exact self.bind_free fun _ => .ite (.refuse _) (.pure _)

/-- Callbacks leave behind less than they are, also where those behind a refused one are
registered again. -/
theorem runCallbacks (c : Concern) {queue : List Callback}
    (hqueue : ∀ callback ∈ queue, callback.SetsOnly (Affordable heaviest)) :
    Costs heaviest room (queueWork heaviest queue - 1) id (runCallbacks lock c queue) := by
  induction queue with
  | nil => exact .pure _
  | cons callback rest ih =>
      obtain ⟨hcallback, hrest⟩ := List.forall_mem_cons.mp hqueue
      have hwork : callback.work heaviest - 1 + queueWork heaviest rest =
          queueWork heaviest (callback :: rest) - 1 :=
        (Nat.sub_add_comm callback.work_pos).symm
      refine Costs.mono ((h.runCallback hcallback).attempt.bind fun outcome => ?_) hwork.le
      cases outcome with
      | ok _ => exact (ih hrest).mono (Nat.sub_le _ _)
      | error e =>
          refine Costs.then_free (.update ⟨fun {b} hb => ?_, fun _ => rfl, fun b => ?_⟩) fun _ => ?_
          · have hwaiting := List.forall_mem_append.mpr ⟨hrest, hb.callbacks c⟩
            exact Builder.setsOnly_setCallbacks hb hwaiting
          · have hput := b.work_setCallbacks heaviest c (rest ++ b.callbacks c)
            simp only [queueWork, List.map_append, totalWeight_append] at hput ⊢
            omega
          · refine Costs.read.bind_free fun _ => ?_
            exact (Costs.remember _).bind_free fun _ => .refuse e

/-! Locks -/

/-- A round takes all callbacks, of which there is one at least, out of the work. -/
theorem drain (c : Concern) {bound rounds : Nat} (hbound : bound ≤ room + 1)
    (hrounds : bound < rounds) : Costs heaviest bound 0 id (drain lock c rounds) := by
  induction rounds generalizing bound with
  | zero => cases hrounds
  | succ rounds ih =>
      intro w hlive hfits hwork
      by_cases hsome : (w.builder id).callbacks c = []
      · rw [exec_drain_nil _ rounds hsome]
        exact ⟨nofun, .refl hfits⟩
      · rw [exec_drain_succ _ rounds hsome]
        have hb := hfits.affordable id
        have hqueue := queueWork_pos heaviest hsome
        have hstored := World.work_builder_le heaviest (hfits.stored id hlive)
        have hput := (w.builder id).work_setCallbacks heaviest c []
        rw [queueWork_nil, Nat.add_zero] at hput
        -- The locks in the callbacks have room, since the callbacks themselves are taken out.
        have hround : Costs heaviest (bound - 1)
            (queueWork heaviest ((w.builder id).callbacks c) - 1) id (do
              Action.runCallbacks lock c ((w.builder id).callbacks c)
              Action.drain lock c rounds) := by
          refine Costs.then_free (.within_room (h.runCallbacks c (hb.callbacks c)) ?_) fun _ =>
            ih ?_ ?_
          all_goals omega
        exact hround.paid hlive hfits (Builder.setsOnly_setCallbacks hb nofun) rfl hput.le
          (Nat.sub_le _ 1) (by omega)

/-- An open concern is work until it is locked. -/
theorem settleOpen (c : Concern) : Costs heaviest (room + 1) 0 id (settleOpen lock c) := by
  intro w hlive hfits hwork
  rw [exec_settleOpen]
  cases hlocked : (w.builder id).locked c with
  | true => exact ⟨nofun, .refl hfits⟩
  | false =>
      rw [if_neg Bool.false_ne_true, exec_settle]
      exact (h.settleValues c).paid hlive hfits (Builder.setsOnly_setLocked (hfits.affordable id))
        rfl (Builder.work_setLocked heaviest hlocked).le (Nat.zero_le 1) hwork

end Locker.Serves

namespace Action

/-- With a little more fuel than there is work in the world, a lock serves. -/
theorem serves_lockWith (heaviest : Nat) {room fuel : Nat} (hfuel : room + 2 ≤ fuel) :
    (lockWith fuel).Serves heaviest room := by
  induction room generalizing fuel with
  | zero =>
      intro c id w hlive hfits hwork
      have hlocked : (w.builder id).locked c = true := by
        -- An open concern would be work.
        by_contra hopen
        have hpos := Builder.work_pos heaviest (Bool.eq_false_of_not_eq_true hopen)
        have hall := World.work_builder_le heaviest (hfits.stored id hlive)
        omega
      rw [idle_lockWith fuel hlocked]
      exact ⟨nofun, .refl hfits⟩
  | succ room ih =>
      obtain ⟨fuel, rfl⟩ := Nat.exists_eq_add_of_le' (Nat.one_le_of_lt hfuel)
      have hinner : (lockWith fuel).Serves heaviest room := ih (by omega)
      intro c id
      refine Costs.self.bind_free fun _ => .ite (.pure _) ?_
      exact (hinner.drain c (Nat.le_refl _) (by omega)).bind fun _ => hinner.settleOpen c

end Action

end PageQuery
