import PageQuery.Proofs.Alias.Operations
import PageQuery.Proofs.Run.Session

/-!
# Runs give out the aliases that they use

A lock runs the callbacks of its concern and then settles its values, and both come from the
builder.  So by induction on the fuel every lock keeps to the alias tokens that have been given
out.  Main statement: behind any steps, if their scripts keep to these tokens, all the tokens in
the world are below the next one.
-/

namespace PageQuery

open Sql

namespace Locker.Confines

open PageQuery.Action

variable {N : Nat} {id : BuilderId} {lock : Locker} (h : lock.Confines)

include h

/-! Values -/

/-- A lazy fragment shows the tokens in it, or those in the cursors of the order. -/
theorem resolveFragment {expr : DeferredFragment} (hexpr : Taken N expr) :
    Confined N id (resolveFragment lock expr) := by
  cases expr with
  | ready f =>
      have hf : Taken N f := hexpr
      exact Confined.pure hf.alike
  | lazy steps value =>
      obtain ⟨hsteps, hvalue⟩ := List.forall_mem_append.mp hexpr
      have hrun : Confined N id (Action.runSteps lock steps) := h.runSteps hsteps
      cases value with
      | expr expr => exact hrun.andThen fun _ => Confined.evaluate hvalue
      | cursorExpression =>
          have hcursor : Confined N id (Action.cursorExpression lock) := h.logic.cursorExpression
          refine hrun.andThen fun _ => hcursor.bind fun M cursor _ hcursor => ?_
          exact Confined.pure hcursor.cursorFragment

/-- A count has no tokens; its script may have. -/
theorem resolveCount {n : DeferredCount} (hn : Taken N n) :
    Confined N id (resolveCount lock n) := by
  cases n with
  | ready n => exact Confined.pure (.of_plain n)
  | lazy steps value =>
      obtain ⟨hsteps, -⟩ := List.forall_mem_append.mp hn
      have hoffset : Confined N id (Action.totalOffset lock) := h.logic.totalOffset
      refine (h.runSteps hsteps).andThen fun _ => ?_
      cases value with
      | fixed n => exact Confined.pure (.of_plain _)
      | aboveOffset n | beforePosition position =>
          exact hoffset.andThen fun _ => Confined.pure (.of_plain _)

/-- A term has the tokens of its expression. -/
theorem resolveTerm {term : PendingTerm} (hterm : Taken N term) :
    Confined N id (resolveTerm lock term) := by
  have hexpr : Taken N term.expr := hterm
  refine (h.resolveFragment hexpr).bind fun M f _ hf => ?_
  exact Confined.pure ⟨hf, rfl, .of_plain _⟩

/-- Offsets add up to a number. -/
theorem resolveOffsets (total : Nat) {offsets : List DeferredCount} (hoffsets : Taken N offsets) :
    Confined N id (resolveOffsets lock total offsets) := by
  induction offsets generalizing total with
  | nil => exact Confined.pure (.of_plain _)
  | cons n rest ih =>
      rw [Taken.cons_iff] at hoffsets
      exact (h.resolveCount hoffsets.1).andThen fun count => ih _ hoffsets.2

/-- A field that replaces another one leaves the tokens of the others where they are. -/
theorem resolveFields {done : List Field} (hdone : Taken N done) {fields : List PendingField}
    (hfields : Taken N fields) : Confined N id (resolveFields lock done fields) := by
  induction fields generalizing N done with
  | nil => exact Confined.pure hdone.alike
  | cons field rest ih =>
      rw [Taken.cons_iff] at hfields
      have hfield : Taken N field.expr := hfields.1
      refine (h.resolveFragment hfield).bind fun M expr hle hexpr => ?_
      have hfield : Taken M (⟨expr, field.name⟩ : Field) := hexpr.taken
      exact ih (((hdone.mono hle).filter _).concat hfield) (hfields.2.mono hle)

omit h in
/-- What waits is rewritten without new tokens. -/
theorem updatePending {change : Pending → Pending}
    (hchange : ∀ M p, N ≤ M → p.Within M → (change p).Within M) :
    Confined N id (updatePending change) :=
  Confined.update fun _ _ hle hb => { hb with pending := hchange _ _ hle hb.pending }

omit h in
/-- What is settled is rewritten without new tokens. -/
theorem updateResolved {change : Resolved → Resolved}
    (hchange : ∀ M r, N ≤ M → r.Within M → (change r).Within M) :
    Confined N id (updateResolved change) :=
  Confined.update fun _ _ hle hb => { hb with resolved := hchange _ _ hle hb.resolved }

/-- The terms of an order are settled in their order. -/
theorem resolveOrder : Confined N id (resolveOrder lock) := by
  refine Confined.self_bind fun M b _ hb => ?_
  refine Confined.andThen (updatePending fun _ _ _ hp => { hp with orderTerms := .nil }) fun _ => ?_
  refine (Confined.mapM hb.pending.orderTerms fun _ _ => h.resolveTerm).bind
    fun _ _ _ hterms => ?_
  exact updateResolved fun _ _ hle hr => { hr with orderTerms := hterms.taken.mono hle }

/-- The values of a concern are taken out, evaluated and put in place. -/
theorem resolve (c : Concern) : Confined N id (resolve lock c) := by
  cases c with
  | source | joins | uniqueness | cursorTag | bounds | first | last =>
      exact Confined.pure (.of_plain _)
  | order => exact h.resolveOrder.andThen fun _ => h.lock N .uniqueness id
  | comparator =>
      refine Confined.self_bind fun M b _ hb => ?_
      have hcomparator : Taken M (b.pending.comparator.getD (.kind .row)) := by
        have hpending := hb.pending.comparator
        generalize b.pending.comparator = comparator at hpending
        cases comparator with
        | none => exact .of_tokens_eq_nil rfl
        | some comparator => exact Taken.some_iff.mp hpending
      refine Confined.andThen (updatePending fun _ _ _ hp => { hp with comparator := .none })
        fun _ => ?_
      exact updateResolved fun _ _ hle hr =>
        { hr with comparator := Taken.some_iff.mpr (hcomparator.mono hle) }
  | wheres =>
      refine Confined.self_bind fun M b _ hb => ?_
      refine Confined.andThen (updatePending fun _ _ _ hp => { hp with wheres := .nil }) fun _ => ?_
      refine (Confined.mapM hb.pending.wheres fun _ _ => h.resolveFragment).bind
        fun _ _ _ hwheres => ?_
      exact updateResolved fun _ _ hle hr => { hr with wheres := hwheres.taken.mono hle }
  | offset =>
      refine Confined.self_bind fun M b _ hb => ?_
      refine Confined.andThen (updatePending fun _ _ _ hp => { hp with offsets := .nil })
        fun _ => ?_
      exact (h.resolveOffsets 0 hb.pending.offsets).andThen fun _ =>
        updateResolved fun _ _ _ hr => { hr with }
  | limit =>
      refine Confined.self_bind fun M b _ hb => ?_
      refine Confined.andThen (updatePending fun _ _ _ hp => { hp with limit := .none }) fun _ => ?_
      exact (Confined.mapM_option hb.pending.limit fun _ => h.resolveCount).andThen fun _ =>
        updateResolved fun _ _ _ hr => { hr with }
  | cursor =>
      refine Confined.self_bind fun M b _ hb => ?_
      refine Confined.andThen (updatePending fun _ _ _ hp => { hp with cursor := .none })
        fun _ => ?_
      refine (Confined.mapM_option hb.pending.cursor fun _ => h.resolveFragment).bind
        fun _ _ _ hcursor => ?_
      exact updateResolved fun _ _ hle hr => { hr with cursor := hcursor.taken.mono hle }
  | select =>
      refine Confined.self_bind fun M b _ hb => ?_
      refine Confined.andThen (updatePending fun _ _ _ hp => { hp with selects := .nil })
        fun _ => ?_
      refine (h.resolveFields .nil hb.pending.selects).bind fun _ _ _ hselects => ?_
      exact updateResolved fun _ _ hle hr => { hr with selects := hselects.taken.mono hle }

theorem settleValues (c : Concern) : Confined N id (settleValues lock c) := by
  refine Confined.read_bind ((Confined.log _).andThen fun _ => ?_)
  refine (h.resolve c).andThen fun _ => ?_
  exact Confined.read_bind (Confined.remember _)

theorem settleOpen (c : Concern) : Confined N id (settleOpen lock c) := by
  refine Confined.self_bind fun M b _ _ => Confined.ite (Confined.pure (.of_plain _)) ?_
  refine Confined.andThen (Confined.update fun _ _ _ hb => { hb with }) fun _ => ?_
  exact h.settleValues c

/-! Callbacks -/

theorem applyComparator (cursor : List Json) (isAfter : Bool) {comparator : Comparator}
    (hcomparator : Taken N comparator) :
    Confined N id (applyComparator lock cursor isAfter comparator) := by
  cases comparator with
  | kind kind => exact h.logic.compareWith kind cursor isAfter
  | custom steps => exact (Confined.record _).andThen fun _ => h.runSteps hcomparator

/-- A callback runs its script or asks for locks. -/
theorem runCallback {callback : Callback} (hcallback : Taken N callback) :
    Confined N id (runCallback lock callback) := by
  cases callback with
  | script steps => exact h.runSteps hcallback
  | settleBounds => exact h.lock N .bounds id
  | settleCursor =>
      refine (h.lock N .cursor id).then_self fun M b _ hb => ?_
      apply Confined.forM_option hb.resolved.cursor
      intro cursor hcursor
      exact Confined.select hcursor cursorAlias
  | cursorCondition cursor isAfter =>
      refine (h.lock N .comparator id).then_self fun M b _ hb => ?_
      have hcomparator := hb.resolved.comparator
      generalize b.resolved.comparator = comparator at hcomparator
      cases comparator with
      | none => exact Confined.refuse _
      | some comparator => exact h.applyComparator cursor isAfter (Taken.some_iff.mp hcomparator)
  | breakTies primaryKey => exact h.logic.breakTies primaryKey
  | refuseLastFromEnd =>
      exact Confined.self_bind fun _ _ _ _ =>
        Confined.ite (Confined.refuse _) (Confined.pure (.of_plain _))

omit h in
/-- A queue may be replaced by one whose tokens are taken. -/
theorem setCallbacks {b : Builder} (hb : b.Within N) (c : Concern) {queue : List Callback}
    (hqueue : Taken N queue) : (b.setCallbacks c queue).Within N :=
  { hb with callbacks := fun d => Taken.ite hqueue (hb.callbacks d) }

/-- Callbacks behind a refused one are queued again, with the tokens that they have. -/
theorem runCallbacks (c : Concern) {queue : List Callback} (hqueue : Taken N queue) :
    Confined N id (runCallbacks lock c queue) := by
  induction queue with
  | nil => exact Confined.pure (.of_plain _)
  | cons callback rest ih =>
      rw [Taken.cons_iff] at hqueue
      refine (h.runCallback hqueue.1).attempt.andThen fun outcome => ?_
      cases outcome with
      | ok _ => exact ih hqueue.2
      | error e =>
          refine Confined.andThen (Confined.update fun M b hle hb => ?_) fun _ => ?_
          · have hwaiting := Taken.append_iff.mpr ⟨hqueue.2.mono hle, hb.callbacks c⟩
            exact setCallbacks hb c hwaiting
          · exact Confined.read_bind ((Confined.remember _).andThen fun _ => Confined.refuse e)

/-- Rounds of callbacks until the queue is empty. -/
theorem drain (c : Concern) (rounds : Nat) : Confined N id (drain lock c rounds) := by
  induction rounds generalizing N with
  | zero => exact Confined.exhaust
  | succ rounds ih =>
      refine Confined.self_bind fun M b _ hb => Confined.ite (Confined.pure (.of_plain _)) ?_
      refine Confined.andThen (Confined.update fun _ _ _ hb => setCallbacks hb c .nil) fun _ => ?_
      exact (h.runCallbacks c (hb.callbacks c)).andThen fun _ => ih

end Locker.Confines

namespace Action

/-- Every lock keeps to the tokens that have been given out. -/
theorem confines_lockWith (fuel : Nat) : (lockWith fuel).Confines := by
  induction fuel with
  | zero =>
      refine ⟨fun N c id => Confined.self_bind fun M b _ _ => ?_⟩
      exact Confined.ite (Confined.pure (.of_plain _)) Confined.exhaust
  | succ fuel ih =>
      refine ⟨fun N c id => Confined.self_bind fun M b _ _ => ?_⟩
      refine Confined.ite (Confined.pure (.of_plain _)) ?_
      exact (ih.drain c fuel).andThen fun _ => ih.settleOpen c

end Action

namespace World

open PageQuery.Action

variable {w : World}

/-- In the beginning there is nothing that could show a token. -/
theorem minted_start (options : Options) (tokens : Nat) : (start options tokens).Minted where
  builder id := by
    rw [builder_start]
    exact Builder.within_fresh _ .none
  saved := .nil

/-- It does not matter for tokens whether a step reports. -/
theorem Minted.quiet (h : w.Minted) : w.quiet.Minted := ⟨h.builder, h.saved⟩

/-- A step that keeps to the tokens that have been given out leaves it so. -/
theorem Minted.step (h : w.Minted) {s : Step} (hs : Taken w.nextToken s) :
    w.nextToken ≤ (w.step s).2.nextToken ∧ (w.step s).2.Minted := by
  have hconfined : Confined w.nextToken root (performStep (lockWith (w.budget s)) s) :=
    (confines_lockWith (w.budget s)).performStep hs
  obtain ⟨hgrows, hafter, -⟩ := hconfined (w := w.quiet) (Nat.le_refl _) h.quiet
  rw [step_world]
  exact ⟨hgrows, hafter⟩

/-- Tokens that are in no script are fresh in the whole world, also behind the scripts. -/
theorem Minted.after (h : w.Minted) {steps : List Step} (hsteps : Taken w.nextToken steps) :
    w.nextToken ≤ (w.after steps).nextToken ∧ (w.after steps).Minted := by
  induction steps generalizing w with
  | nil => exact ⟨Nat.le_refl _, h⟩
  | cons s rest ih =>
      rw [Taken.cons_iff] at hsteps
      obtain ⟨hgrows, hstep⟩ := h.step hsteps.1
      obtain ⟨hgrows', hafter⟩ := ih hstep (hsteps.2.mono hgrows)
      exact ⟨Nat.le_trans hgrows hgrows', hafter⟩

end World

end PageQuery
