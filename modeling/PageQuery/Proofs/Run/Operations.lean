import PageQuery.Proofs.Logic.Operations
import PageQuery.Proofs.Run.Preserve

/-!
# Operations keep what locks keep

An operation keeps a property that its locks keep, if the elementary changes keep it too: to
preserve the property is a logic of actions.  The operations that lock are given the lock, so
nothing here is about fuel.
-/

namespace PageQuery

open Sql

/-- That a concern of a builder is locked. -/
def World.Locked (id : BuilderId) (c : Concern) (w : World) : Prop :=
  id < w.nextBuilder ∧ (w.builder id).locked c = true

/-- A lock that leaves locked what is locked, and that locks its concern. -/
structure Locker.Lawful (lock : Locker) : Prop where
  idle : lock.Idle
  sound : ∀ (c : Concern) (id : BuilderId), Action.Preserves (fun _ => True) id (lock c)
  locks : ∀ {c : Concern} {id : BuilderId} {w w' : World}, id < w.nextBuilder →
    w.Closed → (lock c).exec id w = (.ok (), w') →
      w.Kept (World.Locked id c) w'
  keeps : ∀ (other : BuilderId) (d c : Concern) (id : BuilderId),
    Action.Preserves (World.Locked other d) id (lock c)

/-- A lock that keeps a property, which the elementary changes keep too. -/
structure Locker.Respects (P : World → Prop) (lock : Locker) : Prop extends
    Locker.Lawful lock where
  stable : World.Stable P
  lock : ∀ (c : Concern) (id : BuilderId), Action.Preserves P id (lock c)

namespace Action

variable {α β : Type} {P : World → Prop} {id : BuilderId} {lock : Locker}

/-- Concerns are locked one by one, and stay locked. -/
theorem kept_forM (hlawful : lock.Lawful) (concerns : List Concern) {w w' : World}
    (hlive : id < w.nextBuilder) (hclosed : w.Closed)
    (hrun : (concerns.forM lock).exec id w = (.ok (), w')) :
    w.Kept (fun w' => ∀ d, d ∈ concerns ∨ (w.builder id).locked d = true →
      (w'.builder id).locked d = true) w' := by
  induction concerns generalizing w with
  | nil =>
      cases hrun
      exact World.Kept.refl hclosed fun d hd => hd.resolve_left (by simp)
  | cons c rest ih =>
      obtain ⟨_, middle, hfirst, hrest⟩ := exec_bind_eq_ok hrun
      have hlocked := hlawful.locks hlive hclosed hfirst
      have hkept := ih (hlocked.live hlive) hlocked.closed hrest
      refine hlocked.trans ⟨fun d hd => hkept.holds d ?_, hkept.closed, hkept.grows⟩
      rcases hd with hmem | hbefore
      · rcases List.mem_cons.mp hmem with rfl | hmem
        · exact Or.inr hlocked.holds.2
        · exact Or.inl hmem
      · have hstill := (hlawful.keeps id d c id).kept hlive hclosed ⟨hlive, hbefore⟩ hfirst
        exact Or.inr hstill.holds.2

/-- When everything has been locked one after the other, everything is locked. -/
theorem kept_lockEverything (hlawful : lock.Lawful) {w w' : World}
    (hlive : id < w.nextBuilder) (hclosed : w.Closed)
    (hrun : (lockEverything lock).exec id w = (.ok (), w')) :
    w.Kept (fun w => ∀ d, (w.builder id).locked d = true) w' := by
  have hkept := kept_forM hlawful _ hlive hclosed hrun
  exact ⟨fun d => hkept.holds d (Or.inl (Concern.mem_lockOrder d)), hkept.closed,
    hkept.grows⟩

end Action

namespace Locker.Respects

open PageQuery.Action

variable {α : Type} {P : World → Prop} {id : BuilderId} {lock : Locker}
variable (h : lock.Respects P)

include h

/-- To log anything but a lock keeps the property. -/
theorem log {event : Event} (hother : event.lock? = none) : Preserves P id (log event) :=
  Preserves.of_evolves h.stable fun w _ =>
    World.Evolves.of_change (.report (w.events ++ [event]) w.journal
      (by simp [Event.locks_concat, hother]))

theorem record (entry : Entry) : Preserves P id (record entry) :=
  Preserves.of_evolves h.stable fun w _ =>
    World.Evolves.of_change (.report w.events (w.journal ++ [entry]) rfl)

theorem save (name : String) (f : Fragment) : Preserves P id (save name f) :=
  Preserves.of_evolves h.stable fun _ _ => World.Evolves.of_change (.save _)

theorem mintToken : Preserves P id mintToken :=
  Preserves.of_evolves h.stable fun _ _ => World.Evolves.of_change .mint

/-- A change that locks nothing keeps the property. -/
theorem change {action : Action α}
    (hevolves : ∀ w : World, id < w.nextBuilder → w.Evolves (action.exec id w).2) :
    Preserves P id action :=
  Preserves.of_evolves h.stable hevolves

/-- A registration is a change of the world. -/
theorem register (call : Call) : Preserves P id call.action := by
  apply h.change
  intro w hlive
  cases call with
  | select expr name => exact evolves_select hlive expr name
  | selectIdentifiers primaryKey => exact evolves_selectIdentifiers hlive primaryKey
  | selectCursor expr => exact evolves_selectCursor hlive expr
  | join clause => exact evolves_join hlive clause
  | filter expr => exact evolves_filter hlive expr
  | bound condition isLower => exact evolves_bound hlive condition isLower
  | orderBy expr ascending nulls => exact evolves_orderBy hlive expr ascending nulls
  | setOrderUnique => exact evolves_setOrderUnique hlive
  | limit count => exact evolves_limit hlive count
  | offset count => exact evolves_offset hlive count
  | first count => exact evolves_first hlive count
  | last count => exact evolves_last hlive count
  | setCursorTag tag => exact evolves_setCursorTag hlive tag
  | addCursorCondition cursor isAfter => exact evolves_addCursorCondition hlive cursor isAfter
  | beforeLock c callback => exact evolves_beforeLock hlive c callback

/-- A row source is registered, and then its concern is locked. -/
theorem source (table : Fragment) (rowAlias : Option Node) :
    Preserves P id (source lock table rowAlias) := by
  have hregister : Preserves P id (registerSource table rowAlias) :=
    h.change fun _ hlive => evolves_registerSource hlive table rowAlias
  exact hregister.bind fun _ => h.lock .source id

/-- By the time a statement is remembered the wheres are locked, and the statement holds them
as they are settled. -/
theorem builtStatement {options : BuildOptions}
    (hplanned : Preserves P id (plannedStatement lock options)) :
    Preserves P id (builtStatement lock options) := by
  intro w hlive hclosed hholds hhalt
  rcases hrun : (plannedStatement lock options).exec id w with ⟨halt | s, w'⟩
  · have hkept := hplanned hlive hclosed hholds
    rw [Action.builtStatement, exec_bind_error hrun] at hhalt ⊢
    rw [hrun] at hkept
    exact hkept hhalt.error
  · have hkept := hplanned.kept hlive hclosed hholds hrun
    obtain ⟨page, w₁, hplan, hstatement⟩ := exec_bind_eq_ok hrun
    obtain ⟨_, w₂, heverything, hpage⟩ := exec_bind_eq_ok hplan
    have hlocked := (kept_lockEverything h.toLawful hlive hclosed heverything).holds
    rw [exec_pagePlan h.idle hlocked] at hpage
    obtain ⟨-, rfl⟩ := outcome_eq_ok hpage
    rw [exec_statement h.idle hlocked] at hstatement
    obtain ⟨hsettled, rfl⟩ := outcome_eq_ok hstatement
    have hbuilt : w₂.Change { w₂ with history := w₂.history ++ [.built id s] } :=
      .built s (hkept.live hlive) (hlocked .wheres) (Builder.wheres_of_statementOf hsettled)
    rw [Action.builtStatement, exec_bind_ok hrun]
    exact hkept.trans (h.stable.kept (.of_change hbuilt) hkept.closed hkept.holds)

/-- The child of a builder has been given out when the builder gets to know it. -/
theorem addChild_kept (name : String) (table : Fragment) (rowAlias : Option Node)
    {w : World} (hlive : id < w.nextBuilder) (hclosed : w.Closed) (hholds : P w)
    (hhalt : Completes ((addChild lock name table rowAlias).exec id w).1) :
    w.Kept P ((addChild lock name table rowAlias).exec id w).2 ∧
      ∀ child, ((addChild lock name table rowAlias).exec id w).1 = .ok child →
        child < ((addChild lock name table rowAlias).exec id w).2.nextBuilder := by
  rcases exec_addChild_cases lock name table rowAlias id w with
    ⟨e, hrun, -⟩ | ⟨tableAlias, -, -, hrun⟩
  · rw [hrun]
    exact ⟨World.Kept.refl hclosed hholds, fun child hchild => nomatch hchild⟩
  have hspawned : w.Kept P
      (w.spawned (.fresh (w.builder id).options (some ⟨id, tableAlias⟩))) := by
    have hspawn : w.Change _ := .spawn (w.builder id).options (some ⟨id, tableAlias⟩) <| by
      rintro ref ⟨⟩
      exact hlive
    exact h.stable.kept (.of_change hspawn) hclosed hholds
  have hsource := h.source table rowAlias (Nat.lt_succ_self _) hspawned.closed hspawned.holds
  rw [hrun] at hhalt ⊢
  rcases hthere : (Action.source lock table rowAlias).exec w.nextBuilder (w.spawned _) with
    ⟨halt | _, w'⟩
  · rw [hthere] at hhalt hsource
    exact ⟨hspawned.trans (hsource hhalt.error), fun child hchild => nomatch hchild⟩
  · rw [hthere] at hsource
    have hkept := hspawned.trans (hsource (by simp))
    have hchild : w.nextBuilder < w'.nextBuilder := (hsource (by simp)).grows
    have hreport : w'.Change
        { w' with events := w'.events ++ [.childAdded id w.nextBuilder name] } :=
      .report _ _ (by simp [Event.locks_concat, Event.lock?])
    have hknown := World.Change.child name w.nextBuilder
      (w := { w' with events := w'.events ++ [.childAdded id w.nextBuilder name] })
      (hkept.live hlive) hchild
    have hevolves := (World.Evolves.of_change hreport).tail hknown
    refine ⟨hkept.trans (h.stable.kept hevolves hkept.closed hkept.holds), ?_⟩
    intro child hresult
    cases hresult
    exact hchild

/-- A child is made in a change of the world, and its source is locked on the child. -/
theorem addChild (name : String) (table : Fragment) (rowAlias : Option Node) :
    Preserves P id (addChild lock name table rowAlias) := by
  intro w hlive hclosed hholds hhalt
  exact (h.addChild_kept name table rowAlias hlive hclosed hholds hhalt).1

/-- The field of the child is a change of the world on the child. -/
theorem addChildSelecting (name : String) (table : Fragment) (rowAlias : Option Node)
    (expr : Fragment) (exprName : String) :
    Preserves P id (addChildSelecting lock name table rowAlias expr exprName) := by
  intro w hlive hclosed hholds hhalt
  have hadd := h.addChild_kept name table rowAlias hlive hclosed hholds
  rcases hrun : (Action.addChild lock name table rowAlias).exec id w with ⟨halt | child, w'⟩
  · rw [hrun] at hadd
    rw [Action.addChildSelecting, exec_bind_error hrun] at hhalt ⊢
    exact (hadd hhalt.error).1
  · rw [hrun] at hadd
    obtain ⟨hkept, hchild⟩ := hadd (by simp)
    have hselect : Preserves P child (select (.ready expr) exprName) :=
      Preserves.of_evolves h.stable fun _ hlive => evolves_select hlive _ _
    have hrest : Preserves P child
        (select (.ready expr) exprName >>= fun _ => pure child) :=
      hselect.bind fun _ => Preserves.pure _
    rw [Action.addChildSelecting, exec_bind_ok hrun] at hhalt ⊢
    exact hkept.trans (hrest (hchild child rfl) hkept.closed hkept.holds hhalt)

/-- Actions that keep the property, with the lock. -/
def logic : Logic where
  toFrame := .plain
  Holds _ id _ {_} [_] f _ := Preserves P id (f lock)
  le _ := .refl _
  op_mono {_ _} _ {_ _} h := h
  pure _ := Preserves.pure _
  refuse := Preserves.refuse
  mono _ h := h
  bind {n _ _ _ _ _ _ _ _ _ _ _} hf hg :=
    hf.bind fun a => hg n a a (Nat.le_refl n) (.refl Variation.whole_none a)
  attempt h := h.attempt
  lock c := h.lock c _
  inspect {n _ _ _ _ _ _} hg :=
    Preserves.self.bind fun b => hg n b b (Nat.le_refl n) (.refl Variation.whole_none b)
  identify hg := Preserves.read_bind (hg _)
  descend name hf := Preserves.follow hf [name]
  childAnswer _ := Preserves.self.bind fun _ => (Preserves.ofExcept _).bind fun _ =>
    Preserves.get.bind fun _ => Preserves.pure _
  evaluate _ := Preserves.evaluate _
  evaluateNode _ := Preserves.evaluateNode _
  log hother := h.log hother
  record _ _ _ _ _ := h.record _
  save name f _ _ := h.save name f
  mintToken {_ _} := h.mintToken
  builtStatement := h.builtStatement
  register {_ _ call _} _ := h.register call
  registerSource {_ _ table _} _ {rowAlias _} _ _ :=
    h.change fun _ hlive => evolves_registerSource hlive table rowAlias
  registerComparator {_ _ comparator _} _ :=
    h.change fun _ hlive => evolves_registerComparator hlive comparator
  addChild name table _ _ rowAlias _ _ _ := h.addChild name table rowAlias
  addChildSelecting name table _ _ rowAlias _ _ _ expr _ _ exprName :=
    h.addChildSelecting name table rowAlias expr exprName
  op_cases {_ o o'} hop := by
    obtain rfl : o = o' := hop
    exact .inl (Frame.reflexive_plain.like o)

/-- All locks together keep what each of them keeps. -/
theorem lockEverything : Preserves P id (lockEverything lock) :=
  h.logic.lockEverything (n := 0)

/-- The calls that set up a connection keep what registrations and locks keep. -/
theorem setUpConnection (setup : ConnectionSetup) (args : ConnectionArgs) :
    Preserves P id (setUpConnection lock setup args) :=
  h.logic.setUpConnection (n := 0) setup rfl (.refl (fun cursors _ => .refl cursors) _)

theorem whereClause (lower upper : Bool) (options : BuildOptions) :
    Preserves P id (whereClause lock lower upper options) :=
  h.logic.whereClause (n := 0) lower upper options

theorem cursorExpression : Preserves P id (cursorExpression lock) :=
  h.logic.cursorExpression (n := 0)

theorem totalOffset : Preserves P id (totalOffset lock) := h.logic.totalOffset (n := 0)

/-- A step keeps what registrations and locks keep. -/
theorem performStep (s : Step) : Preserves P id (performStep lock s) :=
  h.logic.performStep (n := 0) ⟨rfl, rfl, rfl, rfl⟩

/-- A script keeps what its steps keep. -/
theorem runSteps (steps : List Step) : Preserves P id (runSteps lock steps) :=
  h.logic.runSteps (n := 0) (Frame.reflexive_plain.script steps)

/-! Values and callbacks -/

/-- To settle a fragment is to run its script and to evaluate. -/
theorem resolveFragment (value : DeferredFragment) :
    Preserves P id (resolveFragment lock value) := by
  cases value with
  | ready f => exact Preserves.pure f
  | lazy steps value =>
      cases value with
      | expr expr => exact (h.runSteps steps).bind fun _ => Preserves.evaluate expr
      | cursorExpression =>
          exact (h.runSteps steps).bind fun _ => h.cursorExpression.bind fun _ =>
            Preserves.pure _

/-- To settle a count is to run its script and perhaps to ask for the offsets. -/
theorem resolveCount (value : DeferredCount) : Preserves P id (resolveCount lock value) := by
  cases value with
  | ready n => exact Preserves.pure n
  | lazy steps value =>
      apply (h.runSteps steps).bind
      intro _
      cases value with
      | fixed n => exact Preserves.pure n
      | aboveOffset n => exact h.totalOffset.bind fun _ => Preserves.pure _
      | beforePosition position => exact h.totalOffset.bind fun _ => Preserves.pure _

theorem resolveTerm (term : PendingTerm) : Preserves P id (resolveTerm lock term) :=
  (h.resolveFragment _).bind fun _ => Preserves.pure _

theorem resolveOffsets (total : Nat) (values : List DeferredCount) :
    Preserves P id (resolveOffsets lock total values) := by
  induction values generalizing total with
  | nil => exact Preserves.pure total
  | cons n rest ih => exact (h.resolveCount n).bind fun _ => ih _

theorem resolveFields (done : List Field) (fields : List PendingField) :
    Preserves P id (resolveFields lock done fields) := by
  induction fields generalizing done with
  | nil => exact Preserves.pure done
  | cons field rest ih => exact (h.resolveFragment _).bind fun _ => ih _

theorem applyComparator (cursor : List Json) (isAfter : Bool) (comparator : Comparator) :
    Preserves P id (applyComparator lock cursor isAfter comparator) := by
  cases comparator with
  | kind kind => exact h.logic.compareWith (n := 0) kind cursor isAfter
  | custom steps => exact (h.record _).bind fun _ => h.runSteps steps

/-- A callback runs a script, or registers and locks. -/
theorem runCallback (callback : Callback) : Preserves P id (runCallback lock callback) := by
  cases callback with
  | script steps => exact h.runSteps steps
  | settleBounds => exact h.lock .bounds id
  | settleCursor =>
      apply (h.lock .cursor id).bind
      intro _
      apply Preserves.self.bind
      intro b
      exact Preserves.forM_option _ fun _ => h.change fun _ hlive => evolves_select hlive _ _
  | cursorCondition cursor isAfter =>
      apply (h.lock .comparator id).bind
      intro _
      apply Preserves.self.bind
      intro b
      cases b.resolved.comparator with
      | none => exact Preserves.refuse _
      | some comparator => exact h.applyComparator cursor isAfter comparator
  | breakTies primaryKey => exact h.logic.breakTies (n := 0) primaryKey
  | refuseLastFromEnd =>
      exact Preserves.self.bind fun _ => Preserves.ite (Preserves.refuse _) (Preserves.pure _)

end Locker.Respects

end PageQuery
