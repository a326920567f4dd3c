import PageQuery.Proofs.Draft.Locks
import PageQuery.Proofs.Page.Selection

/-!
# The cursor and the select list of a draft

A cursor holds the values of the order or the position of its row, which is counted with
the plan of the page.  So its lock comes across every concern but the select list; and what
it comes to is the same, whichever of them have been settled by then.
-/

namespace PageQuery

open Sql

namespace Draft

open PageQuery.Action

variable {d : Draft} {X Y : Progress} {id : BuilderId} {saved : List (String × Fragment)}

/-- The builder of a draft with everything settled. -/
def finished (d : Draft) : Builder := d.builder fun _ => .settled

theorem Sound.bounded (hsound : d.Sound X) {c : Concern}
    (hc : c ∈ [Concern.wheres, .offset, .limit, .first, .last])
    (hlocked : (X c).isLocked = true) : X .bounds = .settled := by
  by_contra hopen
  rw [hsound.unbounded hopen c hc] at hlocked
  cases hlocked

theorem source_builder (hsound : d.Sound X) : (d.builder X).source = some (d.table, d.rowAlias) := by
  simp [Draft.builder, hsound.source, Stage.isSettled]

/-- The filter is final once the wheres are settled. -/
theorem filterOf_builder (hsound : d.Sound X) (hwheres : X .wheres = .settled) (lower upper : Bool)
    (options : BuildOptions) :
    (d.builder X).filterOf lower upper options = d.finished.filterOf lower upper options := by
  have hbounds : X .bounds = .settled := hsound.bounded (by simp) (congrArg Stage.isLocked hwheres)
  have hguards : (d.builder X).guards options = d.finished.guards options := by
    rw [Builder.guards, Builder.tableAlias, source_builder hsound]
    rfl
  rw [Builder.filterOf, hguards]
  simp [Builder.filterOf, finished, Draft.builder, hwheres, hbounds]

theorem ends_whereClause (hsound : d.Sound X) (hcalm : X.Calm) (lower upper : Bool)
    (options : BuildOptions) (fuel : Nat) :
    Ends id saved (d.builder X) (whereClause (lockWith (fuel + 6)) lower upper options) d.Good
      fun filter b =>
        d.finished.filterOf lower upper options = .ok filter ∧ d.Reaches X [.wheres] b := by
  have hlock : Ends id saved (d.builder X) (lockWith (fuel + 6) .wheres) d.Good
      fun _ b => d.Reaches X [.wheres] b :=
    ends_lock hsound hcalm (by simp) (fun h => by cases h) fuel
  apply Ends.ahead (idle_lockWith _) rfl hlock
  · rintro _ ⟨Y, rfl, _, _, hsettled⟩
    exact locked_of_settled (hsettled _ (by simp))
  · rintro _ ⟨Y, rfl, hforward, hsound', hsettled⟩
    have hwheres : Y .wheres = .settled := hsettled _ (by simp)
    have hbounds : Y .bounds = .settled :=
      hsound'.bounded (by simp) (congrArg Stage.isLocked hwheres)
    have hsource : d.finished.source = some (d.table, d.rowAlias) := rfl
    obtain ⟨filter, hfilter⟩ := Builder.filterOf_ok hsource lower upper options
    have hturns : Turns id saved (d.builder Y)
        (whereClause (lockWith (fuel + 6)) lower upper options) filter (d.builder Y) := by
      intro w hb hsaved
      have hlocked : (w.builder id).locked = (d.builder Y).locked := by rw [hb]
      refine ⟨w, ?_, hb, hsaved, rfl⟩
      rw [exec_whereClause (idle_lockWith _) (by rw [hlocked]; exact locked_of_settled hbounds)
        (by rw [hlocked]; exact locked_of_settled hwheres), hb, filterOf_builder hsound' hwheres,
        hfilter]
      rfl
    exact Ends.of_turns hturns ⟨hfilter, Y, rfl, hforward, hsound', hsettled⟩

theorem turns_rowSource (hsound : d.Sound X) :
    Turns id saved (d.builder X) rowSource d.source (d.builder X) := by
  apply Turns.self_bind
  exact Turns.ofExcept (Builder.rowSource_ok (source_builder hsound))

/-- The rows that a plan skips, as the cursor counts them. -/
theorem ends_skip (hsound : d.Sound X) (hcalm : X.Calm) (plan : Plan) (fuel : Nat) :
    Ends id saved (d.builder X) (Action.skip (lockWith (fuel + 6)) plan {}) d.Good
      fun skip b => skip = d.skip plan ∧ d.Reaches X [] b := by
  have hnothing (skip : Skip) : Ends id saved (d.builder X) (pure skip) d.Good
      fun skip' b => skip' = skip ∧ d.Reaches X [] b :=
    Ends.of_turns (Turns.pure skip) ⟨rfl, X, rfl, .refl X, hsound, by simp⟩
  obtain ⟨limit, offset, flip, window⟩ := plan
  cases window with
  | none => exact hnothing _
  | some window =>
      cases limit with
      | none => exact hnothing _
      | some last =>
          apply Ends.behind (turns_rowSource hsound)
          apply Ends.bind (ends_whereClause hsound hcalm true true {} fuel)
          rintro filter _ ⟨hfilter, hreaches⟩
          cases hfilter
          exact Ends.of_turns (Turns.pure _) ⟨rfl, hreaches.forget⟩

/-- The plan comes of the concerns that it depends on. -/
theorem answers_pagePlan (hsound : d.Sound X) (hcalm : X.Calm) (fuel : Nat) :
    Answers id saved (d.builder X) (pagePlan (lockWith (fuel + 6))) d.Good
      fun plan b => plan = d.plan ∧ d.Reaches X [] b := by
  apply Answers.after (ends_locks (by simp) hsound hcalm fuel)
  rintro _ _ ⟨Y, rfl, hforward, hsound', hsettled⟩
  have hplan : Plan.make (d.builder Y).resolved.limit (d.builder Y).resolved.offset
      (d.builder Y).first (d.builder Y).last = d.plan := by
    simp [Draft.builder, hsettled .limit (by simp), hsettled .offset (by simp), Stage.isSettled, plan]
  apply Answers.self_bind
  rw [hplan]
  exact Answers.ofExcept ⟨rfl, Y, rfl, hforward, hsound', by simp⟩

/-- The position of each row, unless there is no plan. -/
theorem answers_position (hsound : d.Sound X) (hcalm : X.Calm) (fuel : Nat) :
    Answers id saved (d.builder X) (positionExpression (lockWith (fuel + 6))) d.Good
      fun expr b => expr = d.position ∧ d.Reaches X [] b := by
  apply Answers.bind (answers_pagePlan hsound hcalm fuel)
  · rintro e b ⟨hplan, hreaches⟩
    refine ⟨?_, hreaches⟩
    rw [position, ← hplan]
    rfl
  · rintro plan _ ⟨hplan, Y, rfl, hforward, hsound', _⟩
    cases hflip : plan.flip with
    | true =>
        apply Answers.behind (turns_rowSource hsound')
        apply Answers.after (ends_whereClause hsound' (hcalm.forward hforward) true true {} fuel)
        rintro filter _ ⟨hfilter, hreaches⟩
        cases hfilter
        have hposition : position d = .ok (.fromEnd d.source d.filter plan.offset) := by
          rw [position, ← hplan]
          exact if_pos hflip
        exact Answers.of_turns (Turns.pure _) ⟨hposition.symm, (hreaches.after hforward).forget⟩
    | false =>
        apply Answers.after (ends_skip hsound' (hcalm.forward hforward) plan fuel)
        rintro skip _ ⟨rfl, hreaches⟩
        have hposition : position d = .ok (.fromStart (d.skip plan)) := by
          rw [position, ← hplan]
          exact if_neg (by simp [hflip])
        exact Answers.of_turns (Turns.pure _) ⟨hposition.symm, hreaches.after hforward⟩

theorem ends_orderTerms (hsound : d.Sound X) (fuel : Nat) :
    Ends id saved (d.builder X) (orderTerms (lockWith (fuel + 3))) d.Good
      fun terms b => terms = d.order ∧ d.Reaches X [.order] b := by
  apply Ends.behind (turns_order hsound fuel)
  apply Ends.self_bind
  exact Ends.of_turns (Turns.pure _)
    ⟨rfl, _, rfl, hsound.forward_ordered, hsound.ordered, List.forall_mem_singleton.mpr rfl⟩

theorem ends_isOrderUnique (hsound : d.Sound X) (fuel : Nat) :
    Ends id saved (d.builder X) (isOrderUnique (lockWith (fuel + 3)) true) d.Good
      fun unique b => unique = d.isUnique ∧ d.Reaches X [.order] b := by
  change Ends id saved _ (lockWith (fuel + 3) .order >>= fun _ =>
    lockWith (fuel + 3) .uniqueness >>= fun _ => do return (← self).orderIsUnique) _ _
  apply Ends.behind (turns_order hsound fuel)
  apply Ends.behind (idle _ rfl)
  apply Ends.self_bind
  exact Ends.of_turns (Turns.pure _)
    ⟨rfl, _, rfl, hsound.forward_ordered, hsound.ordered, List.forall_mem_singleton.mpr rfl⟩

theorem ends_cursorTag (hsound : d.Sound X) (fuel : Nat) :
    Ends id saved (d.builder X) (cursorTag (lockWith (fuel + 2))) d.Good
      fun tag b => tag = d.tag ∧ d.Reaches X [.cursorTag] b := by
  apply Ends.behind (turns_cursorTag fuel)
  apply Ends.self_bind
  exact Ends.of_turns (Turns.pure _)
    ⟨rfl, _, rfl, hsound.cursorTag.set, hsound.cursorTagSettled, by simp⟩

/-- The cursor that fits the order. -/
theorem answers_cursorExpression (hsound : d.Sound X) (hcalm : X.Calm) (fuel : Nat) :
    Answers id saved (d.builder X) (cursorExpression (lockWith (fuel + 6))) d.Good
      fun expr b => expr = d.cursorExpr ∧ d.Reaches X [] b := by
  apply Answers.after (ends_orderTerms hsound (fuel + 3))
  rintro _ _ ⟨rfl, Y, rfl, hforward, hsound', _⟩
  have hposition (hkeyed : d.isKeyed = false) {Z : Progress} (hforward : X.Forward Z)
      (hsound : d.Sound Z) : Answers id saved (d.builder Z)
        (positionExpression (lockWith (fuel + 6))) d.Good
        fun expr b => expr = d.cursorExpr ∧ d.Reaches X [] b := by
    have hexpr : d.cursorExpr = d.position := by rw [cursorExpr, if_neg (by simp [hkeyed])]
    rw [hexpr]
    exact (answers_position hsound (hcalm.forward hforward) fuel).imp
      fun _ _ hend => ⟨hend.1, hend.2.after hforward⟩
  cases hempty : d.order.isEmpty with
  | true => exact hposition (by simp [isKeyed, hempty]) hforward hsound'
  | false =>
      simp only [Bool.false_eq_true, if_false]
      apply Answers.after (ends_isOrderUnique hsound' (fuel + 3))
      rintro _ _ ⟨rfl, Z, rfl, hforward', hsound'', _⟩
      cases hunique : d.isUnique with
      | false => exact hposition (by simp [isKeyed, hunique]) (hforward.trans hforward') hsound''
      | true =>
          have hkeyed : d.isKeyed = true := by simp [isKeyed, hempty, hunique]
          apply Answers.after (ends_cursorTag hsound'' (fuel + 4))
          rintro _ _ ⟨rfl, hreaches⟩
          refine Answers.of_turns (Turns.pure _) ⟨?_, (hreaches.after (hforward.trans hforward')).forget⟩
          rw [cursorExpr, if_pos hkeyed]

/-- The cursor of each row: none, a given one, or the one that fits the order. -/
theorem ends_cursorValue (hsound : d.Sound X) (hcalm : X.Calm) (fuel : Nat) :
    Ends id saved (d.builder X)
      (d.pendingCursor.mapM (resolveFragment (lockWith (fuel + 6)))) d.Good
      fun cursor b => cursor = d.cursorValue ∧ d.Planned ∧ d.Reaches X [] b := by
  have hstay : d.Reaches X [] (d.builder X) := ⟨X, rfl, .refl X, hsound, by simp⟩
  rcases hcursor : d.cursor with _ | _ | given
  · have hplanned : d.Planned := by simp [Planned, hcursor]
    simp only [pendingCursor, cursorValue, hcursor]
    exact Ends.of_turns (Turns.pure none) ⟨rfl, hplanned, hstay⟩
  · simp only [pendingCursor, cursorValue, hcursor]
    have hexpr : Ends id saved (d.builder X) (cursorExpression (lockWith (fuel + 6))) d.Good
        fun expr b => .ok expr = d.cursorExpr ∧ d.Reaches X [] b := by
      apply (answers_cursorExpression hsound hcalm fuel).ends
      · rintro e _ ⟨herror, _⟩ hgood
        obtain ⟨expr, hok⟩ := hgood.planned hcursor
        rw [hok] at herror
        cases herror
      · exact fun hgood => hgood
    have hfragment : Ends id saved (d.builder X)
        (resolveFragment (lockWith (fuel + 6)) (.lazy [] .cursorExpression)) d.Good
        fun f b => some f = d.cursorExpr.toOption.map CursorExpr.fragment ∧ d.Planned ∧
          d.Reaches X [] b := by
      apply Ends.behind (Turns.pure ())
      apply Ends.bind hexpr
      rintro expr b ⟨hexpr, hreaches⟩
      refine Ends.of_turns (Turns.pure _) ⟨?_, fun _ => ⟨expr, hexpr.symm⟩, hreaches⟩
      rw [← hexpr]
      rfl
    apply Ends.bind hfragment
    rintro f b ⟨hf, hend⟩
    exact Ends.of_turns (Turns.pure _) ⟨hf, hend⟩
  · have hplanned : d.Planned := by simp [Planned, hcursor]
    simp only [pendingCursor, cursorValue, hcursor]
    exact Ends.of_turns (Turns.pure (some given)) ⟨rfl, hplanned, hstay⟩

theorem ends_cursor (hsound : d.Sound X) (hcalm : X.Calm) (hfree : X.Free .cursor) (fuel : Nat) :
    Ends id saved (d.builder X) (lockWith (fuel + 7) .cursor) d.Good
      fun _ b => d.Reaches X [.cursor] b := by
  rcases hfree with hwaiting | hsettled
  · have hnone : (d.builder X).callbacks .cursor = [] := callbacks_idle (by decide)
    have hopen : (X .cursor).isLocked = false := by rw [hwaiting]; rfl
    have hpending : ((d.builder X).setLocked .cursor).pending.cursor = d.pendingCursor := by
      simp [Builder.setLocked, Draft.builder, hopen]
    have hlocked : d.Sound (X.set .cursor .locked) :=
      hsound.set .locked (by simp) (by simp) (by simp) (by simp) fun _ h => by cases h
    have hcalm' : (X.set .cursor .locked).Calm := by
      intro c hcursor hselect
      rw [Progress.Free, Progress.set_ne hcursor]
      exact hcalm c hcursor hselect
    have hdrain : Ends id saved (d.builder X) (drain (lockWith (fuel + 6)) .cursor (fuel + 6)) d.Good
        fun _ b => b = d.builder X := Ends.drain_nil (fuel + 5) hnone rfl
    apply Ends.lockWith hopen hdrain
    rintro _ rfl
    refine ⟨hopen, ?_⟩
    apply Ends.self_bind
    rw [hpending]
    apply Ends.behind (Turns.update _)
    change Ends id saved { (d.builder X).setLocked .cursor with
      pending := { (d.builder X).pending with cursor := none } } _ _ _
    rw [builder_cursor_locked hnone hopen]
    apply Ends.bind (ends_cursorValue hlocked hcalm' fuel)
    rintro _ _ ⟨rfl, hplanned, Y, rfl, hforward, hsound', _⟩
    have hbusy : Y .cursor = .locked := (hforward.busy (by simp)).trans Progress.set_same
    refine Ends.of_turns (Turns.update _)
      ⟨_, builder_cursor hbusy, hforward.finish hwaiting, ?_, by simp⟩
    exact hsound'.set .settled (by simp) (by simp) (by simp) (by simp) fun _ _ => hplanned
  · exact ends_settled hsound hsettled _

/-- The select list as it stands when the cursor has been added. -/
def Selected (d : Draft) (X : Progress) (b : Builder) : Prop :=
  ∃ Y, b = { d.builder Y with pending := { (d.builder Y).pending with
      selects := (d.builder Y).pending.selects ++
        (d.cursorValue.map fun f => ⟨.ready f, cursorAlias⟩).toList } } ∧
    X.Forward Y ∧ d.Sound Y

theorem ends_settleCursor (hsound : d.Sound X) (hcalm : X.Calm) (hfree : X.Free .cursor)
    (hselect : X .select = .drained) (fuel : Nat) :
    Ends id saved (d.builder X) (runCallback (lockWith (fuel + 7)) .settleCursor) d.Good
      fun _ b => d.Selected X b := by
  apply Ends.ahead (idle_lockWith _) rfl (ends_cursor hsound hcalm hfree fuel)
  · rintro _ ⟨Y, rfl, _, _, hsettled⟩
    exact locked_of_settled (hsettled _ (by simp))
  · rintro _ ⟨Y, rfl, hforward, hsound', hsettled⟩
    have hcursor : Y .cursor = .settled := hsettled _ (by simp)
    have hopen : (d.builder Y).locked .select = false :=
      open_of_drained ((hforward.busy (by rw [hselect]; simp)).trans hselect)
    have hresolved : (d.builder Y).resolved.cursor = d.cursorValue := by
      simp [Draft.builder, hcursor, Stage.isSettled]
    cases hvalue : d.cursorValue with
    | none =>
        rw [hvalue] at hresolved
        apply Ends.behind (idle _ hcursor)
        apply Ends.self_bind
        rw [hresolved]
        refine Ends.of_turns (Turns.pure _) ⟨Y, ?_, hforward, hsound'⟩
        simp [hvalue]
    | some f =>
        rw [hvalue] at hresolved
        refine Ends.of_turns (Turns.settleCursor (idle_lockWith _) (locked_of_settled hcursor)
          hresolved hopen) ⟨Y, ?_, hforward, hsound'⟩
        rw [hvalue]
        rfl

theorem comes_fields (scope : Scope) : List.Forall₂
    (fun (p : PendingField) (field : Field) => Comes scope p.expr field.expr ∧ p.name = field.name)
    ((d.selects.map fun field => ⟨.ready field.expr, field.name⟩) ++
      (d.cursorValue.map fun f => ⟨.ready f, cursorAlias⟩).toList)
    (d.selects ++ (d.cursorValue.map fun f => ⟨f, cursorAlias⟩).toList) := by
  apply List.rel_append
  · rw [List.forall₂_map_left_iff, List.forall₂_same]
    exact fun field _ => ⟨.ready field.expr, rfl⟩
  · cases d.cursorValue with
    | none => exact .nil
    | some f => exact .cons ⟨.ready f, rfl⟩ .nil

/-- The select list takes the cursor in as its last field. -/
theorem ends_select (hsound : d.Sound X) (hcalm : X.Calm) (hcursor : X.Free .cursor)
    (hfree : X.Free .select) (fuel : Nat) :
    Ends id saved (d.builder X) (lockWith (fuel + 8) .select) d.Good
      fun _ b => d.Reaches X [.select] b := by
  rcases hfree with hwaiting | hsettled
  · have htaken : d.Sound (X.set .select .drained) := hsound.taken (by simp)
    have hcalm' : (X.set .select .drained).Calm := by
      intro c hcursor hselect
      rw [Progress.Free, Progress.set_ne hselect]
      exact hcalm c hcursor hselect
    have hqueue : (d.builder X).callbacks .select = [.settleCursor] :=
      callbacks_waiting hwaiting (by simp)
    have hcalled : (d.builder X).setCallbacks .select [] = d.builder (X.set .select .drained) :=
      builder_drained hwaiting (by simp)
    have hround : Ends id saved ((d.builder X).setCallbacks .select [])
        (runCallbacks (lockWith (fuel + 7)) .select [.settleCursor]) d.Good
        fun _ b => d.Selected (X.set .select .drained) b := by
      rw [hcalled]
      exact Ends.runCallbacks_cons (ends_settleCursor htaken hcalm' hcursor rfl fuel)
        fun _ hselected => Ends.runCallbacks_nil hselected
    have hdrain : Ends id saved (d.builder X) (drain (lockWith (fuel + 7)) .select (fuel + 7)) d.Good
        fun _ b => d.Selected (X.set .select .drained) b := by
      apply Ends.drain_round (fuel + 6) hqueue (by simp) hround
      rintro _ ⟨Y, rfl, hforward, hsound'⟩
      have hbusy : Y .select ≠ .waiting := by rw [hforward.busy (by simp)]; simp
      exact Ends.drain_nil (fuel + 5) (callbacks_none hbusy (by simp)) ⟨Y, rfl, hforward, hsound'⟩
    apply Ends.lockWith (open_of_waiting hwaiting) hdrain
    rintro _ ⟨Y, rfl, hforward, hsound'⟩
    have hdrained : Y .select = .drained := (hforward.busy (by simp)).trans Progress.set_same
    refine ⟨open_of_drained (d := d) hdrained, ?_⟩
    have hpending : (d.builder Y).pending.selects =
        d.selects.map fun field => ⟨.ready field.expr, field.name⟩ := by
      simp [Draft.builder, hdrained, Stage.isSettled]
    have hsettled : d.Sound (Y.set .select .settled) :=
      hsound'.set .settled (by simp) (by simp) (by simp) (by simp) (by simp)
    have hend : d.Reaches X [.select] (d.builder (Y.set .select .settled)) :=
      ⟨_, rfl, hforward.finish hwaiting, hsettled, by simp⟩
    rw [← builder_select (callbacks_none (by simp [hdrained]) (by simp))] at hend
    rw [hpending]
    exact Ends.of_turns (Turns.resolve_select (comes_fields _)) hend
  · exact ends_settled hsound hsettled _

end Draft

end PageQuery
