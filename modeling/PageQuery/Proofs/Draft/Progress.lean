import PageQuery.Proofs.Draft.Basic
import PageQuery.Proofs.Run.Ends

/-!
# The progress of a draft

Concerns are settled one after the other and stay so.  `Sound` is what holds between any two
locks: some concerns wait for others, and what has been settled was not refused.  The joins,
the tag of cursors and the order lock whatever else has been settled by then.
-/

namespace PageQuery

open Sql

namespace Progress

variable {X Y Z : Progress} {c e : Concern}

/-- The concern is not being locked. -/
def Free (X : Progress) (c : Concern) : Prop := X c = .waiting ∨ X c = .settled

/-- Some concerns have been settled, and nothing else has happened. -/
def Forward (X Y : Progress) : Prop := ∀ c, Y c = X c ∨ X c = .waiting ∧ Y c = .settled

theorem Forward.refl (X : Progress) : X.Forward X := fun _ => .inl rfl

theorem Forward.trans (hfirst : X.Forward Y) (hsecond : Y.Forward Z) : X.Forward Z := by
  intro c
  rcases hfirst c with hsame | ⟨hwaiting, hsettled⟩
  · rw [← hsame]
    exact hsecond c
  · rcases hsecond c with hsame | ⟨hwaiting', _⟩
    · exact .inr ⟨hwaiting, hsame.trans hsettled⟩
    · rw [hsettled] at hwaiting'
      cases hwaiting'

/-- What is settled stays settled. -/
theorem Forward.settled (hforward : X.Forward Y) (hc : X c = .settled) : Y c = .settled := by
  rcases hforward c with hsame | ⟨_, hsettled⟩
  · exact hsame.trans hc
  · exact hsettled

theorem Forward.free (hforward : X.Forward Y) (hc : X.Free c) : Y.Free c := by
  rcases hforward c with hsame | ⟨_, hsettled⟩
  · exact hc.imp hsame.trans hsame.trans
  · exact .inr hsettled

/-- What is under way is not touched from inside. -/
theorem Forward.busy (hforward : X.Forward Y) (hc : X c ≠ .waiting) : Y c = X c := by
  rcases hforward c with hsame | ⟨hwaiting, _⟩
  · exact hsame
  · exact absurd hwaiting hc

/-- A concern that is free may be settled. -/
theorem Free.set (hc : X.Free c) : X.Forward (X.set c .settled) := by
  intro e
  by_cases he : e = c
  · subst he
    rw [set_same]
    exact hc.elim (fun hwaiting => .inr ⟨hwaiting, rfl⟩) fun hsettled => .inl hsettled.symm
  · exact .inl (set_ne he)

/-- A concern that waited has been drained, and is settled in the end. -/
theorem Forward.finish {stage : Stage} (hwaiting : X c = .waiting)
    (hforward : (X.set c stage).Forward Y) : X.Forward (Y.set c .settled) := by
  intro e
  by_cases he : e = c
  · subst he
    exact .inr ⟨hwaiting, set_same⟩
  · rw [set_ne he]
    have h := hforward e
    rwa [set_ne he] at h

theorem Forward.set (hforward : X.Forward Y) (c : Concern) (stage : Stage) :
    (X.set c stage).Forward (Y.set c stage) := by
  intro e
  by_cases he : e = c
  · subst he
    exact .inl (set_same.trans set_same.symm)
  · rw [set_ne he, set_ne he]
    exact hforward e

theorem set_self {stage : Stage} (hc : X c = stage) : X.set c stage = X := by
  funext e
  by_cases he : e = c
  · rw [he, set_same, hc]
  · exact set_ne he

/-- The order and its uniqueness have been settled. -/
def ordered (X : Progress) : Progress := (X.set .order .settled).set .uniqueness .settled

theorem ordered_ne (horder : c ≠ .order) (huniqueness : c ≠ .uniqueness) : X.ordered c = X c := by
  rw [ordered, set_ne huniqueness, set_ne horder]

end Progress

namespace Draft

/-- Every cursor can be used. -/
def Readable (d : Draft) : Prop :=
  (∀ cursor ∈ d.after, (d.effect? true cursor).isSome) ∧
    ∀ cursor ∈ d.before, (d.effect? false cursor).isSome

/-- `last` is not taken from the end of all rows behind a position. -/
def Guarded (d : Draft) : Prop :=
  d.guards ≠ [] → ¬(d.last.isSome ∧ d.first.isNone ∧ d.limit.isNone ∧ d.cut?.isNone)

/-- The cursor of each row can be built if it has to be. -/
def Planned (d : Draft) : Prop := d.cursor = some none → ∃ e, d.cursorExpr = .ok e

/-- Nothing that the locks of a draft come across is refused. -/
structure Good (d : Draft) : Prop where
  readable : d.Readable
  guarded : d.Guarded
  planned : d.Planned

/-- What holds of the progress of a draft whenever a lock begins or ends. -/
structure Sound (d : Draft) (X : Progress) : Prop where
  source : X .source = .settled
  comparator : X .comparator = .settled
  joins : X.Free .joins
  order : X.Free .order
  uniqueness : X .uniqueness = X .order
  cursorTag : X.Free .cursorTag
  unbounded : X .bounds ≠ .settled →
    ∀ c ∈ [Concern.wheres, .offset, .limit, .first, .last], (X c).isLocked = false
  readable : X .bounds = .settled → d.Readable
  guarded : X .last = .settled → d.Guarded
  planned : X .cursor = .settled → d.Planned

/-- The builder is that of the draft, with more concerns settled, the given ones among
them. -/
def Reaches (d : Draft) (X : Progress) (concerns : List Concern) (b : Builder) : Prop :=
  ∃ Y, b = d.builder Y ∧ X.Forward Y ∧ d.Sound Y ∧ ∀ c ∈ concerns, Y c = .settled

variable {d : Draft} {X Y : Progress} {c : Concern} {id : BuilderId}
  {saved : List (String × Fragment)}

theorem Reaches.after {concerns : List Concern} {b : Builder} (hreaches : d.Reaches Y concerns b)
    (hforward : X.Forward Y) : d.Reaches X concerns b := by
  obtain ⟨Z, rfl, hforward', hsound, hsettled⟩ := hreaches
  exact ⟨Z, rfl, hforward.trans hforward', hsound, hsettled⟩

theorem Reaches.forget {concerns : List Concern} {b : Builder} (hreaches : d.Reaches X concerns b) :
    d.Reaches X [] b := by
  obtain ⟨Y, rfl, hforward, hsound, _⟩ := hreaches
  exact ⟨Y, rfl, hforward, hsound, by simp⟩

/-- A concern that is settled is locked. -/
theorem locked_of_settled (hc : X c = .settled) : (d.builder X).locked c = true :=
  congrArg Stage.isLocked hc

theorem open_of_waiting (hc : X c = .waiting) : (d.builder X).locked c = false :=
  congrArg Stage.isLocked hc

/-- A concern is open while its callbacks run. -/
theorem open_of_drained (hc : X c = .drained) : (d.builder X).locked c = false :=
  congrArg Stage.isLocked hc

theorem callbacks_none (hc : X c ≠ .waiting) (hlast : c ≠ .last) : d.callbacks X c = [] := by
  have hwaiting : (X c).isWaiting = false := by cases h : X c <;> simp_all [Stage.isWaiting]
  simp [callbacks, hwaiting, hlast]

/-- A concern that waits has its whole queue. -/
theorem callbacks_waiting (hc : X c = .waiting) (hlast : c ≠ .last) :
    d.callbacks X c = d.queue (X .comparator).isSettled c := by
  simp [callbacks, hc, Stage.isWaiting, hlast]

theorem callbacks_idle (hc : c ∈ [Concern.joins, .uniqueness, .cursorTag, .cursor]) :
    d.callbacks X c = [] := by
  simp only [List.mem_cons, List.not_mem_nil, or_false] at hc
  obtain rfl | rfl | rfl | rfl := hc <;> simp [callbacks, queue, Builder.initialCallbacks]

namespace Sound

variable (hsound : d.Sound X)

include hsound

/-- A concern behind the order goes on. -/
theorem set (stage : Stage)
    (hc : c ∉ [Concern.source, .comparator, .joins, .order, .uniqueness, .cursorTag])
    (hbounds : c = .bounds → X .bounds ≠ .settled ∧ (stage = .settled → d.Readable))
    (hbehind : c ∈ [Concern.wheres, .offset, .limit, .first, .last] → stage.isLocked = true →
      X .bounds = .settled)
    (hlast : c = .last → stage = .settled → d.Guarded)
    (hcursor : c = .cursor → stage = .settled → d.Planned) : d.Sound (X.set c stage) := by
  simp only [List.mem_cons, List.not_mem_nil, or_false, not_or] at hc
  obtain ⟨hsource, hcomparator, hjoins, horder, huniqueness, htag⟩ := hc
  have hsame {e : Concern} (he : c ≠ e) : X.set c stage e = X e := Progress.set_ne (Ne.symm he)
  refine ⟨?_, ?_, ?_, ?_, ?_, ?_, fun hunsettled e he => ?_, fun hsettled => ?_,
    fun hsettled => ?_, fun hsettled => ?_⟩
  · exact (hsame hsource).trans hsound.source
  · exact (hsame hcomparator).trans hsound.comparator
  · exact (Or.imp (hsame hjoins).trans (hsame hjoins).trans) hsound.joins
  · exact (Or.imp (hsame horder).trans (hsame horder).trans) hsound.order
  · rw [hsame huniqueness, hsame horder, hsound.uniqueness]
  · exact (Or.imp (hsame htag).trans (hsame htag).trans) hsound.cursorTag
  · have hopen : X .bounds ≠ .settled := by
      by_cases hcb : c = .bounds
      · exact (hbounds hcb).1
      · rwa [hsame hcb] at hunsettled
    by_cases hec : e = c
    · subst hec
      rw [Progress.set_same]
      exact Bool.eq_false_iff.mpr fun hlocked => hopen (hbehind he hlocked)
    · rw [Progress.set_ne hec]
      exact hsound.unbounded hopen e he
  · by_cases hcb : c = .bounds
    · subst hcb
      rw [Progress.set_same] at hsettled
      exact (hbounds rfl).2 hsettled
    · exact hsound.readable ((hsame hcb).symm.trans hsettled)
  · by_cases hcl : c = .last
    · subst hcl
      rw [Progress.set_same] at hsettled
      exact hlast rfl hsettled
    · exact hsound.guarded ((hsame hcl).symm.trans hsettled)
  · by_cases hcc : c = .cursor
    · subst hcc
      rw [Progress.set_same] at hsettled
      exact hcursor rfl hsettled
    · exact hsound.planned ((hsame hcc).symm.trans hsettled)

theorem unbounded_of_same {Y : Progress}
    (hsame : ∀ e ∈ [Concern.bounds, .wheres, .offset, .limit, .first, .last], Y e = X e)
    (hbounds : Y .bounds ≠ .settled) (e : Concern)
    (he : e ∈ [Concern.wheres, .offset, .limit, .first, .last]) : (Y e).isLocked = false := by
  rw [hsame .bounds (by simp)] at hbounds
  rw [hsame e (List.mem_cons_of_mem _ he)]
  exact hsound.unbounded hbounds e he

theorem joinsSettled : d.Sound (X.set .joins .settled) :=
  { hsound with
    joins := .inr rfl
    unbounded := hsound.unbounded_of_same fun e he => Progress.set_ne fun h => by simp [h] at he }

theorem cursorTagSettled : d.Sound (X.set .cursorTag .settled) :=
  { hsound with
    cursorTag := .inr rfl
    unbounded := hsound.unbounded_of_same fun e he => Progress.set_ne fun h => by simp [h] at he }

theorem ordered : d.Sound X.ordered :=
  { hsound with
    order := .inr rfl
    uniqueness := rfl
    unbounded := hsound.unbounded_of_same fun e he =>
      Progress.ordered_ne (fun h => by simp [h] at he) fun h => by simp [h] at he }

/-- The order and its uniqueness come about together. -/
theorem forward_ordered : X.Forward X.ordered := by
  have huniqueness : (X.set .order .settled).Free .uniqueness := by
    have h := hsound.order
    rwa [Progress.Free, ← hsound.uniqueness] at h
  exact hsound.order.set.trans huniqueness.set

theorem ordered_self (hsettled : X .order = .settled) : X.ordered = X := by
  rw [Progress.ordered, Progress.set_self hsettled,
    Progress.set_self (hsound.uniqueness.trans hsettled)]

end Sound

/-! Locks that nothing stands in the way of. -/

open PageQuery.Action

/-- The joins settle without asking for anything. -/
theorem turns_joins (fuel : Nat) :
    Turns id saved (d.builder X) (lockWith (fuel + 2) .joins) ()
      (d.builder (X.set .joins .settled)) := by
  rw [← builder_joins (callbacks_idle (by decide))]
  exact Turns.lock_either fuel (callbacks_idle (by decide)) fun _ => rfl

theorem turns_uniqueness (fuel : Nat) :
    Turns id saved (d.builder X) (lockWith (fuel + 2) .uniqueness) ()
      (d.builder (X.set .uniqueness .settled)) := by
  rw [← builder_uniqueness (callbacks_idle (by decide))]
  exact Turns.lock_either fuel (callbacks_idle (by decide)) fun _ => rfl

theorem turns_cursorTag (fuel : Nat) :
    Turns id saved (d.builder X) (lockWith (fuel + 2) .cursorTag) ()
      (d.builder (X.set .cursorTag .settled)) := by
  rw [← builder_cursorTag (callbacks_idle (by decide))]
  exact Turns.lock_either fuel (callbacks_idle (by decide)) fun _ => rfl

/-- What is settled may be locked again. -/
theorem idle (fuel : Nat) (hc : X c = .settled) :
    Turns id saved (d.builder X) (lockWith fuel c) () (d.builder X) :=
  Turns.idle (idle_lockWith fuel) (locked_of_settled hc)

/-- Ready terms come to themselves. -/
theorem comes_terms {scope : Scope} (terms : List OrderTerm) :
    List.Forall₂ (fun (p : PendingTerm) (term : OrderTerm) => Comes scope p.expr term.expr ∧
        p.ascending = term.ascending ∧ p.nulls = term.nulls)
      (terms.map fun term => ⟨.ready term.expr, term.ascending, term.nulls⟩) terms := by
  rw [List.forall₂_map_left_iff, List.forall₂_same]
  exact fun term _ => ⟨.ready term.expr, rfl, rfl⟩

theorem pendingTerms (hwaiting : X .order = .waiting) :
    (d.builder X).pending.orderTerms =
      d.terms.map fun term => ⟨.ready term.expr, term.ascending, term.nulls⟩ := by
  simp [Draft.builder, hwaiting, Stage.isSettled]

/-- Without a primary key, the order consists of its terms. -/
theorem turns_order_keyless (hwaiting : X .order = .waiting) (hkey : d.primaryKey = [])
    (fuel : Nat) :
    Turns id saved (d.builder X) (lockWith (fuel + 3) .order) () (d.builder X.ordered) := by
  have hnone : (d.builder X).callbacks .order = [] := by
    simp [Draft.builder, callbacks_waiting hwaiting, queue, hkey]
  have horder : d.order = d.terms := by simp [order, keyTerms, hkey]
  have hcomes : List.Forall₂ (fun p term =>
      Comes (((d.builder X).setLocked .order).scope saved) p.expr term.expr ∧
        p.ascending = term.ascending ∧ p.nulls = term.nulls)
      (d.builder X).pending.orderTerms d.order := by
    rw [pendingTerms hwaiting, horder]
    exact comes_terms d.terms
  apply Turns.lock_plain (fuel + 1) (open_of_waiting hwaiting) hnone
  apply Turns.resolve_order hcomes
  change Turns id saved { (d.builder X).setLocked .order with
    pending := { (d.builder X).pending with orderTerms := [] }
    resolved := { (d.builder X).resolved with orderTerms := d.order } } _ () _
  rw [builder_order hnone hkey]
  exact turns_uniqueness fuel

/-- A primary key breaks ties, unless the order is unique without it. -/
theorem turns_order_keyed (hsound : d.Sound X) (hwaiting : X .order = .waiting)
    (hkey : d.primaryKey ≠ []) (fuel : Nat) :
    Turns id saved (d.builder X) (lockWith (fuel + 3) .order) () (d.builder X.ordered) := by
  have hconnected : (X .comparator).isSettled = true := congrArg Stage.isSettled hsound.comparator
  have hopen : (d.builder X).locked .order = false := open_of_waiting hwaiting
  have huniqueness : (d.builder X).locked .uniqueness = false :=
    open_of_waiting (hsound.uniqueness.trans hwaiting)
  have hone : (d.builder X).callbacks .order = [.breakTies d.primaryKey] := by
    simp [Draft.builder, callbacks_waiting hwaiting, queue, hconnected, hkey]
  have hunique : (d.builder X).orderIsUnique = d.unique := by
    simp [Draft.builder, hwaiting, Stage.isSettled]
  have hsource : (d.builder X).tableAlias = .ok d.rowAlias := by
    simp [Builder.tableAlias, Draft.builder, hsound.source, Stage.isSettled]
  have hdrained : (d.builder X).setCallbacks .order [] = d.builder (X.set .order .drained) :=
    builder_drained hwaiting (by simp)
  apply Turns.lock_behind fuel hopen hone
    (Turns.breakTies d.primaryKey hsource hopen huniqueness) rfl hopen
  apply Turns.resolve_order
  · change List.Forall₂ _ ((d.builder X).pending.orderTerms ++
      if (d.builder X).orderIsUnique then [] else keyFields d.rowAlias d.primaryKey) _
    rw [pendingTerms hwaiting, hunique]
    exact Turns.comes_tiesBroken (comes_terms d.terms) d.unique d.rowAlias d.primaryKey
  · change Turns id saved
      { (((d.builder X).setCallbacks .order []).tiesBroken d.rowAlias d.primaryKey).setLocked
          .order with
        pending := { (d.builder X).pending with orderTerms := [] }
        resolved := { (d.builder X).resolved with orderTerms := d.order } } _ () _
    rw [hdrained, builder_tiesBroken hkey]
    exact turns_uniqueness fuel

/-- The order locks, with its tie breaker if there is a primary key. -/
theorem turns_order (hsound : d.Sound X) (fuel : Nat) :
    Turns id saved (d.builder X) (lockWith (fuel + 3) .order) () (d.builder X.ordered) := by
  rcases hsound.order with hwaiting | hsettled
  · by_cases hkey : d.primaryKey = []
    · exact turns_order_keyless hwaiting hkey fuel
    · exact turns_order_keyed hsound hwaiting hkey fuel
  · rw [hsound.ordered_self hsettled]
    exact idle _ hsettled

end Draft

end PageQuery
