import PageQuery.Proofs.Filter.Conjunction
import PageQuery.Proofs.Filter.Retention
import PageQuery.Proofs.Lock.Dependency
import PageQuery.Proofs.Lock.Frozen
import PageQuery.Proofs.Run.Finalized
import PageQuery.Proofs.Run.Path

/-!
# Where clauses of a run

A where clause is put together when the wheres are locked.  Main statement: it asks for the
guards, for the value of every filter that has been accepted, in the order of acceptance, and
for the bounds of the wanted sides.  That holds unless something has failed before: filters
whose values were never settled are missing, and if the callback that locks the bounds before
the wheres was refused, the bounds may still be open.
-/

namespace PageQuery

open Sql

/-- The values that filters came to when the wheres of builder `i` were settled: they were
resolved one after the other, and nothing was accepted any more. -/
def Valuation.resolved (i : BuilderId) : Valuation := fun history filters values =>
  ∃ (fuel : Nat) (w w' : World), w.Settling i filters ∧
    (filters.mapM (Action.resolveFragment (Action.lockWith fuel))).exec i w = (.ok values, w') ∧
    w'.history ++ [.settled i .wheres] <+: history

theorem Valuation.sound_resolved (i : BuilderId) : (Valuation.resolved i).Sound i where
  concat := by
    rintro history filters values m ⟨fuel, w, w', hsettling, hrun, hprefix⟩
    exact ⟨fuel, w, w', hsettling, hrun, hprefix.trans (List.prefix_append _ _)⟩
  comes fuel w w' _ _ hsettling hrun := ⟨fuel, w, w', hsettling, hrun, List.prefix_rfl⟩

namespace Action

open World

variable {id : BuilderId} {w w' : World} {lock : Locker} {asked : Filter}
  {lower upper : Bool} {options : BuildOptions}

theorem stable_remembers (m : Moment) : Stable fun w => m ∈ w.history :=
  fun _ _ hchange hmem => hchange.history.mem hmem

/-- Nothing that has happened is forgotten. -/
theorem respects_remembers (m : Moment) (fuel : Nat) :
    (lockWith fuel).Respects fun w => m ∈ w.history := by
  apply respects_lockWith (stable_remembers m)
  intro fuel id c h
  have hdrain : Preserves (fun w => m ∈ w.history) id (drain (lockWith fuel) c fuel) :=
    h.drain (fun _ _ _ hmem => hmem) (fun _ _ _ hmem => List.mem_append_left _ hmem) fuel
  have hvalues : Preserves (fun w => m ∈ w.history) id (settleValues (lockWith fuel) c) :=
    h.settleValues (fun _ _ _ _ _ hmem => hmem) (fun _ _ hmem => hmem)
      fun _ _ hmem => List.mem_append_left _ hmem
  apply hdrain.bind
  intro _
  exact Preserves.settleOpen (fun _ _ _ hmem => hmem) hvalues

/-- A where clause holds the values of the wheres as they are when they are locked. -/
theorem wheres_of_whereClause (hidle : lock.Idle) (hlocked : (w.builder id).locked .wheres = true)
    (hrun : (whereClause lock lower upper options).exec id w = (.ok asked, w')) :
    asked.wheres = (w.builder id).resolved.wheres := by
  rw [whereClause, exec_lock_bind hidle _ hlocked, exec_self_bind] at hrun
  obtain ⟨guards, _, _, hrun⟩ := exec_bind_eq_ok hrun
  obtain ⟨lowerBounds, _, _, hrun⟩ := exec_bind_eq_ok hrun
  obtain ⟨upperBounds, _, _, hrun⟩ := exec_bind_eq_ok hrun
  cases hrun
  rfl

/-- What a where clause asks for, as the builder has it when the clause is given. -/
theorem whereClause_given {fuel : Nat} (hlive : id < w.nextBuilder) (hclosed : w.Closed)
    (hhonoured : w.Honoured id .wheres .bounds .settleBounds)
    (hrun : (whereClause (lockWith fuel) lower upper options).exec id w = (.ok asked, w')) :
    w'.Locked id .wheres ∧ asked.wheres = (w'.builder id).resolved.wheres ∧
      (.callbackRefused id .wheres .settleBounds ∉ w'.history →
        (w'.builder id).filterOf lower upper options = .ok asked) := by
  obtain ⟨_, w₁, hlock, _⟩ := exec_bind_eq_ok hrun
  have hlocked := (lawful_lockWith fuel).locks hlive hclosed hlock
  have hlive₁ := hlocked.live hlive
  -- The clause is put together in the world in which the wheres have been locked.
  have hrun₁ : (whereClause (lockWith fuel) lower upper options).exec id w₁ = (.ok asked, w') := by
    rw [← hrun, whereClause, exec_bind_ok hlock,
      exec_lock_bind (idle_lockWith fuel) _ hlocked.holds.2]
  have hwheres := wheres_of_whereClause (idle_lockWith fuel) hlocked.holds.2 hrun₁
  have hfrozen := ((respects_frozen fuel).whereClause lower upper options).kept hlive₁
    hlocked.closed (P := Frozen id .wheres (w₁.builder id).resolved.wheres)
    ⟨hlocked.holds, rfl⟩ hrun₁
  refine ⟨hfrozen.holds.1, hwheres.trans hfrozen.holds.2.symm, fun hcalm => ?_⟩
  have hanswered := ((respects_honoured rfl settleBounds_secures fuel).lock .wheres id).kept
    hlive hclosed hhonoured hlock
  have hbounds : (w₁.builder id).locked .bounds = true := by
    rcases hanswered.holds hlive₁ with ⟨_, hbounds | hrefused⟩ | ⟨hopen, _⟩
    · exact hbounds
    · exact absurd (((respects_remembers _ fuel).whereClause lower upper options).kept hlive₁
        hlocked.closed hrefused hrun₁).holds hcalm
    · rw [hlocked.holds.2] at hopen
      cases hopen
  rw [exec_whereClause (idle_lockWith fuel) hbounds hlocked.holds.2] at hrun₁
  rcases hfilter : (w₁.builder id).filterOf lower upper options with e | given
  · rw [hfilter] at hrun₁
    cases hrun₁
  · rw [hfilter] at hrun₁
    cases hrun₁
    exact hfilter

end Action

namespace World

open PageQuery.Action Moment

/-- What the where clause of builder `id` asks for: the values of the wheres, as they were
settled, and what else the builder has for it. -/
structure Asks (w : World) (id : BuilderId) (lower upper : Bool) (options : BuildOptions)
    (asked : Filter) : Prop where
  values : .settled id .wheres ∈ w.history →
    List.Forall₂ Yields (accepted id w.history) asked.wheres
  resolved : .settled id .wheres ∈ w.history →
    Valuation.resolved id w.history (accepted id w.history) asked.wheres
  dropped : .settled id .wheres ∉ w.history → asked.wheres = []
  given : .callbackRefused id .wheres .settleBounds ∉ w.history →
    (w.builder id).filterOf lower upper options = .ok asked

variable {w : World} {id : BuilderId} {path : List String} {lower upper : Bool}
  {options : BuildOptions} {optional : Bool} {save : Option String} {f : Fragment}

/-- A where clause that a builder gives in a run is the conjunction of the guards, of the values
of all filters that it has accepted, in their order, and of the bounds of the wanted sides.  Only
if the values of the filters were never settled they are missing, all of them; and only if the
lock of the bounds before the wheres was refused the bounds may be others than the builder's. -/
theorem Reached.whereClause_expresses (hreached : w.Reached) (hleads : w.Leads id root path)
    (hok : (w.step (.mk path (.whereClause lower upper options) optional save)).1.outcome =
      .ok (.ok (.fragment f))) :
    ∃ asked : Filter, asked.Expresses f ∧
      (w.step (.mk path (.whereClause lower upper options) optional save)).2.Asks id
        lower upper options asked := by
  have hbehind := hreached.next (.mk path (.whereClause lower upper options) optional save)
    (by rw [hok]; rfl)
  obtain ⟨hroot, hclosed⟩ := hreached.sound
  have hlive := hleads.live hclosed hroot
  obtain ⟨w', hrun⟩ := exec_of_step_ok hleads hok
  obtain ⟨-, saved, hworld⟩ := step_of_ok hleads hrun
  obtain ⟨asked, middle, hclause, hpure⟩ := exec_bind_eq_ok hrun
  cases hpure
  have hhonoured : w.quiet.Honoured id .wheres .bounds .settleBounds :=
    hreached.honours rfl settleBounds_secures id
  obtain ⟨hlocked, hwheres, hgiven⟩ :=
    whereClause_given (w := w.quiet) hlive hclosed hhonoured hclause
  have hfiltered := hbehind.filtered (Valuation.sound_resolved id)
  have hyields := hbehind.filtered (sound_yields id)
  rw [hworld] at hfiltered hyields ⊢
  exact ⟨asked, asked.expresses_fragment,
    { values := fun hsettled => hwheres ▸ hyields.settled hlocked.1 hsettled
      resolved := fun hsettled => hwheres ▸ hfiltered.settled hlocked.1 hsettled
      dropped := fun hunsettled => hwheres ▸ hfiltered.unsettled hlocked.1 hunsettled
      given := hgiven }⟩

/-- Asks a builder for its whole where clause. -/
def askClause : Step := .mk [] (.whereClause true true {}) false none

/-- When the bounds and the wheres are locked, the clause is that of what the builder has. -/
theorem outcome_askClause {middle : World}
    (hlock : (lockWith (w.budget askClause) .wheres).exec root w.quiet = (.ok (), middle))
    (hbounds : (middle.builder root).locked .bounds = true)
    (hwheres : (middle.builder root).locked .wheres = true) :
    (w.step askClause).1.outcome = .ok (.ok (.fragment (Filter.fragment
      ⟨[], (middle.builder root).resolved.wheres, (middle.builder root).lower,
        (middle.builder root).upper⟩))) := by
  have hbehind : (whereClause (lockWith (w.budget askClause)) true true {}).exec root w.quiet =
      (whereClause (lockWith (w.budget askClause)) true true {}).exec root middle := by
    rw [whereClause, exec_bind_ok hlock, exec_lock_bind (idle_lockWith _) _ hwheres]
  have hclause := exec_whereClause (idle_lockWith (w.budget askClause)) hbounds hwheres true true {}
  exact (step_of_ok (leads_root rfl) (exec_bind_ok (hbehind.trans hclause))).1

/-- A run in which a filter, a second one whose value is not known yet and a bound are
accepted. -/
def filteredRun : World :=
  (start {} 0).after
    [.mk [] (.source (.text "items") none) false none, .mk [] (.bound (.text "c") true) false none,
      .mk [] (.filter (.text "a")) false none,
      .mk [] (.filterLazy [] (.expr (.text "b"))) false none]

theorem reached_filteredRun : filteredRun.Reached :=
  (Reached.initial {} 0).after _ (by decide +kernel)

/-- What that builder's clause asks for: the two filters, and the bound. -/
def filteredAsked : Filter := ⟨[], [text "a", text "b"], [.given (text "c")], []⟩

/-- That run when the wheres have been locked for the clause. -/
def settledRun : World :=
  ((lockWith (filteredRun.budget askClause) .wheres).exec root filteredRun.quiet).2

theorem outcome_filteredRun : (filteredRun.step askClause).1.outcome =
    .ok (.ok (.fragment filteredAsked.fragment)) := by
  have hlock : (lockWith (filteredRun.budget askClause) .wheres).exec root filteredRun.quiet =
      (.ok (), settledRun) := exec_eq_ok (by decide +kernel)
  have hvalues : (settledRun.builder root).resolved.wheres = [text "a", text "b"] := by cbv
  have hlower : (settledRun.builder root).lower = [.given (text "c")] := by cbv
  have hupper : (settledRun.builder root).upper = [] := List.isEmpty_iff.mp (by decide +kernel)
  rw [outcome_askClause hlock (by decide +kernel) (by decide +kernel), hvalues, hlower, hupper]
  rfl

/-- The clause of that run is given when its wheres have been settled. -/
theorem whereClause_expresses_filteredRun :
    filteredRun.Reached ∧ filteredRun.Leads root root [] ∧
      (filteredRun.step askClause).1.outcome = .ok (.ok (.fragment filteredAsked.fragment)) ∧
      .settled root .wheres ∈ (filteredRun.step askClause).2.history ∧
      ∃ asked : Filter, asked.Expresses filteredAsked.fragment ∧
        (filteredRun.step askClause).2.Asks root true true {} asked := by
  have hsettled : .settled root .wheres ∈ (filteredRun.step askClause).2.history :=
    List.mem_of_getElem? (i := 4) rfl
  exact ⟨reached_filteredRun, leads_root rfl, outcome_filteredRun, hsettled,
    reached_filteredRun.whereClause_expresses (leads_root rfl) outcome_filteredRun⟩

/-- A filter whose value fails when it is settled. -/
def failingFilter : Step :=
  .mk [] (.filterLazy [.mk [] (.fail (.validation (.other "broken"))) false none]
    (.expr (.text "b"))) false none

/-- A run in which a filter is accepted, and after it a second one whose value fails: the
builder has been asked for its clause once, and that was refused. -/
def unsettledRun : World :=
  (start {} 0).after
    [.mk [] (.source (.text "items") none) false none, .mk [] (.filter (.text "a")) false none,
      failingFilter, askClause]

theorem reached_unsettledRun : unsettledRun.Reached :=
  (Reached.initial {} 0).after _ (by decide +kernel)

/-- That builder has locked its wheres, and has neither of their values. -/
theorem outcome_unsettledRun :
    (unsettledRun.step askClause).1.outcome = .ok (.ok (.fragment (text "1 = 1"))) := by
  have hwheres : (unsettledRun.quiet.builder root).locked .wheres = true := by decide +kernel
  have hbounds : (unsettledRun.quiet.builder root).locked .bounds = true := by decide +kernel
  have hvalues : (unsettledRun.quiet.builder root).resolved.wheres = [] :=
    List.isEmpty_iff.mp (by decide +kernel)
  have hlower : (unsettledRun.quiet.builder root).lower = [] :=
    List.isEmpty_iff.mp (by decide +kernel)
  have hupper : (unsettledRun.quiet.builder root).upper = [] :=
    List.isEmpty_iff.mp (by decide +kernel)
  rw [outcome_askClause (idle_lockWith _ hwheres) hbounds hwheres, hvalues, hlower, hupper]
  rfl

/-- The first filter has been accepted, and the clause that is given does not express it. -/
theorem clause_empty_unsettledRun :
    unsettledRun.Reached ∧
      (unsettledRun.step askClause).1.outcome = .ok (.ok (.fragment (text "1 = 1"))) ∧
      .ready (text "a") ∈ accepted root (unsettledRun.step askClause).2.history ∧
      ¬∃ asked : Filter, asked.Expresses (text "1 = 1") ∧ text "a" ∈ asked.wheres := by
  have haccepted : .ready (text "a") ∈ accepted root (unsettledRun.step askClause).2.history :=
    List.mem_of_getElem? (i := 0) rfl
  refine ⟨reached_unsettledRun, outcome_unsettledRun, haccepted, ?_⟩
  rintro ⟨asked, hexpresses, hheld⟩
  have hnone : asked.wheres = [] := by
    have hconjuncts := hexpresses.conjuncts_eq_nil
    simp only [Filter.conjuncts, List.append_eq_nil_iff] at hconjuncts
    exact hconjuncts.1.1.2
  rw [hnone] at hheld
  cases hheld

end World

end PageQuery
