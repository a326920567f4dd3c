import PageQuery.Proofs.Run.Follow
import PageQuery.Proofs.Run.Session
import PageQuery.Proofs.Work.Locking

/-!
# Steps that return

Where comparators add no cursor condition, the work of a world and of a step is a number, and
fuel for it is all that the locks of the step take.  Main statement: every step returns, whether
it locks, reads or registers, and with more fuel it does the same.
-/

namespace PageQuery.World

open PageQuery.Action

variable {heaviest : Nat} {w : World} {id : BuilderId} {s : Step}

/-- With fuel for the work of the world and of the step, the step returns. -/
theorem Fits.performStep (hfits : w.Fits heaviest) (hlive : id < w.nextBuilder)
    (hs : s.SetsOnly (Affordable heaviest)) {fuel : Nat}
    (hfuel : w.work heaviest + s.work heaviest + 2 ≤ fuel) :
    ∃ result w', (Action.performStep (lockWith fuel) s).exec id w = (result, w') ∧
      result ≠ .error (.aborted .exhausted) ∧ w.Spends heaviest (s.work heaviest) w' := by
  have hserves := serves_lockWith heaviest hfuel
  obtain ⟨hreturned, hspends⟩ := hserves.performStep hs hlive hfits (Nat.le_refl _)
  exact ⟨_, _, rfl, hreturned, hspends⟩

/-- What a step does does not depend on the fuel, once it returns. -/
theorem performStep_more_fuel {fuel fuel' : Nat} (hfuel : fuel ≤ fuel')
    {result : Except Halt Answer} {w' : World}
    (hrun : (Action.performStep (lockWith fuel) s).exec id w = (result, w'))
    (hreturned : result ≠ .error (.aborted .exhausted)) :
    (Action.performStep (lockWith fuel') s).exec id w = (result, w') := by
  have hfollows := (Program.performStep (.of_named trivial s)).follows likeness_eq
    (follows_lockWith likeness_eq hfuel)
  obtain ⟨after, hafter, rfl⟩ := hfollows.run rfl hrun hreturned
  exact hafter

theorem fits_heaviestIn (hclosed : w.Closed) (hstored : w.AllStored) (hw : w.SetsOnly AddsNone)
    (s : Step) : w.Fits (w.heaviestIn s) :=
  ⟨hclosed, hstored, hw.affordable (Nat.le_add_right _ _)⟩

/-- The fuel that a step is given covers the work of the world and of the step. -/
theorem work_add_two_le_budget (w : World) (s : Step) :
    w.work (w.heaviestIn s) + s.work (w.heaviestIn s) + 2 ≤ w.budget s :=
  (Nat.add_le_add_left (by decide) _).trans (w.work_le_budget s)

/-! Sessions -/

/-- The fuel that a step is given is enough. -/
theorem step_answered (hclosed : w.Closed) (hstored : w.AllStored) (hlive : root < w.nextBuilder)
    (hw : w.SetsOnly AddsNone) (hs : s.SetsOnly AddsNone) :
    (w.step s).1.outcome ≠ .error .exhausted ∧ w.Spends (w.heaviestIn s)
      (s.work (w.heaviestIn s)) (w.step s).2 := by
  have hquiet : w.Spends (w.heaviestIn s) 0 w.quiet :=
    (fits_heaviestIn hclosed hstored hw s).same rfl rfl
  obtain ⟨result, w', hrun, hreturned, hspends⟩ := hquiet.fits.performStep hlive
    (hs.affordable (Nat.le_add_left _ _)) (work_add_two_le_budget w s)
  rw [step_outcome, step_world, perform, hrun]
  refine ⟨?_, (hquiet.trans hspends).mono (Nat.zero_add _).le⟩
  rwa [Ne, answered_eq_error_iff]

/-- No step of a session runs out of fuel, if no comparator in it adds a cursor condition. -/
theorem steps_answered (hclosed : w.Closed) (hstored : w.AllStored) (hlive : root < w.nextBuilder)
    (hw : w.SetsOnly AddsNone) {steps : List Step} (hsteps : ScriptSetsOnly AddsNone steps) :
    (∀ report ∈ w.steps steps, report.outcome ≠ .error .exhausted) ∧
      (w.after steps).SetsOnly AddsNone := by
  induction steps generalizing w with
  | nil => exact ⟨nofun, hw⟩
  | cons s rest ih =>
      obtain ⟨hanswered, hspends⟩ := step_answered hclosed hstored hlive hw hsteps.1
      obtain ⟨hothers, hafter⟩ := ih hspends.fits.closed hspends.fits.stored (hspends.live hlive)
        hspends.fits.affordable.addsNone hsteps.2
      exact ⟨List.forall_mem_cons.mpr ⟨hanswered, hothers⟩, hafter⟩

/-! Any world -/

/-- On every builder of a world whose comparators add no cursor condition, whatever else waits
there, each step returns: with any fuel that covers the work it gives the same answer and leaves
the same world.  The step may lock a concern or all of them, ask any question, or register more
of the same. -/
theorem step_returns (hclosed : w.Closed) (hstored : w.AllStored) (hlive : id < w.nextBuilder)
    (hw : w.SetsOnly AddsNone) (hs : s.SetsOnly AddsNone) :
    w.work (w.heaviestIn s) + s.work (w.heaviestIn s) + 2 ≤ w.budget s ∧
      ∃ result w', result ≠ .error (.aborted .exhausted) ∧
        (∀ fuel, w.work (w.heaviestIn s) + s.work (w.heaviestIn s) + 2 ≤ fuel →
          (Action.performStep (lockWith fuel) s).exec id w = (result, w')) ∧
        w'.Closed ∧ w'.AllStored ∧ w'.SetsOnly AddsNone := by
  obtain ⟨result, w', hrun, hreturned, hspends⟩ :=
    (fits_heaviestIn hclosed hstored hw s).performStep hlive
      (hs.affordable (Nat.le_add_left _ _)) (Nat.le_refl _)
  refine ⟨work_add_two_le_budget w s, result, w', hreturned, fun fuel hfuel => ?_, ?_⟩
  · exact performStep_more_fuel hfuel hrun hreturned
  · exact ⟨hspends.fits.closed, hspends.fits.stored, hspends.fits.affordable.addsNone⟩

/-- A comparator that registers terms, filters and callbacks, also for the concern that is being
locked. -/
def registeringComparator : List Step :=
  [.mk [] (.orderByLazy [.mk [] (.lock .wheres) false none] (.expr (.text "c")) true none) true none,
    .mk [] (.beforeLock .order [.mk [] (.filter (.text "d")) true none]) true none,
    .mk [] (.lock .bounds) false none]

/-- Callbacks and lazy values that lock, read, build and make children while they are being
locked, with a comparator that is called for two cursors. -/
def tangledSteps : List Step :=
  [.mk [] (.source (.text "items") none) false none,
    .mk [] (.setCustomComparator registeringComparator) false none,
    .mk [] (.addCursorCondition [] true) false none,
    .mk [] (.addCursorCondition [] false) false none,
    .mk [] (.beforeLock .order [.mk [] (.lock .order) false none,
      .mk [] (.beforeLock .limit [.mk [] .lockEverything true none]) true none,
      .mk [] (.addChild "parts" (.text "parts") none none) true none]) false none,
    .mk [] (.filterLazy [.mk [] .orderTerms true none, .mk [] (.build {}) true none]
      (.expr (.text "e"))) false none,
    .mk [] (.limitLazy [.mk [] (.lock .limit) false none, .mk [] .plan true none]
      (.aboveOffset 1)) false none,
    .mk [] (.orderBy (.text "f") true none) false none]

theorem setsOnly_tangledSteps : ScriptSetsOnly AddsNone tangledSteps := by
  simp [tangledSteps, registeringComparator, ScriptSetsOnly, Step.SetsOnly, Op.SetsOnly, AddsNone,
    scriptAddsCondition, Step.addsCondition, Op.addsCondition]

theorem step_returns_tangledSteps :
    ((start {} 0).after tangledSteps).SetsOnly AddsNone ∧ ∃ result w',
      result ≠ .error (.aborted .exhausted) ∧
      (∀ fuel, 54 ≤ fuel →
        (Action.performStep (lockWith fuel) (.mk [] .lockEverything false none)).exec root
          ((start {} 0).after tangledSteps) = (result, w')) ∧
      w'.Closed ∧ w'.AllStored ∧ w'.SetsOnly AddsNone := by
  have hanswered : ∀ report ∈ (start {} 0).steps tangledSteps, report.outcome.isOk = true := by
    decide +kernel
  have hreached := (Reached.initial {} 0).after tangledSteps hanswered
  obtain ⟨hlive, hclosed⟩ := hreached.sound
  obtain ⟨hlive₀, hclosed₀⟩ := (Reached.initial {} 0).sound
  obtain ⟨-, hw⟩ := steps_answered hclosed₀ (Reached.initial {} 0).allStored hlive₀
    (setsOnly_start {} 0) setsOnly_tangledSteps
  have hwork : ((start {} 0).after tangledSteps).work (((start {} 0).after tangledSteps).heaviestIn
      (.mk [] .lockEverything false none)) + Step.work (((start {} 0).after tangledSteps).heaviestIn
      (.mk [] .lockEverything false none)) (.mk [] .lockEverything false none) + 2 = 54 := by
    decide +kernel
  have hreturns := (step_returns hclosed hreached.allStored hlive hw
    (s := .mk [] .lockEverything false none) trivial).2
  rw [hwork] at hreturns
  exact ⟨hw, hreturns⟩

end PageQuery.World
