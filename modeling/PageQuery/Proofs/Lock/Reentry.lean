import Mathlib.Tactic.ByContra
import PageQuery.Proofs.Lock.Frozen
import PageQuery.Proofs.Lock.Queue

/-!
# Callbacks that lock their own concern

A lock takes the whole queue of its concern and starts the callbacks one after the other.  A
callback may lock the same concern once more.  That lock finds an empty queue, so it takes hold
at once, and the callbacks that the outer lock still has to start come late: the concern is
locked when they start.  If one of them is refused, those behind it return to the queue of a
concern that no lock will look at again.

Main statement: the callbacks of a lock start while the concern is open, and none of them waits
on a locked concern in the end, exactly if no callback leaves the concern locked while others
wait.
-/

namespace PageQuery

open PageQuery.Action

/-- A callback that has been started by a lock: whether the concern was locked when it started
and when it ended, and the callbacks of the concern that waited behind it then. -/
structure Start where
  callback : Callback
  lockedBefore : Bool
  lockedBehind : Bool
  waiting : List Callback

namespace World

variable {w : World} {id : BuilderId} {c : Concern}

/-- A callback started in one world that has ended in another one. -/
def started (w middle : World) (id : BuilderId) (c : Concern) (callback : Callback)
    (rest : List Callback) : Start where
  callback := callback
  lockedBefore := (w.builder id).locked c
  lockedBehind := (middle.builder id).locked c
  waiting := rest ++ (middle.builder id).callbacks c

/-- The world in which a callback has been refused and those behind it have been put back. -/
def putBack (middle : World) (id : BuilderId) (c : Concern) (callback : Callback)
    (rest : List Callback) : World :=
  { middle.setBuilder id ((middle.builder id).setCallbacks c
      (rest ++ (middle.builder id).callbacks c)) with
    history := middle.history ++ [.callbackRefused id c callback] }

theorem putBack_callbacks (middle : World) (callback : Callback) (rest : List Callback) :
    ((middle.putBack id c callback rest).builder id).callbacks c =
      rest ++ (middle.builder id).callbacks c :=
  Serves.callbacks_setCallbacks middle id c _

theorem putBack_locked (middle : World) (callback : Callback) (rest : List Callback) :
    ((middle.putBack id c callback rest).builder id).locked = (middle.builder id).locked :=
  Serves.locked_setCallbacks middle id c _

end World

/-- How a lock of `c` starts callbacks: `batch` has been taken from the queue already, and the
rest of the queue is taken when all of the batch have been started. -/
inductive Starts (lock : Locker) (id : BuilderId) (c : Concern) :
    World → List Callback → List Start → Except Error Unit → World → Prop
  | done {w : World} (hempty : (w.builder id).callbacks c = []) :
      Starts lock id c w [] [] (.ok ()) w
  | taken {w w' : World} {starts : List Start} {outcome : Except Error Unit}
      (hsome : (w.builder id).callbacks c ≠ [])
      (hstarts : Starts lock id c (w.setBuilder id ((w.builder id).setCallbacks c []))
        ((w.builder id).callbacks c) starts outcome w') :
      Starts lock id c w [] starts outcome w'
  | next {w middle w' : World} {callback : Callback} {rest : List Callback}
      {starts : List Start} {outcome : Except Error Unit}
      (hrun : (runCallback lock callback).exec id w = (.ok (), middle))
      (hstarts : Starts lock id c middle rest starts outcome w') :
      Starts lock id c w (callback :: rest) (w.started middle id c callback rest :: starts)
        outcome w'
  | refused {w middle : World} {callback : Callback} {rest : List Callback} {e : Error}
      (hrun : (runCallback lock callback).exec id w = (.error (.refused e), middle)) :
      Starts lock id c w (callback :: rest) [w.started middle id c callback rest] (.error e)
        (middle.putBack id c callback rest)

namespace Starts

variable {lock : Locker} {id : BuilderId} {c : Concern} {w w' : World}
variable {batch : List Callback} {starts : List Start} {outcome : Except Error Unit}

/-- When all have been started nobody waits. -/
theorem queue_of_ok (hstarts : Starts lock id c w batch starts (.ok ()) w') :
    (w'.builder id).callbacks c = [] := by
  generalize houtcome : (.ok () : Except Error Unit) = outcome at hstarts
  induction hstarts with
  | done hempty => exact hempty
  | taken _ _ ih => exact ih houtcome
  | next _ _ ih => exact ih houtcome
  | refused => cases houtcome

/-- If nobody waits nobody is started. -/
theorem of_nobody (hstarts : Starts lock id c w batch starts outcome w')
    (hnobody : batch ++ (w.builder id).callbacks c = []) : starts = [] ∧ w' = w := by
  obtain ⟨rfl, hempty⟩ := List.append_eq_nil_iff.mp hnobody
  cases hstarts with
  | done => exact ⟨rfl, rfl⟩
  | taken hsome => exact absurd hempty hsome

/-- If somebody waits somebody is started, in the world as it is. -/
theorem of_somebody (hstarts : Starts lock id c w batch starts outcome w')
    (hsomebody : batch ++ (w.builder id).callbacks c ≠ []) :
    ∃ s ∈ starts, s.lockedBefore = (w.builder id).locked c := by
  induction hstarts with
  | done hempty => exact absurd hempty hsomebody
  | @taken w w' starts outcome hsome _ ih =>
      rw [Serves.locked_setCallbacks, Serves.callbacks_setCallbacks, List.append_nil] at ih
      exact ih hsome
  | next => exact ⟨_, List.mem_cons_self, rfl⟩
  | refused => exact ⟨_, List.mem_cons_self, rfl⟩

/-- The callbacks start while the concern is open, and none waits on a locked concern in the
end, exactly if none leaves the concern locked while others wait. -/
theorem promise_iff (hstarts : Starts lock id c w batch starts outcome w')
    (hopen : (w.builder id).locked c = false) :
    ((∀ s ∈ starts, s.lockedBefore = false) ∧
        ((w'.builder id).locked c = true → (w'.builder id).callbacks c = [])) ↔
      ∀ s ∈ starts, s.lockedBehind = true → s.waiting = [] := by
  induction hstarts with
  | done hempty => simp [hempty]
  | taken _ _ ih =>
      rw [Serves.locked_setCallbacks] at ih
      exact ih hopen
  | @next w middle w' callback rest starts outcome _ hstarts ih =>
      have hbefore : (w.started middle id c callback rest).lockedBefore = false := hopen
      cases hlocked : (middle.builder id).locked c with
      | false =>
          have hbehind : (w.started middle id c callback rest).lockedBehind = false := hlocked
          simpa [List.forall_mem_cons, hbefore, hbehind] using ih hlocked
      | true =>
          have hbehind : (w.started middle id c callback rest).lockedBehind = true := hlocked
          -- Whoever is started next finds the concern locked.
          have hnext : (∀ s ∈ starts, s.lockedBefore = false) →
              rest ++ (middle.builder id).callbacks c = [] := by
            intro hprompt
            by_contra hsomebody
            obtain ⟨s, hs, hlate⟩ := hstarts.of_somebody hsomebody
            rw [hprompt s hs, hlocked] at hlate
            cases hlate
          rw [List.forall_mem_cons, List.forall_mem_cons]
          constructor
          · rintro ⟨⟨-, hprompt⟩, -⟩
            have hnobody := hnext hprompt
            obtain ⟨rfl, -⟩ := hstarts.of_nobody hnobody
            exact ⟨fun _ => hnobody, nofun⟩
          · rintro ⟨hwaiting, -⟩
            have hnobody : rest ++ (middle.builder id).callbacks c = [] := hwaiting hbehind
            obtain ⟨rfl, rfl⟩ := hstarts.of_nobody hnobody
            exact ⟨⟨hbefore, nofun⟩, fun _ => (List.append_eq_nil_iff.mp hnobody).2⟩
  | @refused w middle callback rest e _ =>
      have hbefore : (w.started middle id c callback rest).lockedBefore = false := hopen
      rw [World.putBack_locked, World.putBack_callbacks]
      simp only [List.forall_mem_singleton, hbefore, true_and]
      rfl

end Starts

namespace World

variable {w w' : World} {id i : BuilderId} {c : Concern} {queue : List Callback}

/-- A concern that is locked, with callbacks that were not started before that. -/
def Stranded (i : BuilderId) (c : Concern) (queue : List Callback) (w : World) : Prop :=
  w.Locked i c ∧ (w.builder i).callbacks c = queue

theorem Stranded.setBuilder {b : Builder} (hstranded : w.Stranded i c queue)
    (hsame : i = id → b.locked c = (w.builder id).locked c ∧
      b.callbacks c = (w.builder id).callbacks c) : (w.setBuilder id b).Stranded i c queue := by
  obtain ⟨hlocked, hcallbacks⟩ := same_setBuilder hsame
  exact ⟨⟨hstranded.1.1, hlocked.trans hstranded.1.2⟩, hcallbacks.trans hstranded.2⟩

/-- Nothing is registered with a locked concern. -/
theorem Change.callbacks (hchange : w.Change w') (hlocked : w.Locked i c) :
    (w'.builder i).callbacks c = (w.builder i).callbacks c := by
  cases hchange with
  | report | save | mint | built => rfl
  | spawn options parent => rw [builder_spawned, if_neg (Nat.ne_of_lt hlocked.1)]
  | edit _ hedit =>
      refine part_setBuilder (·.callbacks c) fun hid => ?_
      cases hedit with
      | callback d callback hopen =>
          refine if_neg fun hc => ?_
          rw [← hid, ← hc, hlocked.2] at hopen
          cases hopen
      | _ => rfl
  | filter | child => exact part_setBuilder (·.callbacks c) fun _ => rfl

theorem stable_stranded : Stable (Stranded i c queue) := fun _ _ hchange hstranded =>
  ⟨stable_locked i c hchange hstranded.1, (hchange.callbacks hstranded.1).trans hstranded.2⟩

end World

namespace Action

open World

variable {i id : BuilderId} {c d : Concern} {queue : List Callback} {w w' : World} {lock : Locker}
  {fuel : Nat}

/-- To settle a concern starts none of its callbacks. -/
theorem settleValues_stranded (h : lock.Respects (Stranded i c queue)) :
    Preserves (Stranded i c queue) id (settleValues lock d) :=
  h.settleValues
    (fun _ _ _ _ _ hstranded => hstranded.setBuilder fun _ => ⟨rfl, rfl⟩)
    (fun _ _ hstranded => hstranded) fun _ _ hstranded => hstranded

/-- Callbacks that wait on a locked concern are never started. -/
theorem respects_stranded (i : BuilderId) (c : Concern) (queue : List Callback) (fuel : Nat) :
    (lockWith fuel).Respects (Stranded i c queue) := by
  refine rounds_lockWith.respects stable_stranded ?_ fuel
  intro fuel id d h
  by_cases hsame : id = i ∧ d = c
  · obtain ⟨rfl, rfl⟩ := hsame
    intro w _ hclosed hstranded _
    rw [idle_lockWith _ hstranded.1.2]
    exact World.Kept.refl hclosed hstranded
  · exact rounds_lockWith.preserves (round_other h hsame
      (fun hset hstranded => hstranded.setBuilder hset) (fun _ _ _ hstranded => hstranded) fuel)

/-- Callbacks are started one after the other, until one is refused. -/
theorem runCallbacks_starts (callbacks : List Callback) {result : Except Halt Unit}
    (hrun : (runCallbacks lock c callbacks).exec id w = (result, w'))
    (hhalt : Completes result) :
    (∃ e starts, result = .error (.refused e) ∧ Starts lock id c w callbacks starts (.error e) w') ∨
    (∃ before, result = .ok () ∧ ∀ {starts outcome behind},
      Starts lock id c w' [] starts outcome behind →
        Starts lock id c w callbacks (before ++ starts) outcome behind) := by
  induction callbacks generalizing w with
  | nil =>
      cases hrun
      exact .inr ⟨[], rfl, fun hstarts => hstarts⟩
  | cons callback rest ih =>
      rw [exec_runCallbacks_cons] at hrun
      rcases hfirst : (runCallback lock callback).exec id w with ⟨(e | _) | _, middle⟩
      all_goals rw [hfirst] at hrun
      · cases hrun
        exact .inl ⟨e, _, rfl, .refused hfirst⟩
      · cases hrun
        exact absurd rfl (hhalt _)
      · rcases ih hrun with ⟨e, starts, hresult, hstarts⟩ | ⟨before, hresult, hstarts⟩
        · exact .inl ⟨e, _, hresult, .next hfirst hstarts⟩
        · exact .inr ⟨_ :: before, hresult, fun hbehind => .next hfirst (hstarts hbehind)⟩

/-- A drain starts the whole queue, until one is refused. -/
theorem drain_starts (rounds : Nat) {result : Except Halt Unit}
    (hrun : (drain lock c rounds).exec id w = (result, w')) (hhalt : Completes result) :
    ∃ starts outcome, result = outcome.mapError .refused ∧
      Starts lock id c w [] starts outcome w' := by
  induction rounds generalizing w with
  | zero =>
      cases hrun
      exact absurd rfl (hhalt _)
  | succ rounds ih =>
      by_cases hsome : (w.builder id).callbacks c = []
      · rw [exec_drain_nil _ rounds hsome] at hrun
        cases hrun
        exact ⟨[], .ok (), rfl, .done hsome⟩
      · rw [exec_drain_succ _ rounds hsome, exec_bind] at hrun
        rcases hbatch : (runCallbacks lock c ((w.builder id).callbacks c)).exec id
          (w.setBuilder id ((w.builder id).setCallbacks c [])) with ⟨halt | _, middle⟩
        all_goals
          rw [hbatch] at hrun
          have hstarted := runCallbacks_starts _ hbatch
        · cases hrun
          rcases hstarted hhalt with ⟨e, starts, hresult, hstarts⟩ | ⟨_, hresult, _⟩
          · exact ⟨starts, .error e, hresult, .taken hsome hstarts⟩
          · cases hresult
        · rcases hstarted (by simp) with ⟨_, _, hresult, _⟩ | ⟨before, _, hstarts⟩
          · cases hresult
          · obtain ⟨starts, outcome, hresult, hrest⟩ := ih hrun
            exact ⟨before ++ starts, outcome, hresult, .taken hsome (hstarts hrest)⟩

/-- The settlement behind a drain finds its concern without callbacks, and leaves it so. -/
theorem settleOpen_strands {result : Except Halt Unit} (hlive : id < w.nextBuilder)
    (hclosed : w.Closed) (hempty : (w.builder id).callbacks c = [])
    (hrun : (settleOpen (lockWith fuel) c).exec id w = (result, w'))
    (hhalt : Completes result) : w.Kept (Stranded id c []) w' := by
  rw [exec_settleOpen] at hrun
  split at hrun
  · cases hrun
    exact World.Kept.refl hclosed ⟨⟨hlive, ‹_›⟩, hempty⟩
  · rw [exec_settle] at hrun
    have hstranded : (w.setBuilder id ((w.builder id).setLocked c)).Stranded id c [] := by
      refine ⟨⟨hlive, ?_⟩, ?_⟩ <;> rw [builder_setBuilder_self]
      · exact setLocked_locked _ c
      · exact hempty
    have hvalues : Preserves (Stranded id c []) id (settleValues (lockWith fuel) c) :=
      settleValues_stranded (respects_stranded id c [] fuel)
    have hkept := hvalues (w := w.setBuilder id ((w.builder id).setLocked c)) hlive
      (closed_setLocked hclosed) hstranded
    rw [hrun] at hkept
    obtain ⟨hholds, hclosed', hgrows⟩ := hkept hhalt
    exact ⟨hholds, hclosed', hgrows⟩

/-- A lock starts the callbacks of an open concern, and settles it if none is refused. -/
theorem lock_starts {result : Except Halt Unit} (hlive : id < w.nextBuilder)
    (hclosed : w.Closed) (hopen : (w.builder id).locked c = false)
    (hrun : (lockWith (fuel + 1) c).exec id w = (result, w')) (hhalt : Completes result) :
    ∃ starts outcome middle, Starts (lockWith fuel) id c w [] starts outcome middle ∧
      w.Kept (fun _ => True) middle ∧
      match outcome with
      | .ok () => (settleOpen (lockWith fuel) c).exec id middle = (result, w')
      | .error e => result = .error (.refused e) ∧ w' = middle := by
  rw [exec_lockWith_open fuel hopen] at hrun
  rcases hdrain : (drain (lockWith fuel) c fuel).exec id w with ⟨drained, middle⟩
  have hdrained : Completes drained := by
    rw [show result = _ from (congrArg Prod.fst hrun).symm] at hhalt
    have hfirst := completes_of_bind hhalt
    rwa [hdrain] at hfirst
  have hkept := drain_sound (c := c) (lawful_lockWith fuel) fuel hlive hclosed trivial
  rw [hdrain] at hkept
  obtain ⟨starts, outcome, rfl, hstarts⟩ := drain_starts fuel hdrain hdrained
  refine ⟨starts, outcome, middle, hstarts, hkept hdrained, ?_⟩
  cases outcome with
  | ok _ => rwa [exec_bind_ok hdrain] at hrun
  | error e =>
      rw [exec_bind_error hdrain] at hrun
      cases hrun
      exact ⟨rfl, rfl⟩

/-- The promise that callbacks are given.  A lock of an open concern starts the callbacks that
wait one after the other.  They all start while the concern is open, and none waits on a locked
concern in the end, exactly if none of them leaves the concern locked while others wait.  If
the lock succeeds, the concern is locked and nobody waits.  Whoever waits on a locked concern
in the end waits for ever: whatever steps are performed from there on, the callbacks are still
there, and every lock of the concern succeeds without starting them. -/
theorem lock_promise_iff {result : Except Halt Unit} (hlive : id < w.nextBuilder)
    (hclosed : w.Closed) (hopen : (w.builder id).locked c = false)
    (hrun : (lockWith (fuel + 1) c).exec id w = (result, w')) (hhalt : Completes result) :
    ∃ starts outcome middle, Starts (lockWith fuel) id c w [] starts outcome middle ∧
      (match outcome with
        | .ok () => (settleOpen (lockWith fuel) c).exec id middle = (result, w')
        | .error e => result = .error (.refused e) ∧ w' = middle) ∧
      ((∀ s ∈ starts, s.lockedBefore = false) ∧
          ((w'.builder id).locked c = true → (w'.builder id).callbacks c = []) ↔
        ∀ s ∈ starts, s.lockedBehind = true → s.waiting = []) ∧
      (result = .ok () → (w'.builder id).locked c = true ∧ (w'.builder id).callbacks c = []) ∧
      ((w'.builder id).locked c = true → ∀ steps : List Step,
        (∀ r ∈ w'.steps steps, r.outcome.isOk = true) →
          (w'.after steps).Stranded id c ((w'.builder id).callbacks c) ∧
            ∀ fuel, (lockWith fuel c).exec id (w'.after steps) = (.ok (), w'.after steps)) := by
  obtain ⟨starts, outcome, middle, hstarts, hkept, hsettled⟩ :=
    lock_starts hlive hclosed hopen hrun hhalt
  have hlive' : id < middle.nextBuilder := Nat.lt_of_lt_of_le hlive hkept.grows
  have hpromise := hstarts.promise_iff hopen
  have hforever : w'.Closed → id < w'.nextBuilder → (w'.builder id).locked c = true →
      ∀ steps : List Step, (∀ r ∈ w'.steps steps, r.outcome.isOk = true) →
        (w'.after steps).Stranded id c ((w'.builder id).callbacks c) ∧
          ∀ fuel, (lockWith fuel c).exec id (w'.after steps) = (.ok (), w'.after steps) := by
    intro hclosed' hlive' hlocked steps hanswered
    have hroot : World.root < w'.nextBuilder := Nat.zero_lt_of_lt hlive'
    have hstranded := after_kept (P := Stranded id c _) (respects_stranded id c _)
      (fun _ hstranded => hstranded) steps hanswered hroot hclosed' ⟨⟨hlive', hlocked⟩, rfl⟩
    exact ⟨hstranded.holds, fun fuel => idle_lockWith fuel hstranded.holds.1.2⟩
  refine ⟨starts, outcome, middle, hstarts, hsettled, ?_⟩
  cases outcome with
  | error e =>
      obtain ⟨rfl, rfl⟩ := hsettled
      exact ⟨hpromise, nofun, hforever hkept.closed hlive'⟩
  | ok _ =>
      have hempty : (middle.builder id).callbacks c = [] := hstarts.queue_of_ok
      have hend := settleOpen_strands hlive' hkept.closed hempty hsettled hhalt
      obtain ⟨⟨hlive'', hlocked⟩, hempty'⟩ := hend.holds
      refine ⟨?_, fun _ => ⟨hlocked, hempty'⟩, hforever hend.closed hlive''⟩
      simpa only [hempty, hempty', implies_true] using hpromise

/-- A run whose joins lock themselves before they lock, with two more callbacks behind. -/
def reentrantRun : World :=
  let joining (clause : String) : Step := .mk [] (.join (.text clause)) false none
  let relocking : Step := .mk [] (.lock .joins) false none
  let first := ((World.start {} 0).step (.mk [] (.beforeLock .joins [relocking]) false none)).2
  let second := (first.step (.mk [] (.beforeLock .joins [joining "join b"]) false none)).2
  (second.step (.mk [] (.beforeLock .joins [joining "join c"]) false none)).2

theorem reached_reentrantRun : reentrantRun.Reached := by
  apply World.Reached.next
  · apply World.Reached.next
    · apply World.Reached.next
      · exact World.Reached.initial {} 0
      · decide +kernel
    · decide +kernel
  · decide +kernel

/-- The third callback of that run waits for ever. -/
theorem lock_promise_reentrantRun :
    ∃ starts outcome middle w', Starts (lockWith 3) World.root .joins reentrantRun [] starts
        outcome middle ∧
      (lockWith 4 .joins).exec World.root reentrantRun =
        (.error (.refused (.lockedMutation .joins)), w') ∧
      (¬∀ s ∈ starts, s.lockedBehind = true → s.waiting = []) ∧
      ((w'.after [lockJoins]).builder World.root).callbacks .joins =
        [.script [.mk [] (.join (.text "join c")) false none]] := by
  have hopen : (reentrantRun.builder World.root).locked .joins = false := by decide +kernel
  obtain ⟨hlive, hclosed⟩ := reached_reentrantRun.sound
  have hrun : (lockWith 4 .joins).exec World.root reentrantRun =
      (.error (.refused (.lockedMutation .joins)), _) := rfl
  obtain ⟨starts, outcome, middle, hstarts, -, hpromise, -, hforever⟩ :=
    lock_promise_iff hlive hclosed hopen hrun (by simp)
  refine ⟨starts, outcome, middle, _, hstarts, hrun, fun hkept => ?_, ?_⟩
  · have hnobody := (hpromise.mpr hkept).2 rfl
    cases hnobody
  · exact (hforever rfl [lockJoins] (by decide +kernel)).1.2

/-- The second callback of that run starts late and is refused, and a lock succeeds although
the third one has not been started. -/
theorem callbacks_late_reentrantRun :
    (reentrantRun.step lockJoins).1.outcome = .ok (.error (.lockedMutation .joins)) ∧
      ((reentrantRun.step lockJoins).2.step lockJoins).1.outcome = .ok (.ok .done) ∧
      (((reentrantRun.step lockJoins).2.step lockJoins).2.builder World.root).callbacks .joins =
        [.script [.mk [] (.join (.text "join c")) false none]] ∧
      ∃ starts w', Starts (lockWith 3) World.root .joins reentrantRun [] starts
          (.error (.lockedMutation .joins)) w' ∧
        ∃ s ∈ starts, s.lockedBefore = true := by
  refine ⟨rfl, rfl, rfl, _, _, .taken nofun (.next rfl (.refused rfl)), ?_⟩
  exact ⟨_, List.mem_cons_of_mem _ List.mem_cons_self, rfl⟩

end Action

end PageQuery
