import PageQuery.Proofs.Lock.Barred
import PageQuery.Proofs.Run.Session

/-!
# Callbacks are served in turn

The callbacks of a concern are a queue.  A lock takes them from the front, and what they
register goes to the end; a callback that is refused has had its turn, and those behind
it stay where they are.  All this is under the condition that no callback asks for the
lock that it runs for.
-/

namespace PageQuery

open PageQuery.Action

/-- A callback that has run, and what it has registered with the concern that it ran for. -/
structure Turn where
  callback : Callback
  registered : List Callback

namespace Turn

/-- The callbacks that had these turns, in order. -/
def ran (turns : List Turn) : List Callback := turns.map callback

/-- What was registered in these turns, in order. -/
def arrivals (turns : List Turn) : List Callback := turns.flatMap registered

end Turn

/-- How a lock of `c` serves callbacks: `batch` has been taken from the queue already, and
the rest of the queue is taken when all of the batch have had their turn. -/
inductive Serves (lock : Locker) (id : BuilderId) (c : Concern) :
    World → List Callback → List Turn → Except Error Unit → World → Prop
  | done {w : World} (hempty : (w.builder id).callbacks c = []) :
      Serves lock id c w [] [] (.ok ()) w
  | taken {w w' : World} {turns : List Turn} {outcome : Except Error Unit}
      (hsome : (w.builder id).callbacks c ≠ [])
      (hserves : Serves lock id c (w.setBuilder id ((w.builder id).setCallbacks c []))
        ((w.builder id).callbacks c) turns outcome w') :
      Serves lock id c w [] turns outcome w'
  | turn {w middle w' : World} {callback : Callback} {rest registered : List Callback}
      {turns : List Turn} {outcome : Except Error Unit}
      (hopen : (w.builder id).locked c = false)
      (hrun : (runCallback lock callback).exec id w = (.ok (), middle))
      (hstill : (middle.builder id).locked c = false)
      (harrivals : (middle.builder id).callbacks c = (w.builder id).callbacks c ++ registered)
      (hserves : Serves lock id c middle rest turns outcome w') :
      Serves lock id c w (callback :: rest) (⟨callback, registered⟩ :: turns) outcome w'
  | refused {w middle : World} {callback : Callback} {rest registered : List Callback}
      {e : Error}
      (hopen : (w.builder id).locked c = false)
      (hrun : (runCallback lock callback).exec id w = (.error (.refused e), middle))
      (hstill : (middle.builder id).locked c = false)
      (harrivals : (middle.builder id).callbacks c = (w.builder id).callbacks c ++ registered) :
      Serves lock id c w (callback :: rest) [⟨callback, registered⟩] (.error e)
        { middle.setBuilder id ((middle.builder id).setCallbacks c
            (rest ++ (middle.builder id).callbacks c)) with
          history := middle.history ++ [.callbackRefused id c callback] }

namespace Serves

variable {lock : Locker} {id : BuilderId} {c : Concern} {w w' : World}
variable {batch : List Callback} {turns : List Turn} {outcome : Except Error Unit}

theorem callbacks_setCallbacks (w : World) (id : BuilderId) (c : Concern)
    (queue : List Callback) :
    ((w.setBuilder id ((w.builder id).setCallbacks c queue)).builder id).callbacks c = queue := by
  rw [World.builder_setBuilder_self]
  exact if_pos rfl

theorem locked_setCallbacks (w : World) (id : BuilderId) (c : Concern) (queue : List Callback) :
    ((w.setBuilder id ((w.builder id).setCallbacks c queue)).builder id).locked =
      (w.builder id).locked := by
  rw [World.builder_setBuilder_self]
  rfl

/-- First come, first served: those that have been served and those that still wait are
all that ever waited, in the order in which they came. -/
theorem served (hserves : Serves lock id c w batch turns outcome w') :
    batch ++ (w.builder id).callbacks c ++ Turn.arrivals turns =
      Turn.ran turns ++ (w'.builder id).callbacks c := by
  induction hserves with
  | done hempty => simp [hempty, Turn.arrivals, Turn.ran]
  | taken _ _ ih => simpa only [callbacks_setCallbacks, List.append_nil, List.nil_append] using ih
  | @turn w middle w' callback rest registered turns outcome _ _ _ harrivals _ ih =>
      calc callback :: rest ++ (w.builder id).callbacks c ++
            Turn.arrivals (⟨callback, registered⟩ :: turns)
          = callback :: (rest ++ (middle.builder id).callbacks c ++ Turn.arrivals turns) := by
            simp [harrivals, Turn.arrivals]
        _ = Turn.ran (⟨callback, registered⟩ :: turns) ++ (w'.builder id).callbacks c := by
            rw [ih]
            rfl
  | @refused w middle callback rest registered e _ _ _ harrivals =>
      have hqueue := callbacks_setCallbacks middle id c (rest ++ (middle.builder id).callbacks c)
      calc callback :: rest ++ (w.builder id).callbacks c ++
            Turn.arrivals [⟨callback, registered⟩]
          = callback :: (rest ++ (middle.builder id).callbacks c) := by
            simp [harrivals, Turn.arrivals]
        _ = Turn.ran [⟨callback, registered⟩] ++ _ := congrArg (callback :: ·) hqueue.symm

/-- The same behind callbacks that have been served before. -/
theorem behind (hserves : Serves lock id c w [] turns outcome w') (ran : List Callback) :
    ran ++ (w.builder id).callbacks c ++ Turn.arrivals turns =
      ran ++ Turn.ran turns ++ (w'.builder id).callbacks c := by
  have hserved := hserves.served
  rw [List.nil_append] at hserved
  rw [List.append_assoc, hserved, List.append_assoc]

/-- When all have been served nobody waits. -/
theorem queue_of_ok (hserves : Serves lock id c w batch turns (.ok ()) w') :
    (w'.builder id).callbacks c = [] := by
  generalize houtcome : (.ok () : Except Error Unit) = outcome at hserves
  induction hserves with
  | done hempty => exact hempty
  | taken _ _ ih => exact ih houtcome
  | turn _ _ _ _ _ ih => exact ih houtcome
  | refused => cases houtcome

end Serves

namespace Action

variable {id : BuilderId} {c : Concern} {w w' : World} {fuel : Nat}

/-- A callback that does not ask for the lock it runs for leaves the concern open, and
adds to its queue. -/
theorem runCallback_adds {callback : Callback} {result : Except Halt Unit}
    (hlive : id < w.nextBuilder) (hclosed : w.Closed)
    (hopen : (w.builder id).locked c = false)
    (hrun : (runCallback (lockBarring id c fuel) callback).exec id w = (result, w'))
    (hhalt : Completes result) :
    w.Kept (fun w' => (w'.builder id).locked c = false ∧ ∃ registered,
      (w'.builder id).callbacks c = (w.builder id).callbacks c ++ registered) w' := by
  have hkept := (respects_waiting id c ((w.builder id).callbacks c) fuel).runCallback
    callback hlive hclosed ⟨hlive, hopen, List.prefix_rfl⟩
  rw [hrun] at hkept
  obtain ⟨⟨_, hstill, registered, hregistered⟩, hclosed', hgrows⟩ := hkept hhalt
  exact ⟨⟨hstill, registered, hregistered.symm⟩, hclosed', hgrows⟩

/-- Callbacks are served one after the other, until one is refused. -/
theorem runCallbacks_serves (callbacks : List Callback) {result : Except Halt Unit}
    (hlive : id < w.nextBuilder) (hclosed : w.Closed)
    (hopen : (w.builder id).locked c = false)
    (hrun : (runCallbacks (lockBarring id c fuel) c callbacks).exec id w = (result, w'))
    (hhalt : Completes result) :
    (∃ e turns, result = .error (.refused e) ∧
      Serves (lockWith fuel) id c w callbacks turns (.error e) w' ∧
      w.Kept (fun w' => (w'.builder id).locked c = false) w') ∨
    (∃ before, result = .ok () ∧ w.Kept (fun w' => (w'.builder id).locked c = false) w' ∧
      ∀ {turns outcome behind}, Serves (lockWith fuel) id c w' [] turns outcome behind →
        Serves (lockWith fuel) id c w callbacks (before ++ turns) outcome behind) := by
  induction callbacks generalizing w with
  | nil =>
      cases hrun
      exact .inr ⟨[], rfl, World.Kept.refl hclosed hopen, fun hserves => hserves⟩
  | cons callback rest ih =>
      rw [exec_runCallbacks_cons] at hrun
      rcases hfirst : (runCallback (lockBarring id c fuel) callback).exec id w with
        ⟨(e | _) | _, middle⟩
      all_goals rw [hfirst] at hrun
      · obtain ⟨⟨hstill, registered, harrivals⟩, hclosed', hgrows⟩ :=
          runCallback_adds hlive hclosed hopen hfirst (by simp)
        have hfirst' := (Program.runCallback (.of_named trivial callback)).exec_of_barred hfirst
          (by simp)
        cases hrun
        refine .inl ⟨e, _, rfl, .refused hopen hfirst' hstill harrivals, ?_, ?_, hgrows⟩
        · change ((middle.setBuilder id _).builder id).locked c = false
          rw [Serves.locked_setCallbacks]
          exact hstill
        · exact hclosed'.setBuilder id (hclosed' id)
      · cases hrun
        exact absurd rfl (hhalt _)
      · obtain ⟨⟨hstill, registered, harrivals⟩, hclosed', hgrows⟩ :=
          runCallback_adds hlive hclosed hopen hfirst (by simp)
        have hfirst' := (Program.runCallback (.of_named trivial callback)).exec_of_barred hfirst
          (by simp)
        have hlive' := Nat.lt_of_lt_of_le hlive hgrows
        rcases ih hlive' hclosed' hstill hrun with
          ⟨e, turns, hresult, hserves, hopen', hclosed'', hgrows'⟩ |
          ⟨before, hresult, ⟨hopen', hclosed'', hgrows'⟩, hserves⟩
        · exact .inl ⟨e, _, hresult, .turn hopen hfirst' hstill harrivals hserves, hopen',
            hclosed'', Nat.le_trans hgrows hgrows'⟩
        · exact .inr ⟨⟨callback, registered⟩ :: before, hresult,
            ⟨hopen', hclosed'', Nat.le_trans hgrows hgrows'⟩,
            fun hbehind => .turn hopen hfirst' hstill harrivals (hserves hbehind)⟩

/-- A drain serves the whole queue, until one is refused. -/
theorem drain_serves (rounds : Nat) {result : Except Halt Unit}
    (hlive : id < w.nextBuilder) (hclosed : w.Closed)
    (hopen : (w.builder id).locked c = false)
    (hrun : (drain (lockBarring id c fuel) c rounds).exec id w = (result, w'))
    (hhalt : Completes result) :
    ∃ turns outcome, result = outcome.mapError .refused ∧
      Serves (lockWith fuel) id c w [] turns outcome w' ∧
      w.Kept (fun w' => (w'.builder id).locked c = false) w' := by
  induction rounds generalizing w with
  | zero =>
      cases hrun
      exact absurd rfl (hhalt _)
  | succ rounds ih =>
      by_cases hsome : (w.builder id).callbacks c = []
      · rw [exec_drain_nil _ rounds hsome] at hrun
        cases hrun
        exact ⟨[], .ok (), rfl, .done hsome, World.Kept.refl hclosed hopen⟩
      · rw [exec_drain_succ _ rounds hsome] at hrun
        generalize htaken : w.setBuilder id ((w.builder id).setCallbacks c []) = taken at hrun
        have hopen' : (taken.builder id).locked c = false := by
          rw [← htaken, Serves.locked_setCallbacks]
          exact hopen
        have hclosed' : taken.Closed := htaken ▸ hclosed.setBuilder id (hclosed id)
        have hgrows : w.nextBuilder ≤ taken.nextBuilder := by rw [← htaken]; exact Nat.le_refl _
        have htake {turns outcome behind}
            (hserves : Serves (lockWith fuel) id c taken ((w.builder id).callbacks c) turns
              outcome behind) : Serves (lockWith fuel) id c w [] turns outcome behind :=
          .taken hsome (htaken ▸ hserves)
        rw [exec_bind] at hrun
        rcases hbatch : (runCallbacks (lockBarring id c fuel) c
          ((w.builder id).callbacks c)).exec id taken with ⟨halt | _, middle⟩
        all_goals
          rw [hbatch] at hrun
          have hserved := runCallbacks_serves _ (Nat.lt_of_lt_of_le hlive hgrows) hclosed' hopen'
            hbatch
        · cases hrun
          rcases hserved hhalt with ⟨e, turns, hresult, hserves, hkept⟩ | ⟨_, hresult, _⟩
          · exact ⟨turns, .error e, hresult, htake hserves, hkept.holds, hkept.closed,
              Nat.le_trans hgrows hkept.grows⟩
          · cases hresult
        · rcases hserved (by simp) with ⟨_, _, hresult, _⟩ | ⟨before, _, hkept, hserves⟩
          · cases hresult
          · have hlive' := Nat.lt_of_lt_of_le hlive (Nat.le_trans hgrows hkept.grows)
            obtain ⟨turns, outcome, hresult, hrest, hkept'⟩ :=
              ih hlive' hkept.closed hkept.holds hrun
            exact ⟨before ++ turns, outcome, hresult, htake (hserves hrest), hkept'.holds,
              hkept'.closed, Nat.le_trans hgrows (Nat.le_trans hkept.grows hkept'.grows)⟩

/-- The callbacks of an open concern since it has been watched: those that were registered
and those that have run.  In between, steps may be performed that do not ask for its lock,
and locks of it may fail at a callback. -/
inductive Watched (id : BuilderId) (c : Concern) : List Callback → List Callback → World → Prop
  | start {w : World} (hlive : id < w.nextBuilder) (hclosed : w.Closed)
      (hopen : (w.builder id).locked c = false) :
      Watched id c ((w.builder id).callbacks c) [] w
  | quiet {registered ran : List Callback} {w : World} (hwatched : Watched id c registered ran w) :
      Watched id c registered ran w.quiet
  | aside {registered ran arrivals : List Callback} {w w' : World} {other : BuilderId}
      {fuel : Nat} {s : Step} {result : Except Halt Answer}
      (hwatched : Watched id c registered ran w) (hother : other < w.nextBuilder)
      (hrun : (performStep (lockWith fuel) s).exec other w = (result, w'))
      (hunasked : Completes ((performStep (lockBarring id c fuel) s).exec other w).1)
      (harrivals : (w'.builder id).callbacks c = (w.builder id).callbacks c ++ arrivals) :
      Watched id c (registered ++ arrivals) ran w'
  | failed {registered ran : List Callback} {w w' : World} {fuel : Nat} {e : Error}
      {turns : List Turn} (hwatched : Watched id c registered ran w)
      (hrun : (lockWith (fuel + 1) c).exec id w = (.error (.refused e), w'))
      (hunasked : Completes ((drain (lockBarring id c fuel) c fuel).exec id w).1)
      (hstill : (w'.builder id).locked c = false)
      (hserves : Serves (lockWith fuel) id c w [] turns (.error e) w') :
      Watched id c (registered ++ Turn.arrivals turns) (ran ++ Turn.ran turns) w'

variable {registered ran : List Callback}

/-- A lock of an open concern drains its queue, and settles it if all have been served. -/
theorem lock_serves {result : Except Halt Unit} (hlive : id < w.nextBuilder)
    (hclosed : w.Closed) (hopen : (w.builder id).locked c = false)
    (hunasked : Completes ((drain (lockBarring id c fuel) c fuel).exec id w).1)
    (hrun : (lockWith (fuel + 1) c).exec id w = (result, w')) :
    ∃ turns outcome middle, Serves (lockWith fuel) id c w [] turns outcome middle ∧
      w.Kept (fun middle => (middle.builder id).locked c = false) middle ∧
      match outcome with
      | .ok () => (settle (lockWith fuel) c).exec id middle = (result, w')
      | .error e => result = .error (.refused e) ∧ w' = middle := by
  rcases hdrain : (drain (lockBarring id c fuel) c fuel).exec id w with ⟨drained, middle⟩
  rw [hdrain] at hunasked
  obtain ⟨turns, outcome, rfl, hserves, hkept⟩ :=
    drain_serves fuel hlive hclosed hopen hdrain hunasked
  have hdrain' := (Program.drain c fuel).exec_of_barred hdrain hunasked
  refine ⟨turns, outcome, middle, hserves, hkept, ?_⟩
  rw [exec_lockWith_open fuel hopen] at hrun
  cases outcome with
  | ok _ =>
      rw [exec_bind_ok hdrain', exec_settleOpen, if_neg (by simp [hkept.holds])] at hrun
      exact hrun
  | error e =>
      rw [exec_bind_error hdrain'] at hrun
      cases hrun
      exact ⟨rfl, rfl⟩

/-- While a concern is watched it stays open, and what has been registered has run or waits,
in the order of registration. -/
theorem Watched.in_order (hwatched : Watched id c registered ran w) :
    id < w.nextBuilder ∧ w.Closed ∧ (w.builder id).locked c = false ∧
      registered = ran ++ (w.builder id).callbacks c := by
  induction hwatched with
  | start hlive hclosed hopen => exact ⟨hlive, hclosed, hopen, rfl⟩
  | quiet _ ih => exact ih
  | @aside registered ran arrivals w w' other fuel s result _ hother hrun hunasked harrivals ih =>
      obtain ⟨hlive, hclosed, hopen, horder⟩ := ih
      have hkept := (respects_waiting id c [] fuel).performStep s hother hclosed
        ⟨hlive, hopen, List.nil_prefix⟩ hunasked
      rcases hbarred : (performStep (lockBarring id c fuel) s).exec other w with ⟨result', w''⟩
      rw [hbarred] at hkept hunasked
      have hsame := (Program.performStep (.of_named trivial s)).exec_of_barred hbarred hunasked
      rw [hrun] at hsame
      cases hsame
      refine ⟨hkept.holds.1, hkept.closed, hkept.holds.2.1, ?_⟩
      rw [horder, harrivals, List.append_assoc]
  | @failed registered ran w w' fuel e turns _ hrun _ hstill hserves ih =>
      obtain ⟨hlive, hclosed, _, horder⟩ := ih
      have hkept := (respects_sound (lawful_lockWith (fuel + 1))).lock c id hlive hclosed trivial
      rw [hrun] at hkept
      obtain ⟨_, hclosed', hgrows⟩ := hkept (by simp)
      refine ⟨Nat.lt_of_lt_of_le hlive hgrows, hclosed', hstill, ?_⟩
      rw [horder]
      exact hserves.behind ran

/-- Callbacks are served first come, first served, each once, also across failures.  Let a
concern be watched, and let no callback ask for its lock while the lock runs callbacks.
What has been registered until now has run or waits, in the order of registration.  The
lock serves it while the concern is open, together with what registers meanwhile, and
either nobody waits any more, all have run in the order of registration, and the concern is
settled; or the lock fails at a callback, the concern stays open and is watched on, and
those behind that callback wait, in the order of registration. -/
theorem Watched.lock_in_order {result : Except Halt Unit}
    (hwatched : Watched id c registered ran w)
    (hunasked : Completes ((drain (lockBarring id c fuel) c fuel).exec id w).1)
    (hrun : (lockWith (fuel + 1) c).exec id w = (result, w')) :
    registered = ran ++ (w.builder id).callbacks c ∧ ∃ turns,
      (∃ middle, Serves (lockWith fuel) id c w [] turns (.ok ()) middle ∧
        (middle.builder id).locked c = false ∧ (middle.builder id).callbacks c = [] ∧
        registered ++ Turn.arrivals turns = ran ++ Turn.ran turns ∧
        (settle (lockWith fuel) c).exec id middle = (result, w')) ∨
      (∃ e, Serves (lockWith fuel) id c w [] turns (.error e) w' ∧
        result = .error (.refused e) ∧ (w'.builder id).locked c = false ∧
        registered ++ Turn.arrivals turns =
          ran ++ Turn.ran turns ++ (w'.builder id).callbacks c ∧
        Watched id c (registered ++ Turn.arrivals turns) (ran ++ Turn.ran turns) w') := by
  obtain ⟨hlive, hclosed, hopen, horder⟩ := hwatched.in_order
  obtain ⟨turns, outcome, middle, hserves, hkept, hresult⟩ :=
    lock_serves hlive hclosed hopen hunasked hrun
  have hserved := hserves.behind ran
  rw [← horder] at hserved
  refine ⟨horder, turns, ?_⟩
  cases outcome with
  | ok _ =>
      have hempty := hserves.queue_of_ok
      rw [hempty, List.append_nil] at hserved
      exact .inl ⟨middle, hserves, hkept.holds, hempty, hserved, hresult⟩
  | error e =>
      obtain ⟨rfl, rfl⟩ := hresult
      exact .inr ⟨e, hserves, rfl, hkept.holds, hserved,
        .failed hwatched hrun hunasked hkept.holds hserves⟩

/-- A join that a callback registers. -/
def lateJoin : Step := .mk [] (.join (.text "join b")) false none

/-- A run with three callbacks before the lock of the joins: the first registers a fourth
one, the second is refused. -/
def queuedRun : World :=
  let failing : Step := .mk [] (.fail (.validation (.other "broken"))) false none
  let registering : Step := .mk [] (.beforeLock .joins [lateJoin]) false none
  let first := ((World.start {} 0).step (.mk [] (.beforeLock .joins [registering]) false none)).2
  let second := (first.step (.mk [] (.beforeLock .joins [failing]) false none)).2
  (second.step (.mk [] (.beforeLock .joins []) false none)).2

theorem reached_queuedRun : queuedRun.Reached := by
  apply World.Reached.next
  · apply World.Reached.next
    · apply World.Reached.next
      · exact World.Reached.initial {} 0
      · decide +kernel
    · decide +kernel
  · decide +kernel

/-- The third and the fourth callback of that run wait behind the one that is refused. -/
theorem lock_in_order_queuedRun :
    ∃ turns w', (lockWith 4 .joins).exec World.root queuedRun =
        (.error (.refused (.validation (.other "broken"))), w') ∧
      (queuedRun.builder World.root).callbacks .joins ++ Turn.arrivals turns =
        Turn.ran turns ++ (w'.builder World.root).callbacks .joins ∧
      (w'.builder World.root).callbacks .joins = [.script [], .script [lateJoin]] := by
  have hopen : (queuedRun.builder World.root).locked .joins = false := by decide +kernel
  obtain ⟨hlive, hclosed⟩ := reached_queuedRun.sound
  have hunasked : ((drain (lockBarring World.root .joins 3) .joins 3).exec World.root
      queuedRun).1 = .error (.refused (.validation (.other "broken"))) := rfl
  have hrun : (lockWith 4 .joins).exec World.root queuedRun =
      (.error (.refused (.validation (.other "broken"))), _) := rfl
  obtain ⟨_, turns, ⟨_, _, _, _, _, hsettled⟩ | ⟨_, _, _, _, hserved, _⟩⟩ :=
    (Watched.start hlive hclosed hopen).lock_in_order (by rw [hunasked]; simp) hrun
  · cases hsettled
  · exact ⟨turns, _, hrun, hserved, rfl⟩

def lockJoins : Step := .mk [] (.lock .joins) false none

/-- A run with two callbacks before the lock of the joins.  The first one registers a third
one, and goes on when the lock that it asks for fails. -/
def overtakenRun : World :=
  let failing : Step := .mk [] (.fail (.validation (.other "broken"))) false none
  let third : List Step := [.mk [] (.join (.text "join c")) false none, failing]
  let first : List Step := [.mk [] (.join (.text "join a")) false none,
    .mk [] (.beforeLock .joins third) false none, .mk [] (.lock .joins) true none]
  (World.start {} 0).after
    [.mk [] (.beforeLock .joins first) false none, .mk [] (.beforeLock .joins [lateJoin]) false none]

/-- The inner lock of that run finds only the third callback in the queue, because the outer one
has taken the second one out of it.  So the third one runs first, and leaves the joins open. -/
theorem third_before_second_overtakenRun :
    overtakenRun.Reached ∧ (overtakenRun.step lockJoins).1.outcome = .ok (.ok .done) ∧
      (∀ op locks outcome, .step op locks outcome ∈ (overtakenRun.step lockJoins).1.nested →
        true ∉ locks) ∧
      ((overtakenRun.step lockJoins).2.builder World.root).joins =
        [Sql.text "join a", Sql.text "join c", Sql.text "join b"] := by
  have hopen : (overtakenRun.step lockJoins).1.nested.all (fun
      | .step _ locks _ => !locks.contains true
      | .comparator _ _ => true) = true := by decide +kernel
  refine ⟨(World.Reached.initial {} 0).after _ (by decide +kernel), rfl, ?_, rfl⟩
  intro op locks outcome hentry
  simpa using List.all_eq_true.mp hopen _ hentry

end Action

end PageQuery
