import Mathlib.Tactic.SplitIfs
import PageQuery.Proofs.Run.Session

/-!
# What is locked is frozen

A locked concern keeps its value, whatever a run goes on to do: registrations are refused,
and to settle another concern touches only what is held of that one.  A concern is settled
once, right after it has been locked, so its lock is also reported once.
-/

namespace PageQuery

/-- How far a phase is from the first one. -/
def Phase.rank : Phase → Nat
  | .unlocked => 0
  | .orderLocked => 1
  | .whereLocked => 2
  | .built => 3

/-- The more is locked, the further the phase. -/
theorem Phase.rank_of_le {locked locked' : Concern → Bool}
    (hkeeps : ∀ c, locked c = true → locked' c = true) :
    (Phase.of locked).rank ≤ (Phase.of locked').rank := by
  have hbuilt (hall : Concern.lockOrder.all locked = true) :
      Concern.lockOrder.all locked' = true := by
    rw [List.all_eq_true] at hall ⊢
    exact fun c hc => hkeeps c (hall c hc)
  have hwheres := hkeeps .wheres
  have horder := hkeeps .order
  simp only [Phase.of]
  split_ifs <;> simp_all [Phase.rank]

/-- What a builder has locked stands in a later one as it is, and the later one has not
gone back to an earlier phase. -/
structure Builder.FrozenIn (b b' : Builder) : Prop where
  phase : b.phase.rank ≤ b'.phase.rank
  locked : ∀ c, b.locked c = true → b'.locked c = true
  value : ∀ c, b.locked c = true → b'.value c = b.value c

theorem Builder.FrozenIn.of_kept {b b' : Builder}
    (hkept : ∀ c, b.locked c = true → b'.locked c = true ∧ b'.value c = b.value c) :
    b.FrozenIn b' where
  phase := Phase.rank_of_le fun c hlocked => (hkept c hlocked).1
  locked c hlocked := (hkept c hlocked).1
  value c hlocked := (hkept c hlocked).2

namespace World

variable {w w' : World} {i : BuilderId} {c : Concern}

instance : Decidable (w.Locked i c) :=
  inferInstanceAs (Decidable (i < w.nextBuilder ∧ (w.builder i).locked c = true))

/-- A concern that is locked and has the value `v`. -/
def Frozen (i : BuilderId) (c : Concern) (v : c.Value) (w : World) : Prop :=
  w.Locked i c ∧ (w.builder i).value c = v

variable {v : c.Value}

theorem Frozen.setBuilder {id : BuilderId} {b : Builder} (hfrozen : w.Frozen i c v)
    (hkeeps : (w.builder id).locked c = true → b.locked c = true)
    (hvalue : i = id → b.value c = (w.builder id).value c) :
    (w.setBuilder id b).Frozen i c v :=
  ⟨hfrozen.1.setBuilder hkeeps, (part_setBuilder (·.value c) hvalue).trans hfrozen.2⟩

/-- No elementary change touches the value of a locked concern. -/
theorem Change.value (hchange : w.Change w') (hlocked : w.Locked i c) :
    (w'.builder i).value c = (w.builder i).value c := by
  cases hchange with
  | report | save | mint | built => rfl
  | spawn options parent => rw [builder_spawned, if_neg (Nat.ne_of_lt hlocked.1)]
  | edit _ hedit =>
      refine part_setBuilder (·.value c) fun hid => Builder.value_of_contents ?_
      obtain ⟨d, hopen, hothers⟩ := hedit.contents
      refine hothers c fun hc => ?_
      rw [← hid, ← hc, hlocked.2] at hopen
      cases hopen
  | filter expr _ _ => exact part_setBuilder (·.value c) fun _ => by cases c <;> rfl
  | child name child _ _ => exact part_setBuilder (·.value c) fun _ => by cases c <;> rfl

theorem stable_frozen : Stable (Frozen i c v) := fun _ _ hchange hfrozen =>
  ⟨stable_locked i c hchange hfrozen.1, (hchange.value hfrozen.1).trans hfrozen.2⟩

/-- The locks of a concern that have been reported, `past` of them before, are as many as
there should be. -/
def Reported (i : BuilderId) (c : Concern) (past : Nat) (w : World) : Prop :=
  past + (Event.locks w.events).count (i, c) = if w.Locked i c then 1 else 0

variable {past : Nat}

/-- The reported locks stay right where neither the lock nor the reports change. -/
theorem Reported.of_same (hreported : w.Reported i c past)
    (hlocked : w'.Locked i c ↔ w.Locked i c)
    (hevents : (Event.locks w'.events).count (i, c) = (Event.locks w.events).count (i, c)) :
    w'.Reported i c past := by
  simpa only [Reported, hevents, hlocked] using hreported

theorem Reported.setBuilder {id : BuilderId} {b : Builder} (hreported : w.Reported i c past)
    (hsame : i = id → b.locked c = (w.builder id).locked c) :
    (w.setBuilder id b).Reported i c past := by
  refine hreported.of_same (and_congr_right fun _ => ?_) rfl
  rw [part_setBuilder (·.locked c) hsame]

/-- No elementary change locks a concern, or opens one. -/
theorem Change.locked_iff (hchange : w.Change w') : w'.Locked i c ↔ w.Locked i c := by
  by_cases hlive : i < w.nextBuilder
  · have hlive' := Nat.lt_of_lt_of_le hlive hchange.nextBuilder_le
    simp only [Locked, hlive, hlive', hchange.locked hlive]
  · refine iff_of_false (fun hlocked => ?_) fun hlocked => hlive hlocked.1
    cases hchange with
    | spawn options parent =>
        have hid : i = w.nextBuilder := Nat.eq_of_lt_succ_of_not_lt hlocked.1 hlive
        have hfresh := hlocked.2
        rw [builder_spawned, if_pos hid] at hfresh
        cases hfresh
    | _ => exact hlive hlocked.1

theorem stable_reported : Stable (Reported i c past) := by
  intro w w' hchange hreported
  refine hreported.of_same hchange.locked_iff ?_
  cases hchange with
  | report events journal hlocks => rw [hlocks]
  | _ => rfl

end World

namespace Action

open World

variable {i id : BuilderId} {c d : Concern} {v : c.Value} {w : World} {lock : Locker}
variable {past : Nat}

theorem runCallbacks_frozen (h : lock.Respects (Frozen i c v)) (callbacks : List Callback) :
    Preserves (Frozen i c v) id (runCallbacks lock d callbacks) :=
  h.runCallbacks
    (fun _ _ _ hfrozen => hfrozen.setBuilder (fun hd => hd) fun _ => by cases c <;> rfl)
    (fun _ _ _ hfrozen => hfrozen) callbacks

theorem drain_frozen (h : lock.Respects (Frozen i c v)) (rounds : Nat) :
    Preserves (Frozen i c v) id (drain lock d rounds) :=
  h.drain (fun _ _ _ hfrozen => hfrozen.setBuilder (fun hd => hd) fun _ => by cases c <;> rfl)
    (fun _ _ _ hfrozen => hfrozen) rounds

/-- A settlement leaves a locked concern alone, and the contents of all but its own. -/
theorem settleOpen_frozen (h : lock.Respects (Frozen i c v)) :
    Preserves (Frozen i c v) id (settleOpen lock d) := by
  by_cases hsame : i = id ∧ c = d
  · obtain ⟨rfl, rfl⟩ := hsame
    intro w _ hclosed hfrozen _
    rw [exec_settleOpen, if_pos hfrozen.1.2]
    exact World.Kept.refl hclosed hfrozen
  · refine Preserves.settleOpen ?_ (h.settleValues ?_ ?_ ?_)
    · intro w _ _ hfrozen
      exact hfrozen.setBuilder (setLocked_of_locked d) fun _ => by cases c <;> rfl
    · intro w pending resolved hothers _ hfrozen
      refine hfrozen.setBuilder (fun hd => hd) fun hid => ?_
      exact Builder.value_of_contents (hothers c fun hc => hsame ⟨hid, hc⟩)
    · exact fun _ _ hfrozen => hfrozen
    · exact fun _ _ hfrozen => hfrozen

theorem respects_frozen (fuel : Nat) : (lockWith fuel).Respects (Frozen i c v) :=
  respects_lockWith stable_frozen
    (fun h => (drain_frozen h _).bind fun _ => settleOpen_frozen h) fuel

/-- A lock reports itself when it takes hold. -/
theorem reported_locked (hreported : w.Reported i c past) (hlive : id < w.nextBuilder)
    (hopen : (w.builder id).locked d = false) :
    Reported i c past { w.setBuilder id ((w.builder id).setLocked d) with
      events := w.events ++ [.locked id d] } := by
  by_cases hsame : id = i ∧ d = c
  · obtain ⟨rfl, rfl⟩ := hsame
    have hbefore : ¬w.Locked id d := fun hlocked => by simp [hlocked.2] at hopen
    have hafter : ({ w.setBuilder id ((w.builder id).setLocked d) with
        events := w.events ++ [.locked id d] } : World).Locked id d := by
      refine ⟨hlive, ?_⟩
      have hbuilder : (w.setBuilder id ((w.builder id).setLocked d)).builder id = _ :=
        builder_setBuilder w id id _
      rw [if_pos rfl] at hbuilder
      exact (congrArg (Builder.locked · d) hbuilder).trans (setLocked_locked _ d)
    rw [Reported, if_neg hbefore] at hreported
    rw [Reported, if_pos hafter, Event.locks_concat]
    simp only [Event.lock?, Option.toList_some, List.count_append, List.count_singleton_self]
    omega
  · have hset : (w.setBuilder id ((w.builder id).setLocked d)).Reported i c past := by
      refine hreported.setBuilder fun hid => ?_
      simp only [Builder.setLocked]
      exact if_neg fun hc => hsame ⟨hid.symm, hc.symm⟩
    refine hset.of_same Iff.rfl ?_
    rw [Event.locks_concat]
    simp only [Event.lock?, Option.toList_some, List.count_append, List.count_singleton,
      beq_iff_eq, Prod.mk.injEq, if_neg hsame]
    rfl

theorem settleOpen_reported (h : lock.Respects (Reported i c past)) :
    Preserves (Reported i c past) id (settleOpen lock d) := by
  have hvalues : Preserves (Reported i c past) id
      (do resolve lock d; remember (.settled (← read) d)) := by
    have hresolve : Preserves (Reported i c past) id (resolve lock d) :=
      h.resolve fun _ _ _ _ _ hreported => hreported.setBuilder fun _ => rfl
    exact hresolve.bind fun _ => Preserves.read_bind <|
      Preserves.remember fun _ _ hreported => hreported
  intro w hlive hclosed hreported hhalt
  rw [exec_settleOpen] at hhalt ⊢
  split
  · exact World.Kept.refl hclosed hreported
  · rw [if_neg ‹_›] at hhalt
    have hopen : (w.builder id).locked d = false := by simpa using ‹¬_ = true›
    have hclosed' : (w.setBuilder id ((w.builder id).setLocked d)).Closed :=
      closed_setLocked hclosed
    have hkept := hvalues (w := { w.setBuilder id ((w.builder id).setLocked d) with
      events := w.events ++ [.locked id d] }) hlive hclosed'
      (reported_locked hreported hlive hopen) hhalt
    exact ⟨hkept.holds, hkept.closed, hkept.grows⟩

theorem respects_reported (fuel : Nat) : (lockWith fuel).Respects (Reported i c past) := by
  apply respects_lockWith stable_reported
  intro fuel id d h
  have hdrain : Preserves (Reported i c past) id (drain (lockWith fuel) d fuel) :=
    h.drain (fun _ _ _ hreported => hreported.setBuilder fun _ => rfl)
      (fun _ _ _ hreported => hreported) fuel
  exact hdrain.bind fun _ => settleOpen_reported h

/-- What a run consists of at any depth: scripts and locks, and what is left of a lock
while its callbacks run. -/
inductive Activity (lock : Locker) : Action Unit → Prop
  | script (steps : List Step) : Activity lock (runSteps lock steps)
  | lock (d : Concern) : Activity lock (lock d)
  | callbacks (d : Concern) (callbacks : List Callback) :
      Activity lock (runCallbacks lock d callbacks)
  | drain (d : Concern) (rounds : Nat) : Activity lock (drain lock d rounds)
  | settlement (d : Concern) : Activity lock (settleOpen lock d)

theorem Activity.frozen {fuel : Nat} {action : Action Unit}
    (hactivity : Activity (lockWith fuel) action) :
    Preserves (Frozen i c v) id action := by
  have h := respects_frozen (i := i) (v := v) fuel
  cases hactivity with
  | script steps => exact h.runSteps steps
  | lock d => exact h.lock d id
  | callbacks d callbacks => exact runCallbacks_frozen h callbacks
  | drain d rounds => exact drain_frozen h rounds
  | settlement d => exact settleOpen_frozen h

end Action

namespace World

open PageQuery.Action

variable {w : World} {i : BuilderId} {c : Concern}

theorem step_events (w : World) (s : Step) : (w.step s).1.events = (w.step s).2.events := rfl

/-- What is kept by every step that is answered is kept by steps that all are. -/
theorem after_kept {P : World → Prop} (hrespects : ∀ fuel, (lockWith fuel).Respects P)
    (hquiet : ∀ w, P w → P w.quiet) (steps : List Step)
    (hanswered : ∀ report ∈ w.steps steps, report.outcome.isOk = true)
    (hlive : root < w.nextBuilder) (hclosed : w.Closed) (hholds : P w) :
    w.Kept P (w.after steps) := by
  induction steps generalizing w with
  | nil => exact World.Kept.refl hclosed hholds
  | cons s rest ih =>
      obtain ⟨hfirst, hrest⟩ := List.forall_mem_cons.mp hanswered
      have hkept := step_kept hrespects s hfirst hlive hclosed (hquiet w hholds)
      exact hkept.trans (ih hrest (hkept.live hlive) hkept.closed hkept.holds)

/-- Over steps that are all answered, exactly the concerns that come to be locked are
reported, each once. -/
theorem locks_reported {past : Nat} (steps : List Step)
    (hanswered : ∀ report ∈ w.steps steps, report.outcome.isOk = true)
    (hlive : root < w.nextBuilder) (hclosed : w.Closed)
    (hpast : past = if w.Locked i c then 1 else 0) :
    past + (Event.locks ((w.steps steps).flatMap Report.events)).count (i, c) =
      if (w.after steps).Locked i c then 1 else 0 := by
  induction steps generalizing w past with
  | nil => exact hpast
  | cons s rest ih =>
      obtain ⟨hfirst, hrest⟩ := List.forall_mem_cons.mp hanswered
      have hquiet : w.quiet.Reported i c past := hpast
      have hkept := step_kept respects_reported s hfirst hlive hclosed hquiet
      have hlive' := hkept.live hlive
      calc past + (Event.locks ((w.steps (s :: rest)).flatMap Report.events)).count (i, c)
          = past + (Event.locks (w.step s).2.events).count (i, c) +
              (Event.locks (((w.step s).2.steps rest).flatMap Report.events)).count (i, c) := by
            rw [Nat.add_assoc, ← List.count_append, steps, List.flatMap_cons, Event.locks,
              List.filterMap_append, step_events]
            rfl
        _ = if ((w.step s).2.after rest).Locked i c then 1 else 0 :=
            ih hrest hlive' hkept.closed hkept.holds

/-- What is locked is frozen.  Between any two points of a run, no builder goes back to an
earlier phase, and no concern is opened or gets another value; the concerns that are locked
are exactly those whose lock has been reported, once each.  This holds also while a step
is performed: whatever script, lock or rest of a lock goes on in a world, on whichever
builder, leaves what is locked there as it is. -/
theorem locked_frozen (options : Options) (tokens : Nat) (before later : List Step)
    (hanswered : ∀ report ∈ (start options tokens).steps (before ++ later),
      report.outcome.isOk = true) :
    (∀ i, i < ((start options tokens).after before).nextBuilder →
      (((start options tokens).after before).builder i).FrozenIn
        (((start options tokens).after (before ++ later)).builder i)) ∧
    (∀ i c, (Event.locks (((start options tokens).steps before).flatMap Report.events)).count
      (i, c) = if ((start options tokens).after before).Locked i c then 1 else 0) ∧
    ∀ (fuel : Nat) (action : Action Unit), Activity (lockWith fuel) action →
      ∀ (id : BuilderId) (w : World), id < w.nextBuilder → w.Closed →
        Completes (action.exec id w).1 →
          ∀ i, i < w.nextBuilder → (w.builder i).FrozenIn ((action.exec id w).2.builder i) := by
  rw [steps_append] at hanswered
  have hbefore := fun report hreport => hanswered report (List.mem_append_left _ hreport)
  have hlater := fun report hreport => hanswered report (List.mem_append_right _ hreport)
  have hclosed := closed_start options tokens
  have hlive : root < (start options tokens).nextBuilder := Nat.zero_lt_one
  have hsound := after_kept (fun fuel => respects_sound (lawful_lockWith fuel))
    (fun _ _ => trivial) before hbefore hlive hclosed trivial
  refine ⟨fun i hi => .of_kept fun c hlocked => ?_, fun i c => ?_, ?_⟩
  · have hfrozen := after_kept (P := Frozen i c _) respects_frozen (fun _ hfrozen => hfrozen)
      later hlater (Nat.lt_of_lt_of_le hlive hsound.grows) hsound.closed ⟨⟨hi, hlocked⟩, rfl⟩
    rw [after, List.foldl_append]
    exact ⟨hfrozen.holds.1.2, hfrozen.holds.2⟩
  · have hopen : ¬(start options tokens).Locked i c := by
      rintro ⟨_, hlocked⟩
      rw [builder_start] at hlocked
      cases hlocked
    simpa only [Nat.zero_add] using
      locks_reported (i := i) (c := c) before hbefore hlive hclosed (if_neg hopen).symm
  · intro fuel action hactivity id w hid hclosed hhalt i hi
    refine .of_kept fun c hlocked => ?_
    have hfrozen := hactivity.frozen hid hclosed ⟨⟨hi, hlocked⟩, rfl⟩ hhalt
    exact ⟨hfrozen.holds.1.2, hfrozen.holds.2⟩

/-- Steps that lock a limit of five rows. -/
def limitingSteps : List Step :=
  [.mk [] (.source (.text "items") none) false none, .mk [] (.limit 5) false none,
    .mk [] (.lock .limit) false none]

/-- Steps that ask for another limit, and build. -/
def overridingSteps : List Step :=
  [.mk [] (.limit 7) false none, .mk [] (.build {}) false none]

/-- The limit that was locked first is that of the build. -/
theorem locked_frozen_overridingSteps :
    (∀ report ∈ (start {} 0).steps (limitingSteps ++ overridingSteps),
      report.outcome.isOk = true) ∧
    ((start {} 0).after limitingSteps).Locked root .limit ∧
    (((start {} 0).after (limitingSteps ++ overridingSteps)).builder root).value .limit =
      some 5 := by
  have hanswered : ∀ report ∈ (start {} 0).steps (limitingSteps ++ overridingSteps),
      report.outcome.isOk = true := by decide +kernel
  have hlocked : ((start {} 0).after limitingSteps).Locked root .limit := by decide +kernel
  have hlimit : (((start {} 0).after limitingSteps).builder root).value .limit = some 5 := rfl
  obtain ⟨hfrozen, _, _⟩ := locked_frozen {} 0 limitingSteps overridingSteps hanswered
  exact ⟨hanswered, hlocked, ((hfrozen root hlocked.1).value .limit hlocked.2).trans hlimit⟩

end World

end PageQuery
