import PageQuery.Proofs.Run.Session

/-!
# Dependencies between locks

Where rows are selected or counted, the bounds have to be locked first; the select
list takes in the cursor; and an order says in the end whether it is unique.  The first
two are callbacks that every builder begins with.  A callback runs once: when it is
refused it is gone, and the next lock of its concern goes on without it.  So these
dependencies hold in every run, but for the concerns whose own callback was refused and
for orders whose values were never settled.
-/

namespace PageQuery

open Sql

namespace Concern

/-- The concern that a concern depends on. -/
def prerequisite? : Concern → Option Concern
  | .wheres | .offset | .limit | .first | .last => some .bounds
  | .select => some .cursor
  | .order => some .uniqueness
  | _ => none

end Concern

/-- What a locked concern depends on is locked. -/
def Builder.Ordered (b : Builder) : Prop :=
  ∀ c d, c.prerequisite? = some d → b.locked c = true → b.locked d = true

/-- A callback that is answered only if it has locked `d`. -/
def Callback.Secures (callback : Callback) (d : Concern) : Prop :=
  ∀ {lock : Locker} {id : BuilderId} {w w' : World}, lock.Lawful → id < w.nextBuilder →
    w.Closed → (Action.runCallback lock callback).exec id w = (.ok (), w') →
      w.Kept (World.Locked id d) w'

namespace World

/-- Either `d` is locked, or the callback of `c` that locks it was refused. -/
def Answered (id : BuilderId) (c d : Concern) (callback : Callback) (w : World) : Prop :=
  id < w.nextBuilder ∧
    ((w.builder id).locked d = true ∨ .callbackRefused id c callback ∈ w.history)

/-- The callback of `c` that locks `d` has been answered, or it is the next callback to
run and `c` is open. -/
def Honoured (id : BuilderId) (c d : Concern) (callback : Callback) (w : World) : Prop :=
  id < w.nextBuilder →
    w.Answered id c d callback ∨
      (w.builder id).locked c = false ∧ [callback] <+: (w.builder id).callbacks c

/-- An order whose values are settled has been asked whether it is unique. -/
def OrderSettled (id : BuilderId) (w : World) : Prop :=
  .settled id .order ∈ w.history → w.Locked id .uniqueness

/-- What would have locked the prerequisite of `c` has failed: its own callback was
refused, or the values of the order were never settled. -/
def Interrupted (id : BuilderId) (w : World) : Concern → Prop
  | .order => .settled id .order ∉ w.history
  | .select => .callbackRefused id .select .settleCursor ∈ w.history
  | c => .callbackRefused id c .settleBounds ∈ w.history

variable {id : BuilderId} {c d : Concern} {callback : Callback}

/-- What has been answered stays so. -/
theorem stable_answered : Stable (Answered id c d callback) := by
  intro w w' hchange hanswered
  refine ⟨Nat.lt_of_lt_of_le hanswered.1 hchange.nextBuilder_le, ?_⟩
  rcases hanswered.2 with hlocked | hrefused
  · rw [hchange.locked hanswered.1]
    exact Or.inl hlocked
  · exact Or.inr (hchange.history.mem hrefused)

theorem Answered.setBuilder {w : World} {other : BuilderId} {b : Builder}
    (hanswered : w.Answered id c d callback)
    (hkeeps : (w.builder other).locked d = true → b.locked d = true) :
    (w.setBuilder other b).Answered id c d callback := by
  refine ⟨hanswered.1, hanswered.2.imp_left fun hlocked => ?_⟩
  exact (Locked.setBuilder ⟨hanswered.1, hlocked⟩ hkeeps).2

theorem Answered.remember {w : World} (hanswered : w.Answered id c d callback)
    (moment : Moment) :
    Answered id c d callback { w with history := w.history ++ [moment] } :=
  ⟨hanswered.1, hanswered.2.imp_right (List.mem_append_left _)⟩

/-- A builder may be replaced if the queue and the locks stay. -/
theorem Honoured.setBuilder {w : World} {other : BuilderId} {b : Builder}
    (hhonoured : w.Honoured id c d callback)
    (hkeeps : (w.builder other).locked d = true → b.locked d = true)
    (hopen : id = other → b.locked c = (w.builder other).locked c)
    (hqueue : id = other → b.callbacks c = (w.builder other).callbacks c) :
    (w.setBuilder other b).Honoured id c d callback := by
  intro hlive
  rcases hhonoured hlive with hanswered | hnext
  · exact Or.inl (hanswered.setBuilder hkeeps)
  · right
    rwa [part_setBuilder (·.locked c) hopen, part_setBuilder (·.callbacks c) hqueue]

/-- A fresh builder has its own callback before it. -/
theorem stable_honoured (hinitial : Builder.initialCallbacks c = [callback]) :
    Stable (Honoured id c d callback) := by
  intro w w' hchange hhonoured hlive'
  by_cases hlive : id < w.nextBuilder
  · rcases hhonoured hlive with hanswered | ⟨hopen, hnext⟩
    · exact Or.inl (stable_answered hchange hanswered)
    · obtain ⟨hlocked, hcallbacks⟩ := hchange.builder hlive
      rw [hlocked]
      exact Or.inr ⟨hopen, hnext.trans (hcallbacks c)⟩
  · cases hchange with
    | spawn options parent =>
        have hid : id = w.nextBuilder := Nat.eq_of_lt_succ_of_not_lt hlive' hlive
        rw [builder_spawned, if_pos hid]
        refine Or.inr ⟨rfl, ?_⟩
        change [callback] <+: Builder.initialCallbacks c
        exact hinitial ▸ List.prefix_rfl
    | _ => exact absurd hlive' hlive

/-- The uniqueness of a settled order stays locked. -/
theorem stable_orderSettled : Stable (OrderSettled id) := by
  intro w w' hchange hholds hsettled
  exact stable_locked id .uniqueness hchange (hholds (hchange.settled hsettled))

theorem OrderSettled.setBuilder {w : World} {other : BuilderId} {b : Builder}
    (hholds : w.OrderSettled id)
    (hkeeps : (w.builder other).locked .uniqueness = true → b.locked .uniqueness = true) :
    (w.setBuilder other b).OrderSettled id :=
  fun hsettled => (hholds hsettled).setBuilder hkeeps

theorem OrderSettled.remember {w : World} (hholds : w.OrderSettled id) (moment : Moment)
    (hmoment : moment ≠ .settled id .order) :
    OrderSettled id { w with history := w.history ++ [moment] } := by
  intro hsettled
  rcases List.mem_append.mp hsettled with hbefore | hnow
  · exact hholds hbefore
  · exact absurd (List.mem_singleton.mp hnow).symm hmoment

end World

namespace Action

open World

variable {id : BuilderId} {w : World}

/-- The callback that settles the bounds has locked them, if it is answered. -/
theorem settleBounds_secures : Callback.settleBounds.Secures .bounds :=
  fun hlawful hlive hclosed hrun => hlawful.locks hlive hclosed hrun

theorem settleCursor_secures : Callback.settleCursor.Secures .cursor := by
  intro lock id w w' hlawful hlive hclosed hrun
  obtain ⟨_, middle, hlock, hrest⟩ := exec_bind_eq_ok hrun
  have hlocked := hlawful.locks hlive hclosed hlock
  have hselects : Preserves (World.Locked id .cursor) id (do
      (← self).resolved.cursor.forM fun f => select (.ready f) cursorAlias) := by
    apply Preserves.self.bind
    intro b
    apply Preserves.forM_option
    intro cursor
    exact (respects_locked hlawful id .cursor).change fun _ hlive => evolves_select hlive _ _
  exact hlocked.trans (hselects.kept hlocked.holds.1 hlocked.closed hlocked.holds hrest)

variable {i : BuilderId} {c d e : Concern} {callback : Callback} {lock : Locker}

theorem drain_answered (h : lock.Respects (Answered i c d callback)) (rounds : Nat) :
    Preserves (Answered i c d callback) id (drain lock e rounds) :=
  h.drain (fun _ _ _ hanswered => hanswered.setBuilder fun hd => hd)
    (fun _ _ _ hanswered => hanswered.remember _) rounds

theorem settleOpen_answered (h : lock.Respects (Answered i c d callback)) :
    Preserves (Answered i c d callback) id (settleOpen lock e) := by
  apply Preserves.settleOpen
  · intro w _ _ hanswered
    exact hanswered.setBuilder (setLocked_of_locked e)
  · exact h.settleValues (fun _ _ _ _ _ hanswered => hanswered.setBuilder fun hd => hd)
      (fun _ _ hanswered => hanswered) (fun _ _ hanswered => hanswered.remember _)

/-- No lock undoes an answer. -/
theorem respects_answered (fuel : Nat) :
    (lockWith fuel).Respects (Answered i c d callback) :=
  respects_lockWith stable_answered
    (fun h => (drain_answered h _).bind fun _ => settleOpen_answered h) fuel

/-- Its own callback is answered when the callbacks of a concern have run. -/
theorem runCallbacks_answers (h : lock.Respects (Answered i c d callback))
    (hsecures : callback.Secures d) (rest : List Callback) (hlive : i < w.nextBuilder)
    (hclosed : w.Closed)
    (hhalt : Completes ((runCallbacks lock c (callback :: rest)).exec i w).1) :
    w.Kept (Answered i c d callback) ((runCallbacks lock c (callback :: rest)).exec i w).2 := by
  rw [exec_runCallbacks_cons] at hhalt ⊢
  rcases hrun : (runCallback lock callback).exec i w with ⟨(e | _) | _, w'⟩
  all_goals
    rw [hrun] at hhalt
    have hsound := (respects_sound h.toLawful).runCallback callback hlive hclosed trivial
    rw [hrun] at hsound
  · have hkept := hsound (by simp)
    refine ⟨⟨hkept.live hlive, Or.inr ?_⟩, ?_, hkept.grows⟩
    · exact List.mem_append_right _ (List.mem_singleton_self _)
    · exact hkept.closed.setBuilder i (hkept.closed i)
  · exact absurd rfl (hhalt _)
  · have hlocked := hsecures h.toLawful hlive hclosed hrun
    have hanswered : w'.Answered i c d callback :=
      ⟨hlocked.holds.1, Or.inl hlocked.holds.2⟩
    have hrest : Preserves (Answered i c d callback) i (runCallbacks lock c rest) :=
      h.runCallbacks (fun _ _ _ hanswered => hanswered.setBuilder fun hd => hd)
        (fun _ _ _ hanswered => hanswered.remember _) rest
    exact hlocked.trans (hrest hlocked.holds.1 hlocked.closed hanswered hhalt)

theorem drain_answers (h : lock.Respects (Answered i c d callback))
    (hsecures : callback.Secures d) (rounds : Nat) (hlive : i < w.nextBuilder)
    (hclosed : w.Closed) (hhonoured : w.Honoured i c d callback)
    (hhalt : Completes ((drain lock c rounds).exec i w).1) :
    w.Kept (Answered i c d callback) ((drain lock c rounds).exec i w).2 := by
  rcases hhonoured hlive with hanswered | ⟨_, rest, hqueue⟩
  · exact drain_answered h rounds hlive hclosed hanswered hhalt
  · cases rounds with
    | zero => exact absurd rfl (hhalt _)
    | succ rounds =>
        have hsome : (w.builder i).callbacks c ≠ [] := by
          rw [← hqueue]
          simp
        rw [exec_drain_succ _ rounds hsome, ← hqueue] at hhalt ⊢
        have htaken : w.Kept (fun _ => True)
            (w.setBuilder i ((w.builder i).setCallbacks c [])) :=
          ⟨trivial, hclosed.setBuilder i (hclosed i), Nat.le_refl _⟩
        have hlive' := htaken.live hlive
        exact htaken.trans <| Preserves.bind_of_kept hlive'
          (runCallbacks_answers h hsecures rest hlive' htaken.closed)
          (fun _ => drain_answered h rounds) hhalt

/-- A lock runs the waiting callback before it marks its concern. -/
theorem lock_honours (hsecures : callback.Secures d) {fuel : Nat}
    (h : (lockWith fuel).Respects (Honoured i c d callback)) :
    Preserves (Honoured i c d callback) id
      (do drain (lockWith fuel) e fuel; settleOpen (lockWith fuel) e) := by
  by_cases hsame : i = id ∧ c = e
  · obtain ⟨rfl, rfl⟩ := hsame
    intro w hlive hclosed hhonoured hhalt
    have hanswered : (lockWith fuel).Respects (Answered i c d callback) :=
      respects_answered fuel
    have hkept := Preserves.bind_of_kept hlive
      (drain_answers hanswered hsecures fuel hlive hclosed hhonoured)
      (fun _ => settleOpen_answered hanswered) hhalt
    exact hkept.imp fun hholds _ => Or.inl hholds
  · have hother (hid : i = id) : ¬c = e := fun hc => hsame ⟨hid, hc⟩
    have hdrain : Preserves (Honoured i c d callback) id (drain (lockWith fuel) e fuel) := by
      apply h.drain
      · intro w queue _ hhonoured
        refine hhonoured.setBuilder (fun hd => hd) (fun _ => rfl) fun hid => ?_
        simp only [Builder.setCallbacks, if_neg (hother hid)]
      · intro w refused _ hhonoured hlive
        exact (hhonoured hlive).imp_left fun hanswered => hanswered.remember _
    apply hdrain.bind
    intro _
    refine Preserves.settleOpen ?_ (h.settleValues ?_ (fun _ _ hhonoured => hhonoured) ?_)
    · intro w _ _ hhonoured
      refine hhonoured.setBuilder (setLocked_of_locked e) (fun hid => ?_) fun _ => rfl
      simp only [Builder.setLocked, if_neg (hother hid)]
    · intro w pending resolved _ _ hhonoured
      exact hhonoured.setBuilder (fun hd => hd) (fun _ => rfl) (fun _ => rfl)
    · intro w _ hhonoured hlive
      exact (hhonoured hlive).imp_left fun hanswered => hanswered.remember _

/-- A callback that every builder begins with is honoured in every run. -/
theorem respects_honoured (hinitial : Builder.initialCallbacks c = [callback])
    (hsecures : callback.Secures d) (fuel : Nat) :
    (lockWith fuel).Respects (Honoured i c d callback) :=
  respects_lockWith (stable_honoured hinitial) (lock_honours hsecures) fuel

/-! The order asks for its uniqueness when its values are settled -/

/-- The last thing that the settlement of an order does is to lock its uniqueness. -/
theorem resolve_order_locks (h : lock.Lawful) {w' : World} (hlive : id < w.nextBuilder)
    (hclosed : w.Closed) (hrun : (resolve lock .order).exec id w = (.ok (), w')) :
    w.Kept (World.Locked id .uniqueness) w' := by
  obtain ⟨_, middle, hresolve, hlock⟩ := exec_bind_eq_ok hrun
  have hsound : Preserves (fun _ => True) id (resolveOrder lock) :=
    (respects_sound h).resolveOrder fun _ _ _ _ _ _ => trivial
  have hkept := hsound.kept hlive hclosed trivial hresolve
  exact hkept.trans (h.locks (hkept.live hlive) hkept.closed hlock)

theorem settleValues_order (h : lock.Respects (OrderSettled i)) :
    Preserves (OrderSettled i) id (settleValues lock .order) := by
  have hresolve : Preserves (OrderSettled i) id (resolve lock .order) :=
    h.resolve fun _ _ _ _ _ hholds => hholds.setBuilder fun hd => hd
  apply Preserves.read_bind
  apply (Preserves.log fun _ _ hholds => hholds).bind
  intro _ w hlive hclosed hholds hhalt
  rcases hrun : (resolve lock .order).exec id w with ⟨halt | _, w'⟩
  · have hkept := hresolve hlive hclosed hholds
    rw [hrun] at hkept
    rw [exec_bind_error hrun] at hhalt ⊢
    exact hkept hhalt
  · have hkept := hresolve.kept hlive hclosed hholds hrun
    have hlocked := resolve_order_locks h.toLawful hlive hclosed hrun
    rw [exec_bind_ok hrun]
    refine ⟨?_, hkept.closed, hkept.grows⟩
    by_cases hsame : id = i
    · subst hsame
      exact fun _ => hlocked.holds
    · exact hkept.holds.remember _ (by simpa using hsame)

theorem respects_orderSettled (fuel : Nat) :
    (lockWith fuel).Respects (OrderSettled i) := by
  apply respects_lockWith stable_orderSettled
  intro fuel id c h
  have hdrain : Preserves (OrderSettled i) id (drain (lockWith fuel) c fuel) :=
    h.drain (fun _ _ _ hholds => hholds.setBuilder fun hd => hd)
      (fun _ _ _ hholds => hholds.remember _ (by simp)) fuel
  have hvalues : Preserves (OrderSettled i) id (settleValues (lockWith fuel) c) := by
    by_cases horder : c = .order
    · subst horder
      exact settleValues_order h
    · exact h.settleValues (fun _ _ _ _ _ hholds => hholds.setBuilder fun hd => hd)
        (fun _ _ hholds => hholds) (fun _ _ hholds => hholds.remember _ (by simp [horder]))
  apply hdrain.bind
  intro _
  refine Preserves.settleOpen (fun w _ _ hholds => ?_) hvalues
  exact hholds.setBuilder (setLocked_of_locked c)

end Action

namespace World

open PageQuery.Action

variable {w : World} {id : BuilderId}

/-- In every run the callback that a builder begins with is honoured. -/
theorem Reached.honours (hreached : w.Reached) {c d : Concern} {callback : Callback}
    (hinitial : Builder.initialCallbacks c = [callback]) (hsecures : callback.Secures d)
    (id : BuilderId) : w.Honoured id c d callback := by
  have hstart (options : Options) (tokens : Nat) :
      (start options tokens).Honoured id c d callback := by
    intro _
    right
    rw [builder_start]
    refine ⟨rfl, ?_⟩
    change [callback] <+: Builder.initialCallbacks c
    exact hinitial ▸ List.prefix_rfl
  exact (hreached.kept (respects_honoured hinitial hsecures) hstart fun _ hholds => hholds).2.2

/-- A locked concern has had its callback answered, or refused. -/
theorem Reached.honoured (hreached : w.Reached) {c d : Concern} {callback : Callback}
    (hinitial : Builder.initialCallbacks c = [callback]) (hsecures : callback.Secures d)
    (hlive : id < w.nextBuilder) (hlocked : (w.builder id).locked c = true) :
    (w.builder id).locked d = true ∨ .callbackRefused id c callback ∈ w.history := by
  rcases hreached.honours hinitial hsecures id hlive with hanswered | ⟨hopen, _⟩
  · exact hanswered.2
  · rw [hopen] at hlocked
    cases hlocked

theorem Reached.orderSettled (hreached : w.Reached) (id : BuilderId) : w.OrderSettled id :=
  (hreached.kept respects_orderSettled (fun _ _ hsettled => nomatch hsettled)
    fun _ hholds => hholds).2.2

/-- Whenever a step is done, what a locked concern depends on is locked too, unless that
was interrupted. -/
theorem Reached.prerequisite_locked (hreached : w.Reached) (hlive : id < w.nextBuilder)
    {c d : Concern} (hprerequisite : c.prerequisite? = some d)
    (hlocked : (w.builder id).locked c = true) (hcalm : ¬w.Interrupted id c) :
    (w.builder id).locked d = true := by
  have hbounds (hinitial : Builder.initialCallbacks c = [.settleBounds])
      (hcalm : .callbackRefused id c .settleBounds ∉ w.history) :
      (w.builder id).locked .bounds = true :=
    (hreached.honoured hinitial settleBounds_secures hlive hlocked).resolve_right hcalm
  cases c with
  | wheres | offset | limit | first | last =>
      cases hprerequisite
      exact hbounds rfl hcalm
  | select =>
      cases hprerequisite
      exact (hreached.honoured rfl settleCursor_secures hlive hlocked).resolve_right hcalm
  | order =>
      cases hprerequisite
      exact (hreached.orderSettled id (Classical.not_not.mp hcalm)).2
  | _ => cases hprerequisite

/-- Whenever a step is done, a builder's dependencies hold exactly if they hold where
they were interrupted. -/
theorem Reached.ordered_iff (hreached : w.Reached) (hlive : id < w.nextBuilder) :
    (w.builder id).Ordered ↔
      ∀ c d, c.prerequisite? = some d → (w.builder id).locked c = true →
        w.Interrupted id c → (w.builder id).locked d = true := by
  constructor
  · intro hordered c d hprerequisite hlocked _
    exact hordered c d hprerequisite hlocked
  · intro hinterrupted c d hprerequisite hlocked
    by_cases hcalm : w.Interrupted id c
    · exact hinterrupted c d hprerequisite hlocked hcalm
    · exact hreached.prerequisite_locked hlive hprerequisite hlocked hcalm

/-- A run in which the bounds refuse to lock, and the wheres are locked twice: the first
lock is refused, the second one no longer asks for the bounds. -/
def interruptedRun : World :=
  let failing : Step := .mk [] (.fail (.validation (.other "broken"))) false none
  let lockWheres : Step := .mk [] (.lock .wheres) false none
  let registered := ((start {} 0).step (.mk [] (.beforeLock .bounds [failing]) false none)).2
  ((registered.step lockWheres).2.step lockWheres).2

theorem reached_interruptedRun : interruptedRun.Reached := by
  apply Reached.next
  · apply Reached.next
    · apply Reached.next
      · exact Reached.initial {} 0
      · decide +kernel
    · decide +kernel
  · decide +kernel

/-- The wheres of that run are locked while its bounds are open. -/
theorem not_ordered_interruptedRun :
    interruptedRun.Reached ∧ ¬(interruptedRun.builder root).Ordered := by
  refine ⟨reached_interruptedRun, fun hordered => ?_⟩
  have hbounds := hordered .wheres .bounds rfl (by decide +kernel)
  exact absurd hbounds (by decide +kernel)

theorem ordered_iff_interruptedRun :
    interruptedRun.Reached ∧ root < interruptedRun.nextBuilder ∧
      ((interruptedRun.builder root).Ordered ↔
        ∀ c d, c.prerequisite? = some d → (interruptedRun.builder root).locked c = true →
          interruptedRun.Interrupted root c → (interruptedRun.builder root).locked d = true) := by
  have hlive : root < interruptedRun.nextBuilder := by decide +kernel
  exact ⟨reached_interruptedRun, hlive, reached_interruptedRun.ordered_iff hlive⟩

end World

end PageQuery
