import PageQuery.Proofs.Lock.Expected

/-!
# Locks that must not be asked for

A barred lock gives up where it is asked for one particular concern that is open.  A run
that does not give up under it never asks for that lock, at whatever depth, and so it
does what it does under the ordinary lock; the concern stays open, and its callbacks stay
registered.
-/

namespace PageQuery

namespace Action

/-- A lock that gives up where it is asked for the open concern `c` of builder `i`. -/
def lockBarring (i : BuilderId) (c : Concern) : (fuel : Nat) → Locker
  | 0, d => do if (← self).locked d then return else exhaust
  | fuel + 1, d => do
    if (← self).locked d then return
    if (← read) = i ∧ d = c then exhaust
    drain (lockBarring i c fuel) d fuel
    settleOpen (lockBarring i c fuel) d

variable {i id : BuilderId} {c d : Concern} {w : World}

/-- A barred lock is one that never finds its builder as expected. -/
theorem lockBarring_eq : lockBarring i c = lockExpecting (fun _ => false) i c := by
  funext fuel
  induction fuel with
  | zero => rfl
  | succ fuel ih =>
      funext d
      simp only [lockBarring, lockExpecting, ih, and_true]

theorem rounds_lockBarring (i : BuilderId) (c : Concern) : Rounds (lockBarring i c) := by
  rw [lockBarring_eq]
  exact rounds_lockExpecting _ i c

theorem exec_lockBarring_barred (fuel : Nat) (hopen : (w.builder i).locked c = false) :
    ((lockBarring i c fuel c).exec i w).1 = .error (.aborted .exhausted) := by
  cases fuel with
  | zero =>
      have hlocked : ¬(w.builder i).locked c = true := by simp [hopen]
      rw [lockBarring, exec_self_bind, exec_ite, if_neg hlocked, exec_exhaust]
  | succ fuel =>
      by_contra hhalt
      rw [lockBarring_eq] at hhalt
      exact Bool.false_ne_true (expected_of_lock hopen hhalt)

/-- A program that does not give up under a barred lock does the same under the ordinary
one. -/
theorem Program.exec_of_barred {α : Type} {f : Locker → Action α} (hf : Program True f)
    {fuel : Nat} {result : Except Halt α} {w' : World}
    (hrun : (f (lockBarring i c fuel)).exec id w = (result, w'))
    (hhalt : Completes result) : (f (lockWith fuel)).exec id w = (result, w') :=
  hf.exec_of_rounds (rounds_lockBarring i c) hrun hhalt

end Action

namespace World

variable {w : World} {i id : BuilderId} {c : Concern} {queue : List Callback}

/-- A concern that is open, with callbacks of which `queue` are the first. -/
def Waiting (i : BuilderId) (c : Concern) (queue : List Callback) (w : World) : Prop :=
  i < w.nextBuilder ∧ (w.builder i).locked c = false ∧ queue <+: (w.builder i).callbacks c

theorem stable_waiting : Stable (Waiting i c queue) := by
  rintro w w' hchange ⟨hlive, hopen, hqueue⟩
  obtain ⟨hlocked, hcallbacks⟩ := hchange.builder hlive
  exact ⟨Nat.lt_of_lt_of_le hlive hchange.nextBuilder_le, by rw [hlocked, hopen],
    hqueue.trans (hcallbacks c)⟩

/-- To put a builder in place of one with the same lock and the same callbacks. -/
theorem same_setBuilder {b : Builder} (hsame : i = id →
    b.locked c = (w.builder id).locked c ∧ b.callbacks c = (w.builder id).callbacks c) :
    ((w.setBuilder id b).builder i).locked c = (w.builder i).locked c ∧
      ((w.setBuilder id b).builder i).callbacks c = (w.builder i).callbacks c :=
  ⟨part_setBuilder (·.locked c) fun hid => (hsame hid).1,
    part_setBuilder (·.callbacks c) fun hid => (hsame hid).2⟩

theorem Waiting.setBuilder {b : Builder} (hwaiting : w.Waiting i c queue)
    (hsame : i = id → b.locked c = (w.builder id).locked c ∧
      b.callbacks c = (w.builder id).callbacks c) :
    (w.setBuilder id b).Waiting i c queue := by
  obtain ⟨hlocked, hcallbacks⟩ := same_setBuilder hsame
  refine ⟨hwaiting.1, ?_⟩
  rw [hlocked, hcallbacks]
  exact hwaiting.2

end World

namespace Action

open World

variable {i id : BuilderId} {c d : Concern} {queue : List Callback} {lock : Locker}

/-- To lock another concern keeps what looks only at the lock of a concern, at its callbacks
and at the history. -/
theorem round_other {P : World → Prop} (h : lock.Respects P) (hother : ¬(id = i ∧ d = c))
    (hset : ∀ {w : World} {b : Builder}, (i = id → b.locked c = (w.builder id).locked c ∧
      b.callbacks c = (w.builder id).callbacks c) → P w → P (w.setBuilder id b))
    (hreports : ∀ (w : World) (events : List Event) (moments : List Moment),
      P w → P { w with events, history := w.history ++ moments })
    (rounds : Nat) : Preserves P id (do drain lock d rounds; settleOpen lock d) := by
  have hne (hid : i = id) : ¬c = d := fun hc => hother ⟨hid.symm, hc.symm⟩
  have hremembered (w : World) (moment : Moment) (hholds : P w) :
      P { w with history := w.history ++ [moment] } := hreports w w.events [moment] hholds
  have hlogged (w : World) (event : Event) (hholds : P w) :
      P { w with events := w.events ++ [event] } := by
    have hreported := hreports w (w.events ++ [event]) [] hholds
    rwa [List.append_nil] at hreported
  have hdrain : Preserves P id (drain lock d rounds) := by
    refine h.drain ?_ (fun w _ _ => hremembered w _) rounds
    intro w taken _
    refine hset fun hid => ⟨rfl, ?_⟩
    simp only [Builder.setCallbacks, if_neg (hne hid)]
  refine hdrain.bind fun _ => Preserves.settleOpen ?_ (h.settleValues ?_ ?_ ?_)
  · intro w _ _
    refine hset fun hid => ⟨?_, rfl⟩
    simp only [Builder.setLocked, if_neg (hne hid)]
  · exact fun _ _ _ _ _ => hset fun _ => ⟨rfl, rfl⟩
  · exact fun w _ => hlogged w _
  · exact fun w _ => hremembered w _

/-- To lock another concern neither locks a concern nor takes its callbacks. -/
theorem round_waiting (h : lock.Respects (Waiting i c queue)) (hother : ¬(id = i ∧ d = c))
    (rounds : Nat) :
    Preserves (Waiting i c queue) id (do drain lock d rounds; settleOpen lock d) :=
  round_other h hother (fun hsame hwaiting => hwaiting.setBuilder hsame)
    (fun _ _ _ hwaiting => hwaiting) rounds

/-- Whatever does not ask for the lock of a concern leaves the concern open and its
callbacks registered. -/
theorem respects_waiting (i : BuilderId) (c : Concern) (queue : List Callback) (fuel : Nat) :
    (lockBarring i c fuel).Respects (Waiting i c queue) := by
  refine (rounds_lockBarring i c).respects stable_waiting ?_ fuel
  intro fuel id d h
  by_cases hbarred : id = i ∧ d = c
  · obtain ⟨rfl, rfl⟩ := hbarred
    intro w _ _ hwaiting hhalt
    exact absurd (exec_lockBarring_barred _ hwaiting.2.1) (hhalt _)
  · exact (rounds_lockBarring i c).preserves (round_waiting h hbarred fuel)

end Action

end PageQuery
