import PageQuery.Proofs.Run.Follow
import PageQuery.Proofs.Run.Locking

/-!
# Locks of an expected builder

A lock may be made to give up where one particular concern is first asked for on a builder that
is not as expected.  A run that does not give up under it does what it does under the ordinary
lock, and whichever operation of it locks that concern, the builder is as expected then.
-/

namespace PageQuery

namespace Action

section

variable {locks : Nat → Locker} (h : Rounds locks)

include h

/-- Unless they give up, locks of growing fuel do what the ordinary locks do. -/
theorem Rounds.follows (fuel : Nat) (d : Concern) :
    Follows Eq (locks fuel d) (lockWith fuel d) := by
  induction fuel generalizing d with
  | zero =>
      rw [h.zero]
      exact follows_lockWith World.likeness_eq (Nat.le_refl 0) d
  | succ fuel ih =>
      have hround : Follows Eq (do drain (locks fuel) d fuel; settleOpen (locks fuel) d)
          (do drain (lockWith fuel) d fuel; settleOpen (lockWith fuel) d) :=
        ((Program.drain d fuel).bind fun _ => Program.settleOpen d).follows World.likeness_eq ih
      rintro id w _ rfl hhalt
      cases hlocked : (w.builder id).locked d with
      | true =>
          rw [h.idle _ hlocked, exec_lockWith_locked fuel hlocked]
          exact ⟨rfl, rfl⟩
      | false =>
          have hexec := h.opened hlocked hhalt
          rw [hexec] at hhalt ⊢
          rw [exec_lockWith_open fuel hlocked]
          exact hround rfl hhalt

/-- A program that does not give up under such locks does the same under the ordinary ones. -/
theorem Program.exec_of_rounds {α : Type} {f : Locker → Action α} (hf : Program True f)
    {id : BuilderId} {w w' : World} {fuel : Nat} {result : Except Halt α}
    (hrun : (f (locks fuel)).exec id w = (result, w')) (hhalt : Completes result) :
    (f (lockWith fuel)).exec id w = (result, w') := by
  obtain ⟨_, hrun', rfl⟩ :=
    (hf.follows World.likeness_eq (h.follows fuel)).run rfl hrun (hhalt _)
  exact hrun'

end

/-- A lock that gives up where it is asked for the open concern `c` of builder `i`, unless the
builder is as expected. -/
def lockExpecting (expected : Builder → Bool) (i : BuilderId) (c : Concern) :
    (fuel : Nat) → Locker
  | 0, d => do if (← self).locked d then return else exhaust
  | fuel + 1, d => do
    let b ← self
    if b.locked d then return
    if (← read) = i ∧ d = c ∧ expected b = false then exhaust
    drain (lockExpecting expected i c fuel) d fuel
    settleOpen (lockExpecting expected i c fuel) d

variable {expected : Builder → Bool} {i id : BuilderId} {c d : Concern} {w : World}

theorem exec_lockExpecting_locked (fuel : Nat) (hlocked : (w.builder id).locked d = true) :
    (lockExpecting expected i c fuel d).exec id w = (.ok (), w) := by
  cases fuel with
  | zero => rw [lockExpecting, exec_self_bind, exec_ite, if_pos hlocked, exec_pure]
  | succ fuel => rw [lockExpecting, exec_self_bind, exec_ite, if_pos hlocked, exec_pure]

theorem exec_lockExpecting_open (fuel : Nat) (hopen : (w.builder id).locked d = false) :
    (lockExpecting expected i c (fuel + 1) d).exec id w =
      if id = i ∧ d = c ∧ expected (w.builder id) = false then (.error (.aborted .exhausted), w)
      else (do
        drain (lockExpecting expected i c fuel) d fuel
        settleOpen (lockExpecting expected i c fuel) d).exec id w := by
  rw [lockExpecting, exec_self_bind, exec_ite, if_neg (by simp [hopen]), exec_bind_ok exec_read,
    exec_ite]
  split <;> rfl

theorem rounds_lockExpecting (expected : Builder → Bool) (i : BuilderId) (c : Concern) :
    Rounds (lockExpecting expected i c) where
  zero := rfl
  idle fuel _ _ _ hlocked := exec_lockExpecting_locked fuel hlocked
  opened {fuel id d w} hopen hhalt := by
    rw [exec_lockExpecting_open fuel hopen] at hhalt ⊢
    split
    · rw [if_pos ‹_›] at hhalt
      exact absurd rfl hhalt
    · rfl

/-- A builder whose concern is locked without giving up is as expected. -/
theorem expected_of_lock {fuel : Nat} (hopen : (w.builder i).locked c = false)
    (hhalt : ((lockExpecting expected i c (fuel + 1) c).exec i w).1 ≠
      .error (.aborted .exhausted)) :
    expected (w.builder i) = true := by
  rw [exec_lockExpecting_open fuel hopen] at hhalt
  split at hhalt
  · exact absurd rfl hhalt
  · simpa using ‹¬(i = i ∧ c = c ∧ expected (w.builder i) = false)›

end Action

end PageQuery
