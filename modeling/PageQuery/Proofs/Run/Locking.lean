import PageQuery.Proofs.Run.Contents
import PageQuery.Proofs.Run.Operations

/-!
# Locks

A lock runs the callbacks of its concern and then settles its values, with a lock of
less fuel inside.  So what a drain and a settlement keep, given that the lock inside
keeps it, every lock keeps: this is the one induction on fuel.  The first thing to
follow is that nothing is ever opened again.
-/

namespace PageQuery

open Sql

namespace Action

variable {α : Type} {P : World → Prop} {id : BuilderId} {w : World}

/-- Without fuel a lock only answers where nothing is to be done. -/
theorem exec_lockWith_zero (c : Concern) :
    (lockWith 0 c).exec id w =
      if (w.builder id).locked c then (.ok (), w) else (.error (.aborted .exhausted), w) := by
  simp only [lockWith, exec_bind, exec_self, exec_ite, exec_pure, exec_exhaust]

theorem exec_lockWith_locked (fuel : Nat) {c : Concern}
    (hlocked : (w.builder id).locked c = true) :
    (lockWith (fuel + 1) c).exec id w = (.ok (), w) := by
  rw [lockWith, exec_self_bind, exec_ite, if_pos hlocked, exec_pure]

/-- With fuel it drains the callbacks of the concern and then settles it. -/
theorem exec_lockWith_open (fuel : Nat) {c : Concern}
    (hopen : (w.builder id).locked c = false) :
    (lockWith (fuel + 1) c).exec id w =
      (do drain (lockWith fuel) c fuel; settleOpen (lockWith fuel) c).exec id w := by
  rw [lockWith, exec_self_bind, exec_ite, if_neg (by simp [hopen])]

/-- A concern that a callback has locked meanwhile is not settled again. -/
theorem exec_settleOpen (lock : Locker) (c : Concern) :
    (settleOpen lock c).exec id w =
      if (w.builder id).locked c then (.ok (), w) else (settle lock c).exec id w := by
  rw [settleOpen, exec_self_bind, exec_ite, exec_pure]

theorem exec_settle (lock : Locker) (c : Concern) :
    (settle lock c).exec id w =
      (settleValues lock c).exec id (w.setBuilder id ((w.builder id).setLocked c)) := rfl

/-- Callbacks run one after the other.  If one is refused, those behind it are registered again,
ahead of what has been registered meanwhile. -/
theorem exec_runCallbacks_cons (lock : Locker) (c : Concern) (callback : Callback)
    (rest : List Callback) :
    (runCallbacks lock c (callback :: rest)).exec id w =
      match (runCallback lock callback).exec id w with
      | (.ok (), w') => (runCallbacks lock c rest).exec id w'
      | (.error (.refused e), w') =>
        (.error (.refused e), { w'.setBuilder id ((w'.builder id).setCallbacks c
            (rest ++ (w'.builder id).callbacks c)) with
          history := w'.history ++ [.callbackRefused id c callback] })
      | (.error (.aborted reason), w') => (.error (.aborted reason), w') := by
  rw [runCallbacks, exec_bind, exec_attempt]
  rcases (runCallback lock callback).exec id w with ⟨(_ | _) | _, _⟩ <;> rfl

/-- A drain of an empty queue does nothing. -/
theorem exec_drain_nil (lock : Locker) {c : Concern} (rounds : Nat)
    (hnone : (w.builder id).callbacks c = []) :
    (drain lock c (rounds + 1)).exec id w = (.ok (), w) := by
  rw [drain, exec_self_bind, hnone]
  rfl

/-- A drain takes the whole queue, runs it and looks at the queue again. -/
theorem exec_drain_succ (lock : Locker) {c : Concern} (rounds : Nat)
    (hsome : (w.builder id).callbacks c ≠ []) :
    (drain lock c (rounds + 1)).exec id w =
      (do runCallbacks lock c ((w.builder id).callbacks c); drain lock c rounds).exec id
        (w.setBuilder id ((w.builder id).setCallbacks c [])) := by
  rw [drain, exec_self_bind, exec_ite, if_neg (by simpa using hsome)]
  exact exec_bind_ok (exec_update _)

theorem closed_setLocked {c : Concern} (hclosed : w.Closed) :
    (w.setBuilder id ((w.builder id).setLocked c)).Closed :=
  hclosed.setBuilder id (hclosed id)

/-- The concern that is marked is locked. -/
theorem setLocked_locked (b : Builder) (c : Concern) : (b.setLocked c).locked c = true := by
  simp [Builder.setLocked]

/-- The others stay as they are. -/
theorem setLocked_of_locked {b : Builder} {d : Concern} (c : Concern)
    (hlocked : b.locked d = true) : (b.setLocked c).locked d = true := by
  simp only [Builder.setLocked]
  split
  · rfl
  · exact hlocked

/-- To lock what is locked does nothing, at any fuel. -/
theorem idle_lockWith (fuel : Nat) : (lockWith fuel).Idle := by
  intro c id w hlocked
  cases fuel with
  | zero => rw [exec_lockWith_zero, if_pos hlocked]
  | succ fuel => exact exec_lockWith_locked fuel hlocked

/-- A change of the builder keeps a property, and its children. -/
theorem Preserves.update {change : Builder → Builder}
    (hchange : ∀ w : World, id < w.nextBuilder → P w →
      P (w.setBuilder id (change (w.builder id))))
    (hchildren : ∀ b, (change b).children = b.children) :
    Preserves P id (update change) := by
  intro w hlive hclosed hholds _
  refine ⟨hchange w hlive hholds, ?_, Nat.le_refl _⟩
  apply hclosed.setBuilder id
  intro entry hentry
  rw [hchildren] at hentry
  exact hclosed id entry hentry

theorem Preserves.remember {moment : Moment}
    (hmoment : ∀ w : World, id < w.nextBuilder → P w →
      P { w with history := w.history ++ [moment] }) :
    Preserves P id (remember moment) := by
  intro w hlive hclosed hholds _
  exact ⟨hmoment w hlive hholds, hclosed, Nat.le_refl _⟩

theorem Preserves.log {event : Event}
    (hevent : ∀ w : World, id < w.nextBuilder → P w →
      P { w with events := w.events ++ [event] }) : Preserves P id (log event) := by
  intro w hlive hclosed hholds _
  exact ⟨hevent w hlive hholds, hclosed, Nat.le_refl _⟩

/-- A settlement keeps a property that holds on when its concern is locked. -/
theorem Preserves.settleOpen {lock : Locker} {c : Concern}
    (hlock : ∀ w : World, id < w.nextBuilder → (w.builder id).locked c = false → P w →
      P (w.setBuilder id ((w.builder id).setLocked c)))
    (hvalues : Preserves P id (settleValues lock c)) : Preserves P id (settleOpen lock c) := by
  intro w hlive hclosed hholds hhalt
  rw [exec_settleOpen] at hhalt ⊢
  split
  · exact World.Kept.refl hclosed hholds
  · rw [if_neg ‹_›] at hhalt
    have hopen : (w.builder id).locked c = false := by simpa using ‹¬(w.builder id).locked c = true›
    have hlocked : w.Kept P (w.setBuilder id ((w.builder id).setLocked c)) :=
      ⟨hlock w hlive hopen hholds, closed_setLocked hclosed, Nat.le_refl _⟩
    exact hlocked.trans (hvalues hlive hlocked.closed hlocked.holds hhalt)

end Action

namespace Locker.Respects

open PageQuery.Action

variable {P : World → Prop} {id : BuilderId} {lock : Locker} {c : Concern}
variable (h : lock.Respects P)

include h

/-- Callbacks keep a property that looks neither at the callbacks of the concern nor
at the refusals of the builder. -/
theorem runCallbacks
    (hqueue : ∀ (w : World) (queue : List Callback), id < w.nextBuilder → P w →
      P (w.setBuilder id ((w.builder id).setCallbacks c queue)))
    (hrefused : ∀ (w : World) (callback : Callback), id < w.nextBuilder → P w →
      P { w with history := w.history ++ [.callbackRefused id c callback] })
    (callbacks : List Callback) : Preserves P id (runCallbacks lock c callbacks) := by
  induction callbacks with
  | nil => exact Preserves.pure _
  | cons callback rest ih =>
      apply (h.runCallback callback).attempt.bind
      intro outcome
      cases outcome with
      | ok _ => exact ih
      | error e =>
          have hrestore : Preserves P id
              (update fun b => b.setCallbacks c (rest ++ b.callbacks c)) :=
            Preserves.update (fun w hlive hholds => hqueue w _ hlive hholds) fun _ => rfl
          have hremember : Preserves P id (remember (.callbackRefused id c callback)) :=
            Preserves.remember fun w hlive hholds => hrefused w callback hlive hholds
          have hrefuse : Preserves P id
              (remember (.callbackRefused id c callback) >>= fun _ => refuse e : Action Unit) :=
            hremember.bind fun _ => Preserves.refuse e
          exact hrestore.bind fun _ => hrefuse

/-- Round by round, callbacks keep what they keep. -/
theorem drain
    (hqueue : ∀ (w : World) (queue : List Callback), id < w.nextBuilder → P w →
      P (w.setBuilder id ((w.builder id).setCallbacks c queue)))
    (hrefused : ∀ (w : World) (callback : Callback), id < w.nextBuilder → P w →
      P { w with history := w.history ++ [.callbackRefused id c callback] })
    (rounds : Nat) : Preserves P id (drain lock c rounds) := by
  induction rounds with
  | zero =>
      intro w _ _ _ hhalt
      exact absurd rfl (hhalt _)
  | succ rounds ih =>
      apply Preserves.self.bind
      intro b
      apply Preserves.ite (Preserves.pure _)
      refine Preserves.bind ?_ fun _ => (h.runCallbacks hqueue hrefused _).bind fun _ => ih
      exact Preserves.update (fun w hlive hholds => hqueue w _ hlive hholds) fun _ => rfl

/-- To settle the terms of an order keeps a property that does not look at them. -/
theorem resolveOrder
    (hvalues : ∀ (w : World) (pending : Pending) (resolved : Resolved),
      (∀ d, d ≠ .order → Builder.contents { w.builder id with pending, resolved } d =
        (w.builder id).contents d) →
      id < w.nextBuilder → P w →
        P (w.setBuilder id { w.builder id with pending, resolved })) :
    Preserves P id (resolveOrder lock) := by
  have hpending : Preserves P id (updatePending fun p => { p with orderTerms := [] }) :=
    Preserves.update (fun w hlive hholds =>
      hvalues w _ _ (by rintro ⟨⟩ hd <;> first | rfl | exact absurd rfl hd) hlive hholds)
      fun _ => rfl
  have hresolved (terms : List OrderTerm) :
      Preserves P id (updateResolved fun r => { r with orderTerms := terms }) :=
    Preserves.update (fun w hlive hholds =>
      hvalues w _ _ (by rintro ⟨⟩ hd <;> first | rfl | exact absurd rfl hd) hlive hholds)
      fun _ => rfl
  apply Preserves.self.bind
  intro _
  apply hpending.bind
  intro _
  exact (Preserves.mapM _ fun _ => h.resolveTerm _).bind hresolved

/-- To settle the values of a concern keeps a property that does not look at the
contents of this concern. -/
theorem resolve
    (hvalues : ∀ (w : World) (pending : Pending) (resolved : Resolved),
      (∀ d, d ≠ c → Builder.contents { w.builder id with pending, resolved } d =
        (w.builder id).contents d) →
      id < w.nextBuilder → P w →
        P (w.setBuilder id { w.builder id with pending, resolved })) :
    Preserves P id (resolve lock c) := by
  have hpending (change : Pending → Pending)
      (hkeeps : ∀ (b : Builder) (d : Concern), d = c ∨
        Builder.contents { b with pending := change b.pending } d = b.contents d) :
      Preserves P id (updatePending change) :=
    Preserves.update (fun w hlive hholds =>
      hvalues w _ _ (fun d hd => (hkeeps _ d).resolve_left hd) hlive hholds) fun _ => rfl
  have hresolved (change : Resolved → Resolved)
      (hkeeps : ∀ (b : Builder) (d : Concern), d = c ∨
        Builder.contents { b with resolved := change b.resolved } d = b.contents d) :
      Preserves P id (updateResolved change) :=
    Preserves.update (fun w hlive hholds =>
      hvalues w _ _ (fun d hd => (hkeeps _ d).resolve_left hd) hlive hholds) fun _ => rfl
  cases c with
  | source | joins | uniqueness | cursorTag | bounds | first | last =>
      exact Preserves.pure _
  | order => exact (h.resolveOrder hvalues).bind fun _ => h.lock .uniqueness id
  | comparator =>
      apply Preserves.self.bind
      intro _
      apply (hpending _ (by rintro _ ⟨⟩ <;> simp [Builder.contents])).bind
      intro _
      exact hresolved _ (by rintro _ ⟨⟩ <;> simp [Builder.contents])
  | wheres =>
      apply Preserves.self.bind
      intro _
      apply (hpending _ (by rintro _ ⟨⟩ <;> simp [Builder.contents])).bind
      intro _
      exact (Preserves.mapM _ fun _ => h.resolveFragment _).bind fun _ =>
        hresolved _ (by rintro _ ⟨⟩ <;> simp [Builder.contents])
  | offset =>
      apply Preserves.self.bind
      intro _
      apply (hpending _ (by rintro _ ⟨⟩ <;> simp [Builder.contents])).bind
      intro _
      exact (h.resolveOffsets _ _).bind fun _ =>
        hresolved _ (by rintro _ ⟨⟩ <;> simp [Builder.contents])
  | limit =>
      apply Preserves.self.bind
      intro _
      apply (hpending _ (by rintro _ ⟨⟩ <;> simp [Builder.contents])).bind
      intro _
      exact (Preserves.mapM_option _ fun _ => h.resolveCount _).bind fun _ =>
        hresolved _ (by rintro _ ⟨⟩ <;> simp [Builder.contents])
  | cursor =>
      apply Preserves.self.bind
      intro _
      apply (hpending _ (by rintro _ ⟨⟩ <;> simp [Builder.contents])).bind
      intro _
      exact (Preserves.mapM_option _ fun _ => h.resolveFragment _).bind fun _ =>
        hresolved _ (by rintro _ ⟨⟩ <;> simp [Builder.contents])
  | select =>
      apply Preserves.self.bind
      intro _
      apply (hpending _ (by rintro _ ⟨⟩ <;> simp [Builder.contents])).bind
      intro _
      exact (h.resolveFields _ _).bind fun _ =>
        hresolved _ (by rintro _ ⟨⟩ <;> simp [Builder.contents])

/-- To settle values keeps a property that does not look at the concern, nor at the report and the
memory of it. -/
theorem settleValues
    (hvalues : ∀ (w : World) (pending : Pending) (resolved : Resolved),
      (∀ d, d ≠ c → Builder.contents { w.builder id with pending, resolved } d =
        (w.builder id).contents d) →
      id < w.nextBuilder → P w →
        P (w.setBuilder id { w.builder id with pending, resolved }))
    (hlogged : ∀ w : World, id < w.nextBuilder → P w →
      P { w with events := w.events ++ [.locked id c] })
    (hsettled : ∀ w : World, id < w.nextBuilder → P w →
      P { w with history := w.history ++ [.settled id c] }) :
    Preserves P id (settleValues lock c) := by
  apply Preserves.read_bind
  apply (Preserves.log hlogged).bind
  intro _
  apply (h.resolve hvalues).bind
  intro _
  apply Preserves.read_bind
  exact Preserves.remember hsettled

omit h in
/-- Two properties that are kept are kept together. -/
theorem and {Q : World → Prop} (hP : lock.Respects P) (hQ : lock.Respects Q) :
    lock.Respects fun w => P w ∧ Q w :=
  { hP with
    stable := fun _ _ hchange hholds =>
      ⟨hP.stable hchange hholds.1, hQ.stable hchange hholds.2⟩
    lock := fun c id => (hP.lock c id).and (hQ.lock c id) }

end Locker.Respects

namespace World

/-- No change of the world opens a concern. -/
theorem stable_locked (id : BuilderId) (c : Concern) : Stable (Locked id c) := by
  intro w w' hchange hlocked
  refine ⟨Nat.lt_of_lt_of_le hlocked.1 hchange.nextBuilder_le, ?_⟩
  rw [hchange.locked hlocked.1]
  exact hlocked.2

/-- To put a builder in place of one whose locks it keeps opens nothing. -/
theorem Locked.setBuilder {w : World} {other id : BuilderId} {d : Concern} {b : Builder}
    (hlocked : w.Locked other d)
    (hkeeps : (w.builder id).locked d = true → b.locked d = true) :
    (w.setBuilder id b).Locked other d :=
  ⟨hlocked.1, holds_setBuilder (·.locked d = true) (fun _ => hkeeps) hlocked.2⟩

end World

namespace Action

variable {id : BuilderId} {w : World} {lock : Locker} {c : Concern}

section

variable (h : lock.Lawful)

include h

theorem respects_sound : lock.Respects fun _ => True :=
  { h with stable := fun _ _ _ _ => trivial, lock := h.sound }

theorem respects_locked (other : BuilderId) (d : Concern) :
    lock.Respects (World.Locked other d) :=
  { h with stable := World.stable_locked other d, lock := h.keeps other d }

theorem drain_sound (rounds : Nat) : Preserves (fun _ => True) id (drain lock c rounds) :=
  (respects_sound h).drain (fun _ _ _ _ => trivial) (fun _ _ _ _ => trivial) rounds

/-- Callbacks open nothing. -/
theorem drain_keeps (other : BuilderId) (d : Concern) (rounds : Nat) :
    Preserves (World.Locked other d) id (drain lock c rounds) :=
  (respects_locked h other d).drain (fun _ _ _ hlocked => hlocked.setBuilder fun hd => hd)
    (fun _ _ _ hlocked => hlocked) rounds

theorem settleValues_sound : Preserves (fun _ => True) id (settleValues lock c) :=
  (respects_sound h).settleValues (fun _ _ _ _ _ _ => trivial) (fun _ _ _ => trivial)
    (fun _ _ _ => trivial)

/-- A settlement opens nothing. -/
theorem settleValues_keeps (other : BuilderId) (d : Concern) :
    Preserves (World.Locked other d) id (settleValues lock c) :=
  (respects_locked h other d).settleValues
    (fun _ _ _ _ _ hlocked => hlocked.setBuilder fun hd => hd) (fun _ _ hlocked => hlocked)
    (fun _ _ hlocked => hlocked)

theorem settleOpen_sound : Preserves (fun _ => True) id (settleOpen lock c) :=
  Preserves.settleOpen (fun _ _ _ _ => trivial) (settleValues_sound h)

theorem settleOpen_keeps (other : BuilderId) (d : Concern) :
    Preserves (World.Locked other d) id (settleOpen lock c) :=
  Preserves.settleOpen
    (fun _ _ _ hlocked => hlocked.setBuilder (setLocked_of_locked c))
    (settleValues_keeps h other d)

/-- A settlement locks its concern first, and nothing opens it. -/
theorem settle_locks {w' : World} (hlive : id < w.nextBuilder) (hclosed : w.Closed)
    (hrun : (settle lock c).exec id w = (.ok (), w')) : w.Kept (World.Locked id c) w' := by
  rw [exec_settle] at hrun
  have hlocked : (w.setBuilder id ((w.builder id).setLocked c)).Locked id c := by
    refine ⟨hlive, ?_⟩
    rw [World.builder_setBuilder_self]
    exact setLocked_locked _ c
  have hkept := (settleValues_keeps h id c).kept hlocked.1 (closed_setLocked hclosed) hlocked hrun
  exact ⟨hkept.holds, hkept.closed, hkept.grows⟩

/-- Behind it the concern is locked, whoever has locked it. -/
theorem settleOpen_locks {w' : World} (hlive : id < w.nextBuilder) (hclosed : w.Closed)
    (hrun : (settleOpen lock c).exec id w = (.ok (), w')) :
    w.Kept (World.Locked id c) w' := by
  rw [exec_settleOpen] at hrun
  split at hrun
  · cases hrun
    exact World.Kept.refl hclosed ⟨hlive, ‹_›⟩
  · exact settle_locks h hlive hclosed hrun

end

/-- Without fuel nothing is changed. -/
theorem preserves_lockWith_zero {P : World → Prop} : Preserves P id (lockWith 0 c) := by
  intro w _ hclosed hholds hhalt
  rw [exec_lockWith_zero] at hhalt ⊢
  split
  · exact World.Kept.refl hclosed hholds
  · rw [if_neg ‹_›] at hhalt
    exact absurd rfl (hhalt _)

/-- The lock without fuel obeys the laws of locks. -/
theorem lawful_lockWith_zero : (lockWith 0).Lawful := by
  refine ⟨idle_lockWith 0, fun _ _ => preserves_lockWith_zero, ?_,
    fun _ _ _ _ => preserves_lockWith_zero⟩
  intro c id w w' hlive hclosed hrun
  rw [exec_lockWith_zero] at hrun
  split at hrun
  · cases hrun
    exact World.Kept.refl hclosed ⟨hlive, ‹_›⟩
  · cases hrun

/-- Locks of growing fuel.  Each of them leaves an open concern to a drain and the
settlement behind it, with the lock of less fuel inside, unless it gives up. -/
structure Rounds (locks : Nat → Locker) : Prop where
  zero : locks 0 = lockWith 0
  idle : ∀ fuel, (locks fuel).Idle
  opened : ∀ {fuel : Nat} {id : BuilderId} {c : Concern} {w : World},
    (w.builder id).locked c = false →
      ((locks (fuel + 1) c).exec id w).1 ≠ .error (.aborted .exhausted) →
      (locks (fuel + 1) c).exec id w =
        (do drain (locks fuel) c fuel; settleOpen (locks fuel) c).exec id w

/-- Locks are made of locks of less fuel. -/
theorem rounds_lockWith : Rounds lockWith where
  zero := rfl
  idle := idle_lockWith
  opened hopen _ := exec_lockWith_open _ hopen

namespace Rounds

variable {locks : Nat → Locker} (h : Rounds locks) {P : World → Prop} {fuel : Nat}

include h

theorem preserves
    (hround : Preserves P id (do drain (locks fuel) c fuel; settleOpen (locks fuel) c)) :
    Preserves P id (locks (fuel + 1) c) := by
  intro w hlive hclosed hholds hhalt
  cases hlocked : (w.builder id).locked c with
  | true =>
      rw [h.idle _ hlocked]
      exact World.Kept.refl hclosed hholds
  | false =>
      have hexec := h.opened hlocked (hhalt _)
      rw [hexec] at hhalt ⊢
      exact hround hlive hclosed hholds hhalt

/-- A lock locks its concern, and opens nothing. -/
theorem lawful (fuel : Nat) : (locks fuel).Lawful := by
  induction fuel with
  | zero =>
      rw [h.zero]
      exact lawful_lockWith_zero
  | succ fuel ih =>
      refine ⟨h.idle _, fun c id => ?_, ?_, fun other d c id => ?_⟩
      · exact h.preserves ((drain_sound ih fuel).bind fun _ => settleOpen_sound ih)
      · intro c id w w' hlive hclosed hrun
        cases hlocked : (w.builder id).locked c with
        | true =>
            rw [h.idle _ hlocked] at hrun
            cases hrun
            exact World.Kept.refl hclosed ⟨hlive, hlocked⟩
        | false =>
            rw [h.opened hlocked (by rw [hrun]; simp)] at hrun
            obtain ⟨_, middle, hdrain, hsettle⟩ := exec_bind_eq_ok hrun
            have hkept := (drain_sound ih fuel).kept hlive hclosed trivial hdrain
            have hlive' := hkept.live hlive
            exact hkept.trans (settleOpen_locks ih hlive' hkept.closed hsettle)
      · exact h.preserves ((drain_keeps ih other d fuel).bind fun _ => settleOpen_keeps ih other d)

/-- What every lock keeps, given that the lock inside it does, all locks keep. -/
theorem respects (hstable : World.Stable P)
    (hlock : ∀ {fuel : Nat} {id : BuilderId} {c : Concern}, (locks fuel).Respects P →
      Preserves P id (locks (fuel + 1) c))
    (fuel : Nat) : (locks fuel).Respects P := by
  induction fuel with
  | zero =>
      refine { h.lawful 0 with stable := hstable, lock := fun c id => ?_ }
      rw [h.zero]
      exact preserves_lockWith_zero
  | succ fuel ih =>
      exact { h.lawful (fuel + 1) with stable := hstable, lock := fun _ _ => hlock ih }

end Rounds

/-- Every lock obeys the laws of locks. -/
theorem lawful_lockWith (fuel : Nat) : (lockWith fuel).Lawful := rounds_lockWith.lawful fuel

/-- What a drain and the settlement behind it keep, given a lock inside them that
keeps it, every lock keeps. -/
theorem respects_lockWith {P : World → Prop} (hstable : World.Stable P)
    (hlock : ∀ {fuel : Nat} {id : BuilderId} {c : Concern}, (lockWith fuel).Respects P →
      Preserves P id (do drain (lockWith fuel) c fuel; settleOpen (lockWith fuel) c))
    (fuel : Nat) : (lockWith fuel).Respects P :=
  rounds_lockWith.respects hstable (fun h => rounds_lockWith.preserves (hlock h)) fuel

/-- Locks keep a property that looks at the options and the parents of builders at most. -/
theorem respects_of_origin {P : World → Prop} (hstable : World.Stable P)
    (hset : ∀ (w : World) (id : BuilderId) (b : Builder),
      b.options = (w.builder id).options → b.parent = (w.builder id).parent → P w →
        P (w.setBuilder id b))
    (hreports : ∀ (w : World) (events : List Event) (history : List Moment),
      P w → P { w with events, history })
    (fuel : Nat) : (lockWith fuel).Respects P := by
  apply respects_lockWith hstable
  intro fuel id c h
  have hdrain : Preserves P id (drain (lockWith fuel) c fuel) :=
    h.drain (fun _ _ _ => hset _ _ _ rfl rfl) (fun _ _ _ => hreports _ _ _) fuel
  have hsettle : Preserves P id (settleOpen (lockWith fuel) c) :=
    Preserves.settleOpen (fun _ _ _ => hset _ _ _ rfl rfl) <|
      h.settleValues (fun _ _ _ _ _ => hset _ _ _ rfl rfl) (fun _ _ => hreports _ _ _)
        fun _ _ => hreports _ _ _
  exact hdrain.bind fun _ => hsettle

end Action

end PageQuery
