import PageQuery.Proofs.Run.Turns

/-!
# Ends of runs

An action on a known builder either turns it into another one or comes to no value.  `Ends`
says both at once: what is known of the builder behind the action, and that only a failure of
some condition keeps it from a value.  So a run that comes to a value shows that the condition
holds, and where the condition holds every run comes to one.
-/

namespace PageQuery.Action

open Sql

variable {α β : Type} {id : BuilderId} {saved : List (String × Fragment)}

/-- The action is refused or aborted on the builder. -/
def Halts (id : BuilderId) (saved : List (String × Fragment)) (b : Builder)
    (action : Action α) : Prop :=
  ∀ w : World, w.builder id = b → w.saved = saved →
    ∃ halt w', action.exec id w = (.error halt, w')

/-- The action ends as `post` says, or `good` fails and the action halts. -/
def Ends (id : BuilderId) (saved : List (String × Fragment)) (b : Builder) (action : Action α)
    (good : Prop) (post : α → Builder → Prop) : Prop :=
  (∃ a b', Turns id saved b action a b' ∧ post a b') ∨ ¬good ∧ Halts id saved b action

/-- The action comes to a value or to an error, and turns the builder into another one. -/
def Gives (id : BuilderId) (saved : List (String × Fragment)) (b : Builder) (action : Action α)
    (result : Except Error α) (b' : Builder) : Prop :=
  ∀ w : World, w.builder id = b → w.saved = saved →
    ∃ w', action.exec id w = outcome result w' ∧ w'.builder id = b' ∧ w'.saved = saved ∧
      w'.nextToken = w.nextToken

/-- The action gives what `post` says, be it an error, or `good` fails and the action
halts. -/
def Answers (id : BuilderId) (saved : List (String × Fragment)) (b : Builder)
    (action : Action α) (good : Prop) (post : Except Error α → Builder → Prop) : Prop :=
  (∃ r b', Gives id saved b action r b' ∧ post r b') ∨ ¬good ∧ Halts id saved b action

namespace Halts

variable {b b₁ : Builder} {action : Action α} {a : α} {next : α → Action β} {lock : Locker}
  {c : Concern}

theorem refuse (e : Error) : Halts id saved b (refuse e : Action α) :=
  fun w _ _ => ⟨.refused e, w, rfl⟩

theorem bind (hfirst : Halts id saved b action) : Halts id saved b (action >>= next) := by
  intro w hb hsaved
  obtain ⟨halt, w', hrun⟩ := hfirst w hb hsaved
  exact ⟨halt, w', exec_bind_error hrun⟩

theorem behind (hfirst : Turns id saved b action a b₁) (hnext : Halts id saved b₁ (next a)) :
    Halts id saved b (action >>= next) := by
  intro w hb hsaved
  obtain ⟨w₁, hrun, hb₁, hsaved₁, _⟩ := hfirst w hb hsaved
  obtain ⟨halt, w', hrun'⟩ := hnext w₁ hb₁ hsaved₁
  exact ⟨halt, w', by rw [exec_bind_ok hrun, hrun']⟩

/-- If a callback halts, so do all of its queue. -/
theorem runCallbacks {callback : Callback} {rest : List Callback}
    (hrun : Halts id saved b (runCallback lock callback)) :
    Halts id saved b (runCallbacks lock c (callback :: rest)) := by
  intro w hb hsaved
  obtain ⟨halt, w', hrun'⟩ := hrun w hb hsaved
  rw [exec_runCallbacks_cons, hrun']
  cases halt with
  | refused e => exact ⟨.refused e, _, rfl⟩
  | aborted reason => exact ⟨.aborted reason, w', rfl⟩

end Halts

namespace Ends

variable {b b₁ : Builder} {action : Action α} {a : α} {next : α → Action β} {lock : Locker}
  {c : Concern} {good : Prop} {post mid : α → Builder → Prop} {last : β → Builder → Prop}
  {done : Unit → Builder → Prop}

/-- An action that turns the builder ends as it turns it. -/
theorem of_turns (hturns : Turns id saved b action a b₁) (hpost : post a b₁) :
    Ends id saved b action good post :=
  .inl ⟨a, b₁, hturns, hpost⟩

/-- An action may halt where `good` fails. -/
theorem of_halts (hgood : ¬good) (hhalts : Halts id saved b action) :
    Ends id saved b action good post :=
  .inr ⟨hgood, hhalts⟩

theorem imp {good' : Prop} (hends : Ends id saved b action good mid) (hgood : good' → good)
    (hpost : ∀ a b', mid a b' → post a b') : Ends id saved b action good' post := by
  rcases hends with ⟨a, b', hturns, hmid⟩ | ⟨hbad, hhalts⟩
  · exact of_turns hturns (hpost a b' hmid)
  · exact of_halts (fun hgood' => hbad (hgood hgood')) hhalts

/-- A condition may be given up for a stronger one. -/
theorem under {good' : Prop} (hends : Ends id saved b action good mid) (hgood : good' → good) :
    Ends id saved b action good' mid :=
  hends.imp hgood fun _ _ hmid => hmid

theorem congr {action' : Action α} (hsame : ∀ w : World, w.builder id = b →
    action.exec id w = action'.exec id w) (hends : Ends id saved b action' good post) :
    Ends id saved b action good post := by
  rcases hends with ⟨a, b', hturns, hpost⟩ | ⟨hbad, hhalts⟩
  · refine of_turns (fun w hb hsaved => ?_) hpost
    rw [hsame w hb]
    exact hturns w hb hsaved
  · refine of_halts hbad fun w hb hsaved => ?_
    rw [hsame w hb]
    exact hhalts w hb hsaved

theorem behind (hfirst : Turns id saved b action a b₁)
    (hnext : Ends id saved b₁ (next a) good last) :
    Ends id saved b (action >>= next) good last := by
  rcases hnext with ⟨r, b₂, hturns, hlast⟩ | ⟨hbad, hhalts⟩
  · exact of_turns (hfirst.bind hturns) hlast
  · exact of_halts hbad (.behind hfirst hhalts)

/-- Actions end one behind the other. -/
theorem bind (hfirst : Ends id saved b action good mid)
    (hnext : ∀ a b₁, mid a b₁ → Ends id saved b₁ (next a) good last) :
    Ends id saved b (action >>= next) good last := by
  rcases hfirst with ⟨a, b₁, hturns, hmid⟩ | ⟨hbad, hhalts⟩
  · exact behind hturns (hnext a b₁ hmid)
  · exact of_halts hbad hhalts.bind

theorem read_bind {next : BuilderId → Action β} (hnext : Ends id saved b (next id) good last) :
    Ends id saved b (MonadReader.read >>= next) good last := hnext

theorem self_bind {next : Builder → Action β} (hnext : Ends id saved b (next b) good last) :
    Ends id saved b (self >>= next) good last :=
  behind Turns.self hnext

theorem ofExcept {value : Except Error α} (hbad : ∀ e, value = .error e → ¬good)
    (hpost : ∀ a, value = .ok a → post a b) : Ends id saved b (ofExcept value) good post := by
  cases hvalue : value with
  | error e => exact of_halts (hbad e hvalue) (.refuse e)
  | ok a => exact of_turns (Turns.pure a) (hpost a hvalue)

/-- An action that is left out under some condition. -/
theorem ite_bind {p : Prop} [Decidable p] {first : Action Unit} {next : Unit → Action β}
    (hyes : p → Ends id saved b first good done) (hno : ¬p → done () b)
    (hnext : ∀ b₁, done () b₁ → Ends id saved b₁ (next ()) good last) :
    Ends id saved b (if p then first >>= next else next ()) good last := by
  split
  · exact bind (hyes ‹p›) fun _ => hnext
  · exact hnext b (hno ‹¬p›)

/-- A list of actions is gone through part by part. -/
theorem forM_append {β : Type} {f : β → Action PUnit} {some others : List β}
    {mid last : PUnit → Builder → Prop} (hsome : Ends id saved b (some.forM f) good mid)
    (hothers : ∀ b₁, mid ⟨⟩ b₁ → Ends id saved b₁ (others.forM f) good last) :
    Ends id saved b ((some ++ others).forM f) good last := by
  change Ends id saved b (forM (some ++ others) f) good last
  rw [List.forM_append]
  exact bind hsome fun _ => hothers

/-- An action that begins with a lock may as well run behind that lock. -/
theorem ahead (hidle : lock.Idle) {rest : Unit → Action α} (hstarts : action = lock c >>= rest)
    (hlock : Ends id saved b (lock c) good done) (hlocked : ∀ b₁, done () b₁ → b₁.locked c = true)
    (hends : ∀ b₁, done () b₁ → Ends id saved b₁ action good post) :
    Ends id saved b action good post := by
  rw [hstarts] at hends ⊢
  apply bind hlock
  intro _ b₁ hdone
  exact congr (fun w hb => (exec_lock_bind hidle rest (by rw [hb, hlocked b₁ hdone])).symm)
    (hends b₁ hdone)

theorem runCallbacks_nil (hdone : done () b) :
    Ends id saved b (runCallbacks lock c []) good done :=
  of_turns (Turns.pure ()) hdone

/-- Callbacks end one behind the other. -/
theorem runCallbacks_cons {callback : Callback} {rest : List Callback}
    {mid : Unit → Builder → Prop} (hrun : Ends id saved b (runCallback lock callback) good mid)
    (hrest : ∀ b₁, mid () b₁ → Ends id saved b₁ (runCallbacks lock c rest) good done) :
    Ends id saved b (runCallbacks lock c (callback :: rest)) good done := by
  rcases hrun with ⟨_, b₁, hturns, hmid⟩ | ⟨hbad, hhalts⟩
  · exact behind hturns.attempt (hrest b₁ hmid)
  · exact of_halts hbad hhalts.runCallbacks

theorem drain_nil (rounds : Nat) (hnone : b.callbacks c = []) (hdone : done () b) :
    Ends id saved b (drain lock c (rounds + 1)) good done :=
  of_turns (Turns.drain_nil rounds hnone) hdone

/-- One round of callbacks, and those that they register. -/
theorem drain_round (rounds : Nat) {mid : Unit → Builder → Prop} {queue : List Callback}
    (hqueue : b.callbacks c = queue) (hsome : queue ≠ [])
    (hround : Ends id saved (b.setCallbacks c []) (runCallbacks lock c queue) good mid)
    (hrest : ∀ b₁, mid () b₁ → Ends id saved b₁ (drain lock c rounds) good done) :
    Ends id saved b (drain lock c (rounds + 1)) good done := by
  apply self_bind
  rw [hqueue, if_neg (by simpa using hsome)]
  apply behind (Turns.update _)
  exact bind hround fun _ => hrest

/-- A lock of an open concern: its callbacks, the lock itself, and its values. -/
theorem lockWith {fuel : Nat} {mid : Unit → Builder → Prop} (hopen : b.locked c = false)
    (hdrain : Ends id saved b (drain (lockWith fuel) c fuel) good mid)
    (hvalues : ∀ b₁, mid () b₁ → b₁.locked c = false ∧
      Ends id saved (b₁.setLocked c) (resolve (PageQuery.Action.lockWith fuel) c) good done) :
    Ends id saved b (PageQuery.Action.lockWith (fuel + 1) c) good done := by
  apply congr fun w hb => exec_lockWith_open fuel (by rw [hb, hopen])
  apply bind hdrain
  intro _ b₁ hmid
  obtain ⟨hstill, hvalues⟩ := hvalues b₁ hmid
  apply self_bind
  rw [hstill]
  apply behind (Turns.update _)
  apply read_bind
  apply behind (Turns.log _)
  apply bind hvalues
  intro _ b₂ hdone
  exact of_turns (Turns.read_bind (Turns.remember _)) hdone

end Ends

namespace Gives

variable {b b₁ b₂ : Builder} {action : Action α} {a : α} {next : α → Action β} {e : Error}
  {result : Except Error β} {lock : Locker} {c : Concern}

theorem refuse (e : Error) : Gives id saved b (refuse e : Action α) (.error e) b :=
  fun w hb hsaved => ⟨w, rfl, hb, hsaved, rfl⟩

theorem behind (hnext : Gives id saved b₁ (next a) result b₂)
    (hfirst : Turns id saved b action a b₁) : Gives id saved b (action >>= next) result b₂ := by
  intro w hb hsaved
  obtain ⟨w₁, hrun, hb₁, hsaved₁, htoken₁⟩ := hfirst w hb hsaved
  obtain ⟨w₂, hrun₂, hb₂, hsaved₂, htoken₂⟩ := hnext w₁ hb₁ hsaved₁
  exact ⟨w₂, by rw [exec_bind_ok hrun, hrun₂], hb₂, hsaved₂, htoken₂.trans htoken₁⟩

theorem error_bind (hfirst : Gives id saved b action (.error e) b₁) :
    Gives id saved b (action >>= next) (.error e) b₁ := by
  intro w hb hsaved
  obtain ⟨w₁, hrun, hkept⟩ := hfirst w hb hsaved
  exact ⟨w₁, exec_bind_error hrun, hkept⟩

/-- An action that begins with a lock may as well run behind that lock. -/
theorem ahead {action : Action β} {rest : Unit → Action β} (hidle : lock.Idle)
    (hstarts : action = lock c >>= rest) (hlock : Turns id saved b (lock c) () b₁)
    (hlocked : b₁.locked c = true) (hgives : Gives id saved b₁ action result b₂) :
    Gives id saved b action result b₂ := by
  rw [hstarts] at hgives ⊢
  apply behind _ hlock
  intro w hb hsaved
  rw [← exec_lock_bind hidle rest (by rw [hb, hlocked])]
  exact hgives w hb hsaved

end Gives

namespace Answers

variable {b : Builder} {action : Action α} {value : Except Error α} {next : α → Action β}
  {good : Prop} {post mid : Except Error α → Builder → Prop}
  {last : Except Error β → Builder → Prop}

/-- An action that gives a value answers. -/
theorem of_gives {b₁ : Builder} (hgives : Gives id saved b action value b₁)
    (hpost : post value b₁) : Answers id saved b action good post :=
  .inl ⟨value, b₁, hgives, hpost⟩

theorem of_turns {a : α} {b₁ : Builder} (hturns : Turns id saved b action a b₁)
    (hpost : post (.ok a) b₁) : Answers id saved b action good post :=
  .inl ⟨.ok a, b₁, hturns, hpost⟩

theorem imp (hanswers : Answers id saved b action good mid)
    (hpost : ∀ r b', mid r b' → post r b') : Answers id saved b action good post := by
  rcases hanswers with ⟨r, b', hgives, hmid⟩ | hhalts
  · exact of_gives hgives (hpost r b' hmid)
  · exact .inr hhalts

/-- Where errors are a failure of some condition, too. -/
theorem ends {good' : Prop} (hanswers : Answers id saved b action good post)
    (herror : ∀ e b', post (.error e) b' → ¬good') (hgood : good' → good) :
    Ends id saved b action good' fun a b' => post (.ok a) b' := by
  rcases hanswers with ⟨_ | a, b', hgives, hpost⟩ | ⟨hbad, hhalts⟩
  · refine Ends.of_halts (herror _ b' hpost) fun w hb hsaved => ?_
    obtain ⟨w', hrun, _⟩ := hgives w hb hsaved
    exact ⟨_, w', hrun⟩
  · exact Ends.of_turns hgives hpost
  · exact Ends.of_halts (fun hgood' => hbad (hgood hgood')) hhalts

theorem of_outcome {f : Builder → Except Error α}
    (hexec : ∀ w : World, w.builder id = b → action.exec id w = outcome (f (w.builder id)) w)
    (hpost : post (f b) b) : Answers id saved b action good post := by
  refine of_gives (fun w hb hsaved => ⟨w, ?_, hb, hsaved, rfl⟩) hpost
  rw [hexec w hb, hb]

theorem behind {a : α} {b₁ : Builder} (hfirst : Turns id saved b action a b₁)
    (hnext : Answers id saved b₁ (next a) good last) :
    Answers id saved b (action >>= next) good last := by
  rcases hnext with ⟨r, b₂, hgives, hlast⟩ | ⟨hbad, hhalts⟩
  · exact .inl ⟨r, b₂, hgives.behind hfirst, hlast⟩
  · exact .inr ⟨hbad, .behind hfirst hhalts⟩

/-- A second action answers where the first one has ended. -/
theorem after {done : α → Builder → Prop} (hfirst : Ends id saved b action good done)
    (hnext : ∀ a b₁, done a b₁ → Answers id saved b₁ (next a) good last) :
    Answers id saved b (action >>= next) good last := by
  rcases hfirst with ⟨a, b₁, hturns, hdone⟩ | ⟨hbad, hhalts⟩
  · exact behind hturns (hnext a b₁ hdone)
  · exact .inr ⟨hbad, hhalts.bind⟩

theorem bind (hfirst : Answers id saved b action good mid)
    (herror : ∀ e b₁, mid (.error e) b₁ → last (.error e) b₁)
    (hnext : ∀ a b₁, mid (.ok a) b₁ → Answers id saved b₁ (next a) good last) :
    Answers id saved b (action >>= next) good last := by
  rcases hfirst with ⟨e | a, b₁, hgives, hmid⟩ | ⟨hbad, hhalts⟩
  · exact .inl ⟨.error e, b₁, hgives.error_bind, herror e b₁ hmid⟩
  · exact behind hgives (hnext a b₁ hmid)
  · exact .inr ⟨hbad, hhalts.bind⟩

theorem self_bind {next : Builder → Action β} (hnext : Answers id saved b (next b) good last) :
    Answers id saved b (self >>= next) good last :=
  behind Turns.self hnext

theorem ofExcept (hpost : post value b) : Answers id saved b (ofExcept value) good post :=
  of_gives (fun w hb hsaved => ⟨w, exec_ofExcept value, hb, hsaved, rfl⟩) hpost

end Answers

end PageQuery.Action
