import PageQuery.Proofs.Run.Program

/-!
# Runs that follow each other

A run follows another one if it gives the same answer and leaves a world like the other's,
unless the other run gives up for lack of fuel.  Programs follow each other where their
locks do, and so operations cannot tell apart worlds that differ only in what has been
reported and remembered.
-/

namespace PageQuery

open Sql

namespace World

/-- Two worlds with the same builders, ids, tokens and saved fragments. -/
structure SameState (w w' : World) : Prop where
  builders : w'.builders = w.builders
  nextBuilder : w'.nextBuilder = w.nextBuilder
  nextToken : w'.nextToken = w.nextToken
  saved : w'.saved = w.saved

theorem SameState.refl (w : World) : w.SameState w := ⟨rfl, rfl, rfl, rfl⟩

/-- The same builder is found under every id. -/
theorem SameState.builder {w w' : World} (hsame : w.SameState w') (id : BuilderId) :
    w'.builder id = w.builder id := by
  rw [World.builder, World.builder, hsame.builders]

/-- A builder may be replaced in both worlds. -/
theorem SameState.setBuilder {w w' : World} (hsame : w.SameState w') (id : BuilderId)
    (b : Builder) : (w.setBuilder id b).SameState (w'.setBuilder id b) :=
  { hsame with builders := congrArg (replace id b) hsame.builders }

theorem SameState.symm {w w' : World} (hsame : w.SameState w') : w'.SameState w :=
  ⟨hsame.builders.symm, hsame.nextBuilder.symm, hsame.nextToken.symm, hsame.saved.symm⟩

theorem SameState.trans {w w' w'' : World} (h : w.SameState w') (h' : w'.SameState w'') :
    w.SameState w'' :=
  ⟨h'.builders.trans h.builders, h'.nextBuilder.trans h.nextBuilder,
    h'.nextToken.trans h.nextToken, h'.saved.trans h.saved⟩

/-- A relation of worlds in the same state that the instructions of programs keep. -/
structure Likeness (S : World → World → Prop) : Prop where
  state : ∀ ⦃w w'⦄, S w w' → w.SameState w'
  setBuilder : ∀ ⦃w w'⦄, S w w' → ∀ id b, S (w.setBuilder id b) (w'.setBuilder id b)
  log : ∀ ⦃w w'⦄, S w w' → ∀ event,
    S { w with events := w.events ++ [event] } { w' with events := w'.events ++ [event] }
  record : ∀ ⦃w w'⦄, S w w' → ∀ entry,
    S { w with journal := w.journal ++ [entry] } { w' with journal := w'.journal ++ [entry] }
  remember : ∀ ⦃w w'⦄, S w w' → ∀ moment,
    S { w with history := w.history ++ [moment] } { w' with history := w'.history ++ [moment] }
  save : ∀ ⦃w w'⦄, S w w' → ∀ entry,
    S { w with saved := entry :: w.saved } { w' with saved := entry :: w'.saved }
  mintToken : ∀ ⦃w w'⦄, S w w' →
    S { w with nextToken := w.nextToken + 1 } { w' with nextToken := w'.nextToken + 1 }
  spawn : ∀ ⦃w w'⦄, S w w' → ∀ b, S (w.spawned b) (w'.spawned b)

/-- Equal worlds stay equal. -/
theorem likeness_eq : Likeness Eq where
  state := by rintro w _ rfl; exact ⟨rfl, rfl, rfl, rfl⟩
  setBuilder := by rintro w _ rfl _ _; rfl
  log := by rintro w _ rfl _; rfl
  record := by rintro w _ rfl _; rfl
  remember := by rintro w _ rfl _; rfl
  save := by rintro w _ rfl _; rfl
  mintToken := by rintro w _ rfl; rfl
  spawn := by rintro w _ rfl _; rfl

/-- Worlds in the same state stay so, whatever is reported and remembered. -/
theorem likeness_sameState : Likeness SameState where
  state _ _ hsame := hsame
  setBuilder _ _ hsame := hsame.setBuilder
  log _ _ hsame _ := { hsame with }
  record _ _ hsame _ := { hsame with }
  remember _ _ hsame _ := { hsame with }
  save _ _ hsame entry := { hsame with saved := congrArg (entry :: ·) hsame.saved }
  mintToken _ _ hsame := { hsame with nextToken := congrArg (· + 1) hsame.nextToken }
  spawn w w' hsame b :=
    { hsame with
      builders := by rw [spawned, spawned, hsame.nextBuilder, (hsame.setBuilder _ b).builders]
      nextBuilder := congrArg (· + 1) hsame.nextBuilder }

end World

namespace Action

variable {α β : Type} {S : World → World → Prop}

/-- In worlds that are alike the second action does what the first one does. -/
def Follows (S : World → World → Prop) (action action' : Action α) : Prop :=
  ∀ ⦃id : BuilderId⦄ ⦃w w' : World⦄, S w w' → (action.exec id w).1 ≠ .error (.aborted .exhausted) →
    (action'.exec id w').1 = (action.exec id w).1 ∧ S (action.exec id w).2 (action'.exec id w').2

/-- The run that follows ends like the other one. -/
theorem Follows.run {action action' : Action α} (hfollows : Follows S action action')
    {id : BuilderId} {w w' after : World} {result : Except Halt α} (hS : S w w')
    (hrun : action.exec id w = (result, after)) (hhalt : result ≠ .error (.aborted .exhausted)) :
    ∃ after', action'.exec id w' = (result, after') ∧ S after after' := by
  have hboth := @hfollows id _ _ hS
  rw [hrun] at hboth
  obtain ⟨hresult, hafter⟩ := hboth hhalt
  exact ⟨(action'.exec id w').2, Prod.ext hresult rfl, hafter⟩

/-- What `Follows` asks of two runs: unless the first one gives up for lack of fuel, they give
the same answer and leave worlds that are alike. -/
def Agree (S : World → World → Prop) (result result' : Except Halt α × World) : Prop :=
  result.1 ≠ .error (.aborted .exhausted) → result'.1 = result.1 ∧ S result.2 result'.2

section

variable {action action' : Action α} {id : BuilderId} {w w' : World}

/-- Two runs that agree on their first actions agree if the second actions follow each other. -/
theorem Agree.bind {next next' : α → Action β}
    (hfirst : Agree S (action.exec id w) (action'.exec id w'))
    (hnext : ∀ a, Follows S (next a) (next' a)) :
    Agree S ((action >>= next).exec id w) ((action' >>= next').exec id w') := by
  intro hhalt
  rw [exec_bind] at hhalt ⊢
  rw [exec_bind]
  generalize action.exec id w = result, action'.exec id w' = result' at hfirst hhalt ⊢
  obtain ⟨halt | a, middle⟩ := result
  · obtain ⟨hresult, hmiddle⟩ := hfirst (by simpa using hhalt)
    obtain ⟨_, middle'⟩ := result'
    subst hresult
    exact ⟨rfl, hmiddle⟩
  · obtain ⟨hresult, hmiddle⟩ := hfirst (by simp)
    obtain ⟨_, middle'⟩ := result'
    subst hresult
    exact hnext a hmiddle hhalt

/-- Two runs agree on the errors that are caught. -/
theorem Agree.attempt (hagree : Agree S (action.exec id w) (action'.exec id w')) :
    Agree S ((attempt action).exec id w) ((attempt action').exec id w') := by
  intro hhalt
  rw [exec_attempt] at hhalt ⊢
  rw [exec_attempt]
  generalize action.exec id w = result, action'.exec id w' = result' at hagree hhalt ⊢
  obtain ⟨(e | reason) | a, after⟩ := result
  · obtain ⟨hresult, hafter⟩ := hagree (by simp)
    obtain ⟨_, after'⟩ := result'
    subst hresult
    exact ⟨rfl, hafter⟩
  · obtain ⟨hresult, hafter⟩ := hagree (by simpa using hhalt)
    obtain ⟨_, after'⟩ := result'
    subst hresult
    exact ⟨rfl, hafter⟩
  · obtain ⟨hresult, hafter⟩ := hagree (by simp)
    obtain ⟨_, after'⟩ := result'
    subst hresult
    exact ⟨rfl, hafter⟩

end

/-- One action behind another. -/
theorem Follows.bind {action action' : Action α} {next next' : α → Action β}
    (hfirst : Follows S action action') (hnext : ∀ a, Follows S (next a) (next' a)) :
    Follows S (action >>= next) (action' >>= next') :=
  fun _ _ _ hS => Agree.bind (hfirst hS) hnext

theorem Follows.ite {p : Prop} [Decidable p] {yes yes' no no' : Action α}
    (hyes : Follows S yes yes') (hno : Follows S no no') :
    Follows S (if p then yes else no) (if p then yes' else no') := by
  split
  · exact hyes
  · exact hno

/-- An action that comes first only under a condition. -/
theorem Follows.ite_bind {p : Prop} [Decidable p] {first first' : Action Unit}
    {next next' : Unit → Action α} (hfirst : Follows S first first')
    (hnext : Follows S (next ()) (next' ())) :
    Follows S (if p then first >>= next else next ())
      (if p then first' >>= next' else next' ()) :=
  Follows.ite (hfirst.bind fun _ => hnext) hnext

theorem Follows.attempt {action action' : Action α} (hfollows : Follows S action action') :
    Follows S (attempt action) (attempt action') :=
  fun _ _ _ hS => Agree.attempt (hfollows hS)

section

variable (hlike : World.Likeness S)

theorem Follows.refuse (e : Error) : Follows S (refuse e : Action α) (refuse e) :=
  fun _ _ _ hS _ => ⟨rfl, hS⟩

theorem Follows.abort (reason : Abort) : Follows S (abort reason : Action α) (abort reason) :=
  fun _ _ _ hS _ => ⟨rfl, hS⟩

theorem Follows.pure (a : α) : Follows S (Pure.pure a : Action α) (Pure.pure a) :=
  fun _ _ _ hS _ => ⟨rfl, hS⟩

theorem Follows.read : Follows S (MonadReader.read : Action BuilderId) MonadReader.read :=
  fun _ _ _ hS _ => ⟨rfl, hS⟩

theorem Follows.ofExcept (value : Except Error α) :
    Follows S (ofExcept value) (ofExcept value) := by
  cases value with
  | ok a => exact .pure a
  | error e => exact .refuse e

theorem Follows.ofHalting (value : Except Halt α) :
    Follows S (ofHalting value) (ofHalting value) := by
  rcases value with (e | reason) | a
  · exact .refuse e
  · exact .abort reason
  · exact .pure a

theorem Follows.within {action action' : Action α} (id : BuilderId)
    (hfollows : Follows S action action') : Follows S (within id action) (within id action') :=
  fun _ _ _ hS hhalt => @hfollows id _ _ hS hhalt

include hlike

/-- The same builder is found in both worlds. -/
theorem Follows.self : Follows S self self :=
  fun id _ _ hS _ => ⟨congrArg Except.ok ((hlike.state hS).builder id), hS⟩

/-- A builder is changed in the same way in both worlds. -/
theorem Follows.update (change : Builder → Builder) :
    Follows S (update change) (update change) := by
  intro id w w' hS _
  rw [exec_update, exec_update, (hlike.state hS).builder]
  exact ⟨rfl, hlike.setBuilder hS id _⟩

theorem Follows.log (event : Event) : Follows S (log event) (log event) :=
  fun _ _ _ hS _ => ⟨rfl, hlike.log hS event⟩

/-- The same token is given out. -/
theorem Follows.mintToken : Follows S mintToken mintToken := by
  intro _ w w' hS _
  have hsame : (⟨w'.nextToken⟩ : AliasToken) = ⟨w.nextToken⟩ :=
    congrArg _ (hlike.state hS).nextToken
  exact ⟨congrArg Except.ok hsame, hlike.mintToken hS⟩

/-- The new builder gets the same id. -/
theorem Follows.spawn (b : Builder) : Follows S (spawn b) (spawn b) :=
  fun _ _ _ hS _ => ⟨congrArg Except.ok (hlike.state hS).nextBuilder, hlike.spawn hS b⟩

/-- The row source is the same one, also where its alias is a new token. -/
theorem Follows.registerSource (table : Fragment) (rowAlias : Option Node) :
    Follows S (registerSource table rowAlias) (registerSource table rowAlias) := by
  have hcheck : Follows S (checkLock .source) (checkLock .source) :=
    (Follows.self hlike).bind fun b => by
      split
      · exact .refuse _
      · exact .pure ()
  refine hcheck.bind fun _ => Follows.bind ?_ fun _ => Follows.update hlike _
  cases rowAlias with
  | some rowAlias => exact .pure rowAlias
  | none => exact (Follows.mintToken hlike).bind fun _ => .pure _

/-- The child is the same one, and its source is locked by locks that follow each other. -/
theorem Follows.addChild {lock lock' : Locker} (hlock : ∀ c, Follows S (lock c) (lock' c))
    (name : String) (table : Fragment) (rowAlias : Option Node) :
    Follows S (addChild lock name table rowAlias) (addChild lock' name table rowAlias) := by
  refine (Follows.self hlike).bind fun b => ?_
  have hsource : Follows S (source lock table rowAlias) (source lock' table rowAlias) :=
    (Follows.registerSource hlike table rowAlias).bind fun _ => hlock .source
  refine Follows.ite_bind (Follows.refuse _) ?_
  refine Follows.read.bind fun id => ?_
  refine (Follows.ofExcept b.tableAlias).bind fun tableAlias => ?_
  refine (Follows.spawn hlike (.fresh b.options (some ⟨id, tableAlias⟩))).bind fun child => ?_
  refine (hsource.within child).bind fun _ => ?_
  refine (Follows.log hlike (.childAdded id child name)).bind fun _ => ?_
  refine (Follows.update hlike fun b =>
    { b with children := Builder.insertChild name child b.children }).bind fun _ => ?_
  exact Follows.pure child

end

/-- A program follows itself where its locks follow each other. -/
theorem Program.follows (hlike : World.Likeness S) {lock lock' : Locker}
    (hlock : ∀ c, Follows S (lock c) (lock' c)) {f : Locker → Action α} (hf : Program True f) :
    Follows S (f lock) (f lock') := by
  induction hf with
  | pure a => exact .pure a
  | refuse e => exact .refuse e
  | abort reason => exact .abort reason
  | lock c => exact hlock c
  | inspect _ ih => exact (Follows.self hlike).bind fun b => ih b (.of_named trivial b)
  | read => exact .read
  | view f =>
      intro _ w w' hS _
      have hsame : f w'.builders w'.saved = f w.builders w.saved := by
        rw [(hlike.state hS).builders, (hlike.state hS).saved]
      exact ⟨congrArg Except.ok hsame, hS⟩
  | update => exact .update hlike _
  | log event => exact .log hlike event
  | record entry => exact fun _ _ _ hS _ => ⟨rfl, hlike.record hS entry⟩
  | remember moment => exact fun _ _ _ hS _ => ⟨rfl, hlike.remember hS moment⟩
  | save name f => exact fun _ _ _ hS _ => ⟨rfl, hlike.save hS (name, f)⟩
  | mintToken => exact .mintToken hlike
  | registerSource table => exact .registerSource hlike table _
  | addChild name table => exact .addChild hlike hlock name table _
  | within id _ ih => exact ih.within id
  | attempt _ ih => exact ih.attempt
  | bind _ _ ih ihnext => exact ih.bind ihnext

section

variable (hlike : World.Likeness S)

include hlike

/-- A drain may have more rounds. -/
theorem follows_drain {lock lock' : Locker} (hlock : ∀ c, Follows S (lock c) (lock' c))
    (c : Concern) {rounds rounds' : Nat} (hrounds : rounds ≤ rounds') :
    Follows S (drain lock c rounds) (drain lock' c rounds') := by
  induction rounds generalizing rounds' with
  | zero => exact fun _ _ _ _ hhalt => absurd rfl hhalt
  | succ rounds ih =>
      obtain ⟨rounds', rfl⟩ := Nat.exists_eq_add_of_le' (Nat.one_le_of_lt hrounds)
      refine (Follows.self hlike).bind fun b => .ite (.pure ()) ?_
      have hqueue :=
        (Program.runCallbacks c (.of_named trivial (b.callbacks c))).follows hlike hlock
      exact (Follows.update hlike _).bind fun _ => hqueue.bind fun _ =>
        ih (Nat.le_of_succ_le_succ hrounds)

/-- A lock may have more fuel. -/
theorem follows_lockWith {fuel fuel' : Nat} (hfuel : fuel ≤ fuel') (c : Concern) :
    Follows S (lockWith fuel c) (lockWith fuel' c) := by
  induction fuel generalizing fuel' c with
  | zero =>
      cases fuel' <;> refine (Follows.self hlike).bind fun b => .ite (.pure ()) ?_ <;>
        exact fun _ _ _ _ hhalt => absurd rfl hhalt
  | succ fuel ih =>
      obtain ⟨fuel', rfl⟩ := Nat.exists_eq_add_of_le' (Nat.one_le_of_lt hfuel)
      have hinner := fun c => ih (Nat.le_of_succ_le_succ hfuel) c
      refine (Follows.self hlike).bind fun b => .ite (.pure ()) ?_
      exact (follows_drain hlike hinner c (Nat.le_of_succ_le_succ hfuel)).bind fun _ =>
        (Program.settleOpen c).follows hlike hinner

end

end Action

end PageQuery
