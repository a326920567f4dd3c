import Mathlib.Data.List.Forall2
import PageQuery.Builder.Lock

/-!
# What an action does

An action is a function of a builder's id and a world.  `exec` is that function, and
each way of putting actions together has one equation here, so that later statements
about actions never look into the monad that they are written in.
-/

namespace PageQuery

open Sql

/-- A computation in two parts gives a value only if both do. -/
theorem ok_of_bind {ε α β : Type} {value : Except ε α} {next : α → Except ε β} {b : β}
    (hbind : value >>= next = .ok b) : ∃ a, value = .ok a ∧ next a = .ok b := by
  cases value with
  | error e => cases hbind
  | ok a => exact ⟨a, rfl, hbind⟩

/-- A value that is answered is one. -/
theorem ok_of_isOk {ε α : Type} {value : Except ε α} (hok : value.isOk = true) :
    ∃ a, value = .ok a := by
  cases value with
  | error e => cases hok
  | ok a => exact ⟨a, rfl⟩

/-- The world with one more builder. -/
def World.spawned (w : World) (b : Builder) : World :=
  { w.setBuilder w.nextBuilder b with nextBuilder := w.nextBuilder + 1 }

/-- A new builder is found under the next id. -/
@[simp]
theorem World.builder_spawned (w : World) (b : Builder) (other : BuilderId) :
    (w.spawned b).builder other = if other = w.nextBuilder then b else w.builder other :=
  World.builder_setBuilder w w.nextBuilder other b

namespace World

variable {w : World} {id i : BuilderId} {b : Builder}

/-- What holds of a builder holds on when one that keeps it is put under an id. -/
theorem holds_setBuilder (P : Builder → Prop) (hkeeps : i = id → P (w.builder id) → P b)
    (hholds : P (w.builder i)) : P ((w.setBuilder id b).builder i) := by
  rw [builder_setBuilder]
  split
  · exact hkeeps ‹_› (‹i = id› ▸ hholds)
  · exact hholds

/-- What the builder that is put under an id has in common with the one before stays. -/
theorem part_setBuilder {β : Sort*} (part : Builder → β)
    (hsame : i = id → part b = part (w.builder id)) :
    part ((w.setBuilder id b).builder i) = part (w.builder i) :=
  holds_setBuilder (part · = part (w.builder i)) (fun hid hpart => (hsame hid).trans hpart) rfl

end World

/-- The world in which a builder has got to know a child by its name. -/
def World.childKnown (w : World) (id : BuilderId) (name : String) (child : BuilderId) : World :=
  ({ w with events := w.events ++ [.childAdded id child name] } : World).setBuilder id
    { w.builder id with children := Builder.insertChild name child (w.builder id).children }

/-- Only the parent is changed when it comes to know a child. -/
theorem World.builder_childKnown (w : World) (id : BuilderId) (name : String)
    (child other : BuilderId) :
    (w.childKnown id name child).builder other =
      if other = id then
        { w.builder id with children := Builder.insertChild name child (w.builder id).children }
      else w.builder other :=
  World.builder_setBuilder _ id other _

namespace World

/-! Two worlds with builders under the same ids -/

variable {S : BuilderId → Builder → Builder → Prop} {id : BuilderId}

/-- To put related builders under an id keeps builders related. -/
theorem forall₂_replace {builders builders' : List (BuilderId × Builder)}
    (h : List.Forall₂ (fun entry entry' => entry'.1 = entry.1 ∧ S entry.1 entry.2 entry'.2)
      builders builders') {b b' : Builder} (hb : S id b b') :
    List.Forall₂ (fun entry entry' => entry'.1 = entry.1 ∧ S entry.1 entry.2 entry'.2)
      (replace id b builders) (replace id b' builders') := by
  induction h with
  | nil => exact .cons ⟨rfl, hb⟩ .nil
  | @cons entry entry' _ _ hentry hrest ih =>
      obtain ⟨i, old⟩ := entry
      obtain ⟨i', old'⟩ := entry'
      obtain ⟨rfl, hold⟩ := hentry
      rw [replace, replace]
      split
      · exact .cons ⟨rfl, ‹i' = id› ▸ hb⟩ hrest
      · exact .cons ⟨rfl, hold⟩ ih

/-- Under each id there are related builders. -/
theorem builder_of_forall₂ {w w' : World}
    (h : List.Forall₂ (fun entry entry' => entry'.1 = entry.1 ∧ S entry.1 entry.2 entry'.2)
      w.builders w'.builders) (hfresh : S id (.fresh {} none) (.fresh {} none)) :
    S id (w.builder id) (w'.builder id) := by
  rw [builder, builder]
  generalize w.builders = builders, w'.builders = builders' at h ⊢
  induction h with
  | nil => exact hfresh
  | @cons entry entry' _ _ hentry _ ih =>
      obtain ⟨i, b⟩ := entry
      obtain ⟨i', b'⟩ := entry'
      obtain ⟨hsame, hb⟩ := hentry
      obtain rfl : i = i' := hsame.symm
      rw [List.lookup_cons, List.lookup_cons]
      cases hid : id == i with
      | true => exact beq_iff_eq.mp hid ▸ hb
      | false => exact ih

end World

namespace Action

variable {α β : Type} {id : BuilderId} {w : World}

/-- What an action answers on a builder of a world, and the world behind it. -/
def exec (action : Action α) (id : BuilderId) (w : World) : Except Halt α × World :=
  ((action.run id).run).run w

/-- The action gave a value or was refused: it was not aborted. -/
def Completes (result : Except Halt α) : Prop := ∀ reason, result ≠ .error (.aborted reason)

@[simp]
theorem completes_ok (a : α) : Completes (.ok a) := nofun

/-- A refused action has run to its end. -/
@[simp]
theorem completes_refused (e : Error) : Completes (.error (.refused e) : Except Halt α) := nofun

/-- An aborted one has not. -/
@[simp]
theorem not_completes_aborted (reason : Abort) :
    ¬Completes (.error (.aborted reason) : Except Halt α) := fun h => h reason rfl

/-- A step is answered exactly if its action has run to its end. -/
theorem isOk_answered_iff {result : Except Halt α} :
    (answered result).isOk = true ↔ Completes result := by
  rcases result with (e | reason) | a
  · simp [answered, Except.isOk, Except.toBool]
  · simp [answered, Except.isOk, Except.toBool]
  · simp [answered, Except.isOk, Except.toBool]

theorem answered_eq_error_iff {result : Except Halt α} {reason : Abort} :
    answered result = .error reason ↔ result = .error (.aborted reason) := by
  rcases result with (e | _) | a
  · simp [answered]
  · simp [answered]
  · simp [answered]

/-- Whether an action without a value completes does not depend on the values that it gives. -/
theorem Completes.error {halt : Halt} (h : Completes (.error halt : Except Halt α)) :
    Completes (.error halt : Except Halt β) := by
  cases halt with
  | refused e => exact completes_refused e
  | aborted reason => exact absurd h (not_completes_aborted reason)

/-- The outcome of a computation that needs no world. -/
def outcome (value : Except Error α) (w : World) : Except Halt α × World :=
  (value.mapError .refused, w)

@[simp]
theorem outcome_ok (a : α) : outcome (.ok a) w = (.ok a, w) := rfl

@[simp]
theorem outcome_error (e : Error) :
    outcome (.error e : Except Error α) w = (.error (.refused e), w) := rfl

/-- An outcome that is answered is a value, and the world is as it was. -/
theorem outcome_eq_ok {value : Except Error α} {a : α} {w' : World}
    (h : outcome value w = (.ok a, w')) : value = .ok a ∧ w = w' := by
  cases value with
  | error e => cases h
  | ok b =>
      cases h
      exact ⟨rfl, rfl⟩

@[simp]
theorem exec_pure (a : α) : (pure a : Action α).exec id w = (.ok a, w) := rfl

/-- Actions run one behind the other, up to the first that is refused or aborted. -/
theorem exec_bind (action : Action α) (next : α → Action β) :
    (action >>= next).exec id w =
      match action.exec id w with
      | (.ok a, w') => (next a).exec id w'
      | (.error halt, w') => (.error halt, w') := by
  simp only [exec, ReaderT.run_bind, ExceptT.run_bind, StateT.run_bind]
  generalize ((action.run id).run).run w = result
  rcases result with ⟨_ | _, _⟩ <;> rfl

theorem exec_bind_ok {action : Action α} {next : α → Action β} {a : α} {w' : World}
    (haction : action.exec id w = (.ok a, w')) :
    (action >>= next).exec id w = (next a).exec id w' := by
  rw [exec_bind, haction]

theorem exec_bind_error {action : Action α} {next : α → Action β} {halt : Halt}
    {w' : World} (haction : action.exec id w = (.error halt, w')) :
    (action >>= next).exec id w = (.error halt, w') := by
  rw [exec_bind, haction]

/-- A sequence of actions completes only if the first of them does. -/
theorem completes_of_bind {action : Action α} {next : α → Action β}
    (h : Completes ((action >>= next).exec id w).1) : Completes (action.exec id w).1 := by
  rcases hfirst : action.exec id w with ⟨halt | a, middle⟩
  · rw [exec_bind_error hfirst] at h
    exact h.error
  · exact completes_ok a

/-- A sequence of actions answers only if each of them does. -/
theorem exec_bind_eq_ok {action : Action α} {next : α → Action β} {b : β}
    {w' : World} (hrun : (action >>= next).exec id w = (.ok b, w')) :
    ∃ a middle, action.exec id w = (.ok a, middle) ∧
      (next a).exec id middle = (.ok b, w') := by
  rw [exec_bind] at hrun
  rcases hfirst : action.exec id w with ⟨_ | a, middle⟩
  · rw [hfirst] at hrun
    cases hrun
  · rw [hfirst] at hrun
    exact ⟨a, middle, rfl, hrun⟩

/-- An action that is answered has run in full. -/
theorem exec_of_isOk {action : Action α} (hok : (action.exec id w).1.isOk = true) :
    ∃ a w', action.exec id w = (.ok a, w') := by
  rcases hrun : action.exec id w with ⟨_ | a, w'⟩
  · rw [hrun] at hok
    cases hok
  · exact ⟨a, w', rfl⟩

theorem exec_eq_ok {action : Action α} {a : α} (hanswer : (action.exec id w).1.toOption = some a) :
    action.exec id w = (.ok a, (action.exec id w).2) := by
  rcases hrun : action.exec id w with ⟨_ | b, w'⟩
  · rw [hrun] at hanswer
    cases hanswer
  · rw [hrun] at hanswer
    cases hanswer
    rfl

@[simp]
theorem exec_refuse (e : Error) :
    (refuse e : Action α).exec id w = (.error (.refused e), w) := rfl

@[simp]
theorem exec_abort (reason : Abort) :
    (abort reason : Action α).exec id w = (.error (.aborted reason), w) := rfl

@[simp]
theorem exec_exhaust :
    (exhaust : Action α).exec id w = (.error (.aborted .exhausted), w) := rfl

@[simp]
theorem exec_self : self.exec id w = (.ok (w.builder id), w) := rfl

@[simp]
theorem exec_read : (read : Action BuilderId).exec id w = (.ok id, w) := rfl

@[simp]
theorem exec_get : (get : Action World).exec id w = (.ok w, w) := rfl

@[simp]
theorem exec_update (change : Builder → Builder) :
    (update change).exec id w = (.ok (), w.setBuilder id (change (w.builder id))) := rfl

@[simp]
theorem exec_log (event : Event) :
    (log event).exec id w = (.ok (), { w with events := w.events ++ [event] }) := rfl

@[simp]
theorem exec_record (entry : Entry) :
    (record entry).exec id w = (.ok (), { w with journal := w.journal ++ [entry] }) := rfl

@[simp]
theorem exec_remember (moment : Moment) :
    (remember moment).exec id w =
      (.ok (), { w with history := w.history ++ [moment] }) := rfl

@[simp]
theorem exec_save (name : String) (f : Fragment) :
    (save name f).exec id w = (.ok (), { w with saved := (name, f) :: w.saved }) := rfl

@[simp]
theorem exec_mintToken :
    mintToken.exec id w = (.ok ⟨w.nextToken⟩, { w with nextToken := w.nextToken + 1 }) :=
  rfl

@[simp]
theorem exec_spawn (b : Builder) :
    (spawn b).exec id w = (.ok w.nextBuilder, w.spawned b) := rfl

@[simp]
theorem exec_within (other : BuilderId) (action : Action α) :
    (within other action).exec id w = action.exec other w := rfl

theorem exec_ofExcept (value : Except Error α) :
    (ofExcept value).exec id w = outcome value w := by
  cases value <;> rfl

theorem exec_ofHalting (value : Except Halt α) : (ofHalting value).exec id w = (value, w) := by
  rcases value with (_ | _) | _ <;> rfl

theorem exec_ite (p : Prop) [Decidable p] (yes no : Action α) :
    (if p then yes else no).exec id w = if p then yes.exec id w else no.exec id w := by
  split <;> rfl

/-- What an action has changed stays changed when its error is handled. -/
theorem exec_tryCatch (action : Action α) (handler : Halt → Action α) :
    (tryCatch action handler).exec id w =
      match action.exec id w with
      | (.ok a, w') => (.ok a, w')
      | (.error halt, w') => (handler halt).exec id w' := by
  change (((ExceptT.tryCatch (action.run id) fun halt => (handler halt).run id) :
    ExceptT Halt (StateM World) α).run).run w = _
  simp only [exec, ExceptT.tryCatch, ExceptT.run_mk, StateT.run_bind]
  generalize hresult : StateT.run (action.run id).run w = result
  change StateT.run (action.run id) w = result at hresult
  rw [hresult]
  rcases result with ⟨_ | _, _⟩ <;> rfl

/-- Errors are caught, and aborts are not. -/
theorem exec_attempt (action : Action α) :
    (attempt action).exec id w =
      match action.exec id w with
      | (.ok a, w') => (.ok (.ok a), w')
      | (.error (.refused e), w') => (.ok (.error e), w')
      | (.error (.aborted reason), w') => (.error (.aborted reason), w') := by
  simp only [attempt, exec_tryCatch, exec_bind]
  rcases action.exec id w with ⟨(_ | _) | _, _⟩ <;> rfl

theorem exec_follow_nil (action : Action α) :
    (follow [] action).exec id w = action.exec id w := rfl

/-- A path is followed by the names of children. -/
theorem exec_follow_cons (name : String) (names : List String) (action : Action α) :
    (follow (name :: names) action).exec id w =
      match (w.builder id).child name with
      | .ok child => (follow names action).exec child w
      | .error e => (.error (.refused e), w) := by
  simp only [follow, exec_bind, exec_self, exec_ofExcept]
  cases (w.builder id).child name <;> rfl

/-- An expression is evaluated in the scope of its builder. -/
theorem exec_evaluate (expr : Expr) :
    (evaluate expr).exec id w =
      (expr.eval ⟨(w.builder id).tableAlias, (w.builder id).parentAlias, w.saved⟩, w) := by
  simp only [evaluate, scope, exec_bind, exec_self, exec_get, exec_pure, exec_ofHalting]

theorem exec_evaluateNode (node : NodeExpr) :
    (evaluateNode node).exec id w =
      ((node.eval ⟨(w.builder id).tableAlias, (w.builder id).parentAlias, w.saved⟩).mapError
        Halt.refused, w) := by
  simp only [evaluateNode, scope, exec_bind, exec_self, exec_get, exec_pure, exec_ofExcept]
  rfl

/-- A locked concern refuses to be changed. -/
theorem exec_checkLock (c : Concern) :
    (checkLock c).exec id w =
      if (w.builder id).locked c then (.error (.refused (.lockedMutation c)), w)
      else (.ok (), w) := by
  simp only [checkLock, exec_bind, exec_self, exec_ite, exec_refuse, exec_pure]

/-- A change of an open concern goes on behind the check. -/
theorem exec_checkLock_bind {c : Concern} (next : Unit → Action α)
    (hopen : (w.builder id).locked c = false) :
    (checkLock c >>= next).exec id w = (next ()).exec id w := by
  rw [exec_bind, exec_checkLock, hopen]
  rfl

/-- A change of a locked concern is refused and changes nothing. -/
theorem exec_checkLock_bind_locked {c : Concern} (next : Unit → Action α)
    (hlocked : (w.builder id).locked c = true) :
    (checkLock c >>= next).exec id w = (.error (.refused (.lockedMutation c)), w) := by
  rw [exec_bind, exec_checkLock, hlocked]
  rfl

/-- A call for a child is refused, for its name or for a missing row source, or a new builder
gets a row source and becomes the child, if that is not refused. -/
theorem exec_addChild_cases (lock : Locker) (name : String) (table : Fragment)
    (rowAlias : Option Node) (id : BuilderId) (w : World) :
    (∃ e, (addChild lock name table rowAlias).exec id w = (.error (.refused e), w) ∧
        (e = .duplicateChild name ∨ (w.builder id).tableAlias = .error e)) ∨
      ∃ tableAlias, (w.builder id).children.lookup name = none ∧
        (w.builder id).tableAlias = .ok tableAlias ∧
        (addChild lock name table rowAlias).exec id w =
          match (source lock table rowAlias).exec w.nextBuilder
            (w.spawned (.fresh (w.builder id).options (some ⟨id, tableAlias⟩))) with
          | (.ok (), w') => (.ok w.nextBuilder, w'.childKnown id name w.nextBuilder)
          | (.error halt, w') => (.error halt, w') := by
  rw [addChild, exec_bind_ok exec_self, exec_ite]
  cases hlookup : (w.builder id).children.lookup name with
  | some child => exact .inl ⟨_, rfl, .inl rfl⟩
  | none =>
      rw [if_neg (by simp), exec_bind_ok exec_read, exec_bind, exec_ofExcept]
      cases htable : (w.builder id).tableAlias with
      | error e => exact .inl ⟨e, rfl, .inr rfl⟩
      | ok tableAlias =>
          refine .inr ⟨tableAlias, rfl, rfl, ?_⟩
          simp only [outcome_ok]
          rw [exec_bind_ok (exec_spawn _), exec_bind, exec_within]
          rcases (source lock table rowAlias).exec w.nextBuilder (w.spawned _) with ⟨_ | _, w'⟩ <;>
            rfl

end Action

end PageQuery
