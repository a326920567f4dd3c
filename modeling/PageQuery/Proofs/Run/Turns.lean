import Mathlib.Data.List.Forall2
import PageQuery.Proofs.Run.Locking

/-!
# Runs from a known builder

What an action does to its own builder, where nothing else matters: from every world with
that builder and the same saved fragments, the action gives its value, mints no token, and
leaves the builder behind as stated.  A lock turns a builder into another one in three steps: its
callback, the lock itself, and the values of the concern.
-/

namespace PageQuery

open Sql

/-- The fragment that a given value comes to.  A lazy value may be an expression; it has
no steps of its own. -/
inductive Comes (scope : Scope) : DeferredFragment → Fragment → Prop
  | ready (f : Fragment) : Comes scope (.ready f) f
  | lazy {expr : Expr} {f : Fragment} : expr.eval scope = .ok f →
      Comes scope (.lazy [] (.expr expr)) f

/-- The fields of a select list, where a field takes the place of an earlier one of its
name, at the end of the list. -/
def latest (done : List Field) : List Field → List Field
  | [] => done
  | field :: rest => latest ((done.filter fun f => f.name != field.name) ++ [field]) rest

theorem latest_concat (done fields : List Field) (field : Field) :
    latest done (fields ++ [field]) =
      ((latest done fields).filter fun f => f.name != field.name) ++ [field] := by
  induction fields generalizing done with
  | nil => rfl
  | cons first rest ih => exact ih _

/-- What the names in the expressions of a builder stand for. -/
def Builder.scope (b : Builder) (saved : List (String × Fragment)) : Scope :=
  ⟨b.tableAlias, b.parentAlias, saved⟩

theorem Builder.setLocked_self (b : Builder) {c : Concern} (hlocked : b.locked c = true) :
    b.setLocked c = b := by
  have hfun : (fun d => if d = c then true else b.locked d) = b.locked := by
    funext d
    split
    · rw [‹d = c›, hlocked]
    · rfl
  rw [Builder.setLocked, hfun]

theorem Builder.setCallbacks_self (b : Builder) {c : Concern} {queue : List Callback}
    (hqueue : b.callbacks c = queue) : b.setCallbacks c queue = b := by
  have hfun : (fun d => if d = c then queue else b.callbacks d) = b.callbacks := by
    funext d
    split
    · rw [‹d = c›, hqueue]
    · rfl
  rw [Builder.setCallbacks, hfun]

namespace Action

variable {α β γ : Type} {id : BuilderId} {saved : List (String × Fragment)}

/-- The action turns the builder into another one. -/
def Turns (id : BuilderId) (saved : List (String × Fragment)) (b : Builder)
    (action : Action α) (a : α) (b' : Builder) : Prop :=
  ∀ w : World, w.builder id = b → w.saved = saved →
    ∃ w', action.exec id w = (.ok a, w') ∧ w'.builder id = b' ∧ w'.saved = saved ∧
      w'.nextToken = w.nextToken

namespace Turns

variable {b b₁ b₂ b₃ : Builder} {action : Action α} {a : α} {lock : Locker} {c : Concern}

/-- An action that does not touch the builder. -/
theorem of_same (hsame : ∀ w : World, w.builder id = b → w.saved = saved →
    ∃ w', action.exec id w = (.ok a, w') ∧ w'.builder id = w.builder id ∧
      w'.saved = w.saved ∧ w'.nextToken = w.nextToken) : Turns id saved b action a b := by
  intro w hb hsaved
  obtain ⟨w', hrun, hbuilder, hkept, htoken⟩ := hsame w hb hsaved
  exact ⟨w', hrun, hbuilder.trans hb, hkept.trans hsaved, htoken⟩

theorem pure (a : α) : Turns id saved b (Pure.pure a) a b :=
  of_same fun w _ _ => ⟨w, rfl, rfl, rfl, rfl⟩

theorem self : Turns id saved b self b b := by
  intro w hb hsaved
  exact ⟨w, by rw [exec_self, hb], hb, hsaved, rfl⟩

/-- Actions turn a builder one after the other. -/
theorem bind {next : α → Action β} {result : β} (hfirst : Turns id saved b action a b₁)
    (hnext : Turns id saved b₁ (next a) result b₂) :
    Turns id saved b (action >>= next) result b₂ := by
  intro w hb hsaved
  obtain ⟨w₁, hrun, hb₁, hsaved₁, htoken₁⟩ := hfirst w hb hsaved
  obtain ⟨w₂, hrun₂, hb₂, hsaved₂, htoken₂⟩ := hnext w₁ hb₁ hsaved₁
  exact ⟨w₂, by rw [exec_bind_ok hrun, hrun₂], hb₂, hsaved₂, htoken₂.trans htoken₁⟩

theorem self_bind {next : Builder → Action α} (hnext : Turns id saved b (next b) a b₁) :
    Turns id saved b (PageQuery.Action.self >>= next) a b₁ :=
  self.bind hnext

/-- A change turns a builder into the changed one. -/
theorem update (change : Builder → Builder) :
    Turns id saved b (update change) () (change b) := by
  intro w hb hsaved
  refine ⟨_, exec_update change, ?_, hsaved, rfl⟩
  rw [World.builder_setBuilder_self, hb]

theorem read_bind {next : BuilderId → Action α} (hnext : Turns id saved b (next id) a b₁) :
    Turns id saved b (MonadReader.read >>= next) a b₁ := hnext

theorem log (event : Event) : Turns id saved b (log event) () b :=
  of_same fun _ _ _ => ⟨_, rfl, rfl, rfl, rfl⟩

theorem remember (moment : Moment) : Turns id saved b (remember moment) () b :=
  of_same fun _ _ _ => ⟨_, rfl, rfl, rfl, rfl⟩

theorem ofExcept {value : Except Error α} (hvalue : value = .ok a) :
    Turns id saved b (ofExcept value) a b :=
  of_same fun w _ _ => ⟨w, by rw [hvalue]; rfl, rfl, rfl, rfl⟩

theorem evaluate {expr : Expr} {f : Fragment} (heval : expr.eval (b.scope saved) = .ok f) :
    Turns id saved b (evaluate expr) f b := by
  intro w hb hsaved
  refine ⟨w, ?_, hb, hsaved, rfl⟩
  rw [exec_evaluate, hb, hsaved]
  exact congrArg (·, w) heval

/-- The check of an open concern leaves the builder as it is. -/
theorem checkLock (hopen : b.locked c = false) : Turns id saved b (checkLock c) () b := by
  intro w hb hsaved
  refine ⟨w, ?_, hb, hsaved, rfl⟩
  rw [exec_checkLock, hb, hopen]
  rfl

theorem attempt (haction : Turns id saved b action a b₁) :
    Turns id saved b (attempt action) (.ok a) b₁ := by
  intro w hb hsaved
  obtain ⟨w₁, hrun, hkept⟩ := haction w hb hsaved
  exact ⟨w₁, by rw [exec_attempt, hrun], hkept⟩

theorem mapM {f : γ → Action α} {items : List γ} {values : List α}
    (hitems : List.Forall₂ (fun item value => Turns id saved b (f item) value b) items values) :
    Turns id saved b (items.mapM f) values b := by
  induction hitems with
  | nil => exact pure _
  | cons hitem _ ih =>
      rw [List.mapM_cons]
      exact hitem.bind (ih.bind (pure _))

/-- To lock what is locked already does nothing. -/
theorem idle (hidle : lock.Idle) (hlocked : b.locked c = true) :
    Turns id saved b (lock c) () b := by
  intro w hb hsaved
  exact ⟨w, hidle (by rw [hb, hlocked]), hb, hsaved, rfl⟩

/-- A value that comes to a fragment gives it. -/
theorem resolveFragment {scope : Scope} {value : DeferredFragment} {f : Fragment}
    (hvalue : Comes scope value f) (hscope : b.scope saved = scope) :
    Turns id saved b (resolveFragment lock value) f b := by
  cases hvalue with
  | ready f => exact pure f
  | lazy heval =>
      rw [← hscope] at heval
      exact (pure ()).bind (evaluate heval)

theorem forM_cons {f : γ → Action PUnit} {item : γ} {rest : List γ}
    (hitem : Turns id saved b (f item) ⟨⟩ b₁) (hrest : Turns id saved b₁ (rest.forM f) ⟨⟩ b₂) :
    Turns id saved b ((item :: rest).forM f) ⟨⟩ b₂ :=
  hitem.bind hrest

theorem forM_append {f : γ → Action PUnit} {some others : List γ}
    (hsome : Turns id saved b (some.forM f) ⟨⟩ b₁)
    (hothers : Turns id saved b₁ (others.forM f) ⟨⟩ b₂) :
    Turns id saved b ((some ++ others).forM f) ⟨⟩ b₂ := by
  change Turns id saved b (forM (some ++ others) f) ⟨⟩ b₂
  rw [List.forM_append]
  exact hsome.bind hothers

/-- Fields are settled one by one, and later ones take the place of earlier ones. -/
theorem resolveFields {scope : Scope} {pending : List PendingField} {fields : List Field}
    (hfields : List.Forall₂
      (fun p field => Comes scope p.expr field.expr ∧ p.name = field.name) pending fields)
    (hscope : b.scope saved = scope) (done : List Field) :
    Turns id saved b (resolveFields lock done pending) (latest done fields) b := by
  induction hfields generalizing done with
  | nil => exact pure _
  | @cons p field pending fields hfield _ ih =>
      apply (resolveFragment hfield.1 hscope).bind
      rw [hfield.2]
      exact ih _

/-- Without callbacks there is nothing to drain. -/
theorem drain_nil (rounds : Nat) (hnone : b.callbacks c = []) :
    Turns id saved b (drain lock c (rounds + 1)) () b := by
  apply self_bind
  rw [hnone]
  exact pure ()

/-- A single callback that registers none for its concern. -/
theorem drain_one (rounds : Nat) {callback : Callback} (hone : b.callbacks c = [callback])
    (hrun : Turns id saved (b.setCallbacks c []) (runCallback lock callback) () b₁)
    (hnone : b₁.callbacks c = []) : Turns id saved b (drain lock c (rounds + 2)) () b₁ := by
  apply self_bind
  rw [hone]
  apply (update _).bind
  have hcallbacks : Turns id saved (b.setCallbacks c []) (runCallbacks lock c [callback]) () b₁ :=
    hrun.attempt.bind (pure ())
  exact hcallbacks.bind (drain_nil rounds hnone)

/-- A lock of an open concern: its callbacks, the lock itself, and its values. -/
theorem lockWith {fuel : Nat} (hopen : b.locked c = false)
    (hdrain : Turns id saved b (drain (PageQuery.Action.lockWith fuel) c fuel) () b₁)
    (hstill : b₁.locked c = false)
    (hvalues : Turns id saved (b₁.setLocked c) (resolve (PageQuery.Action.lockWith fuel) c) ()
      b₂) : Turns id saved b (PageQuery.Action.lockWith (fuel + 1) c) () b₂ := by
  have hsettle : Turns id saved b₁ (settleOpen (PageQuery.Action.lockWith fuel) c) () b₂ := by
    apply self_bind
    rw [hstill]
    apply (update _).bind
    apply read_bind
    apply (log _).bind
    exact hvalues.bind (read_bind (remember _))
  have hboth : Turns id saved b (do
      drain (PageQuery.Action.lockWith fuel) c fuel
      settleOpen (PageQuery.Action.lockWith fuel) c) () b₂ := hdrain.bind hsettle
  intro w hb hsaved
  obtain ⟨w', hrun, hrest⟩ := hboth w hb hsaved
  refine ⟨w', ?_, hrest⟩
  rw [exec_lockWith_open fuel (by rw [hb, hopen])]
  exact hrun

/-- A lock of a concern without callbacks. -/
theorem lock_plain (fuel : Nat) (hopen : b.locked c = false) (hnone : b.callbacks c = [])
    (hvalues : Turns id saved (b.setLocked c)
      (resolve (PageQuery.Action.lockWith (fuel + 1)) c) () b₁) :
    Turns id saved b (PageQuery.Action.lockWith (fuel + 2) c) () b₁ :=
  lockWith hopen (drain_nil fuel hnone) hopen hvalues

/-- A lock of a concern with a single callback that registers none for it. -/
theorem lock_behind (fuel : Nat) (hopen : b.locked c = false) {callback : Callback}
    (hone : b.callbacks c = [callback])
    (hrun : Turns id saved (b.setCallbacks c [])
      (runCallback (PageQuery.Action.lockWith (fuel + 2)) callback) () b₁)
    (hnone : b₁.callbacks c = []) (hstill : b₁.locked c = false)
    (hvalues : Turns id saved (b₁.setLocked c)
      (resolve (PageQuery.Action.lockWith (fuel + 2)) c) () b₂) :
    Turns id saved b (PageQuery.Action.lockWith (fuel + 3) c) () b₂ :=
  lockWith hopen (drain_one fuel hone hrun hnone) hstill hvalues

/-- A lock of a concern that has the bounds locked first. -/
theorem lock_behind_bounds (fuel : Nat) (hopen : b.locked c = false)
    (hone : b.callbacks c = [.settleBounds]) (hbounds : b.locked .bounds = true)
    (hvalues : Turns id saved ((b.setCallbacks c []).setLocked c)
      (resolve (PageQuery.Action.lockWith (fuel + 2)) c) () b₁) :
    Turns id saved b (PageQuery.Action.lockWith (fuel + 3) c) () b₁ :=
  lock_behind fuel hopen hone (idle (idle_lockWith _) hbounds) (if_pos rfl) hopen hvalues

/-- A lock of a concern whose values need no settling, open or not. -/
theorem lock_either (fuel : Nat) (hnone : b.callbacks c = [])
    (hresolve : ∀ lock : Locker, resolve lock c = Pure.pure ()) :
    Turns id saved b (PageQuery.Action.lockWith (fuel + 2) c) () (b.setLocked c) := by
  cases hlocked : b.locked c with
  | true =>
      rw [b.setLocked_self hlocked]
      exact idle (idle_lockWith _) hlocked
  | false =>
      apply lock_plain fuel hlocked hnone
      rw [hresolve]
      exact pure ()

/-! The values of each concern, once they come. -/

theorem resolve_comparator {comparator : Comparator}
    (hpending : b.pending.comparator = some comparator) :
    Turns id saved b (resolve lock .comparator) ()
      { b with
        pending := { b.pending with comparator := none }
        resolved := { b.resolved with comparator := some comparator } } := by
  apply self_bind
  rw [hpending]
  exact (update _).bind (update _)

/-- The order settles to the terms that its values come to. -/
theorem resolve_order {terms : List OrderTerm}
    (hterms : List.Forall₂ (fun p term => Comes (b.scope saved) p.expr term.expr ∧
      p.ascending = term.ascending ∧ p.nulls = term.nulls) b.pending.orderTerms terms)
    (huniqueness : Turns id saved
      { b with
        pending := { b.pending with orderTerms := [] }
        resolved := { b.resolved with orderTerms := terms } } (lock .uniqueness) () b₁) :
    Turns id saved b (resolve lock .order) () b₁ := by
  have hmap : Turns id saved { b with pending := { b.pending with orderTerms := [] } }
      (b.pending.orderTerms.mapM (resolveTerm lock)) terms
      { b with pending := { b.pending with orderTerms := [] } } := by
    apply mapM
    apply hterms.imp
    rintro p ⟨expr, ascending, nulls⟩ ⟨hexpr, rfl, rfl⟩
    exact bind (resolveFragment hexpr (by rfl)) (pure _)
  have horder : Turns id saved b (resolveOrder lock) ()
      { b with
        pending := { b.pending with orderTerms := [] }
        resolved := { b.resolved with orderTerms := terms } } :=
    self_bind ((update _).bind (hmap.bind (update _)))
  exact horder.bind huniqueness

theorem resolve_wheres {wheres : List Fragment}
    (hwheres : List.Forall₂ (Comes (b.scope saved)) b.pending.wheres wheres) :
    Turns id saved b (resolve lock .wheres) ()
      { b with
        pending := { b.pending with wheres := [] }
        resolved := { b.resolved with wheres := wheres } } := by
  have hmap : Turns id saved { b with pending := { b.pending with wheres := [] } }
      (b.pending.wheres.mapM (PageQuery.Action.resolveFragment lock)) wheres
      { b with pending := { b.pending with wheres := [] } } :=
    mapM (hwheres.imp fun _ _ hwhere => resolveFragment hwhere (by rfl))
  exact self_bind ((update _).bind (hmap.bind (update _)))

/-- Counts that are known are added up. -/
theorem resolveOffsets (total : Nat) (offsets : List Nat) :
    Turns id saved b (resolveOffsets lock total (offsets.map .ready))
      (offsets.foldl addCounts total) b := by
  induction offsets generalizing total with
  | nil => exact pure _
  | cons n rest ih => exact bind (pure n) (ih _)

theorem resolve_offset {offsets : List Nat} (hpending : b.pending.offsets = offsets.map .ready) :
    Turns id saved b (resolve lock .offset) ()
      { b with
        pending := { b.pending with offsets := [] }
        resolved := { b.resolved with offset := offsets.foldl addCounts 0 } } := by
  apply self_bind
  rw [hpending]
  exact (update _).bind ((resolveOffsets 0 offsets).bind (update _))

theorem resolve_limit (hpending : b.pending.limit = none) :
    Turns id saved b (resolve lock .limit) ()
      { b with
        pending := { b.pending with limit := none }
        resolved := { b.resolved with limit := none } } := by
  apply self_bind
  rw [hpending]
  exact (update _).bind ((pure none).bind (update _))

theorem resolve_cursor (hpending : b.pending.cursor = some (.lazy [] .cursorExpression))
    {expr : CursorExpr}
    (hcursor : Turns id saved { b with pending := { b.pending with cursor := none } }
      (cursorExpression lock) expr { b with pending := { b.pending with cursor := none } }) :
    Turns id saved b (resolve lock .cursor) ()
      { b with
        pending := { b.pending with cursor := none }
        resolved := { b.resolved with cursor := some expr.fragment } } := by
  apply self_bind
  rw [hpending]
  apply (update _).bind
  have hfragment : Turns id saved { b with pending := { b.pending with cursor := none } }
      (PageQuery.Action.resolveFragment lock (.lazy [] .cursorExpression)) expr.fragment
      { b with pending := { b.pending with cursor := none } } := by
    apply (pure ()).bind
    exact hcursor.bind (pure _)
  have hvalue : Turns id saved { b with pending := { b.pending with cursor := none } }
      ((some (.lazy [] .cursorExpression) : Option DeferredFragment).mapM
        (PageQuery.Action.resolveFragment lock)) (some expr.fragment)
      { b with pending := { b.pending with cursor := none } } := hfragment.bind (pure _)
  exact hvalue.bind (update _)

/-- The select list settles to its latest fields. -/
theorem resolve_select {fields : List Field}
    (hfields : List.Forall₂
      (fun p field => Comes (b.scope saved) p.expr field.expr ∧ p.name = field.name)
      b.pending.selects fields) :
    Turns id saved b (resolve lock .select) ()
      { b with
        pending := { b.pending with selects := [] }
        resolved := { b.resolved with selects := latest [] fields } } := by
  have hvalues : Turns id saved { b with pending := { b.pending with selects := [] } }
      (PageQuery.Action.resolveFields lock [] b.pending.selects) (latest [] fields)
      { b with pending := { b.pending with selects := [] } } :=
    resolveFields hfields (by rfl) []
  exact self_bind ((update _).bind (hvalues.bind (update _)))

end Turns

end Action

end PageQuery
