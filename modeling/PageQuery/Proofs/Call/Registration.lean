import PageQuery.Proofs.Call.Basic
import PageQuery.Proofs.Call.Part
import PageQuery.Proofs.Mirror.Locking
import PageQuery.Proofs.Run.Follow
import PageQuery.Proofs.Run.Session
import PageQuery.Proofs.Run.Turns

/-!
# Calls that register

A call that registers something ready works on one part of its builder: it is refused and
changes nothing, or it replaces the part of its concern, and what it does depends on
this part, the row source and the place of the builder only.
-/

namespace PageQuery

open Sql

/-- A change of the part of one concern, which may be refused, or aborted if its expressions
have no value. -/
structure Registration where
  concern : Concern
  change : concern.Part → Except Halt concern.Part

namespace Concern.Part

variable {c : Concern}

/-- To register something with an open concern. -/
def register (p : c.Part) (change : c.Contents → Except Error c.Contents) :
    Except Halt c.Part :=
  if p.locked then .error (.refused (.lockedMutation c))
  else ((change p.contents).mapError .refused).map fun contents => { p with contents }

/-- To register a callback with an open concern. -/
def await (p : c.Part) (callback : Callback) : Except Halt c.Part :=
  if p.locked then .error (.refused (.lockedMutation c))
  else .ok { p with callbacks := p.callbacks ++ [callback] }

/-- To set the comparator, which locks it. -/
def settleComparator (p : Concern.comparator.Part) (comparator : Comparator) :
    Except Halt Concern.comparator.Part :=
  if p.locked then .error (.refused (.lockedMutation .comparator))
  else .ok ⟨(none, some comparator), true, p.callbacks⟩

end Concern.Part

/-- The selection of a field, if its name is one. -/
def selecting (field : PendingField) :
    Concern.select.Contents → Except Error Concern.select.Contents :=
  fun ((waiting, selected), settled) => do
    Action.checkName field.name
    return ((waiting ++ [field], selected), settled)

/-- The selection of the primary key, unless it is selected already. -/
def selectingIdentifiers (tableAlias : Except Error Node) (primaryKey : List String) :
    Concern.select.Contents → Except Error Concern.select.Contents :=
  fun ((waiting, selected), settled) =>
    if selected || primaryKey.isEmpty then .ok ((waiting, selected), settled)
    else do
      let table ← tableAlias
      selecting ⟨.ready (Action.identifiers table primaryKey), identifiersAlias⟩
        ((waiting, true), settled)

namespace Call

/-- The concern that a call registers something with. -/
def concern : Call → Concern
  | .select .. | .selectIdentifiers _ => .select
  | .selectCursor _ => .cursor
  | .join _ => .joins
  | .filter _ => .wheres
  | .bound .. | .addCursorCondition .. => .bounds
  | .orderBy .. => .order
  | .setOrderUnique => .uniqueness
  | .limit _ => .limit
  | .offset _ => .offset
  | .first _ => .first
  | .last _ => .last
  | .setCursorTag _ => .cursorTag
  | .beforeLock c _ => c

/-- The callback that a call registers, if it does not register data. -/
def callback? : Call → Option Callback
  | .addCursorCondition cursor isAfter => some (.cursorCondition cursor isAfter)
  | .beforeLock _ callback => some callback
  | _ => none

/-- What a call makes of the data of its concern; a callback leaves them as they are. -/
def revise (tableAlias : Except Error Node) :
    (call : Call) → call.concern.Contents → Except Error call.concern.Contents
  | .select expr name => selecting ⟨expr, name⟩
  | .selectIdentifiers primaryKey => selectingIdentifiers tableAlias primaryKey
  | .selectCursor expr => fun (_, settled) => .ok (some expr, settled)
  | .join clause => fun (joins : List Fragment) => .ok (joins ++ [clause])
  | .filter expr => fun (waiting, settled) => .ok (waiting ++ [expr], settled)
  | .bound condition isLower => fun (lower, upper) =>
      .ok (if isLower then (lower ++ [condition], upper) else (lower, upper ++ [condition]))
  | .orderBy expr ascending nulls => fun (waiting, settled) =>
      .ok (waiting ++ [⟨expr, ascending, nulls⟩], settled)
  | .setOrderUnique => fun _ => .ok true
  | .limit n => fun limit =>
      if limit.1.isSome then .error (.validation .limitSet) else .ok (some n, limit.2)
  | .offset n => fun (waiting, settled) => .ok (waiting ++ [n], settled)
  | .first n => fun first =>
      if first.isSome then .error (.validation .firstSet) else .ok (some n)
  | .last n => fun last => if last.isSome then .error (.validation .lastSet) else .ok (some n)
  | .setCursorTag tag => fun _ => .ok tag
  | .addCursorCondition .. | .beforeLock .. => .ok

def registration (call : Call) (tableAlias : Except Error Node) : Registration where
  concern := call.concern
  change p :=
    match call.callback? with
    | some callback => p.await callback
    | none => p.register (call.revise tableAlias)

end Call

/-- What a call registers, for the calls that register something ready; expressions are
evaluated first. -/
def Op.registration? (scope : Scope) : Op → Option Registration
  | .select expr name => some ⟨.select, fun p => do
      let f ← expr.eval scope
      p.register (selecting ⟨.ready f, name⟩)⟩
  | .selectIdentifiers primaryKey =>
      some ⟨.select, fun p => p.register (selectingIdentifiers scope.tableAlias primaryKey)⟩
  | .selectCursor expr => some ⟨.cursor, fun p => do
      let f ← expr.eval scope
      p.register fun (_, settled) => .ok (some (.ready f), settled)⟩
  | .join clause => some ⟨.joins, fun p => do
      let f ← clause.eval scope
      p.register fun joins => .ok (joins ++ [f])⟩
  | .filter expr => some ⟨.wheres, fun p => do
      let f ← expr.eval scope
      p.register fun (waiting, settled) => .ok (waiting ++ [.ready f], settled)⟩
  | .bound expr isLower => some ⟨.bounds, fun p => do
      let f ← expr.eval scope
      p.register fun (lower, upper) =>
        .ok (if isLower then (lower ++ [.given f], upper) else (lower, upper ++ [.given f]))⟩
  | .orderBy expr ascending nulls => some ⟨.order, fun p => do
      let f ← expr.eval scope
      p.register fun (waiting, settled) => .ok (waiting ++ [⟨.ready f, ascending, nulls⟩], settled)⟩
  | .setOrderUnique => some ⟨.uniqueness, fun p => p.register fun _ => .ok true⟩
  | .limit n => some ⟨.limit, fun p => p.register fun limit =>
      if limit.1.isSome then .error (.validation .limitSet) else .ok (some (.ready n), limit.2)⟩
  | .offset n => some ⟨.offset, fun p => p.register fun (waiting, settled) =>
      .ok (waiting ++ [.ready n], settled)⟩
  | .first n => some ⟨.first, fun p => p.register fun first =>
      if first.isSome then .error (.validation .firstSet) else .ok (some n)⟩
  | .last n => some ⟨.last, fun p => p.register fun last =>
      if last.isSome then .error (.validation .lastSet) else .ok (some n)⟩
  | .setComparator kind => some ⟨.comparator, fun p => p.settleComparator (.kind kind)⟩
  | .setCustomComparator steps => some ⟨.comparator, fun p => p.settleComparator (.custom steps)⟩
  | .setCursorTag tag => some ⟨.cursorTag, fun p => p.register fun _ => .ok tag⟩
  | .addCursorCondition values isAfter =>
      some ⟨.bounds, fun p => p.await (.cursorCondition values isAfter)⟩
  | _ => none

namespace Builder

variable {b : Builder} {c : Concern}

@[simp]
theorem setContents_self (b : Builder) (c : Concern) : b.setContents c (b.contents c) = b := by
  cases c <;> rfl

theorem setPart_contents (b : Builder) (c : Concern) (contents : c.Contents) :
    b.setPart c { b.part c with contents } = b.setContents c contents := by
  have hlocks : (b.setContents c contents).locked = b.locked := by cases c <;> rfl
  have hqueues : (b.setContents c contents).callbacks = b.callbacks := by cases c <;> rfl
  rw [setPart, part, Function.update_eq_self, Function.update_eq_self, ← hlocks, ← hqueues]

theorem setPart_callbacks (b : Builder) (c : Concern) (queue : List Callback) :
    b.setPart c { b.part c with callbacks := queue } = b.setCallbacks c queue := by
  rw [setPart, part, setContents_self, Function.update_eq_self, setCallbacks]
  congr 1
  funext d
  simp [Function.update_apply]

/-- The builder with a comparator that waits to be locked. -/
def withComparator (b : Builder) (comparator : Comparator) : Builder :=
  { b with pending := { b.pending with comparator := some comparator } }

theorem settleComparator_withComparator (b : Builder) (comparator : Comparator) :
    (b.withComparator comparator).settleComparator =
      b.setPart .comparator ⟨(none, some comparator), true, (b.part .comparator).callbacks⟩ := by
  have hlocked : (fun d => if d = .comparator then true else b.locked d) =
      Function.update b.locked .comparator true := by
    funext d
    rw [Function.update_apply]
  rw [setPart, part, Function.update_eq_self, ← hlocked]
  rfl

/-- No callback waits for a comparator that is still open. -/
def Calm (b : Builder) : Prop := b.locked .comparator = false → b.callbacks .comparator = []

end Builder

namespace Action

variable {id : BuilderId} {w : World} {c : Concern}

/-- An action makes a registration on its builder: it replaces the part of the concern, or
halts and changes nothing. -/
def Registers (id : BuilderId) (w : World) (action : Action Unit) (r : Registration) : Prop :=
  match r.change ((w.builder id).part r.concern) with
  | .ok p => ∃ w', action.exec id w = (.ok (), w') ∧
      (w.setBuilder id ((w.builder id).setPart r.concern p)).SameState w'
  | .error halt => action.exec id w = (.error halt, w)

theorem Registers.accepted {action : Action Unit} {r : Registration} {p : r.concern.Part}
    (h : Registers id w action r) (hchange : r.change ((w.builder id).part r.concern) = .ok p) :
    ∃ w', action.exec id w = (.ok (), w') ∧
      (w.setBuilder id ((w.builder id).setPart r.concern p)).SameState w' := by
  rwa [Registers, hchange] at h

theorem Registers.halted {action : Action Unit} {r : Registration} {halt : Halt}
    (h : Registers id w action r)
    (hchange : r.change ((w.builder id).part r.concern) = .error halt) :
    action.exec id w = (.error halt, w) := by
  rwa [Registers, hchange] at h

/-- The same for a change of contents, behind the check of the lock. -/
theorem registers_contents {next : Unit → Action Unit}
    {change : c.Contents → Except Error c.Contents}
    (hnext : (w.builder id).locked c = false → match change ((w.builder id).contents c) with
      | .ok contents => ∃ w', (next ()).exec id w = (.ok (), w') ∧
          (w.setBuilder id ((w.builder id).setContents c contents)).SameState w'
      | .error e => (next ()).exec id w = (.error (.refused e), w)) :
    Registers id w (checkLock c >>= next) ⟨c, fun p => p.register change⟩ := by
  unfold Registers
  dsimp only
  rw [Concern.Part.register]
  cases hlocked : (w.builder id).locked c with
  | true =>
      have hpart : ((w.builder id).part c).locked = true := hlocked
      rw [if_pos hpart]
      exact exec_checkLock_bind_locked next hlocked
  | false =>
      have hpart : ¬((w.builder id).part c).locked = true := by simp [Builder.part, hlocked]
      have hcontents : ((w.builder id).part c).contents = (w.builder id).contents c := rfl
      rw [if_neg hpart, exec_checkLock_bind next hlocked, hcontents]
      specialize hnext hlocked
      cases hchange : change ((w.builder id).contents c) with
      | error e =>
          rw [hchange] at hnext
          exact hnext
      | ok contents =>
          rw [hchange] at hnext
          obtain ⟨w', hrun, hsame⟩ := hnext
          rw [← Builder.setPart_contents] at hsame
          exact ⟨w', hrun, hsame⟩

/-- A change that is never refused, once the concern is open. -/
theorem registers_update {change : Builder → Builder} {contents : c.Contents → c.Contents}
    (hchange : ∀ b, change b = b.setContents c (contents (b.contents c))) :
    Registers id w (checkLock c >>= fun _ => update change)
      ⟨c, fun p => p.register fun x => .ok (contents x)⟩ := by
  refine registers_contents fun _ => ⟨_, exec_update change, ?_⟩
  rw [hchange]
  exact World.SameState.refl _

/-- A change that is refused where there is something already. -/
theorem registers_once {α : Type} (kept : c.Contents → Option α)
    (contents : c.Contents → c.Contents) {error : Error} {held : Builder → Option α}
    {change : Builder → Builder} (hheld : ∀ b, held b = kept (b.contents c))
    (hchange : ∀ b, change b = b.setContents c (contents (b.contents c))) :
    Registers id w (do
        checkLock c
        if (held (← self)).isSome then refuse error
        update change)
      ⟨c, fun p => p.register fun x =>
        if (kept x).isSome then .error error else .ok (contents x)⟩ := by
  refine registers_contents fun _ => ?_
  dsimp only
  rw [exec_bind_ok exec_self, hheld]
  cases (kept ((w.builder id).contents c)).isSome with
  | true => rfl
  | false =>
      refine ⟨_, exec_update change, ?_⟩
      rw [hchange]
      exact World.SameState.refl _

theorem registers_select (expr : DeferredFragment) (name : String) :
    Registers id w (select expr name)
      ⟨.select, fun p => p.register (selecting ⟨expr, name⟩)⟩ := by
  refine registers_contents fun _ => ?_
  rw [selecting]
  cases hname : checkName name with
  | error e => exact exec_bind_error (exec_ofExcept _)
  | ok _ => exact ⟨_, exec_bind_ok (exec_ofExcept _), World.SameState.refl _⟩

/-- A primary key that is selected already is left as it is. -/
theorem registers_selectIdentifiers (primaryKey : List String) (hstored : w.Stored id) :
    Registers id w (selectIdentifiers primaryKey) ⟨.select, fun p =>
      p.register (selectingIdentifiers (w.builder id).tableAlias primaryKey)⟩ := by
  refine registers_contents fun hopen => ?_
  have hcontents : (w.builder id).contents .select =
    (((w.builder id).pending.selects, (w.builder id).identifiersSelected),
      (w.builder id).resolved.selects) := rfl
  rw [exec_bind_ok exec_self, hcontents]
  cases hdone : (w.builder id).identifiersSelected || primaryKey.isEmpty with
  | true =>
      simp only [selectingIdentifiers, hdone, if_true]
      refine ⟨w, rfl, ?_⟩
      rw [← hcontents, Builder.setContents_self, hstored.setBuilder_self]
      exact World.SameState.refl w
  | false =>
      simp only [selectingIdentifiers, hdone, Bool.false_eq_true, if_false, selecting]
      cases htable : (w.builder id).tableAlias with
      | error e => exact exec_bind_error (exec_ofExcept _)
      | ok table =>
          have hselect :
              (select (.ready (identifiers table primaryKey)) identifiersAlias).exec id w =
                (.ok (), w.setBuilder id _) := exec_checkLock_bind _ hopen
          refine ⟨_, (exec_bind_ok (exec_ofExcept _)).trans (exec_bind_ok hselect), ?_⟩
          refine ⟨World.replace_replace id _ _ _ |>.trans ?_, rfl, rfl, rfl⟩
          rw [World.builder_setBuilder_self]
          rfl

theorem registers_await (callback : Callback) :
    Registers id w (beforeLock c callback) ⟨c, fun p => p.await callback⟩ := by
  unfold Registers
  dsimp only
  rw [Concern.Part.await]
  cases hlocked : (w.builder id).locked c with
  | true =>
      have hpart : ((w.builder id).part c).locked = true := hlocked
      rw [if_pos hpart]
      exact exec_checkLock_bind_locked _ hlocked
  | false =>
      have hpart : ¬((w.builder id).part c).locked = true := by simp [Builder.part, hlocked]
      rw [if_neg hpart, beforeLock, exec_checkLock_bind _ hlocked, exec_update]
      refine ⟨_, rfl, ?_⟩
      rw [Builder.setPart_callbacks]
      exact World.SameState.refl _

/-- Expressions are evaluated before anything is registered. -/
theorem registers_evaluate {expr : Expr} {next : Fragment → Action Unit}
    {change : Fragment → c.Part → Except Halt c.Part} {scope : Scope}
    (hscope : scope = (w.builder id).scope w.saved)
    (hnext : ∀ f, Registers id w (next f) ⟨c, change f⟩) :
    Registers id w (evaluate expr >>= next)
      ⟨c, fun p => do change (← expr.eval scope) p⟩ := by
  have hevaluate : (evaluate expr).exec id w = (expr.eval scope, w) := by
    rw [exec_evaluate, hscope, Builder.scope]
  rw [Registers]
  cases heval : expr.eval scope with
  | error halt =>
      rw [heval] at hevaluate
      exact exec_bind_error hevaluate
  | ok f =>
      rw [heval] at hevaluate
      rw [exec_bind_ok hevaluate]
      exact hnext f

/-- A comparator for which no callback waits is in force as soon as it is locked. -/
theorem exec_lock_comparator (fuel : Nat) (hopen : (w.builder id).locked .comparator = false)
    (hnone : (w.builder id).callbacks .comparator = []) :
    (lockWith (fuel + 2) .comparator).exec id w =
      (.ok (), { w.setBuilder id (w.builder id).settleComparator with
        events := w.events ++ [.locked id .comparator]
        history := w.history ++ [.settled id .comparator] }) := by
  rw [exec_lockWith_open _ hopen, exec_bind_ok (exec_drain_nil _ _ hnone), exec_settleOpen,
    if_neg (by simp [hopen]), exec_settle_comparator]

/-- To set a comparator locks it, unless a callback waits for that. -/
theorem registers_comparator (comparator : Comparator) (fuel : Nat)
    (hcalm : (w.builder id).Calm) :
    Registers id w (setComparator (lockWith (fuel + 2)) comparator)
      ⟨.comparator, fun p => p.settleComparator comparator⟩ := by
  unfold Registers
  dsimp only
  rw [Concern.Part.settleComparator]
  cases hlocked : (w.builder id).locked .comparator with
  | true =>
      have hpart : ((w.builder id).part .comparator).locked = true := hlocked
      rw [if_pos hpart]
      exact exec_bind_error (exec_checkLock_bind_locked _ hlocked)
  | false =>
      have hpart : ¬((w.builder id).part .comparator).locked = true := by
        simp [Builder.part, hlocked]
      have hregister : (registerComparator comparator).exec id w =
          (.ok (), w.setBuilder id ((w.builder id).withComparator comparator)) :=
        exec_checkLock_bind _ hlocked
      have hbuilder : (w.setBuilder id ((w.builder id).withComparator comparator)).builder id =
          (w.builder id).withComparator comparator := by
        rw [World.builder_setBuilder_self]
      have hlock : (lockWith (fuel + 2) .comparator).exec id
          (w.setBuilder id ((w.builder id).withComparator comparator)) = _ :=
        exec_lock_comparator fuel (by rw [hbuilder]; exact hlocked)
          (by rw [hbuilder]; exact hcalm hlocked)
      rw [hbuilder, Builder.settleComparator_withComparator] at hlock
      rw [if_neg hpart]
      refine ⟨_, (exec_bind_ok hregister).trans hlock, ?_⟩
      exact ⟨World.replace_replace id _ _ _, rfl, rfl, rfl⟩

/-- What a call registers, on a builder that is there. -/
theorem registers_call (call : Call) (hstored : w.Stored id) :
    Registers id w call.action (call.registration (w.builder id).tableAlias) := by
  cases call with
  | select expr name => exact registers_select expr name
  | selectIdentifiers primaryKey => exact registers_selectIdentifiers primaryKey hstored
  | filter expr => exact registers_contents fun _ => ⟨_, rfl, { World.SameState.refl _ with }⟩
  | bound condition isLower =>
      refine registers_update fun _ => ?_
      cases isLower <;> rfl
  | limit n =>
      exact registers_once (c := .limit) Prod.fst (fun waiting => (some n, waiting.2))
        (fun _ => rfl) fun _ => rfl
  | first n =>
      exact registers_once (c := .first) (fun held => held) (fun _ => some n) (fun _ => rfl)
        fun _ => rfl
  | last n =>
      exact registers_once (c := .last) (fun held => held) (fun _ => some n) (fun _ => rfl)
        fun _ => rfl
  | selectCursor | join | orderBy | setOrderUnique | offset | setCursorTag =>
      exact registers_update fun _ => rfl
  | addCursorCondition | beforeLock => exact registers_await _

theorem registers_perform {op : Op} {scope : Scope} {r : Registration} (fuel : Nat)
    (hscope : scope = (w.builder id).scope w.saved)
    (hstored : w.Stored id) (hcalm : r.concern = .comparator → (w.builder id).Calm)
    (hop : op.registration? scope = some r) :
    ∃ action, perform (lockWith (fuel + 2)) op = answering action ∧ Registers id w action r := by
  have hcall (call : Call) := registers_call call hstored
  cases op with
  | select expr name =>
      cases hop
      exact ⟨_, rfl, registers_evaluate hscope fun f => hcall (.select (.ready f) name)⟩
  | selectIdentifiers primaryKey =>
      cases hop
      rw [hscope]
      exact ⟨_, rfl, hcall (.selectIdentifiers primaryKey)⟩
  | selectCursor expr =>
      cases hop
      exact ⟨_, rfl, registers_evaluate hscope fun f => hcall (.selectCursor (.ready f))⟩
  | join clause =>
      cases hop
      exact ⟨_, rfl, registers_evaluate hscope fun f => hcall (.join f)⟩
  | filter expr =>
      cases hop
      exact ⟨_, rfl, registers_evaluate hscope fun f => hcall (.filter (.ready f))⟩
  | bound expr isLower =>
      cases hop
      exact ⟨_, rfl, registers_evaluate hscope fun f => hcall (.bound (.given f) isLower)⟩
  | orderBy expr ascending nulls =>
      cases hop
      exact ⟨_, rfl,
        registers_evaluate hscope fun f => hcall (.orderBy (.ready f) ascending nulls)⟩
  | setOrderUnique =>
      cases hop
      exact ⟨_, rfl, hcall .setOrderUnique⟩
  | limit n =>
      cases hop
      exact ⟨_, rfl, hcall (.limit (.ready n))⟩
  | offset n =>
      cases hop
      exact ⟨_, rfl, hcall (.offset (.ready n))⟩
  | first n =>
      cases hop
      exact ⟨_, rfl, hcall (.first n)⟩
  | last n =>
      cases hop
      exact ⟨_, rfl, hcall (.last n)⟩
  | setComparator kind =>
      cases hop
      exact ⟨_, rfl, registers_comparator _ fuel (hcalm rfl)⟩
  | setCustomComparator steps =>
      cases hop
      exact ⟨_, rfl, registers_comparator _ fuel (hcalm rfl)⟩
  | setCursorTag tag =>
      cases hop
      exact ⟨_, rfl, hcall (.setCursorTag tag)⟩
  | addCursorCondition cursor isAfter =>
      cases hop
      exact ⟨_, rfl, hcall (.addCursorCondition cursor isAfter)⟩
  | _ => cases hop

end Action

end PageQuery
