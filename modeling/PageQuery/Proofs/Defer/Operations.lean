import PageQuery.Proofs.Defer.Actions
import PageQuery.Proofs.Logic.Operations

/-!
# Operations on deferred values

In a world that defers values an operation does what it does in the other world, if its locks
do, since this is a logic of actions.  Main statement: of two scripts, one of which defers values
of the other one, each does what the other does.
-/

namespace PageQuery

open Sql

/-- Two runs, in the second of which values are deferred. -/
def Frame.defers : Frame where
  likeness _ := .none
  op _ := Op.Defers

/-! Scripts that defer values -/

section

variable {n : Nat} {id : BuilderId}

/-- Scripts that defer values have the same steps up to their operations. -/
theorem ScriptDefers.like {steps steps' : List Step} (h : ScriptDefers steps steps') :
    ScriptLike .defers n steps steps' := by
  induction steps generalizing steps' with
  | nil =>
      cases h
      exact .nil
  | cons s rest ih =>
      obtain _ | ⟨⟨hop, path, optional, save⟩, hrest⟩ := h
      exact .cons ⟨rfl, hop, rfl, rfl⟩ (ih hrest)

/-- What a logic hands on of registered scripts is that one defers values of the other. -/
theorem ScriptLike.defers {steps steps' : List Step} (h : ScriptLike .defers n steps steps') :
    ScriptDefers steps steps' := by
  induction h with
  | nil => exact .nil
  | @cons s s' _ _ hs _ ih =>
      obtain ⟨path, op, optional, save⟩ := s
      obtain ⟨path', op', optional', save'⟩ := s'
      obtain ⟨hpath, hop, hoptional, hsave⟩ := hs
      obtain rfl : path' = path := hpath
      obtain rfl : optional' = optional := hoptional
      obtain rfl : save' = save := hsave
      exact .cons (.mk hop path' optional' save') ih

/-- An operation that defers nothing itself is the same one in both runs, up to its script. -/
theorem Op.Like.of_scriptDefers {op op' : Op} (hscript : ScriptDefers op.script op'.script)
    (hsame : op' = op.withScript op'.script) : op.Like .defers n op' where
  script := hscript.like
  same := hsame
  tokens t _ := Variation.whole_none t
  named _ := trivial
  affords _ _ := trivial

/-- An operation defers the values of another one in its script, or the value that it
registers. -/
theorem Op.Defers.like_or_deferral {op op' : Op} (h : op.Defers op') :
    op.Like .defers n op' ∨ op.Deferral Expr.Constant op' := by
  cases h with
  | value hop => exact .inr hop
  | same => exact .inl (.of_scriptDefers (.refl _) op.withScript_script.symm)
  | selectLazy hsteps | selectCursorLazy hsteps | filterLazy hsteps | orderByLazy hsteps
  | limitLazy hsteps | offsetLazy hsteps | setCustomComparator hsteps | beforeLock _ hsteps =>
      exact .inl (.of_scriptDefers hsteps rfl)

/-- A value that is handed on is ready in both runs or lazy in both. -/
theorem Deferred.Like.defers {α σ : Type} [Likeness α] [Likeness σ] {gives : σ → α → Prop}
    {value value' : Deferred α σ} (h : value.Like .defers n value') :
    value.Defers gives value' := by
  cases h with
  | ready ha =>
      obtain rfl := ha.eq Variation.exact_none
      exact .ready _
  | lazy hsteps hvalue =>
      obtain rfl := hvalue.eq Variation.exact_none
      exact .lazy hsteps.defers _

theorem Comparator.Like.defers {comparator comparator' : Comparator}
    (h : comparator.Like .defers n comparator') : comparator.Defers comparator' := by
  cases h with
  | kind kind => exact .kind kind
  | custom hsteps => exact .custom hsteps.defers

theorem Callback.Like.defers {callback callback' : Callback}
    (h : callback.Like .defers n id callback') : callback.Defers callback' := by
  cases h with
  | same => exact .same _
  | script hsteps => exact .script hsteps.defers
  | cursor hcursor => exact hcursor.elim

/-- What can be seen of a builder does not show what waits in it. -/
theorem Builder.Defers.seen {b b' : Builder} (h : b.Defers b') : b.Seen .none b' := by
  obtain ⟨-, -, -⟩ := h
  exact { Builder.Seen.refl Variation.whole_none b with }

/-- What a call registers may be deferred. -/
theorem Action.Defers.register_like {call call' : Call} (h : call.Like .defers n id call') :
    Action.Defers call.action call'.action := by
  cases h with
  | select hexpr name => exact .select hexpr.defers name
  | selectIdentifiers primaryKey => exact .selectIdentifiers primaryKey
  | selectCursor hexpr => exact .selectCursor hexpr.defers
  | join hclause =>
      obtain rfl := hclause.eq Variation.exact_none
      exact .join _
  | filter hexpr => exact .filter hexpr.defers
  | bound hcondition isLower =>
      obtain rfl := hcondition.eq Variation.exact_none
      exact .bound _ isLower
  | orderBy hexpr ascending nulls => exact .orderBy hexpr.defers ascending nulls
  | setOrderUnique => exact .setOrderUnique
  | limit hcount => exact .limit hcount.defers
  | offset hcount => exact .offset hcount.defers
  | first count => exact .first count
  | last count => exact .last count
  | setCursorTag tag => exact .setCursorTag tag
  | beforeLock c hcallback => exact .beforeLock c hcallback.defers

end

/-- In a world that defers values the second lock does what the first one does in the other
world. -/
def Locker.Defers (lock lock' : Locker) : Prop := ∀ c, Action.Defers (lock c) (lock' c)

/-- The value of an expression where it stands. -/
def World.Evaluates (w : World) (id : BuilderId) (expr : Expr) (f : Fragment) : Prop :=
  expr.eval ⟨(w.builder id).tableAlias, (w.builder id).parentAlias, w.saved⟩ = .ok f

theorem Action.exec_answering_evaluate {w : World} {id : BuilderId} {expr : Expr} {f : Fragment}
    (hvalue : w.Evaluates id expr f) (change : Fragment → Action Unit) :
    (answering (evaluate expr >>= change)).exec id w = (answering (change f)).exec id w := by
  have hevaluate : (evaluate expr).exec id w = (.ok f, w) := by
    rw [exec_evaluate, hvalue]
  rw [answering, answering, exec_bind, exec_bind_ok hevaluate, ← exec_bind]

namespace Locker.Defers

open PageQuery.Action
open PageQuery.Action.Defers (ask self_bind read_bind)

variable {lock lock' : Locker} (h : lock.Defers lock')

/-- What is told of a child. -/
theorem childAnswer (name : String) : Action.Defers (childAnswer name) (childAnswer name) := by
  refine ask (fun _ _ _ _ => rfl) fun b => ?_
  refine (Action.Defers.ofExcept _).bind fun child => ?_
  refine .get_bind fun w w' hworld => ?_
  have hb := hworld.builder child
  generalize w.builder child = b, w'.builder child = b' at hb ⊢
  obtain ⟨-, -, -⟩ := hb
  exact .pure _

/-- To register a closure is accepted or refused as to register its value is. -/
theorem deferral {op op' : Op} {id : BuilderId} {w w' : World}
    (hop : op.Deferral (w.Evaluates id) op') (hworld : w.Defers w') :
    Agree World.Defers ((Action.perform lock op).exec id w)
      ((Action.perform lock' op').exec id w') := by
  have hanswering {action action' : Action Unit} (haction : Action.Defers action action') :
      Action.Defers (Action.answering action) (Action.answering action') :=
    haction.bind fun _ => .pure _
  have hexpr {expr : Expr} {f : Fragment} (hvalue : w.Evaluates id expr f)
      {change : Fragment → Action Unit} {action' : Action Unit}
      (hchange : Action.Defers (change f) action') :
      Agree World.Defers ((Action.answering (evaluate expr >>= change)).exec id w)
        ((Action.answering action').exec id w') := by
    rw [exec_answering_evaluate hvalue]
    exact hanswering hchange hworld
  cases hop with
  | select hvalue hgives name => exact hexpr hvalue (.select (.value hgives) name)
  | selectCursor hvalue hgives => exact hexpr hvalue (.selectCursor (.value hgives))
  | filter hvalue hgives => exact hexpr hvalue (.filter (.value hgives))
  | orderBy hvalue hgives ascending nulls =>
      exact hexpr hvalue (.orderBy (.value hgives) ascending nulls)
  | limit hgives => exact hanswering (.limit (.value hgives)) hworld
  | offset hgives => exact hanswering (.offset (.value hgives)) hworld

include h

/-- A row source is registered and locked in both runs. -/
theorem source (table : Fragment) (rowAlias : Option Node) :
    Action.Defers (source lock table rowAlias) (source lock' table rowAlias) :=
  (Action.Defers.registerSource table rowAlias).bind fun _ => h .source

/-- Both runs make the same child. -/
theorem addChild (name : String) (table : Fragment) (rowAlias : Option Node) :
    Action.Defers (addChild lock name table rowAlias) (addChild lock' name table rowAlias) := by
  refine ask (fun _ _ _ _ => rfl) fun b => ?_
  refine .ite_bind (.refuse _) (read_bind fun id => ?_)
  refine (Action.Defers.ofExcept _).bind fun tableAlias => ?_
  refine (Action.Defers.spawn _).bind fun child => ?_
  refine ((h.source table rowAlias).within child).bind fun _ => ?_
  refine (Action.Defers.log _).bind fun _ => .bind (.amend ?_ ?_) fun _ => .pure _
  · exact fun _ _ _ _ => rfl
  · exact fun _ => ⟨rfl, rfl, rfl⟩

theorem addChildSelecting (name : String) (table : Fragment) (rowAlias : Option Node)
    (expr : Fragment) (exprName : String) :
    Action.Defers (addChildSelecting lock name table rowAlias expr exprName)
      (addChildSelecting lock' name table rowAlias expr exprName) := by
  refine (h.addChild name table rowAlias).bind fun child => ?_
  have hselect : Action.Defers (select (.ready expr) exprName) (select (.ready expr) exprName) :=
    .select (.ready expr) exprName
  exact (hselect.within child).bind fun _ => .pure _

/-- Actions of which the second one does in a world that defers values what the first one does
in the other world, with the locks. -/
def logic : Logic where
  toFrame := .defers
  Holds _ _ _ {_} [_] f f' := Action.Defers (f lock) (f' lock')
  le _ := .refl _
  op_mono {_ _} _ {_ _} h := h
  pure ha := by
    obtain rfl := ha.eq Variation.exact_none
    exact .pure _
  refuse := .refuse
  mono _ h := h
  bind {n _ _ _ _ _ _ _ _ _ _ _} hf hg :=
    hf.bind fun a => hg n a a (Nat.le_refl n) (.refl Variation.whole_none a)
  attempt h := h.attempt
  lock c := h c
  inspect {n _ _ _ _ _ _} hg := self_bind fun b b' hb => hg n b b' (Nat.le_refl n) hb.seen
  identify := read_bind
  descend {_ id _ _ _ _ _} name hf :=
    ask (fun _ _ _ _ => rfl) fun b => (Action.Defers.ofExcept _).bind fun child =>
      (hf id).within child
  childAnswer := childAnswer
  evaluate _ := .evaluate _
  evaluateNode _ := .evaluateNode _
  log _ := .log _
  record hop locks _ _ houtcome := by
    obtain rfl := houtcome.eq Variation.exact_none
    exact .record (.step hop locks _)
  save name _ _ hf := by
    obtain rfl := hf.eq Variation.exact_none
    exact .save name _
  mintToken {_ _} := Action.Defers.mintToken
  builtStatement h :=
    h.bind fun s => read_bind fun id => (Action.Defers.remember _ _).bind fun _ => .pure s
  register := Action.Defers.register_like
  registerSource htable _ _ halias _ := by
    obtain rfl := htable.eq Variation.exact_none
    obtain rfl := halias.eq Variation.exact_none
    exact .registerSource _ _
  registerComparator h := .registerComparator h.defers
  addChild name _ _ htable _ _ halias _ := by
    obtain rfl := htable.eq Variation.exact_none
    obtain rfl := halias.eq Variation.exact_none
    exact h.addChild name _ _
  addChildSelecting name _ _ htable _ _ halias _ _ _ hexpr exprName := by
    obtain rfl := htable.eq Variation.exact_none
    obtain rfl := halias.eq Variation.exact_none
    obtain rfl := hexpr.eq Variation.exact_none
    exact h.addChildSelecting name _ _ _ exprName
  op_cases {n o o'} hop := by
    refine hop.like_or_deferral.imp_right fun hdeferral _ _ w w' hworld => ?_
    exact deferral (hdeferral.imp fun _ _ hconstant => hconstant _) hworld

/-- The builder is of no account. -/
theorem of_logic {α : Type} [Likeness α] {cost : Nat} {f f' : Locker → Action α}
    (hholds : h.logic.Holds 0 World.root cost f f') : Action.Defers (f lock) (f' lock') := hholds

theorem cursorExpression : Action.Defers (cursorExpression lock) (cursorExpression lock') :=
  h.of_logic h.logic.cursorExpression

theorem totalOffset : Action.Defers (totalOffset lock) (totalOffset lock') :=
  h.of_logic h.logic.totalOffset

theorem compareWith (kind : ComparatorKind) (cursor : List Json) (isAfter : Bool) :
    Action.Defers (compareWith lock kind cursor isAfter) (compareWith lock' kind cursor isAfter) :=
  h.of_logic (h.logic.compareWith kind cursor isAfter)

theorem breakTies (primaryKey : List String) :
    Action.Defers (breakTies lock primaryKey) (breakTies lock' primaryKey) :=
  h.of_logic (h.logic.breakTies primaryKey)

/-- The answer of a step is saved under its name. -/
theorem saving (name : Option String) (answer : Answer) :
    Action.Defers (saving name answer) (saving name answer) :=
  h.of_logic (h.logic.saving name (.refl Variation.whole_none answer))

/-- A step may register a closure where the other one registers its value. -/
theorem performStep {s s' : Step} (hs : s.Defers s') :
    Action.Defers (performStep lock s) (performStep lock' s') := by
  have hlike : s.Like .defers 0 s' := by
    obtain ⟨hop, path, optional, save⟩ := hs
    exact ⟨rfl, hop, rfl, rfl⟩
  exact h.of_logic (h.logic.performStep hlike)

/-- Each of two scripts does what the other one does if it defers values of the other one. -/
theorem runSteps {steps steps' : List Step} (hsteps : ScriptDefers steps steps') :
    Action.Defers (runSteps lock steps) (runSteps lock' steps') :=
  h.of_logic (h.logic.runSteps hsteps.like)

end Locker.Defers

end PageQuery
