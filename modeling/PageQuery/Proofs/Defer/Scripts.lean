import Mathlib.Order.MinMax
import PageQuery.Builder.Budget

/-!
# Scripts that defer values

A value can be registered when it is known, or by a closure that gives it when its concern
locks.  One script defers values of another one if it is the same but for values that it
registers by such closures, in its own steps or in those that run later.  Main statement: to
defer values makes a script heavier, if anything.
-/

namespace PageQuery

open Sql

/-- The closure does nothing else than to give this fragment. -/
def FragmentSource.Gives : FragmentSource → Fragment → Prop
  | .expr e, f => ∀ scope, e.eval scope = .ok f
  | .cursorExpression, _ => False

/-- The closure does nothing else than to give this number. -/
def CountSource.Gives : CountSource → Nat → Prop
  | .fixed m, n => m = n
  | .aboveOffset _, _ | .beforePosition _, _ => False

/-- The value of an expression wherever it stands. -/
def Expr.Constant (expr : Expr) (f : Fragment) : Prop := ∀ scope, expr.eval scope = .ok f

/-- The first operation registers a value, and the second one a closure that gives it.  What the
value of an expression is depends on where the operation stands. -/
inductive Op.Deferral (value : Expr → Fragment → Prop) : Op → Op → Prop
  | select {expr : Expr} {source : FragmentSource} {f : Fragment} (hvalue : value expr f)
      (hgives : source.Gives f) (name : String) :
      Deferral value (.select expr name) (.selectLazy [] source name)
  | selectCursor {expr : Expr} {source : FragmentSource} {f : Fragment} (hvalue : value expr f)
      (hgives : source.Gives f) : Deferral value (.selectCursor expr) (.selectCursorLazy [] source)
  | filter {expr : Expr} {source : FragmentSource} {f : Fragment} (hvalue : value expr f)
      (hgives : source.Gives f) : Deferral value (.filter expr) (.filterLazy [] source)
  | orderBy {expr : Expr} {source : FragmentSource} {f : Fragment} (hvalue : value expr f)
      (hgives : source.Gives f) (ascending : Bool) (nulls : Option NullsOrder) :
      Deferral value (.orderBy expr ascending nulls) (.orderByLazy [] source ascending nulls)
  | limit {n : Nat} {source : CountSource} (hgives : source.Gives n) :
      Deferral value (.limit n) (.limitLazy [] source)
  | offset {n : Nat} {source : CountSource} (hgives : source.Gives n) :
      Deferral value (.offset n) (.offsetLazy [] source)

/-- It does not matter how it is known which value a closure gives. -/
theorem Op.Deferral.imp {value value' : Expr → Fragment → Prop} {op op' : Op}
    (hop : op.Deferral value op') (himp : ∀ expr f, value expr f → value' expr f) :
    op.Deferral value' op' := by
  cases hop with
  | select hvalue hgives name => exact .select (himp _ _ hvalue) hgives name
  | selectCursor hvalue hgives => exact .selectCursor (himp _ _ hvalue) hgives
  | filter hvalue hgives => exact .filter (himp _ _ hvalue) hgives
  | orderBy hvalue hgives => exact .orderBy (himp _ _ hvalue) hgives _ _
  | limit hgives => exact .limit hgives
  | offset hgives => exact .offset hgives

mutual

/-- The second step does what the first one does, with values deferred. -/
inductive Step.Defers : Step → Step → Prop
  | mk {op op' : Op} (hop : Op.Defers op op') (path : List String) (optional : Bool)
      (save : Option String) : Step.Defers (.mk path op optional save) (.mk path op' optional save)

/-- The operations are the same but for values that the second one defers, in a script that it
may be given.  The value of an expression in a script is not known before the script runs, so
there only constants are deferred. -/
inductive Op.Defers : Op → Op → Prop
  | same (op : Op) : Op.Defers op op
  | value {op op' : Op} (hop : op.Deferral Expr.Constant op') : Op.Defers op op'
  | selectLazy {steps steps' : List Step} (hsteps : ScriptDefers steps steps')
      (value : FragmentSource) (name : String) :
      Op.Defers (.selectLazy steps value name) (.selectLazy steps' value name)
  | selectCursorLazy {steps steps' : List Step} (hsteps : ScriptDefers steps steps')
      (value : FragmentSource) :
      Op.Defers (.selectCursorLazy steps value) (.selectCursorLazy steps' value)
  | filterLazy {steps steps' : List Step} (hsteps : ScriptDefers steps steps')
      (value : FragmentSource) : Op.Defers (.filterLazy steps value) (.filterLazy steps' value)
  | orderByLazy {steps steps' : List Step} (hsteps : ScriptDefers steps steps')
      (value : FragmentSource) (ascending : Bool) (nulls : Option NullsOrder) :
      Op.Defers (.orderByLazy steps value ascending nulls)
        (.orderByLazy steps' value ascending nulls)
  | limitLazy {steps steps' : List Step} (hsteps : ScriptDefers steps steps')
      (value : CountSource) : Op.Defers (.limitLazy steps value) (.limitLazy steps' value)
  | offsetLazy {steps steps' : List Step} (hsteps : ScriptDefers steps steps')
      (value : CountSource) : Op.Defers (.offsetLazy steps value) (.offsetLazy steps' value)
  | setCustomComparator {steps steps' : List Step} (hsteps : ScriptDefers steps steps') :
      Op.Defers (.setCustomComparator steps) (.setCustomComparator steps')
  | beforeLock (c : Concern) {steps steps' : List Step} (hsteps : ScriptDefers steps steps') :
      Op.Defers (.beforeLock c steps) (.beforeLock c steps')

/-- Two scripts, the second one of which may defer values. -/
inductive ScriptDefers : List Step → List Step → Prop
  | nil : ScriptDefers [] []
  | cons {s s' : Step} {rest rest' : List Step} (hfirst : Step.Defers s s')
      (hrest : ScriptDefers rest rest') : ScriptDefers (s :: rest) (s' :: rest')

end

theorem Step.Defers.refl (s : Step) : s.Defers s := by
  obtain ⟨path, op, optional, save⟩ := s
  exact .mk (.same op) path optional save

/-- A script that defers nothing. -/
theorem ScriptDefers.refl (steps : List Step) : ScriptDefers steps steps := by
  induction steps with
  | nil => exact .nil
  | cons s _ ih => exact .cons (.refl s) ih

/-! Weights -/

variable {n m : Nat}

mutual

theorem Step.weight_mono (hle : n ≤ m) (s : Step) : s.weight n ≤ s.weight m := by
  cases s with
  | mk path op optional save => exact Op.weight_mono hle op

theorem Op.weight_mono (hle : n ≤ m) (op : Op) : op.weight n ≤ op.weight m := by
  cases op with
  | selectLazy steps | selectCursorLazy steps | filterLazy steps | orderByLazy steps
  | limitLazy steps | offsetLazy steps | beforeLock _ steps =>
      exact Nat.add_le_add_left (scriptWeight_mono hle steps) 1
  | addCursorCondition => exact Nat.add_le_add_right hle 3
  | setUpConnection =>
      exact Nat.add_le_add_left (Nat.mul_le_mul_left 2 (Nat.add_le_add_right hle 3)) 2
  | _ => exact Nat.le_refl _

/-- A script weighs more where comparators weigh more. -/
theorem scriptWeight_mono (hle : n ≤ m) (steps : List Step) :
    scriptWeight n steps ≤ scriptWeight m steps := by
  cases steps with
  | nil => exact Nat.le_refl _
  | cons s rest => exact Nat.add_le_add (Step.weight_mono hle s) (scriptWeight_mono hle rest)

end

mutual

theorem Step.Defers.weight_le (hle : n ≤ m) {s s' : Step} (h : s.Defers s') :
    s.weight n ≤ s'.weight m := by
  cases h with
  | mk hop => exact hop.weight_le hle

theorem Op.Defers.weight_le (hle : n ≤ m) {op op' : Op} (h : op.Defers op') :
    op.weight n ≤ op'.weight m := by
  cases h with
  | same => exact op.weight_mono hle
  | value hop => cases hop <;> exact Nat.zero_le _
  | setCustomComparator => exact Nat.le_refl _
  | selectLazy hsteps | selectCursorLazy hsteps | filterLazy hsteps | orderByLazy hsteps
  | limitLazy hsteps | offsetLazy hsteps | beforeLock _ hsteps =>
      exact Nat.add_le_add_left (hsteps.weight_le hle) 1

/-- Deferred values make a script heavier, and never lighter. -/
theorem ScriptDefers.weight_le (hle : n ≤ m) {steps steps' : List Step}
    (h : ScriptDefers steps steps') : scriptWeight n steps ≤ scriptWeight m steps' := by
  cases h with
  | nil => exact Nat.le_refl _
  | cons hfirst hrest => exact Nat.add_le_add (hfirst.weight_le hle) (hrest.weight_le hle)

end

mutual

theorem Step.Defers.heaviest_le {s s' : Step} (h : s.Defers s') :
    s.heaviestComparator ≤ s'.heaviestComparator := by
  cases h with
  | mk hop => exact hop.heaviest_le

theorem Op.Defers.heaviest_le {op op' : Op} (h : op.Defers op') :
    op.heaviestComparator ≤ op'.heaviestComparator := by
  cases h with
  | same => exact Nat.le_refl _
  | value hop => cases hop <;> exact Nat.zero_le _
  | setCustomComparator hsteps =>
      exact max_le_max (hsteps.weight_le (Nat.le_refl 0)) hsteps.heaviest_le
  | selectLazy hsteps | selectCursorLazy hsteps | filterLazy hsteps | orderByLazy hsteps
  | limitLazy hsteps | offsetLazy hsteps | beforeLock _ hsteps => exact hsteps.heaviest_le

/-- Deferred values make the comparators in a script heavier, and never lighter. -/
theorem ScriptDefers.heaviest_le {steps steps' : List Step} (h : ScriptDefers steps steps') :
    heaviestComparatorIn steps ≤ heaviestComparatorIn steps' := by
  cases h with
  | nil => exact Nat.le_refl _
  | cons hfirst hrest => exact max_le_max hfirst.heaviest_le hrest.heaviest_le

end

end PageQuery
