import PageQuery.Proofs.Defer.Scripts

/-!
# Work that scripts leave behind

A script may register callbacks and lazy values, which run once each, and cursor conditions,
which run a comparator.  The work of a script counts all of them, with what they register in
turn.  A comparator can be called any number of times, so what it does is counted for every
cursor condition.  Main statement: this is a number, however much the comparators may do, as
long as none of them adds a cursor condition itself.
-/

namespace PageQuery

/-- The number of cursor conditions that a connection is set up with. -/
def ConnectionArgs.conditions (args : ConnectionArgs) : Nat :=
  match args.counts, args.cursors with
  | .ok _, .ok cursors => cursors.after.toList.length + cursors.before.toList.length
  | _, _ => 0

mutual

/-- Whether a step adds a condition for a cursor. -/
def Step.addsCondition : Step → Bool
  | .mk _ op _ _ => op.addsCondition

/-- Whether the operation adds a cursor condition, itself or in something that it registers.
The script of a comparator that it sets is asked for itself. -/
def Op.addsCondition : Op → Bool
  | .addCursorCondition _ _ => true
  | .setUpConnection _ args => args.conditions != 0
  | .selectLazy steps _ _ | .selectCursorLazy steps _ | .filterLazy steps _
  | .orderByLazy steps _ _ _ | .limitLazy steps _ | .offsetLazy steps _
  | .beforeLock _ steps => scriptAddsCondition steps
  | _ => false

/-- Whether a script adds a condition for a cursor. -/
def scriptAddsCondition : List Step → Bool
  | [] => false
  | step :: rest => step.addsCondition || scriptAddsCondition rest

end

mutual

/-- The comparators that a step sets are allowed ones. -/
def Step.SetsOnly (allowed : List Step → Prop) : Step → Prop
  | .mk _ op _ _ => op.SetsOnly allowed

/-- Every custom comparator that the operation sets, itself or in something that it registers,
is allowed. -/
def Op.SetsOnly (allowed : List Step → Prop) : Op → Prop
  | .selectLazy steps _ _ | .selectCursorLazy steps _ | .filterLazy steps _
  | .orderByLazy steps _ _ _ | .limitLazy steps _ | .offsetLazy steps _
  | .beforeLock _ steps => ScriptSetsOnly allowed steps
  | .setCustomComparator steps => allowed steps ∧ ScriptSetsOnly allowed steps
  | _ => True

/-- The comparators that a script sets are allowed ones. -/
def ScriptSetsOnly (allowed : List Step → Prop) : List Step → Prop
  | [] => True
  | step :: rest => step.SetsOnly allowed ∧ ScriptSetsOnly allowed rest

end

mutual

/-- The work that a step may leave behind. -/
def Step.work (heaviest : Nat) : Step → Nat
  | .mk _ op _ _ => op.work heaviest

/-- The work that the operation leaves behind, where a comparator leaves behind at most
`heaviest`. -/
def Op.work (heaviest : Nat) : Op → Nat
  | .selectLazy steps _ _ | .selectCursorLazy steps _ | .filterLazy steps _
  | .orderByLazy steps _ _ _ | .limitLazy steps _ | .offsetLazy steps _
  | .beforeLock _ steps => 1 + scriptWork heaviest steps
  | .addCursorCondition _ _ => conditionWeight heaviest
  | .compareWith _ _ _ => 1
  | .setUpConnection _ args => 2 + args.conditions * conditionWeight heaviest
  | .addChild _ _ _ _ => builderWeight
  | _ => 0

/-- The work that a script may leave behind, step by step. -/
def scriptWork (heaviest : Nat) : List Step → Nat
  | [] => 0
  | step :: rest => step.work heaviest + scriptWork heaviest rest

end

/-- The script adds no cursor condition, and neither does anything that it registers. -/
def AddsNone (steps : List Step) : Prop := scriptAddsCondition steps = false

/-- The script leaves behind no more than a comparator may. -/
def Affordable (heaviest : Nat) (steps : List Step) : Prop := scriptWork heaviest steps ≤ heaviest

/-- A request adds a condition for each end of the page at most. -/
theorem ConnectionArgs.conditions_le (args : ConnectionArgs) : args.conditions ≤ 2 := by
  have hone (cursor : Option (List Json)) : cursor.toList.length ≤ 1 := by cases cursor <;> simp
  rw [conditions]
  split
  · exact Nat.add_le_add (hone _) (hone _)
  · exact Nat.zero_le 2

variable {n m : Nat}

mutual

theorem Step.work_of_addsNone {s : Step} (h : s.addsCondition = false) : s.work n = s.work m := by
  cases s with
  | mk path op optional save => exact Op.work_of_addsNone h

/-- What leaves no cursor condition behind does not depend on how heavy comparators are. -/
theorem Op.work_of_addsNone {op : Op} (h : op.addsCondition = false) : op.work n = op.work m := by
  cases op with
  | selectLazy steps | selectCursorLazy steps | filterLazy steps | orderByLazy steps
  | limitLazy steps | offsetLazy steps | beforeLock _ steps =>
      exact congrArg (1 + ·) (scriptWork_of_addsNone h)
  | addCursorCondition => cases h
  | setUpConnection setup args =>
      have hnone : args.conditions = 0 := by simpa [Op.addsCondition] using h
      simp only [Op.work, hnone, Nat.zero_mul]
  | _ => rfl

/-- The work of a script that adds no conditions does not depend on the heaviest comparator. -/
theorem scriptWork_of_addsNone {steps : List Step} (h : scriptAddsCondition steps = false) :
    scriptWork n steps = scriptWork m steps := by
  cases steps with
  | nil => rfl
  | cons step rest =>
      obtain ⟨hstep, hrest⟩ := Bool.or_eq_false_iff.mp h
      exact congrArg₂ (· + ·) (Step.work_of_addsNone hstep) (scriptWork_of_addsNone hrest)

end

mutual

theorem Step.work_le_weight (s : Step) : s.work n ≤ s.weight n := by
  cases s with
  | mk path op optional save => exact Op.work_le_weight op

theorem Op.work_le_weight (op : Op) : op.work n ≤ op.weight n := by
  cases op with
  | selectLazy steps | selectCursorLazy steps | filterLazy steps | orderByLazy steps
  | limitLazy steps | offsetLazy steps | beforeLock _ steps =>
      exact Nat.add_le_add_left (scriptWork_le_weight steps) 1
  | setUpConnection setup args =>
      exact Nat.add_le_add_left (Nat.mul_le_mul_right _ args.conditions_le) 2
  | _ => exact Nat.le_refl _

/-- The work of a script is bounded by its weight, which is known before the run. -/
theorem scriptWork_le_weight (steps : List Step) : scriptWork n steps ≤ scriptWeight n steps := by
  cases steps with
  | nil => exact Nat.le_refl _
  | cons step rest => exact Nat.add_le_add (Step.work_le_weight step) (scriptWork_le_weight rest)

end

/-- A comparator that adds no cursor condition is affordable where its weight is. -/
theorem affordable_of_addsNone {steps : List Step} (h : AddsNone steps)
    (hle : scriptWeight 0 steps ≤ n) : Affordable n steps := by
  have hwork : scriptWork n steps = scriptWork 0 steps := scriptWork_of_addsNone h
  exact hwork.trans_le ((scriptWork_le_weight steps).trans hle)

mutual

/-- A script that adds a cursor condition is not affordable as a comparator. -/
theorem Step.lt_work {s : Step} (h : s.addsCondition = true) : n < s.work n := by
  cases s with
  | mk path op optional save => exact Op.lt_work h

theorem Op.lt_work {op : Op} (h : op.addsCondition = true) : n < op.work n := by
  have hcondition : n < conditionWeight n := Nat.lt_add_of_pos_right (Nat.succ_pos 2)
  cases op with
  | selectLazy steps | selectCursorLazy steps | filterLazy steps | orderByLazy steps
  | limitLazy steps | offsetLazy steps | beforeLock _ steps =>
      exact (lt_scriptWork h).trans_le (Nat.le_add_left _ 1)
  | addCursorCondition => exact hcondition
  | setUpConnection setup args =>
      have hsome : 0 < args.conditions := Nat.pos_of_ne_zero (bne_iff_ne.mp h)
      exact hcondition.trans_le ((Nat.le_mul_of_pos_left _ hsome).trans (Nat.le_add_left _ 2))
  | _ => exact absurd h Bool.false_ne_true

/-- A condition alone is more work than the heaviest comparator leaves behind. -/
theorem lt_scriptWork {steps : List Step} (h : scriptAddsCondition steps = true) :
    n < scriptWork n steps := by
  cases steps with
  | nil => cases h
  | cons step rest =>
      rcases Bool.or_eq_true_iff.mp h with hstep | hrest
      · exact (Step.lt_work hstep).trans_le (Nat.le_add_right _ _)
      · exact (lt_scriptWork hrest).trans_le (Nat.le_add_left _ _)

end

/-- An affordable script adds no conditions. -/
theorem addsNone_of_affordable {steps : List Step} (h : Affordable n steps) : AddsNone steps := by
  by_contra hadds
  exact Nat.not_lt.mpr h (lt_scriptWork (Bool.eq_true_of_not_eq_false hadds))

variable {allowed allowed' : List Step → Prop}

mutual

/-- Other scripts may be allowed, of comparators up to a weight. -/
theorem Step.SetsOnly.imp {s : Step}
    (himp : ∀ {steps}, allowed steps → scriptWeight 0 steps ≤ n → allowed' steps)
    (h : s.SetsOnly allowed) (hle : s.heaviestComparator ≤ n) : s.SetsOnly allowed' := by
  cases s with
  | mk path op optional save => exact Op.SetsOnly.imp himp h hle

theorem Op.SetsOnly.imp {op : Op}
    (himp : ∀ {steps}, allowed steps → scriptWeight 0 steps ≤ n → allowed' steps)
    (h : op.SetsOnly allowed) (hle : op.heaviestComparator ≤ n) : op.SetsOnly allowed' := by
  cases op with
  | selectLazy steps | selectCursorLazy steps | filterLazy steps | orderByLazy steps
  | limitLazy steps | offsetLazy steps | beforeLock _ steps => exact ScriptSetsOnly.imp himp h hle
  | setCustomComparator steps =>
      obtain ⟨hweight, hinner⟩ := max_le_iff.mp hle
      exact ⟨himp h.1 hweight, ScriptSetsOnly.imp himp h.2 hinner⟩
  | _ => trivial

theorem ScriptSetsOnly.imp {steps : List Step}
    (himp : ∀ {steps}, allowed steps → scriptWeight 0 steps ≤ n → allowed' steps)
    (h : ScriptSetsOnly allowed steps) (hle : heaviestComparatorIn steps ≤ n) :
    ScriptSetsOnly allowed' steps := by
  cases steps with
  | nil => trivial
  | cons step rest =>
      obtain ⟨hstep, hrest⟩ := max_le_iff.mp hle
      exact ⟨Step.SetsOnly.imp himp h.1 hstep, ScriptSetsOnly.imp himp h.2 hrest⟩

end

/-- In what sets only comparators that add no cursor condition, all of them are affordable. -/
theorem Step.SetsOnly.affordable {s : Step} (h : s.SetsOnly AddsNone)
    (hle : s.heaviestComparator ≤ n) : s.SetsOnly (Affordable n) :=
  h.imp affordable_of_addsNone hle

/-! What waits -/

variable {heaviest : Nat}

namespace Deferred

variable {α σ : Type}

/-- A lazy value may set allowed comparators only. -/
def SetsOnly (allowed : List Step → Prop) : Deferred α σ → Prop
  | .ready _ => True
  | .lazy steps _ => ScriptSetsOnly allowed steps

/-- The work of a value: nothing if it is ready, and one more than its script if it is lazy. -/
def work (heaviest : Nat) : Deferred α σ → Nat
  | .ready _ => 0
  | .lazy steps _ => 1 + scriptWork heaviest steps

theorem work_le_weight (value : Deferred α σ) : value.work heaviest ≤ value.weight heaviest := by
  cases value with
  | ready => exact Nat.le_refl _
  | lazy steps => exact Nat.add_le_add_left (scriptWork_le_weight steps) 1

theorem SetsOnly.imp {value : Deferred α σ}
    (himp : ∀ {steps}, allowed steps → scriptWeight 0 steps ≤ heaviest → allowed' steps)
    (h : value.SetsOnly allowed) (hle : value.heaviestComparator ≤ heaviest) :
    value.SetsOnly allowed' := by
  cases value with
  | ready => trivial
  | lazy steps => exact ScriptSetsOnly.imp himp h hle

end Deferred

namespace Comparator

def SetsOnly (allowed : List Step → Prop) : Comparator → Prop
  | .kind _ => True
  | .custom steps => allowed steps ∧ ScriptSetsOnly allowed steps

theorem SetsOnly.imp {comparator : Comparator}
    (himp : ∀ {steps}, allowed steps → scriptWeight 0 steps ≤ heaviest → allowed' steps)
    (h : comparator.SetsOnly allowed) (hle : comparator.heaviestComparator ≤ heaviest) :
    comparator.SetsOnly allowed' := by
  cases comparator with
  | kind => trivial
  | custom steps =>
      obtain ⟨hweight, hinner⟩ := max_le_iff.mp hle
      exact ⟨himp h.1 hweight, ScriptSetsOnly.imp himp h.2 hinner⟩

end Comparator

namespace Callback

def SetsOnly (allowed : List Step → Prop) : Callback → Prop
  | .script steps => ScriptSetsOnly allowed steps
  | _ => True

/-- The work of a callback, which is one at least. -/
def work (heaviest : Nat) : Callback → Nat
  | .script steps => 1 + scriptWork heaviest steps
  | .cursorCondition _ _ => conditionWeight heaviest
  | _ => 1

theorem work_le_weight (callback : Callback) :
    callback.work heaviest ≤ callback.weight heaviest := by
  cases callback with
  | script steps => exact Nat.add_le_add_left (scriptWork_le_weight steps) 1
  | _ => exact Nat.le_refl _

/-- To run a callback is work. -/
theorem work_pos (callback : Callback) : 0 < callback.work heaviest := by
  cases callback with
  | script steps => exact Nat.add_pos_left Nat.one_pos _
  | cursorCondition => exact Nat.add_pos_right _ (Nat.succ_pos 2)
  | _ => exact Nat.one_pos

theorem SetsOnly.imp {callback : Callback}
    (himp : ∀ {steps}, allowed steps → scriptWeight 0 steps ≤ heaviest → allowed' steps)
    (h : callback.SetsOnly allowed) (hle : callback.heaviestComparator ≤ heaviest) :
    callback.SetsOnly allowed' := by
  cases callback with
  | script steps => exact ScriptSetsOnly.imp himp h hle
  | _ => trivial

end Callback

end PageQuery
