import PageQuery.Proofs.Run.Session

/-!
# Steps on a builder

A step names the builder that it works on by the names of children that lead to it.  It answers
what its operation answers on that builder, and behind that it may save a fragment.
-/

namespace PageQuery

/-- The step was answered. -/
def Report.Succeeds (r : Report) : Prop := ∃ a, r.outcome = .ok (.ok a)

namespace World

variable {w : World}

/-- The names lead from one builder to another. -/
def Leads (w : World) (id : BuilderId) : BuilderId → List String → Prop
  | start, [] => start = id
  | start, name :: names =>
    ∃ child, (w.builder start).child name = .ok child ∧ w.Leads id child names

theorem leads_quiet_iff {id start : BuilderId} {path : List String} :
    w.quiet.Leads id start path ↔ w.Leads id start path := by
  induction path generalizing start with
  | nil => exact Iff.rfl
  | cons name names ih => exact exists_congr fun child => and_congr Iff.rfl ih

theorem Leads.quiet {id start : BuilderId} {path : List String} (hleads : w.Leads id start path) :
    w.quiet.Leads id start path :=
  leads_quiet_iff.mpr hleads

/-- A path leads to a builder that is there. -/
theorem Leads.live {id start : BuilderId} {path : List String} (hleads : w.Leads id start path)
    (hclosed : w.Closed) (hlive : start < w.nextBuilder) : id < w.nextBuilder := by
  induction path generalizing start with
  | nil => exact hleads ▸ hlive
  | cons name names ih =>
      obtain ⟨child, hchild, hrest⟩ := hleads
      exact ih hrest (hclosed.child_lt hchild)

theorem leads_root {path : List String} (hpath : path = []) : w.Leads root root path := by
  rw [hpath]
  rfl

end World

namespace Action

variable {w : World} {lock : Locker}

/-- An action behind a path is one on the builder that it leads to. -/
theorem exec_follow_of_leads {α : Type} {id start : BuilderId} {path : List String}
    (hleads : w.Leads id start path) (action : Action α) :
    (follow path action).exec start w = action.exec id w := by
  induction path generalizing start with
  | nil =>
      obtain rfl : start = id := hleads
      rfl
  | cons name names ih =>
      obtain ⟨child, hchild, hrest⟩ := hleads
      rw [exec_follow_cons, hchild]
      exact ih hrest

theorem exec_performStep_of_leads {id start : BuilderId} {s : Step}
    (hleads : w.Leads id start s.path) :
    (performStep lock s).exec start w =
      (within id (perform lock s.op) >>= saving s.save).exec start w := by
  change (follow s.path (perform lock s.op) >>= saving s.save).exec start w = _
  rw [exec_bind, exec_bind, exec_follow_of_leads hleads, exec_within]

theorem exec_saving (name : Option String) (a : Answer) (id : BuilderId) :
    ∃ saved, (saving name a).exec id w = (.ok a, { w with saved }) := by
  unfold saving
  cases name with
  | none => exact ⟨w.saved, rfl⟩
  | some name =>
      cases a.fragment? with
      | none => exact ⟨w.saved, rfl⟩
      | some f => exact ⟨(name, f) :: w.saved, rfl⟩

end Action

namespace World

open PageQuery.Action

variable {w w' : World} {id : BuilderId} {s : Step}

/-- The locks of a step have as much fuel as the deepest of them needs. -/
theorem exists_budget (w : World) (s : Step) : ∃ fuel, w.budget s = fuel + 8 := by
  refine ⟨w.budget s - 8, ?_⟩
  have h : allowance ≤ w.budget s := Nat.le_add_left _ _
  rw [allowance] at h
  omega

section

variable (hleads : w.Leads id root s.path)

include hleads

/-- A step whose operation is answered reports the answer. -/
theorem step_of_ok {a : Answer}
    (hrun : (Action.perform (lockWith (w.budget s)) s.op).exec id w.quiet = (.ok a, w')) :
    (w.step s).1.outcome = .ok (.ok a) ∧ ∃ saved, (w.step s).2 = { w' with saved } := by
  obtain ⟨saved, hsaving⟩ := exec_saving (w := w') s.save a root
  rw [step_outcome, step_world, perform, exec_performStep_of_leads hleads.quiet, exec_bind,
    exec_within, hrun]
  simp only [hsaving]
  exact ⟨rfl, saved, rfl⟩

theorem step_of_halt {halt : Halt}
    (hrun : (Action.perform (lockWith (w.budget s)) s.op).exec id w.quiet = (.error halt, w')) :
    (w.step s).1.outcome = answered (.error halt) ∧ (w.step s).2 = w' := by
  rw [step_outcome, step_world, perform, exec_performStep_of_leads hleads.quiet, exec_bind,
    exec_within, hrun]
  exact ⟨rfl, rfl⟩

/-- A step whose operation is refused reports the error, and keeps what was done. -/
theorem step_of_error {e : Error}
    (hrun : (Action.perform (lockWith (w.budget s)) s.op).exec id w.quiet =
      (.error (.refused e), w')) :
    (w.step s).1.outcome = .ok (.error e) ∧ (w.step s).2 = w' :=
  step_of_halt hleads hrun

/-- A step answers what its operation answers. -/
theorem outcome_of_run {value : Except Error Answer}
    (hrun : (Action.perform (lockWith (w.budget s)) s.op).exec id w.quiet = outcome value w') :
    (w.step s).1.outcome = .ok value := by
  cases value with
  | error e => exact (step_of_error hleads hrun).1
  | ok a => exact (step_of_ok hleads hrun).1

/-- The run of the operation behind a step that succeeds. -/
theorem exec_of_step_ok {a : Answer} (hok : (w.step s).1.outcome = .ok (.ok a)) :
    ∃ w', (Action.perform (lockWith (w.budget s)) s.op).exec id w.quiet = (.ok a, w') := by
  rcases hrun : (Action.perform (lockWith (w.budget s)) s.op).exec id w.quiet with
    ⟨halt | a', w'⟩
  · rw [(step_of_halt hleads hrun).1] at hok
    cases halt <;> cases hok
  · rw [(step_of_ok hleads hrun).1] at hok
    cases hok
    exact ⟨w', rfl⟩

end

end World

end PageQuery
