import PageQuery.Proofs.Defer.Locking
import PageQuery.Proofs.Run.Path
import PageQuery.Proofs.Run.Session

/-!
# Sessions with deferred values

Values may be registered as they are, or by closures that give them.  Main statement: of two
scripts that differ only in this, each step is accepted or refused, locks and answers as its
counterpart does, whatever else the builders hold.
-/

namespace PageQuery

open Sql

/-- What a step reports is what its counterpart reports. -/
structure Report.Defers (r r' : Report) : Prop where
  outcome : r'.outcome = r.outcome
  locks : r'.locks = r.locks
  events : r'.events = r.events
  nested : List.Forall₂ Entry.Defers r.nested r'.nested

/-- The second step is the first one but for values that it defers.  The value of an expression
of the first step is known, since the step is about to be performed in the world. -/
inductive Step.DefersIn (w : World) : Step → Step → Prop
  | script {s s' : Step} (hstep : s.Defers s') : DefersIn w s s'
  | value {path : List String} {op op' : Op}
      (hop : op.Deferral
        (fun expr f => ∀ id, w.Leads id World.root path → w.Evaluates id expr f) op')
      (optional : Bool) (save : Option String) :
      DefersIn w (.mk path op optional save) (.mk path op' optional save)

namespace World

/-- The second script is the first one but for values that it defers.  The world is the one in
which the first script is performed. -/
inductive DefersIn : World → List Step → List Step → Prop
  | nil (w : World) : DefersIn w [] []
  | cons {w : World} {s s' : Step} {rest rest' : List Step} (hfirst : s.DefersIn w s')
      (hrest : DefersIn (w.step s).2 rest rest') : DefersIn w (s :: rest) (s' :: rest')

variable {w w' : World} {s s' : Step}

namespace Defers

open PageQuery.Action

/-- Children are found under the same names. -/
theorem child (hworld : w.Defers w') (id : BuilderId) (name : String) :
    (w'.builder id).child name = (w.builder id).child name := by
  have hb := hworld.builder id
  generalize w.builder id = b, w'.builder id = b' at hb ⊢
  obtain ⟨-, -, -⟩ := hb
  rfl

/-- Worlds that defer values do so too once their reports are taken out. -/
theorem quiet (hworld : w.Defers w') : w.quiet.Defers w'.quiet :=
  { hworld with events := rfl, journal := .nil }

/-- A path leads to the same builder in both worlds. -/
theorem follow (hworld : w.Defers w') {α : Type} {action action' : Action α} {path : List String}
    {start : BuilderId} (hagree : ∀ id, w.Leads id start path →
      Agree World.Defers (action.exec id w) (action'.exec id w')) :
    Agree World.Defers ((Action.follow path action).exec start w)
      ((Action.follow path action').exec start w') := by
  induction path generalizing start with
  | nil => exact hagree start rfl
  | cons name names ih =>
      rw [exec_follow_cons, exec_follow_cons, hworld.child]
      cases hchild : (w.builder start).child name with
      | ok child => exact ih fun id hleads => hagree id ⟨child, hchild, hleads⟩
      | error e => exact fun _ => ⟨rfl, hworld⟩

/-- The locks that are reported are the same. -/
theorem locksAt_eq (hworld : w.Defers w') (path : List String) :
    w'.locksAt path = w.locksAt path := by
  rw [locksAt, locksAt, run_eq_exec, run_eq_exec]
  generalize root = start
  induction path generalizing start with
  | nil =>
      rw [exec_follow_nil, exec_follow_nil, exec_self, exec_self]
      exact congrArg (fun locked => some (Concern.lockOrder.map locked))
        (hworld.builder start).locked
  | cons name names ih =>
      rw [exec_follow_cons, exec_follow_cons, hworld.child]
      cases (w.builder start).child name with
      | ok child => exact ih child
      | error e => rfl

/-- A step does in a world that defers values what its counterpart does in the other world. -/
theorem perform_agree (hworld : w.Defers w') (hsteps : s.DefersIn w s') :
    Agree World.Defers (w.perform s) (w'.perform s') := by
  rw [perform, perform]
  cases hsteps with
  | script hstep =>
      have hlock := defers_lockWith (hworld.budget_le hstep.weight_le hstep.heaviest_le)
      exact hlock.performStep hstep hworld.quiet
  | value hop optional save =>
      -- To save an answer takes no lock, so it takes no fuel.
      have hlock : (lockWith 0).Defers (lockWith 0) := defers_lockWith (Nat.le_refl 0)
      refine Agree.bind (hworld.quiet.follow fun id hleads => ?_) (hlock.saving save)
      -- The path is followed first, so the value is the one at the builder where it leads.
      have hop := hop.imp fun _ _ hvalue => hvalue id (leads_quiet_iff.mp hleads)
      exact Locker.Defers.deferral hop hworld.quiet

/-- The reports of two counterparts are the same, and behind them one world defers values of
the other one. -/
theorem step (hworld : w.Defers w') (hsteps : s.DefersIn w s')
    (hanswered : (w.step s).1.outcome ≠ .error .exhausted) :
    (w.step s).1.Defers (w'.step s').1 ∧ (w.step s).2.Defers (w'.step s').2 := by
  rw [step_outcome, Ne, answered_eq_error_iff] at hanswered
  obtain ⟨houtcome, hbehind⟩ := hworld.perform_agree hsteps hanswered
  have hpath : s'.path = s.path := by
    cases hsteps with
    | script hstep => cases hstep; rfl
    | value => rfl
  refine ⟨⟨?_, ?_, hbehind.events, hbehind.journal⟩, hbehind⟩
  · rw [step_outcome, step_outcome, houtcome]
  · change (w'.step s').2.locksAt s'.path = (w.step s).2.locksAt s.path
    rw [hpath]
    exact locksAt_eq hbehind s.path

/-- Steps are performed one after the other, and their reports agree. -/
theorem steps (hworld : w.Defers w') {steps steps' : List Step} (hsteps : w.DefersIn steps steps')
    (hanswered : ∀ report ∈ w.steps steps, report.outcome ≠ .error .exhausted) :
    List.Forall₂ Report.Defers (w.steps steps) (w'.steps steps') := by
  induction hsteps generalizing w' with
  | nil => exact .nil
  | cons hfirst _ ih =>
      obtain ⟨hanswered₁, hanswered'⟩ := List.forall_mem_cons.mp hanswered
      obtain ⟨hreport, hbehind⟩ := hworld.step hfirst hanswered₁
      exact .cons hreport (ih hbehind hanswered')

end Defers

/-- To register values by closures that give them changes nothing: in any world, whatever its
builders hold, each step of the script is accepted or refused, locks and answers as before. -/
theorem steps_deferred {steps steps' : List Step} (hsteps : w.DefersIn steps steps')
    (hanswered : ∀ report ∈ w.steps steps, report.outcome ≠ .error .exhausted) :
    List.Forall₂ Report.Defers (w.steps steps) (w.steps steps') :=
  have hworld : w.Defers w :=
    ⟨List.forall₂_same.mpr fun _ _ => ⟨rfl, .refl _⟩, rfl, rfl, rfl, rfl,
      List.forall₂_same.mpr fun _ _ => .refl _⟩
  hworld.steps hsteps hanswered

/-- A script that registers values as they are, one of them in a callback. -/
def readySteps : List Step :=
  [.mk [] (.source (.text "items") none) false none,
    .mk [] (.beforeLock .wheres [.mk [] (.filter (.text "a")) false none]) false none,
    .mk [] (.orderBy (.column .tableAlias "id") true none) false none,
    .mk [] (.limit 5) false none, .mk [] (.offset 2) false none, .mk [] .plan false none,
    .mk [] (.build {}) false none]

/-- The same script with closures. -/
def lazySteps : List Step :=
  [.mk [] (.source (.text "items") none) false none,
    .mk [] (.beforeLock .wheres [.mk [] (.filterLazy [] (.expr (.text "a"))) false none])
      false none,
    .mk [] (.orderByLazy [] (.expr (.column (.fixed (aliasNode ⟨0⟩)) "id")) true none) false none,
    .mk [] (.limitLazy [] (.fixed 5)) false none, .mk [] (.offsetLazy [] (.fixed 2)) false none,
    .mk [] .plan false none, .mk [] (.build {}) false none]

/-- The run with closures defers the values of the run with values. -/
theorem defersIn_readySteps : (start {} 0).DefersIn readySteps lazySteps := by
  have hfilter : Op.Defers (.filter (.text "a")) (.filterLazy [] (.expr (.text "a"))) :=
    .value (.filter (f := text "a") (fun _ => rfl) fun _ => rfl)
  have hcolumn : FragmentSource.Gives (.expr (.column (.fixed (aliasNode ⟨0⟩)) "id"))
      ((aliasNode ⟨0⟩).column "id") := fun _ => rfl
  have hlimit : CountSource.Gives (.fixed 5) 5 := rfl
  have hoffset : CountSource.Gives (.fixed 2) 2 := rfl
  refine .cons (.script (.refl _)) ?_
  refine .cons (.script (.mk (.beforeLock _ (.cons (.mk hfilter _ _ _) .nil)) _ _ _)) ?_
  refine .cons (.value (.orderBy ?_ hcolumn _ _) _ _) ?_
  · rintro id rfl
    rfl
  · exact .cons (.value (.limit hlimit) _ _) <| .cons (.value (.offset hoffset) _ _) <|
      .cons (.script (.refl _)) <| .cons (.script (.refl _)) (.nil _)

/-- In this run closures give the order, both counts, and a where inside a callback. -/
theorem steps_deferred_readySteps :
    (start {} 0).DefersIn readySteps lazySteps ∧
      (∀ report ∈ (start {} 0).steps readySteps, report.outcome ≠ .error .exhausted) ∧
      List.Forall₂ Report.Defers ((start {} 0).steps readySteps)
        ((start {} 0).steps lazySteps) := by
  have hended : ∀ report ∈ (start {} 0).steps readySteps, report.outcome.isOk = true := by
    decide +kernel
  have hanswered : ∀ report ∈ (start {} 0).steps readySteps,
      report.outcome ≠ .error .exhausted := by
    intro report hreport hexhausted
    have hok := hended report hreport
    rw [hexhausted] at hok
    cases hok
  exact ⟨defersIn_readySteps, hanswered, steps_deferred defersIn_readySteps hanswered⟩

end World

end PageQuery
