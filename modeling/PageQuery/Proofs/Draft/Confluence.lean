import PageQuery.Proofs.Draft.Configured

/-!
# The order of locks

Between the configuration of a builder and its build, any locks and questions may come in
any order.  If nothing is refused, nothing would have been refused in another order, and the
statement is the same; only a build that needs no plan may follow a question that is refused
for the lack of one.
-/

namespace PageQuery

open Sql PageQuery.Action

instance (r : Report) : Decidable r.Succeeds :=
  match h : r.outcome with
  | .ok (.ok a) => .isTrue ⟨a, h⟩
  | .ok (.error _) => .isFalse fun ⟨a, ha⟩ => by rw [h] at ha; cases ha
  | .error _ => .isFalse fun ⟨a, ha⟩ => by rw [h] at ha; cases ha

/-- Only the JSON field is built without a plan. -/
theorem Draft.built_of_plan {d : Draft} {e : Error} {options : BuildOptions} {token : AliasToken}
    {built : Built} (hplan : d.plan = .error e) (hbuilt : d.built options token = .ok built) :
    options.onlyJsonField = true := by
  by_contra hfield
  have hpage : d.finished.pageStatement options = .error e := by
    have hplanOf : d.finished.planOf = .error e := hplan
    rw [Builder.pageStatement, hplanOf]
    rfl
  rw [Draft.built, if_neg hfield, hpage] at hbuilt
  cases hbuilt

theorem Progress.still_begun : (Progress.begun true true).Still := by
  intro c
  cases c <;> first | exact .inl rfl | exact .inr rfl

/-- Nothing stands in the way of the locks of a builder that has just been set up. -/
theorem Draft.sound_begun (d : Draft) : d.Sound (.begun true true) where
  source := rfl
  comparator := rfl
  joins := .inl rfl
  order := .inl rfl
  uniqueness := rfl
  cursorTag := .inl rfl
  unbounded _ c hc := by
    simp only [List.mem_cons, List.not_mem_nil, or_false] at hc
    obtain rfl | rfl | rfl | rfl | rfl := hc <;> rfl
  readable h := by cases h
  guarded h := by cases h
  planned h := by cases h

namespace World

variable {w : World} {s : Step} {d : Draft}

/-- The first builder is that of the draft, and no lock of it is under way. -/
def Drafts (d : Draft) (w : World) : Prop :=
  ∃ X : Progress, w.builder root = d.builder X ∧ d.Sound X ∧ X.Still

/-- The steps lock concerns of the first builder and ask it questions that lock; the
uniqueness of the order is locked behind the order. -/
def Admits : World → List Step → Prop
  | _, [] => True
  | w, s :: rest => s.path = [] ∧ s.op.asks = true ∧
      (s.op = .lock .uniqueness → (w.builder root).locked .order = true) ∧ (w.step s).2.Admits rest

/-- The draft that a configured world has been told. -/
theorem Configured.drafts {setup : ConnectionSetup} {args : ConnectionArgs}
    (hconfigured : Configured true (some (setup, args)) w) :
    ∃ d : Draft, w.builder root = d.told true true (d.queue true) ∧ Drafts d w ∧
      d.primaryKey = setup.primaryKey ∧ args.cursors = .ok ⟨d.after, d.before⟩ := by
  obtain ⟨d, hb, hfits⟩ := hconfigured.exists_told
  rw [Option.isSome_some] at hb
  exact ⟨d, hb, ⟨_, hb.trans Draft.builder_begun.symm, d.sound_begun, Progress.still_begun⟩,
    hfits setup args rfl⟩

/-- A lock or a question of a drafted world. -/
theorem Drafts.ask (hdrafts : Drafts d w) (hpath : s.path = []) (hasks : s.op.asks = true)
    (huniqueness : s.op = .lock .uniqueness → (w.builder root).locked .order = true) :
    (∃ result, (w.step s).1.outcome = .ok result ∧ Drafts d (w.step s).2 ∧
      (w.step s).2.nextToken = w.nextToken ∧
      ∀ e, result = .error e → s.op.plans = true ∧ d.plan = .error e) ∨
    ¬d.Good ∧ ¬(w.step s).1.Succeeds := by
  obtain ⟨X, hb, hsound, hstill⟩ := hdrafts
  obtain ⟨fuel, hfuel⟩ := w.exists_budget s
  have horder (hop : s.op = .lock .uniqueness) : X .order = .settled := by
    have hlocked := huniqueness hop
    rw [hb] at hlocked
    exact (hstill .order).resolve_left fun hwaiting => by
      rw [Draft.open_of_waiting hwaiting] at hlocked
      cases hlocked
  have hanswers : Answers root w.saved (w.builder root)
      (Action.perform (lockWith (w.budget s)) s.op) d.Good (d.Asked X s.op) := by
    rw [hfuel, hb]
    exact Draft.answers_perform hasks hsound hstill horder fuel
  rcases hanswers with ⟨result, b, hgives, ⟨Y, rfl, hforward, hsound', -⟩, herror⟩ | ⟨hbad, hhalts⟩
  · obtain ⟨houtcome, hb', htoken⟩ := step_of_gives hpath hgives
    exact .inl ⟨result, houtcome, ⟨Y, hb', hsound', hstill.forward hforward⟩, htoken, herror⟩
  · exact .inr ⟨hbad, step_of_halts hpath hhalts⟩

/-- A build of a drafted world is one of the draft. -/
theorem Drafts.build {options : BuildOptions} (hdrafts : Drafts d w) (hpath : s.path = [])
    (hop : s.op = .build options) :
    d.Good ∧ (w.step s).1.outcome =
        .ok ((d.built options ⟨w.nextToken⟩).map fun built => .fragment built.fragment) ∨
      ¬d.Good ∧ ¬(w.step s).1.Succeeds := by
  obtain ⟨X, hb, hsound, hstill⟩ := hdrafts
  obtain ⟨fuel, hfuel⟩ := w.exists_budget s
  have hperform {result : Except Halt Built} {w' : World}
      (hrun : (Action.build (lockWith (fuel + 8)) options).exec root w.quiet = (result, w')) :
      (Action.perform (lockWith (w.budget s)) s.op).exec root w.quiet =
        (result.map fun built => .fragment built.fragment, w') := by
    rw [hop, hfuel, Action.perform, exec_bind, hrun]
    cases result <;> rfl
  rcases Draft.exec_build_draft (w := w.quiet) hsound hstill hb options fuel with
    ⟨hgood, w', hrun⟩ | ⟨hbad, halt, w', hrun⟩
  · refine .inl ⟨hgood, ?_⟩
    have hrun' := hperform hrun
    change _ = ((((d.built options ⟨w.nextToken⟩).mapError Halt.refused).map _), w') at hrun'
    cases hbuilt : d.built options ⟨w.nextToken⟩ with
    | error e =>
        rw [hbuilt] at hrun'
        exact (step_of_error (leads_root hpath) hrun').1
    | ok built =>
        rw [hbuilt] at hrun'
        exact (step_of_ok (leads_root hpath) hrun').1
  · exact .inr ⟨hbad, not_succeeds_of_halt hpath (hperform hrun)⟩

/-- If no step is refused, every step leaves a drafted world behind. -/
theorem Drafts.after {steps : List Step} (hdrafts : Drafts d w) (hadmits : w.Admits steps)
    (hsucceed : ∀ r ∈ w.steps steps, r.Succeeds) :
    Drafts d (w.after steps) ∧ (w.after steps).nextToken = w.nextToken := by
  induction steps generalizing w with
  | nil => exact ⟨hdrafts, rfl⟩
  | cons s rest ih =>
      obtain ⟨hpath, hasks, huniqueness, hrest⟩ := hadmits
      obtain ⟨hfirst, hothers⟩ := List.forall_mem_cons.mp hsucceed
      rcases hdrafts.ask hpath hasks huniqueness with ⟨_, _, hdrafts', htoken, _⟩ | ⟨_, hrefused⟩
      · obtain ⟨hend, htoken'⟩ := ih hdrafts' hrest hothers
        exact ⟨hend, htoken'.trans htoken⟩
      · exact absurd hfirst hrefused

/-- If nothing is wrong with the draft, nothing is refused but for the plan's sake. -/
theorem Drafts.answered {steps : List Step} (hdrafts : Drafts d w) (hgood : d.Good)
    (hadmits : w.Admits steps) :
    (Drafts d (w.after steps) ∧ (w.after steps).nextToken = w.nextToken) ∧
      List.Forall₂ (fun s r => r.Succeeds ∨
        s.op.plans = true ∧ ∃ e, d.plan = .error e ∧ r.outcome = .ok (.error e))
        steps (w.steps steps) := by
  induction steps generalizing w with
  | nil => exact ⟨⟨hdrafts, rfl⟩, .nil⟩
  | cons s rest ih =>
      obtain ⟨hpath, hasks, huniqueness, hrest⟩ := hadmits
      rcases hdrafts.ask hpath hasks huniqueness with
        ⟨result, houtcome, hdrafts', htoken, herror⟩ | ⟨hbad, _⟩
      · obtain ⟨⟨hend, htoken'⟩, hothers⟩ := ih hdrafts' hrest
        refine ⟨⟨hend, htoken'.trans htoken⟩, .cons ?_ hothers⟩
        cases result with
        | ok a => exact .inl ⟨a, houtcome⟩
        | error e => exact .inr ⟨(herror e rfl).1, e, (herror e rfl).2, houtcome⟩
      · exact absurd hgood hbad

/-- Let a builder be set up by a row source, changes with ready values and a connection, and
let locks and questions come in any order, and then a build.  If none of them is refused, the
same build behind any others of them gives the same fragment, and none of the others is
refused, except that a question for the plan or for the cursor may be, for a plan that the
build does without because it asks for the JSON field only. -/
theorem Configured.builds_agree {setup : ConnectionSetup} {args : ConnectionArgs}
    (hconfigured : Configured true (some (setup, args)) w) {steps others : List Step}
    (hsteps : w.Admits steps) (hothers : w.Admits others) {build : Step} {options : BuildOptions}
    (hpath : build.path = []) (hop : build.op = .build options)
    (hsucceed : ∀ r ∈ w.steps (steps ++ [build]), r.Succeeds) :
    List.Forall₂ (fun s r => r.Succeeds ∨ options.onlyJsonField = true ∧ s.op.plans = true ∧
        r.outcome = .ok (.error (.ambiguousPagination .lastInsideOffsetWindow)))
      others (w.steps others) ∧
    ∃ f, ((w.after steps).step build).1.outcome = .ok (.ok (.fragment f)) ∧
      ((w.after others).step build).1.outcome = .ok (.ok (.fragment f)) := by
  obtain ⟨d, -, hdrafts, -⟩ := hconfigured.drafts
  rw [steps_append] at hsucceed
  have hbuild : ((w.after steps).step build).1.Succeeds :=
    hsucceed _ (List.mem_append_right _ (List.mem_singleton.mpr rfl))
  obtain ⟨hend, htoken⟩ := hdrafts.after hsteps fun r hr => hsucceed r (List.mem_append_left _ hr)
  rcases hend.build hpath hop with ⟨hgood, houtcome⟩ | ⟨-, hrefused⟩
  · obtain ⟨⟨hend', htoken'⟩, hanswered⟩ := hdrafts.answered hgood hothers
    obtain ⟨-, houtcome'⟩ := (hend'.build hpath hop).resolve_right fun hbad => hbad.1 hgood
    obtain ⟨a, ha⟩ := hbuild
    rw [htoken] at houtcome
    rw [htoken'] at houtcome'
    cases hbuilt : d.built options ⟨w.nextToken⟩ with
    | error e =>
        rw [houtcome, hbuilt] at ha
        cases ha
    | ok built =>
        rw [hbuilt] at houtcome houtcome'
        refine ⟨hanswered.imp fun s r => Or.imp_right ?_, built.fragment, houtcome, houtcome'⟩
        rintro ⟨hplans, e, hplan, hrefused⟩
        rw [Plan.error_of_make hplan] at hrefused
        exact ⟨Draft.built_of_plan hplan hbuilt, hplans, hrefused⟩
  · exact absurd hbuild hrefused

/-- A run that sets up a connection whose limit, offset and `last` are in conflict. -/
def conflictingRun : World :=
  let sourced := ((start {} 0).step (.mk [] (.source (.text "items") none) false none)).2
  let limited := (sourced.step (.mk [] (.limit 3) false none)).2
  (limited.step (.mk [] (.setUpConnection ⟨["id"], primaryKeyTag⟩
    { last := some 2, offset := some 1 }) false none)).2

def planStep : Step := .mk [] .plan false none

def jsonFieldStep : Step := .mk [] (.build { onlyJsonField := true }) false none

theorem configured_conflictingRun : Configured true
    (some (⟨["id"], primaryKeyTag⟩, { last := some 2, offset := some 1 })) conflictingRun := by
  apply Configured.connected _ rfl rfl (by decide +kernel)
  apply Configured.told _ rfl rfl (by decide +kernel)
  exact Configured.sourced (Configured.start {} 0) rfl rfl (by decide +kernel)

theorem admits_conflictingRun : conflictingRun.Admits [planStep] := by
  refine ⟨rfl, rfl, ?_, trivial⟩
  intro h
  cases h

/-- The object of a row is built whether its plan was asked for before and refused or not. -/
theorem builds_agree_conflictingRun :
    (∀ r ∈ conflictingRun.steps ([] ++ [jsonFieldStep]), r.Succeeds) ∧
      List.Forall₂ (fun (s : Step) (r : Report) => r.Succeeds ∨ true = true ∧ s.op.plans = true ∧
        r.outcome = .ok (.error (.ambiguousPagination .lastInsideOffsetWindow)))
        [planStep] (conflictingRun.steps [planStep]) ∧
      ∃ f, ((conflictingRun.after []).step jsonFieldStep).1.outcome = .ok (.ok (.fragment f)) ∧
        ((conflictingRun.after [planStep]).step jsonFieldStep).1.outcome =
          .ok (.ok (.fragment f)) := by
  have hnone : conflictingRun.Admits [] := trivial
  have hsucceed : ∀ r ∈ conflictingRun.steps ([] ++ [jsonFieldStep]), r.Succeeds := by
    decide +kernel
  exact ⟨hsucceed, configured_conflictingRun.builds_agree hnone admits_conflictingRun rfl rfl
    hsucceed⟩

/-- The object of a row is built; the plan is refused if it is asked for before that. -/
theorem plan_refused_conflictingRun :
    Configured true (some (⟨["id"], primaryKeyTag⟩, { last := some 2, offset := some 1 }))
        conflictingRun ∧
      conflictingRun.Admits [] ∧ conflictingRun.Admits [planStep] ∧
      (∀ r ∈ conflictingRun.steps ([] ++ [jsonFieldStep]), r.Succeeds) ∧
      ¬∀ r ∈ conflictingRun.steps ([planStep] ++ [jsonFieldStep]), r.Succeeds :=
  ⟨configured_conflictingRun, trivial, admits_conflictingRun, by decide +kernel, by decide +kernel⟩

end World

end PageQuery
