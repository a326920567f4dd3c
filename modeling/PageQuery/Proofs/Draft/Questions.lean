import PageQuery.Proofs.Draft.Cursor

/-!
# Questions about a draft

Every lock and every question that locks leaves the builder of the draft behind, and is
answered unless something is wrong with the draft; only the questions about the plan may be
refused where the plan is.  When everything is locked, the builder is a function of its
draft, and so is what it builds.
-/

namespace PageQuery

open Sql

/-- Locks, and questions that lock. -/
def Op.asks : Op → Bool
  | .lock _ | .lockEverything | .orderTerms | .isOrderUnique _ | .cursorTag | .totalOffset
  | .fieldCount | .cursor | .plan | .selectFields | .cursorExpression | .rowObject _
  | .boundClause _ | .whereClause _ _ _ => true
  | _ => false

/-- The questions that need the plan of the page. -/
def Op.plans : Op → Bool
  | .plan | .cursorExpression => true
  | _ => false

namespace Progress

variable {X Y : Progress}

/-- No lock is under way. -/
def Still (X : Progress) : Prop := ∀ c, X.Free c

theorem Still.calm (hstill : X.Still) : X.Calm := fun c _ _ => hstill c

theorem Still.forward (hstill : X.Still) (hforward : X.Forward Y) : Y.Still :=
  fun c => hforward.free (hstill c)

end Progress

namespace Draft

open PageQuery.Action

variable {d : Draft} {X Y : Progress} {c : Concern} {id : BuilderId}
  {saved : List (String × Fragment)}

theorem ends_lockAny (hsound : d.Sound X) (hstill : X.Still)
    (huniqueness : c = .uniqueness → X .order = .settled) (fuel : Nat) :
    Ends id saved (d.builder X) (lockWith (fuel + 8) c) d.Good fun _ b => d.Reaches X [c] b := by
  by_cases hcursor : c = .cursor
  · subst hcursor
    exact ends_cursor hsound hstill.calm (hstill _) (fuel + 1)
  · by_cases hselect : c = .select
    · subst hselect
      exact ends_select hsound hstill.calm (hstill _) (hstill _) fuel
    · exact ends_lock hsound hstill.calm (by simp [hcursor, hselect]) huniqueness (fuel + 2)

theorem ends_lockList {concerns : List Concern} (hsound : d.Sound X) (hstill : X.Still)
    (huniqueness : .uniqueness ∈ concerns → X .order = .settled) (fuel : Nat) :
    Ends id saved (d.builder X) (concerns.forM (lockWith (fuel + 8))) d.Good
      fun _ b => d.Reaches X concerns b := by
  induction concerns generalizing X with
  | nil => exact Ends.of_turns (Turns.pure _) ⟨X, rfl, .refl X, hsound, by simp⟩
  | cons c rest ih =>
      apply Ends.bind (ends_lockAny hsound hstill (fun h => huniqueness (by simp [h])) fuel)
      rintro _ _ ⟨Y, rfl, hforward, hsound', hsettled⟩
      apply (ih hsound' (hstill.forward hforward) fun h =>
        hforward.settled (huniqueness (List.mem_cons_of_mem c h))).imp fun hgood => hgood
      exact fun _ _ hreaches => hreaches.behind hforward hsettled

/-- When everything has been locked, nothing is wrong with the draft. -/
theorem ends_lockEverything (hsound : d.Sound X) (hstill : X.Still) (fuel : Nat) :
    Ends id saved (d.builder X) (lockEverything (lockWith (fuel + 8))) d.Good
      fun _ b => b = d.finished ∧ d.Good ∧ d.Reaches X [] b := by
  change Ends id saved (d.builder X) (([Concern.source, .joins, .order] ++
    [Concern.uniqueness, .comparator, .cursorTag, .bounds, .wheres, .offset, .limit, .first,
      .last, .cursor, .select]).forM (lockWith (fuel + 8))) d.Good _
  apply Ends.forM_append (ends_lockList hsound hstill (by simp) fuel)
  rintro _ ⟨Y, rfl, hforward, hsound', hsettled⟩
  apply (ends_lockList hsound' (hstill.forward hforward) (fun _ => hsettled _ (by simp)) fuel).imp
    fun hgood => hgood
  rintro _ _ hreaches
  obtain ⟨Z, rfl, hforward', hsound'', hsettled'⟩ := hreaches.behind hforward hsettled
  have hfinished : Z = fun _ => .settled := by
    funext c
    exact hsettled' c (Concern.mem_lockOrder c)
  refine ⟨by rw [hfinished]; rfl, ⟨?_, ?_, ?_⟩, Z, rfl, hforward', hsound'', by simp⟩
  · exact hsound''.readable (by rw [hfinished])
  · exact hsound''.guarded (by rw [hfinished])
  · exact hsound''.planned (by rw [hfinished])

/-- What is left behind by a question, and why it may be refused. -/
def Asked (d : Draft) (X : Progress) (op : Op) (answer : Except Error Answer) (b : Builder) : Prop :=
  d.Reaches X [] b ∧ ∀ e, answer = .error e → op.plans = true ∧ d.plan = .error e

theorem Reaches.asked {op : Op} {answer : Answer} {concerns : List Concern} {b : Builder}
    (hreaches : d.Reaches X concerns b) : d.Asked X op (.ok answer) b :=
  ⟨hreaches.forget, fun _ h => by cases h⟩

/-- A question that is not refused is answered. -/
theorem answers_of_ends {α : Type} {op : Op} {action : Action α} {f : α → Answer}
    {done : α → Builder → Prop} (hends : Ends id saved (d.builder X) action d.Good done)
    (hdone : ∀ a b, done a b → d.Reaches X [] b) :
    Answers id saved (d.builder X) (action >>= fun a => pure (f a)) d.Good (d.Asked X op) := by
  apply Answers.after hends
  intro a b hpost
  exact Answers.of_turns (Turns.pure _) (hdone a b hpost).asked

/-- A question that reads the plan is answered unless there is none. -/
theorem answers_of_plans {α : Type} {op : Op} (hop : op.plans = true) {action : Action α}
    {f : α → Answer} {value : Except Error α} (hvalue : ∀ e, value = .error e → d.plan = .error e)
    (hanswers : Answers id saved (d.builder X) action d.Good
      fun r b => r = value ∧ d.Reaches X [] b) :
    Answers id saved (d.builder X) (action >>= fun a => pure (f a)) d.Good (d.Asked X op) := by
  apply Answers.bind hanswers
  · rintro e b ⟨hr, hreaches⟩
    refine ⟨hreaches, fun e' he => ⟨hop, ?_⟩⟩
    cases he
    exact hvalue e hr.symm
  · rintro a b ⟨_, hreaches⟩
    exact Answers.of_turns (Turns.pure _) hreaches.asked

theorem answers_plan (hsound : d.Sound X) (hstill : X.Still) (fuel : Nat) :
    Answers id saved (d.builder X) (Action.plan (lockWith (fuel + 8))) d.Good
      fun plan b => plan = d.plan ∧ d.Reaches X [] b := by
  apply Answers.after (ends_lockEverything hsound hstill fuel)
  rintro _ _ ⟨rfl, hgood, hreaches⟩
  apply Answers.of_outcome (f := Builder.planOf)
  · exact fun w hb => exec_pagePlan (idle_lockWith _) fun c => by rw [hb]; rfl
  · exact ⟨rfl, hreaches⟩

theorem plan_of_cursorExpr {e : Error} (hexpr : d.cursorExpr = .error e) : d.plan = .error e := by
  rw [cursorExpr] at hexpr
  split at hexpr
  · cases hexpr
  · rw [position] at hexpr
    cases hplan : d.plan with
    | error e' =>
        rw [hplan] at hexpr
        cases hexpr
        rfl
    | ok plan =>
        rw [hplan] at hexpr
        change (if plan.flip then _ else _ : Except Error CursorExpr) = _ at hexpr
        split at hexpr <;> cases hexpr

theorem answers_lockEverything {op : Op} {f : Unit → Answer} (hsound : d.Sound X)
    (hstill : X.Still) (fuel : Nat) :
    Answers id saved (d.builder X) (lockEverything (lockWith (fuel + 8)) >>= fun a => pure (f a))
      d.Good (d.Asked X op) :=
  answers_of_ends (ends_lockEverything hsound hstill fuel) fun _ _ hend => hend.2.2

/-- A question about the builder when everything is locked. -/
theorem ends_finished {α : Type} {next : Unit → Action α} {a : α} (hsound : d.Sound X)
    (hstill : X.Still) (fuel : Nat)
    (hnext : Turns id saved d.finished (next ()) a d.finished) :
    Ends id saved (d.builder X) (lockEverything (lockWith (fuel + 8)) >>= next) d.Good
      fun _ b => d.Reaches X [] b := by
  apply Ends.bind (ends_lockEverything hsound hstill fuel)
  rintro _ _ ⟨rfl, _, hreaches⟩
  exact Ends.of_turns hnext hreaches

/-- A question about one concern. -/
theorem ends_asked {α : Type} {next : Unit → Action α} {value : Builder → α} (hsound : d.Sound X)
    (hstill : X.Still) (huniqueness : c = .uniqueness → X .order = .settled) (fuel : Nat)
    (hnext : ∀ b, Turns id saved b (next ()) (value b) b) :
    Ends id saved (d.builder X) (lockWith (fuel + 8) c >>= next) d.Good
      fun _ b => d.Reaches X [] b := by
  apply Ends.bind (ends_lockAny hsound hstill huniqueness fuel)
  exact fun _ b hreaches => Ends.of_turns (hnext b) hreaches.forget

/-- Every lock and every question leaves the draft's builder behind. -/
theorem answers_perform {op : Op} (hop : op.asks = true) (hsound : d.Sound X) (hstill : X.Still)
    (huniqueness : op = .lock .uniqueness → X .order = .settled) (fuel : Nat) :
    Answers id saved (d.builder X) (perform (lockWith (fuel + 8)) op) d.Good (d.Asked X op) := by
  have hplain {c : Concern} (hc : c ≠ .uniqueness) (h : c = .uniqueness) : X .order = .settled :=
    absurd h hc
  have hpure {α : Type} (value : Builder → α) (b : Builder) :
      Turns id saved b (do return value (← self)) (value b) b := Turns.self_bind (Turns.pure _)
  cases op with
  | lock c =>
      apply answers_of_ends (ends_lockAny hsound hstill (fun h => huniqueness (by rw [h])) fuel)
      exact fun _ _ hreaches => hreaches.forget
  | lockEverything => exact answers_lockEverything hsound hstill fuel
  | orderTerms =>
      exact answers_of_ends (ends_asked hsound hstill (hplain (by simp)) fuel
        (hpure fun b => b.resolved.orderTerms)) fun _ _ hreaches => hreaches
  | isOrderUnique settled =>
      cases settled with
      | true =>
          apply answers_of_ends (ends_isOrderUnique hsound (fuel + 5))
          exact fun _ _ hend => hend.2.forget
      | false =>
          have hstay : d.Reaches X [] (d.builder X) := ⟨X, rfl, .refl X, hsound, by simp⟩
          have hread : Ends id saved (d.builder X) (isOrderUnique (lockWith (fuel + 8)) false) d.Good
              fun _ b => d.Reaches X [] b := Ends.of_turns (hpure Builder.orderIsUnique _) hstay
          exact answers_of_ends hread fun _ _ hreaches => hreaches
  | cursorTag =>
      exact answers_of_ends (ends_asked hsound hstill (hplain (by simp)) fuel
        (hpure Builder.cursorTag)) fun _ _ hreaches => hreaches
  | totalOffset =>
      exact answers_of_ends (ends_asked hsound hstill (hplain (by simp)) fuel
        (hpure fun b => b.resolved.offset)) fun _ _ hreaches => hreaches
  | cursor =>
      exact answers_of_ends (ends_asked hsound hstill (hplain (by simp)) fuel
        (hpure fun b => b.resolved.cursor)) fun _ _ hreaches => hreaches
  | boundClause isLower =>
      exact answers_of_ends (ends_asked hsound hstill (hplain (by simp)) fuel
        (hpure fun b => Filter.side (b.bounds isLower))) fun _ _ hreaches => hreaches
  | fieldCount =>
      exact answers_of_ends (ends_finished hsound hstill fuel
        (hpure (fun b => b.resolved.selects.length) _)) fun _ _ hreaches => hreaches
  | selectFields =>
      exact answers_of_ends (ends_finished hsound hstill fuel
        (hpure (fun b => selectList b.resolved.selects) _)) fun _ _ hreaches => hreaches
  | rowObject options =>
      obtain ⟨object, hobject⟩ :=
        Builder.rowObject_ok (show d.finished.source = some (d.table, d.rowAlias) from rfl) options
      exact answers_of_ends (ends_finished hsound hstill fuel
        (Turns.self_bind (Turns.ofExcept hobject))) fun _ _ hreaches => hreaches
  | whereClause lower upper options =>
      apply answers_of_ends (ends_whereClause hsound hstill.calm lower upper options (fuel + 2))
      exact fun _ _ hend => hend.2.forget
  | plan => exact answers_of_plans rfl (fun e h => h) (answers_plan hsound hstill fuel)
  | cursorExpression =>
      exact answers_of_plans rfl (fun e h => plan_of_cursorExpr h)
        (answers_cursorExpression hsound hstill.calm (fuel + 2))
  | _ => simp [Op.asks] at hop

/-- What is built of a draft, in an array named by the token if rows are aggregated. -/
def built (d : Draft) (options : BuildOptions) (token : AliasToken) : Except Error Built :=
  if options.onlyJsonField then (d.finished.rowObject options).map .object
  else (d.finished.pageStatement options).map fun s =>
    if options.asJsonAggregate then .aggregate s token else .rows s

/-- A build locks everything, and is a function of the draft from there on. -/
theorem exec_build_draft {w : World} (hsound : d.Sound X) (hstill : X.Still)
    (hbuilder : w.builder id = d.builder X) (options : BuildOptions) (fuel : Nat) :
    d.Good ∧ (∃ w', (build (lockWith (fuel + 8)) options).exec id w =
        outcome (d.built options ⟨w.nextToken⟩) w') ∨
      ¬d.Good ∧ ∃ halt w', (build (lockWith (fuel + 8)) options).exec id w = (.error halt, w') := by
  rcases ends_lockEverything hsound hstill fuel with
    ⟨_, b, hturns, rfl, hgood, _⟩ | ⟨hbad, hhalts⟩
  · obtain ⟨w₁, hrun, hb, -, htoken⟩ := hturns w hbuilder rfl
    have hlocked (c : Concern) : (w₁.builder id).locked c = true := by rw [hb]; rfl
    refine .inl ⟨hgood, ?_⟩
    rw [exec_build_locked (idle_lockWith _) hrun hlocked, ← htoken, built, ← hb]
    cases hobject : options.onlyJsonField with
    | true =>
        refine ⟨w₁, ?_⟩
        rw [build, exec_bind_ok (exec_lockEverything (idle_lockWith _) hlocked), exec_ite,
          if_pos hobject, exec_bind, exec_rowObject (idle_lockWith _) hlocked]
        cases (w₁.builder id).rowObject options <;> rfl
    | false =>
        rw [exec_build (idle_lockWith _) hlocked hobject]
        cases (w₁.builder id).pageStatement options with
        | error e => exact ⟨_, rfl⟩
        | ok s => cases options.asJsonAggregate <;> exact ⟨_, rfl⟩
  · obtain ⟨halt, w', hrun⟩ := hhalts w hbuilder rfl
    exact .inr ⟨hbad, halt, w', exec_bind_error hrun⟩

end Draft

end PageQuery
