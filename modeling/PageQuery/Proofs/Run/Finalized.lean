import PageQuery.Proofs.Run.Exec

/-!
# Finalized builders

To lock what is locked already does nothing.  So once every concern of a builder is
locked, the parts of its statement are functions of the builder alone, and no script
runs any more.  The functions stand here next to the actions that they agree with.
-/

namespace PageQuery

open Sql

/-- A lock that leaves what is locked as it is. -/
def Locker.Idle (lock : Locker) : Prop :=
  ∀ {c : Concern} {id : BuilderId} {w : World}, (w.builder id).locked c = true →
    (lock c).exec id w = (.ok (), w)

namespace Builder

/-- The plan of a builder with settled values. -/
def planOf (b : Builder) : Except Error Plan :=
  Plan.make b.resolved.limit b.resolved.offset b.first b.last

/-- The filter of a builder with settled values, with the wanted sides of its bounds. -/
def filterOf (b : Builder) (lower upper : Bool) (options : BuildOptions) :
    Except Error Filter := do
  let guards ← b.guards options
  return {
    guards, wheres := b.resolved.wheres
    lower := if lower then b.lower else []
    upper := if upper then b.upper else [] }

def skipOf (b : Builder) (plan : Plan) (options : BuildOptions) : Except Error Skip :=
  match plan.window, plan.limit with
  | some window, some last => do
    let source ← b.rowSource
    let filter ← b.filterOf true true options
    return .windowHead source filter window last
  | _, _ => .ok (if 0 < plan.offset then .rows plan.offset else .nothing)

/-- The statement that a builder with settled values makes of a plan. -/
def statementOf (b : Builder) (plan : Plan) (options : BuildOptions) :
    Except Error Statement := do
  let projection ← b.projection plan options
  let filter ← b.filterOf true true options
  let skip ← b.skipOf plan options
  return {
    projection, source := b.source, joins := b.joins, filter
    order := b.resolved.orderTerms, flip := plan.flip, limit := plan.limit, skip }

/-- The statement of the builder's plan. -/
def pageStatement (b : Builder) (options : BuildOptions) : Except Error Statement := do
  b.statementOf (← b.planOf) options

def flagOf (b : Builder) (flag : PageFlag) (isLower : Bool) (options : BuildOptions) :
    Except Error FlagExpr :=
  match flag with
  | .never => .ok .never
  | .beyond skipped => do
    let source ← b.rowSource
    let filter ← b.filterOf true true options
    return .beyond source filter skipped
  | .outside => do
    let source ← b.rowSource
    let filter ← b.filterOf false false options
    return .outside source filter (b.bounds isLower)

/-- What a build gives, with an array named by the token. -/
def builtOf (b : Builder) (options : BuildOptions) (token : AliasToken) : Except Error Built :=
  if options.onlyJsonField then do return .object (← b.rowObject options)
  else do
    let s ← b.pageStatement options
    return if options.asJsonAggregate then .aggregate s token else .rows s

/-- The page of the builder's plan, in an array named by the token, with its flags. -/
def connectionOf (b : Builder) (options : BuildOptions) (token : AliasToken) :
    Except Error ConnectionStatement := do
  let s ← b.pageStatement
    { options with asJson := false, asJsonAggregate := true, onlyJsonField := false }
  let plan ← b.planOf
  let next ← b.flagOf (plan.next b.first !b.upper.isEmpty) false options
  let previous ←
    b.flagOf (plan.previous b.resolved.offset b.last !b.lower.isEmpty) true options
  return ⟨.aggregate s token, next, previous⟩

/-- The position of each row, as a cursor holds it. -/
def positionOf (b : Builder) : Except Error CursorExpr := do
  let plan ← b.planOf
  if plan.flip then
    let source ← b.rowSource
    let filter ← b.filterOf true true {}
    return .fromEnd source filter plan.offset
  else return .fromStart (← b.skipOf plan {})

/-- The order tells rows apart, so cursors hold its values. -/
def isKeyed (b : Builder) : Bool := !b.resolved.orderTerms.isEmpty && b.orderIsUnique

/-- The cursor of each row. -/
def cursorOf (b : Builder) : Except Error CursorExpr :=
  if b.isKeyed then .ok (.keyed b.cursorTag (b.resolved.orderTerms.map OrderTerm.expr))
  else b.positionOf

theorem wheres_of_filterOf {b : Builder} {lower upper : Bool} {options : BuildOptions}
    {filter : Filter} (hfilter : b.filterOf lower upper options = .ok filter) :
    filter.wheres = b.resolved.wheres := by
  obtain ⟨guards, _, hrest⟩ := ok_of_bind hfilter
  cases hrest
  rfl

theorem wheres_of_statementOf {b : Builder} {plan : Plan} {options : BuildOptions}
    {s : Statement} (hstatement : b.statementOf plan options = .ok s) :
    s.filter.wheres = b.resolved.wheres := by
  obtain ⟨projection, _, hrest⟩ := ok_of_bind hstatement
  obtain ⟨filter, hfilter, hrest⟩ := ok_of_bind hrest
  obtain ⟨skip, _, hrest⟩ := ok_of_bind hrest
  cases hrest
  exact wheres_of_filterOf hfilter

theorem wheres_of_pageStatement {b : Builder} {options : BuildOptions} {s : Statement}
    (hpage : b.pageStatement options = .ok s) : s.filter.wheres = b.resolved.wheres := by
  obtain ⟨plan, _, hstatement⟩ := ok_of_bind hpage
  exact wheres_of_statementOf hstatement

end Builder

namespace Action

variable {α β : Type} {id : BuilderId} {w : World} {lock : Locker}

/-- A computation goes on with a computation. -/
theorem exec_bind_outcome {action : Action α} {next : α → Action β}
    {value : Except Error α} {f : α → Except Error β}
    (haction : action.exec id w = outcome value w)
    (hnext : ∀ a, value = .ok a → (next a).exec id w = outcome (f a) w) :
    (action >>= next).exec id w = outcome (value >>= f) w := by
  cases value with
  | error e => exact exec_bind_error haction
  | ok a =>
      rw [exec_bind_ok haction]
      exact hnext a rfl

theorem exec_self_bind (next : Builder → Action α) :
    (self >>= next).exec id w = (next (w.builder id)).exec id w := rfl

/-- A lock that is set is passed. -/
theorem exec_lock_bind (hidle : lock.Idle) {c : Concern} (next : Unit → Action α)
    (hlocked : (w.builder id).locked c = true) :
    (lock c >>= next).exec id w = (next ()).exec id w :=
  exec_bind_ok (hidle hlocked)

theorem exec_forM_lock (hidle : lock.Idle) (concerns : List Concern)
    (hlocked : ∀ c, (w.builder id).locked c = true) :
    (concerns.forM lock).exec id w = (.ok (), w) := by
  induction concerns with
  | nil => rfl
  | cons c rest ih =>
      change (lock c >>= fun _ => rest.forM lock).exec id w = _
      rw [exec_lock_bind hidle _ (hlocked c)]
      exact ih

theorem exec_rowSource :
    rowSource.exec id w = outcome (w.builder id).rowSource w := by
  rw [rowSource, exec_self_bind, exec_ofExcept]

section

variable (hidle : lock.Idle) (hbounds : (w.builder id).locked .bounds = true)

include hidle hbounds

theorem exec_wantedBounds (wanted isLower : Bool) :
    (wantedBounds lock wanted isLower).exec id w =
      (.ok (if wanted then (w.builder id).bounds isLower else []), w) := by
  rw [wantedBounds, exec_self_bind, exec_ite]
  cases wanted with
  | false => rfl
  | true =>
      cases hside : (w.builder id).bounds isLower with
      | nil => rfl
      | cons bound bounds =>
          change (lock .bounds >>= fun _ => do return (← self).bounds isLower).exec id w = _
          rw [exec_lock_bind hidle _ hbounds, exec_self_bind, exec_pure, hside]
          rfl

variable (hwheres : (w.builder id).locked .wheres = true)

include hwheres

/-- Where everything is locked the clause is read off the builder. -/
theorem exec_whereClause (lower upper : Bool) (options : BuildOptions) :
    (whereClause lock lower upper options).exec id w =
      outcome ((w.builder id).filterOf lower upper options) w := by
  rw [whereClause, exec_lock_bind hidle _ hwheres, exec_self_bind]
  apply exec_bind_outcome (exec_ofExcept _)
  intro guards _
  rw [exec_bind_ok (exec_wantedBounds hidle hbounds lower true),
    exec_bind_ok (exec_wantedBounds hidle hbounds upper false)]
  rfl

theorem exec_skip (plan : Plan) (options : BuildOptions) :
    (skip lock plan options).exec id w =
      outcome ((w.builder id).skipOf plan options) w := by
  obtain ⟨limit, offset, flip, window⟩ := plan
  cases window with
  | none => rfl
  | some window =>
      cases limit with
      | none => rfl
      | some last =>
          apply exec_bind_outcome exec_rowSource
          intro source _
          exact exec_bind_outcome (exec_whereClause hidle hbounds hwheres _ _ _) fun _ _ => rfl

end

section

variable (hidle : lock.Idle) (hlocked : ∀ c, (w.builder id).locked c = true)

include hidle hlocked

/-- Where everything is locked nothing happens when it is locked again. -/
theorem exec_lockEverything : (lockEverything lock).exec id w = (.ok (), w) :=
  exec_forM_lock hidle _ hlocked

theorem exec_pagePlan : (pagePlan lock).exec id w = outcome (w.builder id).planOf w := by
  rw [pagePlan, exec_bind_ok (exec_forM_lock hidle _ hlocked), exec_self_bind,
    exec_ofExcept]
  rfl

theorem exec_plan : (plan lock).exec id w = outcome (w.builder id).planOf w := by
  rw [plan, exec_bind_ok (exec_lockEverything hidle hlocked)]
  exact exec_pagePlan hidle hlocked

theorem exec_totalOffset :
    (totalOffset lock).exec id w = (.ok (w.builder id).resolved.offset, w) := by
  rw [totalOffset, exec_lock_bind hidle _ (hlocked .offset)]
  rfl

theorem exec_positionExpression :
    (positionExpression lock).exec id w = outcome (w.builder id).positionOf w := by
  apply exec_bind_outcome (exec_pagePlan hidle hlocked)
  intro plan _
  rw [exec_ite]
  cases plan.flip with
  | true =>
      apply exec_bind_outcome exec_rowSource
      intro source _
      exact exec_bind_outcome
        (exec_whereClause hidle (hlocked .bounds) (hlocked .wheres) _ _ _) fun _ _ => rfl
  | false =>
      exact exec_bind_outcome (exec_skip hidle (hlocked .bounds) (hlocked .wheres) _ _)
        fun _ _ => rfl

theorem exec_cursorExpression :
    (cursorExpression lock).exec id w = outcome (w.builder id).cursorOf w := by
  have hterms : (orderTerms lock).exec id w = (.ok (w.builder id).resolved.orderTerms, w) := by
    rw [orderTerms, exec_lock_bind hidle _ (hlocked .order)]
    rfl
  have hunique : (isOrderUnique lock true).exec id w = (.ok (w.builder id).orderIsUnique, w) := by
    change (lock .order >>= fun _ => lock .uniqueness >>= fun _ => _).exec id w = _
    rw [exec_lock_bind hidle _ (hlocked .order), exec_lock_bind hidle _ (hlocked .uniqueness)]
    rfl
  have htag : (cursorTag lock).exec id w = (.ok (w.builder id).cursorTag, w) := by
    rw [cursorTag, exec_lock_bind hidle _ (hlocked .cursorTag)]
    rfl
  rw [cursorExpression, exec_bind_ok hterms, Builder.cursorOf, Builder.isKeyed, exec_ite]
  cases (w.builder id).resolved.orderTerms.isEmpty with
  | true => exact exec_positionExpression hidle hlocked
  | false =>
      rw [if_neg Bool.false_ne_true, exec_bind_ok hunique, exec_ite]
      cases (w.builder id).orderIsUnique with
      | true =>
          change (cursorTag lock >>= fun tag => _).exec id w = _
          rw [exec_bind_ok htag]
          rfl
      | false => exact exec_positionExpression hidle hlocked

/-- Where everything is locked the statement is read off the builder. -/
theorem exec_statement (plan : Plan) (options : BuildOptions) :
    (statement lock plan options).exec id w =
      outcome ((w.builder id).statementOf plan options) w := by
  rw [statement, exec_self_bind]
  apply exec_bind_outcome (exec_ofExcept _)
  intro projection _
  apply exec_bind_outcome (exec_whereClause hidle (hlocked .bounds) (hlocked .wheres) _ _ _)
  intro filter _
  exact exec_bind_outcome (exec_skip hidle (hlocked .bounds) (hlocked .wheres) _ _) fun _ _ => rfl

theorem exec_flagExpression (flag : PageFlag) (isLower : Bool) (options : BuildOptions) :
    (flagExpression lock flag isLower options).exec id w =
      outcome ((w.builder id).flagOf flag isLower options) w := by
  cases flag with
  | never => rfl
  | beyond skipped =>
      apply exec_bind_outcome exec_rowSource
      intro source _
      exact exec_bind_outcome
        (exec_whereClause hidle (hlocked .bounds) (hlocked .wheres) _ _ _) fun _ _ => rfl
  | outside =>
      apply exec_bind_outcome exec_rowSource
      intro source _
      apply exec_bind_outcome (exec_whereClause hidle (hlocked .bounds) (hlocked .wheres) _ _ _)
      intro filter _
      rw [exec_lock_bind hidle _ (hlocked .bounds)]
      rfl

theorem exec_rowObject (options : BuildOptions) :
    (rowObject lock options).exec id w = outcome ((w.builder id).rowObject options) w := by
  rw [rowObject, exec_bind_ok (exec_lockEverything hidle hlocked), exec_self_bind,
    exec_ofExcept]

theorem exec_pageStatement (options : BuildOptions) :
    (do statement lock (← plan lock) options).exec id w =
      outcome ((w.builder id).pageStatement options) w :=
  exec_bind_outcome (exec_plan hidle hlocked) fun _ _ => exec_statement hidle hlocked _ _

/-- A build of a finalized builder gives the statement of its plan, and remembers it. -/
theorem exec_build {options : BuildOptions} (hstatement : options.onlyJsonField = false) :
    (build lock options).exec id w =
      match (w.builder id).pageStatement options with
      | .error e => (.error (.refused e), w)
      | .ok s =>
        (if options.asJsonAggregate then do return .aggregate s (← mintToken)
          else return .rows s : Action Built).exec id
            { w with history := w.history ++ [.built id s] } := by
  rw [build, exec_bind_ok (exec_lockEverything hidle hlocked), exec_ite,
    if_neg (by simp [hstatement])]
  have hpage := exec_pageStatement hidle hlocked options
  rw [← bind_assoc, exec_bind, hpage]
  cases (w.builder id).pageStatement options with
  | error e => rfl
  | ok s => rfl

/-- A build gives what the finalized builder has, and leaves the builders alone. -/
theorem exec_build_finalized (options : BuildOptions) :
    ∃ w', (build lock options).exec id w =
      (((w.builder id).builtOf options ⟨w.nextToken⟩).mapError .refused, w') ∧
        w'.builders = w.builders := by
  cases hobject : options.onlyJsonField with
  | true =>
      refine ⟨w, ?_, rfl⟩
      rw [build, exec_bind_ok (exec_lockEverything hidle hlocked), exec_ite, if_pos hobject,
        Builder.builtOf, if_pos hobject]
      exact exec_bind_outcome (exec_rowObject hidle hlocked options) fun _ _ => rfl
  | false =>
      rw [exec_build hidle hlocked hobject, Builder.builtOf, if_neg (by simp [hobject])]
      cases (w.builder id).pageStatement options with
      | error e => exact ⟨w, rfl, rfl⟩
      | ok s => cases options.asJsonAggregate <;> exact ⟨_, rfl, rfl⟩

/-- A page with its flags is built as the finalized builder has it. -/
theorem exec_buildConnection_finalized (options : BuildOptions) :
    ∃ w', (buildConnection lock options).exec id w =
      (((w.builder id).connectionOf options ⟨w.nextToken⟩).mapError .refused, w') := by
  let pageOptions : BuildOptions :=
    { options with asJson := false, asJsonAggregate := true, onlyJsonField := false }
  change ∃ w', (build lock pageOptions >>= fun page => _).exec id w = _
  rw [Builder.connectionOf, exec_bind, exec_build hidle hlocked rfl]
  cases (w.builder id).pageStatement pageOptions with
  | error e => exact ⟨w, rfl⟩
  | ok s =>
      -- The world behind the build has the same builders.
      let w₁ : World :=
        { w with history := w.history ++ [.built id s], nextToken := w.nextToken + 1 }
      have hlocked₁ : ∀ c, (w₁.builder id).locked c = true := hlocked
      refine ⟨w₁, ?_⟩
      change (plan lock >>= fun plan => _).exec id w₁ = _
      rw [exec_bind, exec_plan hidle hlocked₁]
      change _ = outcome (((w₁.builder id).planOf >>= fun plan => _) : Except Error _) w₁
      cases (w₁.builder id).planOf with
      | error e => rfl
      | ok plan =>
          change (totalOffset lock >>= fun offset => _).exec id w₁ = _
          rw [exec_bind_ok (exec_totalOffset hidle hlocked₁), exec_self_bind]
          apply exec_bind_outcome (exec_flagExpression hidle hlocked₁ _ _ _)
          intro next _
          rw [exec_self_bind]
          exact exec_bind_outcome (exec_flagExpression hidle hlocked₁ _ _ _) fun _ _ => rfl

end

/-- A build goes on from the world in which everything is locked. -/
theorem exec_build_locked (hidle : lock.Idle) {w' : World}
    (hrun : (lockEverything lock).exec id w = (.ok (), w'))
    (hlocked : ∀ c, (w'.builder id).locked c = true) (options : BuildOptions) :
    (build lock options).exec id w = (build lock options).exec id w' := by
  rw [build, exec_bind_ok hrun, exec_bind_ok (exec_lockEverything hidle hlocked)]

/-- A connection does not look at the world in front of its first locks. -/
theorem exec_buildConnection_locked (hidle : lock.Idle) {w' : World}
    (hrun : (lockEverything lock).exec id w = (.ok (), w'))
    (hlocked : ∀ c, (w'.builder id).locked c = true) (options : BuildOptions) :
    (buildConnection lock options).exec id w = (buildConnection lock options).exec id w' := by
  let pageOptions : BuildOptions :=
    { options with asJson := false, asJsonAggregate := true, onlyJsonField := false }
  change (build lock pageOptions >>= fun page => _).exec id w =
    (build lock pageOptions >>= fun page => _).exec id w'
  rw [exec_bind, exec_build_locked hidle hrun hlocked, exec_bind]

end Action

end PageQuery
