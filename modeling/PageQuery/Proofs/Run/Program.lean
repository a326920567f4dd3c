import PageQuery.Proofs.Logic.Operations

/-!
# Operations as programs

Every operation is put together from a few instructions: it reads and updates builders,
registers row sources, makes children, adds to what is reported, gives out tokens, and asks
for locks.  What every instruction and every lock keeps is therefore kept by all operations,
and what two runs of the same program have in common is shown once for all of them.
-/

namespace PageQuery

open Sql

/-! Scripts in which aliases are given only if they may be -/

/-- A single run, in which aliases are given to row sources only if they may be. -/
def Frame.permitted (named : Prop) : Frame where
  likeness _ := .none
  op _ op op' := op = op' ∧ Permitted named op
  named := named

section

variable {n : Nat} {id : BuilderId} {named : Prop}

/-- A permitted script runs beside itself in the frame of permitted aliases. -/
theorem Permitted.scriptLike {steps : List Step} (h : Permitted named steps) :
    ScriptLike (.permitted named) n steps steps := by
  induction steps with
  | nil => exact .nil
  | cons s rest ih =>
      obtain ⟨hs, hrest⟩ := Permitted.cons_iff.mp h
      obtain ⟨path, op, optional, save⟩ := s
      exact .cons ⟨rfl, ⟨rfl, hs⟩, rfl, rfl⟩ (ih hrest)

/-- What a logic hands on of a registered script is that it is permitted. -/
theorem ScriptLike.permitted {steps steps' : List Step}
    (h : ScriptLike (.permitted named) n steps steps') : Permitted named steps := by
  induction h with
  | nil => exact .nil
  | @cons s s' _ _ hs _ ih =>
      obtain ⟨path, op, optional, save⟩ := s
      exact Permitted.cons_iff.mpr ⟨hs.op.2, ih⟩

/-- A permitted operation has the parts that a logic asks for: a permitted script, and an alias for
a row source only where one may be given. -/
theorem Permitted.opLike {op : Op} (h : Permitted named op) : op.Like (.permitted named) n op where
  script := by
    cases op with
    | selectLazy steps | selectCursorLazy steps | filterLazy steps | orderByLazy steps
    | limitLazy steps | offsetLazy steps | setCustomComparator steps | beforeLock _ steps =>
        exact Permitted.scriptLike (.of_script h)
    | _ => exact .nil
  same := op.withScript_script.symm
  tokens t _ := Variation.whole_none t
  named hgives := by
    cases op with
    | source | addChild => exact h hgives
    | _ => exact absurd hgives Bool.false_ne_true
  affords _ _ := trivial

theorem Deferred.Like.permitted {α σ : Type} [Likeness α] [Likeness σ] {value value' : Deferred α σ}
    (h : value.Like (.permitted named) n value') : Permitted named value := by
  cases h with
  | ready => exact .ready _
  | lazy hsteps => exact ScriptLike.permitted hsteps

theorem Comparator.Like.permitted {comparator comparator' : Comparator}
    (h : comparator.Like (.permitted named) n comparator') : Permitted named comparator := by
  cases h with
  | kind => exact .of_givesNone rfl
  | custom hsteps => exact ScriptLike.permitted hsteps

/-- Of the callbacks only scripts can give an alias; the built-in ones never do. -/
theorem Callback.Like.permitted {callback callback' : Callback}
    (h : callback.Like (.permitted named) n id callback') : Permitted named callback := by
  cases h with
  | same hready =>
      cases callback with
      | script steps => exact absurd rfl (hready steps)
      | settleBounds | settleCursor | cursorCondition | breakTies | refuseLastFromEnd =>
          exact .of_givesNone rfl
  | script hsteps => exact ScriptLike.permitted hsteps
  | cursor hcursor => exact hcursor.elim

end

namespace Action

variable {α β γ : Type} {named : Prop}

/-- An action that is put together from instructions, given the lock that it asks for.  It
gives aliases to row sources, and takes up scripts that do, only if aliases may be given. -/
inductive Program (named : Prop) : {α : Type} → (Locker → Action α) → Prop
  | pure {α : Type} (a : α) : Program named fun _ => (Pure.pure a : Action α)
  | refuse {α : Type} (e : Error) : Program named fun _ => (refuse e : Action α)
  | abort {α : Type} (reason : Abort) : Program named fun _ => (abort reason : Action α)
  | lock (c : Concern) : Program named fun lock => lock c
  | inspect {α : Type} {f : Builder → Locker → Action α}
      (hf : ∀ b, b.Permits named → Program named (f b)) :
      Program named fun lock => self >>= fun b => f b lock
  | read : Program named fun _ => (read : Action BuilderId)
  | view {α : Type} (f : List (BuilderId × Builder) → List (String × Fragment) → α) :
      Program named fun _ => (do let w ← get; return f w.builders w.saved : Action α)
  | update {change : Builder → Builder} (hchange : Builder.Tame named change) :
      Program named fun _ => update change
  | log (event : Event) : Program named fun _ => log event
  | record (entry : Entry) : Program named fun _ => record entry
  | remember (moment : Moment) : Program named fun _ => remember moment
  | save (name : String) (f : Fragment) : Program named fun _ => save name f
  | mintToken : Program named fun _ => mintToken
  | registerSource (table : Fragment) {rowAlias : Option Node}
      (hnamed : rowAlias.isSome = true → named) :
      Program named fun _ => registerSource table rowAlias
  | addChild (name : String) (table : Fragment) {rowAlias : Option Node}
      (hnamed : rowAlias.isSome = true → named) :
      Program named fun lock => addChild lock name table rowAlias
  | within {α : Type} {f : Locker → Action α} (id : BuilderId) (hf : Program named f) :
      Program named fun lock => within id (f lock)
  | attempt {α : Type} {f : Locker → Action α} (hf : Program named f) :
      Program named fun lock => attempt (f lock)
  | bind {α β : Type} {f : Locker → Action α} {g : α → Locker → Action β}
      (hf : Program named f) (hg : ∀ a, Program named (g a)) :
      Program named fun lock => f lock >>= fun a => g a lock

namespace Program

/-- To look at the builder is to inspect it and to answer what is there. -/
theorem self : Program named fun _ => self := by
  have hself : Program named fun _ => (Action.self >>= fun b => Pure.pure b : Action Builder) :=
    inspect fun b _ => pure b
  simpa only [bind_pure] using hself

theorem ofExcept (value : Except Error α) : Program named fun _ => ofExcept value := by
  cases value with
  | ok a => exact pure a
  | error e => exact refuse e

theorem ofHalting (value : Except Halt α) : Program named fun _ => ofHalting value := by
  rcases value with (e | reason) | a
  · exact refuse e
  · exact abort reason
  · exact pure a

theorem ite {p : Prop} [Decidable p] {f g : Locker → Action α} (hf : Program named f)
    (hg : Program named g) : Program named fun lock => if p then f lock else g lock := by
  by_cases hp : p
  · simpa only [if_pos hp] using hf
  · simpa only [if_neg hp] using hg

theorem forM_option {f : γ → Locker → Action PUnit} (item : Option γ)
    (hf : ∀ item, Program named (f item)) :
    Program named fun lock => item.forM fun item => f item lock := by
  cases item with
  | none => exact pure _
  | some item => exact hf item

/-- Items are gone through in order, and what holds of all of them may be used at each. -/
theorem mapM {f : γ → Locker → Action α} (items : List γ)
    (hf : ∀ item ∈ items, Program named (f item)) :
    Program named fun lock => items.mapM fun item => f item lock := by
  induction items with
  | nil => exact pure _
  | cons item rest ih =>
      obtain ⟨hfirst, hrest⟩ := List.forall_mem_cons.mp hf
      simp only [List.mapM_cons]
      exact hfirst.bind fun _ => (ih hrest).bind fun _ => pure _

theorem mapM_option {f : γ → Locker → Action α} (item : Option γ)
    (hf : ∀ a, item = some a → Program named (f a)) :
    Program named fun lock => item.mapM fun item => f item lock := by
  cases item with
  | none => exact pure _
  | some item => exact (hf item rfl).bind fun _ => pure _

/-- The scope of expressions is made from the builder and from what is saved. -/
theorem scope : Program named fun _ => scope :=
  self.bind fun b => view fun _ saved => Scope.mk b.tableAlias b.parentAlias saved

theorem evaluate (expr : Expr) : Program named fun _ => evaluate expr :=
  scope.bind fun scope => ofHalting (expr.eval scope)

theorem evaluateNode (node : NodeExpr) : Program named fun _ => evaluateNode node :=
  scope.bind fun scope => ofExcept (node.eval scope)

/-! Changes -/

/-- The check of a concern answers or refuses, and changes nothing. -/
theorem checkLock (c : Concern) : Program named fun _ => checkLock c := by
  apply self.bind
  intro b
  exact ite (refuse _) (pure _)

/-- A change behind the check of its concern. -/
theorem register (c : Concern) {change : Builder → Builder} (hchange : Builder.Tame named change) :
    Program named fun _ => (do Action.checkLock c; Action.update change) :=
  (checkLock c).bind fun _ => update hchange

/-- A change that may also be refused for what the builder holds. -/
theorem register_or (c : Concern) {refused : Builder → Prop} [DecidablePred refused] {e : Error}
    {change : Builder → Builder} (hchange : Builder.Tame named change) :
    Program named fun _ => (do
      Action.checkLock c
      let b ← Action.self
      if refused b then Action.refuse e
      Action.update change) := by
  apply (checkLock c).bind
  intro _
  apply self.bind
  intro b
  exact ite ((refuse e).bind fun _ => update hchange) (update hchange)

/-- A callback joins the queue of its concern. -/
theorem beforeLock (c : Concern) {callback : Callback} (h : Permitted named callback) :
    Program named fun _ => beforeLock c callback :=
  register c (.setCallbacks c fun _ hqueue => hqueue.concat h)

theorem select {expr : DeferredFragment} (h : Permitted named expr) (name : String) :
    Program named fun _ => select expr name := by
  apply (checkLock .select).bind
  intro _
  apply (ofExcept _).bind
  intro _
  exact update (.pending (fun p => { p with selects := p.selects ++ [⟨expr, name⟩] }) fun _ hp =>
    { hp with selects := hp.selects.concat h })

/-- The identifiers are put into the select list once, and the builder notes that they are there. -/
theorem selectIdentifiers (primaryKey : List String) :
    Program named fun _ => selectIdentifiers primaryKey := by
  apply (checkLock .select).bind
  intro _
  apply self.bind
  intro b
  apply ite (pure _)
  apply (ofExcept _).bind
  intro table
  apply (select (.ready (identifiers table primaryKey)) identifiersAlias).bind
  intro _
  exact update (.of_same (fun _ => ⟨rfl, rfl, rfl⟩) fun _ => ⟨rfl, rfl, rfl⟩)

/-- A where is appended, and the run remembers it from then on. -/
theorem filter {expr : DeferredFragment} (h : Permitted named expr) :
    Program named fun _ => filter expr := by
  apply (checkLock .wheres).bind
  intro _
  have hadd : Builder.Tame named fun b =>
      { b with pending := { b.pending with wheres := b.pending.wheres ++ [expr] } } :=
    .pending (fun p => { p with wheres := p.wheres ++ [expr] }) fun _ hp =>
      { hp with wheres := hp.wheres.concat h }
  apply (update hadd).bind
  intro _
  apply read.bind
  intro _
  exact remember _

/-- A comparator is put in place of the one that waits. -/
theorem registerComparator {comparator : Comparator} (h : Permitted named comparator) :
    Program named fun _ => registerComparator comparator :=
  register .comparator (.pending (fun p => { p with comparator := some comparator }) fun _ hp =>
    { hp with comparator := Permitted.some_iff.mpr h })

/-- The scripts that a call registers give aliases only if they may. -/
theorem register_like {n : Nat} {id : BuilderId} {call call' : Call}
    (h : call.Like (.permitted named) n id call') : Program named fun _ => call.action := by
  cases h with
  | select hexpr name => exact select hexpr.permitted name
  | selectIdentifiers primaryKey => exact selectIdentifiers primaryKey
  | @selectCursor expr _ hexpr =>
      refine register .cursor (.pending (fun p => { p with cursor := some expr }) fun p hp => ?_)
      exact { hp with cursor := Permitted.some_iff.mpr hexpr.permitted }
  | join => exact register .joins (.of_same (fun _ => ⟨rfl, rfl, rfl⟩) fun _ => ⟨rfl, rfl, rfl⟩)
  | filter hexpr => exact filter hexpr.permitted
  | bound _ isLower =>
      apply register .bounds
      cases isLower <;> exact .of_same (fun _ => ⟨rfl, rfl, rfl⟩) fun _ => ⟨rfl, rfl, rfl⟩
  | @orderBy expr _ hexpr ascending nulls =>
      refine register .order (.pending (fun p =>
        { p with orderTerms := p.orderTerms ++ [⟨expr, ascending, nulls⟩] }) fun p hp => ?_)
      have hterm : Permitted named (⟨expr, ascending, nulls⟩ : PendingTerm) := hexpr.permitted
      exact { hp with orderTerms := hp.orderTerms.concat hterm }
  | setOrderUnique =>
      exact register .uniqueness (.of_same (fun _ => ⟨rfl, rfl, rfl⟩) fun _ => ⟨rfl, rfl, rfl⟩)
  | @limit count _ hcount =>
      refine register_or .limit (.pending (fun p => { p with limit := some count }) fun p hp => ?_)
      exact { hp with limit := Permitted.some_iff.mpr hcount.permitted }
  | @offset count _ hcount =>
      refine register .offset
        (.pending (fun p => { p with offsets := p.offsets ++ [count] }) fun p hp => ?_)
      exact { hp with offsets := hp.offsets.concat hcount.permitted }
  | first =>
      exact register_or .first (.of_same (fun _ => ⟨rfl, rfl, rfl⟩) fun _ => ⟨rfl, rfl, rfl⟩)
  | last => exact register_or .last (.of_same (fun _ => ⟨rfl, rfl, rfl⟩) fun _ => ⟨rfl, rfl, rfl⟩)
  | setCursorTag =>
      exact register .cursorTag (.of_same (fun _ => ⟨rfl, rfl, rfl⟩) fun _ => ⟨rfl, rfl, rfl⟩)
  | beforeLock c hcallback => exact beforeLock c hcallback.permitted

/-! Operations -/

/-- An answer about a child is read off its phase and its locks. -/
theorem childAnswer (name : String) : Program named fun _ => childAnswer name := by
  apply self.bind
  intro b
  apply (ofExcept _).bind
  intro child
  exact view fun builders _ =>
    Answer.child ((builders.lookup child).getD (.fresh {} none)).phase
      ((builders.lookup child).getD (.fresh {} none)).locks

/-- A child with a first field in its select list. -/
theorem addChildSelecting (name : String) (table : Fragment) {rowAlias : Option Node}
    (hnamed : rowAlias.isSome = true → named) (expr : Fragment) (exprName : String) :
    Program named fun lock => addChildSelecting lock name table rowAlias expr exprName := by
  apply (addChild name table hnamed).bind
  intro child
  have hselect : Program named fun _ => Action.select (.ready expr) exprName :=
    select (.ready expr) exprName
  exact (hselect.within child).bind fun _ => pure _

/-- To be a program is a logic of actions. -/
def logic (named : Prop) : Logic where
  toFrame := .permitted named
  Holds _ _ _ {_} [_] f _ := Program named f
  le _ := .refl _
  op_mono {_ _} _ {_ _} h := h
  pure _ := pure _
  refuse := refuse
  mono _ h := h
  bind {n _ _ _ _ _ _ _ _ _ _ _} hf hg :=
    hf.bind fun a => hg n a a (Nat.le_refl n) (.refl Variation.whole_none a)
  attempt h := h.attempt
  lock c := lock c
  inspect {n _ _ _ _ _ _} hg :=
    inspect fun b _ => hg n b b (Nat.le_refl n) (.refl Variation.whole_none b)
  identify hg := read.bind hg
  descend {_ id _ _ _ _ _} name hf :=
    self.bind fun b => (ofExcept (b.child name)).bind fun child => (hf id).within child
  childAnswer := childAnswer
  evaluate _ := evaluate _
  evaluateNode _ := evaluateNode _
  log _ := log _
  record _ _ _ _ _ := record _
  save name f _ _ := save name f
  mintToken {_ _} := mintToken
  builtStatement h := by
    apply h.bind
    intro statement
    apply read.bind
    intro builder
    exact (remember _).bind fun _ => pure statement
  register := register_like
  registerSource {_ _ table _} _ {_ _} _ hnamed := registerSource table hnamed
  registerComparator h := registerComparator h.permitted
  addChild name table _ _ _ _ _ hnamed := addChild name table hnamed
  addChildSelecting name table _ _ _ _ _ hnamed expr _ _ exprName :=
    addChildSelecting name table hnamed expr exprName
  op_cases {n o o'} hop := by
    obtain ⟨rfl, hpermitted⟩ : o = o' ∧ Permitted named o := hop
    exact .inl hpermitted.opLike

/-- The builder is of no account. -/
theorem of_logic [Likeness α] {cost : Nat} {f f' : Locker → Action α}
    (h : (logic named).Holds 0 World.root cost f f') : Program named f := h

theorem cursorExpression : Program named fun lock => cursorExpression lock :=
  of_logic (logic named).cursorExpression

theorem totalOffset : Program named fun lock => totalOffset lock :=
  of_logic (logic named).totalOffset

theorem compareWith (kind : ComparatorKind) (cursor : List Json) (isAfter : Bool) :
    Program named fun lock => compareWith lock kind cursor isAfter :=
  of_logic ((logic named).compareWith kind cursor isAfter)

/-- The columns of the primary key are appended to the order, which is then declared unique. -/
theorem breakTies (primaryKey : List String) :
    Program named fun lock => breakTies lock primaryKey :=
  of_logic ((logic named).breakTies primaryKey)

/-- A connection is set up by the calls that its arguments ask for. -/
theorem setUpConnection (setup : ConnectionSetup) (args : ConnectionArgs) :
    Program named fun lock => setUpConnection lock setup args :=
  of_logic ((logic named).setUpConnection setup rfl
    (.refl (fun cursors _ => .refl cursors) _))

/-- A step follows its path, performs its operation there, and may save the fragment. -/
theorem performStep {s : Step} (h : Permitted named s) :
    Program named fun lock => performStep lock s := by
  obtain ⟨path, op, optional, save⟩ := s
  exact of_logic ((logic named).performStep ⟨rfl, ⟨rfl, h⟩, rfl, rfl⟩)

/-- A script is a program, since each of its steps is one. -/
theorem runSteps {steps : List Step} (h : Permitted named steps) :
    Program named fun lock => runSteps lock steps :=
  of_logic ((logic named).runSteps h.scriptLike)

/-! Values, callbacks and locks -/

/-- A lazy fragment runs its script and then gives its value. -/
theorem resolveFragment {value : DeferredFragment} (h : Permitted named value) :
    Program named fun lock => resolveFragment lock value := by
  cases value with
  | ready f => exact pure f
  | lazy steps value =>
      cases value with
      | expr expr => exact (runSteps h).bind fun _ => evaluate expr
      | cursorExpression =>
          exact (runSteps h).bind fun _ => cursorExpression.bind fun _ => pure _

/-- A lazy count runs its script first, and may then need the offsets in front of it. -/
theorem resolveCount {value : DeferredCount} (h : Permitted named value) :
    Program named fun lock => resolveCount lock value := by
  cases value with
  | ready n => exact pure n
  | lazy steps value =>
      apply (runSteps h).bind
      intro _
      cases value with
      | fixed n => exact pure n
      | aboveOffset n => exact totalOffset.bind fun _ => pure _
      | beforePosition position => exact totalOffset.bind fun _ => pure _

theorem resolveTerm {term : PendingTerm} (h : Permitted named term) :
    Program named fun lock => resolveTerm lock term :=
  (resolveFragment h).bind fun _ => pure _

/-- Offsets add up in the order in which they were registered. -/
theorem resolveOffsets (total : Nat) {values : List DeferredCount} (h : Permitted named values) :
    Program named fun lock => resolveOffsets lock total values := by
  induction values generalizing total with
  | nil => exact pure total
  | cons n rest ih =>
      obtain ⟨hn, hrest⟩ := Permitted.cons_iff.mp h
      exact (resolveCount hn).bind fun _ => ih _ hrest

/-- A field replaces those of the same name before it. -/
theorem resolveFields (done : List Field) {fields : List PendingField}
    (h : Permitted named fields) : Program named fun lock => resolveFields lock done fields := by
  induction fields generalizing done with
  | nil => exact pure done
  | cons field rest ih =>
      obtain ⟨hfield, hrest⟩ := Permitted.cons_iff.mp h
      have hexpr : Permitted named field.expr := hfield
      exact (resolveFragment hexpr).bind fun _ => ih _ hrest

/-- What waits may be rewritten as long as no script in it comes to give an alias. -/
theorem updatePending {change : Pending → Pending}
    (hchange : ∀ p, p.Permits named → (change p).Permits named) :
    Program named fun _ => updatePending change :=
  update
    { permits := fun hb => { hb with pending := hchange _ hb.pending }
      keeps := fun _ => ⟨rfl, rfl, id⟩ }

/-- Of what is settled only the comparator can hold a script. -/
theorem updateResolved {change : Resolved → Resolved}
    (hchange : ∀ r, Permitted named r.comparator → Permitted named (change r).comparator) :
    Program named fun _ => updateResolved change :=
  update
    { permits := fun hb => { hb with comparator := hchange _ hb.comparator }
      keeps := fun _ => ⟨rfl, rfl, id⟩ }

/-- Each concern settles its own values: what waits is taken out first, then evaluated, and then put
in place. -/
theorem resolve (c : Concern) : Program named fun lock => resolve lock c := by
  cases c with
  | source | joins | uniqueness | cursorTag | bounds | first | last => exact pure _
  | order =>
      refine bind ?_ fun _ => lock _
      apply inspect
      intro b hb
      have hterms := Permitted.iff_forall_mem.mp hb.pending.orderTerms
      refine bind (updatePending ?_) fun _ => ?_
      · exact fun _ hp => { hp with orderTerms := .nil }
      exact (mapM _ fun term hterm => resolveTerm (hterms term hterm)).bind fun _ =>
        updateResolved fun _ hcomparator => hcomparator
  | comparator =>
      apply inspect
      intro b hb
      have hset : Permitted named (b.pending.comparator.getD (.kind .row)) := by
        have hcomparator := hb.pending.comparator
        cases hpending : b.pending.comparator with
        | none => exact .of_givesNone rfl
        | some comparator => rwa [hpending] at hcomparator
      refine bind (updatePending ?_) fun _ => updateResolved ?_
      · exact fun _ hp => { hp with comparator := .none }
      · exact fun _ _ => hset
  | wheres =>
      apply inspect
      intro b hb
      have hwheres := Permitted.iff_forall_mem.mp hb.pending.wheres
      refine bind (updatePending ?_) fun _ => ?_
      · exact fun _ hp => { hp with wheres := .nil }
      exact (mapM _ fun expr hexpr => resolveFragment (hwheres expr hexpr)).bind fun _ =>
        updateResolved fun _ hcomparator => hcomparator
  | offset =>
      apply inspect
      intro b hb
      refine bind (updatePending ?_) fun _ => ?_
      · exact fun _ hp => { hp with offsets := .nil }
      exact (resolveOffsets _ hb.pending.offsets).bind fun _ =>
        updateResolved fun _ hcomparator => hcomparator
  | limit =>
      apply inspect
      intro b hb
      have hlimit := hb.pending.limit
      refine bind (updatePending ?_) fun _ => ?_
      · exact fun _ hp => { hp with limit := .none }
      exact (mapM_option _ fun n hn => resolveCount (by rwa [hn] at hlimit)).bind fun _ =>
        updateResolved fun _ hcomparator => hcomparator
  | cursor =>
      apply inspect
      intro b hb
      have hcursor := hb.pending.cursor
      refine bind (updatePending ?_) fun _ => ?_
      · exact fun _ hp => { hp with cursor := .none }
      exact (mapM_option _ fun f hf => resolveFragment (by rwa [hf] at hcursor)).bind fun _ =>
        updateResolved fun _ hcomparator => hcomparator
  | select =>
      apply inspect
      intro b hb
      refine bind (updatePending ?_) fun _ => ?_
      · exact fun _ hp => { hp with selects := .nil }
      exact (resolveFields _ hb.pending.selects).bind fun _ =>
        updateResolved fun _ hcomparator => hcomparator

/-- A built-in comparator registers bounds; a custom one is reported and its script runs. -/
theorem applyComparator (cursor : List Json) (isAfter : Bool) {comparator : Comparator}
    (h : Permitted named comparator) :
    Program named fun lock => applyComparator lock cursor isAfter comparator := by
  cases comparator with
  | kind kind => exact compareWith kind cursor isAfter
  | custom steps => exact (record _).bind fun _ => runSteps h

/-- A callback is a script, a lock of another concern, or one of the calls that a builder makes of
its own accord. -/
theorem runCallback {callback : Callback} (h : Permitted named callback) :
    Program named fun lock => runCallback lock callback := by
  cases callback with
  | script steps => exact runSteps h
  | settleBounds => exact lock .bounds
  | settleCursor =>
      apply (lock .cursor).bind
      intro _
      apply self.bind
      intro b
      exact forM_option _ fun _ => select (.ready _) _
  | cursorCondition cursor isAfter =>
      apply (lock .comparator).bind
      intro _
      apply inspect
      intro b hb
      have hcomparator := hb.comparator
      generalize b.resolved.comparator = resolved at hcomparator
      cases resolved with
      | none => exact refuse _
      | some comparator => exact applyComparator cursor isAfter hcomparator
  | breakTies primaryKey => exact breakTies primaryKey
  | refuseLastFromEnd => exact self.bind fun _ => ite (refuse _) (pure _)

/-- Callbacks run until one is refused; the rest of them are queued again. -/
theorem runCallbacks (c : Concern) {callbacks : List Callback} (h : Permitted named callbacks) :
    Program named fun lock => runCallbacks lock c callbacks := by
  induction callbacks with
  | nil => exact pure _
  | cons callback rest ih =>
      obtain ⟨hcallback, hrest⟩ := Permitted.cons_iff.mp h
      apply (runCallback hcallback).attempt.bind
      intro outcome
      cases outcome with
      | ok _ => exact ih hrest
      | error e =>
          -- What was not started goes back to the queue, before what joined it meanwhile.
          have hrestored : Builder.Tame named fun b =>
              b.setCallbacks c (rest ++ b.callbacks c) :=
            .setCallbacks c fun _ hqueue => Permitted.append_iff.mpr ⟨hrest, hqueue⟩
          apply (update hrestored).bind
          intro _
          apply read.bind
          intro _
          exact (remember _).bind fun _ => refuse e

/-- Rounds of callbacks are run until none are left or the fuel is spent. -/
theorem drain (c : Concern) (rounds : Nat) : Program named fun lock => drain lock c rounds := by
  induction rounds with
  | zero => exact abort .exhausted
  | succ rounds ih =>
      apply inspect
      intro b hb
      apply ite (pure _)
      apply (update (.setCallbacks c fun _ _ => .nil)).bind
      intro _
      exact (runCallbacks c (hb.callbacks c)).bind fun _ => ih

/-- To settle a concern is reported, done, and remembered. -/
theorem settleValues (c : Concern) : Program named fun lock => settleValues lock c := by
  apply read.bind
  intro _
  apply (log _).bind
  intro _
  apply (resolve c).bind
  intro _
  exact read.bind fun _ => remember _

/-- An open concern is marked as locked before its values are settled. -/
theorem settleOpen (c : Concern) : Program named fun lock => settleOpen lock c := by
  apply self.bind
  intro _
  apply ite (pure _)
  exact (update (.setLocked c)).bind fun _ => settleValues c

/-- A lock is a program of the locks inside it. -/
theorem lockRound (c : Concern) (fuel : Nat) : Program named fun lock =>
    (do
      if (← Action.self).locked c then return
      Action.drain lock c fuel
      Action.settleOpen lock c) := by
  apply self.bind
  intro _
  apply ite (pure _)
  exact (drain c fuel).bind fun _ => settleOpen c

end Program

end Action

end PageQuery
