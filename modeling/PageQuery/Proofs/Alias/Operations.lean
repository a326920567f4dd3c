import PageQuery.Proofs.Alias.Actions
import PageQuery.Proofs.Logic.Operations

/-!
# Operations are confined

An operation keeps to the alias tokens that have been given out, if its locks do and if those
that it is handed have been.  Main statement: this is a logic of actions, so scripts keep to
these tokens as well.
-/

namespace PageQuery

open Sql

/-! Scripts that keep to some tokens -/

/-- A single run, in which the operations hold only tokens that have been given out. -/
def Frame.confined : Frame where
  likeness := .below
  op n op op' := op = op' ∧ Taken n op

section

variable {n : Nat} {id : BuilderId}

/-- A script whose tokens are taken is like itself. -/
theorem Taken.scriptLike {steps : List Step} (h : Taken n steps) :
    ScriptLike .confined n steps steps := by
  induction steps with
  | nil => exact .nil
  | cons s rest ih =>
      obtain ⟨hs, hrest⟩ := Taken.cons_iff.mp h
      obtain ⟨path, op, optional, save⟩ := s
      exact .cons ⟨rfl, ⟨rfl, hs⟩, rfl, rfl⟩ (ih hrest)

/-- What a logic hands on of a registered script is that its tokens are taken. -/
theorem ScriptLike.taken {steps steps' : List Step} (h : ScriptLike .confined n steps steps') :
    Taken n steps := by
  induction h with
  | nil => exact .nil
  | @cons s s' _ _ hs _ ih =>
      obtain ⟨path, op, optional, save⟩ := s
      exact Taken.cons_iff.mpr ⟨hs.op.2, ih⟩

/-- The tokens of an operation stand in its script or beside it. -/
theorem Op.mem_tokens_iff {op : Op} {t : AliasToken} :
    t ∈ op.tokens ↔ t ∈ scriptTokens op.script ∨ t ∈ (op.withScript []).tokens := by
  cases op <;> simp [tokens, script, withScript, scriptTokens]

/-- The tokens of an operation are those that a logic asks about: the ones written in it and the
ones in its script. -/
theorem Taken.opLike {op : Op} (h : Taken n op) : op.Like .confined n op where
  script := by
    refine Taken.scriptLike fun t ht => h t (Op.mem_tokens_iff.mpr (.inl ?_))
    rwa [scriptTokens_eq]
  same := op.withScript_script.symm
  tokens t ht := h t (Op.mem_tokens_iff.mpr (.inr ht))
  named _ := trivial
  affords _ _ := trivial

theorem Deferred.Like.taken {α σ : Type} [Aliased α] [Likeness α] [Aliased.Lawful α] [Aliased σ]
    [Likeness σ] [Aliased.Lawful σ] {value value' : Deferred α σ}
    (h : value.Like .confined n value') : Taken n value := by
  cases h with
  | ready ha => exact ha.taken (N := n)
  | lazy hsteps hvalue => exact List.forall_mem_append.mpr ⟨hsteps.taken, hvalue.taken (N := n)⟩

theorem Comparator.Like.taken {comparator comparator' : Comparator}
    (h : comparator.Like .confined n comparator') : Taken n comparator := by
  cases h with
  | kind => exact .of_tokens_eq_nil rfl
  | custom hsteps => exact ScriptLike.taken hsteps

/-- A callback has the tokens of its script. -/
theorem Callback.Like.taken {callback callback' : Callback}
    (h : callback.Like .confined n id callback') : Taken n callback := by
  cases h with
  | same hready =>
      cases callback with
      | script steps => exact absurd rfl (hready steps)
      | settleBounds | settleCursor | cursorCondition | breakTies | refuseLastFromEnd =>
          exact .of_tokens_eq_nil rfl
  | script hsteps => exact ScriptLike.taken hsteps
  | cursor hcursor => exact hcursor.elim

end

/-! Changes -/

namespace Action.Confined

variable {N : Nat} {id : BuilderId}

/-- The check of a concern, which answers nothing. -/
theorem checkLock (c : Concern) : Confined N id (checkLock c) := by
  refine self_bind fun M b _ _ => ?_
  exact ite (refuse _) (pure (.of_plain _))

/-- A change behind the check of its concern. -/
theorem register (c : Concern) {change : Builder → Builder}
    (hchange : ∀ M b, N ≤ M → b.Within M → (change b).Within M) :
    Confined N id (do Action.checkLock c; Action.update change) :=
  (checkLock c).andThen fun _ => update hchange

/-- A change of what waits. -/
theorem await (c : Concern) (change : Pending → Pending)
    (hchange : ∀ M p, N ≤ M → p.Within M → (change p).Within M) :
    Confined N id (do
      Action.checkLock c
      Action.update fun b => { b with pending := change b.pending }) :=
  register c fun M _ hle hb => { hb with pending := hchange M _ hle hb.pending }

/-- A change that may also be refused for what the builder holds. -/
theorem register_or (c : Concern) {refused : Builder → Prop} [DecidablePred refused] {e : Error}
    {change : Builder → Builder}
    (hchange : ∀ M b, N ≤ M → b.Within M → (change b).Within M) :
    Confined N id (do
      Action.checkLock c
      let b ← Action.self
      if refused b then Action.refuse e
      Action.update change) := by
  refine (checkLock c).andThen fun _ => self_bind fun M b hle _ => ?_
  exact refuse_or (update fun M' b hle' hb => hchange M' b (Nat.le_trans hle hle') hb)

/-- A callback joins the queue of its concern. -/
theorem beforeLock (c : Concern) {callback : Callback} (h : Taken N callback) :
    Confined N id (beforeLock c callback) := by
  refine register c fun M b hle hb => { hb with callbacks := fun d => ?_ }
  exact Taken.ite ((hb.callbacks c).concat (h.mono hle)) (hb.callbacks d)

/-- A field is appended to those that wait. -/
theorem select {expr : DeferredFragment} (h : Taken N expr) (name : String) :
    Confined N id (select expr name) := by
  refine (checkLock .select).andThen fun _ => ?_
  refine (ofExcept (.of_plain _)).andThen fun _ => update fun M b hle hb => ?_
  have hselects := hb.pending.selects.concat (a := ⟨expr, name⟩) (h.mono hle)
  exact { hb with pending := { hb.pending with selects := hselects } }

/-- The identifiers are columns of the builder's own table. -/
theorem selectIdentifiers (primaryKey : List String) :
    Confined N id (selectIdentifiers primaryKey) := by
  refine (checkLock .select).andThen fun _ => self_bind fun M b _ hb => ?_
  refine ite (pure (.of_plain _)) ((ofExcept hb.seen.tableAlias).bind fun M table _ htable => ?_)
  have hidentifiers : Taken M (identifiers table primaryKey) := (htable.identifiers _).taken
  refine (select hidentifiers identifiersAlias).andThen fun _ => ?_
  exact update fun _ _ _ hb => { hb with }

/-- A where is appended to those that wait. -/
theorem filter {expr : DeferredFragment} (h : Taken N expr) : Confined N id (filter expr) := by
  refine (checkLock .wheres).andThen fun _ => andThen (update fun M b hle hb => ?_) fun _ => ?_
  · have hwheres := hb.pending.wheres.concat (h.mono hle)
    exact { hb with pending := { hb.pending with wheres := hwheres } }
  · exact read_bind (remember _)

/-- A bound joins those of its side. -/
theorem bound {condition : Cursor.Bound} (h : Taken N condition) (isLower : Bool) :
    Confined N id (bound condition isLower) := by
  refine register .bounds fun M b hle hb => ?_
  cases isLower with
  | true => exact { hb with lower := hb.lower.concat (h.mono hle) }
  | false => exact { hb with upper := hb.upper.concat (h.mono hle) }

/-- A comparator replaces the one that waits. -/
theorem registerComparator {comparator : Comparator} (h : Taken N comparator) :
    Confined N id (registerComparator comparator) := by
  refine await .comparator (fun p => { p with comparator := some comparator }) fun M p hle hp => ?_
  exact { hp with comparator := Taken.some_iff.mpr (h.mono hle) }

/-- A row source is named by the alias that is given, or by a token that is minted now. -/
theorem aliasOrToken {rowAlias : Option Node} (h : Taken N rowAlias) :
    Confined N id (aliasOrToken rowAlias) := by
  cases rowAlias with
  | some rowAlias => exact pure (Taken.some_iff.mp h).alike
  | none =>
      refine mintToken.bind fun M t _ ht => ?_
      exact pure ht.aliasNode

/-- The row source has the alias that was given, or a new token. -/
theorem registerSource {table : Fragment} (htable : Taken N table) {rowAlias : Option Node}
    (halias : Taken N rowAlias) : Confined N id (registerSource table rowAlias) := by
  refine (checkLock .source).andThen fun _ => ?_
  refine (aliasOrToken halias).bind fun M rowAlias hle halias => update fun M' b hle' hb => ?_
  have hsource : Taken M' (table, rowAlias) :=
    Taken.prod_iff.mpr ⟨htable.mono (Nat.le_trans hle hle'), halias.taken.mono hle'⟩
  exact { hb with source := Taken.some_iff.mpr hsource }

/-- What a call registers holds only tokens that have been given out. -/
theorem register_like {n : Nat} {call call' : Call} (h : call.Like .confined n id call') :
    Confined n id call.action := by
  cases h with
  | select hexpr name => exact select hexpr.taken name
  | selectIdentifiers primaryKey => exact selectIdentifiers primaryKey
  | @selectCursor expr _ hexpr =>
      refine await .cursor (fun p => { p with cursor := some expr }) fun M p hle hp => ?_
      exact { hp with cursor := Taken.some_iff.mpr (hexpr.taken.mono hle) }
  | join hclause =>
      refine register .joins fun M b hle hb => ?_
      exact { hb with joins := hb.joins.concat (hclause.taken.mono hle) }
  | filter hexpr => exact filter hexpr.taken
  | bound hcondition isLower => exact bound hcondition.taken isLower
  | @orderBy expr _ hexpr ascending nulls =>
      refine await .order (fun p =>
        { p with orderTerms := p.orderTerms ++ [⟨expr, ascending, nulls⟩] }) fun M p hle hp => ?_
      have hterms := hp.orderTerms.concat (a := ⟨expr, ascending, nulls⟩) (hexpr.taken.mono hle)
      exact { hp with orderTerms := hterms }
  | setOrderUnique => exact register .uniqueness fun _ _ _ hb => { hb with }
  | limit hcount =>
      refine register_or .limit fun M b hle hb => ?_
      have hlimit := Taken.some_iff.mpr (hcount.taken.mono hle)
      exact { hb with pending := { hb.pending with limit := hlimit } }
  | @offset count _ hcount =>
      refine await .offset (fun p => { p with offsets := p.offsets ++ [count] })
        fun M p hle hp => ?_
      exact { hp with offsets := hp.offsets.concat (hcount.taken.mono hle) }
  | first count => exact register_or .first fun _ _ _ hb => { hb with }
  | last count => exact register_or .last fun _ _ _ hb => { hb with }
  | setCursorTag tag => exact register .cursorTag fun _ _ _ hb => { hb with }
  | beforeLock c hcallback => exact beforeLock c hcallback.taken

/-- The answer about a child has no tokens in it. -/
theorem childAnswer (name : String) : Confined N id (childAnswer name) := by
  refine self_bind fun M b _ _ => ?_
  refine (ofExcept (.of_plain _)).andThen fun child => ?_
  exact get_bind fun _ => pure (Answer.Alike.same rfl)

end Action.Confined

/-- A lock that keeps to the tokens that have been given out. -/
structure Locker.Confines (lock : Locker) : Prop where
  lock : ∀ (N : Nat) (c : Concern) (id : BuilderId), Action.Confined N id (lock c)

namespace Locker.Confines

open PageQuery.Action

variable {N : Nat} {id : BuilderId} {lock : Locker} (h : lock.Confines)

include h

/-- A row source is registered, and then its concern is locked. -/
theorem source {table : Fragment} (htable : Taken N table) {rowAlias : Option Node}
    (halias : Taken N rowAlias) : Confined N id (source lock table rowAlias) :=
  (Confined.registerSource htable halias).andThen fun _ => h.lock N .source id

/-- A child knows its parent by the alias that this has. -/
theorem addChild (name : String) {table : Fragment} (htable : Taken N table)
    {rowAlias : Option Node} (halias : Taken N rowAlias) :
    Confined N id (addChild lock name table rowAlias) := by
  refine Confined.self_bind fun M b hle hb => Confined.refuse_or ?_
  refine Confined.read_bind ?_
  refine (Confined.ofExcept hb.seen.tableAlias).bind fun M₁ parent hle₁ hparent => ?_
  have hfresh : (Builder.fresh b.options (some ⟨id, parent⟩)).Within M₁ :=
    Builder.within_fresh _ (Taken.some_iff.mpr hparent.taken)
  refine (Confined.spawn hfresh).andThen fun child => ?_
  have hle' := Nat.le_trans hle hle₁
  have hsource : Confined M₁ child (Action.source lock table rowAlias) :=
    h.source (htable.mono hle') (halias.mono hle')
  refine (Confined.within hsource).andThen fun _ => (Confined.log _).andThen fun _ => ?_
  refine Confined.andThen (Confined.update fun _ _ _ hb => { hb with }) fun _ => ?_
  exact Confined.pure (.of_plain _)

/-- The child is made before its field is registered on it. -/
theorem addChildSelecting (name : String) {table : Fragment} (htable : Taken N table)
    {rowAlias : Option Node} (halias : Taken N rowAlias) {expr : Fragment} (hexpr : Taken N expr)
    (exprName : String) :
    Confined N id (addChildSelecting lock name table rowAlias expr exprName) := by
  refine (h.addChild name htable halias).andThen fun child => ?_
  have hselect : Confined N child (select (.ready expr) exprName) :=
    Confined.select hexpr exprName
  exact (Confined.within hselect).andThen fun _ => Confined.pure (.of_plain _)

/-- Actions that are confined, with the lock. -/
def logic : Logic where
  toFrame := .confined
  Holds n id _ {_} [_] f _ := Confined n id (f lock)
  le := Variation.below_le
  op_mono {_ _} hle {_ _} h := ⟨h.1, h.2.mono hle⟩
  pure ha := by
    obtain rfl := ha.eq (Variation.exact_below _)
    exact Confined.pure ha
  refuse := Confined.refuse
  mono _ h := h
  bind hf hg := hf.bind fun m a hle ha => hg m a a hle ha
  attempt h := h.attempt
  lock c := h.lock _ c _
  inspect hg := Confined.self_bind fun m b hle hb => hg m b b hle hb.seen
  identify hg := Confined.read_bind (hg _)
  descend name hf := by
    refine Confined.self_bind fun m b hle _ => ?_
    refine (Confined.ofExcept (.of_plain _)).andThen fun child => ?_
    exact (Confined.within (hf child)).mono hle
  childAnswer := Confined.childAnswer
  evaluate htokens := Confined.evaluate htokens
  evaluateNode htokens := Confined.evaluateNode htokens
  log _ := Confined.log _
  record _ _ _ _ _ := Confined.record _
  save name _ _ hf := Confined.save name hf.taken
  mintToken {_ _} := Confined.mintToken
  builtStatement h := by
    refine h.bind fun M s _ hs => Confined.read_bind ?_
    exact (Confined.remember _).andThen fun _ => Confined.pure hs
  register := Confined.register_like
  registerSource htable _ _ halias _ := Confined.registerSource htable.taken halias.taken
  registerComparator h := Confined.registerComparator h.taken
  addChild name _ _ htable _ _ halias _ := h.addChild name htable.taken halias.taken
  addChildSelecting name _ _ htable _ _ halias _ _ _ hexpr :=
    h.addChildSelecting name htable.taken halias.taken hexpr.taken
  op_cases {n o o'} hop := by
    obtain ⟨rfl, htaken⟩ : o = o' ∧ Taken n o := hop
    exact .inl htaken.opLike

/-- A step with tokens that have been given out. -/
theorem performStep {s : Step} (hs : Taken N s) : Confined N id (performStep lock s) := by
  obtain ⟨path, op, optional, save⟩ := s
  exact h.logic.performStep ⟨rfl, ⟨rfl, hs⟩, rfl, rfl⟩

/-- A script with tokens that have been given out. -/
theorem runSteps {steps : List Step} (hsteps : Taken N steps) :
    Confined N id (runSteps lock steps) :=
  h.logic.runSteps hsteps.scriptLike

end Locker.Confines

end PageQuery
