import PageQuery.Proofs.Logic.Operations
import PageQuery.Proofs.Work.Actions

/-!
# What operations cost

Where the locks of an operation add nothing to the work of a world, it adds what its script says.
Questions add nothing, and a change adds what it registers.  Main statement: costs are a logic of
actions, so a script adds no more than its work.
-/

namespace PageQuery

open Sql

/-! Scripts that set affordable comparators only -/

/-- A single run, in which comparators leave behind at most `heaviest`. -/
def Frame.costs (heaviest : Nat) : Frame where
  likeness _ := .none
  op _ op op' := op = op' ∧ op.SetsOnly (Affordable heaviest)
  affords := Affordable heaviest
  heaviest := heaviest

section

variable {heaviest n : Nat} {id : BuilderId}

/-- A script that sets affordable comparators is like itself. -/
theorem ScriptSetsOnly.like {steps : List Step} (h : ScriptSetsOnly (Affordable heaviest) steps) :
    ScriptLike (.costs heaviest) n steps steps := by
  induction steps with
  | nil => exact .nil
  | cons s rest ih =>
      obtain ⟨path, op, optional, save⟩ := s
      exact .cons ⟨rfl, ⟨rfl, h.1⟩, rfl, rfl⟩ (ih h.2)

/-- What a logic hands on of a registered script is that it sets affordable comparators. -/
theorem ScriptLike.setsOnly {steps steps' : List Step}
    (h : ScriptLike (.costs heaviest) n steps steps') :
    ScriptSetsOnly (Affordable heaviest) steps := by
  induction h with
  | nil => trivial
  | @cons s s' _ _ hs _ ih =>
      obtain ⟨path, op, optional, save⟩ := s
      exact ⟨hs.op.2, ih⟩

/-- An operation that sets a comparator has to say that it is affordable; the others have only their
script. -/
theorem Op.SetsOnly.like {op : Op} (h : op.SetsOnly (Affordable heaviest)) :
    op.Like (.costs heaviest) n op where
  script := by
    cases op with
    | selectLazy steps | selectCursorLazy steps | filterLazy steps | orderByLazy steps
    | limitLazy steps | offsetLazy steps | beforeLock _ steps => exact ScriptSetsOnly.like h
    | setCustomComparator steps => exact ScriptSetsOnly.like h.2
    | _ => exact .nil
  same := op.withScript_script.symm
  tokens t _ := Variation.whole_none t
  named _ := trivial
  affords := by
    rintro steps rfl
    exact h.1

theorem Deferred.Like.setsOnly {α σ : Type} [Likeness α] [Likeness σ] {value value' : Deferred α σ}
    (h : value.Like (.costs heaviest) n value') : value.SetsOnly (Affordable heaviest) := by
  cases h with
  | ready => trivial
  | lazy hsteps => exact ScriptLike.setsOnly hsteps

theorem Comparator.Like.setsOnly {comparator comparator' : Comparator}
    (h : comparator.Like (.costs heaviest) n comparator') :
    comparator.SetsOnly (Affordable heaviest) := by
  cases h with
  | kind => trivial
  | custom hsteps haffords => exact ⟨haffords, hsteps.setsOnly⟩

/-- The built-in callbacks set no comparators. -/
theorem Callback.Like.setsOnly {callback callback' : Callback}
    (h : callback.Like (.costs heaviest) n id callback') :
    callback.SetsOnly (Affordable heaviest) := by
  cases h with
  | same hready =>
      cases callback with
      | script steps => exact absurd rfl (hready steps)
      | _ => trivial
  | script hsteps => exact ScriptLike.setsOnly hsteps
  | cursor hcursor => exact hcursor.elim

end

/-! Registrations -/

namespace Pending

variable {heaviest : Nat} (p : Pending)

/-- The work of values that are registered behind others. -/
theorem totalWeight_concat {τ : Type} (items : List τ) (item : τ) (price : τ → Nat) :
    totalWeight ((items ++ [item]).map price) = totalWeight (items.map price) + price item := by
  simp only [List.map_append, List.map_cons, List.map_nil, totalWeight_append, totalWeight_cons,
    totalWeight_nil, Nat.add_zero]

/-- A field is as much work as its value. -/
theorem work_select (field : PendingField) :
    work heaviest { p with selects := p.selects ++ [field] } ≤
      p.work heaviest + field.expr.work heaviest := by
  simp only [work, sum, totalWeight_concat]
  omega

/-- A where is as much work as its value. -/
theorem work_filter (expr : DeferredFragment) :
    work heaviest { p with wheres := p.wheres ++ [expr] } ≤
      p.work heaviest + expr.work heaviest := by
  simp only [work, sum, totalWeight_concat]
  omega

theorem work_orderBy (term : PendingTerm) :
    work heaviest { p with orderTerms := p.orderTerms ++ [term] } ≤
      p.work heaviest + term.expr.work heaviest := by
  simp only [work, sum, totalWeight_concat]
  omega

theorem work_offset (n : DeferredCount) :
    work heaviest { p with offsets := p.offsets ++ [n] } ≤ p.work heaviest + n.work heaviest := by
  simp only [work, sum, totalWeight_concat]
  omega

/-- A limit replaces the one that there may be. -/
theorem work_limit (n : DeferredCount) :
    work heaviest { p with limit := some n } ≤ p.work heaviest + n.work heaviest := by
  simp only [work, sum, Option.toList_some, List.map_cons, List.map_nil, totalWeight_cons,
    totalWeight_nil]
  omega

theorem work_cursor (expr : DeferredFragment) :
    work heaviest { p with cursor := some expr } ≤ p.work heaviest + expr.work heaviest := by
  simp only [work, sum, Option.toList_some, List.map_cons, List.map_nil, totalWeight_cons,
    totalWeight_nil]
  omega

end Pending

namespace Action.Costs

variable {α : Type} {heaviest room cost : Nat} {id : BuilderId}

/-- To check a concern is free. -/
theorem checkLock (c : Concern) : Costs heaviest room 0 id (checkLock c) := by
  apply self.bind_free
  intro b
  exact ite (refuse _) (pure _)

/-- A change behind the check of its concern. -/
theorem register (c : Concern) {change : Builder → Builder}
    (hchange : Builder.Adds heaviest cost change) :
    Costs heaviest room cost id (do Action.checkLock c; Action.update change) :=
  (checkLock c).bind_free fun _ => update hchange

/-- A callback that is registered is work for later. -/
theorem beforeLock (c : Concern) (callback : Callback)
    (hcallback : callback.SetsOnly (Affordable heaviest)) :
    Costs heaviest room (callback.work heaviest) id (beforeLock c callback) := by
  refine register c ⟨fun {b} hb => ?_, fun _ => rfl, fun b => ?_⟩
  · have hqueue : ∀ other ∈ b.callbacks c ++ [callback], other.SetsOnly (Affordable heaviest) :=
      List.forall_mem_append.mpr ⟨hb.callbacks c, List.forall_mem_singleton.mpr hcallback⟩
    exact Builder.setsOnly_setCallbacks hb hqueue
  · have hput := b.work_setCallbacks heaviest c (b.callbacks c ++ [callback])
    rw [queueWork, queueWork, Pending.totalWeight_concat] at hput
    omega

/-- A field costs what its value will cost when it is settled. -/
theorem select (expr : DeferredFragment) (hexpr : expr.SetsOnly (Affordable heaviest))
    (name : String) : Costs heaviest room (expr.work heaviest) id (select expr name) := by
  apply (checkLock .select).bind_free
  intro _
  apply (ofExcept _).bind_free
  intro _
  apply update
  refine .pending (fun p => { p with selects := p.selects ++ [⟨expr, name⟩] })
    (fun p hp => { hp with selects := ?_ }) fun p => p.work_select ⟨expr, name⟩
  exact List.forall_mem_append.mpr ⟨hp.selects, List.forall_mem_singleton.mpr hexpr⟩

/-- The identifiers are ready, so they cost nothing. -/
theorem selectIdentifiers (primaryKey : List String) :
    Costs heaviest room 0 id (selectIdentifiers primaryKey) := by
  apply (checkLock .select).bind_free
  intro _
  apply self.bind_free
  intro b
  apply ite (pure _)
  apply (ofExcept _).bind_free
  intro table
  apply (select (.ready (identifiers table primaryKey)) trivial identifiersAlias).bind_free
  intro _
  exact update (.of_same fun _ => ⟨rfl, rfl, rfl, rfl, rfl⟩)

theorem selectCursor (expr : DeferredFragment) (hexpr : expr.SetsOnly (Affordable heaviest)) :
    Costs heaviest room (expr.work heaviest) id (selectCursor expr) := by
  apply register
  refine .pending (fun p => { p with cursor := some expr })
    (fun p hp => { hp with cursor := ?_ }) fun p => p.work_cursor expr
  rintro _ ⟨⟩
  exact hexpr

theorem join (clause : Fragment) : Costs heaviest room 0 id (join clause) :=
  register .joins (.of_same fun _ => ⟨rfl, rfl, rfl, rfl, rfl⟩)

/-- A where costs what its value will cost when it is settled. -/
theorem filter (expr : DeferredFragment) (hexpr : expr.SetsOnly (Affordable heaviest)) :
    Costs heaviest room (expr.work heaviest) id (filter expr) := by
  apply (checkLock .wheres).bind_free
  intro _
  apply then_free
  · refine update (.pending (fun p => { p with wheres := p.wheres ++ [expr] })
      (fun p hp => { hp with wheres := ?_ }) fun p => p.work_filter expr)
    exact List.forall_mem_append.mpr ⟨hp.wheres, List.forall_mem_singleton.mpr hexpr⟩
  · intro _
    exact read.bind_free fun _ => remember _

theorem bound (condition : Cursor.Bound) (isLower : Bool) :
    Costs heaviest room 0 id (bound condition isLower) := by
  apply register
  cases isLower <;> exact .of_same fun _ => ⟨rfl, rfl, rfl, rfl, rfl⟩

/-- A term costs what its value will cost when it is settled. -/
theorem orderBy (expr : DeferredFragment) (hexpr : expr.SetsOnly (Affordable heaviest))
    (ascending : Bool) (nulls : Option NullsOrder) :
    Costs heaviest room (expr.work heaviest) id (orderBy expr ascending nulls) := by
  apply register
  refine .pending (fun p => { p with orderTerms := p.orderTerms ++ [⟨expr, ascending, nulls⟩] })
    (fun p hp => { hp with orderTerms := ?_ }) fun p => p.work_orderBy ⟨expr, ascending, nulls⟩
  exact List.forall_mem_append.mpr ⟨hp.orderTerms, List.forall_mem_singleton.mpr hexpr⟩

theorem setOrderUnique : Costs heaviest room 0 id setOrderUnique :=
  register .uniqueness (.of_same fun _ => ⟨rfl, rfl, rfl, rfl, rfl⟩)

/-- A change that may also be refused for what the builder holds. -/
theorem register_or (c : Concern) {refused : Builder → Prop} [DecidablePred refused] {e : Error}
    {change : Builder → Builder} (hchange : Builder.Adds heaviest cost change) :
    Costs heaviest room cost id (do
      Action.checkLock c
      let b ← Action.self
      if refused b then Action.refuse e
      Action.update change) := by
  apply (checkLock c).bind_free
  intro _
  apply self.bind_free
  intro b
  exact refuse_or fun _ => update hchange

/-- A limit that is refused costs nothing, and one that is taken costs its value. -/
theorem limit (n : DeferredCount) (hn : n.SetsOnly (Affordable heaviest)) :
    Costs heaviest room (n.work heaviest) id (limit n) := by
  apply register_or
  refine .pending (fun p => { p with limit := some n })
    (fun p hp => { hp with limit := ?_ }) fun p => p.work_limit n
  rintro _ ⟨⟩
  exact hn

theorem offset (n : DeferredCount) (hn : n.SetsOnly (Affordable heaviest)) :
    Costs heaviest room (n.work heaviest) id (offset n) := by
  apply register
  refine .pending (fun p => { p with offsets := p.offsets ++ [n] })
    (fun p hp => { hp with offsets := ?_ }) fun p => p.work_offset n
  exact List.forall_mem_append.mpr ⟨hp.offsets, List.forall_mem_singleton.mpr hn⟩

theorem first (n : Nat) : Costs heaviest room 0 id (first n) :=
  register_or .first (.of_same fun _ => ⟨rfl, rfl, rfl, rfl, rfl⟩)

theorem last (n : Nat) : Costs heaviest room 0 id (last n) :=
  register_or .last (.of_same fun _ => ⟨rfl, rfl, rfl, rfl, rfl⟩)

theorem setCursorTag (tag : String) : Costs heaviest room 0 id (setCursorTag tag) :=
  register .cursorTag (.of_same fun _ => ⟨rfl, rfl, rfl, rfl, rfl⟩)

/-- A row source costs nothing until it is locked. -/
theorem registerSource (table : Fragment) (rowAlias : Option Node) :
    Costs heaviest room 0 id (registerSource table rowAlias) := by
  have halias : Costs heaviest room 0 id (aliasOrToken rowAlias) := by
    cases rowAlias with
    | none => exact mintToken.bind_free fun _ => pure _
    | some rowAlias => exact pure _
  apply (checkLock .source).bind_free
  intro _
  apply halias.bind_free
  intro _
  exact update (.of_same fun _ => ⟨rfl, rfl, rfl, rfl, rfl⟩)

/-- A comparator is paid for by the conditions that call it, and so it is free here. -/
theorem registerComparator (comparator : Comparator)
    (hcomparator : comparator.SetsOnly (Affordable heaviest)) :
    Costs heaviest room 0 id (registerComparator comparator) := by
  apply register
  refine .pending (fun p => { p with comparator := some comparator })
    (fun p hp => { hp with comparator := ?_ }) fun _ => Nat.le_refl _
  rintro _ ⟨⟩
  exact hcomparator

/-- A call adds the work that it registers. -/
theorem register_like {n : Nat} {call call' : Call} (h : call.Like (.costs heaviest) n id call') :
    Costs heaviest room (call.work heaviest) id call.action := by
  cases h with
  | select hexpr name => exact select _ hexpr.setsOnly name
  | selectIdentifiers primaryKey => exact selectIdentifiers primaryKey
  | selectCursor hexpr => exact selectCursor _ hexpr.setsOnly
  | join _ => exact join _
  | filter hexpr => exact filter _ hexpr.setsOnly
  | bound _ isLower => exact bound _ isLower
  | orderBy hexpr ascending nulls => exact orderBy _ hexpr.setsOnly ascending nulls
  | setOrderUnique => exact setOrderUnique
  | limit hcount => exact limit _ hcount.setsOnly
  | offset hcount => exact offset _ hcount.setsOnly
  | first count => exact first count
  | last count => exact last count
  | setCursorTag tag => exact setCursorTag tag
  | beforeLock c hcallback => exact beforeLock c _ hcallback.setsOnly

theorem childAnswer (name : String) : Costs heaviest room 0 id (childAnswer name) := by
  apply self.bind_free
  intro b
  apply (ofExcept _).bind_free
  intro child
  exact get.bind_free fun _ => pure _

end Action.Costs

/-- A lock that adds nothing to the work of a world, where it has room for it. -/
def Locker.Serves (heaviest room : Nat) (lock : Locker) : Prop :=
  ∀ c id, Action.Costs heaviest room 0 id (lock c)

namespace Locker.Serves

open PageQuery.Action
open PageQuery.Action.Costs (pure self)

variable {heaviest room : Nat} {id : BuilderId} {lock : Locker} (h : lock.Serves heaviest room)

include h

/-- To register a row source and to lock it adds no work. -/
theorem source (table : Fragment) (rowAlias : Option Node) :
    Costs heaviest room 0 id (source lock table rowAlias) :=
  (Costs.registerSource table rowAlias).bind_free fun _ => h .source id

/-- The child that is answered has been made. -/
theorem addChild_spends (name : String) (table : Fragment) (rowAlias : Option Node) {w : World}
    (hlive : id < w.nextBuilder) (hfits : w.Fits heaviest)
    (hroom : w.work heaviest + builderWeight ≤ room) :
    ((addChild lock name table rowAlias).exec id w).1 ≠ .error (.aborted .exhausted) ∧
      w.Spends heaviest builderWeight ((addChild lock name table rowAlias).exec id w).2 ∧
        ∀ child, ((addChild lock name table rowAlias).exec id w).1 = .ok child →
          child < ((addChild lock name table rowAlias).exec id w).2.nextBuilder := by
  rcases exec_addChild_cases lock name table rowAlias id w with
    ⟨e, hrun, -⟩ | ⟨tableAlias, -, -, hrun⟩
  · rw [hrun]
    exact ⟨by simp, (World.Spends.refl hfits).mono (Nat.zero_le _), by simp⟩
  have hspawned : w.Spends heaviest builderWeight
      (w.spawned (.fresh (w.builder id).options (some ⟨id, tableAlias⟩))) := by
    refine hfits.spawned _ ?_
    rintro ref ⟨⟩
    exact hlive
  have hsource : Costs heaviest room 0 w.nextBuilder (Action.source lock table rowAlias) :=
    h.source table rowAlias
  obtain ⟨hhalt, hspends⟩ := hsource (Nat.lt_succ_self _) hspawned.fits
    (hspawned.work_le.trans hroom)
  have hlast := hspawned.trans hspends
  rw [hrun]
  rcases hthere : (Action.source lock table rowAlias).exec w.nextBuilder (w.spawned _) with
    ⟨halt | _, w'⟩
  all_goals rw [hthere] at hhalt hspends hlast
  · exact ⟨by simpa using hhalt, hlast, by simp⟩
  · have hchild : w.nextBuilder < w'.nextBuilder := hspends.grows
    have hlogged : w'.Spends heaviest 0
        { w' with events := w'.events ++ [.childAdded id w.nextBuilder name] } :=
      hlast.fits.same rfl rfl
    have hknown := hlogged.fits.insertChild (hlogged.live (hlast.live hlive)) name hchild
    refine ⟨by simp, (hlast.trans (hlogged.trans hknown)).mono (Nat.le_refl _), ?_⟩
    intro child hresult
    cases hresult
    exact hchild

/-- A child costs its open concerns. -/
theorem addChild (name : String) (table : Fragment) (rowAlias : Option Node) :
    Costs heaviest room builderWeight id (addChild lock name table rowAlias) := by
  intro w hlive hfits hroom
  obtain ⟨hhalt, hspends, -⟩ := h.addChild_spends name table rowAlias hlive hfits hroom
  exact ⟨hhalt, hspends⟩

/-- The field that is selected on the child is ready, and free. -/
theorem addChildSelecting (name : String) (table : Fragment) (rowAlias : Option Node)
    (expr : Fragment) (exprName : String) :
    Costs heaviest room builderWeight id
      (addChildSelecting lock name table rowAlias expr exprName) := by
  intro w hlive hfits hroom
  obtain ⟨hhalt, hspends, hchild⟩ := h.addChild_spends name table rowAlias hlive hfits hroom
  rcases hrun : (Action.addChild lock name table rowAlias).exec id w with ⟨halt | child, w'⟩
  all_goals rw [hrun] at hhalt hspends hchild
  · rw [Action.addChildSelecting, exec_bind_error hrun]
    exact ⟨by simpa using hhalt, hspends⟩
  · have hselect : Costs heaviest room 0 child
        (Action.select (.ready expr) exprName >>= fun _ => Pure.pure child) :=
      (Costs.select (.ready expr) trivial exprName).bind_free fun _ => pure _
    rw [Action.addChildSelecting, exec_bind_ok hrun]
    obtain ⟨hhalt', hspends'⟩ := hselect (hchild child rfl) hspends.fits
      (hspends.work_le.trans hroom)
    exact ⟨hhalt', hspends.trans hspends'⟩

/-- Actions with their costs, with the lock. -/
def logic : Logic where
  toFrame := .costs heaviest
  Holds _ id cost {_} [_] f _ := Costs heaviest room cost id (f lock)
  le _ := .refl _
  op_mono {_ _} _ {_ _} h := h
  pure _ := pure _
  refuse := Costs.refuse
  mono hle h := h.mono hle
  bind {n _ _ _ _ _ _ _ _ _ _ _} hf hg :=
    hf.bind fun a => hg n a a (Nat.le_refl n) (.refl Variation.whole_none a)
  attempt h := h.attempt
  lock c := h c _
  inspect {n _ _ _ _ _ _} hg :=
    self.bind_free fun b => hg n b b (Nat.le_refl n) (.refl Variation.whole_none b)
  identify hg := Costs.read.bind_free hg
  descend name hf := Costs.descend name hf
  childAnswer := Costs.childAnswer
  evaluate _ := Costs.evaluate _
  evaluateNode _ := Costs.evaluateNode _
  log _ := Costs.log _
  record _ _ _ _ _ := Costs.record _
  save name f _ _ := Costs.save name f
  mintToken {_ _} := Costs.mintToken
  builtStatement h :=
    h.then_free fun _ => Costs.read.bind_free fun _ => (Costs.remember _).bind_free fun _ => pure _
  register := Costs.register_like
  registerSource {_ _ table _} _ {rowAlias _} _ _ := Costs.registerSource table rowAlias
  registerComparator h := Costs.registerComparator _ h.setsOnly
  addChild name table _ _ rowAlias _ _ _ := h.addChild name table rowAlias
  addChildSelecting name table _ _ rowAlias _ _ _ expr _ _ exprName :=
    h.addChildSelecting name table rowAlias expr exprName
  op_cases {_ o o'} hop := by
    obtain ⟨rfl, hsets⟩ : o = o' ∧ o.SetsOnly (Affordable heaviest) := hop
    exact .inl hsets.like

theorem cursorExpression : Costs heaviest room 0 id (cursorExpression lock) :=
  h.logic.cursorExpression (n := 0)

theorem totalOffset : Costs heaviest room 0 id (totalOffset lock) := h.logic.totalOffset (n := 0)

/-- A step costs what its operation may leave behind. -/
theorem performStep {s : Step} (hs : s.SetsOnly (Affordable heaviest)) :
    Costs heaviest room (s.work heaviest) id (performStep lock s) := by
  obtain ⟨path, op, optional, save⟩ := s
  exact h.logic.performStep (n := 0) ⟨rfl, ⟨rfl, hs⟩, rfl, rfl⟩

/-- A script adds no more than its work. -/
theorem runSteps {steps : List Step} (hsteps : ScriptSetsOnly (Affordable heaviest) steps) :
    Costs heaviest room (scriptWork heaviest steps) id (runSteps lock steps) :=
  h.logic.runSteps (n := 0) hsteps.like

end Locker.Serves

end PageQuery
