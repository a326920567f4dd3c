import PageQuery.Proofs.Work.Builders

/-!
# Work that actions add

An action adds at most so much to the work of a world, whether it succeeds or is refused, and
where there is room for that it does not run out of fuel.  Main statement: one rule for each way
of putting actions together, so that an operation costs what its script says.
-/

namespace PageQuery

open Sql

namespace World

variable {heaviest cost cost' : Nat} {w middle w' : World} {id : BuilderId}

/-- Builders know only builders that are there, and comparators leave behind at most
`heaviest`. -/
structure Fits (heaviest : Nat) (w : World) : Prop where
  closed : w.Closed
  stored : w.AllStored
  affordable : w.SetsOnly (Affordable heaviest)

/-- What is known of a world behind an action that adds at most `cost` to its work. -/
structure Spends (heaviest cost : Nat) (w w' : World) : Prop where
  fits : w'.Fits heaviest
  grows : w.nextBuilder ≤ w'.nextBuilder
  work_le : w'.work heaviest ≤ w.work heaviest + cost

theorem Spends.refl (hfits : w.Fits heaviest) : w.Spends heaviest 0 w :=
  ⟨hfits, Nat.le_refl _, Nat.le_refl _⟩

/-- Work that is added twice adds up. -/
theorem Spends.trans (hfirst : w.Spends heaviest cost middle)
    (hsecond : middle.Spends heaviest cost' w') : w.Spends heaviest (cost + cost') w' := by
  refine ⟨hsecond.fits, hfirst.grows.trans hsecond.grows, ?_⟩
  have hmiddle := hfirst.work_le
  have hlast := hsecond.work_le
  omega

/-- A bound on what is spent may be raised. -/
theorem Spends.mono (hspends : w.Spends heaviest cost w') (hle : cost ≤ cost') :
    w.Spends heaviest cost' w' :=
  ⟨hspends.fits, hspends.grows, hspends.work_le.trans (Nat.add_le_add_left hle _)⟩

/-- A builder is still there. -/
theorem Spends.live (hspends : w.Spends heaviest cost w') (hlive : id < w.nextBuilder) :
    id < w'.nextBuilder :=
  hlive.trans_le hspends.grows

/-- What is reported, saved and remembered is no work. -/
theorem Fits.same (hfits : w.Fits heaviest) (hbuilders : w'.builders = w.builders)
    (hnext : w'.nextBuilder = w.nextBuilder) : w.Spends heaviest 0 w' := by
  have hbuilder (id : BuilderId) : w'.builder id = w.builder id := by
    rw [builder, builder, hbuilders]
  refine ⟨⟨fun id => ?_, fun id hid => ?_, fun id => ?_⟩, hnext.ge, ?_⟩
  · rw [hbuilder, hnext]
    exact hfits.closed id
  · rw [Stored, hbuilders]
    exact hfits.stored id (hnext ▸ hid)
  · rw [hbuilder]
    exact hfits.affordable id
  · rw [work, work, hbuilders, Nat.add_zero]

/-- To put a builder in place of another one adds what it has more work. -/
theorem Fits.setBuilder (hfits : w.Fits heaviest) (hlive : id < w.nextBuilder) {b : Builder}
    (hsets : b.SetsOnly (Affordable heaviest))
    (hchildren : ∀ entry ∈ b.children, entry.2 < w.nextBuilder)
    (hwork : b.work heaviest ≤ (w.builder id).work heaviest + cost) :
    w.Spends heaviest cost (w.setBuilder id b) := by
  refine ⟨⟨hfits.closed.setBuilder id hchildren, fun other hother => ?_,
    hfits.affordable.setBuilder hsets⟩, Nat.le_refl _, ?_⟩
  · exact (hfits.stored other hother).setBuilder id b
  · have hput := work_setBuilder heaviest (hfits.stored id hlive) b
    omega

/-- A change of a builder adds to the world what it adds to the builder. -/
theorem Fits.update (hfits : w.Fits heaviest) (hlive : id < w.nextBuilder)
    {change : Builder → Builder} (hchange : Builder.Adds heaviest cost change) :
    w.Spends heaviest cost (w.setBuilder id (change (w.builder id))) := by
  refine hfits.setBuilder hlive (hchange.setsOnly (hfits.affordable id)) ?_ (hchange.work_le _)
  rw [hchange.children]
  exact hfits.closed id

/-- A new builder has all its concerns before it. -/
theorem Fits.spawned (hfits : w.Fits heaviest) (options : Options) {parent : Option ParentRef}
    (holder : ∀ ref, parent = some ref → ref.id < w.nextBuilder) :
    w.Spends heaviest builderWeight (w.spawned (.fresh options parent)) := by
  have hspawn : w.Change (w.spawned (.fresh options parent)) := .spawn options parent holder
  refine ⟨⟨hspawn.closed hfits.closed, stable_allStored hspawn hfits.stored, ?_⟩,
    hspawn.nextBuilder_le, ?_⟩
  · exact hfits.affordable.setBuilder (Builder.setsOnly_fresh _ _)
  · exact (work_spawned_le w _).trans_eq (congrArg _ (Builder.work_fresh _ _))

/-- To know a child is no work. -/
theorem Fits.insertChild (hfits : w.Fits heaviest) (hlive : id < w.nextBuilder) (name : String)
    {child : BuilderId} (hchild : child < w.nextBuilder) :
    w.Spends heaviest 0 (w.setBuilder id { w.builder id with
      children := Builder.insertChild name child (w.builder id).children }) := by
  refine hfits.setBuilder hlive { hfits.affordable id with } (fun entry hentry => ?_) ?_
  · rcases mem_insertChild hentry with hnew | hold
    · exact hnew ▸ hchild
    · exact hfits.closed id entry hold
  · exact Nat.le_add_right_of_le (Builder.work_of_same (b := w.builder id) rfl rfl rfl).le

end World

/-! Expressions -/

theorem mapError_ne_exhausted {α : Type} (value : Except Error α) :
    value.mapError Halt.refused ≠ .error (.aborted .exhausted) := by
  cases value <;> exact nofun

/-- Expressions need no fuel, one behind another. -/
theorem bind_ne_exhausted {α β : Type} {value : Except Halt α} {next : α → Except Halt β}
    (hvalue : value ≠ .error (.aborted .exhausted))
    (hnext : ∀ a, next a ≠ .error (.aborted .exhausted)) :
    value >>= next ≠ .error (.aborted .exhausted) := by
  cases value with
  | ok a => exact hnext a
  | error halt => exact fun h => hvalue (congrArg Except.error (Except.error.inj h))

namespace Expr

mutual

/-- An expression takes no fuel. -/
theorem eval_ne_exhausted (scope : Scope) (expr : Expr) :
    expr.eval scope ≠ .error (.aborted .exhausted) := by
  cases expr with
  | text s => exact nofun
  | node n => exact bind_ne_exhausted (mapError_ne_exhausted _) fun _ => nofun
  | column n name => exact bind_ne_exhausted (mapError_ne_exhausted _) fun _ => nofun
  | sequence items => exact bind_ne_exhausted (evalAll_ne_exhausted scope items) fun _ => nofun
  | join items separator =>
      exact bind_ne_exhausted (evalAll_ne_exhausted scope items) fun _ => nofun
  | parens inner => exact bind_ne_exhausted (eval_ne_exhausted scope inner) fun _ => nofun
  | template segments holes =>
      exact bind_ne_exhausted (evalAll_ne_exhausted scope holes) fun _ => mapError_ne_exhausted _
  | saved name =>
      rw [eval]
      cases scope.saved.lookup name <;> exact nofun

theorem evalAll_ne_exhausted (scope : Scope) (items : List Expr) :
    evalAll scope items ≠ .error (.aborted .exhausted) := by
  cases items with
  | nil => exact nofun
  | cons item rest =>
      exact bind_ne_exhausted (eval_ne_exhausted scope item) fun _ =>
        bind_ne_exhausted (evalAll_ne_exhausted scope rest) fun _ => nofun

end

end Expr

namespace Action

variable {α β γ : Type} {heaviest room cost cost' : Nat} {id : BuilderId}

/-- Where there is room for `cost` more, the action does not run out of fuel, and adds no more
than that to the work of the world. -/
def Costs (heaviest room cost : Nat) (id : BuilderId) (action : Action α) : Prop :=
  ∀ ⦃w : World⦄, id < w.nextBuilder → w.Fits heaviest → w.work heaviest + cost ≤ room →
    (action.exec id w).1 ≠ .error (.aborted .exhausted) ∧ w.Spends heaviest cost (action.exec id w).2

namespace Costs

/-- An action may be said to cost more than it does. -/
theorem mono {action : Action α} (haction : Costs heaviest room cost id action)
    (hle : cost ≤ cost') : Costs heaviest room cost' id action := by
  intro w hlive hfits hroom
  obtain ⟨hhalt, hspends⟩ := haction hlive hfits ((Nat.add_le_add_left hle _).trans hroom)
  exact ⟨hhalt, hspends.mono hle⟩

/-- There may be less room. -/
theorem within_room {room' : Nat} {action : Action α} (haction : Costs heaviest room cost id action)
    (hle : room' ≤ room) : Costs heaviest room' cost id action :=
  fun _ hlive hfits hroom => haction hlive hfits (hroom.trans hle)

/-- An action that leaves the builders as they are adds no work. -/
theorem of_same {action : Action α}
    (hsame : ∀ w, (action.exec id w).1 ≠ .error (.aborted .exhausted) ∧
      (action.exec id w).2.builders = w.builders ∧
      (action.exec id w).2.nextBuilder = w.nextBuilder) : Costs heaviest room 0 id action :=
  fun w _ hfits _ => ⟨(hsame w).1, hfits.same (hsame w).2.1 (hsame w).2.2⟩

/-- A question adds no work. -/
theorem of_outcome {action : Action α} {f : World → Except Error α}
    (hexec : ∀ w, action.exec id w = outcome (f w) w) : Costs heaviest room 0 id action := by
  refine of_same fun w => ?_
  rw [hexec]
  exact ⟨mapError_ne_exhausted (f w), rfl, rfl⟩

theorem pure (a : α) : Costs heaviest room 0 id (Pure.pure a : Action α) :=
  of_same fun _ => ⟨nofun, rfl, rfl⟩

theorem refuse (e : Error) : Costs heaviest room 0 id (refuse e : Action α) :=
  of_same fun _ => ⟨nofun, rfl, rfl⟩

theorem self : Costs heaviest room 0 id self := of_same fun _ => ⟨nofun, rfl, rfl⟩

theorem read : Costs heaviest room 0 id (MonadReader.read : Action BuilderId) :=
  of_same fun _ => ⟨nofun, rfl, rfl⟩

theorem get : Costs heaviest room 0 id (MonadState.get : Action World) :=
  of_same fun _ => ⟨nofun, rfl, rfl⟩

theorem log (event : Event) : Costs heaviest room 0 id (log event) :=
  of_same fun _ => ⟨nofun, rfl, rfl⟩

theorem record (entry : Entry) : Costs heaviest room 0 id (record entry) :=
  of_same fun _ => ⟨nofun, rfl, rfl⟩

theorem remember (moment : Moment) : Costs heaviest room 0 id (remember moment) :=
  of_same fun _ => ⟨nofun, rfl, rfl⟩

theorem save (name : String) (f : Fragment) : Costs heaviest room 0 id (save name f) :=
  of_same fun _ => ⟨nofun, rfl, rfl⟩

theorem mintToken : Costs heaviest room 0 id mintToken := of_same fun _ => ⟨nofun, rfl, rfl⟩

theorem ofExcept (value : Except Error α) : Costs heaviest room 0 id (ofExcept value) :=
  of_outcome fun _ => exec_ofExcept value

/-- Expressions are evaluated without fuel. -/
theorem evaluate (expr : Expr) : Costs heaviest room 0 id (evaluate expr) := by
  refine of_same fun w => ?_
  rw [exec_evaluate]
  exact ⟨expr.eval_ne_exhausted _, rfl, rfl⟩

theorem evaluateNode (node : NodeExpr) : Costs heaviest room 0 id (evaluateNode node) :=
  of_outcome fun _ => exec_evaluateNode node

/-- A change costs what it adds to the builder. -/
theorem update {change : Builder → Builder} (hchange : Builder.Adds heaviest cost change) :
    Costs heaviest room cost id (update change) :=
  fun _ hlive hfits _ => ⟨nofun, hfits.update hlive hchange⟩

/-- The costs of two actions add up, also where the first one is refused. -/
theorem bind {action : Action α} {next : α → Action β}
    (hfirst : Costs heaviest room cost id action)
    (hnext : ∀ a, Costs heaviest room cost' id (next a)) :
    Costs heaviest room (cost + cost') id (action >>= next) := by
  intro w hlive hfits hroom
  obtain ⟨hhalt, hspends⟩ := hfirst hlive hfits (by omega)
  rcases hrun : action.exec id w with ⟨halt | a, middle⟩
  · rw [hrun] at hhalt hspends
    rw [exec_bind_error hrun]
    exact ⟨by simpa using hhalt, hspends.mono (Nat.le_add_right _ _)⟩
  · rw [hrun] at hspends
    rw [exec_bind_ok hrun]
    have hmiddle := hspends.work_le
    obtain ⟨hhalt', hspends'⟩ := hnext a (hspends.live hlive) hspends.fits (by omega)
    exact ⟨hhalt', hspends.trans hspends'⟩

/-- The first action adds nothing. -/
theorem bind_free {action : Action α} {next : α → Action β}
    (hfirst : Costs heaviest room 0 id action)
    (hnext : ∀ a, Costs heaviest room cost id (next a)) :
    Costs heaviest room cost id (action >>= next) :=
  (hfirst.bind hnext).mono (Nat.zero_add cost).le

/-- The second action adds nothing. -/
theorem then_free {action : Action α} {next : α → Action β}
    (hfirst : Costs heaviest room cost id action)
    (hnext : ∀ a, Costs heaviest room 0 id (next a)) :
    Costs heaviest room cost id (action >>= next) :=
  hfirst.bind hnext

/-- What a builder holds is affordable when it is looked at. -/
theorem inspect {next : Builder → Action α}
    (hnext : ∀ b, b.SetsOnly (Affordable heaviest) → Costs heaviest room cost id (next b)) :
    Costs heaviest room cost id (Action.self >>= next) :=
  fun _ hlive hfits hroom => hnext _ (hfits.affordable id) hlive hfits hroom

/-- Work that is taken out of a builder pays for what follows. -/
theorem paid {action : Action α} (haction : Costs heaviest room cost id action) {w : World}
    (hlive : id < w.nextBuilder) (hfits : w.Fits heaviest) {b : Builder} {paid : Nat}
    (hsets : b.SetsOnly (Affordable heaviest)) (hchildren : b.children = (w.builder id).children)
    (hpaid : b.work heaviest + paid ≤ (w.builder id).work heaviest) (hcost : cost ≤ paid)
    (hroom : w.work heaviest + cost ≤ room + paid) :
    (action.exec id (w.setBuilder id b)).1 ≠ .error (.aborted .exhausted) ∧
      w.Spends heaviest 0 (action.exec id (w.setBuilder id b)).2 := by
  have hput := World.work_setBuilder heaviest (hfits.stored id hlive) b
  have htaken : w.Spends heaviest 0 (w.setBuilder id b) :=
    hfits.setBuilder hlive hsets (hchildren ▸ hfits.closed id) (by omega)
  obtain ⟨hhalt, hspends⟩ := haction (htaken.live hlive) htaken.fits (by omega)
  refine ⟨hhalt, hspends.fits, htaken.grows.trans hspends.grows, hspends.work_le.trans ?_⟩
  omega

/-- Values that are taken out of a builder pay for what follows. -/
theorem take (change : Pending → Pending) (part : Pending → Nat) {next : Builder → Action α}
    (hsets : ∀ p, p.SetsOnly (Affordable heaviest) → (change p).SetsOnly (Affordable heaviest))
    (hwork : ∀ p, (change p).work heaviest + part p ≤ p.work heaviest)
    (hnext : ∀ b, b.SetsOnly (Affordable heaviest) →
      Costs heaviest room (part b.pending) id (next b)) :
    Costs heaviest room 0 id (do
      let b ← Action.self
      Action.update fun b => { b with pending := change b.pending }
      next b) := by
  intro w hlive hfits hroom
  have hb := hfits.affordable id
  have hpaid : Builder.work heaviest
      { w.builder id with pending := change (w.builder id).pending } +
        part (w.builder id).pending ≤ (w.builder id).work heaviest :=
    (Nat.add_assoc ..).trans_le (Nat.add_le_add_left (hwork _) _)
  exact (hnext _ hb).paid hlive hfits { hb with pending := hsets _ hb.pending } rfl hpaid
    (Nat.le_refl _) (Nat.add_le_add_right hroom _)

theorem ite {p : Prop} [Decidable p] {yes no : Action α} (hyes : Costs heaviest room cost id yes)
    (hno : Costs heaviest room cost id no) :
    Costs heaviest room cost id (if p then yes else no) := by
  split
  · exact hyes
  · exact hno

/-- A guard in front of an action is free. -/
theorem refuse_or {p : Prop} [Decidable p] {e : Error} {next : Unit → Action α}
    (hnext : ∀ _ : Unit, Costs heaviest room cost id (next ())) :
    Costs heaviest room cost id (if p then Action.refuse e >>= next else next ()) :=
  ite ((refuse e).bind_free hnext) (hnext ())

/-- An error that is caught has cost what was done before it. -/
theorem attempt {action : Action α} (haction : Costs heaviest room cost id action) :
    Costs heaviest room cost id (attempt action) := by
  intro w hlive hfits hroom
  obtain ⟨hhalt, hspends⟩ := haction hlive hfits hroom
  rw [exec_attempt]
  rcases hrun : action.exec id w with ⟨(e | reason) | a, w'⟩
  all_goals rw [hrun] at hhalt hspends
  · exact ⟨nofun, hspends⟩
  · exact ⟨by simpa using hhalt, hspends⟩
  · exact ⟨nofun, hspends⟩

theorem forM_option {f : γ → Action PUnit} (item : Option γ)
    (hitem : ∀ item, Costs heaviest room cost id (f item)) :
    Costs heaviest room (item.toList.length * cost) id (item.forM f) := by
  cases item with
  | none => exact (pure _).mono (Nat.zero_le _)
  | some item => exact (hitem item).mono (Nat.one_mul cost).ge

/-- The costs for all items add up. -/
theorem mapM {f : γ → Action α} {price : γ → Nat} (items : List γ)
    (hitem : ∀ item ∈ items, Costs heaviest room (price item) id (f item)) :
    Costs heaviest room (totalWeight (items.map price)) id (items.mapM f) := by
  induction items with
  | nil => exact pure _
  | cons item rest ih =>
      obtain ⟨hfirst, hrest⟩ := List.forall_mem_cons.mp hitem
      rw [List.mapM_cons]
      exact hfirst.bind fun _ => (ih hrest).bind fun _ => pure _

theorem mapM_option {f : γ → Action α} {price : γ → Nat} (item : Option γ)
    (hitem : ∀ a ∈ item, Costs heaviest room (price a) id (f a)) :
    Costs heaviest room (totalWeight (item.toList.map price)) id (item.mapM f) := by
  cases item with
  | none => exact pure _
  | some item => exact (hitem item rfl).bind fun _ => pure _

/-- An action on a child costs what it costs there. -/
theorem descend {action : Action α} (name : String)
    (haction : ∀ id, Costs heaviest room cost id action) :
    Costs heaviest room cost id (follow [name] action) := by
  intro w hlive hfits hroom
  rw [exec_follow_cons]
  cases hchild : (w.builder id).child name with
  | error e => exact ⟨nofun, (World.Spends.refl hfits).mono (Nat.zero_le _)⟩
  | ok child => exact haction child (hfits.closed.child_lt hchild) hfits hroom

end Costs

end Action

end PageQuery
