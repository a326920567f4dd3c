import PageQuery.Proofs.Run.Change
import PageQuery.Proofs.Run.Finalized

/-!
# What operations preserve

Every operation is made of elementary changes and of locks.  So a property of worlds
that the elementary changes keep, and that the locks keep, is kept by every operation,
also by one that is refused half-way.  An action that runs out of fuel promises
nothing.
-/

namespace PageQuery

open Sql

/-- What is known of a world behind another one. -/
structure World.Kept (P : World → Prop) (w w' : World) : Prop where
  holds : P w'
  closed : w'.Closed
  grows : w.nextBuilder ≤ w'.nextBuilder

theorem World.Kept.refl {P : World → Prop} {w : World} (hclosed : w.Closed) (hholds : P w) :
    w.Kept P w :=
  ⟨hholds, hclosed, Nat.le_refl _⟩

/-- What is kept step by step is kept. -/
theorem World.Kept.trans {P Q : World → Prop} {w middle w' : World}
    (hfirst : w.Kept P middle) (hsecond : middle.Kept Q w') : w.Kept Q w' :=
  ⟨hsecond.holds, hsecond.closed, Nat.le_trans hfirst.grows hsecond.grows⟩

/-- What is kept may be weakened. -/
theorem World.Kept.imp {P Q : World → Prop} {w w' : World} (hkept : w.Kept P w')
    (himp : P w' → Q w') : w.Kept Q w' :=
  ⟨himp hkept.holds, hkept.closed, hkept.grows⟩

/-- A builder is still there. -/
theorem World.Kept.live {P : World → Prop} {w w' : World} {id : BuilderId} (hkept : w.Kept P w')
    (hlive : id < w.nextBuilder) : id < w'.nextBuilder :=
  Nat.lt_of_lt_of_le hlive hkept.grows

/-- A property that every elementary change keeps. -/
def World.Stable (P : World → Prop) : Prop :=
  ∀ ⦃w w' : World⦄, w.Change w' → P w → P w'

/-- A stable property is kept by every run of changes. -/
theorem World.Stable.kept {P : World → Prop} (hstable : World.Stable P) {w w' : World}
    (hevolves : w.Evolves w') (hclosed : w.Closed) (hholds : P w) : w.Kept P w' := by
  refine ⟨?_, hevolves.closed hclosed, hevolves.nextBuilder_le⟩
  induction hevolves with
  | refl => exact hholds
  | tail _ hchange ih => exact hstable hchange ih

namespace Action

/-- An action keeps a property on a builder that exists. -/
def Preserves {α : Type} (P : World → Prop) (id : BuilderId) (action : Action α) : Prop :=
  ∀ ⦃w : World⦄, id < w.nextBuilder → w.Closed → P w →
    Completes (action.exec id w).1 → w.Kept P (action.exec id w).2

namespace Preserves

variable {α β γ : Type} {P : World → Prop} {id : BuilderId}

/-- What an action preserves holds behind its answer. -/
theorem kept {action : Action α} (haction : Preserves P id action) {w w' : World} {a : α}
    (hlive : id < w.nextBuilder) (hclosed : w.Closed) (hholds : P w)
    (hrun : action.exec id w = (.ok a, w')) : w.Kept P w' := by
  have hkept := haction hlive hclosed hholds
  rw [hrun] at hkept
  exact hkept (by simp)

/-- An action behind one that has kept the property. -/
theorem kept_behind {action : Action α} (haction : Preserves P id action) {w middle w' : World}
    {a : α} (hlive : id < w.nextBuilder) (hkept : w.Kept P middle)
    (hrun : action.exec id middle = (.ok a, w')) : w.Kept P w' :=
  hkept.trans (haction.kept (hkept.live hlive) hkept.closed hkept.holds hrun)

/-- An action that only asks keeps everything. -/
theorem of_same {action : Action α} (hsame : ∀ w, (action.exec id w).2 = w) :
    Preserves P id action := by
  intro w _ hclosed hholds _
  rw [hsame]
  exact World.Kept.refl hclosed hholds

/-- An action that changes the world step by step keeps what is stable. -/
theorem of_evolves {action : Action α} (hstable : World.Stable P)
    (hevolves : ∀ w : World, id < w.nextBuilder → w.Evolves (action.exec id w).2) :
    Preserves P id action := by
  intro w hlive hclosed hholds _
  exact hstable.kept (hevolves w hlive) hclosed hholds

/-- Two properties that are kept apart are kept together. -/
theorem and {action : Action α} {Q : World → Prop} (hP : Preserves P id action)
    (hQ : Preserves Q id action) : Preserves (fun w => P w ∧ Q w) id action := by
  intro w hlive hclosed hholds hhalt
  have hkept := hP hlive hclosed hholds.1 hhalt
  exact ⟨⟨hkept.holds, (hQ hlive hclosed hholds.2 hhalt).holds⟩, hkept.closed, hkept.grows⟩

theorem pure (a : α) : Preserves P id (Pure.pure a : Action α) := of_same fun _ => rfl

theorem refuse (e : Error) : Preserves P id (refuse e : Action α) := of_same fun _ => rfl

theorem self : Preserves P id self := of_same fun _ => rfl

theorem get : Preserves P id (MonadState.get : Action World) := of_same fun _ => rfl

theorem ofExcept (value : Except Error α) : Preserves P id (ofExcept value) :=
  of_same fun _ => by rw [exec_ofExcept]; rfl

theorem evaluate (expr : Expr) : Preserves P id (evaluate expr) :=
  of_same fun _ => by rw [exec_evaluate]

theorem evaluateNode (node : NodeExpr) : Preserves P id (evaluateNode node) :=
  of_same fun _ => by rw [exec_evaluateNode]

/-- Once the first of two actions has established a property, the second one has only
to keep it. -/
theorem bind_of_kept {action : Action α} {next : α → Action β} {w : World}
    (hlive : id < w.nextBuilder)
    (hfirst : Completes (action.exec id w).1 → w.Kept P (action.exec id w).2)
    (hnext : ∀ a, Preserves P id (next a))
    (hhalt : Completes ((action >>= next).exec id w).1) :
    w.Kept P ((action >>= next).exec id w).2 := by
  rcases hrun : action.exec id w with ⟨halt | a, middle⟩
  · rw [exec_bind_error hrun] at hhalt ⊢
    rw [hrun] at hfirst
    exact hfirst hhalt.error
  · rw [exec_bind_ok hrun] at hhalt ⊢
    rw [hrun] at hfirst
    have hmiddle := hfirst (completes_ok a)
    exact hmiddle.trans (hnext a (hmiddle.live hlive) hmiddle.closed
      hmiddle.holds hhalt)

/-- Actions keep a property one behind the other. -/
theorem bind {action : Action α} {next : α → Action β} (hfirst : Preserves P id action)
    (hnext : ∀ a, Preserves P id (next a)) : Preserves P id (action >>= next) := by
  intro w hlive hclosed hholds hhalt
  exact bind_of_kept hlive (hfirst hlive hclosed hholds) hnext hhalt

/-- The second of two actions has only to keep the property for what the first one gives. -/
theorem bind_result {action : Action α} {next : α → Action β} (hfirst : Preserves P id action)
    (hnext : ∀ a w w', action.exec id w = (.ok a, w') → Preserves P id (next a)) :
    Preserves P id (action >>= next) := by
  intro w hlive hclosed hholds hhalt
  have hmiddle := hfirst hlive hclosed hholds
  rcases hrun : action.exec id w with ⟨halt | a, middle⟩
  · rw [exec_bind_error hrun] at hhalt ⊢
    rw [hrun] at hmiddle
    exact hmiddle hhalt.error
  · rw [exec_bind_ok hrun] at hhalt ⊢
    rw [hrun] at hmiddle
    have hkept := hmiddle (completes_ok a)
    exact hkept.trans (hnext a w middle hrun (hkept.live hlive) hkept.closed
      hkept.holds hhalt)

theorem read_bind {next : BuilderId → Action α} (hnext : Preserves P id (next id)) :
    Preserves P id (MonadReader.read >>= next) := hnext

theorem ite {p : Prop} [Decidable p] {yes no : Action α} (hyes : Preserves P id yes)
    (hno : Preserves P id no) : Preserves P id (if p then yes else no) := by
  split
  · exact hyes
  · exact hno

/-- A property is kept also where an error is caught. -/
theorem attempt {action : Action α} (haction : Preserves P id action) :
    Preserves P id (attempt action) := by
  intro w hlive hclosed hholds hhalt
  rw [exec_attempt] at hhalt ⊢
  have hkept := haction hlive hclosed hholds
  rcases hrun : action.exec id w with ⟨(e | _) | a, w'⟩
  all_goals rw [hrun] at hhalt hkept
  · exact hkept (completes_refused e)
  · exact absurd hhalt (not_completes_aborted _)
  · exact hkept (completes_ok a)

theorem forM_option {f : γ → Action PUnit} (item : Option γ)
    (hitem : ∀ item, Preserves P id (f item)) : Preserves P id (item.forM f) := by
  cases item with
  | none => exact pure _
  | some item => exact hitem item

/-- A property is kept item by item. -/
theorem mapM {f : γ → Action α} (items : List γ)
    (hitem : ∀ item, Preserves P id (f item)) : Preserves P id (items.mapM f) := by
  induction items with
  | nil => exact pure _
  | cons item rest ih =>
      rw [List.mapM_cons]
      exact (hitem item).bind fun _ => ih.bind fun _ => pure _

theorem mapM_option {f : γ → Action α} (item : Option γ)
    (hitem : ∀ item, Preserves P id (f item)) : Preserves P id (item.mapM f) := by
  cases item with
  | none => exact pure _
  | some item => exact (hitem item).bind fun _ => pure _

/-- A path leads to a builder that is there, since the world is closed. -/
theorem follow {action : Action α} (haction : ∀ id, Preserves P id action)
    (names : List String) : Preserves P id (follow names action) := by
  induction names generalizing id with
  | nil => exact haction id
  | cons name names ih =>
      intro w hlive hclosed hholds hhalt
      rw [exec_follow_cons] at hhalt ⊢
      cases hchild : (w.builder id).child name with
      | error e => exact World.Kept.refl hclosed hholds
      | ok child =>
          rw [hchild] at hhalt
          exact ih (hclosed.child_lt hchild) hclosed hholds hhalt

end Preserves

end Action

end PageQuery
