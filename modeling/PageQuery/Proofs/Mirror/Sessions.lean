import PageQuery.Proofs.Mirror.Locking
import PageQuery.Proofs.Run.Path

/-!
# Sessions mirror each other

Alike worlds have the same budget for a step.  So the worlds behind a step are alike, and by
induction those behind a script.  A step on a builder that its path leads to is the operation
of the step on that builder.
-/

namespace PageQuery

open Sql

variable {R : Json → Json → Prop} {own : BuilderId}

/-! Budgets -/

theorem map_eq {α β : Type} {S : α → α → Prop} {items items' : List α} {f : α → β}
    (h : List.Forall₂ S items items') (hf : ∀ a a', S a a' → f a' = f a) :
    items'.map f = items.map f := by
  induction h with
  | nil => rfl
  | cons hitem _ ih => rw [List.map_cons, List.map_cons, hf _ _ hitem, ih]

namespace Frame

variable {id : BuilderId}

/-- What a script weighs does not depend on the values that are bound in fragments. -/
theorem weight_eq {expr expr' : DeferredFragment} (h : expr.Like (.mirror R own) 0 expr')
    (heaviest : Nat) : expr'.weight heaviest = expr.weight heaviest := by
  cases h with
  | ready => rfl
  | lazy hsteps =>
      obtain rfl := hsteps.eq Eq.symm
      rfl

theorem heaviestComparator_eq {expr expr' : DeferredFragment}
    (h : expr.Like (.mirror R own) 0 expr') :
    expr'.heaviestComparator = expr.heaviestComparator := by
  cases h with
  | ready => rfl
  | lazy hsteps =>
      obtain rfl := hsteps.eq Eq.symm
      rfl

/-- What a callback weighs does not depend on the values in its cursor. -/
theorem callback_weight_eq {callback callback' : Callback}
    (h : callback.Like (.mirror R own) 0 id callback') (heaviest : Nat) :
    callback'.weight heaviest = callback.weight heaviest := by
  cases h with
  | same | cursor => rfl
  | script hsteps =>
      obtain rfl := hsteps.eq Eq.symm
      rfl

theorem callback_heaviestComparator_eq {callback callback' : Callback}
    (h : callback.Like (.mirror R own) 0 id callback') :
    callback'.heaviestComparator = callback.heaviestComparator := by
  cases h with
  | same | cursor => rfl
  | script hsteps =>
      obtain rfl := hsteps.eq Eq.symm
      rfl

end Frame

theorem Pending.Alike.sum_eq {p p' : Pending} (h : p.Alike R own p')
    {fragment : DeferredFragment → Nat}
    (hfragment : ∀ f f' : DeferredFragment, f.Like (.mirror R own) 0 f' → fragment f' = fragment f)
    (count : DeferredCount → Nat) : p'.sum fragment count = p.sum fragment count := by
  have hcursor : (p'.cursor.toList.map fragment) = p.cursor.toList.map fragment := by
    have hcursor := h.cursor
    generalize p.cursor = cursor, p'.cursor = cursor' at hcursor ⊢
    cases hcursor with
    | none => rfl
    | some hf => exact congrArg (fun n => [n]) (hfragment _ _ hf)
  rw [Pending.sum, Pending.sum, h.limit, h.offsets, hcursor, map_eq h.wheres hfragment,
    map_eq h.selects fun _ _ hfield => hfragment _ _ hfield.expr,
    map_eq h.orderTerms fun _ _ hterm => hfragment _ _ hterm.expr]

namespace Builder.Alike

variable {id : BuilderId} {b b' : Builder} (h : b.Alike R own id b')

include h

/-- Alike builders weigh the same. -/
theorem weight_eq (heaviest : Nat) : b'.weight heaviest = b.weight heaviest := by
  have hcallbacks (c : Concern) : (b'.callbacks c).map (Callback.weight heaviest) =
      (b.callbacks c).map (Callback.weight heaviest) :=
    map_eq (h.callbacks c) fun _ _ hcallback => Frame.callback_weight_eq hcallback heaviest
  have hpending : b'.pending.weight heaviest = b.pending.weight heaviest :=
    h.pending.sum_eq (fun _ _ hf => Frame.weight_eq hf heaviest) _
  rw [Builder.weight, Builder.weight, h.locked, hpending]
  simp only [hcallbacks]

theorem heaviestComparator_eq : b'.heaviestComparator = b.heaviestComparator := by
  have hcallbacks (c : Concern) : (b'.callbacks c).map Callback.heaviestComparator =
      (b.callbacks c).map Callback.heaviestComparator :=
    map_eq (h.callbacks c) fun _ _ hcallback => Frame.callback_heaviestComparator_eq hcallback
  have hpending : b'.pending.heaviestComparator = b.pending.heaviestComparator := by
    rw [Pending.heaviestComparator, Pending.heaviestComparator, h.pending.comparator,
      h.pending.sum_eq fun _ _ hf => Frame.heaviestComparator_eq hf]
  rw [Builder.heaviestComparator, Builder.heaviestComparator, h.comparator, hpending]
  simp only [hcallbacks]

end Builder.Alike

namespace World

variable {w w' : World}

/-- Both runs give a step the same fuel. -/
theorem Alike.budget_eq (h : w.Alike R own w') (s : Step) : w'.budget s = w.budget s := by
  have hheaviest : w'.heaviestComparator = w.heaviestComparator := by
    rw [heaviestComparator, heaviestComparator, map_eq h.builders fun _ _ hentry =>
      hentry.2.heaviestComparator_eq]
  have hweight (heaviest : Nat) : w'.weight heaviest = w.weight heaviest := by
    rw [weight, weight, map_eq h.builders fun _ _ hentry => hentry.2.weight_eq heaviest]
  rw [budget, budget, hheaviest, hweight]

/-- Reports are not compared. -/
theorem Alike.quiet (h : w.Alike R own w') : w.quiet.Alike R own w'.quiet := { h with }

/-! Steps -/

theorem alike_answered {α : Type} [PageQuery.Likeness α] {S : Variation}
    {result result' : Except Halt α} (h : PageQuery.Alike S result result') :
    PageQuery.Alike S (answered result) (answered result') := by
  cases h with
  | ok ha => exact .ok (.ok ha)
  | error halt =>
      cases halt with
      | refused e => exact .ok (.error e)
      | aborted reason => exact .error reason

/-- Behind a step and behind its counterpart either the cursors of the builder of interest are
positions, or all is alike, the outcomes of the steps included. -/
def Parallel (R : Json → Json → Prop) (own : BuilderId) (result result' : Report × World) : Prop :=
  result.2.Positional own ∨
    PageQuery.Alike (.values R) result.1.outcome result'.1.outcome ∧ result.2.Alike R own result'.2

/-- Steps are parallel if they are performed by actions that mirror each other. -/
theorem Parallel.of_mirrors {s s' : Step} {action action' : Action Answer}
    (hmirrors : Action.Mirrors R own root action action') (h : w.Alike R own w')
    (hstep : (Action.performStep (Action.lockWith (w.budget s)) s).exec root w.quiet =
      action.exec root w.quiet)
    (hstep' : (Action.performStep (Action.lockWith (w'.budget s')) s').exec root w'.quiet =
      action'.exec root w'.quiet) :
    Parallel R own (w.step s) (w'.step s') := by
  rw [Parallel, step_world, step_world, step_outcome, step_outcome, perform, perform, hstep, hstep']
  exact (hmirrors.follows h.quiet).imp_right (And.imp_left alike_answered)

/-- A step mirrors itself, unless cursors come to be positions. -/
theorem Alike.step (h : w.Alike R own w') (s : Step) : Parallel R own (w.step s) (w'.step s) := by
  refine .of_mirrors ((Action.mirrored_lockWith (w.budget s)).performStep s) h rfl ?_
  rw [h.budget_eq]

/-- A step leaves behind a later world, whatever it answers. -/
theorem later_step (own : BuilderId) (w : World) (s : Step) : w.Later own (w.step s).2 := by
  have hmirrors : Action.Mirrors (fun _ _ => False) own root _ _ :=
    (Action.mirrored_lockWith (w.budget s)).performStep s
  exact ⟨(hmirrors.later w.quiet).grows, (hmirrors.later w.quiet).builder⟩

/-- Any number of steps leave behind a later world. -/
theorem later_after (own : BuilderId) (w : World) (steps : List Step) :
    w.Later own (w.after steps) := by
  induction steps generalizing w with
  | nil => exact .refl w
  | cons s rest ih => exact (later_step own w s).trans (ih (w.step s).2)

/-- The worlds behind a script are alike if those before it are. -/
theorem Alike.after (h : w.Alike R own w') (steps : List Step) :
    (w.after steps).Positional own ∨ (w.after steps).Alike R own (w'.after steps) := by
  induction steps generalizing w w' with
  | nil => exact .inr h
  | cons s rest ih =>
      rcases h.step s with hpositional | ⟨-, hworld⟩
      · exact .inl ((later_after own _ rest).positional hpositional)
      · exact ih hworld

end World

end PageQuery
