import PageQuery.Proofs.Logic.Scripts

/-!
# Builders that are alike

Two builders are alike if all fragments in them are, and if they are the same apart from
that.  A builder of one's own may also wait for different cursors, if these have the same tag
and values that are related.
-/

namespace PageQuery

open Sql

/-- Two runs are compared that differ in the values of cursors, for which one builder waits.
`R` relates a value of the first run to the one in its place. -/
def Frame.mirror (R : Json → Json → Prop) (own : BuilderId) : Frame where
  likeness _ := .values R
  op _ := Eq
  cursors id cursor cursor' := id = own ∧ Cursor.Alike (.values R) cursor cursor'

variable {R : Json → Json → Prop} {own id : BuilderId}

theorem Frame.reflexive_mirror (R : Json → Json → Prop) (own : BuilderId) :
    (Frame.mirror R own).Reflexive where
  whole _ := Variation.whole_values R
  op _ _ := rfl
  affords _ := trivial
  named := trivial

/-! What waits -/

section

variable {n : Nat}

/-- What a logic hands on of a script does not depend on the tokens given out. -/
theorem Frame.script_mirror {steps steps' : List Step}
    (h : ScriptLike (.mirror R own) n steps steps') : ScriptLike (.mirror R own) 0 steps steps' :=
  h.imp fun _ _ hs => ⟨hs.path, hs.op, hs.optional, hs.save⟩

/-- How runs are compared does not depend on their stage. -/
theorem Frame.deferred_mirror {α σ : Type} [Likeness α] [Likeness σ] {value value' : Deferred α σ}
    (h : value.Like (.mirror R own) n value') : value.Like (.mirror R own) 0 value' := by
  cases h with
  | ready ha => exact .ready ha
  | lazy hsteps hvalue => exact .lazy (script_mirror hsteps) hvalue

theorem Frame.callback_mirror {callback callback' : Callback}
    (h : callback.Like (.mirror R own) n id callback') :
    callback.Like (.mirror R own) 0 id callback' := by
  cases h with
  | same hready => exact .same hready
  | script hsteps => exact .script (script_mirror hsteps)
  | cursor hcursor isAfter => exact .cursor hcursor isAfter

end

/-- Two fields that wait, of the same name. -/
structure PendingField.Alike (R : Json → Json → Prop) (own : BuilderId)
    (field field' : PendingField) : Prop where
  expr : field.expr.Like (.mirror R own) 0 field'.expr
  name : field'.name = field.name

/-- Two terms that wait, with the same direction. -/
structure PendingTerm.Alike (R : Json → Json → Prop) (own : BuilderId)
    (term term' : PendingTerm) : Prop where
  expr : term.expr.Like (.mirror R own) 0 term'.expr
  ascending : term'.ascending = term.ascending
  nulls : term'.nulls = term.nulls

/-- What waits in two builders differs in the values of fragments only. -/
structure Pending.Alike (R : Json → Json → Prop) (own : BuilderId) (p p' : Pending) : Prop where
  selects : List.Forall₂ (PendingField.Alike R own) p.selects p'.selects
  wheres : List.Forall₂ (Deferred.Like (.mirror R own) 0) p.wheres p'.wheres
  orderTerms : List.Forall₂ (PendingTerm.Alike R own) p.orderTerms p'.orderTerms
  limit : p'.limit = p.limit
  offsets : p'.offsets = p.offsets
  cursor : Option.Rel (Deferred.Like (.mirror R own) 0) p.cursor p'.cursor
  comparator : p'.comparator = p.comparator

theorem Pending.Alike.refl (p : Pending) : p.Alike R own p where
  selects := List.forall₂_same.mpr fun _ _ => ⟨(Frame.reflexive_mirror R own).deferred _, rfl⟩
  wheres := List.forall₂_same.mpr fun _ _ => (Frame.reflexive_mirror R own).deferred _
  orderTerms := List.forall₂_same.mpr fun _ _ =>
    ⟨(Frame.reflexive_mirror R own).deferred _, rfl, rfl⟩
  limit := rfl
  offsets := rfl
  cursor := by
    cases p.cursor with
    | none => exact .none
    | some expr => exact .some ((Frame.reflexive_mirror R own).deferred expr)
  comparator := rfl

/-! Builders -/

/-- Two builders that differ in the values of fragments, and in the cursors whose conditions wait in
the one of interest. -/
structure Builder.Alike (R : Json → Json → Prop) (own id : BuilderId) (b b' : Builder) : Prop
    extends b.Seen (.values R) b' where
  pending : b.pending.Alike R own b'.pending
  comparator : b'.resolved.comparator = b.resolved.comparator
  callbacks (c : Concern) :
    List.Forall₂ (Callback.Like (.mirror R own) 0 id) (b.callbacks c) (b'.callbacks c)

namespace Builder.Alike

variable {b b' : Builder}

theorem refl (b : Builder) : b.Alike R own id b where
  toSeen := .refl (Variation.whole_values R) b
  pending := .refl b.pending
  comparator := rfl
  callbacks _ := List.forall₂_same.mpr fun _ _ => (Frame.reflexive_mirror R own).callback _

/-- New builders. -/
theorem fresh (options : Options) {parent parent' : Option ParentRef}
    (hparent : PageQuery.Alike (.values R) parent parent') :
    (Builder.fresh options parent).Alike R own id (.fresh options parent') :=
  { refl (Builder.fresh options parent) with parent := hparent }

variable (h : b.Alike R own id b')

include h

/-- The same concern is marked in both builders. -/
theorem setLocked (c : Concern) : (b.setLocked c).Alike R own id (b'.setLocked c) :=
  { h with locked := by rw [Builder.setLocked, Builder.setLocked, h.locked] }

theorem setPending {p p' : Pending} (hp : p.Alike R own p') :
    Builder.Alike R own id { b with pending := p } { b' with pending := p' } :=
  { h with pending := hp }

/-- Alike queues are put in place of others. -/
theorem setCallbacks (c : Concern) {queue queue' : List Callback}
    (hqueue : List.Forall₂ (Callback.Like (.mirror R own) 0 id) queue queue') :
    (b.setCallbacks c queue).Alike R own id (b'.setCallbacks c queue') := by
  refine { h with callbacks := fun d => ?_ }
  simp only [Builder.setCallbacks]
  split
  · exact hqueue
  · exact h.callbacks d

theorem takesLastFromEnd : b'.takesLastFromEnd = b.takesLastFromEnd := by
  rw [Builder.takesLastFromEnd, Builder.takesLastFromEnd, h.first, h.last, h.pending.limit,
    h.limit]

end Builder.Alike

end PageQuery
