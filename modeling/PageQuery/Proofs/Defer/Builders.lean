import Mathlib.Data.List.Forall2
import Mathlib.Data.Option.Basic
import PageQuery.Builder.Session
import PageQuery.Proofs.Defer.Scripts
import PageQuery.Proofs.Run.Exec

/-!
# Builders that defer values

One builder defers values of another one if it holds the same but for what waits in it: there
some values are not known yet that the other one knows, and scripts may defer values.  One
world defers values of another one if its builders do.  Main statement: in such a world the
locks have as much fuel as in the other one, if not more.
-/

namespace PageQuery

open Sql

/-! What waits in a builder -/

/-- The values are the same, or the second one is a closure that gives the first one. -/
inductive Deferred.Defers {α σ : Type} (gives : σ → α → Prop) :
    Deferred α σ → Deferred α σ → Prop
  | ready (a : α) : Defers gives (.ready a) (.ready a)
  | lazy {steps steps' : List Step} (hsteps : ScriptDefers steps steps') (source : σ) :
      Defers gives (.lazy steps source) (.lazy steps' source)
  | value {source : σ} {a : α} (hgives : gives source a) :
      Defers gives (.ready a) (.lazy [] source)

/-- Two fragments, the second one of which may be deferred. -/
abbrev FragmentDefers : DeferredFragment → DeferredFragment → Prop :=
  Deferred.Defers FragmentSource.Gives

/-- Two counts, the second one of which may be deferred. -/
abbrev CountDefers : DeferredCount → DeferredCount → Prop := Deferred.Defers CountSource.Gives

structure PendingField.Defers (field field' : PendingField) : Prop where
  expr : FragmentDefers field.expr field'.expr
  name : field'.name = field.name

structure PendingTerm.Defers (term term' : PendingTerm) : Prop where
  expr : FragmentDefers term.expr term'.expr
  ascending : term'.ascending = term.ascending
  nulls : term'.nulls = term.nulls

/-- Two comparators; a custom one may defer values in its script. -/
inductive Comparator.Defers : Comparator → Comparator → Prop
  | kind (kind : ComparatorKind) : Defers (.kind kind) (.kind kind)
  | custom {steps steps' : List Step} (hsteps : ScriptDefers steps steps') :
      Defers (.custom steps) (.custom steps')

/-- Two callbacks; a script may defer values. -/
inductive Callback.Defers : Callback → Callback → Prop
  | same (callback : Callback) : Defers callback callback
  | script {steps steps' : List Step} (hsteps : ScriptDefers steps steps') :
      Defers (.script steps) (.script steps')

/-- What waits in two builders, with values deferred in the second one. -/
structure Pending.Defers (p p' : Pending) : Prop where
  selects : List.Forall₂ PendingField.Defers p.selects p'.selects
  wheres : List.Forall₂ FragmentDefers p.wheres p'.wheres
  orderTerms : List.Forall₂ PendingTerm.Defers p.orderTerms p'.orderTerms
  limit : Option.Rel CountDefers p.limit p'.limit
  offsets : List.Forall₂ CountDefers p.offsets p'.offsets
  cursor : Option.Rel FragmentDefers p.cursor p'.cursor
  comparator : Option.Rel Comparator.Defers p.comparator p'.comparator

/-- Nothing has to be deferred. -/
theorem Deferred.Defers.refl {α σ : Type} {gives : σ → α → Prop} (value : Deferred α σ) :
    value.Defers gives value := by
  cases value with
  | ready a => exact .ready a
  | lazy steps source => exact .lazy (.refl steps) source

theorem Comparator.Defers.refl (comparator : Comparator) : comparator.Defers comparator := by
  cases comparator with
  | kind kind => exact .kind kind
  | custom steps => exact .custom (.refl steps)

/-- A value that there may be is related to itself. -/
theorem rel_refl {α : Type} {S : α → α → Prop} (hrefl : ∀ a, S a a) (item : Option α) :
    Option.Rel S item item := by
  cases item with
  | none => exact .none
  | some a => exact .some (hrefl a)

/-- The second builder takes a value exactly where the first one does. -/
theorem isSome_of_rel {α : Type} {S : α → α → Prop} {item item' : Option α}
    (h : Option.Rel S item item') : item'.isSome = item.isSome := by
  cases h <;> rfl

theorem isNone_of_rel {α : Type} {S : α → α → Prop} {item item' : Option α}
    (h : Option.Rel S item item') : item'.isNone = item.isNone := by
  cases h <;> rfl

theorem getD_of_rel {α : Type} {S : α → α → Prop} {item item' : Option α}
    (h : Option.Rel S item item') {other : α} (hother : S other other) :
    S (item.getD other) (item'.getD other) := by
  cases h with
  | none => exact hother
  | some hitem => exact hitem

/-- What waits defers itself. -/
theorem Pending.Defers.refl (p : Pending) : p.Defers p where
  selects := List.forall₂_same.mpr fun _ _ => ⟨.refl _, rfl⟩
  wheres := List.forall₂_same.mpr fun _ _ => .refl _
  orderTerms := List.forall₂_same.mpr fun _ _ => ⟨.refl _, rfl, rfl⟩
  limit := rel_refl .refl _
  offsets := List.forall₂_same.mpr fun _ _ => .refl _
  cursor := rel_refl .refl _
  comparator := rel_refl .refl _

/-! Builders -/

namespace Builder

/-- The second builder is the first one but for what waits in it, and for the script of its
comparator. -/
inductive Defers : Builder → Builder → Prop
  | mk {b : Builder} {pending : Pending} {callbacks : Concern → List Callback}
      {comparator : Option Comparator} (hpending : b.pending.Defers pending)
      (hcallbacks : ∀ c, List.Forall₂ Callback.Defers (b.callbacks c) (callbacks c))
      (hcomparator : Option.Rel Comparator.Defers b.resolved.comparator comparator) :
      Defers b { b with pending, callbacks, resolved := { b.resolved with comparator } }

theorem Defers.refl (b : Builder) : b.Defers b :=
  ⟨.refl _, fun _ => List.forall₂_same.mpr fun _ _ => .same _, rel_refl .refl _⟩

variable {b b' : Builder}

/-- Values are deferred where they wait. -/
theorem Defers.pending (h : b.Defers b') : b.pending.Defers b'.pending := by
  obtain ⟨hpending, -, -⟩ := h
  exact hpending

/-- What waits is replaced in both builders. -/
theorem Defers.setPending (h : b.Defers b') {p p' : Pending} (hp : p.Defers p') :
    Builder.Defers { b with pending := p } { b' with pending := p' } := by
  obtain ⟨-, hcallbacks, hcomparator⟩ := h
  exact ⟨hp, hcallbacks, hcomparator⟩

/-- Queues are replaced in both builders. -/
theorem Defers.setCallbacks (h : b.Defers b') (c : Concern) {queue queue' : List Callback}
    (hqueue : List.Forall₂ Callback.Defers queue queue') :
    (b.setCallbacks c queue).Defers (b'.setCallbacks c queue') := by
  obtain ⟨hpending, hcallbacks, hcomparator⟩ := h
  refine ⟨hpending, fun d => ?_, hcomparator⟩
  simp only [Builder.setCallbacks]
  split
  · exact hqueue
  · exact hcallbacks d

/-- The queues are of the same length, and deferred callback by callback. -/
theorem Defers.callbacks (h : b.Defers b') (c : Concern) :
    List.Forall₂ Callback.Defers (b.callbacks c) (b'.callbacks c) := by
  obtain ⟨-, hcallbacks, -⟩ := h
  exact hcallbacks c

/-- The same concerns are locked. -/
theorem Defers.locked (h : b.Defers b') : b'.locked = b.locked := by
  obtain ⟨-, -, -⟩ := h
  rfl

/-- The comparators that are in force may defer values in their scripts. -/
theorem Defers.comparator (h : b.Defers b') :
    Option.Rel Comparator.Defers b.resolved.comparator b'.resolved.comparator := by
  obtain ⟨-, -, hcomparator⟩ := h
  exact hcomparator

/-- Both builders take the last rows from the end of all rows, or neither does. -/
theorem Defers.takesLastFromEnd (h : b.Defers b') : b'.takesLastFromEnd = b.takesLastFromEnd := by
  obtain ⟨hpending, -, -⟩ := h
  rw [Builder.takesLastFromEnd, Builder.takesLastFromEnd]
  dsimp only
  rw [isNone_of_rel hpending.limit]

end Builder

/-! Worlds -/

/-- The steps are the same but for values that the second one defers, with the same outcome. -/
inductive Entry.Defers : Entry → Entry → Prop
  | step {op op' : Op} (hop : op.Defers op') (locks : List Bool)
      (outcome : Except Error Answer) : Defers (.step op locks outcome) (.step op' locks outcome)
  | comparator (cursor : List Json) (isAfter : Bool) :
      Defers (.comparator cursor isAfter) (.comparator cursor isAfter)

/-- An entry of the journal that defers nothing. -/
theorem Entry.Defers.refl (entry : Entry) : entry.Defers entry := by
  cases entry with
  | step op locks outcome => exact .step (.same op) locks outcome
  | comparator cursor isAfter => exact .comparator cursor isAfter

namespace World

/-- Both builders have the same id, and the second one defers values of the first one. -/
def EntryDefers (entry entry' : BuilderId × Builder) : Prop :=
  entry'.1 = entry.1 ∧ entry.2.Defers entry'.2

/-- The builders of the second world defer values of those of the first one.  All else is the
same but for the history, which nothing reads. -/
structure Defers (w w' : World) : Prop where
  builders : List.Forall₂ EntryDefers w.builders w'.builders
  nextBuilder : w'.nextBuilder = w.nextBuilder
  nextToken : w'.nextToken = w.nextToken
  saved : w'.saved = w.saved
  events : w'.events = w.events
  journal : List.Forall₂ Entry.Defers w.journal w'.journal

namespace Defers

variable {w w' : World}

/-- Under the same id a world that defers values has a builder that does. -/
theorem builder (h : w.Defers w') (id : BuilderId) : (w.builder id).Defers (w'.builder id) :=
  builder_of_forall₂ (S := fun _ => Builder.Defers) h.builders (.refl _)

theorem setBuilder (h : w.Defers w') (id : BuilderId) {b b' : Builder} (hb : b.Defers b') :
    (w.setBuilder id b).Defers (w'.setBuilder id b') :=
  { h with builders := forall₂_replace (S := fun _ => Builder.Defers) h.builders hb }

/-- New builders hold no values that could be deferred. -/
theorem spawned (h : w.Defers w') (b : Builder) : (w.spawned b).Defers (w'.spawned b) := by
  rw [World.spawned, World.spawned, h.nextBuilder]
  exact { h.setBuilder w.nextBuilder (.refl b) with nextBuilder := rfl }

end Defers

end World

/-! Budgets -/

variable {n m : Nat}

/-- Weights are compared item by item. -/
theorem totalWeight_le {α : Type} {S : α → α → Prop} {items items' : List α} {f g : α → Nat}
    (h : List.Forall₂ S items items') (hle : ∀ a a', S a a' → f a ≤ g a') :
    totalWeight (items.map f) ≤ totalWeight (items'.map g) := by
  induction h with
  | nil => exact Nat.le_refl _
  | cons hitem _ ih => exact Nat.add_le_add (hle _ _ hitem) ih

theorem totalWeight_toList_le {α : Type} {S : α → α → Prop} {item item' : Option α}
    {f g : α → Nat} (h : Option.Rel S item item') (hle : ∀ a a', S a a' → f a ≤ g a') :
    totalWeight (item.toList.map f) ≤ totalWeight (item'.toList.map g) := by
  cases h with
  | none => exact Nat.le_refl _
  | some hitem => exact totalWeight_le (.cons hitem .nil) hle

theorem totalWeight_concerns_le {f g : Concern → Nat} (hle : ∀ c, f c ≤ g c) :
    totalWeight (Concern.lockOrder.map f) ≤ totalWeight (Concern.lockOrder.map g) := by
  refine totalWeight_le (S := Eq) (List.forall₂_same.mpr fun _ _ => rfl) ?_
  rintro c _ rfl
  exact hle c

namespace Deferred.Defers

variable {α σ : Type} {gives : σ → α → Prop} {value value' : Deferred α σ}

/-- A deferred value weighs no less than the value that it gives. -/
theorem weight_le (hle : n ≤ m) (h : value.Defers gives value') :
    value.weight n ≤ value'.weight m := by
  cases h with
  | ready | value => exact Nat.zero_le _
  | lazy hsteps => exact Nat.add_le_add_left (hsteps.weight_le hle) 1

/-- The heaviest comparator in a deferred value weighs at least as much as the one in the other
value. -/
theorem heaviest_le (h : value.Defers gives value') :
    value.heaviestComparator ≤ value'.heaviestComparator := by
  cases h with
  | ready | value => exact Nat.zero_le _
  | lazy hsteps => exact hsteps.heaviest_le

end Deferred.Defers

theorem Comparator.Defers.heaviest_le {comparator comparator' : Comparator}
    (h : comparator.Defers comparator') :
    comparator.heaviestComparator ≤ comparator'.heaviestComparator := by
  cases h with
  | kind => exact Nat.le_refl _
  | custom hsteps => exact max_le_max (hsteps.weight_le (Nat.le_refl 0)) hsteps.heaviest_le

namespace Callback.Defers

variable {callback callback' : Callback}

/-- A callback that defers values weighs no less. -/
theorem weight_le (hle : n ≤ m) (h : callback.Defers callback') :
    callback.weight n ≤ callback'.weight m := by
  cases h with
  | script hsteps => exact Nat.add_le_add_left (hsteps.weight_le hle) 1
  | same =>
      cases callback with
      | script steps => exact Nat.add_le_add_left (scriptWeight_mono hle steps) 1
      | cursorCondition => exact Nat.add_le_add_right hle 3
      | _ => exact Nat.le_refl _

theorem heaviest_le (h : callback.Defers callback') :
    callback.heaviestComparator ≤ callback'.heaviestComparator := by
  cases h with
  | same => exact Nat.le_refl _
  | script hsteps => exact hsteps.heaviest_le

end Callback.Defers

/-- What waits is compared concern by concern. -/
theorem Pending.Defers.sum_le {p p' : Pending} (h : p.Defers p')
    {fragment fragment' : DeferredFragment → Nat} {count count' : DeferredCount → Nat}
    (hfragment : ∀ f f', FragmentDefers f f' → fragment f ≤ fragment' f')
    (hcount : ∀ n n', CountDefers n n' → count n ≤ count' n') :
    p.sum fragment count ≤ p'.sum fragment' count' := by
  have hselects := totalWeight_le h.selects fun _ _ hfield => hfragment _ _ hfield.expr
  have hterms := totalWeight_le h.orderTerms fun _ _ hterm => hfragment _ _ hterm.expr
  refine Nat.add_le_add (Nat.add_le_add (Nat.add_le_add (Nat.add_le_add (Nat.add_le_add
    hselects ?_) hterms) ?_) ?_) ?_
  · exact totalWeight_le h.wheres hfragment
  · exact totalWeight_toList_le h.limit hcount
  · exact totalWeight_le h.offsets hcount
  · exact totalWeight_toList_le h.cursor hfragment

namespace Builder.Defers

variable {b b' : Builder}

/-- A builder that defers values weighs no less, so its run is given no less fuel. -/
theorem weight_le (hle : n ≤ m) (h : b.Defers b') : b.weight n ≤ b'.weight m := by
  obtain ⟨hpending, hcallbacks, -⟩ := h
  refine Nat.add_le_add (Nat.add_le_add_left (totalWeight_concerns_le fun c => ?_) _) ?_
  · exact totalWeight_le (hcallbacks c) fun _ _ hcallback => hcallback.weight_le hle
  · exact hpending.sum_le (fun _ _ hf => hf.weight_le hle) fun _ _ hn => hn.weight_le hle

theorem heaviest_le (h : b.Defers b') : b.heaviestComparator ≤ b'.heaviestComparator := by
  obtain ⟨hpending, hcallbacks, hcomparator⟩ := h
  refine Nat.add_le_add (Nat.add_le_add (totalWeight_concerns_le fun c => ?_)
    (Nat.add_le_add ?_ ?_)) ?_
  · exact totalWeight_le (hcallbacks c) fun _ _ hcallback => hcallback.heaviest_le
  · exact hpending.sum_le (fun _ _ hf => hf.heaviest_le) fun _ _ hn => hn.heaviest_le
  · exact totalWeight_toList_le hpending.comparator fun _ _ hcustom => hcustom.heaviest_le
  · exact totalWeight_toList_le hcomparator fun _ _ hcustom => hcustom.heaviest_le

end Builder.Defers

/-- To defer values leaves the locks at least as much fuel. -/
theorem World.Defers.budget_le {w w' : World} (h : w.Defers w') {s s' : Step}
    (hweight : ∀ {n m}, n ≤ m → s.weight n ≤ s'.weight m)
    (hheaviest : s.heaviestComparator ≤ s'.heaviestComparator) : w.budget s ≤ w'.budget s' := by
  have hcomparator : w.heaviestComparator + s.heaviestComparator ≤
      w'.heaviestComparator + s'.heaviestComparator :=
    Nat.add_le_add (totalWeight_le h.builders fun _ _ hentry => hentry.2.heaviest_le) hheaviest
  refine Nat.add_le_add_right (Nat.add_le_add ?_ (hweight hcomparator)) allowance
  exact totalWeight_le h.builders fun _ _ hentry => hentry.2.weight_le hcomparator

end PageQuery
