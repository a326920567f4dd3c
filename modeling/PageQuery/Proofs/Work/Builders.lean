import PageQuery.Proofs.Defer.Builders
import PageQuery.Proofs.Run.Session
import PageQuery.Proofs.Work.Scripts

/-!
# Work that waits in builders

What waits in a builder are its open concerns, its callbacks and its lazy values, each of which
is done once.  The work of a world is the work of all its builders.  Main statement: if no
comparator adds a cursor condition, the fuel that a step is given covers the work of the world
and of the step.
-/

namespace PageQuery

section

variable {α : Type} {items : List α} {f g : α → Nat}

@[simp]
theorem totalWeight_nil : totalWeight [] = 0 := rfl

@[simp]
theorem totalWeight_cons (n : Nat) (rest : List Nat) :
    totalWeight (n :: rest) = n + totalWeight rest := rfl

/-- The weights of two lists add up. -/
@[simp]
theorem totalWeight_append (weights others : List Nat) :
    totalWeight (weights ++ others) = totalWeight weights + totalWeight others := by
  induction weights with
  | nil => exact (Nat.zero_add _).symm
  | cons n rest ih => rw [List.cons_append, totalWeight_cons, totalWeight_cons, ih, Nat.add_assoc]

/-- The weights of parts add up item by item. -/
theorem totalWeight_map_add (items : List α) (f g : α → Nat) :
    totalWeight (items.map fun a => f a + g a) =
      totalWeight (items.map f) + totalWeight (items.map g) := by
  induction items with
  | nil => rfl
  | cons a rest ih =>
      simp only [List.map_cons, totalWeight_cons, ih]
      exact Nat.add_add_add_comm ..

/-- An item weighs no more than the list that it is in. -/
theorem le_totalWeight_of_mem {a : α} (ha : a ∈ items) : f a ≤ totalWeight (items.map f) := by
  obtain ⟨before, behind, rfl⟩ := List.append_of_mem ha
  simp only [List.map_append, List.map_cons, totalWeight_append, totalWeight_cons]
  omega

/-- What has no weight but in one place may change there. -/
theorem totalWeight_change (hnodup : items.Nodup) {a : α} (ha : a ∈ items)
    (hsame : ∀ b, b ≠ a → f b = g b) :
    totalWeight (items.map f) + g a = totalWeight (items.map g) + f a := by
  obtain ⟨before, behind, rfl⟩ := List.append_of_mem ha
  obtain ⟨-, hbehind, hapart⟩ := List.nodup_append.mp hnodup
  have hbefore : before.map f = before.map g :=
    List.map_congr_left fun b hb => hsame b (hapart b hb a List.mem_cons_self)
  have hrest : behind.map f = behind.map g :=
    List.map_congr_left fun b hb => hsame b fun hba =>
      (List.nodup_cons.mp hbehind).1 (hba ▸ hb)
  simp only [List.map_append, List.map_cons, totalWeight_append, totalWeight_cons, hbefore, hrest]
  omega

end

/-! What builders hold -/

variable {heaviest : Nat} {allowed allowed' : List Step → Prop}

/-- The work of callbacks. -/
def queueWork (heaviest : Nat) (queue : List Callback) : Nat :=
  totalWeight (queue.map (Callback.work heaviest))

@[simp]
theorem queueWork_nil : queueWork heaviest [] = 0 := rfl

/-- Callbacks are work, whatever they do. -/
theorem queueWork_pos (heaviest : Nat) {queue : List Callback} (hsome : queue ≠ []) :
    0 < queueWork heaviest queue := by
  cases queue with
  | nil => exact absurd rfl hsome
  | cons callback rest => exact Nat.add_pos_left callback.work_pos _

namespace Pending

/-- Scripts that wait in the builder set allowed comparators only. -/
structure SetsOnly (allowed : List Step → Prop) (p : Pending) : Prop where
  selects : ∀ field ∈ p.selects, field.expr.SetsOnly allowed
  wheres : ∀ expr ∈ p.wheres, expr.SetsOnly allowed
  orderTerms : ∀ term ∈ p.orderTerms, term.expr.SetsOnly allowed
  limit : ∀ n ∈ p.limit, n.SetsOnly allowed
  offsets : ∀ n ∈ p.offsets, n.SetsOnly allowed
  cursor : ∀ expr ∈ p.cursor, expr.SetsOnly allowed
  comparator : ∀ comparator ∈ p.comparator, comparator.SetsOnly allowed

/-- The work of the values that wait. -/
def work (heaviest : Nat) (p : Pending) : Nat :=
  p.sum (Deferred.work heaviest) (Deferred.work heaviest)

end Pending

namespace Builder

/-- All custom comparators that the builder holds, or that a script sets which it holds, are
allowed. -/
structure SetsOnly (allowed : List Step → Prop) (b : Builder) : Prop where
  callbacks : ∀ c, ∀ callback ∈ b.callbacks c, callback.SetsOnly allowed
  pending : b.pending.SetsOnly allowed
  comparator : ∀ comparator ∈ b.resolved.comparator, comparator.SetsOnly allowed

/-- What is to be done when the concern locks, its values apart. -/
def concernWork (heaviest : Nat) (b : Builder) (c : Concern) : Nat :=
  (if b.locked c then 0 else 1) + queueWork heaviest (b.callbacks c)

/-- The work of a builder: its open concerns, their callbacks and the values that wait. -/
def work (heaviest : Nat) (b : Builder) : Nat :=
  totalWeight (Concern.lockOrder.map (b.concernWork heaviest)) + b.pending.work heaviest

theorem setsOnly_fresh (options : Options) (parent : Option ParentRef) :
    (fresh options parent).SetsOnly allowed where
  callbacks c callback hcallback := by
    have hinitial : callback ∈ initialCallbacks c := hcallback
    cases c <;> simp only [initialCallbacks, List.mem_singleton, List.not_mem_nil] at hinitial <;>
      rw [hinitial] <;> trivial
  pending := by constructor <;> nofun
  comparator := nofun

/-- A new builder is as much work as its open concerns and their first callbacks. -/
theorem work_fresh (options : Options) (parent : Option ParentRef) :
    (fresh options parent).work heaviest = builderWeight := by
  have hconcerns : Concern.lockOrder.map ((fresh options parent).concernWork heaviest) =
      [1, 1, 1, 1, 1, 1, 1, 2, 2, 2, 2, 2, 1, 2] := rfl
  rw [work, hconcerns]
  rfl

variable {b b' : Builder} {c : Concern}

/-- A change of one concern is a change of its work. -/
theorem work_of_concern (hpending : b'.pending = b.pending)
    (hsame : ∀ d, d ≠ c → b'.locked d = b.locked d ∧ b'.callbacks d = b.callbacks d) :
    b'.work heaviest + b.concernWork heaviest c = b.work heaviest + b'.concernWork heaviest c := by
  have hconcern (d : Concern) (hd : d ≠ c) :
      b'.concernWork heaviest d = b.concernWork heaviest d := by
    rw [concernWork, concernWork, (hsame d hd).1, (hsame d hd).2]
  have hchange := totalWeight_change (by decide) (Concern.mem_lockOrder c) hconcern
  rw [work, work, hpending]
  omega

theorem work_of_same (hpending : b'.pending = b.pending) (hlocked : b'.locked = b.locked)
    (hcallbacks : b'.callbacks = b.callbacks) : b'.work heaviest = b.work heaviest := by
  have hconcern : b'.concernWork heaviest = b.concernWork heaviest := by
    funext c
    rw [concernWork, concernWork, hlocked, hcallbacks]
  rw [work, work, hpending, hconcern]

/-- The work of a queue is exchanged for that of another one. -/
theorem work_setCallbacks (heaviest : Nat) (b : Builder) (c : Concern) (queue : List Callback) :
    (b.setCallbacks c queue).work heaviest + queueWork heaviest (b.callbacks c) =
      b.work heaviest + queueWork heaviest queue := by
  have hwork : (b.setCallbacks c queue).work heaviest + b.concernWork heaviest c =
      b.work heaviest + (b.setCallbacks c queue).concernWork heaviest c :=
    work_of_concern rfl fun d hd => ⟨rfl, if_neg hd⟩
  have hqueue : (b.setCallbacks c queue).callbacks c = queue := if_pos rfl
  have hlocked : (b.setCallbacks c queue).locked c = b.locked c := rfl
  rw [concernWork, concernWork, hqueue, hlocked] at hwork
  omega

/-- To lock a concern takes one off the work. -/
theorem work_setLocked (heaviest : Nat) (hopen : b.locked c = false) :
    (b.setLocked c).work heaviest + 1 = b.work heaviest := by
  have hwork : (b.setLocked c).work heaviest + b.concernWork heaviest c =
      b.work heaviest + (b.setLocked c).concernWork heaviest c :=
    work_of_concern rfl fun d hd => ⟨if_neg hd, rfl⟩
  have hqueue : (b.setLocked c).callbacks c = b.callbacks c := rfl
  have hlocked : (b.setLocked c).locked c = true := if_pos rfl
  rw [concernWork, concernWork, hqueue, hlocked, hopen, if_pos rfl, if_neg Bool.false_ne_true]
    at hwork
  omega

/-- An open concern is work. -/
theorem work_pos (heaviest : Nat) (hopen : b.locked c = false) : 0 < b.work heaviest :=
  (work_setLocked heaviest hopen).symm ▸ Nat.succ_pos _

/-- A change that leaves the children as they are, keeps comparators affordable, and adds at
most `cost` to the work. -/
structure Adds (heaviest cost : Nat) (change : Builder → Builder) : Prop where
  setsOnly : ∀ {b : Builder}, b.SetsOnly (Affordable heaviest) →
    (change b).SetsOnly (Affordable heaviest)
  children : ∀ b, (change b).children = b.children
  work_le : ∀ b, (change b).work heaviest ≤ b.work heaviest + cost

/-- A registration adds the work of the value that it puts in. -/
theorem Adds.pending {cost : Nat} (change : Pending → Pending)
    (hsets : ∀ p, p.SetsOnly (Affordable heaviest) → (change p).SetsOnly (Affordable heaviest))
    (hwork : ∀ p, (change p).work heaviest ≤ p.work heaviest + cost) :
    Adds heaviest cost fun b => { b with pending := change b.pending } where
  setsOnly hb := { hb with pending := hsets _ hb.pending }
  children _ := rfl
  work_le b := (Nat.add_le_add_left (hwork b.pending) _).trans_eq (Nat.add_assoc ..).symm

/-- To change what is no work and no comparator adds nothing. -/
theorem Adds.of_same {change : Builder → Builder}
    (hsame : ∀ b, (change b).pending = b.pending ∧ (change b).locked = b.locked ∧
      (change b).callbacks = b.callbacks ∧ (change b).resolved.comparator = b.resolved.comparator ∧
        (change b).children = b.children) : Adds heaviest 0 change := by
  refine ⟨fun {b} hb => ?_, fun b => (hsame b).2.2.2.2, fun b => ?_⟩ <;>
    obtain ⟨hpending, hlocked, hcallbacks, hcomparator, -⟩ := hsame b
  · refine ⟨?_, ?_, ?_⟩
    · rw [hcallbacks]
      exact hb.callbacks
    · rw [hpending]
      exact hb.pending
    · rw [hcomparator]
      exact hb.comparator
  · exact Nat.le_add_right_of_le (work_of_same hpending hlocked hcallbacks).le

/-- Queues may be replaced by affordable ones. -/
theorem setsOnly_setCallbacks {queue : List Callback} (hb : b.SetsOnly allowed)
    (hqueue : ∀ callback ∈ queue, callback.SetsOnly allowed) :
    (b.setCallbacks c queue).SetsOnly allowed where
  callbacks d callback hcallback := by
    change callback ∈ (if d = c then queue else b.callbacks d) at hcallback
    split at hcallback
    · exact hqueue callback hcallback
    · exact hb.callbacks d callback hcallback
  pending := hb.pending
  comparator := hb.comparator

theorem setsOnly_setLocked (hb : b.SetsOnly allowed) : (b.setLocked c).SetsOnly allowed :=
  { hb with }

end Builder

namespace World

/-- All custom comparators of all builders are allowed. -/
def SetsOnly (allowed : List Step → Prop) (w : World) : Prop :=
  ∀ id, (w.builder id).SetsOnly allowed

/-- The work of a world is that of its builders. -/
def work (heaviest : Nat) (w : World) : Nat :=
  totalWeight (w.builders.map fun entry => entry.2.work heaviest)

variable {w : World} {id : BuilderId} {b : Builder}

theorem SetsOnly.setBuilder (hw : w.SetsOnly allowed) (hb : b.SetsOnly allowed) :
    (w.setBuilder id b).SetsOnly allowed :=
  fun other => holds_setBuilder (·.SetsOnly allowed) (fun _ _ => hb) (hw other)

/-- A builder that is found is one of those that count. -/
theorem mem_of_lookup (hlookup : w.builders.lookup id = some b) : (id, b) ∈ w.builders := by
  obtain ⟨before, behind, hsplit, -⟩ := List.lookup_eq_some_iff.mp hlookup
  rw [hsplit]
  simp

/-- A builder is no more work than the world that it is in. -/
theorem work_builder_le (heaviest : Nat) (hstored : w.Stored id) :
    (w.builder id).work heaviest ≤ w.work heaviest := by
  obtain ⟨b, hb⟩ := Option.isSome_iff_exists.mp hstored
  have hbuilder : w.builder id = b := by rw [builder, hb, Option.getD_some]
  have hone := le_totalWeight_of_mem
    (f := fun entry : BuilderId × Builder => entry.2.work heaviest) (mem_of_lookup hb)
  exact hbuilder ▸ hone

/-- The work of one builder takes the place of that of another one. -/
theorem work_setBuilder (heaviest : Nat) (hstored : w.Stored id) (b : Builder) :
    (w.setBuilder id b).work heaviest + (w.builder id).work heaviest =
      w.work heaviest + b.work heaviest := by
  rw [Stored] at hstored
  rw [work, work, World.setBuilder, World.builder]
  generalize w.builders = builders at hstored ⊢
  induction builders with
  | nil => cases hstored
  | cons entry rest ih =>
      obtain ⟨i, old⟩ := entry
      rw [replace]
      by_cases hi : i = id
      · subst hi
        simp only [if_pos, List.lookup_cons_self, Option.getD_some, List.map_cons,
          totalWeight_cons]
        omega
      · have hne : (id == i) = false := beq_eq_false_iff_ne.mpr (Ne.symm hi)
        rw [List.lookup_cons, hne] at hstored ⊢
        have hrest := ih hstored
        rw [if_neg hi, List.map_cons, List.map_cons, totalWeight_cons, totalWeight_cons,
          Nat.add_assoc, hrest, Nat.add_assoc]

/-- A new builder adds its work to that of the world. -/
theorem work_spawned_le (w : World) (b : Builder) :
    (w.spawned b).work heaviest ≤ w.work heaviest + b.work heaviest := by
  change totalWeight ((replace w.nextBuilder b w.builders).map _) ≤ _
  rw [work]
  generalize w.builders = builders
  induction builders with
  | nil => exact (Nat.add_comm _ _).le
  | cons entry rest ih =>
      obtain ⟨i, old⟩ := entry
      rw [replace]
      split <;> simp only [List.map_cons, totalWeight_cons] <;> omega

theorem setsOnly_start (options : Options) (tokens : Nat) :
    (start options tokens).SetsOnly allowed := by
  intro id
  rw [builder_start]
  exact Builder.setsOnly_fresh _ _

end World

/-! Budgets -/

/-- The work of what waits is bounded by its weight. -/
theorem Pending.work_le_weight (p : Pending) : p.work heaviest ≤ p.weight heaviest := by
  have hfields {α σ τ : Type} (items : List τ) (value : τ → Deferred α σ) :
      totalWeight (items.map fun item => (value item).work heaviest) ≤
        totalWeight (items.map fun item => (value item).weight heaviest) :=
    totalWeight_le (S := Eq) (List.forall₂_same.mpr fun _ _ => rfl) fun item _ hsame =>
      hsame ▸ (value item).work_le_weight
  exact Nat.add_le_add (Nat.add_le_add (Nat.add_le_add (Nat.add_le_add (Nat.add_le_add
    (hfields p.selects _) (hfields p.wheres id)) (hfields p.orderTerms _))
    (hfields p.limit.toList id)) (hfields p.offsets id)) (hfields p.cursor.toList id)

theorem Pending.SetsOnly.imp {p : Pending}
    (himp : ∀ {steps}, allowed steps → scriptWeight 0 steps ≤ heaviest → allowed' steps)
    (h : p.SetsOnly allowed) (hle : p.heaviestComparator ≤ heaviest) : p.SetsOnly allowed' := by
  simp only [Pending.heaviestComparator, Pending.sum] at hle
  have hone {τ : Type} {items : List τ} {f : τ → Nat} {item : τ} (hitem : item ∈ items)
      (hitems : totalWeight (items.map f) ≤ heaviest) : f item ≤ heaviest :=
    (le_totalWeight_of_mem hitem).trans hitems
  constructor
  · exact fun field hfield => (h.selects field hfield).imp himp
      (hone (f := fun field => field.expr.heaviestComparator) hfield (by omega))
  · exact fun expr hexpr => (h.wheres expr hexpr).imp himp
      (hone (f := Deferred.heaviestComparator) hexpr (by omega))
  · exact fun term hterm => (h.orderTerms term hterm).imp himp
      (hone (f := fun term => term.expr.heaviestComparator) hterm (by omega))
  · exact fun n hn => (h.limit n hn).imp himp
      (hone (f := Deferred.heaviestComparator) (Option.mem_toList.mpr hn) (by omega))
  · exact fun n hn => (h.offsets n hn).imp himp
      (hone (f := Deferred.heaviestComparator) hn (by omega))
  · exact fun expr hexpr => (h.cursor expr hexpr).imp himp
      (hone (f := Deferred.heaviestComparator) (Option.mem_toList.mpr hexpr) (by omega))
  · exact fun comparator hcomparator => (h.comparator comparator hcomparator).imp himp
      (hone (f := Comparator.heaviestComparator) (Option.mem_toList.mpr hcomparator) (by omega))

namespace Builder

/-- There is one piece of work for every open concern. -/
theorem openWork_eq (b : Builder) (concerns : List Concern) :
    totalWeight (concerns.map fun c => if b.locked c then 0 else 1) =
      (concerns.filter fun c => !b.locked c).length := by
  induction concerns with
  | nil => rfl
  | cons c rest ih =>
      rw [List.map_cons, totalWeight_cons, ih]
      cases hlocked : b.locked c with
      | true => simp [hlocked]
      | false => simp [hlocked, Nat.add_comm]

/-- The work of a builder is bounded by its weight. -/
theorem work_le_weight (b : Builder) : b.work heaviest ≤ b.weight heaviest := by
  have hqueues : totalWeight (Concern.lockOrder.map fun c => queueWork heaviest (b.callbacks c)) ≤
      totalWeight (Concern.lockOrder.map fun c =>
        totalWeight ((b.callbacks c).map (Callback.weight heaviest))) :=
    totalWeight_concerns_le fun c =>
      totalWeight_le (S := Eq) (List.forall₂_same.mpr fun _ _ => rfl) fun callback _ hsame =>
        hsame ▸ callback.work_le_weight
  have hconcerns := totalWeight_map_add Concern.lockOrder
    (fun c => if b.locked c then 0 else 1) fun c => queueWork heaviest (b.callbacks c)
  rw [openWork_eq] at hconcerns
  exact Nat.add_le_add (hconcerns.trans_le (Nat.add_le_add_left hqueues _)) b.pending.work_le_weight

theorem SetsOnly.imp {b : Builder}
    (himp : ∀ {steps}, allowed steps → scriptWeight 0 steps ≤ heaviest → allowed' steps)
    (h : b.SetsOnly allowed) (hle : b.heaviestComparator ≤ heaviest) : b.SetsOnly allowed' := by
  have hparts : totalWeight (Concern.lockOrder.map fun c =>
      totalWeight ((b.callbacks c).map Callback.heaviestComparator)) ≤ heaviest ∧
      b.pending.heaviestComparator ≤ heaviest ∧
        totalWeight (b.resolved.comparator.toList.map Comparator.heaviestComparator) ≤
          heaviest := by
    rw [heaviestComparator] at hle
    omega
  refine ⟨fun c callback hcallback => ?_, h.pending.imp himp hparts.2.1,
    fun comparator hcomparator => ?_⟩
  · have hone := le_totalWeight_of_mem (f := Callback.heaviestComparator) hcallback
    have hqueue := le_totalWeight_of_mem
      (f := fun c => totalWeight ((b.callbacks c).map Callback.heaviestComparator))
      (Concern.mem_lockOrder c)
    exact (h.callbacks c callback hcallback).imp himp
      (hone.trans (hqueue.trans hparts.1))
  · have hone := le_totalWeight_of_mem (f := Comparator.heaviestComparator)
      (Option.mem_toList.mpr hcomparator)
    exact (h.comparator comparator hcomparator).imp himp (hone.trans hparts.2.2)

end Builder

namespace World

variable {w : World}

/-- What comparators may leave behind in a step. -/
def heaviestIn (w : World) (s : Step) : Nat := w.heaviestComparator + s.heaviestComparator

theorem SetsOnly.imp
    (himp : ∀ {steps}, allowed steps → scriptWeight 0 steps ≤ heaviest → allowed' steps)
    (h : w.SetsOnly allowed) (hle : w.heaviestComparator ≤ heaviest) : w.SetsOnly allowed' := by
  intro id
  have hid := h id
  rw [builder] at hid ⊢
  cases hlookup : w.builders.lookup id with
  | none => exact Builder.setsOnly_fresh _ _
  | some b =>
      rw [hlookup] at hid
      have hone := le_totalWeight_of_mem
        (f := fun entry : BuilderId × Builder => entry.2.heaviestComparator)
        (mem_of_lookup hlookup)
      exact hid.imp himp (hone.trans hle)

/-- Comparators that add no conditions are affordable where none is heavier. -/
theorem SetsOnly.affordable (h : w.SetsOnly AddsNone) (hle : w.heaviestComparator ≤ heaviest) :
    w.SetsOnly (Affordable heaviest) :=
  h.imp affordable_of_addsNone hle

/-- Affordable comparators add no conditions. -/
theorem SetsOnly.addsNone (h : w.SetsOnly (Affordable heaviest)) : w.SetsOnly AddsNone :=
  h.imp (fun haffordable _ => addsNone_of_affordable haffordable) (Nat.le_refl _)

/-- The fuel of a step covers the work of the world and of the step. -/
theorem work_le_budget (w : World) (s : Step) :
    w.work (w.heaviestIn s) + s.work (w.heaviestIn s) + allowance ≤ w.budget s := by
  have hworld : w.work (w.heaviestIn s) ≤ w.weight (w.heaviestIn s) :=
    totalWeight_le (S := Eq) (List.forall₂_same.mpr fun _ _ => rfl) fun entry _ hsame =>
      hsame ▸ entry.2.work_le_weight
  exact Nat.add_le_add_right (Nat.add_le_add hworld s.work_le_weight) allowance

end World

end PageQuery
