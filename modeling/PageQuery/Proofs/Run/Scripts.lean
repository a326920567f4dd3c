import PageQuery.Builder.Basic

/-!
# Aliases in scripts

An operation may give an alias to a row source, or leave it to a fresh token.  An operation
may also be given a script that is performed later, and a builder keeps such scripts until
their turn comes.  So whether all aliases of a run are left to tokens is a matter of the
operations and of all that builders keep.
-/

namespace PageQuery

open Sql

mutual

/-- Whether a step gives an alias to a row source. -/
def Step.givesAlias : Step → Bool
  | .mk _ op _ _ => op.givesAlias

/-- Whether the operation gives an alias to a row source, or one in its scripts does. -/
def Op.givesAlias : Op → Bool
  | .source _ rowAlias | .addChild _ _ rowAlias _ => rowAlias.isSome
  | .selectLazy steps _ _ | .selectCursorLazy steps _ | .filterLazy steps _
  | .orderByLazy steps _ _ _ | .limitLazy steps _ | .offsetLazy steps _
  | .setCustomComparator steps | .beforeLock _ steps => scriptGivesAlias steps
  | _ => false

/-- Whether a script gives an alias to a row source. -/
def scriptGivesAlias : List Step → Bool
  | [] => false
  | step :: rest => step.givesAlias || scriptGivesAlias rest

end

/-- Data that may hold scripts, and whether an alias is given in them. -/
class Naming (α : Type) where
  givesAlias : α → Bool

namespace Naming

variable {α : Type}

instance : Naming Step := ⟨Step.givesAlias⟩

instance : Naming Op := ⟨Op.givesAlias⟩

instance [Naming α] : Naming (List α) := ⟨fun items => items.any givesAlias⟩

instance [Naming α] : Naming (Option α) := ⟨fun item => item.any givesAlias⟩

instance {σ : Type} : Naming (Deferred α σ) where
  givesAlias
    | .ready _ => false
    | .lazy steps _ => givesAlias steps

instance : Naming Comparator where
  givesAlias
    | .kind _ => false
    | .custom steps => givesAlias steps

instance : Naming Callback where
  givesAlias
    | .script steps => givesAlias steps
    | _ => false

instance : Naming PendingField := ⟨fun field => givesAlias field.expr⟩

instance : Naming PendingTerm := ⟨fun term => givesAlias term.expr⟩

end Naming

/-- Aliases are given in the data only if they may be. -/
def Permitted (named : Prop) {α : Type} [Naming α] (a : α) : Prop :=
  Naming.givesAlias a = true → named

namespace Permitted

variable {α σ : Type} [Naming α] {named : Prop}

/-- Where aliases may be given, everything is permitted. -/
theorem of_named (hnamed : named) (a : α) : Permitted named a := fun _ => hnamed

/-- What gives no alias is permitted. -/
theorem of_givesNone {a : α} (h : Naming.givesAlias a = false) : Permitted named a := by
  intro hgives
  rw [h] at hgives
  cases hgives

theorem nil : Permitted named ([] : List α) := of_givesNone rfl

/-- A list is permitted item by item. -/
theorem iff_forall_mem {items : List α} :
    Permitted named items ↔ ∀ a ∈ items, Permitted named a := by
  constructor
  · exact fun h a ha hgives => h (List.any_eq_true.mpr ⟨a, ha, hgives⟩)
  · intro h hgives
    obtain ⟨a, ha, hgives⟩ := List.any_eq_true.mp hgives
    exact h a ha hgives

/-- The first item and the others are permitted on their own. -/
theorem cons_iff {a : α} {items : List α} :
    Permitted named (a :: items) ↔ Permitted named a ∧ Permitted named items := by
  simp only [iff_forall_mem, List.forall_mem_cons]

/-- Two lists are permitted together exactly if each of them is. -/
theorem append_iff {items others : List α} :
    Permitted named (items ++ others) ↔ Permitted named items ∧ Permitted named others := by
  simp only [iff_forall_mem, List.forall_mem_append]

/-- A registration behind others that are permitted. -/
theorem concat {items : List α} (h : Permitted named items) {a : α} (ha : Permitted named a) :
    Permitted named (items ++ [a]) :=
  append_iff.mpr ⟨h, cons_iff.mpr ⟨ha, nil⟩⟩

theorem none : Permitted named (Option.none : Option α) := of_givesNone rfl

/-- A value that there is must be permitted. -/
theorem some_iff {a : α} : Permitted named (some a) ↔ Permitted named a := Iff.rfl

/-- A value that is ready runs no script. -/
theorem ready (value : σ) {τ : Type} : Permitted named (.ready value : Deferred σ τ) :=
  of_givesNone rfl

/-- A script is permitted if aliases may be given, or if it gives none. -/
theorem of_script {steps : List Step} (h : scriptGivesAlias steps = true → named) :
    Permitted named steps := by
  refine fun hgives => h ?_
  clear h
  induction steps with
  | nil => cases hgives
  | cons step rest ih =>
      rw [scriptGivesAlias, Bool.or_eq_true]
      exact (Bool.or_eq_true _ _ ▸ hgives).imp_right ih

end Permitted

/-! What builders keep -/

/-- What waits gives aliases only if they may be given. -/
structure Pending.Permits (named : Prop) (p : Pending) : Prop where
  selects : Permitted named p.selects
  wheres : Permitted named p.wheres
  orderTerms : Permitted named p.orderTerms
  limit : Permitted named p.limit
  offsets : Permitted named p.offsets
  cursor : Permitted named p.cursor
  comparator : Permitted named p.comparator

namespace Builder

/-- Aliases are given in the scripts that the builder keeps only if they may be. -/
structure Permits (named : Prop) (b : Builder) : Prop where
  callbacks : ∀ c, Permitted named (b.callbacks c)
  pending : b.pending.Permits named
  comparator : Permitted named b.resolved.comparator

variable {named : Prop}

/-- Where aliases may be given, a builder may keep any scripts. -/
theorem Permits.of_named (hnamed : named) (b : Builder) : b.Permits named where
  callbacks _ := .of_named hnamed _
  pending := ⟨.of_named hnamed _, .of_named hnamed _, .of_named hnamed _, .of_named hnamed _,
    .of_named hnamed _, .of_named hnamed _, .of_named hnamed _⟩
  comparator := .of_named hnamed _

/-- A new builder holds no scripts. -/
theorem permits_fresh (options : Options) (parent : Option ParentRef) :
    (fresh options parent).Permits named where
  callbacks c := by cases c <;> exact .of_givesNone rfl
  pending := ⟨.nil, .nil, .nil, .none, .nil, .none, .none⟩
  comparator := .none

/-- A change of a builder that leaves its row source as it is, and that adds no scripts in
which aliases are given, unless they may be. -/
structure Tame (named : Prop) (change : Builder → Builder) : Prop where
  permits : ∀ {b : Builder}, b.Permits named → (change b).Permits named
  keeps : ∀ b, (change b).source = b.source ∧ (change b).parent = b.parent ∧
    (b.locked .source = true → (change b).locked .source = true)

/-- A registration of something that is permitted. -/
theorem Tame.pending (change : Pending → Pending)
    (hchange : ∀ p, p.Permits named → (change p).Permits named) :
    Tame named fun b => { b with pending := change b.pending } where
  permits hb := { hb with pending := hchange _ hb.pending }
  keeps _ := ⟨rfl, rfl, id⟩

/-- A change that adds no scripts at all. -/
theorem Tame.of_same {change : Builder → Builder}
    (hsame : ∀ b, (change b).callbacks = b.callbacks ∧ (change b).pending = b.pending ∧
      (change b).resolved.comparator = b.resolved.comparator)
    (hkeeps : ∀ b, (change b).source = b.source ∧ (change b).parent = b.parent ∧
      (change b).locked = b.locked) : Tame named change where
  permits {b} hb := by
    obtain ⟨hcallbacks, hpending, hcomparator⟩ := hsame b
    exact ⟨hcallbacks ▸ hb.callbacks, hpending ▸ hb.pending, hcomparator ▸ hb.comparator⟩
  keeps b := by
    obtain ⟨hsource, hparent, hlocked⟩ := hkeeps b
    exact ⟨hsource, hparent, fun h => hlocked ▸ h⟩

/-- A queue is replaced by one that is permitted. -/
theorem Tame.setCallbacks (c : Concern) {queue : Builder → List Callback}
    (hqueue : ∀ b, Permitted named (b.callbacks c) → Permitted named (queue b)) :
    Tame named fun b => b.setCallbacks c (queue b) where
  permits {b} hb :=
    { hb with
      callbacks := fun d => by
        rw [Builder.setCallbacks]
        dsimp only
        split
        · exact hqueue b (hb.callbacks c)
        · exact hb.callbacks d }
  keeps _ := ⟨rfl, rfl, id⟩

/-- To mark a concern as locked registers nothing. -/
theorem Tame.setLocked (c : Concern) : Tame named fun b => b.setLocked c where
  permits hb := { hb with }
  keeps b := by
    refine ⟨rfl, rfl, fun hlocked => ?_⟩
    rw [Builder.setLocked]
    dsimp only
    split
    · rfl
    · exact hlocked

end Builder

end PageQuery
