import PageQuery.Proofs.Logic.Operations
import PageQuery.Proofs.Mirror.Changes

/-!
# Operations mirror each other

On builders that are alike an operation does the same, if its locks do: to mirror each other is
a logic of actions.  A comparator may be given the two cursors of the builder of interest, which
it compares alike unless they are positions.
-/

namespace PageQuery

open Sql

/-- A lock that mirrors itself, and that locks its concern on the builder of interest. -/
structure Locker.Mirrored (R : Json → Json → Prop) (own : BuilderId) (lock : Locker) : Prop where
  locks {c : Concern} {w w' : World} (hlive : own < w.nextBuilder)
    (hrun : (lock c).exec own w = (.ok (), w')) : (w'.builder own).locked c = true
  lock (c : Concern) (id : BuilderId) : Action.Mirrors R own id (lock c) (lock c)

namespace Action.Mirrors

variable {R : Json → Json → Prop} {own id : BuilderId}

/-- What is told of a child. -/
theorem childAnswer (name : String) :
    Mirrors R own id (childAnswer name) (childAnswer name) := by
  refine self_bind fun b b' hb => ?_
  rw [hb.child]
  refine (ofExcept (.of_plain (b.child name))).bind_plain fun child => ?_
  refine of_outcome (fun w => rfl) fun w w' hworld => .ok ?_
  rw [Builder.phase, Builder.phase, Builder.locks, Builder.locks, (hworld.builder child).locked]
  exact .refl_values _

end Action.Mirrors

namespace Locker.Mirrored

open PageQuery.Action

variable {R : Json → Json → Prop} {own id : BuilderId} {lock : Locker} (h : lock.Mirrored R own)

include h

/-- Children have the same id in both runs, and alike row sources. -/
theorem addChild (name : String) {table table' : Fragment}
    (htable : Alike (.values R) table table') {rowAlias rowAlias' : Option Node}
    (halias : Alike (.values R) rowAlias rowAlias') :
    Mirrors R own id (addChild lock name table rowAlias) (addChild lock name table' rowAlias') := by
  refine Mirrors.self_bind fun b b' hb => ?_
  rw [hb.children, hb.options]
  refine Mirrors.ite_bind (Mirrors.refuse _) (Mirrors.read_bind ?_)
  refine (Mirrors.ofExcept hb.tableAlias).bind fun tableAlias tableAlias' htableAlias => ?_
  have hparent : Alike (.values R) (some ⟨id, tableAlias⟩ : Option ParentRef)
      (some ⟨id, tableAlias'⟩) := .some ⟨rfl, htableAlias⟩
  refine (Mirrors.spawn fun _ => .fresh _ hparent).bind_plain fun child => ?_
  have hsource : Mirrors R own child (Action.source lock table rowAlias)
      (Action.source lock table' rowAlias') :=
    (Mirrors.registerSource htable halias).bind_plain fun _ => h.lock .source child
  refine hsource.within.bind_plain fun _ => (Mirrors.log _ _).bind_plain fun _ => ?_
  refine Mirrors.bind_plain (Mirrors.register (fun b b' hb => ?_) fun _ => ⟨rfl, rfl, rfl⟩)
    fun _ => Mirrors.pure rfl
  exact { hb with children := congrArg (Builder.insertChild name child) hb.children }

theorem addChildSelecting (name : String) {table table' : Fragment}
    (htable : Alike (.values R) table table') {rowAlias rowAlias' : Option Node}
    (halias : Alike (.values R) rowAlias rowAlias') {expr expr' : Fragment}
    (hexpr : Alike (.values R) expr expr') (exprName : String) :
    Mirrors R own id (addChildSelecting lock name table rowAlias expr exprName)
      (addChildSelecting lock name table' rowAlias' expr' exprName) := by
  refine (h.addChild name htable halias).bind_plain fun child => ?_
  have hselect : Mirrors R own child (select (.ready expr) exprName)
      (select (.ready expr') exprName) := Mirrors.select (.ready hexpr) exprName
  exact hselect.within.bind_plain fun _ => Mirrors.pure rfl

/-- Actions that mirror each other, with the lock. -/
def logic : Logic where
  toFrame := .mirror R own
  Holds _ id _ {_} [_] f f' := Mirrors R own id (f lock) (f' lock)
  le _ := .refl _
  op_mono {_ _} _ {_ _} h := h
  pure := Mirrors.pure
  refuse := Mirrors.refuse
  mono _ h := h
  bind {n _ _ _ _ _ _ _ _ _ _ _} hf hg := hf.bind fun a a' ha => hg n a a' (Nat.le_refl n) ha
  attempt h := h.attempt
  lock c := h.lock c _
  inspect {n _ _ _ _ _ _} hg := Mirrors.self_bind fun b b' hb => hg n b b' (Nat.le_refl n) hb.toSeen
  identify hg := Mirrors.read_bind (hg _)
  descend name hf := by
    refine Mirrors.self_bind fun b b' hb => ?_
    rw [hb.child]
    exact (Mirrors.ofExcept (.of_plain _)).bind_plain fun child => (hf child).within
  childAnswer := Mirrors.childAnswer
  evaluate _ := Mirrors.evaluate _
  evaluateNode _ := Mirrors.evaluateNode _
  log _ := Mirrors.log _ _
  record _ _ _ _ _ := Mirrors.record _ _
  save name _ _ hf := Mirrors.save name hf
  mintToken := Mirrors.mintToken
  builtStatement h := by
    refine h.bind fun s s' hs => Mirrors.read_bind ?_
    exact (Mirrors.remember _ _).bind_plain fun _ => Mirrors.pure hs
  register := Mirrors.register_like
  registerSource htable _ _ halias _ := Mirrors.registerSource htable halias
  registerComparator h := by
    obtain rfl := h.eq Eq.symm
    exact Mirrors.registerComparator _
  addChild name _ _ htable _ _ halias _ := h.addChild name htable halias
  addChildSelecting name _ _ htable _ _ halias _ _ _ hexpr :=
    h.addChildSelecting name htable halias hexpr
  op_cases {_ o o'} hop := by
    obtain rfl : o = o' := hop
    exact .inl ((Frame.reflexive_mirror R own).like o)

/-- A step that both runs perform. -/
theorem performStep (s : Step) :
    Mirrors R own id (performStep lock s) (performStep lock s) :=
  h.logic.performStep (n := 0) ⟨rfl, rfl, rfl, rfl⟩

/-- A script mirrors itself. -/
theorem runSteps (steps : List Step) :
    Mirrors R own id (runSteps lock steps) (runSteps lock steps) :=
  h.logic.runSteps (n := 0) ((Frame.reflexive_mirror R own).script steps)

/-! Cursors of the builder of interest -/

/-- Once the order is settled not to tell rows apart, the cursors are positions. -/
theorem positional_of_isOrderUnique {w w' : World} (hlive : own < w.nextBuilder)
    (hrun : (Action.isOrderUnique lock true).exec own w = (.ok false, w')) :
    w'.Positional own := by
  have hsettles : Mirrors R own own (Action.isOrderUnique lock true) _ :=
    h.logic.isOrderUnique (n := 0) true
  have hgrows := (hsettles.later w).grows
  rw [hrun] at hgrows
  change (lock .order >>= fun _ => lock .uniqueness >>= fun _ =>
    do return (← self).orderIsUnique).exec own w = _ at hrun
  obtain ⟨_, w₁, horder, hrest⟩ := exec_bind_eq_ok hrun
  obtain ⟨_, w₂, huniqueness, hanswer⟩ := exec_bind_eq_ok hrest
  have hlive₁ : own < w₁.nextBuilder := by
    have hgrows := ((h.lock .order own).later w).grows
    rw [horder] at hgrows
    exact Nat.lt_of_lt_of_le hlive hgrows
  obtain ⟨hunique, rfl⟩ := Prod.mk.inj hanswer
  exact ⟨Nat.lt_of_lt_of_le hlive hgrows, .inl ⟨h.locks hlive₁ huniqueness, Except.ok.inj hunique⟩⟩

/-- Cursors with the same tag and alike values are refused together, or register alike bounds. -/
theorem compareRow {cursor cursor' : List Json} (hcursor : Cursor.Alike (.values R) cursor cursor')
    (isAfter : Bool) :
    Mirrors R own id (Action.compareRow lock cursor isAfter)
      (Action.compareRow lock cursor' isAfter) :=
  h.logic.compareRow (n := 0) (fun _ _ => hcursor) isAfter

/-- Cursors with one tag and alike values are used alike, unless they are positions. -/
theorem compareRelay_own {cursor cursor' : List Json}
    (hcursor : Cursor.Alike (.values R) cursor cursor') (isAfter : Bool) :
    Mirrors R own own (Action.compareRelay lock cursor isAfter)
      (Action.compareRelay lock cursor' isAfter) := by
  have hrow : Mirrors R own own _ _ := h.compareRow hcursor isAfter
  have hsettles : Mirrors R own own (Action.isOrderUnique lock true) _ :=
    h.logic.isOrderUnique (n := 0) true
  have hnatural : Mirrors R own own (Action.compareNatural lock cursor isAfter) _ :=
    h.logic.compareNatural (n := 0) cursor isAfter
  rw [Action.compareRelay, Action.compareRelay, hcursor.tag]
  refine Mirrors.ite (hsettles.bind_of ?_ ?_) hrow
  · intro unique
    have hsame : Mirrors R own own _ _ := Mirrors.ite (p := unique = true)
      (h.compareRow (.refl cursor) isAfter) hnatural
    exact hsame.later
  · intro w w₁ unique unique' hlive hrun hunique
    obtain rfl : unique = unique' := hunique
    cases unique with
    | false => exact .inl (h.positional_of_isOrderUnique hlive hrun)
    | true => exact .inr hrow

end Locker.Mirrored

end PageQuery
