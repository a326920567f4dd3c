import Mathlib
import PageQuery.Proofs.Run.Finalized
import PageQuery.Proofs.Run.Path

/-!
# What becomes of filters

A filter is accepted while the wheres of its builder are open.  When they are settled,
each accepted filter gets its value, in the order of acceptance.  But the wheres are
locked before their values are known: if one of the values fails they stay locked, all
that was registered is gone, and every later statement of the builder has no filter at
all.  So a filter stands in a statement exactly if the wheres were settled between the
two.
-/

namespace PageQuery

open Sql

/-- What the value of a filter may be. -/
inductive Yields : DeferredFragment → Fragment → Prop
  | ready (f : Fragment) : Yields (.ready f) f
  | lazy (steps : List Step) (value : FragmentSource) (f : Fragment) :
      Yields (.lazy steps value) f

/-- What is known of the values that filters are settled to, given what has happened by then. -/
abbrev Valuation := List Moment → List DeferredFragment → List Fragment → Prop

namespace Moment

/-- The filter of builder `i` that a moment tells of. -/
def filterOf? (i : BuilderId) : Moment → Option DeferredFragment
  | .filterAccepted id expr => if id = i then some expr else none
  | _ => none

/-- The filters of builder `i`, in the order in which they were accepted. -/
def accepted (i : BuilderId) (history : List Moment) : List DeferredFragment :=
  history.filterMap (filterOf? i)

/-- What is true of a moment of builder `i`, given what went before: no filter is
accepted once the wheres are settled, and a statement holds the values of all filters
if the wheres are settled by then, and no filter otherwise. -/
def Faithful (V : Valuation) (i : BuilderId) (before : List Moment) : Moment → Prop
  | .filterAccepted id _ => id = i → .settled i .wheres ∉ before
  | .built id s => id = i →
      (.settled i .wheres ∈ before → V before (accepted i before) s.filter.wheres) ∧
      (.settled i .wheres ∉ before → s.filter.wheres = [])
  | _ => True

/-- Moments that a builder's filters do not depend on. -/
def Foreign (i : BuilderId) : Moment → Prop
  | .filterAccepted id _ => id ≠ i
  | .settled id c => id = i → c ≠ .wheres
  | .built id _ => id ≠ i
  | .callbackRefused _ _ _ => True

/-- Every moment of a history is faithful. -/
def AllFaithful (V : Valuation) (i : BuilderId) (history : List Moment) : Prop :=
  ∀ before m, before ++ [m] <+: history → Faithful V i before m

variable {V : Valuation} {i : BuilderId} {history : List Moment} {m : Moment}

theorem AllFaithful.concat (hall : AllFaithful V i history) (hm : Faithful V i history m) :
    AllFaithful V i (history ++ [m]) := by
  intro before last hprefix
  rcases List.prefix_concat_iff.mp hprefix with hwhole | hbefore
  · obtain ⟨rfl, hlast⟩ := List.append_inj' hwhole rfl
    cases hlast
    exact hm
  · exact hall before last hbefore

theorem Foreign.faithful (hforeign : Foreign i m) : Faithful V i history m := by
  cases m with
  | filterAccepted id expr => exact fun hid => absurd hid hforeign
  | built id s => exact fun hid => absurd hid hforeign
  | callbackRefused | settled => trivial

/-- A moment accepts one where at most. -/
theorem accepted_concat (history : List Moment) (m : Moment) :
    accepted i (history ++ [m]) = accepted i history ++ (filterOf? i m).toList := by
  rw [accepted, List.filterMap_append]
  cases hm : filterOf? i m with
  | none => simp [hm, accepted]
  | some expr => simp [hm, accepted]

theorem Foreign.accepted (hforeign : Foreign i m) :
    Moment.accepted i (history ++ [m]) = Moment.accepted i history := by
  rw [accepted_concat]
  cases m with
  | filterAccepted id expr => simp [filterOf?, if_neg hforeign]
  | _ => simp [filterOf?]

theorem Foreign.settled (hforeign : Foreign i m) :
    .settled i .wheres ∈ history ++ [m] ↔ .settled i .wheres ∈ history := by
  constructor
  · intro hsettled
    rcases List.mem_append.mp hsettled with hbefore | hnow
    · exact hbefore
    · rw [List.mem_singleton] at hnow
      subst hnow
      exact absurd rfl (hforeign rfl)
  · exact List.mem_append_left _

end Moment

namespace World

open Moment

/-- How the filters of builder `i` stand. -/
structure Filtered (V : Valuation) (i : BuilderId) (w : World) : Prop where
  faithful : AllFaithful V i w.history
  unborn : w.nextBuilder ≤ i → accepted i w.history = [] ∧ .settled i .wheres ∉ w.history
  waiting : i < w.nextBuilder → (w.builder i).locked .wheres = false →
    .settled i .wheres ∉ w.history ∧ (w.builder i).pending.wheres = accepted i w.history
  unsettled : i < w.nextBuilder → .settled i .wheres ∉ w.history →
    (w.builder i).resolved.wheres = []
  settled : i < w.nextBuilder → .settled i .wheres ∈ w.history →
    V w.history (accepted i w.history) (w.builder i).resolved.wheres

/-- The wheres of builder `i` are locked, but their values are still being settled. -/
structure Settling (i : BuilderId) (filters : List DeferredFragment) (w : World) : Prop where
  locked : w.Locked i .wheres
  unsettled : .settled i .wheres ∉ w.history
  accepted : accepted i w.history = filters

end World

/-- What is known of values stays known, and is true of the values that come. -/
structure Valuation.Sound (V : Valuation) (i : BuilderId) : Prop where
  concat : ∀ ⦃history filters values⦄ (m : Moment), V history filters values →
    V (history ++ [m]) filters values
  comes : ∀ ⦃fuel w w' filters values⦄, w.Settling i filters →
    (filters.mapM (Action.resolveFragment (Action.lockWith fuel))).exec i w = (.ok values, w') →
      V (w'.history ++ [.settled i .wheres]) filters values

namespace World

open Moment

variable {V : Valuation} {i : BuilderId} {filters : List DeferredFragment} {w : World}

/-- A change of a builder does not matter unless it concerns the filters of builder `i`. -/
theorem Filtered.setBuilder (hfiltered : w.Filtered V i) {id : BuilderId} {b : Builder}
    (hsame : i = id → b.locked .wheres = (w.builder id).locked .wheres ∧
      b.pending.wheres = (w.builder id).pending.wheres ∧
      b.resolved.wheres = (w.builder id).resolved.wheres) :
    (w.setBuilder id b).Filtered V i := by
  have hlocked := part_setBuilder (·.locked .wheres) fun hid => (hsame hid).1
  have hpending := part_setBuilder (·.pending.wheres) fun hid => (hsame hid).2.1
  have hresolved := part_setBuilder (·.resolved.wheres) fun hid => (hsame hid).2.2
  refine ⟨hfiltered.faithful, hfiltered.unborn, ?_, ?_, ?_⟩
  · rw [hlocked, hpending]
    exact hfiltered.waiting
  · rw [hresolved]
    exact hfiltered.unsettled
  · rw [hresolved]
    exact hfiltered.settled

/-- Once its wheres are locked, it does not matter what waits in a builder. -/
theorem Filtered.locked (hfiltered : w.Filtered V i) {b : Builder}
    (hlocked : b.locked .wheres = true)
    (hresolved : b.resolved.wheres = (w.builder i).resolved.wheres) :
    (w.setBuilder i b).Filtered V i := by
  have hbuilder : (w.setBuilder i b).builder i = b := by
    rw [builder_setBuilder_self]
  refine ⟨hfiltered.faithful, hfiltered.unborn, ?_, ?_, ?_⟩
  · rw [hbuilder, hlocked]
    intro _ hopen
    cases hopen
  · rw [hbuilder, hresolved]
    exact hfiltered.unsettled
  · rw [hbuilder, hresolved]
    exact hfiltered.settled

theorem Filtered.remember (hV : V.Sound i) (hfiltered : w.Filtered V i) {m : Moment}
    (hforeign : m.Foreign i) : Filtered V i { w with history := w.history ++ [m] } := by
  refine ⟨hfiltered.faithful.concat hforeign.faithful, ?_, ?_, ?_, ?_⟩
  · rw [hforeign.accepted, hforeign.settled]
    exact hfiltered.unborn
  · rw [hforeign.accepted, hforeign.settled]
    exact hfiltered.waiting
  · rw [hforeign.settled]
    exact hfiltered.unsettled
  · rw [hforeign.accepted, hforeign.settled]
    exact fun hlive hsettled => hV.concat m (hfiltered.settled hlive hsettled)

/-- A builder that is made gets a new id, under which nothing has happened. -/
theorem Filtered.spawned (hfiltered : w.Filtered V i) (options : Options)
    (parent : Option ParentRef) : (w.spawned (.fresh options parent)).Filtered V i := by
  by_cases hborn : i = w.nextBuilder
  · obtain ⟨hnone, hunsettled⟩ := hfiltered.unborn (Nat.le_of_eq hborn.symm)
    refine ⟨hfiltered.faithful, ?_, ?_, ?_, ?_⟩
    · intro hunborn
      exact absurd hunborn (Nat.not_le_of_lt (hborn ▸ Nat.lt_succ_self _))
    · rw [builder_spawned, if_pos hborn]
      exact fun _ _ => ⟨hunsettled, hnone.symm⟩
    · rw [builder_spawned, if_pos hborn]
      exact fun _ _ => rfl
    · exact fun _ hsettled => absurd hsettled hunsettled
  · have hlive (hlive' : i < (w.spawned (.fresh options parent)).nextBuilder) :
        i < w.nextBuilder :=
      Nat.lt_of_le_of_ne (Nat.lt_succ_iff.mp hlive') hborn
    refine ⟨hfiltered.faithful, ?_, ?_, ?_, ?_⟩
    · exact fun hunborn => hfiltered.unborn (Nat.le_of_lt hunborn)
    · rw [builder_spawned, if_neg hborn]
      exact fun hlive' => hfiltered.waiting (hlive hlive')
    · rw [builder_spawned, if_neg hborn]
      exact fun hlive' => hfiltered.unsettled (hlive hlive')
    · rw [builder_spawned, if_neg hborn]
      exact fun hlive' => hfiltered.settled (hlive hlive')

/-- A filter that is accepted waits behind the others. -/
theorem Filtered.filter (hfiltered : w.Filtered V i) (expr : DeferredFragment)
    (hlive : i < w.nextBuilder) (hopen : (w.builder i).locked .wheres = false) :
    Filtered V i { w.setBuilder i { w.builder i with
        pending := { (w.builder i).pending with
          wheres := (w.builder i).pending.wheres ++ [expr] } } with
      history := w.history ++ [.filterAccepted i expr] } := by
  obtain ⟨hunsettled, hpending⟩ := hfiltered.waiting hlive hopen
  have hstill : .settled i .wheres ∉ w.history ++ [.filterAccepted i expr] := by
    simpa using hunsettled
  have haccepted : accepted i (w.history ++ [.filterAccepted i expr]) =
      accepted i w.history ++ [expr] := by
    rw [accepted_concat]
    simp [filterOf?]
  have hbuilder (b : Builder) : (w.setBuilder i b).builder i = b := by
    rw [builder_setBuilder_self]
  refine ⟨hfiltered.faithful.concat fun _ => hunsettled, ?_, ?_, ?_, ?_⟩
  · exact fun hunborn => absurd hlive (Nat.not_lt_of_le hunborn)
  · intro _ _
    refine ⟨hstill, ?_⟩
    change ((w.setBuilder i _).builder i).pending.wheres = _
    rw [hbuilder, haccepted, ← hpending]
  · intro _ _
    change ((w.setBuilder i _).builder i).resolved.wheres = _
    rw [hbuilder]
    exact hfiltered.unsettled hlive hunsettled
  · exact fun _ hsettled => absurd hsettled hstill

/-- A statement holds the filters as they are settled. -/
theorem Filtered.built (hV : V.Sound i) (hfiltered : w.Filtered V i) {id : BuilderId}
    {s : Statement} (hlive : id < w.nextBuilder)
    (hwheres : s.filter.wheres = (w.builder id).resolved.wheres) :
    Filtered V i { w with history := w.history ++ [.built id s] } := by
  have haccepted : accepted i (w.history ++ [.built id s]) = accepted i w.history := by
    rw [accepted_concat]
    simp [filterOf?]
  have hsettled : .settled i .wheres ∈ w.history ++ [.built id s] ↔
      .settled i .wheres ∈ w.history := by simp
  refine ⟨hfiltered.faithful.concat ?_, ?_, ?_, ?_, ?_⟩
  · intro hid
    rw [hwheres, hid]
    exact ⟨hfiltered.settled (hid ▸ hlive), hfiltered.unsettled (hid ▸ hlive)⟩
  · rw [haccepted, hsettled]
    exact hfiltered.unborn
  · rw [haccepted, hsettled]
    exact hfiltered.waiting
  · rw [hsettled]
    exact hfiltered.unsettled
  · rw [haccepted, hsettled]
    exact fun hlive' hsettled' => hV.concat _ (hfiltered.settled hlive' hsettled')

/-- No change of the world but a registration touches the wheres, and that one is remembered. -/
theorem stable_filtered (hV : V.Sound i) : Stable (Filtered V i) := by
  intro w w' hchange hfiltered
  cases hchange with
  | report | save | mint => exact ⟨hfiltered.1, hfiltered.2, hfiltered.3, hfiltered.4, hfiltered.5⟩
  | spawn options parent => exact hfiltered.spawned options parent
  | edit _ hedit =>
      obtain ⟨hpending, hresolved⟩ := wheres_of_edit hedit
      exact hfiltered.setBuilder fun _ => ⟨by rw [locked_of_edit hedit], hpending, hresolved⟩
  | @filter id expr hlive hopen =>
      by_cases hid : id = i
      · subst hid
        exact hfiltered.filter expr hlive hopen
      · have hchanged : (w.setBuilder id { w.builder id with
            pending := { (w.builder id).pending with
              wheres := (w.builder id).pending.wheres ++ [expr] } }).Filtered V i :=
          hfiltered.setBuilder fun hid' => absurd hid'.symm hid
        exact hchanged.remember hV hid
  | child name child _ _ => exact hfiltered.setBuilder fun _ => ⟨rfl, rfl, rfl⟩
  | built s hlive _ hwheres => exact hfiltered.built hV hlive hwheres

theorem Settling.setBuilder (hsettling : w.Settling i filters) {id : BuilderId} {b : Builder}
    (hkeeps : (w.builder id).locked .wheres = true → b.locked .wheres = true) :
    (w.setBuilder id b).Settling i filters :=
  ⟨hsettling.locked.setBuilder hkeeps, hsettling.unsettled, hsettling.accepted⟩

theorem Settling.remember (hsettling : w.Settling i filters) {m : Moment}
    (hforeign : m.Foreign i) :
    Settling i filters { w with history := w.history ++ [m] } := by
  refine ⟨hsettling.locked, ?_, ?_⟩
  · rw [hforeign.settled]
    exact hsettling.unsettled
  · rw [hforeign.accepted]
    exact hsettling.accepted

theorem stable_settling : Stable (Settling i filters) := by
  intro w w' hchange hsettling
  refine ⟨stable_locked i .wheres hchange hsettling.locked,
    fun hsettled => hsettling.unsettled (hchange.settled hsettled), ?_⟩
  cases hchange with
  | filter expr _ hopen =>
      change accepted i (w.history ++ _) = filters
      rw [accepted_concat, filterOf?, if_neg]
      · simpa using hsettling.accepted
      · intro hid
        rw [hid, hsettling.locked.2] at hopen
        cases hopen
  | built s _ _ _ =>
      change accepted i (w.history ++ _) = filters
      rw [accepted_concat]
      simpa [filterOf?] using hsettling.accepted
  | _ => exact hsettling.accepted

/-- When the values of the wheres have come, they take the place of the filters. -/
theorem Settling.settle (hsettling : w.Settling i filters) (hfiltered : w.Filtered V i)
    {values : List Fragment} (hvalues : V (w.history ++ [.settled i .wheres]) filters values) :
    Filtered V i { w.setBuilder i { w.builder i with
        resolved := { (w.builder i).resolved with wheres := values } } with
      history := w.history ++ [.settled i .wheres] } := by
  have hsettled : .settled i .wheres ∈ w.history ++ [.settled i .wheres] :=
    List.mem_append_right _ (List.mem_singleton_self _)
  have hbuilder (b : Builder) : (w.setBuilder i b).builder i = b := by
    rw [builder_setBuilder_self]
  refine ⟨hfiltered.faithful.concat trivial, ?_, ?_, ?_, ?_⟩
  · exact fun hunborn => absurd hsettling.locked.1 (Nat.not_lt_of_le hunborn)
  · intro _ hopen
    change ((w.setBuilder i _).builder i).locked .wheres = false at hopen
    rw [hbuilder] at hopen
    exact absurd hsettling.locked.2 (by simpa using hopen)
  · exact fun _ hunsettled => absurd hsettled hunsettled
  · intro _ _
    change V (w.history ++ _) (Moment.accepted i (w.history ++ _))
      ((w.setBuilder i _).builder i).resolved.wheres
    rw [hbuilder, accepted_concat]
    simpa [filterOf?, hsettling.accepted] using hvalues

end World

namespace Action

open World Moment

variable {V : Valuation} {i id : BuilderId} {w w' : World} {filters : List DeferredFragment}
  {lock : Locker}

/-- The values of the wheres are those that their scripts yield. -/
theorem yields_of_mapM {values : List Fragment}
    (hrun : (filters.mapM (resolveFragment lock)).exec id w = (.ok values, w')) :
    List.Forall₂ Yields filters values := by
  induction filters generalizing w w' values with
  | nil =>
      cases hrun
      exact .nil
  | cons filter rest ih =>
      rw [List.mapM_cons] at hrun
      obtain ⟨value, middle, hvalue, hrest⟩ := exec_bind_eq_ok hrun
      obtain ⟨others, behind, hothers, hpure⟩ := exec_bind_eq_ok hrest
      cases hpure
      refine .cons ?_ (ih hothers)
      cases filter with
      | ready f =>
          cases hvalue
          exact .ready _
      | lazy steps source => exact .lazy steps source value

theorem sound_yields (i : BuilderId) : Valuation.Sound (fun _ => List.Forall₂ Yields) i where
  concat _ _ _ _ hvalues := hvalues
  comes _ _ _ _ _ _ hrun := yields_of_mapM hrun

/-- Nothing touches the wheres while they are settled. -/
theorem respects_settling (fuel : Nat) : (lockWith fuel).Respects (Settling i filters) := by
  apply respects_lockWith stable_settling
  intro fuel id c h
  have hdrain : Preserves (Settling i filters) id (drain (lockWith fuel) c fuel) :=
    h.drain (fun _ _ _ hsettling => hsettling.setBuilder fun hlocked => hlocked)
      (fun _ _ _ hsettling => hsettling.remember trivial) fuel
  apply hdrain.bind
  intro _
  by_cases hwheres : i = id ∧ c = .wheres
  · obtain ⟨rfl, rfl⟩ := hwheres
    intro w _ hclosed hsettling _
    rw [exec_settleOpen, if_pos hsettling.locked.2]
    exact World.Kept.refl hclosed hsettling
  · have hforeign : (Moment.settled id c).Foreign i :=
      fun hid hc => hwheres ⟨hid.symm, hc⟩
    apply Preserves.settleOpen
    · intro w _ _ hsettling
      exact hsettling.setBuilder (setLocked_of_locked c)
    · refine h.settleValues ?_ ?_ ?_
      · exact fun _ _ _ _ _ hsettling => hsettling.setBuilder fun hlocked => hlocked
      · exact fun _ _ hsettling => ⟨hsettling.1, hsettling.2, hsettling.3⟩
      · exact fun _ _ hsettling => hsettling.remember hforeign

/-- The values of the wheres are computed when nothing waits any more. -/
theorem exec_resolve_wheres (lock : Locker) :
    (resolve lock .wheres).exec id w =
      (do
        let values ← (w.builder id).pending.wheres.mapM (resolveFragment lock)
        updateResolved fun r => { r with wheres := values }).exec id
          (w.setBuilder id { w.builder id with
            pending := { (w.builder id).pending with wheres := [] } }) := rfl

/-- While the values of the wheres are settled, scripts may do whatever they like: in the
end the values take the place of the filters that had been accepted. -/
theorem resolve_filtered {fuel : Nat} (hV : V.Sound i) (h : (lockWith fuel).Respects (Filtered V i))
    (hclosed : w.Closed) (hfiltered : w.Filtered V i)
    (hsettling : w.Settling i (w.builder i).pending.wheres)
    (hhalt : Completes ((do resolve (lockWith fuel) .wheres; remember (.settled (← read) .wheres)).exec
      i w).1) :
    w.Kept (Filtered V i)
      ((do resolve (lockWith fuel) .wheres; remember (.settled (← read) .wheres)).exec i w).2 := by
  generalize hfilters : (w.builder i).pending.wheres = filters at hsettling
  have hboth : (lockWith fuel).Respects fun w => w.Filtered V i ∧ w.Settling i filters :=
    h.and (respects_settling fuel)
  have hresolve : (resolve (lockWith fuel) .wheres).exec i w = _ := exec_resolve_wheres _
  rw [hfilters] at hresolve
  generalize htaken : w.setBuilder i { w.builder i with
    pending := { (w.builder i).pending with wheres := [] } } = taken at hresolve
  have hkept : w.Kept (fun w => w.Filtered V i ∧ w.Settling i filters) taken := by
    rw [← htaken]
    refine ⟨⟨hfiltered.locked hsettling.locked.2 rfl, ?_⟩,
      hclosed.setBuilder i (hclosed i), Nat.le_refl _⟩
    exact hsettling.setBuilder fun hlocked => hlocked
  have hlive := Nat.lt_of_lt_of_le hsettling.locked.1 hkept.grows
  have hvalues : Preserves (fun w => w.Filtered V i ∧ w.Settling i filters) i
      (filters.mapM (resolveFragment (lockWith fuel))) :=
    Preserves.mapM _ fun filter => hboth.resolveFragment filter
  rcases hrun : (filters.mapM (resolveFragment (lockWith fuel))).exec i taken
    with ⟨halt | values, w'⟩
  · rw [exec_bind_error hrun] at hresolve
    rw [exec_bind_error hresolve] at hhalt ⊢
    have hkept' := hvalues hlive hkept.closed hkept.holds
    rw [hrun] at hkept'
    have hbehind := hkept.trans (hkept' hhalt.error)
    exact hbehind.imp And.left
  · rw [exec_bind_ok hrun] at hresolve
    rw [exec_bind_ok hresolve]
    have hbehind := hkept.trans (hvalues.kept hlive hkept.closed hkept.holds hrun)
    exact ⟨hbehind.holds.2.settle hbehind.holds.1 (hV.comes hkept.holds.2 hrun),
      hbehind.closed.setBuilder i (hbehind.closed i), hbehind.grows⟩

theorem settleValues_filtered {fuel : Nat} (hV : V.Sound i)
    (h : (lockWith fuel).Respects (Filtered V i)) (hclosed : w.Closed) (hfiltered : w.Filtered V i)
    (hsettling : w.Settling i (w.builder i).pending.wheres)
    (hhalt : Completes ((settleValues (lockWith fuel) .wheres).exec i w).1) :
    w.Kept (Filtered V i) ((settleValues (lockWith fuel) .wheres).exec i w).2 := by
  rw [settleValues, exec_bind_ok exec_read, exec_bind_ok (exec_log _)] at hhalt ⊢
  have hlogged : Filtered V i { w with events := w.events ++ [.locked i .wheres] } :=
    { hfiltered with }
  have hkept := resolve_filtered hV h (w := { w with events := w.events ++ [.locked i .wheres] })
    hclosed hlogged { hsettling with } hhalt
  exact ⟨hkept.holds, hkept.closed, hkept.grows⟩

/-- The settlement of the wheres, from the moment in which they lock. -/
theorem settle_filtered {fuel : Nat} (hV : V.Sound i) (h : (lockWith fuel).Respects (Filtered V i))
    (hlive : i < w.nextBuilder) (hclosed : w.Closed) (hfiltered : w.Filtered V i)
    (hopen : (w.builder i).locked .wheres = false)
    (hhalt : Completes ((settle (lockWith fuel) .wheres).exec i w).1) :
    w.Kept (Filtered V i) ((settle (lockWith fuel) .wheres).exec i w).2 := by
  obtain ⟨hunsettled, hpending⟩ := hfiltered.waiting hlive hopen
  have hbuilder (b : Builder) : (w.setBuilder i b).builder i = b := by
    rw [World.builder_setBuilder_self]
  have hlocked := setLocked_locked (w.builder i) .wheres
  rw [exec_settle] at hhalt ⊢
  have hsettling : (w.setBuilder i ((w.builder i).setLocked .wheres)).Settling i
      ((w.setBuilder i ((w.builder i).setLocked .wheres)).builder i).pending.wheres := by
    refine ⟨⟨hlive, by rw [hbuilder, hlocked]⟩, hunsettled, ?_⟩
    rw [hbuilder]
    exact hpending.symm
  have hkept := settleValues_filtered hV h (closed_setLocked hclosed)
    (hfiltered.locked hlocked rfl) hsettling hhalt
  exact ⟨hkept.holds, hkept.closed, hkept.grows⟩

theorem respects_filtered (hV : V.Sound i) (fuel : Nat) :
    (lockWith fuel).Respects (Filtered V i) := by
  apply respects_lockWith (stable_filtered hV)
  intro fuel id c h
  have hdrain : Preserves (Filtered V i) id (drain (lockWith fuel) c fuel) :=
    h.drain (fun _ _ _ hfiltered => hfiltered.setBuilder fun _ => ⟨rfl, rfl, rfl⟩)
      (fun _ _ _ hfiltered => hfiltered.remember hV trivial) fuel
  apply hdrain.bind
  intro _
  by_cases hwheres : i = id ∧ c = .wheres
  · obtain ⟨rfl, rfl⟩ := hwheres
    intro w hlive hclosed hfiltered hhalt
    rw [exec_settleOpen] at hhalt ⊢
    split
    · exact World.Kept.refl hclosed hfiltered
    · rw [if_neg ‹_›] at hhalt
      exact settle_filtered hV h hlive hclosed hfiltered (by simpa using ‹¬_ = true›) hhalt
  · have hforeign : (Moment.settled id c).Foreign i :=
      fun hid hc => hwheres ⟨hid.symm, hc⟩
    apply Preserves.settleOpen
    · intro w _ _ hfiltered
      apply hfiltered.setBuilder
      intro hid
      refine ⟨?_, rfl, rfl⟩
      have hc : ¬Concern.wheres = c := fun hc => hwheres ⟨hid, hc.symm⟩
      simp only [Builder.setLocked, if_neg hc]
    · apply h.settleValues
      · intro w pending resolved hkeeps _ hfiltered
        apply hfiltered.setBuilder
        intro hid
        have hsame := hkeeps .wheres fun hc => hwheres ⟨hid, hc.symm⟩
        exact ⟨rfl, congrArg Prod.fst hsame, congrArg Prod.snd hsame⟩
      · exact fun _ _ hfiltered => { hfiltered with }
      · exact fun _ _ hfiltered => hfiltered.remember hV hforeign

end Action

namespace World

open PageQuery.Action Moment

variable {w : World} {id : BuilderId}

/-- In every run the wheres of a builder are in step with its history. -/
theorem Reached.filtered (hreached : w.Reached) {V : Valuation} {i : BuilderId} (hV : V.Sound i) :
    w.Filtered V i := by
  have hstart (options : Options) (tokens : Nat) : (start options tokens).Filtered V i := by
    refine ⟨?_, fun _ => ⟨rfl, List.not_mem_nil⟩, ?_, ?_, fun _ hsettled => nomatch hsettled⟩
    · intro before m hprefix
      exact absurd (List.prefix_nil.mp hprefix) (by simp)
    · rw [builder_start]
      exact fun _ _ => ⟨List.not_mem_nil, rfl⟩
    · rw [builder_start]
      exact fun _ _ => rfl
  exact (hreached.kept (respects_filtered hV) hstart fun _ hfiltered => { hfiltered with }).2.2

/-- The filters of a statement are the values of all that were accepted before it, if
the wheres were settled by then, and none otherwise. -/
theorem Reached.wheres_of_built (hreached : w.Reached) {before after : List Moment}
    {s : Statement} (hhistory : w.history = before ++ .built id s :: after) :
    (.settled id .wheres ∈ before →
      List.Forall₂ Yields (accepted id before) s.filter.wheres) ∧
    (.settled id .wheres ∉ before → s.filter.wheres = []) := by
  exact (hreached.filtered (sound_yields id)).faithful before (.built id s)
    ⟨after, by simp [hhistory]⟩ rfl

/-- A filter that was accepted stands in a later statement of its builder exactly if
the wheres were settled between the two. -/
theorem Reached.filter_retained_iff (hreached : w.Reached)
    {before between after : List Moment} {expr : DeferredFragment} {s : Statement}
    (hhistory : w.history =
      before ++ .filterAccepted id expr :: between ++ .built id s :: after) :
    (∃ f ∈ s.filter.wheres, Yields expr f) ↔ .settled id .wheres ∈ between := by
  have hbefore : .settled id .wheres ∉ before :=
    (hreached.filtered (sound_yields id)).faithful before (.filterAccepted id expr)
      ⟨between ++ .built id s :: after, by simp [hhistory]⟩ rfl
  have hsettled : .settled id .wheres ∈ before ++ .filterAccepted id expr :: between ↔
      .settled id .wheres ∈ between := by
    simp [hbefore]
  obtain ⟨hheld, hdropped⟩ := hreached.wheres_of_built hhistory
  constructor
  · rintro ⟨f, hf, _⟩
    by_contra hunsettled
    rw [hdropped (mt hsettled.mp hunsettled)] at hf
    cases hf
  · intro hbetween
    have hvalues := hheld (hsettled.mpr hbetween)
    have haccepted : expr ∈ accepted id (before ++ .filterAccepted id expr :: between) := by
      simp [accepted, filterOf?]
    obtain ⟨n, hn, hexpr⟩ := List.getElem_of_mem haccepted
    have hlength : n < s.filter.wheres.length := hvalues.length_eq ▸ hn
    refine ⟨_, List.getElem_mem hlength, ?_⟩
    rw [← hexpr]
    exact hvalues.get hn hlength

/-- A run in which a filter is accepted, and after it a second one whose value fails: the
first build is refused, and the second build has no filter. -/
def droppedRun : World :=
  let failing : Step := .mk [] (.fail (.validation (.other "broken"))) false none
  let build : Step := .mk [] (.build {}) false none
  let sourced := ((start {} 0).step (.mk [] (.source (.text "items") none) false none)).2
  let kept := (sourced.step (.mk [] (.filter (.text "a")) false none)).2
  let doomed := (kept.step (.mk [] (.filterLazy [failing] (.expr (.text "b"))) false none)).2
  ((doomed.step build).2.step build).2

theorem reached_droppedRun : droppedRun.Reached := by
  apply Reached.next
  · apply Reached.next
    · apply Reached.next
      · apply Reached.next
        · apply Reached.next
          · exact Reached.initial {} 0
          · decide +kernel
        · decide +kernel
      · decide +kernel
    · decide +kernel
  · decide +kernel

def buildStep : Step := .mk [] (.build {}) false none

/-- That run behind the build that was refused. -/
def refusedRun : World :=
  let failing : Step := .mk [] (.fail (.validation (.other "broken"))) false none
  (start {} 0).after [.mk [] (.source (.text "items") none) false none,
    .mk [] (.filter (.text "a")) false none,
    .mk [] (.filterLazy [failing] (.expr (.text "b"))) false none, buildStep]

/-- That run when the second build has locked what was still open. -/
def finalizedRun : World :=
  ((lockEverything (lockWith (refusedRun.budget buildStep))).exec root refusedRun.quiet).2

theorem history_finalizedRun : ∃ between,
    finalizedRun.history =
      [.settled root .source] ++ .filterAccepted root (.ready (text "a")) :: between := by
  let failing : Step := .mk [] (.fail (.validation (.other "broken"))) false none
  let locked : List Concern := [.joins, .uniqueness, .order, .comparator, .cursorTag,
    .bounds, .offset, .limit, .first, .last, .cursor, .select]
  refine ⟨.filterAccepted root (.lazy [failing] (.expr (.text "b"))) ::
    locked.map (.settled root), ?_⟩
  cbv

theorem history_droppedRun :
    ∃ (between : List Moment) (s : Statement), droppedRun.history =
        [Moment.settled root .source] ++
          Moment.filterAccepted root (.ready (text "a")) :: between ++ [Moment.built root s] ∧
      s.filter.wheres = [] := by
  have hlock : (lockEverything (lockWith (refusedRun.budget buildStep))).exec root
      refusedRun.quiet = (.ok (), finalizedRun) := exec_eq_ok (by decide +kernel)
  have hlocked (c : Concern) : (finalizedRun.builder root).locked c = true := by
    cases c <;> decide +kernel
  have hvalues : (finalizedRun.builder root).resolved.wheres = [] :=
    List.isEmpty_iff.mp (by decide +kernel)
  obtain ⟨s, hpage⟩ : ∃ s, (finalizedRun.builder root).pageStatement {} = .ok s :=
    ok_of_isOk (by decide +kernel)
  have hbuild : (build (lockWith (refusedRun.budget buildStep)) {}).exec root refusedRun.quiet =
      (.ok (.rows s),
        { finalizedRun with history := finalizedRun.history ++ [.built root s] }) := by
    rw [exec_build_locked (idle_lockWith _) hlock hlocked, exec_build (idle_lockWith _) hlocked rfl,
      hpage]
    rfl
  have hperform : (Action.perform (lockWith (refusedRun.budget buildStep)) buildStep.op).exec root
      refusedRun.quiet = (.ok (.fragment s.fragment),
        { finalizedRun with history := finalizedRun.history ++ [.built root s] }) :=
    exec_bind_ok hbuild
  have hleads : refusedRun.Leads root root buildStep.path := leads_root rfl
  obtain ⟨-, saved, hbehind⟩ := step_of_ok hleads hperform
  have hdropped : droppedRun = (refusedRun.step buildStep).2 := rfl
  obtain ⟨between, hhistory⟩ := history_finalizedRun
  refine ⟨between, s, ?_, (Builder.wheres_of_pageStatement hpage).trans hvalues⟩
  rw [hdropped, hbehind, ← hhistory]

/-- The first filter of that run was accepted, and is missing from its statement. -/
theorem filter_missing_droppedRun :
    droppedRun.Reached ∧ ∃ before between after s,
      droppedRun.history =
        before ++ .filterAccepted root (.ready (text "a")) :: between ++
          .built root s :: after ∧
      text "a" ∉ s.filter.wheres := by
  obtain ⟨between, s, hhistory, hwheres⟩ := history_droppedRun
  refine ⟨reached_droppedRun, _, between, [], s, hhistory, ?_⟩
  rw [hwheres]
  exact List.not_mem_nil

theorem filter_retained_iff_droppedRun :
    ∃ between s, droppedRun.history =
        [.settled root .source] ++ .filterAccepted root (.ready (text "a")) :: between ++
          [.built root s] ∧
      ((∃ f ∈ s.filter.wheres, Yields (.ready (text "a")) f) ↔
        .settled root .wheres ∈ between) := by
  obtain ⟨between, s, hhistory, _⟩ := history_droppedRun
  exact ⟨between, s, hhistory, reached_droppedRun.filter_retained_iff hhistory⟩

end World

end PageQuery
