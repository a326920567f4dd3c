import PageQuery.Proofs.Lock.Barred
import PageQuery.Proofs.Lock.Frozen

/-!
# Until a concern is settled

The lock of a concern takes hold before its values come, and they never come if one of them
fails.  So a concern is open, or it is locked and stuck without values, or it has been settled.
What everything but the own lock of a concern keeps lasts until that lock, and an invariant of
these three states is shown by looking at that one lock.
-/

namespace PageQuery

/-- Whether a moment is the settlement of the concern `c` of builder `i`. -/
def Moment.settles (i : BuilderId) (c : Concern) : Moment → Bool
  | .settled j d => j == i && d == c
  | _ => false

theorem Moment.settles_iff {i : BuilderId} {c : Concern} {moment : Moment} :
    moment.settles i c = true ↔ moment = .settled i c := by
  cases moment <;> simp [settles]

instance (i : BuilderId) (c : Concern) (history : List Moment) :
    Decidable (.settled i c ∈ history) :=
  decidable_of_iff (history.any (Moment.settles i c) = true) <| by
    simp only [List.any_eq_true, Moment.settles_iff, exists_eq_right]

namespace World

/-- A property that everything keeps but the lock of the concern `c` of builder `i`. -/
structure Lasting (i : BuilderId) (c : Concern) (P : World → Prop) : Prop where
  stable : Stable P
  queue : ∀ {w : World} {id : BuilderId} {d : Concern} (queue : List Callback),
    ¬(id = i ∧ d = c) → P w → P (w.setBuilder id ((w.builder id).setCallbacks d queue))
  lock : ∀ {w : World} {id : BuilderId} {d : Concern}, ¬(id = i ∧ d = c) → P w →
    P (w.setBuilder id ((w.builder id).setLocked d))
  values : ∀ {w : World} {id : BuilderId} {d : Concern} {pending : Pending}
    {resolved : Resolved}, ¬(id = i ∧ d = c) →
    (∀ e, e ≠ d → Builder.contents { w.builder id with pending, resolved } e =
      (w.builder id).contents e) →
    P w → P (w.setBuilder id { w.builder id with pending, resolved })
  reports : ∀ {w : World} (events : List Event) {moments : List Moment},
    .settled i c ∉ moments → P w → P { w with events, history := w.history ++ moments }

/-- The values of a concern have not been settled. -/
def Unsettled (i : BuilderId) (c : Concern) (w : World) : Prop := .settled i c ∉ w.history

instance (i : BuilderId) (c : Concern) (w : World) : Decidable (w.Unsettled i c) :=
  inferInstanceAs (Decidable (.settled i c ∉ w.history))

/-- A concern that is locked without values: they are being settled, or one of them has
failed. -/
def Stuck (i : BuilderId) (c : Concern) (w : World) : Prop := w.Locked i c ∧ w.Unsettled i c

/-- The world in which the values of a concern are settled: the lock has just taken hold. -/
def locking (w : World) (i : BuilderId) (c : Concern) : World :=
  { w.setBuilder i ((w.builder i).setLocked c) with events := w.events ++ [.locked i c] }

@[simp]
theorem builder_locking (w : World) (i : BuilderId) (c : Concern) :
    (w.locking i c).builder i = (w.builder i).setLocked c := by
  change (w.setBuilder i _).builder i = _
  rw [builder_setBuilder_self]

/-- The world in which a concern has just been locked, and what waits for it has been taken. -/
def taking (w : World) (id : BuilderId) (c : Concern) (change : Pending → Pending) : World :=
  (w.locking id c).setBuilder id { (w.locking id c).builder id with
    pending := change ((w.locking id c).builder id).pending }

/-- The world in which the values of a concern, once they have come, are kept. -/
def keeping (w : World) (id : BuilderId) (c : Concern) (change : Resolved → Resolved) : World :=
  { w.setBuilder id { w.builder id with resolved := change (w.builder id).resolved } with
    history := w.history ++ [.settled id c] }

namespace Lasting

variable {i j : BuilderId} {c d : Concern} {P Q : World → Prop}

theorem const (p : Prop) : Lasting i c fun _ => p :=
  ⟨fun _ _ _ hp => hp, fun _ _ hp => hp, fun _ hp => hp, fun _ _ hp => hp, fun _ _ _ hp => hp⟩

theorem and (hP : Lasting i c P) (hQ : Lasting i c Q) : Lasting i c fun w => P w ∧ Q w where
  stable _ _ hchange hboth := ⟨hP.stable hchange hboth.1, hQ.stable hchange hboth.2⟩
  queue queue hother hboth := ⟨hP.queue queue hother hboth.1, hQ.queue queue hother hboth.2⟩
  lock hother hboth := ⟨hP.lock hother hboth.1, hQ.lock hother hboth.2⟩
  values hother hkeeps hboth :=
    ⟨hP.values hother hkeeps hboth.1, hQ.values hother hkeeps hboth.2⟩
  reports events _ hnone hboth :=
    ⟨hP.reports events hnone hboth.1, hQ.reports events hnone hboth.2⟩

theorem or (hP : Lasting i c P) (hQ : Lasting i c Q) : Lasting i c fun w => P w ∨ Q w where
  stable _ _ hchange := Or.imp (hP.stable hchange ·) (hQ.stable hchange ·)
  queue queue hother := Or.imp (hP.queue queue hother) (hQ.queue queue hother)
  lock hother := Or.imp (hP.lock hother) (hQ.lock hother)
  values hother hkeeps := Or.imp (hP.values hother hkeeps) (hQ.values hother hkeeps)
  reports events _ hnone := Or.imp (hP.reports events hnone) (hQ.reports events hnone)

theorem exists_ {α : Type} {P : α → World → Prop} (hP : ∀ a, Lasting i c (P a)) :
    Lasting i c fun w => ∃ a, P a w where
  stable _ _ hchange := fun ⟨a, ha⟩ => ⟨a, (hP a).stable hchange ha⟩
  queue queue hother := fun ⟨a, ha⟩ => ⟨a, (hP a).queue queue hother ha⟩
  lock hother := fun ⟨a, ha⟩ => ⟨a, (hP a).lock hother ha⟩
  values hother hkeeps := fun ⟨a, ha⟩ => ⟨a, (hP a).values hother hkeeps ha⟩
  reports events _ hnone := fun ⟨a, ha⟩ => ⟨a, (hP a).reports events hnone ha⟩

theorem locked (j : BuilderId) (d : Concern) : Lasting i c (Locked j d) where
  stable := stable_locked j d
  queue _ _ hlocked := hlocked.setBuilder fun hd => hd
  lock {_ _ e} _ hlocked := hlocked.setBuilder (Action.setLocked_of_locked e)
  values _ _ hlocked := hlocked.setBuilder fun hd => hd
  reports _ _ _ hlocked := hlocked

theorem unsettled (i : BuilderId) (c : Concern) : Lasting i c (Unsettled i c) where
  stable _ _ hchange hunsettled := fun hsettled => hunsettled (hchange.settled hsettled)
  queue _ _ hunsettled := hunsettled
  lock _ hunsettled := hunsettled
  values _ _ hunsettled := hunsettled
  reports _ _ hnone hunsettled := fun hsettled =>
    (List.mem_append.mp hsettled).elim hunsettled hnone

theorem stuck (i : BuilderId) (c : Concern) : Lasting i c (Stuck i c) :=
  (locked i c).and (unsettled i c)

theorem waiting (i : BuilderId) (c : Concern) (callbacks : List Callback) :
    Lasting i c (Waiting i c callbacks) where
  stable := stable_waiting
  queue {_ _ d} _ hother hwaiting := hwaiting.setBuilder fun hid =>
    ⟨rfl, if_neg fun hc : c = d => hother ⟨hid.symm, hc.symm⟩⟩
  lock {_ _ d} hother hwaiting := hwaiting.setBuilder fun hid =>
    ⟨if_neg fun hc : c = d => hother ⟨hid.symm, hc.symm⟩, rfl⟩
  values _ _ hwaiting := hwaiting.setBuilder fun _ => ⟨rfl, rfl⟩
  reports _ _ _ hwaiting := hwaiting

/-- The value of a locked concern lasts beyond every settlement that does not touch it. -/
theorem frozen_of {v : d.Value} (hkeeps : ∀ {w : World} {e : Concern} {pending : Pending}
    {resolved : Resolved}, ¬(j = i ∧ e = c) →
    (∀ e', e' ≠ e → Builder.contents { w.builder j with pending, resolved } e' =
      (w.builder j).contents e') →
    Builder.value { w.builder j with pending, resolved } d = (w.builder j).value d) :
    Lasting i c (Frozen j d v) where
  stable := stable_frozen
  queue _ _ hfrozen := hfrozen.setBuilder (fun hd => hd) fun _ => by cases d <;> rfl
  lock {_ _ e} _ hfrozen :=
    hfrozen.setBuilder (Action.setLocked_of_locked e) fun _ => by cases d <;> rfl
  values hother hothers hfrozen := hfrozen.setBuilder (fun hd => hd) fun hid => by
    subst hid
    exact hkeeps hother hothers
  reports _ _ _ hfrozen := hfrozen

/-- What has been settled lasts, as its own concern is settled only once. -/
theorem frozen (v : c.Value) : Lasting i c (Frozen i c v) :=
  frozen_of fun hother hothers =>
    Builder.value_of_contents (hothers c fun hc => hother ⟨rfl, hc.symm⟩)

/-- A value that needs no settling lasts. -/
theorem frozen_plain (v : d.Value) (hplain : ∀ (b : Builder) (pending : Pending)
    (resolved : Resolved), Builder.value { b with pending, resolved } d = b.value d) :
    Lasting i c (Frozen j d v) :=
  frozen_of fun _ _ => hplain _ _ _

end Lasting

end World

namespace Action

open World

variable {i id : BuilderId} {c d : Concern} {P Q R : World → Prop} {lock : Locker}
  {locks : Nat → Locker} {w w' : World}

/-- To lock another concern keeps what lasts. -/
theorem round_lasting (hP : Lasting i c P) (h : lock.Respects P) (hother : ¬(id = i ∧ d = c))
    (rounds : Nat) : Preserves P id (do drain lock d rounds; settleOpen lock d) := by
  have hremembered {w : World} {moment : Moment} (hmoment : moment ≠ .settled i c)
      (hholds : P w) : P { w with history := w.history ++ [moment] } :=
    hP.reports w.events (fun hmem => hmoment (List.mem_singleton.mp hmem).symm) hholds
  have hlogged (w : World) (event : Event) (hholds : P w) :
      P { w with events := w.events ++ [event] } := by
    have hreported := hP.reports (w.events ++ [event]) List.not_mem_nil hholds
    rwa [List.append_nil] at hreported
  have hdrain : Preserves P id (drain lock d rounds) :=
    h.drain (fun _ queue _ => hP.queue queue hother) (fun _ _ _ => hremembered nofun) rounds
  refine hdrain.bind fun _ => Preserves.settleOpen ?_ (h.settleValues ?_ ?_ ?_)
  · exact fun _ _ _ => hP.lock hother
  · exact fun _ _ _ hkeeps _ => hP.values hother hkeeps
  · exact fun w _ => hlogged w _
  · refine fun w _ => hremembered fun hmoment => hother ?_
    cases hmoment
    exact ⟨rfl, rfl⟩

/-- Callbacks of the concern itself keep what does not depend on them. -/
theorem runCallbacks_lasting (hP : Lasting i c P) (h : lock.Respects P)
    (hqueue : ∀ {w : World} (queue : List Callback), P w →
      P (w.setBuilder i ((w.builder i).setCallbacks c queue))) (callbacks : List Callback) :
    Preserves P i (runCallbacks lock c callbacks) :=
  h.runCallbacks (fun _ queue _ => hqueue queue)
    (fun w _ _ hholds => hP.reports w.events (by simp) hholds) callbacks

theorem drain_lasting (hP : Lasting i c P) (h : lock.Respects P)
    (hqueue : ∀ {w : World} (queue : List Callback), P w →
      P (w.setBuilder i ((w.builder i).setCallbacks c queue))) (rounds : Nat) :
    Preserves P i (drain lock c rounds) :=
  h.drain (fun _ queue _ => hqueue queue)
    (fun w _ _ hholds => hP.reports w.events (by simp) hholds) rounds

namespace Rounds

variable (h : Rounds locks)

include h

/-- What lasts where the concern is locked lasts for ever. -/
theorem respects_locked (hP : Lasting i c P) (hlocked : ∀ {w}, P w → w.Locked i c)
    (fuel : Nat) : (locks fuel).Respects P := by
  refine h.respects hP.stable (fun {fuel id d} hlock => ?_) fuel
  by_cases hown : id = i ∧ d = c
  · obtain ⟨rfl, rfl⟩ := hown
    intro w _ hclosed hholds _
    rw [h.idle _ (hlocked hholds).2]
    exact World.Kept.refl hclosed hholds
  · exact h.preserves (round_lasting hP hlock hown fuel)

/-- What lasts beyond the lock of every concern lasts for ever. -/
theorem respects_lasting (hP : ∀ i c, Lasting i c P) (fuel : Nat) : (locks fuel).Respects P :=
  h.respects (hP 0 .source).stable
    (fun {fuel id d} hlock => h.preserves
      (round_lasting (hP (id + 1) d) hlock (fun hown => Nat.ne_of_lt (Nat.lt_succ_self id) hown.1)
        fuel)) fuel

theorem respects_stuck (i : BuilderId) (c : Concern) (fuel : Nat) :
    (locks fuel).Respects (Stuck i c) :=
  h.respects_locked (Lasting.stuck i c) And.left fuel

theorem respects_frozen (v : c.Value) (fuel : Nat) : (locks fuel).Respects (Frozen i c v) :=
  h.respects_locked (Lasting.frozen v) And.left fuel

end Rounds

end Action

namespace World

/-- How a concern stands: open, where `Q` is known, or stuck without values, or settled, where
`R` is known. -/
def Standing (i : BuilderId) (c : Concern) (Q R : World → Prop) (w : World) : Prop :=
  (w.Waiting i c [] ∧ w.Unsettled i c ∧ Q w) ∨ w.Stuck i c ∨ R w

namespace Standing

variable {i : BuilderId} {c : Concern} {Q R : World → Prop} {w : World}

theorem lasting (hQ : Lasting i c Q) (hR : Lasting i c R) : Lasting i c (Standing i c Q R) :=
  ((Lasting.waiting i c []).and ((Lasting.unsettled i c).and hQ)).or ((Lasting.stuck i c).or hR)

/-- An open concern is not settled. -/
theorem of_open (hstanding : w.Standing i c Q R) (hR : R w → w.Locked i c)
    (hopen : (w.builder i).locked c = false) : w.Unsettled i c ∧ Q w := by
  obtain ⟨-, hrest⟩ | hstuck | hsettled := hstanding
  · exact hrest
  · exact absurd hstuck.1.2 (by simp [hopen])
  · exact absurd (hR hsettled).2 (by simp [hopen])

/-- A settled concern that is locked has its values. -/
theorem of_settled (hstanding : w.Standing i c Q R) (hsettled : .settled i c ∈ w.history) :
    R w := by
  obtain ⟨-, hunsettled, -⟩ | hstuck | hvalues := hstanding
  · exact absurd hsettled hunsettled
  · exact absurd hsettled hstuck.2
  · exact hvalues

/-- How a concern stands does not depend on its callbacks, if neither side does. -/
theorem setCallbacks (hstanding : w.Standing i c Q R) (queue : List Callback)
    (hQ : Q w → Q (w.setBuilder i ((w.builder i).setCallbacks c queue)))
    (hR : R w → R (w.setBuilder i ((w.builder i).setCallbacks c queue))) :
    (w.setBuilder i ((w.builder i).setCallbacks c queue)).Standing i c Q R := by
  obtain ⟨⟨hlive, hopen, -⟩, hunsettled, hholds⟩ | hstuck | hvalues := hstanding
  · refine .inl ⟨⟨hlive, ?_, List.nil_prefix⟩, hunsettled, hQ hholds⟩
    rw [builder_setBuilder_self]
    exact hopen
  · exact .inr (.inl ⟨hstuck.1.setBuilder fun hd => hd, hstuck.2⟩)
  · exact .inr (.inr (hR hvalues))

end Standing

end World

namespace Action

open World

variable {i : BuilderId} {c : Concern} {Q R : World → Prop} {lock : Locker}
  {locks : Nat → Locker} {w w' : World}

theorem settle_ok (hrun : (settle lock c).exec i w = (.ok (), w')) :
    ∃ middle, (resolve lock c).exec i (w.locking i c) = (.ok (), middle) ∧
      w' = { middle with history := middle.history ++ [.settled i c] } := by
  change (resolve lock c >>= fun _ => remember (.settled i c)).exec i (w.locking i c) = _ at hrun
  obtain ⟨⟨⟩, middle, hresolve, hremember⟩ := exec_bind_eq_ok hrun
  exact ⟨middle, hresolve, (Prod.mk.inj hremember).2.symm⟩

/-- A settlement comes to its values, or it leaves the concern stuck. -/
theorem settle_or_stuck (hstuck : lock.Respects (Stuck i c)) (hlive : i < w.nextBuilder)
    (hclosed : w.Closed) (hunsettled : w.Unsettled i c) {result : Except Halt Unit}
    (hrun : (settle lock c).exec i w = (result, w')) (hhalt : Completes result) :
    w.Kept (Stuck i c) w' ∨
    ∃ middle, (resolve lock c).exec i (w.locking i c) = (.ok (), middle) ∧
      w.Kept (Stuck i c) middle ∧
      w' = { middle with history := middle.history ++ [.settled i c] } := by
  change (resolve lock c >>= fun _ => remember (.settled i c)).exec i (w.locking i c) = _ at hrun
  have hlocked : w.Kept (Stuck i c) (w.locking i c) := by
    refine ⟨⟨⟨hlive, ?_⟩, hunsettled⟩, closed_setLocked hclosed, Nat.le_refl _⟩
    rw [builder_locking]
    exact setLocked_locked _ c
  have hresolve : Preserves (Stuck i c) i (resolve lock c) :=
    hstuck.resolve fun _ _ _ _ _ hstuck => ⟨hstuck.1.setBuilder fun hd => hd, hstuck.2⟩
  have hmiddle := hresolve hlocked.holds.1.1 hlocked.closed hlocked.holds
  rcases hvalues : (resolve lock c).exec i (w.locking i c) with ⟨halt | _, middle⟩
  · rw [exec_bind_error hvalues] at hrun
    cases hrun
    rw [hvalues] at hmiddle
    exact .inl (hlocked.trans (hmiddle hhalt.error))
  · rw [exec_bind_ok hvalues, exec_remember] at hrun
    cases hrun
    rw [hvalues] at hmiddle
    exact .inr ⟨middle, rfl, hlocked.trans (hmiddle (by simp)), rfl⟩

/-- Every lock keeps how a concern stands if its own lock does, where it is open. -/
theorem Rounds.respects_standing (h : Rounds locks) (hQ : Lasting i c Q) (hR : Lasting i c R)
    (hlocked : ∀ {w}, R w → w.Locked i c)
    (hown : ∀ {fuel : Nat} {w : World}, (locks fuel).Respects (Standing i c Q R) →
      i < w.nextBuilder → w.Closed → (w.builder i).locked c = false → w.Unsettled i c → Q w →
      Completes ((locks (fuel + 1) c).exec i w).1 →
        w.Kept (Standing i c Q R) ((locks (fuel + 1) c).exec i w).2)
    (fuel : Nat) : (locks fuel).Respects (Standing i c Q R) := by
  have hlasting := Standing.lasting hQ hR
  refine h.respects hlasting.stable (fun {fuel id d} hlock => ?_) fuel
  by_cases hsame : id = i ∧ d = c
  · obtain ⟨rfl, rfl⟩ := hsame
    intro w hlive hclosed hstanding hhalt
    cases hopen : (w.builder id).locked d with
    | true =>
        rw [h.idle _ hopen]
        exact World.Kept.refl hclosed hstanding
    | false =>
        obtain ⟨hunsettled, hholds⟩ := hstanding.of_open hlocked hopen
        exact hown hlock hlive hclosed hopen hunsettled hholds hhalt
  · exact h.preserves (round_lasting hlasting hlock hsame fuel)

/-- What is known of an open concern, whatever its callbacks, leads to what is known of its
values. -/
theorem Rounds.respects_settling (h : Rounds locks) (hQ : Lasting i c Q) (hR : Lasting i c R)
    (hlocked : ∀ {w}, R w → w.Locked i c)
    (hqueue : ∀ {w : World} (queue : List Callback), Q w →
      Q (w.setBuilder i ((w.builder i).setCallbacks c queue)))
    (hkeeps : ∀ {w : World} (queue : List Callback), R w →
      R (w.setBuilder i ((w.builder i).setCallbacks c queue)))
    (hcomes : ∀ {fuel : Nat} {w middle : World}, i < w.nextBuilder → w.Closed →
      (w.builder i).locked c = false → Q w →
      (resolve (locks fuel) c).exec i (w.locking i c) = (.ok (), middle) → middle.Locked i c →
        R { middle with history := middle.history ++ [.settled i c] })
    (fuel : Nat) : (locks fuel).Respects (Standing i c Q R) := by
  refine h.respects_standing hQ hR hlocked ?_ fuel
  intro fuel w hlock hlive hclosed hopen hunsettled hholds hhalt
  have hstanding : w.Standing i c Q R :=
    .inl ⟨⟨hlive, hopen, List.nil_prefix⟩, hunsettled, hholds⟩
  have hdrain : Preserves (Standing i c Q R) i (drain (locks fuel) c fuel) :=
    drain_lasting (Standing.lasting hQ hR) hlock
      (fun queue hstanding => hstanding.setCallbacks queue (hqueue queue) (hkeeps queue)) fuel
  -- a callback may have locked the concern meanwhile: then the drain has kept how it stands
  have hsettle : Preserves (Standing i c Q R) i (settleOpen (locks fuel) c) := by
    intro w hlive hclosed hstanding hhalt
    rw [exec_settleOpen] at hhalt ⊢
    split
    · exact World.Kept.refl hclosed hstanding
    · rw [if_neg ‹_›] at hhalt
      have hopen : (w.builder i).locked c = false := by simpa using ‹¬_ = true›
      obtain ⟨hunsettled, hholds⟩ := hstanding.of_open hlocked hopen
      rcases hrun : (settle (locks fuel) c).exec i w with ⟨result, w'⟩
      rw [hrun] at hhalt
      rcases settle_or_stuck (h.respects_stuck i c fuel) hlive hclosed hunsettled hrun hhalt with
        hstuck | ⟨middle, hresolve, hstuck, rfl⟩
      · exact hstuck.imp fun hstuck => .inr (.inl hstuck)
      · exact ⟨.inr (.inr (hcomes hlive hclosed hopen hholds hresolve hstuck.holds.1)),
          hstuck.closed, hstuck.grows⟩
  have hexec := h.opened hopen (hhalt _)
  rw [hexec] at hhalt ⊢
  exact (hdrain.bind fun _ => hsettle) hlive hclosed hstanding hhalt

/-- A concern that has been settled is locked. -/
theorem Rounds.respects_unsettled (h : Rounds locks) (i : BuilderId) (c : Concern) (fuel : Nat) :
    (locks fuel).Respects (Standing i c (fun _ => True) (Locked i c)) :=
  h.respects_settling (Lasting.const True) (Lasting.locked i c) (fun hlocked => hlocked)
    (fun _ _ => trivial) (fun _ hlocked => hlocked.setBuilder fun hd => hd)
    (fun _ _ _ _ _ hlocked => hlocked) fuel

/-- A drain that leaves its concern open leaves it unsettled. -/
theorem Rounds.unsettled_of_drain (h : Rounds locks) {fuel rounds : Nat} {result : Except Halt Unit}
    (hlive : i < w.nextBuilder) (hclosed : w.Closed) (hopen : (w.builder i).locked c = false)
    (hunsettled : w.Unsettled i c) (hrun : (drain (locks fuel) c rounds).exec i w = (result, w'))
    (hhalt : Completes result) (hopen' : (w'.builder i).locked c = false) :
    w.Kept (Unsettled i c) w' := by
  have hdrain : Preserves (Standing i c (fun _ => True) (Locked i c)) i
      (drain (locks fuel) c rounds) :=
    drain_lasting (Standing.lasting (Lasting.const True) (Lasting.locked i c))
      (h.respects_unsettled i c fuel)
      (fun queue hstanding => hstanding.setCallbacks queue (fun _ => trivial)
        fun hlocked => hlocked.setBuilder fun hd => hd) rounds
  have hkept := hdrain hlive hclosed (.inl ⟨⟨hlive, hopen, List.nil_prefix⟩, hunsettled, trivial⟩)
  rw [hrun] at hkept
  obtain ⟨hholds, hclosed', hgrows⟩ := hkept hhalt
  exact ⟨(hholds.of_open (fun hlocked => hlocked) hopen').1, hclosed', hgrows⟩

end Action

end PageQuery
