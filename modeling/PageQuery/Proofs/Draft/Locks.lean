import PageQuery.Proofs.Draft.Bounds

/-!
# The locks of a draft behind its bounds

The filters and the numbers of a page have the bounds locked first.  The limit may need the
offset, and `last` is checked once the bounds are settled; each lock leaves the builder of
the draft behind, or is refused for what is wrong with the draft.
-/

namespace PageQuery

open Sql

namespace Progress

/-- No lock is under way but one of the cursor or of the select list. -/
def Calm (X : Progress) : Prop := ∀ c, c ≠ .cursor → c ≠ .select → X.Free c

theorem Calm.forward {X Y : Progress} (hcalm : X.Calm) (hforward : X.Forward Y) : Y.Calm :=
  fun c hcursor hselect => hforward.free (hcalm c hcursor hselect)

end Progress

namespace Draft

open PageQuery.Action

variable {d : Draft} {X Y : Progress} {c : Concern} {id : BuilderId}
  {saved : List (String × Fragment)}

/-- The callbacks of a concern behind the order have been taken. -/
theorem Sound.taken (hsound : d.Sound X)
    (hc : c ∈ [Concern.wheres, .offset, .limit, .first, .last, .select]) :
    d.Sound (X.set c .drained) := by
  apply hsound.set
  · intro h
    simp only [List.mem_cons, List.not_mem_nil, or_false] at hc h
    obtain rfl | rfl | rfl | rfl | rfl | rfl := hc <;> simp at h
  · rintro rfl
    simp at hc
  · intro _ hlocked
    cases hlocked
  · intro _ hsettled
    cases hsettled
  · intro _ hsettled
    cases hsettled

/-- A concern that waits for the bounds only is locked or settled behind them. -/
theorem Sound.behind (hsound : d.Sound X) (hc : c ∈ [Concern.wheres, .offset, .limit, .first])
    (hbounds : X .bounds = .settled) (stage : Stage) : d.Sound (X.set c stage) := by
  apply hsound.set
  · intro h
    simp only [List.mem_cons, List.not_mem_nil, or_false] at hc h
    obtain rfl | rfl | rfl | rfl := hc <;> simp at h
  · rintro rfl
    simp at hc
  · exact fun _ _ => hbounds
  · rintro rfl
    simp at hc
  · rintro rfl
    simp at hc

/-- The values of a concern have been settled, with what they needed. -/
def Finishes (d : Draft) (Y : Progress) (c : Concern) (b : Builder) : Prop :=
  ∃ Z, b = d.builder (Z.set c .settled) ∧ (Y.set c .locked).Forward Z ∧ d.Sound (Z.set c .settled)

theorem Finishes.reaches {stage : Stage} {b : Builder} (hfinishes : d.Finishes Y c b)
    (hwaiting : X c = .waiting) (hforward : (X.set c stage).Forward Y) : d.Reaches X [c] b := by
  obtain ⟨Z, rfl, hforward', hsound⟩ := hfinishes
  have hlocked : (X.set c .locked).Forward (Y.set c .locked) := by
    have h := hforward.set c .locked
    rwa [Progress.set_set] at h
  exact ⟨_, rfl, .finish hwaiting (hlocked.trans hforward'), hsound, by simp⟩

/-- Values that need nothing else. -/
theorem Sound.finishes (hsound : d.Sound (Y.set c .settled)) :
    d.Finishes Y c (d.builder (Y.set c .settled)) :=
  ⟨Y.set c .locked, by rw [Progress.set_set], .refl _, by rwa [Progress.set_set]⟩

theorem ends_settled (hsound : d.Sound X) (hsettled : X c = .settled) (fuel : Nat) :
    Ends id saved (d.builder X) (lockWith fuel c) d.Good fun _ b => d.Reaches X [c] b :=
  Ends.of_turns (idle fuel hsettled) ⟨X, rfl, .refl X, hsound, by simpa using hsettled⟩

/-- A concern that waits for the bounds locks behind them. -/
theorem ends_behind (hc : c ∈ [Concern.wheres, .offset, .limit, .first]) (hsound : d.Sound X)
    (hbounds : X.Free .bounds) (hfree : X.Free c) (fuel : Nat)
    (hvalues : ∀ Y, (X.set c .drained).Forward Y → d.Sound Y → Y .bounds = .settled →
      Y c = .drained → Ends id saved ((d.builder Y).setLocked c) (resolve (lockWith (fuel + 4)) c)
        d.Good fun _ b => d.Finishes Y c b) :
    Ends id saved (d.builder X) (lockWith (fuel + 5) c) d.Good fun _ b => d.Reaches X [c] b := by
  have hne : c ≠ .last ∧ c ≠ .bounds := by
    constructor <;> rintro rfl <;> simp at hc
  obtain ⟨hlast, hnotBounds⟩ := hne
  rcases hfree with hwaiting | hsettled
  · have htaken : d.Sound (X.set c .drained) :=
      hsound.taken (List.mem_append_left [Concern.last, .select] hc)
    have hqueue : (d.builder X).callbacks c = [.settleBounds] := by
      refine (callbacks_waiting hwaiting hlast).trans ?_
      simp only [List.mem_cons, List.not_mem_nil, or_false] at hc
      obtain rfl | rfl | rfl | rfl := hc <;> rfl
    have hcalled : (d.builder X).setCallbacks c [] = d.builder (X.set c .drained) :=
      builder_drained hwaiting fun h => absurd h hlast
    have hfree : (X.set c .drained).Free .bounds := by
      rwa [Progress.Free, Progress.set_ne (Ne.symm hnotBounds)]
    have hround : Ends id saved ((d.builder X).setCallbacks c [])
        (runCallbacks (lockWith (fuel + 4)) c [.settleBounds]) d.Good
        fun _ b => d.Reaches (X.set c .drained) [.bounds] b := by
      rw [hcalled]
      exact Ends.runCallbacks_cons (ends_bounds htaken hfree fuel) fun _ hreaches =>
        Ends.runCallbacks_nil hreaches
    have hdrain : Ends id saved (d.builder X) (drain (lockWith (fuel + 4)) c (fuel + 4)) d.Good
        fun _ b => d.Reaches (X.set c .drained) [.bounds] b := by
      apply Ends.drain_round (fuel + 3) hqueue (by simp) hround
      rintro _ ⟨Y, rfl, hforward, hsound', hsettled⟩
      have hbusy : Y c ≠ .waiting := by rw [hforward.busy (by simp)]; simp
      exact Ends.drain_nil (fuel + 2) (callbacks_none hbusy hlast)
        ⟨Y, rfl, hforward, hsound', hsettled⟩
    apply Ends.lockWith (open_of_waiting hwaiting) hdrain
    rintro _ ⟨Y, rfl, hforward, hsound', hsettled⟩
    have hdrained : Y c = .drained := (hforward.busy (by simp)).trans Progress.set_same
    refine ⟨open_of_drained hdrained, ?_⟩
    apply (hvalues Y hforward hsound' (hsettled _ (by simp)) hdrained).imp (fun hgood => hgood)
    exact fun _ b hfinishes => hfinishes.reaches hwaiting hforward
  · exact ends_settled hsound hsettled _

theorem ends_wheres (hsound : d.Sound X) (hbounds : X.Free .bounds) (hfree : X.Free .wheres)
    (fuel : Nat) : Ends id saved (d.builder X) (lockWith (fuel + 5) .wheres) d.Good
      fun _ b => d.Reaches X [.wheres] b := by
  apply ends_behind (by simp) hsound hbounds hfree
  intro Y _ hsound' hsettled hdrained
  have hcomes : List.Forall₂ (Comes (((d.builder Y).setLocked .wheres).scope saved))
      ((d.builder Y).setLocked .wheres).pending.wheres d.wheres := by
    have hpending : ((d.builder Y).setLocked .wheres).pending.wheres = d.wheres.map .ready := by
      simp [Builder.setLocked, Draft.builder, hdrained, Stage.isSettled]
    rw [hpending, List.forall₂_map_left_iff, List.forall₂_same]
    exact fun f _ => .ready f
  have hend := (hsound'.behind (c := .wheres) (by simp) hsettled .settled).finishes
  rw [← builder_wheres (callbacks_none (by simp [hdrained]) (by simp))] at hend
  exact Ends.of_turns (Turns.resolve_wheres hcomes) hend

theorem ends_offset (hsound : d.Sound X) (hbounds : X.Free .bounds) (hfree : X.Free .offset)
    (fuel : Nat) : Ends id saved (d.builder X) (lockWith (fuel + 5) .offset) d.Good
      fun _ b => d.Reaches X [.offset] b := by
  apply ends_behind (by simp) hsound hbounds hfree
  intro Y _ hsound' hsettled hdrained
  have hpending : ((d.builder Y).setLocked .offset).pending.offsets = d.allOffsets.map .ready := by
    simp [Builder.setLocked, Draft.builder, hdrained, hsettled, Stage.isSettled, pendingOffsets]
  have hend := (hsound'.behind (c := .offset) (by simp) hsettled .settled).finishes
  rw [← builder_offset (callbacks_none (by simp [hdrained]) (by simp))] at hend
  exact Ends.of_turns (Turns.resolve_offset hpending) hend

theorem ends_first (hsound : d.Sound X) (hbounds : X.Free .bounds) (hfree : X.Free .first)
    (fuel : Nat) : Ends id saved (d.builder X) (lockWith (fuel + 5) .first) d.Good
      fun _ b => d.Reaches X [.first] b := by
  apply ends_behind (by simp) hsound hbounds hfree
  intro Y _ hsound' hsettled hdrained
  rw [builder_first (callbacks_none (by simp [hdrained]) (by simp))]
  exact Ends.of_turns (Turns.pure ()) (hsound'.behind (by simp) hsettled .settled).finishes

/-- The number of rows before the page. -/
theorem ends_totalOffset (hsound : d.Sound X) (hbounds : X.Free .bounds) (hfree : X.Free .offset)
    (fuel : Nat) : Ends id saved (d.builder X) (totalOffset (lockWith (fuel + 5))) d.Good
      fun n b => n = d.offsetValue ∧ d.Reaches X [.offset] b := by
  apply Ends.bind (ends_offset hsound hbounds hfree fuel)
  rintro _ _ ⟨Y, rfl, hforward, hsound', hsettled⟩
  have hvalue : (d.builder Y).resolved.offset = d.offsetValue := by
    simp [Draft.builder, hsettled .offset (by simp), Stage.isSettled]
  apply Ends.self_bind
  rw [hvalue]
  exact Ends.of_turns (Turns.pure _) ⟨rfl, Y, rfl, hforward, hsound', hsettled⟩

/-- The limit, which a `before` cursor makes of the offset. -/
theorem ends_limitValue (hsound : d.Sound X) (hbounds : X.Free .bounds) (hfree : X.Free .offset)
    (fuel : Nat) : Ends id saved (d.builder X)
      ((d.pendingLimit true).mapM (resolveCount (lockWith (fuel + 5)))) d.Good
      fun n b => n = d.limitValue ∧ d.Reaches X [] b := by
  have hstay : d.Reaches X [] (d.builder X) := ⟨X, rfl, .refl X, hsound, by simp⟩
  cases hcut : d.cut? with
  | none =>
      have hvalue : d.limitValue = d.limit := by rw [limitValue, hcut]
      have hpending : d.pendingLimit true = d.limit.map .ready := by simp [pendingLimit, hcut]
      rw [hvalue, hpending]
      cases d.limit with
      | none => exact Ends.of_turns (Turns.pure none) ⟨rfl, hstay⟩
      | some n => exact Ends.of_turns (Turns.pure (some n)) ⟨rfl, hstay⟩
  | some position =>
      have hvalue : d.limitValue = some (position - d.offsetValue - 1) := by rw [limitValue, hcut]
      have hpending : d.pendingLimit true = some (.lazy [] (.beforePosition position)) := by
        simp [pendingLimit, hcut]
      rw [hvalue, hpending]
      have hcount : Ends id saved (d.builder X)
          (resolveCount (lockWith (fuel + 5)) (.lazy [] (.beforePosition position))) d.Good
          fun n b => n = position - d.offsetValue - 1 ∧ d.Reaches X [] b := by
        apply Ends.behind (Turns.pure ())
        apply Ends.bind (ends_totalOffset hsound hbounds hfree fuel)
        rintro _ _ ⟨rfl, Y, rfl, hforward, hsound', _⟩
        exact Ends.of_turns (Turns.pure _) ⟨rfl, Y, rfl, hforward, hsound', by simp⟩
      apply Ends.bind hcount
      rintro _ _ ⟨rfl, hreaches⟩
      exact Ends.of_turns (Turns.pure _) ⟨rfl, hreaches⟩

theorem ends_limit (hsound : d.Sound X) (hbounds : X.Free .bounds) (hoffset : X.Free .offset)
    (hfree : X.Free .limit) (fuel : Nat) :
    Ends id saved (d.builder X) (lockWith (fuel + 6) .limit) d.Good
      fun _ b => d.Reaches X [.limit] b := by
  apply ends_behind (by simp) hsound hbounds hfree
  intro Y hforward hsound' hsettled hdrained
  have hopen : (Y .limit).isLocked = false := by rw [hdrained]; rfl
  have hpending : ((d.builder Y).setLocked .limit).pending.limit = d.pendingLimit true := by
    simp [Builder.setLocked, Draft.builder, hopen, hsettled, Stage.isSettled]
  have hlocked : d.Sound (Y.set .limit .locked) := hsound'.behind (by simp) hsettled .locked
  have hoffset' : (Y.set .limit .locked).Free .offset := hforward.free hoffset
  apply Ends.self_bind
  rw [hpending]
  apply Ends.behind (Turns.update _)
  change Ends id saved { (d.builder Y).setLocked .limit with
    pending := { (d.builder Y).pending with limit := none } } _ _ _
  rw [builder_limit_locked (callbacks_none (by simp [hdrained]) (by simp)) hopen]
  apply Ends.bind (ends_limitValue hlocked (.inr hsettled) hoffset' fuel)
  rintro _ _ ⟨rfl, Z, rfl, hforward', hsound'', _⟩
  have hbusy : Z .limit = .locked := (hforward'.busy (by simp)).trans Progress.set_same
  refine Ends.of_turns (Turns.update _) ⟨Z, builder_limit hbusy, hforward', ?_⟩
  exact hsound''.behind (by simp) (hforward'.settled hsettled) .settled

/-- `last` is taken from the end of all rows if nothing else limits the page. -/
theorem takesLastFromEnd_iff (hbounds : X .bounds = .settled) (hfree : X.Free .limit) :
    ((d.builder X).setCallbacks .last []).takesLastFromEnd = true ↔
      d.last.isSome ∧ d.first.isNone ∧ d.limit.isNone ∧ d.cut?.isNone := by
  have hlimit : ((d.builder X).pending.limit.isNone && (d.builder X).resolved.limit.isNone) =
      (d.limit.isNone && d.cut?.isNone) := by
    rcases hfree with hwaiting | hsettled
    · cases hcut : d.cut? <;>
        simp [Draft.builder, hwaiting, hbounds, Stage.isSettled, Stage.isLocked, pendingLimit, hcut]
    · cases hcut : d.cut? <;>
        simp [Draft.builder, hsettled, Stage.isSettled, Stage.isLocked, limitValue, hcut]
  change (d.last.isSome && d.first.isNone && (d.builder X).pending.limit.isNone &&
    (d.builder X).resolved.limit.isNone) = true ↔ _
  rw [Bool.and_assoc _ (d.builder X).pending.limit.isNone, hlimit]
  simp [and_assoc]

/-- The check on `last` reads values that are final. -/
theorem ends_guards (hbounds : X .bounds = .settled) (hfree : X.Free .limit) (lock : Locker) :
    Ends id saved ((d.builder X).setCallbacks .last []) (runCallbacks lock .last d.guards) d.Good
      fun _ b => b = (d.builder X).setCallbacks .last [] ∧ d.Guarded := by
  have htakes := takesLastFromEnd_iff (d := d) hbounds hfree
  cases hskipped : d.skipped? with
  | none =>
      have hnone : d.guards = [] := by simp [guards, hskipped]
      rw [hnone]
      exact Ends.runCallbacks_nil ⟨rfl, fun hsome => absurd hnone hsome⟩
  | some position =>
      have hone : d.guards = [.refuseLastFromEnd] := by simp [guards, hskipped]
      have hguard : Ends id saved ((d.builder X).setCallbacks .last [])
          (runCallback lock .refuseLastFromEnd) d.Good
          fun _ b => b = (d.builder X).setCallbacks .last [] ∧ d.Guarded := by
        apply Ends.self_bind
        split
        · have hbad : ¬d.Good := fun hgood => hgood.guarded (by simp [hone]) (htakes.mp ‹_›)
          exact Ends.of_halts hbad (Halts.refuse _)
        · exact Ends.of_turns (Turns.pure ()) ⟨rfl, fun _ h => ‹¬_› (htakes.mpr h)⟩
      rw [hone]
      apply Ends.runCallbacks_cons hguard
      exact fun _ hend => Ends.runCallbacks_nil hend

/-- What a builder looks like when the callbacks of `last` have run. -/
def LastDrained (d : Draft) (X : Progress) (b : Builder) : Prop :=
  ∃ Y, b = (d.builder Y).setCallbacks .last [] ∧ X.Forward (Y.set .last .settled) ∧ d.Sound Y ∧
    Y .bounds = .settled ∧ (Y .last).isLocked = false ∧ d.Guarded

/-- While the bounds are open they lock first, and the check that they register has a round of
its own. -/
theorem ends_last_drain_open (hsound : d.Sound X) (hopen : X .bounds = .waiting)
    (hlimit : X.Free .limit) (hwaiting : X .last = .waiting) (fuel : Nat) :
    Ends id saved (d.builder X) (drain (lockWith (fuel + 4)) .last (fuel + 4)) d.Good
      fun _ b => d.LastDrained X b := by
  have htaken : d.Sound (X.set .last .drained) := hsound.taken (by simp)
  have hqueue : (d.builder X).callbacks .last = [.settleBounds] := by
    simp [Draft.builder, callbacks, hwaiting, hopen, Stage.isWaiting, Stage.isSettled, queue,
      Builder.initialCallbacks]
  have hcalled : (d.builder X).setCallbacks .last [] = d.builder (X.set .last .drained) :=
    builder_drained hwaiting fun _ => by rw [hopen]; rfl
  have hround : Ends id saved ((d.builder X).setCallbacks .last [])
      (runCallbacks (lockWith (fuel + 4)) .last [.settleBounds]) d.Good
      fun _ b => d.Reaches (X.set .last .drained) [.bounds] b := by
    rw [hcalled]
    exact Ends.runCallbacks_cons (ends_bounds htaken (.inl hopen) fuel) fun _ hreaches =>
      Ends.runCallbacks_nil hreaches
  apply Ends.drain_round (fuel + 3) hqueue (by simp) hround
  rintro _ ⟨Y, rfl, hforward, hsound', hsettled⟩
  have hdrained : Y .last = .drained := (hforward.busy (by simp)).trans Progress.set_same
  have hbounds : Y .bounds = .settled := hsettled _ (by simp)
  have hguards : (d.builder Y).callbacks .last = d.guards := by
    simp [Draft.builder, callbacks, hdrained, hbounds, Stage.isWaiting, Stage.isSettled,
      Stage.isLocked]
  have hend (hguarded : d.Guarded) : d.LastDrained X ((d.builder Y).setCallbacks .last []) :=
    ⟨Y, rfl, hforward.finish hwaiting, hsound', hbounds, by rw [hdrained]; rfl, hguarded⟩
  by_cases hnone : d.guards = []
  · rw [hnone] at hguards
    apply Ends.drain_nil (fuel + 2) hguards
    have h := hend fun hsome => absurd hnone hsome
    rwa [(d.builder Y).setCallbacks_self hguards] at h
  · apply Ends.drain_round (fuel + 2) hguards hnone
      (ends_guards hbounds (hforward.free hlimit) _)
    rintro _ ⟨rfl, hguarded⟩
    exact Ends.drain_nil (fuel + 1) rfl (hend hguarded)

/-- Behind the bounds, the check runs in the same round as what would lock them. -/
theorem ends_last_drain_settled (hsound : d.Sound X) (hsettled : X .bounds = .settled)
    (hlimit : X.Free .limit) (hwaiting : X .last = .waiting) (fuel : Nat) :
    Ends id saved (d.builder X) (drain (lockWith (fuel + 4)) .last (fuel + 4)) d.Good
      fun _ b => d.LastDrained X b := by
  have hqueue : (d.builder X).callbacks .last = .settleBounds :: d.guards := by
    simp [Draft.builder, callbacks, hwaiting, hsettled, Stage.isWaiting, Stage.isSettled,
      Stage.isLocked, queue, Builder.initialCallbacks]
  have hbounds : Ends id saved ((d.builder X).setCallbacks .last [])
      (runCallback (lockWith (fuel + 4)) .settleBounds) d.Good
      fun _ b => b = (d.builder X).setCallbacks .last [] :=
    Ends.of_turns (Turns.idle (idle_lockWith _) (locked_of_settled (d := d) hsettled)) rfl
  have hround : Ends id saved ((d.builder X).setCallbacks .last [])
      (runCallbacks (lockWith (fuel + 4)) .last (.settleBounds :: d.guards)) d.Good
      fun _ b => b = (d.builder X).setCallbacks .last [] ∧ d.Guarded := by
    apply Ends.runCallbacks_cons hbounds
    rintro _ rfl
    exact ends_guards hsettled hlimit _
  apply Ends.drain_round (fuel + 3) hqueue (by simp) hround
  rintro _ ⟨rfl, hguarded⟩
  exact Ends.drain_nil (fuel + 2) rfl ⟨X, rfl, Progress.Free.set (.inl hwaiting), hsound,
    hsettled, by rw [hwaiting]; rfl, hguarded⟩

/-- `last` is checked behind the bounds, as they register the check. -/
theorem ends_last_drain (hsound : d.Sound X) (hbounds : X.Free .bounds) (hlimit : X.Free .limit)
    (hwaiting : X .last = .waiting) (fuel : Nat) :
    Ends id saved (d.builder X) (drain (lockWith (fuel + 4)) .last (fuel + 4)) d.Good
      fun _ b => d.LastDrained X b :=
  hbounds.elim (fun hopen => ends_last_drain_open hsound hopen hlimit hwaiting fuel)
    fun hsettled => ends_last_drain_settled hsound hsettled hlimit hwaiting fuel

theorem ends_last (hsound : d.Sound X) (hbounds : X.Free .bounds) (hlimit : X.Free .limit)
    (hfree : X.Free .last) (fuel : Nat) :
    Ends id saved (d.builder X) (lockWith (fuel + 5) .last) d.Good
      fun _ b => d.Reaches X [.last] b := by
  rcases hfree with hwaiting | hsettled
  · apply Ends.lockWith (open_of_waiting hwaiting)
      (ends_last_drain hsound hbounds hlimit hwaiting fuel)
    rintro _ ⟨Y, rfl, hforward, hsound', hsettled, hopen, hguarded⟩
    refine ⟨hopen, ?_⟩
    rw [builder_last]
    refine Ends.of_turns (Turns.pure ()) ⟨_, rfl, hforward, ?_, by simp⟩
    exact hsound'.set .settled (by simp) (by simp) (fun _ _ => hsettled) (fun _ _ => hguarded)
      (by simp)
  · exact ends_settled hsound hsettled _

/-- Every concern but the cursor and the select list locks, whatever has been locked by
then; the uniqueness of the order locks behind the order. -/
theorem ends_lock (hsound : d.Sound X) (hcalm : X.Calm) (hc : c ∉ [Concern.cursor, .select])
    (huniqueness : c = .uniqueness → X .order = .settled) (fuel : Nat) :
    Ends id saved (d.builder X) (lockWith (fuel + 6) c) d.Good fun _ b => d.Reaches X [c] b := by
  have hfree {c : Concern} (hcursor : c ≠ .cursor) (hselect : c ≠ .select) : X.Free c :=
    hcalm c hcursor hselect
  cases c with
  | source => exact ends_settled hsound hsound.source _
  | comparator => exact ends_settled hsound hsound.comparator _
  | uniqueness => exact ends_settled hsound (hsound.uniqueness.trans (huniqueness rfl)) _
  | joins =>
      exact Ends.of_turns (turns_joins _)
        ⟨_, rfl, hsound.joins.set, hsound.joinsSettled, by simp⟩
  | order =>
      exact Ends.of_turns (turns_order hsound _)
        ⟨_, rfl, hsound.forward_ordered, hsound.ordered, List.forall_mem_singleton.mpr rfl⟩
  | cursorTag =>
      exact Ends.of_turns (turns_cursorTag _)
        ⟨_, rfl, hsound.cursorTag.set, hsound.cursorTagSettled, by simp⟩
  | bounds => exact ends_bounds hsound (hfree nofun nofun) _
  | wheres => exact ends_wheres hsound (hfree nofun nofun) (hfree nofun nofun) _
  | offset => exact ends_offset hsound (hfree nofun nofun) (hfree nofun nofun) _
  | limit =>
      exact ends_limit hsound (hfree nofun nofun) (hfree nofun nofun) (hfree nofun nofun) _
  | first => exact ends_first hsound (hfree nofun nofun) (hfree nofun nofun) _
  | last => exact ends_last hsound (hfree nofun nofun) (hfree nofun nofun) (hfree nofun nofun) _
  | cursor => simp at hc
  | select => simp at hc

theorem Reaches.behind {concerns others : List Concern} {b : Builder} (hforward : X.Forward Y)
    (hsettled : ∀ c ∈ others, Y c = .settled) (hreaches : d.Reaches Y concerns b) :
    d.Reaches X (others ++ concerns) b := by
  obtain ⟨Z, rfl, hforward', hsound, hsettled'⟩ := hreaches
  refine ⟨Z, rfl, hforward.trans hforward', hsound, fun c hc => ?_⟩
  rcases List.mem_append.mp hc with hc | hc
  · exact hforward'.settled (hsettled c hc)
  · exact hsettled' c hc

/-- Several concerns lock one after the other. -/
theorem ends_locks {concerns : List Concern}
    (hconcerns : ∀ c ∈ concerns, c ∉ [Concern.cursor, .select, .uniqueness]) (hsound : d.Sound X)
    (hcalm : X.Calm) (fuel : Nat) :
    Ends id saved (d.builder X) (concerns.forM (lockWith (fuel + 6))) d.Good
      fun _ b => d.Reaches X concerns b := by
  induction concerns generalizing X with
  | nil => exact Ends.of_turns (Turns.pure _) ⟨X, rfl, .refl X, hsound, by simp⟩
  | cons c rest ih =>
      obtain ⟨hc, hrest⟩ := List.forall_mem_cons.mp hconcerns
      simp only [List.mem_cons, List.not_mem_nil, or_false, not_or] at hc
      obtain ⟨hcursor, hselect, huniqueness⟩ := hc
      apply Ends.bind (ends_lock hsound hcalm (by simp [hcursor, hselect])
        (fun h => absurd h huniqueness) fuel)
      rintro _ _ ⟨Y, rfl, hforward, hsound', hsettled⟩
      apply (ih hrest hsound' (hcalm.forward hforward)).imp fun hgood => hgood
      exact fun _ _ hreaches => hreaches.behind hforward hsettled

end Draft

end PageQuery
