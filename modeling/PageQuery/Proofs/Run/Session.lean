import PageQuery.Builder.Session
import PageQuery.Proofs.Run.Locking

/-!
# Runs

A run performs steps on the first builder of a fresh world, whatever the steps are
and whether they are refused or not.  What holds at the start and is kept by every
lock holds whenever a step is done.
-/

namespace PageQuery.World

open PageQuery.Action

/-- The worlds between the steps of a run. -/
inductive Reached : World → Prop
  | initial (options : Options) (tokens : Nat) : Reached (start options tokens)
  | next {w : World} (s : Step) (hreached : Reached w)
      (hanswered : (w.step s).1.outcome.isOk) : Reached (w.step s).2

/-- In the beginning every builder is fresh. -/
theorem builder_start (options : Options) (tokens : Nat) (id : BuilderId) :
    (start options tokens).builder id = .fresh (if id = root then options else {}) none := by
  by_cases hroot : id = root
  · rw [if_pos hroot]
    subst hroot
    rfl
  · rw [if_neg hroot]
    simp [start, builder, List.lookup_cons, beq_eq_false_iff_ne.mpr hroot]

theorem closed_start (options : Options) (tokens : Nat) : (start options tokens).Closed := by
  intro id entry hentry
  rw [builder_start] at hentry
  cases hentry

/-- The world that a step works on: nothing is reported yet. -/
def quiet (w : World) : World := { w with events := [], journal := [] }

/-- A step performed as an action on the first builder. -/
def perform (w : World) (s : Step) : Except Halt Answer × World :=
  (performStep (lockWith (w.budget s)) s).exec root w.quiet

theorem run_eq_exec {α : Type} (w : World) (action : Action α) :
    w.run action = action.exec root w := rfl

theorem step_world (w : World) (s : Step) : (w.step s).2 = (w.perform s).2 := rfl

theorem step_outcome (w : World) (s : Step) :
    (w.step s).1.outcome = answered (w.perform s).1 := rfl

/-- A step that is answered has run to its end. -/
theorem completes_perform {w : World} {s : Step} (hanswered : (w.step s).1.outcome.isOk) :
    Completes (w.perform s).1 :=
  isOk_answered_iff.mp hanswered

/-- The world behind steps. -/
def after (w : World) (steps : List Step) : World := steps.foldl (fun w s => (w.step s).2) w

/-- Steps are performed one after the other. -/
theorem steps_append (w : World) (steps others : List Step) :
    w.steps (steps ++ others) = w.steps steps ++ (w.after steps).steps others := by
  induction steps generalizing w with
  | nil => rfl
  | cons s rest ih => exact congrArg ((w.step s).1 :: ·) (ih (w.step s).2)

/-- A step that is answered keeps what the locks keep. -/
theorem step_kept {P : World → Prop} (hrespects : ∀ fuel, (lockWith fuel).Respects P)
    {w : World} (s : Step) (hanswered : (w.step s).1.outcome.isOk)
    (hlive : root < w.nextBuilder) (hclosed : w.Closed) (hholds : P w.quiet) :
    w.Kept P (w.step s).2 := by
  have hquiet : w.Kept P w.quiet := ⟨hholds, hclosed, Nat.le_refl _⟩
  have hstep : Preserves P root (performStep (lockWith (w.budget s)) s) :=
    (hrespects (w.budget s)).performStep s
  exact hquiet.trans
    (hstep hlive hquiet.closed hquiet.holds (completes_perform hanswered))

/-- What holds of a fresh world, is kept by the locks and is not about what is to be
reported holds in every run. -/
theorem Reached.kept {P : World → Prop} (hrespects : ∀ fuel, (lockWith fuel).Respects P)
    (hstart : ∀ options tokens, P (start options tokens)) (hquiet : ∀ w, P w → P w.quiet)
    {w : World} (hreached : w.Reached) :
    root < w.nextBuilder ∧ w.Closed ∧ P w := by
  induction hreached with
  | initial options tokens =>
      exact ⟨Nat.zero_lt_one, closed_start options tokens, hstart options tokens⟩
  | next s _ hanswered ih =>
      obtain ⟨hlive, hclosed, hholds⟩ := ih
      have hkept := step_kept hrespects s hanswered hlive hclosed (hquiet _ hholds)
      exact ⟨hkept.live hlive, hkept.closed, hkept.holds⟩

/-- In every run there is a first builder, and builders know only children that have
been made. -/
theorem Reached.sound {w : World} (hreached : w.Reached) :
    root < w.nextBuilder ∧ w.Closed := by
  have hkept := hreached.kept (fun fuel => respects_sound (lawful_lockWith fuel))
    (fun _ _ => trivial) fun _ _ => trivial
  exact ⟨hkept.1, hkept.2.1⟩

/-- Steps that are all answered lead from one world of a run to another one. -/
theorem Reached.after {w : World} (hreached : w.Reached) (steps : List Step)
    (hanswered : ∀ report ∈ w.steps steps, report.outcome.isOk = true) :
    (w.after steps).Reached := by
  induction steps generalizing w with
  | nil => exact hreached
  | cons s rest ih =>
      obtain ⟨hfirst, hrest⟩ := List.forall_mem_cons.mp hanswered
      exact ih (hreached.next s hfirst) hrest

/-! Where builders come from -/

/-- The parent of a builder has been made before it. -/
def ParentsFirst (w : World) : Prop :=
  ∀ id ref, (w.builder id).parent = some ref → ref.id < id

theorem ParentsFirst.setBuilder {w : World} (hfirst : w.ParentsFirst) {id : BuilderId}
    {b : Builder} (hparent : ∀ ref, b.parent = some ref → ref.id < id) :
    (w.setBuilder id b).ParentsFirst := by
  intro other
  refine holds_setBuilder (∀ ref, ·.parent = some ref → ref.id < other) ?_ (hfirst other)
  rintro rfl -
  exact hparent

/-- A parent is older than its children. -/
theorem stable_parentsFirst : Stable ParentsFirst := by
  intro w w' hchange hfirst
  cases hchange with
  | spawn options parent holder => exact hfirst.setBuilder holder
  | @edit id b _ hedit =>
      have hparent : b.parent = (w.builder id).parent := by cases hedit <;> rfl
      exact hfirst.setBuilder fun ref href => hfirst id ref (hparent ▸ href)
  | filter | child => exact hfirst.setBuilder (hfirst _)
  | _ => exact hfirst

theorem Reached.parentsFirst {w : World} (hreached : w.Reached) : w.ParentsFirst := by
  refine (hreached.kept (respects_of_origin stable_parentsFirst ?_ ?_) ?_ ?_).2.2
  · exact fun w id b _ hparent hfirst => hfirst.setBuilder fun ref href =>
      hfirst id ref (hparent ▸ href)
  · exact fun _ _ _ hfirst => hfirst
  · intro options tokens id ref href
    rw [builder_start] at href
    cases href
  · exact fun _ hfirst => hfirst

/-! Builders that are there -/

variable {w : World} {id : BuilderId}

/-- Under the id there is a builder, and not only the fresh one that an id not given out
stands for. -/
def Stored (id : BuilderId) (w : World) : Prop := (w.builders.lookup id).isSome = true

/-- Every builder that has been made is there. -/
def AllStored (w : World) : Prop := ∀ id, id < w.nextBuilder → w.Stored id

theorem Stored.setBuilder (hstored : w.Stored id) (other : BuilderId) (b : Builder) :
    (w.setBuilder other b).Stored id := by
  rw [Stored, World.setBuilder, lookup_replace]
  split
  · rfl
  · exact hstored

/-- A builder that is put in place is stored. -/
theorem stored_setBuilder (w : World) (id : BuilderId) (b : Builder) :
    (w.setBuilder id b).Stored id := by
  rw [Stored, setBuilder, lookup_replace, if_pos rfl]
  rfl

theorem replace_self {b : Builder} {builders : List (BuilderId × Builder)}
    (hlookup : builders.lookup id = some b) : replace id b builders = builders := by
  induction builders with
  | nil => cases hlookup
  | cons entry rest ih =>
      obtain ⟨i, old⟩ := entry
      rw [replace]
      by_cases hi : i = id
      · rw [List.lookup_cons, hi, beq_self_eq_true] at hlookup
        obtain rfl : old = b := Option.some.inj hlookup
        rw [if_pos hi, hi]
      · rw [List.lookup_cons, beq_eq_false_iff_ne.mpr (Ne.symm hi)] at hlookup
        rw [if_neg hi, ih hlookup]

/-- To put a builder where it is changes nothing. -/
theorem Stored.setBuilder_self (hstored : w.Stored id) : w.setBuilder id (w.builder id) = w := by
  obtain ⟨b, hb⟩ := Option.isSome_iff_exists.mp hstored
  have hbuilder : w.builder id = b := by rw [builder, hb, Option.getD_some]
  rw [World.setBuilder, hbuilder, replace_self hb]

theorem stable_allStored : Stable AllStored := by
  intro w w' hchange hstored
  cases hchange with
  | spawn options parent =>
      intro id hid
      rcases Nat.lt_succ_iff_lt_or_eq.mp hid with hlive | rfl
      · exact (hstored id hlive).setBuilder _ _
      · exact stored_setBuilder w _ _
  | edit | filter | child => exact fun id hid => (hstored id hid).setBuilder _ _
  | _ => exact hstored

/-- Every builder that has been made is stored, whatever is locked. -/
theorem respects_allStored (fuel : Nat) : (lockWith fuel).Respects AllStored :=
  respects_of_origin stable_allStored
    (fun _ other b _ _ hstored id hid => (hstored id hid).setBuilder other b)
    (fun _ _ _ hstored => hstored) fuel

theorem allStored_start (options : Options) (tokens : Nat) : (start options tokens).AllStored := by
  intro id hid
  obtain rfl : id = root := Nat.lt_one_iff.mp hid
  rfl

/-- In every run every builder that has been made is there. -/
theorem Reached.allStored (hreached : w.Reached) : w.AllStored :=
  (hreached.kept respects_allStored allStored_start fun _ hstored => hstored).2.2

end PageQuery.World
