import PageQuery.Proofs.Call.Registration
import PageQuery.Proofs.Run.Path

/-!
# Calls on different concerns commute

A call that registers something ready reads and changes the part of its own concern only.
So what the calls on a concern answer, and the part that they leave, depends on these calls
and not on those between them; and a builder is its parts.  The comparator is locked by the
call that sets it: that is a call like the others unless a callback waits for that lock.
-/

namespace PageQuery

open Sql

/-- The concern that a call registers something ready for. -/
def Op.readyConcern? : Op → Option Concern
  | .select .. | .selectIdentifiers _ => some .select
  | .selectCursor _ => some .cursor
  | .join _ => some .joins
  | .filter _ => some .wheres
  | .bound .. | .addCursorCondition .. => some .bounds
  | .orderBy .. => some .order
  | .setOrderUnique => some .uniqueness
  | .limit _ => some .limit
  | .offset _ => some .offset
  | .first _ => some .first
  | .last _ => some .last
  | .setComparator _ | .setCustomComparator _ => some .comparator
  | .setCursorTag _ => some .cursorTag
  | _ => none

/-- A step that performs an operation on the builder that the names lead to. -/
def Op.atPath (op : Op) (path : List String) : Step := .mk path op false none

theorem Op.readyConcern?_eq (op : Op) (scope : Scope) :
    op.readyConcern? = (op.registration? scope).map Registration.concern := by
  cases op <;> rfl

theorem Op.registration?_of_ready {op : Op} {c : Concern} (hc : op.readyConcern? = some c)
    (scope : Scope) : ∃ r, op.registration? scope = some r ∧ r.concern = c := by
  rw [op.readyConcern?_eq scope] at hc
  exact Option.map_eq_some_iff.mp hc

namespace Builder

variable {b b' : Builder} {c : Concern} {r : Registration} {scope : Scope} {op : Op}

/-- What a registration answers, and the builder behind it. -/
def registered (b : Builder) (r : Registration) : Except Halt Unit × Builder :=
  match r.change (b.part r.concern) with
  | .ok p => (.ok (), b.setPart r.concern p)
  | .error halt => (.error halt, b)

theorem samePlace_registered (b : Builder) (r : Registration) :
    b.SamePlace (b.registered r).2 := by
  rw [registered]
  split
  · exact samePlace_setPart b _ _
  · exact .refl b

/-- A registration leaves the parts of other concerns as they are. -/
theorem part_registered_of_ne (hne : c ≠ r.concern) : (b.registered r).2.part c = b.part c := by
  rw [registered]
  split
  · exact part_setPart_of_ne b _ hne
  · rfl

/-- A registration reads the part of its own concern only. -/
theorem registered_congr (hpart : b'.part r.concern = b.part r.concern) :
    (b'.registered r).1 = (b.registered r).1 ∧
      (b'.registered r).2.part r.concern = (b.registered r).2.part r.concern := by
  rw [registered, registered, hpart]
  cases r.change (b.part r.concern) with
  | error e => exact ⟨rfl, hpart⟩
  | ok p => exact ⟨rfl, by rw [part_setPart, part_setPart]⟩

/-- What a call that registers something ready answers, and the builder behind it. -/
def called (b : Builder) (scope : Scope) (op : Op) : Except Halt Unit × Builder :=
  match op.registration? scope with
  | some r => b.registered r
  | none => (.ok (), b)

theorem called_of_registration (hop : op.registration? scope = some r) :
    b.called scope op = b.registered r := by
  rw [called, hop]

theorem samePlace_called (b : Builder) (scope : Scope) (op : Op) :
    b.SamePlace (b.called scope op).2 := by
  rw [called]
  split
  · exact samePlace_registered b _
  · exact .refl b

theorem part_called_of_ne (b : Builder) (scope : Scope) (hne : op.readyConcern? ≠ some c) :
    (b.called scope op).2.part c = b.part c := by
  rw [called]
  cases hop : op.registration? scope with
  | none => rfl
  | some r =>
      refine part_registered_of_ne fun hc => hne ?_
      rw [op.readyConcern?_eq scope, hop, hc]
      rfl

theorem called_congr (scope : Scope) (hc : op.readyConcern? = some c)
    (hpart : b'.part c = b.part c) :
    (b'.called scope op).1 = (b.called scope op).1 ∧
      (b'.called scope op).2.part c = (b.called scope op).2.part c := by
  obtain ⟨r, hr, rfl⟩ := Op.registration?_of_ready hc scope
  rw [called_of_registration hr, called_of_registration hr]
  exact registered_congr hpart

/-- No call that registers something ready touches the row source, so all of them read their
expressions alike. -/
theorem scope_called (b : Builder) (scope : Scope) (op : Op) (saved : List (String × Fragment)) :
    (b.called scope op).2.scope saved = b.scope saved := by
  have hne : op.readyConcern? ≠ some .source := by cases op <;> simp [Op.readyConcern?]
  have hsource : (b.called scope op).2.source = b.source :=
    congrArg Concern.Part.contents (part_called_of_ne b scope hne)
  have hparent := (b.samePlace_called scope op).parent
  rw [Builder.scope, Builder.scope, tableAlias, tableAlias, parentAlias, parentAlias, hsource,
    hparent]

/-- The builder behind calls. -/
def afterCalls (b : Builder) (scope : Scope) (calls : List Op) : Builder :=
  calls.foldl (fun b op => (b.called scope op).2) b

/-- What the calls on one concern answer. -/
def answersOn (scope : Scope) (c : Concern) : Builder → List Op → List (Except Halt Unit)
  | _, [] => []
  | b, op :: rest =>
    let answers := answersOn scope c (b.called scope op).2 rest
    if op.readyConcern? = some c then (b.called scope op).1 :: answers else answers

theorem samePlace_afterCalls (b : Builder) (scope : Scope) (calls : List Op) :
    b.SamePlace (b.afterCalls scope calls) := by
  induction calls generalizing b with
  | nil => exact .refl b
  | cons op rest ih => exact (b.samePlace_called scope op).trans (ih _)

/-- What the calls on a concern do does not depend on the calls between them. -/
theorem calls_on (calls : List Op) (hpart : b'.part c = b.part c) :
    b'.answersOn scope c (calls.filter fun op => op.readyConcern? = some c) =
        b.answersOn scope c calls ∧
      (b'.afterCalls scope (calls.filter fun op => op.readyConcern? = some c)).part c =
        (b.afterCalls scope calls).part c := by
  induction calls generalizing b b' with
  | nil => exact ⟨rfl, hpart⟩
  | cons op rest ih =>
      by_cases hc : op.readyConcern? = some c
      · obtain ⟨hanswer, hbehind⟩ := called_congr scope hc hpart
        obtain ⟨hanswers, hparts⟩ := ih hbehind
        rw [List.filter_cons_of_pos (by simpa using hc)]
        refine ⟨?_, hparts⟩
        rw [answersOn, answersOn, if_pos hc, if_pos hc, hanswer, hanswers]
      · obtain ⟨hanswers, hparts⟩ := ih (hpart.trans (part_called_of_ne _ _ hc).symm)
        rw [List.filter_cons_of_neg (by simpa using hc)]
        refine ⟨?_, hparts⟩
        rw [answersOn, if_neg hc, hanswers]

variable {calls calls' : List Op}

/-- Calls that are the same on every concern answer the same on it. -/
theorem answersOn_eq (b : Builder) (scope : Scope)
    (hsame : ∀ c, calls.filter (fun op => op.readyConcern? = some c) =
      calls'.filter fun op => op.readyConcern? = some c) (c : Concern) :
    b.answersOn scope c calls = b.answersOn scope c calls' := by
  rw [← (calls_on calls rfl).1, hsame, (calls_on calls' rfl).1]

/-- Calls that are the same on every concern leave the same builder. -/
theorem afterCalls_eq (b : Builder) (scope : Scope)
    (hsame : ∀ c, calls.filter (fun op => op.readyConcern? = some c) =
      calls'.filter fun op => op.readyConcern? = some c) :
    b.afterCalls scope calls = b.afterCalls scope calls' := by
  obtain ⟨hoptions, hparent, hchildren⟩ := b.samePlace_afterCalls scope calls
  obtain ⟨hoptions', hparent', hchildren'⟩ := b.samePlace_afterCalls scope calls'
  have hplace : (b.afterCalls scope calls').SamePlace (b.afterCalls scope calls) :=
    ⟨hoptions.trans hoptions'.symm, hparent.trans hparent'.symm, hchildren.trans hchildren'.symm⟩
  refine eq_of_parts hplace fun c => ?_
  rw [← (calls_on calls rfl).2, hsame, (calls_on calls' rfl).2]

theorem Calm.of_part (hcalm : b.Calm) (hpart : b'.part .comparator = b.part .comparator) :
    b'.Calm := by
  have hcalm' : (b.part .comparator).locked = false → (b.part .comparator).callbacks = [] := hcalm
  rw [← hpart] at hcalm'
  exact hcalm'

/-- A comparator that has been set is locked. -/
theorem Calm.settleComparator (hcalm : b.Calm) (comparator : Comparator) :
    (b.registered ⟨.comparator, fun p => p.settleComparator comparator⟩).2.Calm := by
  rw [registered]
  dsimp only
  rw [Concern.Part.settleComparator]
  by_cases hlocked : (b.part .comparator).locked = true
  · rw [if_pos hlocked]
    exact hcalm
  · rw [if_neg hlocked]
    intro hopen
    have hset := congrArg Concern.Part.locked <|
      b.part_setPart .comparator ⟨(none, some comparator), true, (b.part .comparator).callbacks⟩
    exact absurd (hset.symm.trans hopen) (by simp)

theorem Calm.called (hcalm : b.Calm) : (b.called scope op).2.Calm := by
  by_cases hc : op.readyConcern? = some .comparator
  · cases op with
    | setComparator kind => exact hcalm.settleComparator (.kind kind)
    | setCustomComparator steps => exact hcalm.settleComparator (.custom steps)
    | _ => cases hc
  · exact hcalm.of_part (part_called_of_ne _ _ hc)

end Builder

namespace World

open PageQuery.Action

variable {w w' : World} {id : BuilderId} {path : List String} {scope : Scope} {op : Op}

/-- To replace a builder keeps paths if the children stay. -/
theorem Leads.setBuilder {start : BuilderId} (hleads : w.Leads id start path) {b : Builder}
    (hchildren : b.children = (w.builder id).children) :
    (w.setBuilder id b).Leads id start path := by
  induction path generalizing start with
  | nil => exact hleads
  | cons name names ih =>
      obtain ⟨child, hchild, hrest⟩ := hleads
      refine ⟨child, ?_, ih hrest⟩
      rwa [Builder.child, part_setBuilder (·.children) fun _ => hchildren]

theorem SameState.leads (h : w.SameState w') {start : BuilderId}
    (hleads : w.Leads id start path) : w'.Leads id start path := by
  induction path generalizing start with
  | nil => exact hleads
  | cons name names ih =>
      obtain ⟨child, hchild, hrest⟩ := hleads
      exact ⟨child, by rw [h.builder, hchild], ih hrest⟩

theorem SameState.stored (h : w.SameState w') (hstored : w.Stored id) : w'.Stored id := by
  rw [Stored, h.builders]
  exact hstored

/-- A step that saves nothing is its operation on the builder that its path leads to. -/
theorem perform_atPath (hleads : w.Leads id root path) (op : Op) :
    w.perform (op.atPath path) =
      (Action.perform (lockWith (w.budget (op.atPath path))) op).exec id w.quiet := by
  rw [World.perform, exec_performStep_of_leads hleads.quiet]
  change (within id (Action.perform _ op) >>= saving none).exec root w.quiet = _
  rw [exec_bind, exec_within]
  generalize (Action.perform _ _).exec id w.quiet = result
  obtain ⟨_ | _, _⟩ := result <;> rfl

/-- A call that registers something ready answers what it does to its builder, and changes
nothing else. -/
theorem step_called (hleads : w.Leads id root path) (hstored : w.Stored id)
    (hscope : scope = (w.builder id).scope w.saved)
    (hready : op.readyConcern?.isSome = true)
    (hcalm : op.readyConcern? = some .comparator → (w.builder id).Calm) :
    (w.step (op.atPath path)).1.outcome =
        answered (((w.builder id).called scope op).1.map fun _ => .done) ∧
      (w.setBuilder id ((w.builder id).called scope op).2).SameState
        (w.step (op.atPath path)).2 := by
  obtain ⟨c, hc⟩ := Option.isSome_iff_exists.mp hready
  obtain ⟨r, hr, rfl⟩ := Op.registration?_of_ready hc scope
  obtain ⟨fuel, hfuel⟩ := w.exists_budget (op.atPath path)
  obtain ⟨action, hperform, hregisters⟩ := registers_perform (w := w.quiet) (fuel + 6) hscope
    hstored (fun hcomparator => hcalm (hcomparator ▸ hc)) hr
  rw [step_outcome, step_world, perform_atPath hleads, hfuel, hperform,
    Builder.called_of_registration hr, Builder.registered]
  have hsame : w.SameState w.quiet := ⟨rfl, rfl, rfl, rfl⟩
  cases hchange : r.change ((w.builder id).part r.concern) with
  | error halt =>
      have hrun : (answering action).exec id w.quiet = (.error halt, w.quiet) :=
        exec_bind_error (hregisters.halted hchange)
      rw [hrun]
      dsimp only
      rw [hstored.setBuilder_self]
      exact ⟨rfl, hsame⟩
  | ok p =>
      obtain ⟨w', hrun, hstate⟩ := hregisters.accepted hchange
      have hrun : (answering action).exec id w.quiet = (.ok .done, w') := exec_bind_ok hrun
      rw [hrun]
      exact ⟨rfl, (hsame.setBuilder id _).trans hstate⟩

/-- What the calls on one concern answer, on the builder that the names lead to. -/
def answersOn (w : World) (path : List String) (c : Concern) (calls : List Op) :
    List (Except Abort (Except Error Answer)) :=
  (calls.zip (w.steps (calls.map (Op.atPath · path)))).filterMap fun (op, report) =>
    if op.readyConcern? = some c then some report.outcome else none

theorem answersOn_cons (w : World) (path : List String) (c : Concern) (op : Op)
    (rest : List Op) :
    w.answersOn path c (op :: rest) =
      if op.readyConcern? = some c then
        (w.step (op.atPath path)).1.outcome :: (w.step (op.atPath path)).2.answersOn path c rest
      else (w.step (op.atPath path)).2.answersOn path c rest := by
  have hsteps : w.steps ((op :: rest).map (Op.atPath · path)) = (w.step (op.atPath path)).1 ::
      (w.step (op.atPath path)).2.steps (rest.map (Op.atPath · path)) := rfl
  rw [answersOn, hsteps, List.zip_cons_cons, List.filterMap_cons]
  by_cases hc : op.readyConcern? = some c
  · simp only [if_pos hc]
    rfl
  · simp only [if_neg hc]
    rfl

/-- Calls that register something ready answer what they do to their builder, and change
nothing else. -/
theorem steps_called {calls : List Op} (hleads : w.Leads id root path) (hstored : w.Stored id)
    (hscope : (w.builder id).scope w.saved = scope)
    (hready : ∀ op ∈ calls, op.readyConcern?.isSome = true)
    (hcalm : ∀ op ∈ calls, op.readyConcern? = some .comparator → (w.builder id).Calm) :
    (∀ c, w.answersOn path c calls = ((w.builder id).answersOn scope c calls).map
        fun answer => answered (answer.map fun _ => .done)) ∧
      (w.setBuilder id ((w.builder id).afterCalls scope calls)).SameState
        (w.after (calls.map (Op.atPath · path))) := by
  induction calls generalizing w with
  | nil =>
      refine ⟨fun _ => rfl, ?_⟩
      rw [Builder.afterCalls, List.foldl_nil, hstored.setBuilder_self]
      exact .refl w
  | cons op rest ih =>
      obtain ⟨hfirst, hrest⟩ := List.forall_mem_cons.mp hready
      obtain ⟨houtcome, hstate⟩ :=
        step_called hleads hstored hscope.symm hfirst (hcalm op List.mem_cons_self)
      have hbuilder : (w.step (op.atPath path)).2.builder id =
          ((w.builder id).called scope op).2 := by
        rw [hstate.builder, builder_setBuilder_self]
      have hsaved : (w.step (op.atPath path)).2.saved = w.saved := hstate.saved
      have hchildren := ((w.builder id).samePlace_called scope op).children
      obtain ⟨hanswers, hworld⟩ := ih
        (hstate.leads (hleads.setBuilder hchildren)) (hstate.stored (stored_setBuilder w id _))
        (by rw [hbuilder, hsaved, Builder.scope_called, hscope]) hrest
        (fun other hother hc => hbuilder ▸ (hcalm other (List.mem_cons_of_mem op hother) hc).called)
      rw [hbuilder] at hanswers hworld
      constructor
      · intro c
        rw [answersOn_cons, hanswers, houtcome, Builder.answersOn]
        split <;> rfl
      · have hreplaced := hstate.setBuilder id
          (((w.builder id).called scope op).2.afterCalls scope rest)
        refine SameState.trans ?_ (hreplaced.trans hworld)
        exact ⟨replace_replace id _ _ _, rfl, rfl, rfl⟩

/-- Worlds in the same state have the same budgets, and so the next step answers the same in
both. -/
theorem SameState.step_outcome (h : w.SameState w') (s : Step) :
    (w'.step s).1.outcome = (w.step s).1.outcome := by
  have hbudget : w'.budget s = w.budget s := by
    simp only [budget, heaviestComparator, weight, h.builders]
  have hquiet : w.quiet.SameState w'.quiet := ⟨h.builders, h.nextBuilder, h.nextToken, h.saved⟩
  rw [World.step_outcome, World.step_outcome, perform, perform, hbudget]
  have hfollows := fun c => follows_lockWith likeness_sameState (Nat.le_refl (w.budget s)) c
  have hprogram := (Program.performStep (.of_named trivial s)).follows likeness_sameState hfollows
  have hforth := @hprogram root _ _ hquiet
  have hback := @hprogram root _ _ hquiet.symm
  by_cases hhalt : ((performStep (lockWith (w.budget s)) s).exec root w.quiet).1 =
      .error (.aborted .exhausted)
  · by_cases hhalt' : ((performStep (lockWith (w.budget s)) s).exec root w'.quiet).1 =
        .error (.aborted .exhausted)
    · rw [hhalt, hhalt']
    · rw [(hback hhalt').1]
  · rw [(hforth hhalt).1]

/-- Calls on different concerns commute.  If two lists of calls that register something
ready are the same on every concern, the calls on each concern answer the same, and then
every step answers the same, a build with whatever options among them.  A call that sets an
open comparator locks it; callbacks that wait for that lock run meanwhile and may do anything,
so there must be none if there is such a call. -/
theorem calls_commute (hreached : w.Reached) (hleads : w.Leads id root path)
    (calls calls' : List Op) (hready : ∀ op ∈ calls, op.readyConcern?.isSome = true)
    (hready' : ∀ op ∈ calls', op.readyConcern?.isSome = true)
    (hsame : ∀ c, calls.filter (fun op => op.readyConcern? = some c) =
      calls'.filter fun op => op.readyConcern? = some c)
    (hcalm : (∃ op ∈ calls, op.readyConcern? = some .comparator) →
      (w.builder id).locked .comparator = false → (w.builder id).callbacks .comparator = []) :
    (∀ c, w.answersOn path c calls = w.answersOn path c calls') ∧
      ∀ s : Step, ((w.after (calls.map (Op.atPath · path))).step s).1.outcome =
        ((w.after (calls'.map (Op.atPath · path))).step s).1.outcome := by
  obtain ⟨hlive, hclosed⟩ := hreached.sound
  have hstored := hreached.allStored id (hleads.live hclosed hlive)
  have hcalm' : (∃ op ∈ calls', op.readyConcern? = some .comparator) → (w.builder id).Calm := by
    rintro ⟨op, hop, hc⟩
    have hmem : op ∈ calls'.filter fun op => op.readyConcern? = some .comparator :=
      List.mem_filter.mpr ⟨hop, by simpa using hc⟩
    rw [← hsame, List.mem_filter] at hmem
    exact hcalm ⟨op, hmem.1, hc⟩
  obtain ⟨hanswers, hworld⟩ := steps_called hleads hstored rfl hready fun op hop hc =>
    hcalm ⟨op, hop, hc⟩
  obtain ⟨hanswers', hworld'⟩ := steps_called hleads hstored rfl hready' fun op hop hc =>
    hcalm' ⟨op, hop, hc⟩
  constructor
  · intro c
    rw [hanswers, hanswers', Builder.answersOn_eq _ _ hsame]
  · intro s
    rw [Builder.afterCalls_eq _ _ hsame] at hworld
    exact (hworld'.symm.trans hworld).step_outcome s

/-- Two calls on a builder with a row source. -/
def sourced : World := ((start {} 0).step (Op.atPath (.source (.text "items") none) [])).2

theorem reached_sourced : sourced.Reached :=
  .next _ (.initial {} 0) (by decide +kernel)

/-- A comparator that is set between other calls, and a limit that is set twice. -/
theorem calls_commute_sourced :
    sourced.answersOn [] .limit [.limit 5, .setComparator .natural, .offset 2, .limit 7] =
        sourced.answersOn [] .limit [.setComparator .natural, .limit 5, .limit 7, .offset 2] ∧
      sourced.answersOn [] .limit [.limit 5, .setComparator .natural, .offset 2, .limit 7] =
        [.ok (.ok .done), .ok (.error (.validation .limitSet))] := by
  have hleads : sourced.Leads root root [] := rfl
  have hcommute := calls_commute reached_sourced hleads
    [.limit 5, .setComparator .natural, .offset 2, .limit 7]
    [.setComparator .natural, .limit 5, .limit 7, .offset 2]
    (by decide +kernel) (by decide +kernel) (by rintro ⟨⟩ <;> rfl) fun _ _ => rfl
  exact ⟨hcommute.1 .limit, rfl⟩

/-- A builder with a row source and a callback that locks the offset before the comparator. -/
def awaited : World :=
  (sourced.step (Op.atPath (.beforeLock .comparator [Op.atPath (.lock .offset) []]) [])).2

/-- A callback before the lock of the comparator may lock the concern of another call, so
that call is refused behind the one that sets the comparator, and not before it. -/
theorem comparator_call_collides :
    awaited.Reached ∧
      (awaited.builder root).source.isSome ∧
      (∀ c, ([.setComparator .row, .offset 1] : List Op).filter
          (fun op => op.readyConcern? = some c) =
        ([.offset 1, .setComparator .row] : List Op).filter
          fun op => op.readyConcern? = some c) ∧
      awaited.answersOn [] .offset [.setComparator .row, .offset 1] =
        [.ok (.error (.lockedMutation .offset))] ∧
      awaited.answersOn [] .offset [.offset 1, .setComparator .row] = [.ok (.ok .done)] :=
  ⟨.next _ reached_sourced (by decide +kernel), rfl, by rintro ⟨⟩ <;> rfl, rfl, rfl⟩

end World

end PageQuery
