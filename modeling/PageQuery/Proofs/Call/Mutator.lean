import PageQuery.Proofs.Call.Registration

/-!
# What a single call may change

A call that is refused leaves the world as it was.  A call that is accepted changes the data
or the queue of its own concern and nothing else, and one that makes a child adds that
child.  No call locks anything, and only the lock of its own concern bars it.
-/

namespace PageQuery

open Sql

theorem Builder.tableAlias_error {b : Builder} {e : Error} (herror : b.tableAlias = .error e) :
    ∃ violation, e = .validation violation := by
  rw [tableAlias] at herror
  split at herror
  · cases herror
  · cases herror
    exact ⟨_, rfl⟩

theorem checkName_error {name : String} {e : Error}
    (herror : Action.checkName name = .error e) : ∃ violation, e = .validation violation := by
  rw [Action.checkName] at herror
  split at herror
  · cases herror
    exact ⟨_, rfl⟩
  · split at herror
    · cases herror
      exact ⟨_, rfl⟩
    · cases herror

theorem selecting_error {field : PendingField} {contents : Concern.select.Contents} {e : Error}
    (herror : selecting field contents = .error e) :
    ∃ violation, e = .validation violation := by
  rw [selecting] at herror
  cases hname : Action.checkName field.name with
  | error e' =>
      rw [hname] at herror
      cases herror
      exact checkName_error hname
  | ok _ =>
      rw [hname] at herror
      cases herror

theorem selectingIdentifiers_error {tableAlias : Except Error Node} {primaryKey : List String}
    {contents : Concern.select.Contents} {e : Error}
    (htable : ∀ e, tableAlias = .error e → ∃ violation, e = .validation violation)
    (herror : selectingIdentifiers tableAlias primaryKey contents = .error e) :
    ∃ violation, e = .validation violation := by
  simp only [selectingIdentifiers] at herror
  split at herror
  · cases herror
  · cases htableAlias : tableAlias with
    | error e' =>
        rw [htableAlias] at herror
        cases herror
        exact htable e htableAlias
    | ok table =>
        rw [htableAlias] at herror
        have hselecting : selecting ⟨.ready (Action.identifiers table primaryKey), identifiersAlias⟩
            ((contents.1.1, true), contents.2) = .error e := herror
        exact selecting_error hselecting

namespace Call

variable {call : Call} {tableAlias : Except Error Node}

/-- The data of a concern are refused for what they are, and not for a lock. -/
theorem revise_error (htable : ∀ e, tableAlias = .error e → ∃ violation, e = .validation violation)
    {contents : call.concern.Contents} {e : Error}
    (herror : call.revise tableAlias contents = .error e) :
    ∃ violation, e = .validation violation := by
  cases call with
  | select expr name => exact selecting_error herror
  | selectIdentifiers primaryKey => exact selectingIdentifiers_error htable herror
  | limit | first | last =>
      simp only [revise] at herror
      split at herror
      · cases herror
        exact ⟨_, rfl⟩
      · cases herror
  | _ => cases herror

/-- What a call makes of the part of its concern: nothing if the concern is locked, and
otherwise its data are revised, or its callback is put behind the others. -/
theorem change_eq (call : Call) (tableAlias : Except Error Node) (p : call.concern.Part) :
    (call.registration tableAlias).change p =
      if p.locked then .error (.refused (.lockedMutation call.concern))
      else ((call.revise tableAlias p.contents).mapError .refused).map fun contents =>
        ⟨contents, p.locked, p.callbacks ++ call.callback?.toList⟩ := by
  cases call with
  | addCursorCondition | beforeLock => rfl
  | _ =>
      simp only [registration, callback?, Option.toList_none, List.append_nil]
      rfl

end Call

namespace World

variable {w w' : World} {id : BuilderId} {call : Call}

/-- The worlds differ in one concern of one builder, in its data or in the callbacks before
its lock. -/
structure Registered (call : Call) (id : BuilderId) (w w' : World) : Prop where
  others : ∀ other, other ≠ id → w'.builder other = w.builder other
  place : (w.builder id).SamePlace (w'.builder id)
  locked : (w'.builder id).locked = (w.builder id).locked
  parts : ∀ c, c ≠ call.concern → (w'.builder id).part c = (w.builder id).part c
  contents : call.revise (w.builder id).tableAlias ((w.builder id).contents call.concern) =
    .ok ((w'.builder id).contents call.concern)
  callbacks : (w'.builder id).callbacks call.concern =
    (w.builder id).callbacks call.concern ++ call.callback?.toList
  nextBuilder : w'.nextBuilder = w.nextBuilder
  nextToken : w'.nextToken = w.nextToken
  saved : w'.saved = w.saved

theorem Registered.of_setPart {contents : call.concern.Contents}
    (hrevise : call.revise (w.builder id).tableAlias ((w.builder id).contents call.concern) =
      .ok contents)
    (hsame : (w.setBuilder id ((w.builder id).setPart call.concern
      ⟨contents, (w.builder id).locked call.concern,
        (w.builder id).callbacks call.concern ++ call.callback?.toList⟩)).SameState w') :
    w.Registered call id w' := by
  have hbuilder := hsame.builder id
  rw [builder_setBuilder_self] at hbuilder
  have hpart := congrArg (Builder.part · call.concern) hbuilder
  simp only [Builder.part_setPart] at hpart
  refine
    { others := fun other hother => ?_
      place := hbuilder ▸ Builder.samePlace_setPart _ _ _
      locked := ?_
      parts := fun c hc => hbuilder ▸ Builder.part_setPart_of_ne _ _ hc
      contents := ?_
      callbacks := congrArg Concern.Part.callbacks hpart
      nextBuilder := hsame.nextBuilder
      nextToken := hsame.nextToken
      saved := hsame.saved }
  · rw [hsame.builder, builder_setBuilder, if_neg hother]
  · rw [hbuilder]
    exact Function.update_eq_self call.concern _
  · rw [hrevise]
    exact congrArg (Except.ok ·.contents) hpart.symm

end World

namespace Action

variable {id : BuilderId} {w : World}

/-- What becomes of a call: its concern is locked and it is refused, or what it registers is
refused, or it is accepted. -/
theorem call_cases (call : Call) (hstored : w.Stored id) :
    (w.builder id).locked call.concern = true ∧
        call.action.exec id w = (.error (.refused (.lockedMutation call.concern)), w) ∨
      (w.builder id).locked call.concern = false ∧
        ((∃ violation, call.action.exec id w = (.error (.refused (.validation violation)), w)) ∨
          ∃ w', call.action.exec id w = (.ok (), w') ∧ w.Registered call id w') := by
  have hregisters := registers_call call hstored
  have hchange := call.change_eq (w.builder id).tableAlias ((w.builder id).part call.concern)
  cases hlocked : (w.builder id).locked call.concern with
  | true =>
      have hpart : ((w.builder id).part call.concern).locked = true := hlocked
      rw [if_pos hpart] at hchange
      exact .inl ⟨rfl, hregisters.halted hchange⟩
  | false =>
      have hpart : ¬((w.builder id).part call.concern).locked = true := by
        simp [Builder.part, hlocked]
      have hheld : ((w.builder id).part call.concern).contents =
          (w.builder id).contents call.concern := rfl
      rw [if_neg hpart, hheld] at hchange
      refine .inr ⟨rfl, ?_⟩
      cases hrevise : call.revise (w.builder id).tableAlias
          ((w.builder id).contents call.concern) with
      | error e =>
          obtain ⟨violation, rfl⟩ := Call.revise_error (fun _ => Builder.tableAlias_error) hrevise
          rw [hrevise] at hchange
          exact .inl ⟨violation, hregisters.halted hchange⟩
      | ok contents =>
          rw [hrevise] at hchange
          obtain ⟨w', hrun, hsame⟩ := hregisters.accepted hchange
          exact .inr ⟨w', hrun, .of_setPart hrevise hsame⟩

/-- A row source that no callback waits for is locked as soon as it is registered. -/
theorem exec_source_calm (fuel : Nat) (table : Fragment) (rowAlias : Option Node)
    (hopen : (w.builder id).locked .source = false)
    (hnone : (w.builder id).callbacks .source = []) :
    ∃ w', (source (lockWith (fuel + 2)) table rowAlias).exec id w = (.ok (), w') ∧
      w'.nextBuilder = w.nextBuilder ∧ w'.saved = w.saved ∧
      ∀ other, w'.builder other = if other = id then
        { w.builder id with
          source := some (table, rowAlias.getD (aliasNode ⟨w.nextToken⟩)) }.setLocked .source
        else w.builder other := by
  obtain ⟨w₁, hregister, hnext, hsaved, hbuilder⟩ : ∃ w₁,
      (registerSource table rowAlias).exec id w = (.ok (), w₁) ∧
      w₁.nextBuilder = w.nextBuilder ∧ w₁.saved = w.saved ∧
      ∀ other, w₁.builder other = if other = id then { w.builder id with
        source := some (table, rowAlias.getD (aliasNode ⟨w.nextToken⟩)) } else w.builder other := by
    rw [registerSource, exec_checkLock_bind _ hopen]
    cases rowAlias with
    | some rowAlias => exact ⟨_, rfl, rfl, rfl, fun other => w.builder_setBuilder id other _⟩
    | none =>
        exact ⟨_, rfl, rfl, rfl, fun other =>
          World.builder_setBuilder { w with nextToken := w.nextToken + 1 } id other _⟩
  have hthere := hbuilder id
  rw [if_pos rfl] at hthere
  have hopen₁ : (w₁.builder id).locked .source = false := by rw [hthere]; exact hopen
  have hnone₁ : (w₁.builder id).callbacks .source = [] := by rw [hthere]; exact hnone
  have hlock : (lockWith (fuel + 2) .source).exec id w₁ = (.ok (), {
      w₁.setBuilder id ((w₁.builder id).setLocked .source) with
      events := w₁.events ++ [.locked id .source]
      history := w₁.history ++ [.settled id .source] }) := by
    rw [exec_lockWith_open _ hopen₁, exec_bind_ok (exec_drain_nil _ _ hnone₁), exec_settleOpen,
      if_neg (by simp [hopen₁]), exec_settle]
    rfl
  refine ⟨_, (exec_bind_ok hregister).trans hlock, hnext, hsaved, fun other => ?_⟩
  change (w₁.setBuilder id _).builder other = _
  rw [World.builder_setBuilder, hthere, hbuilder]
  split <;> rfl

end Action

theorem Builder.lookup_insertChild {name : String} {children : List (String × BuilderId)}
    (hnew : children.lookup name = none) (child : BuilderId) (other : String) :
    (insertChild name child children).lookup other =
      if other = name then some child else children.lookup other := by
  induction children with
  | nil =>
      by_cases h : other = name
      · simp [insertChild, h]
      · simp [insertChild, List.lookup_cons, h, beq_eq_false_iff_ne.mpr h]
  | cons entry rest ih =>
      obtain ⟨n, i⟩ := entry
      have hne : name ≠ n := by
        rintro rfl
        simp at hnew
      rw [List.lookup_cons, beq_eq_false_iff_ne.mpr hne] at hnew
      rw [insertChild]
      split
      · by_cases h : other = name
        · simp [h]
        · simp [List.lookup_cons, h, beq_eq_false_iff_ne.mpr h]
      · by_cases h : other = n
        · subst h
          simp [hne.symm]
        · simp [List.lookup_cons, ih hnew, beq_eq_false_iff_ne.mpr h]

namespace World

/-- The worlds differ in one child, which reads from `table`, and which its parent knows by its
name. -/
structure ChildAdded (name : String) (table : Fragment) (rowAlias : Option Node) (id : BuilderId)
    (w w' : World) : Prop where
  others : ∀ other, other ≠ id → other ≠ w.nextBuilder → w'.builder other = w.builder other
  parent : w'.builder id = { w.builder id with
    children := Builder.insertChild name w.nextBuilder (w.builder id).children }
  children : ∀ other, (w'.builder id).children.lookup other =
    if other = name then some w.nextBuilder else (w.builder id).children.lookup other
  child : ∃ tableAlias, (w.builder id).tableAlias = .ok tableAlias ∧
    w'.builder w.nextBuilder = { Builder.fresh (w.builder id).options (some ⟨id, tableAlias⟩) with
      source := some (table, rowAlias.getD (aliasNode ⟨w.nextToken⟩)) }.setLocked .source
  nextBuilder : w'.nextBuilder = w.nextBuilder + 1
  saved : w'.saved = w.saved

end World

namespace Action

variable {id : BuilderId} {w : World}

/-- What becomes of a call for a child: it is refused, for the name or for a missing row source,
or the child is added. -/
theorem addChild_outcomes (name : String) (table : Fragment) (rowAlias : Option Node)
    (fuel : Nat) (hlive : id < w.nextBuilder) :
    (∃ e, (addChild (lockWith (fuel + 2)) name table rowAlias).exec id w =
        (.error (.refused e), w) ∧ ∀ c, e ≠ .lockedMutation c) ∨
      ∃ w', (addChild (lockWith (fuel + 2)) name table rowAlias).exec id w =
        (.ok w.nextBuilder, w') ∧ w.ChildAdded name table rowAlias id w' := by
  rcases exec_addChild_cases (lockWith (fuel + 2)) name table rowAlias id w with
    ⟨e, hrun, hcause⟩ | ⟨tableAlias, hlookup, htable, hrun⟩
  · refine .inl ⟨e, hrun, fun c => ?_⟩
    rcases hcause with rfl | htable
    · rintro ⟨⟩
    · obtain ⟨violation, rfl⟩ := Builder.tableAlias_error htable
      rintro ⟨⟩
  have hfresh : (w.spawned (.fresh (w.builder id).options (some ⟨id, tableAlias⟩))).builder
      w.nextBuilder = .fresh (w.builder id).options (some ⟨id, tableAlias⟩) := by
    rw [World.builder_spawned, if_pos rfl]
  obtain ⟨w₁, hsource, hnext, hsaved, hbuilder⟩ := exec_source_calm fuel table rowAlias
    (congrArg (Builder.locked · .source) hfresh) (congrArg (Builder.callbacks · .source) hfresh)
  rw [hfresh] at hbuilder
  rw [hsource] at hrun
  have hne : id ≠ w.nextBuilder := Nat.ne_of_lt hlive
  have hthere : w₁.builder id = w.builder id := by
    rw [hbuilder, if_neg hne, World.builder_spawned, if_neg hne]
  have hafter (other : BuilderId) : (w₁.childKnown id name w.nextBuilder).builder other =
      if other = id then { w.builder id with
        children := Builder.insertChild name w.nextBuilder (w.builder id).children }
      else w₁.builder other := by
    rw [World.builder_childKnown, hthere]
  have hparent := (hafter id).trans (if_pos rfl)
  refine .inr ⟨_, hrun, ?_⟩
  refine
    { others := fun other hother hnew => ?_
      parent := hparent
      children := fun other => ?_
      child := ⟨tableAlias, htable, ?_⟩
      nextBuilder := hnext
      saved := hsaved }
  · refine (hafter other).trans ?_
    rw [if_neg hother, hbuilder, if_neg hnew, World.builder_spawned, if_neg hnew]
  · refine (congrArg (List.lookup other ·.children) hparent).trans ?_
    exact Builder.lookup_insertChild hlookup w.nextBuilder other
  · refine (hafter w.nextBuilder).trans ?_
    rw [if_neg hne.symm, hbuilder, if_pos rfl]
    rfl

end Action

/-- A single call on a builder: it registers something with one concern, or adds a child. -/
inductive Mutator
  | register (call : Call)
  | addChild (name : String) (table : Fragment) (rowAlias : Option Node)

namespace Mutator

open PageQuery.Action

def action (lock : Locker) : Mutator → Action Unit
  | .register call => call.action
  | .addChild name table rowAlias => do
    let _ ← Action.addChild lock name table rowAlias

/-- The concern that a call changes, if it changes one. -/
def concern? : Mutator → Option Concern
  | .register call => some call.concern
  | .addChild .. => none

/-- What a call that is accepted changes. -/
def Changes (id : BuilderId) (w w' : World) : Mutator → Prop
  | .register call => w.Registered call id w'
  | .addChild name table rowAlias => w.ChildAdded name table rowAlias id w'

variable {id : BuilderId} {w : World}

/-- Every single call is all or nothing.  On every builder that is there, a call is refused for
a lock exactly if its own concern is locked, which a call for a child never is; if it is
refused, for whatever reason, the world is as before; and if it is accepted, nothing has
changed but the data or the queue of its concern, or the one new child. -/
theorem all_or_nothing (m : Mutator) (fuel : Nat) (hlive : id < w.nextBuilder)
    (hstored : w.Stored id) :
    (∀ c, ((m.action (lockWith (fuel + 2))).exec id w).1 =
          .error (.refused (.lockedMutation c)) ↔
        m.concern? = some c ∧ (w.builder id).locked c = true) ∧
      ((∃ e, (m.action (lockWith (fuel + 2))).exec id w = (.error (.refused e), w)) ∨
        ∃ w', (m.action (lockWith (fuel + 2))).exec id w = (.ok (), w') ∧
          m.Changes id w w') := by
  cases m with
  | register call =>
      rw [action]
      rcases call_cases call hstored with ⟨hlocked, hrun⟩ | ⟨hopen, hrun⟩
      · refine ⟨fun c => ?_, .inl ⟨_, hrun⟩⟩
        rw [hrun]
        constructor
        · rintro ⟨⟩
          exact ⟨rfl, hlocked⟩
        · rintro ⟨⟨⟩, -⟩
          rfl
      · have hbarred (c : Concern) :
            ¬(some call.concern = some c ∧ (w.builder id).locked c = true) := by
          rintro ⟨⟨⟩, hlocked⟩
          rw [hopen] at hlocked
          cases hlocked
        rcases hrun with ⟨violation, hrun⟩ | ⟨w', hrun, hregistered⟩
        · refine ⟨fun c => ?_, .inl ⟨_, hrun⟩⟩
          rw [hrun]
          exact ⟨nofun, fun hlocked => absurd hlocked (hbarred c)⟩
        · refine ⟨fun c => ?_, .inr ⟨w', hrun, hregistered⟩⟩
          rw [hrun]
          exact ⟨nofun, fun hlocked => absurd hlocked (hbarred c)⟩
  | addChild name table rowAlias =>
      rcases addChild_outcomes name table rowAlias fuel hlive with
        ⟨e, hrun, hunlocked⟩ | ⟨w', hrun, hadded⟩
      · have hrun : (action (lockWith (fuel + 2)) (.addChild name table rowAlias)).exec id w =
            (.error (.refused e), w) := exec_bind_error hrun
        refine ⟨fun c => ?_, .inl ⟨e, hrun⟩⟩
        rw [hrun]
        refine ⟨?_, nofun⟩
        rintro ⟨⟩
        exact absurd rfl (hunlocked c)
      · have hrun : (action (lockWith (fuel + 2)) (.addChild name table rowAlias)).exec id w =
            (.ok (), w') := exec_bind_ok hrun
        refine ⟨fun c => ?_, .inr ⟨w', hrun, hadded⟩⟩
        rw [hrun]
        exact ⟨nofun, nofun⟩

/-- A builder with a row source. -/
def sourcedStart : World :=
  ((World.start {} 0).step (.mk [] (.source (.text "items") none) false none)).2

/-- A child that is made of a builder with a row source. -/
theorem all_or_nothing_sourcedStart :
    sourcedStart.Reached ∧ ∃ w',
      ((addChild "c" (text "tags") none).action (lockWith 2)).exec World.root sourcedStart =
          (.ok (), w') ∧
        Changes World.root sourcedStart w' (.addChild "c" (text "tags") none) := by
  have hreached : sourcedStart.Reached := .next _ (.initial {} 0) (by decide +kernel)
  obtain ⟨-, ⟨e, hrefused⟩ | haccepted⟩ := all_or_nothing (w := sourcedStart)
    (.addChild "c" (text "tags") none) 0 hreached.sound.1 (hreached.allStored _ hreached.sound.1)
  · have hrun : (((addChild "c" (text "tags") none).action (lockWith 2)).exec World.root
        sourcedStart).1.toOption = some () := by decide +kernel
    rw [hrefused] at hrun
    cases hrun
  · exact ⟨hreached, haccepted⟩

end Mutator

end PageQuery
