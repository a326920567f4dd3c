import PageQuery.Proofs.Call.Mutator

/-!
# Calls in a row

Some operations make several calls in a row, and stop at the first one that is refused.
Each of these calls is all or nothing; the row is not, because nothing takes back the calls
before the one that is refused.  What is rejected before the first call changes nothing.
-/

namespace PageQuery

open Sql

namespace Action

variable {α β : Type} {id : BuilderId} {w w' : World} {halt : Halt}

/-- An action that never changes the world. -/
def Reads (action : Action α) : Prop := ∀ id w, (action.exec id w).2 = w

/-- An action that changes nothing if it is refused. -/
def AllOrNothing (action : Action α) : Prop :=
  ∀ ⦃id w halt w'⦄, action.exec id w = (.error halt, w') → w' = w

theorem reads_checkLock (c : Concern) : Reads (checkLock c) := by
  intro id w
  rw [exec_checkLock]
  split <;> rfl

theorem reads_ofExcept (value : Except Error α) : Reads (ofExcept value) := by
  cases value <;> exact fun _ _ => rfl

namespace AllOrNothing

theorem update (change : Builder → Builder) : AllOrNothing (Action.update change) := nofun

theorem behind {first : Action α} {next : α → Action β} (hfirst : Reads first)
    (hnext : ∀ a, AllOrNothing (next a)) : AllOrNothing (first >>= next) := by
  intro id w halt w' hrun
  have hsame := hfirst id w
  rcases hexec : first.exec id w with ⟨_ | a, middle⟩
  all_goals rw [hexec] at hsame
  · rw [exec_bind_error hexec] at hrun
    cases hrun
    exact hsame
  · rw [exec_bind_ok hexec] at hrun
    exact (hnext a hrun).trans hsame

/-- What follows is never refused. -/
theorem andThen {first : Action α} {next : α → Action β} (hfirst : AllOrNothing first)
    (hnext : ∀ a id w, ∃ b, ((next a).exec id w).1 = .ok b) : AllOrNothing (first >>= next) := by
  intro id w halt w' hrun
  rcases hexec : first.exec id w with ⟨_ | a, middle⟩
  · rw [exec_bind_error hexec] at hrun
    cases hrun
    exact hfirst hexec
  · rw [exec_bind_ok hexec] at hrun
    obtain ⟨b, hb⟩ := hnext a id middle
    rw [hrun] at hb
    cases hb

theorem ofChecked {c : Concern} {next : Unit → Action β} (hnext : AllOrNothing (next ())) :
    AllOrNothing (checkLock c >>= next) :=
  behind (reads_checkLock c) fun _ => hnext

/-- What is registered only where nothing is yet. -/
theorem once {held : Builder → Bool} {error : Error} {change : Builder → Builder} :
    AllOrNothing (do
      if held (← self) then refuse error
      Action.update change) := by
  refine behind (fun _ _ => rfl) fun b => ?_
  split
  · exact behind (fun _ _ => rfl) fun _ => update change
  · exact update change

theorem select (expr : DeferredFragment) (name : String) :
    AllOrNothing (Action.select expr name) :=
  ofChecked <| behind (reads_ofExcept _) fun _ => update _

theorem selectIdentifiers (primaryKey : List String) :
    AllOrNothing (Action.selectIdentifiers primaryKey) := by
  refine ofChecked <| behind (fun _ _ => rfl) fun b => ?_
  split
  · exact nofun
  · exact behind (reads_ofExcept _) fun table =>
      (select _ _).andThen fun _ _ _ => ⟨(), rfl⟩

end AllOrNothing

theorem allOrNothing_call (call : Call) : AllOrNothing call.action := by
  cases call with
  | select expr name => exact .select expr name
  | selectIdentifiers primaryKey => exact .selectIdentifiers primaryKey
  | filter expr => exact .ofChecked ((AllOrNothing.update _).andThen fun _ _ _ => ⟨(), rfl⟩)
  | limit | first | last => exact .ofChecked .once
  | _ => exact .ofChecked (.update _)

/-- A row of actions that is refused has come to one of them, which is refused. -/
theorem exec_forM_refused {calls : List α} {f : α → Action PUnit}
    (hrun : (forM calls f).exec id w = (.error halt, w')) :
    ∃ done call rest w₁, calls = done ++ call :: rest ∧
      (forM done f).exec id w = (.ok ⟨⟩, w₁) ∧ (f call).exec id w₁ = (.error halt, w') := by
  induction calls generalizing w with
  | nil => cases hrun
  | cons call rest ih =>
      rw [List.forM_cons] at hrun
      rcases hcall : (f call).exec id w with ⟨_ | _, w₁⟩
      · rw [exec_bind_error hcall] at hrun
        cases hrun
        exact ⟨[], call, rest, w, rfl, rfl, hcall⟩
      · rw [exec_bind_ok hcall] at hrun
        obtain ⟨done, refused, behind, w₂, rfl, hdone, hrefused⟩ := ih hrun
        exact ⟨call :: done, refused, behind, w₂, rfl, (exec_bind_ok hcall).trans hdone, hrefused⟩

end Action

namespace ConnectionSetup

/-- A call that the setup of a connection makes. -/
inductive SetupCall
  | register (call : Call)
  | setComparator (comparator : Comparator)

def SetupCall.action (lock : Locker) : SetupCall → Action Unit
  | .register call => call.action
  | .setComparator comparator => Action.setComparator lock comparator

/-- The calls that the setup of a connection makes, in their order. -/
def calls (setup : ConnectionSetup) (counts : PageCounts) (cursors : PageCursors) :
    List SetupCall := List.flatten [
  if setup.primaryKey.isEmpty then []
    else [.register (.beforeLock .order (.breakTies setup.primaryKey))],
  [.register (.setCursorTag setup.tag), .setComparator (.kind .relay),
    .register (.selectCursor (.lazy [] .cursorExpression))],
  counts.first.toList.map fun n => .register (.first n),
  counts.last.toList.map fun n => .register (.last n),
  if 0 < counts.offset then [.register (.offset (.ready counts.offset))] else [],
  cursors.after.toList.map fun cursor => .register (.addCursorCondition cursor true),
  cursors.before.toList.map fun cursor => .register (.addCursorCondition cursor false)]

end ConnectionSetup

namespace Action

open ConnectionSetup

variable {id : BuilderId} {w w' : World} {e : Error}

theorem forM_toList {α β : Type} (o : Option α) (f : α → β) (g : β → Action PUnit) :
    forM (o.toList.map f) g = o.forM fun a => g (f a) := by
  cases o with
  | none => rfl
  | some a => exact bind_pure (g (f a))

/-- The setup of a connection is a row of calls, behind the checks of its arguments. -/
theorem setUpConnection_eq (lock : Locker) (setup : ConnectionSetup) (args : ConnectionArgs) :
    setUpConnection lock setup args = (do
      let counts ← ofExcept args.counts
      let cursors ← ofExcept args.cursors
      forM (setup.calls counts cursors) (SetupCall.action lock)) := by
  rw [setUpConnection]
  congr 1
  funext counts
  congr 1
  funext cursors
  cases hkey : setup.primaryKey.isEmpty <;> by_cases hoffset : 0 < counts.offset
  all_goals
    simp only [calls, List.flatten_cons, List.flatten_nil, List.forM_append, List.forM_cons,
      List.forM_nil, forM_toList, hkey, hoffset, Bool.not_true, Bool.not_false,
      Bool.false_eq_true, if_true, if_false, bind_assoc, pure_bind, bind_pure_unit]
    rfl

/-- A call for a child with a field that is refused either changes nothing, or the child is there
and the name of the field is rejected. -/
theorem addChildSelecting_refused {name : String} {table : Fragment} {rowAlias : Option Node}
    {expr : Fragment} {exprName : String} {fuel : Nat} {halt : Halt} (hlive : id < w.nextBuilder)
    (hrun : (addChildSelecting (lockWith (fuel + 2)) name table rowAlias expr exprName).exec id w =
      (.error halt, w')) :
    w' = w ∨ ∃ e, halt = .refused e ∧ checkName exprName = .error e ∧
      w.ChildAdded name table rowAlias id w' := by
  rcases addChild_outcomes name table rowAlias fuel hlive with
    ⟨e, hchild, -⟩ | ⟨w₁, hchild, hadded⟩
  · rw [addChildSelecting, exec_bind_error hchild] at hrun
    cases hrun
    exact .inl rfl
  · rw [addChildSelecting, exec_bind_ok hchild, exec_bind, exec_within] at hrun
    obtain ⟨_, -, hthere⟩ := hadded.child
    have hopen : (w₁.builder w.nextBuilder).locked .select = false := by rw [hthere]; rfl
    rw [select, exec_checkLock_bind _ hopen] at hrun
    cases hname : checkName exprName with
    | error e =>
        rw [hname, exec_bind_error (exec_ofExcept _)] at hrun
        cases hrun
        exact .inr ⟨e, rfl, rfl, hadded⟩
    | ok _ =>
        rw [hname, exec_bind_ok (exec_ofExcept _), exec_update] at hrun
        cases hrun

/-- A call of the setup that is refused changes nothing, unless it sets an open comparator: then
callbacks before the lock of the comparator have run. -/
theorem setupCall_refused {lock : Locker} {call : SetupCall} {halt : Halt}
    (hrun : (call.action lock).exec id w = (.error halt, w')) :
    w' = w ∨ (∃ comparator, call = .setComparator comparator) ∧
      (w.builder id).locked .comparator = false := by
  cases call with
  | register call => exact .inl (allOrNothing_call call hrun)
  | setComparator comparator =>
      cases hlocked : (w.builder id).locked .comparator with
      | false => exact .inr ⟨⟨comparator, rfl⟩, rfl⟩
      | true =>
          have hrefused : (setComparator lock comparator).exec id w = _ :=
            exec_bind_error (exec_checkLock_bind_locked _ hlocked)
          rw [SetupCall.action, hrefused] at hrun
          cases hrun
          exact .inl rfl

/-- The setup of a connection is refused either for its arguments, and then it changes nothing,
or by one of its calls, behind those before it. -/
theorem setUpConnection_refused {lock : Locker} {setup : ConnectionSetup} {args : ConnectionArgs}
    (hrun : (setUpConnection lock setup args).exec id w = (.error (.refused e), w')) :
    (args.counts = .error e ∨ args.cursors = .error e) ∧ w' = w ∨
      ∃ counts cursors done call rest w₁, args.counts = .ok counts ∧ args.cursors = .ok cursors ∧
        setup.calls counts cursors = done ++ call :: rest ∧
        (forM done (SetupCall.action lock)).exec id w = (.ok ⟨⟩, w₁) ∧
        (call.action lock).exec id w₁ = (.error (.refused e), w') := by
  rw [setUpConnection_eq] at hrun
  cases hcounts : args.counts with
  | error e' =>
      rw [hcounts, exec_bind_error (exec_ofExcept _)] at hrun
      cases hrun
      exact .inl ⟨.inl rfl, rfl⟩
  | ok counts =>
  rw [hcounts, exec_bind_ok (exec_ofExcept _)] at hrun
  cases hcursors : args.cursors with
  | error e' =>
      rw [hcursors, exec_bind_error (exec_ofExcept _)] at hrun
      cases hrun
      exact .inl ⟨.inr rfl, rfl⟩
  | ok cursors =>
  rw [hcursors, exec_bind_ok (exec_ofExcept _)] at hrun
  obtain ⟨done, call, rest, w₁, hcalls, hdone, hrefused⟩ := exec_forM_refused hrun
  exact .inr ⟨counts, cursors, done, call, rest, w₁, rfl, rfl, hcalls, hdone, hrefused⟩

/-- What is left of a compound operation that is refused.  A child with a field is not added
unless the name of the field is what is rejected.  The setup of a connection whose arguments are
rejected changes nothing; otherwise its calls are made in order up to the first that is refused,
the calls before it stay, and that call itself changes nothing, unless it sets an open comparator
and a callback before that lock is refused. -/
theorem compound_refused (fuel : Nat) (hlive : id < w.nextBuilder) :
    (∀ name table rowAlias expr exprName e w',
      (addChildSelecting (lockWith (fuel + 2)) name table rowAlias expr exprName).exec id w =
        (.error (.refused e), w') → checkName exprName ≠ .error e → w' = w) ∧
    ∀ setup args e w',
      (setUpConnection (lockWith (fuel + 2)) setup args).exec id w = (.error (.refused e), w') →
      (args.counts = .error e ∨ args.cursors = .error e) ∧ w' = w ∨
        ∃ counts cursors done call rest w₁, args.counts = .ok counts ∧ args.cursors = .ok cursors ∧
          setup.calls counts cursors = done ++ call :: rest ∧
          (forM done (SetupCall.action (lockWith (fuel + 2)))).exec id w = (.ok ⟨⟩, w₁) ∧
          (call.action (lockWith (fuel + 2))).exec id w₁ = (.error (.refused e), w') ∧
          (w' = w₁ ∨ (∃ comparator, call = .setComparator comparator) ∧
            (w₁.builder id).locked .comparator = false) := by
  constructor
  · intro name table rowAlias expr exprName e w' hrun hname
    rcases addChildSelecting_refused hlive hrun with hsame | ⟨e', heq, hrejected, -⟩
    · exact hsame
    · cases heq
      exact absurd hrejected hname
  · intro setup args e w' hrun
    rcases setUpConnection_refused hrun with
      hargs | ⟨counts, cursors, done, call, rest, w₁, hcounts, hcursors, hcalls, hdone, hcall⟩
    · exact .inl hargs
    · exact .inr ⟨counts, cursors, done, call, rest, w₁, hcounts, hcursors, hcalls, hdone, hcall,
        setupCall_refused hcall⟩

end Action

namespace World

open PageQuery.Action ConnectionSetup

/-- A builder with a row source and `first`. -/
def limitedStart : World := (Mutator.sourcedStart.step (.mk [] (.first 3) false none)).2

theorem reached_limitedStart : limitedStart.Reached :=
  .next _ (.next _ (.initial {} 0) (by decide +kernel)) (by decide +kernel)

/-- The setup of a connection with `first`, where there is one already, has made some of its
calls and is refused by another. -/
theorem compound_refused_limitedStart :
    root < limitedStart.nextBuilder ∧ ∃ (done : List SetupCall) (call : SetupCall) (w₁ w' : World),
      (setUpConnection (lockWith 2) ⟨[], "tag"⟩ { first := some 2 }).exec root limitedStart =
        (.error (.refused (.validation .firstSet)), w') ∧
      (forM done (SetupCall.action (lockWith 2))).exec root limitedStart =
        (.ok ⟨⟩, w₁) ∧
      (call.action (lockWith 2)).exec root w₁ =
        (.error (.refused (.validation .firstSet)), w') := by
  have hlive := reached_limitedStart.sound.1
  obtain ⟨w', hrun⟩ : ∃ w', (setUpConnection (lockWith 2) ⟨[], "tag"⟩ { first := some 2 }).exec
      root limitedStart = (.error (.refused (.validation .firstSet)), w') := ⟨_, rfl⟩
  rcases (compound_refused 0 hlive).2 ⟨[], "tag"⟩ _ _ _ hrun with
    ⟨hcounts | hcursors, -⟩ | ⟨_, _, done, call, _, w₁, -, -, -, hdone, hrefused, -⟩
  · cases hcounts
  · cases hcursors
  · exact ⟨hlive, done, call, w₁, w', hrun, hdone, hrefused⟩

/-- A child whose field is rejected. -/
def misnaming : Step :=
  .mk [] (.addChild "c" (.text "tags") none (some (.text "x", "bad alias!"))) false none

/-- A connection with `first`. -/
def connecting : Step := .mk [] (.setUpConnection ⟨[], "tag"⟩ { first := some 2 }) false none

/-- A call for a child with a field is refused and the child is there; a setup of a connection is
refused and the comparator is locked. -/
theorem half_applied_limitedStart :
    limitedStart.Reached ∧
      (limitedStart.step misnaming).1.outcome =
        .ok (.error (.validation (.aliasMalformed "bad alias!"))) ∧
      (limitedStart.builder root).children = [] ∧
      ((limitedStart.step misnaming).2.builder root).children = [("c", 1)] ∧
      (limitedStart.step connecting).1.outcome = .ok (.error (.validation .firstSet)) ∧
      (limitedStart.builder root).locked .comparator = false ∧
      ((limitedStart.step connecting).2.builder root).locked .comparator = true :=
  ⟨reached_limitedStart, rfl, rfl, rfl, rfl, rfl, rfl⟩

end World

end PageQuery
