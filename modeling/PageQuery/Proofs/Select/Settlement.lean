import PageQuery.Proofs.Lock.Settling
import PageQuery.Proofs.Select.Latest
import PageQuery.Proofs.Select.Registration

/-!
# How the select list is settled

Fields are registered by calls while the select list is open, and by its callbacks while it
locks; the first of these registers the cursor as a field.  Main statement: once the list is
settled it is the last field of each name of all that was registered by then, in the order of
registration, and every expression has run exactly once.
-/

namespace PageQuery

open Sql

namespace World

open PageQuery.Action

variable {w w' : World} {i id : BuilderId} {fields : List PendingField}

/-- A builder with which these fields have been registered first. -/
def Lists (i : BuilderId) (fields : List PendingField) (w : World) : Prop :=
  i < w.nextBuilder ∧ fields <+: (w.builder i).pending.selects

theorem Lists.setBuilder {b : Builder} (hlists : w.Lists i fields)
    (hkeeps : i = id → (w.builder id).pending.selects <+: b.pending.selects) :
    (w.setBuilder id b).Lists i fields :=
  ⟨hlists.1, holds_setBuilder (fields <+: ·.pending.selects)
    (fun hid hprefix => hprefix.trans (hkeeps hid)) hlists.2⟩

theorem stable_lists : Stable (Lists i fields) := by
  intro w w' hchange hlists
  cases hchange with
  | report | save | mint | built => exact hlists
  | spawn options parent =>
      refine ⟨Nat.lt_succ_of_lt hlists.1, ?_⟩
      rw [builder_spawned, if_neg (Nat.ne_of_lt hlists.1)]
      exact hlists.2
  | edit _ hedit =>
      refine hlists.setBuilder fun _ => ?_
      cases hedit with
      | select field _ _ => exact List.prefix_append _ _
      | _ => exact List.prefix_rfl
  | filter | child => exact hlists.setBuilder fun _ => List.prefix_rfl

/-- While the select list is open, fields are only added to those that are registered. -/
theorem lasting_lists : Lasting i .select (Lists i fields) where
  stable := stable_lists
  queue _ _ hlists := hlists.setBuilder fun _ => List.prefix_rfl
  lock _ hlists := hlists.setBuilder fun _ => List.prefix_rfl
  values {w id d pending resolved} hother hothers hlists := hlists.setBuilder fun hid => by
    have hcontents := hothers .select fun hd => hother ⟨hid.symm, hd.symm⟩
    have hselects : pending.selects = (w.builder id).pending.selects :=
      congrArg (fun contents : Concern.select.Contents => contents.1.1) hcontents
    exact hselects ▸ List.prefix_rfl
  reports _ _ _ hlists := hlists

end World

namespace Action

open World

variable {i id : BuilderId} {w w' middle : World} {registered : List PendingField}
  {fields : List Field}

/-- A settlement of the select list, and nothing beside it: what is registered is taken when the
list has been locked, the expression of each field runs once, one after the other, and the last
field of each name is kept. -/
def SettlesFields (id : BuilderId) (registered : List PendingField) (selected : List Field)
    (w w' : World) : Prop :=
  (w.builder id).pending.selects = registered ∧ ∃ fuel exprs after,
    ((registered.map PendingField.expr).mapM (resolveFragment (lockWith fuel))).exec id
      (w.taking id .select fun p => { p with selects := [] }) = (.ok exprs, after) ∧
    KeepsLast registered exprs selected ∧
    w' = after.keeping id .select fun r => { r with selects := selected }

/-- The select list has been settled from the fields that were registered. -/
def SelectedFrom (id : BuilderId) (registered : List PendingField) (selected : List Field) :
    Prop :=
  ∃ w w', SettlesFields id registered selected w w'

theorem settlesFields_of_resolve {fuel : Nat}
    (hrun : (resolve (lockWith fuel) .select).exec id (w.locking id .select) = (.ok (), middle)) :
    SettlesFields id (w.builder id).pending.selects (middle.builder id).resolved.selects w
      { middle with history := middle.history ++ [.settled id .select] } := by
  refine ⟨rfl, ?_⟩
  rw [resolve, exec_self_bind, builder_locking] at hrun
  obtain ⟨⟨⟩, taken, hpending, hrest⟩ := exec_bind_eq_ok hrun
  obtain ⟨fields, after, hfields, hresolved⟩ := exec_bind_eq_ok hrest
  rw [resolveFields_eq] at hfields
  obtain ⟨exprs, _, hexprs, hpure⟩ := exec_bind_eq_ok hfields
  cases hpending
  cases hpure
  cases hresolved
  have hlength : exprs.length = (w.builder id).pending.selects.length :=
    (length_of_mapM hexprs).trans (List.length_map _)
  rw [builder_setBuilder_self]
  change ∃ fuel exprs' after', _ ∧ KeepsLast _ exprs' (latest [] _) ∧ _
  rw [latest_nil]
  refine ⟨fuel, exprs, after, hexprs, keepsLast hlength, ?_⟩
  rw [World.keeping, ← latest_nil]
  rfl

/-- A select list that is settled, with `fields` registered first. -/
def SelectsBehind (i : BuilderId) (fields : List PendingField) (w : World) : Prop :=
  ∃ registered selected, fields <+: registered ∧ SelectedFrom i registered selected ∧
    w.Frozen i .select selected

theorem lasting_selectsBehind (fields : List PendingField) :
    Lasting i .select (SelectsBehind i fields) :=
  .exists_ fun _ => .exists_ fun _ => (Lasting.const _).and <| (Lasting.const _).and <|
    Lasting.frozen _

/-- How the select list stands, given what has been registered first. -/
abbrev Selecting (i : BuilderId) (fields : List PendingField) : World → Prop :=
  Standing i .select (Lists i fields) (SelectsBehind i fields)

theorem selecting_of_open {fields : List PendingField} (hlists : w.Lists i fields)
    (hopen : (w.builder i).locked .select = false) (hunsettled : w.Unsettled i .select) :
    Selecting i fields w :=
  .inl ⟨⟨hlists.1, hopen, List.nil_prefix⟩, hunsettled, hlists⟩

theorem selecting_setCallbacks {fields : List PendingField} (hselecting : Selecting i fields w)
    (queue : List Callback) :
    Selecting i fields (w.setBuilder i ((w.builder i).setCallbacks .select queue)) :=
  Standing.setCallbacks hselecting queue
    (fun hlists => hlists.setBuilder fun _ => List.prefix_rfl)
    fun ⟨registered, selected, hfields, hselected, hfrozen⟩ =>
      ⟨registered, selected, hfields, hselected, hfrozen.setBuilder (fun hd => hd) fun _ => rfl⟩

/-- Whatever goes on, what has been registered with an open select list is what it is settled
from. -/
theorem respects_selecting (i : BuilderId) (fields : List PendingField) (fuel : Nat) :
    (lockWith fuel).Respects (Selecting i fields) := by
  refine rounds_lockWith.respects_settling lasting_lists (lasting_selectsBehind fields) ?_ ?_ ?_
    ?_ fuel
  · exact fun ⟨_, _, _, _, hfrozen⟩ => hfrozen.1
  · exact fun _ hlists => hlists.setBuilder fun _ => List.prefix_rfl
  · exact fun _ ⟨registered, selected, hfields, hselected, hfrozen⟩ =>
      ⟨registered, selected, hfields, hselected, hfrozen.setBuilder (fun hd => hd) fun _ => rfl⟩
  · intro fuel w middle _ _ _ hlists hresolve hlocked
    exact ⟨_, _, hlists.2, ⟨_, _, settlesFields_of_resolve hresolve⟩, hlocked, rfl⟩

theorem lasting_selecting (fields : List PendingField) : Lasting i .select (Selecting i fields) :=
  Standing.lasting lasting_lists (lasting_selectsBehind fields)

/-- The worlds of a lock of the select list: the cursor is locked first, and registered as a
field where it has a value; then the other callbacks run. -/
theorem settleCursor_cases {lock : Locker}
    (hrun : (runCallback lock .settleCursor).exec id w = (.ok (), w')) :
    ∃ middle, (lock .cursor).exec id w = (.ok (), middle) ∧
      (((middle.builder id).resolved.cursor = none ∧ w' = middle) ∨
        ∃ f, (middle.builder id).resolved.cursor = some f ∧
          (select (.ready f) cursorAlias).exec id middle = (.ok (), w')) := by
  obtain ⟨⟨⟩, middle, hlock, hrest⟩ := exec_bind_eq_ok hrun
  refine ⟨middle, hlock, ?_⟩
  rw [exec_self_bind] at hrest
  cases hcursor : (middle.builder id).resolved.cursor with
  | none =>
      rw [hcursor] at hrest
      cases hrest
      exact .inl ⟨rfl, rfl⟩
  | some f =>
      rw [hcursor] at hrest
      exact .inr ⟨f, rfl, hrest⟩

/-- A field that is selected stands behind the others. -/
theorem lists_of_select {expr : DeferredFragment} {name : String}
    (hlive : id < w.nextBuilder) (hrun : (select expr name).exec id w = (.ok (), w')) :
    (w.builder id).locked .select = false ∧ (w'.builder id).locked .select = false ∧
      w'.history = w.history ∧
      w'.Lists id ((w.builder id).pending.selects ++ [⟨expr, name⟩]) := by
  cases hlocked : (w.builder id).locked .select with
  | true =>
      rw [select, exec_checkLock_bind_locked _ hlocked] at hrun
      cases hrun
  | false =>
      rw [select, exec_checkLock_bind _ hlocked] at hrun
      obtain ⟨⟨⟩, middle, hname, hupdate⟩ := exec_bind_eq_ok hrun
      rw [exec_ofExcept] at hname
      obtain rfl : w = middle := congrArg Prod.snd hname
      cases hupdate
      have hbuilder : (w.setBuilder id { w.builder id with
          pending := { (w.builder id).pending with
            selects := (w.builder id).pending.selects ++ [⟨expr, name⟩] } }).builder id = _ :=
        builder_setBuilder_self w id _
      refine ⟨rfl, ?_, rfl, hlive, hbuilder ▸ List.prefix_rfl⟩
      exact (congrArg (Builder.locked · .select) hbuilder).trans hlocked

/-- A settlement of the cursor, and nothing beside it: its expression is taken when the cursor has
been locked, and runs once. -/
def SettlesCursor (id : BuilderId) (expr : DeferredFragment) (f : Fragment) (w w' : World) :
    Prop :=
  ∃ fuel after, (resolveFragment (lockWith fuel) expr).exec id
      (w.taking id .cursor fun p => { p with cursor := none }) = (.ok f, after) ∧
    w' = after.keeping id .cursor fun r => { r with cursor := some f }

theorem settlesCursor_of_resolve {fuel : Nat} {expr : DeferredFragment}
    (hcursor : (w.builder id).pending.cursor = some expr)
    (hrun : (resolve (lockWith fuel) .cursor).exec id (w.locking id .cursor) = (.ok (), middle)) :
    ∃ f, SettlesCursor id expr f w
      { middle with history := middle.history ++ [.settled id .cursor] } := by
  have hpending : ((w.locking id .cursor).builder id).pending.cursor = some expr := by
    rw [builder_locking]
    exact hcursor
  rw [resolve, exec_self_bind, hpending] at hrun
  obtain ⟨⟨⟩, taken, htaken, hrest⟩ := exec_bind_eq_ok hrun
  obtain ⟨cursor, after, hvalue, hresolved⟩ := exec_bind_eq_ok hrest
  obtain ⟨f, _, hexpr, hpure⟩ := exec_bind_eq_ok hvalue
  cases htaken
  cases hpure
  cases hresolved
  exact ⟨f, fuel, after, hexpr, rfl⟩

/-- A cursor that has no callbacks gets the value of the expression that was set. -/
theorem cursor_of_lock {fuel : Nat} {expr : DeferredFragment}
    (hcursor : (w.builder id).pending.cursor = some expr)
    (hopen : (w.builder id).locked .cursor = false)
    (hnone : (w.builder id).callbacks .cursor = [])
    (hrun : (lockWith fuel .cursor).exec id w = (.ok (), w')) :
    ∃ f, SettlesCursor id expr f w w' ∧ (w'.builder id).resolved.cursor = some f := by
  obtain _ | _ | fuel := fuel
  · rw [exec_lockWith_zero, if_neg (by simp [hopen])] at hrun
    cases hrun
  · rw [exec_lockWith_open _ hopen] at hrun
    cases hrun
  · rw [exec_lockWith_open _ hopen, exec_bind_ok (exec_drain_nil _ _ hnone), exec_settleOpen,
      if_neg (by simp [hopen])] at hrun
    obtain ⟨middle, hresolve, rfl⟩ := settle_ok hrun
    obtain ⟨f, fuel, after, hexpr, hkept⟩ := settlesCursor_of_resolve hcursor hresolve
    refine ⟨f, ⟨fuel, after, hexpr, hkept⟩, ?_⟩
    rw [hkept]
    exact congrArg (fun b : Builder => b.resolved.cursor) (builder_setBuilder_self after _ _)

/-- A question for the number of fields counts those that are settled. -/
theorem count_of_frozen {fuel n : Nat} {selected : List Field} (hlive : id < w.nextBuilder)
    (hclosed : w.Closed) (hfrozen : w.Frozen id .select selected)
    (hrun : (fieldCount (lockWith fuel)).exec id w = (.ok n, w')) : n = selected.length := by
  obtain ⟨⟨⟩, middle, hlock, hcount⟩ := exec_bind_eq_ok hrun
  have hkept := (respects_frozen fuel).lockEverything.kept hlive hclosed hfrozen hlock
  cases hcount
  exact congrArg List.length hkept.holds.2

variable {start : World} {calls : List Call}

/-- The first callback of an open select list registers the cursor, behind all that was
registered by then. -/
theorem settleCursor_selecting {fuel : Nat} (hlive : id < w.nextBuilder) (hclosed : w.Closed)
    (hopen : (w.builder id).locked .select = false) (hunsettled : w.Unsettled id .select)
    (hrun : (runCallback (lockWith fuel) .settleCursor).exec id w = (.ok (), w')) :
    ∃ middle fields, (lockWith fuel .cursor).exec id w = (.ok (), middle) ∧
      (w.builder id).pending.selects <+: fields ∧
      (∀ f, (middle.builder id).resolved.cursor = some f →
        (w.builder id).pending.selects <+: (middle.builder id).pending.selects ∧
          fields = (middle.builder id).pending.selects ++ [⟨.ready f, cursorAlias⟩]) ∧
      w.Kept (Selecting id fields) w' := by
  obtain ⟨middle, hlock, hcursor⟩ := settleCursor_cases hrun
  have hbefore : Selecting id (w.builder id).pending.selects w :=
    selecting_of_open ⟨hlive, List.prefix_rfl⟩ hopen hunsettled
  have hkept := ((respects_selecting id _ fuel).lock .cursor id).kept hlive hclosed hbefore hlock
  obtain ⟨hnone, rfl⟩ | ⟨f, hsome, hselect⟩ := hcursor
  · refine ⟨w', _, hlock, List.prefix_rfl, fun f hf => ?_, hkept⟩
    rw [hnone] at hf
    cases hf
  · have hlive' := hkept.live hlive
    obtain ⟨hstill, hstill', hhistory, hlists⟩ := lists_of_select hlive' hselect
    obtain ⟨hunsettled', -, hbegins⟩ :=
      hkept.holds.of_open (fun ⟨_, _, _, _, hfrozen⟩ => hfrozen.1) hstill
    have hevolves := evolves_select hlive' (.ready f) cursorAlias
    rw [hselect] at hevolves
    refine ⟨middle, _, hlock, hbegins.trans (List.prefix_append _ _), ?_, hkept.trans
      ⟨selecting_of_open hlists hstill' ?_, hevolves.closed hkept.closed, hevolves.nextBuilder_le⟩⟩
    · intro f' hf'
      rw [hsome] at hf'
      cases hf'
      exact ⟨hbegins, rfl⟩
    · rw [Unsettled, hhistory]
      exact hunsettled'

/-- The callbacks of the select list, from its cursor on. -/
theorem drain_selecting {fuel rounds : Nat} {others : List Callback} (hlive : id < w.nextBuilder)
    (hclosed : w.Closed) (hopen : (w.builder id).locked .select = false)
    (hunsettled : w.Unsettled id .select)
    (hfirst : (w.builder id).callbacks .select = .settleCursor :: others)
    (hrun : (drain (lockWith fuel) .select rounds).exec id w = (.ok (), w')) :
    ∃ middle fields,
      (lockWith fuel .cursor).exec id
        (w.setBuilder id ((w.builder id).setCallbacks .select [])) = (.ok (), middle) ∧
      (w.builder id).pending.selects <+: fields ∧
      (∀ f, (middle.builder id).resolved.cursor = some f →
        (w.builder id).pending.selects <+: (middle.builder id).pending.selects ∧
          fields = (middle.builder id).pending.selects ++ [⟨.ready f, cursorAlias⟩]) ∧
      w.Kept (Selecting id fields) w' := by
  obtain _ | rounds := rounds
  · cases hrun
  have hsome : (w.builder id).callbacks .select ≠ [] := by
    rw [hfirst]
    exact List.cons_ne_nil _ _
  rw [exec_drain_succ _ rounds hsome, hfirst] at hrun
  have hbuilder := builder_setBuilder_self w id ((w.builder id).setCallbacks .select [])
  generalize htaken : w.setBuilder id ((w.builder id).setCallbacks .select []) = taken
    at hrun hbuilder ⊢
  have hlive' : id < taken.nextBuilder := htaken ▸ hlive
  have hclosed' : taken.Closed := htaken ▸ hclosed.setBuilder id (hclosed id)
  have hgrows : w.nextBuilder ≤ taken.nextBuilder := by
    rw [← htaken]
    exact Nat.le_refl _
  obtain ⟨⟨⟩, served, hbatch, hrest⟩ := exec_bind_eq_ok hrun
  rw [exec_runCallbacks_cons] at hbatch
  rcases hcursor : (runCallback (lockWith fuel) .settleCursor).exec id taken with
    ⟨(e | _) | _, registered⟩
  all_goals rw [hcursor] at hbatch
  · cases hbatch
  · cases hbatch
  · obtain ⟨middle, fields, hlock, hbegins, hfields, hkept⟩ :=
      settleCursor_selecting hlive' hclosed' (by rw [hbuilder]; exact hopen)
        (by rw [← htaken]; exact hunsettled) hcursor
    rw [hbuilder] at hbegins hfields
    refine ⟨middle, fields, hlock, hbegins, hfields, ?_⟩
    have hserved := (runCallbacks_lasting (lasting_selecting fields)
      (respects_selecting id fields fuel) (fun queue h => selecting_setCallbacks h queue)
      others).kept_behind hlive' hkept hbatch
    have hdrained := (drain_lasting (lasting_selecting fields)
      (respects_selecting id fields fuel) (fun queue h => selecting_setCallbacks h queue)
      rounds).kept_behind hlive' hserved hrest
    exact ⟨hdrained.holds, hdrained.closed, Nat.le_trans hgrows hdrained.grows⟩

/-- A settlement gives the last registrations of what has been registered by then. -/
theorem settleOpen_selects {fuel : Nat} {fields : List PendingField} (hlive : id < w.nextBuilder)
    (hclosed : w.Closed) (hselecting : Selecting id fields w)
    (hrun : (settleOpen (lockWith fuel) .select).exec id w = (.ok (), w'))
    (hsettled : .settled id .select ∈ w'.history) :
    ∃ registered selected, fields <+: registered ∧
      ((w.builder id).locked .select = false → SettlesFields id registered selected w w') ∧
      SelectedFrom id registered selected ∧ w'.Frozen id .select selected := by
  rw [exec_settleOpen] at hrun
  split at hrun
  · cases hrun
    obtain ⟨registered, selected, hfields, hselected, hfrozen⟩ := hselecting.of_settled hsettled
    refine ⟨registered, selected, hfields, fun hopen => ?_, hselected, hfrozen⟩
    exact absurd ‹(w.builder id).locked .select = true› (by simp [hopen])
  · have hopen : (w.builder id).locked .select = false := by simpa using ‹¬_ = true›
    have hlists := (hselecting.of_open (fun ⟨_, _, _, _, hfrozen⟩ => hfrozen.1) hopen).2
    have hlocked := (settle_locks (lawful_lockWith fuel) hlive hclosed hrun).holds
    obtain ⟨middle, hresolve, rfl⟩ := settle_ok hrun
    have hsettles := settlesFields_of_resolve hresolve
    exact ⟨_, _, hlists.2, fun _ => hsettles, ⟨_, _, hsettles⟩, hlocked, rfl⟩

/-- The select list keeps the last registration of every name.  Let calls be accepted one after
the other, and let the select list then lock for the first time, and be settled.  What has been
registered by then begins with the fields of the calls, in their order.  If the cursor has a
value when the list starts to lock, that value is registered next, before the other callbacks
run; without callbacks of its own, it is the value of the expression that was set last, which
runs once.  Unless the list is locked by one of its own callbacks, what has been registered is
all that waits when they have run, and what the lock still does is the settlement: the
expression of every registered field runs exactly once, also if it is superseded, and the list
keeps the last registration of each name, in the order of these registrations.  It stays so, and
the number of fields is the number of names. -/
theorem lock_selects_last {fuel : Nat} {others : List Callback} (hlive : id < start.nextBuilder)
    (hclosed : start.Closed) (hstored : start.Stored id)
    (hcalls : (calls.forM Call.action).exec id start = (.ok (), w))
    (hopen : (w.builder id).locked .select = false) (hunsettled : w.Unsettled id .select)
    (hfirst : (w.builder id).callbacks .select = .settleCursor :: others)
    (hrun : (lockWith (fuel + 1) .select).exec id w = (.ok (), w'))
    (hsettled : .settled id .select ∈ w'.history) :
    ∃ middle drained registered selected,
      (start.builder id).pending.selects ++ Call.allFields (start.builder id).tableAlias
        (start.builder id).identifiersSelected calls <+: registered ∧
      (lockWith fuel .cursor).exec id
        (w.setBuilder id ((w.builder id).setCallbacks .select [])) = (.ok (), middle) ∧
      (∀ f, (middle.builder id).resolved.cursor = some f →
        (w.builder id).pending.selects <+: (middle.builder id).pending.selects ∧
          (middle.builder id).pending.selects ++ [⟨.ready f, cursorAlias⟩] <+: registered) ∧
      (∀ expr, Call.lastCursor (start.builder id).pending.cursor calls = some expr →
        (w.builder id).locked .cursor = false → (w.builder id).callbacks .cursor = [] →
          ∃ f, SettlesCursor id expr f
              (w.setBuilder id ((w.builder id).setCallbacks .select [])) middle ∧
            (middle.builder id).resolved.cursor = some f) ∧
      (drain (lockWith fuel) .select fuel).exec id w = (.ok (), drained) ∧
      ((drained.builder id).locked .select = false →
        SettlesFields id registered selected drained w') ∧
      SelectedFrom id registered selected ∧ w'.Frozen id .select selected ∧
      ∀ {fuel n : Nat} {later later' : World}, id < later.nextBuilder → later.Closed →
        later.Frozen id .select selected →
          (fieldCount (lockWith fuel)).exec id later = (.ok n, later') →
            n = (registered.map PendingField.name).dedup.length := by
  obtain ⟨hclosed, hsame, hselects, hset⟩ := registered_of_calls hstored hclosed hcalls
  rw [← hsame] at hlive
  rw [exec_lockWith_open _ hopen] at hrun
  obtain ⟨⟨⟩, drained, hdrain, hsettle⟩ := exec_bind_eq_ok hrun
  obtain ⟨middle, fields, hlock, hbegins, hfields, hkept⟩ :=
    drain_selecting hlive hclosed hopen hunsettled hfirst hdrain
  obtain ⟨registered, selected, hregistered, hdrained, hselected, hfrozen⟩ :=
    settleOpen_selects (hkept.live hlive) hkept.closed hkept.holds hsettle
      hsettled
  refine ⟨middle, drained, registered, selected, hselects ▸ hbegins.trans hregistered, hlock,
    fun f hf => ?_, fun expr hexpr hcursor hnone => ?_, hdrain, hdrained, hselected, hfrozen,
    fun hlive hclosed hlater hcount => ?_⟩
  · obtain ⟨hbefore, rfl⟩ := hfields f hf
    exact ⟨hbefore, hregistered⟩
  · refine cursor_of_lock ?_ ?_ ?_ hlock
    all_goals rw [builder_setBuilder_self]
    · exact hset.trans hexpr
    · exact hcursor
    · exact hnone
  · obtain ⟨_, _, -, _, _, _, -, hkeeps, -⟩ := hselected
    rw [count_of_frozen hlive hclosed hlater hcount, hkeeps.count]

/-- Calls that register two names twice between them, a cursor, and a callback that registers a
name once more. -/
def repeatedCalls : List Call :=
  [.select (.ready (text "a")) "x", .select (.lazy [] (.expr (.text "b"))) "y",
    .selectCursor (.ready (text "k")), .select (.ready (text "c")) "x",
    .beforeLock .select (.script [.mk [] (.selectLazy [] (.expr (.text "d")) "y") false none])]

/-- The world behind these calls. -/
def repeatedRun : World := ((repeatedCalls.forM Call.action).exec root (World.start {} 0)).2

theorem lock_selects_last_repeatedRun :
    ∃ w' registered selected, (lockWith 5 .select).exec root repeatedRun = (.ok (), w') ∧
      registered.map PendingField.name = ["x", "y", "x", cursorAlias, "y"] ∧
      SelectedFrom root registered selected ∧ w'.Frozen root .select selected ∧
      selected.map Field.name = ["x", cursorAlias, "y"] := by
  have hcalls : (repeatedCalls.forM Call.action).exec root (World.start {} 0) =
      (.ok (), repeatedRun) := rfl
  have hrun : (lockWith 5 .select).exec root repeatedRun = (.ok (), _) := rfl
  obtain ⟨_, drained, registered, selected, -, -, -, -, hdrain, hsettles, hselected, hfrozen, -⟩ :=
    lock_selects_last Nat.zero_lt_one (closed_start {} 0)
      (allStored_start {} 0 root Nat.zero_lt_one) hcalls (by decide +kernel)
      (by exact List.not_mem_nil) rfl hrun (.tail _ (.head _))
  obtain rfl : drained = _ := (Prod.mk.inj (hdrain.symm.trans rfl)).2
  refine ⟨_, registered, selected, hrun, ?_, hselected, hfrozen, ?_⟩
  · rw [← (hsettles (by decide +kernel)).1]
    decide +kernel
  · rw [← hfrozen.2]
    decide +kernel

end Action

end PageQuery
