import PageQuery.Proofs.Call.Registration
import PageQuery.Proofs.Draft.Connecting
import PageQuery.Proofs.Lock.Expected
import PageQuery.Proofs.Lock.Settling
import PageQuery.Proofs.Run.Settings

/-!
# Ties are broken

A connection has a tie breaker registered before the lock of its order.  It puts the primary
key behind the terms of the user, unless these have been declared unique, and declares the
order unique.  Main statement: whichever operation first locks the order, on whichever builder,
the order is settled from the terms of the user, each of which has run once, and the primary key
behind them, in its own order, if they were not unique.
-/

namespace PageQuery

open Sql

namespace Builder

/-- The order of a builder is about to lock: `terms` wait, `unique` tells whether they have been
declared unique, which is still open, and no callback waits but tie breakers. -/
structure OnlyTied (primaryKey : List String) (terms : List PendingTerm) (unique : Bool)
    (b : Builder) : Prop where
  terms : b.pending.orderTerms = terms
  unique : b.orderIsUnique = unique
  undecided : b.locked .uniqueness = false
  callbacks : ∀ callback ∈ b.callbacks .order, callback = .breakTies primaryKey

end Builder

namespace Action

section

variable {id : BuilderId} {saved : List (String × Fragment)} {b : Builder} {lock : Locker}
  {table : Node} {primaryKey : List String} {w w' : World}

/-- Tie breakers that follow the first one find the order unique. -/
theorem Turns.runCallbacks_breakTies (n : Nat) (htable : b.tableAlias = .ok table)
    (horder : b.locked .order = false) (huniqueness : b.locked .uniqueness = false) :
    Turns id saved b
      (runCallbacks lock .order (List.replicate (n + 1) (.breakTies primaryKey))) ()
      (b.tiesBroken table primaryKey) := by
  induction n generalizing b with
  | zero => exact (breakTies primaryKey htable horder huniqueness).attempt.bind (pure ())
  | succ n ih =>
      have hagain := ih (b := b.tiesBroken table primaryKey) htable horder huniqueness
      rw [Builder.tiesBroken_of_unique (b := b.tiesBroken table primaryKey) rfl] at hagain
      exact (breakTies primaryKey htable horder huniqueness).attempt.bind hagain

/-- A drain of tie breakers breaks the ties, once. -/
theorem exec_drain_breakTies {rounds : Nat} (htable : (w.builder id).tableAlias = .ok table)
    (horder : (w.builder id).locked .order = false)
    (huniqueness : (w.builder id).locked .uniqueness = false)
    (hsome : (w.builder id).callbacks .order ≠ [])
    (hall : ∀ callback ∈ (w.builder id).callbacks .order, callback = .breakTies primaryKey)
    (hhalt : Completes ((drain lock .order rounds).exec id w).1) :
    ∃ w', (drain lock .order rounds).exec id w = (.ok (), w') ∧
      w'.builder id =
        ((w.builder id).setCallbacks .order []).tiesBroken table primaryKey := by
  obtain _ | rounds := rounds
  · exact absurd rfl (hhalt _)
  have hqueue := List.eq_replicate_of_mem hall
  obtain ⟨n, hn⟩ := Nat.exists_eq_succ_of_ne_zero (mt List.length_eq_zero_iff.mp hsome)
  rw [hn] at hqueue
  rw [exec_drain_succ _ rounds hsome, hqueue] at hhalt ⊢
  have hbuilder := World.builder_setBuilder_self w id ((w.builder id).setCallbacks .order [])
  have hturns : Turns id w.saved ((w.builder id).setCallbacks .order [])
      (runCallbacks lock .order (List.replicate (n + 1) (.breakTies primaryKey))) ()
      (((w.builder id).setCallbacks .order []).tiesBroken table primaryKey) :=
    Turns.runCallbacks_breakTies n htable horder huniqueness
  obtain ⟨w', hserved, hbroken, -⟩ := hturns _ hbuilder rfl
  rw [exec_bind_ok hserved] at hhalt ⊢
  obtain _ | rounds := rounds
  · exact absurd rfl (hhalt _)
  · exact ⟨w', exec_drain_nil lock rounds (by rw [hbroken]; rfl), hbroken⟩

end

open World

variable {i id : BuilderId} {w w' : World} {locks : Nat → Locker} {fuel : Nat}

/-- The first terms of an order have come: when the order had been locked and its terms had been
taken, the expression of each of them ran once, one after the other. -/
def OrderedFrom (id : BuilderId) (terms : List PendingTerm) (settled : List OrderTerm) : Prop :=
  ∃ (fuel : Nat) (w after : World), terms <+: (w.builder id).pending.orderTerms ∧
    (terms.mapM (resolveTerm (lockWith fuel))).exec id
      (w.taking id .order fun p => { p with orderTerms := [] }) = (.ok settled, after)

/-- The terms of a primary key come as they are. -/
theorem mapM_keyFields (lock : Locker) (table : Node) (primaryKey : List String) :
    (keyFields table primaryKey).mapM (resolveTerm lock) =
      (pure (keyTerms table primaryKey) : Action (List OrderTerm)) := by
  induction primaryKey with
  | nil => rfl
  | cons column rest ih =>
      rw [keyFields, List.map_cons, List.mapM_cons]
      change (do
        let term ← (pure ⟨table.column column, true, none⟩ : Action OrderTerm)
        let terms ← (keyFields table rest).mapM (resolveTerm lock)
        pure (term :: terms)) = _
      rw [ih, pure_bind, pure_bind]
      rfl

/-- The order is settled from the terms that wait, and the uniqueness of the order locks last. -/
theorem resolve_order_cases {terms : List PendingTerm} {unique : Bool} {table : Node}
    {primaryKey : List String} (h : Rounds locks)
    (hpending : (w.builder id).pending.orderTerms =
      terms ++ if unique then [] else keyFields table primaryKey)
    (hrun : (resolve (locks fuel) .order).exec id (w.locking id .order) = (.ok (), w')) :
    ∃ settled middle, OrderedFrom id terms settled ∧
      (resolveOrder (locks fuel)).exec id (w.locking id .order) = (.ok (), middle) ∧
      (middle.builder id).resolved.orderTerms =
        settled ++ (if unique then [] else keyTerms table primaryKey) ∧
      (locks fuel .uniqueness).exec id middle = (.ok (), w') := by
  obtain ⟨⟨⟩, middle, horder, hlock⟩ := exec_bind_eq_ok hrun
  have hlocking : ((w.locking id .order).builder id).pending.orderTerms =
      terms ++ if unique then [] else keyFields table primaryKey := by
    rw [builder_locking]
    exact hpending
  have hruns := horder
  rw [resolveOrder, exec_self_bind, hlocking] at hruns
  obtain ⟨⟨⟩, taken, htaken, hruns⟩ := exec_bind_eq_ok hruns
  obtain ⟨resolved, behind, hterms, hupdate⟩ := exec_bind_eq_ok hruns
  rw [List.mapM_append] at hterms
  obtain ⟨settled, between, hsettled, hterms⟩ := exec_bind_eq_ok hterms
  obtain ⟨keys, after, hkeys, hpure⟩ := exec_bind_eq_ok hterms
  cases htaken
  cases hpure
  cases hupdate
  have hprogram : Program True fun lock => terms.mapM (resolveTerm lock) :=
    Program.mapM (f := fun term lock => resolveTerm lock term) terms fun _ _ =>
      Program.resolveTerm (.of_named trivial _)
  refine ⟨settled, _, ⟨fuel, w, between, ⟨_, hpending.symm⟩, ?_⟩, horder, ?_, hlock⟩
  · exact hprogram.exec_of_rounds h hsettled (by simp)
  · rw [builder_setBuilder_self]
    cases unique with
    | true =>
        cases hkeys
        rfl
    | false =>
        rw [if_neg Bool.false_ne_true, mapM_keyFields] at hkeys
        cases hkeys
        rfl

end Action

namespace World

open PageQuery.Action

variable {i : BuilderId} {c : Concern} {w : World}

/-- A builder whose order has been declared unique. -/
def Declared (i : BuilderId) (w : World) : Prop :=
  i < w.nextBuilder ∧ (w.builder i).orderIsUnique = true

theorem Declared.setBuilder {id : BuilderId} {b : Builder} (hdeclared : w.Declared i)
    (hkeeps : (w.builder id).orderIsUnique = true → b.orderIsUnique = true) :
    (w.setBuilder id b).Declared i :=
  ⟨hdeclared.1, holds_setBuilder (·.orderIsUnique = true) (fun _ => hkeeps) hdeclared.2⟩

theorem stable_declared : Stable (Declared i) := by
  intro w w' hchange hdeclared
  cases hchange with
  | report | save | mint | built => exact hdeclared
  | spawn options parent =>
      refine ⟨Nat.lt_succ_of_lt hdeclared.1, ?_⟩
      rw [builder_spawned, if_neg (Nat.ne_of_lt hdeclared.1)]
      exact hdeclared.2
  | edit _ hedit =>
      refine hdeclared.setBuilder fun hunique => ?_
      cases hedit with
      | orderUnique => rfl
      | _ => exact hunique
  | filter | child => exact hdeclared.setBuilder id

/-- Nothing takes a declaration back. -/
theorem lasting_declared (j : BuilderId) : Lasting i c (Declared j) where
  stable := stable_declared
  queue _ _ hdeclared := hdeclared.setBuilder id
  lock _ hdeclared := hdeclared.setBuilder id
  values _ _ hdeclared := hdeclared.setBuilder id
  reports _ _ _ hdeclared := hdeclared

/-- A builder with a row source, and with a tie breaker waiting before its open order. -/
def Tied (i : BuilderId) (primaryKey : List String) (source : Fragment × Node) (w : World) :
    Prop :=
  w.Waiting i .order [.breakTies primaryKey] ∧ w.Frozen i .source (some source)

/-- A builder with an order that tells all rows apart: the terms of the user have come, the
primary key stands behind them if they had not been declared unique, and the order is unique. -/
def Untied (i : BuilderId) (primaryKey : List String) (rowAlias : Node)
    (terms : List PendingTerm) (unique : Bool) (w : World) : Prop :=
  ∃ settled, OrderedFrom i terms settled ∧
    w.Frozen i .order (settled ++ if unique then [] else keyTerms rowAlias primaryKey) ∧
    w.Frozen i .uniqueness true

theorem lasting_tied (primaryKey : List String) (source : Fragment × Node) :
    Lasting i .order (Tied i primaryKey source) :=
  (Lasting.waiting i .order _).and (Lasting.frozen_plain _ fun _ _ _ => rfl)

theorem lasting_untied (primaryKey : List String) (rowAlias : Node) (terms : List PendingTerm)
    (unique : Bool) : Lasting i .order (Untied i primaryKey rowAlias terms unique) :=
  .exists_ fun _ => (Lasting.const _).and <|
    (Lasting.frozen _).and (Lasting.frozen_plain _ fun _ _ _ => rfl)

end World

namespace Action

open World

variable {i id : BuilderId} {w w' middle : World} {locks : Nat → Locker} {fuel : Nat}
  {primaryKey : List String} {table : Fragment} {rowAlias : Node} {terms : List PendingTerm}
  {unique : Bool}

/-- The order of a builder whose ties are broken is settled with them, and its uniqueness is
locked. -/
theorem untied_of_resolve (h : Rounds locks) (hlive : i < w.nextBuilder) (hclosed : w.Closed)
    (hunique : (w.builder i).orderIsUnique = true)
    (hpending : (w.builder i).pending.orderTerms =
      terms ++ if unique then [] else keyFields rowAlias primaryKey)
    (hrun : (resolve (locks fuel) .order).exec i (w.locking i .order) = (.ok (), w')) :
    w'.Untied i primaryKey rowAlias terms unique := by
  obtain ⟨settled, middle, hterms, horder, hvalue, hlock⟩ := resolve_order_cases h hpending hrun
  have hlocking : (w.locking i .order).Locked i .order ∧ (w.locking i .order).Declared i := by
    refine ⟨⟨hlive, ?_⟩, hlive, ?_⟩
    · rw [builder_locking]
      exact setLocked_locked _ _
    · rw [builder_locking]
      exact hunique
  have hdeclares := h.respects_lasting (fun _ _ => lasting_declared i) fuel
  have horders : Preserves (fun w => w.Locked i .order ∧ w.Declared i) i
      (resolveOrder (locks fuel)) :=
    ((respects_locked (h.lawful fuel) i .order).and hdeclares).resolveOrder fun _ _ _ _ _ hboth =>
      ⟨hboth.1.setBuilder fun hd => hd, hboth.2.setBuilder fun hd => hd⟩
  have hclosed' : (w.locking i .order).Closed := closed_setLocked hclosed
  have hkept := horders.kept hlocking.1.1 hclosed' hlocking horder
  have hlive' : i < middle.nextBuilder := hkept.live hlive
  have hfrozen := ((h.respects_frozen (c := .order) _ fuel).lock .uniqueness i).kept hlive'
    hkept.closed ⟨hkept.holds.1, hvalue⟩ hlock
  have hdeclared := (hdeclares.lock .uniqueness i).kept hlive' hkept.closed hkept.holds.2 hlock
  have huniqueness := (h.lawful fuel).locks hlive' hkept.closed hlock
  exact ⟨settled, hterms, hfrozen.holds, huniqueness.holds, hdeclared.holds.2⟩

/-- To lock an open order whose callbacks are tie breakers breaks the ties, or leaves the order
stuck because one of its terms has failed. -/
theorem lock_tied (h : Rounds locks) (hlive : i < w.nextBuilder) (hclosed : w.Closed)
    (hopen : (w.builder i).locked .order = false) (hunsettled : w.Unsettled i .order)
    (htied : w.Tied i primaryKey (table, rowAlias))
    (honly : (w.builder i).OnlyTied primaryKey terms unique)
    (hhalt : Completes ((locks (fuel + 1) .order).exec i w).1) :
    w.Kept (fun w => w.Stuck i .order ∨ w.Untied i primaryKey rowAlias terms unique)
      ((locks (fuel + 1) .order).exec i w).2 := by
  have hexec := h.opened hopen (hhalt _)
  rw [hexec] at hhalt ⊢
  have htable : (w.builder i).tableAlias = .ok rowAlias := by
    have hsource : (w.builder i).source = some (table, rowAlias) := htied.2.2
    rw [Builder.tableAlias, hsource]
  have hsome : (w.builder i).callbacks .order ≠ [] := by
    obtain ⟨rest, hrest⟩ := htied.1.2.2
    rw [← hrest]
    exact List.cons_ne_nil _ _
  -- the first callback breaks the ties, the copies behind it find the order unique
  obtain ⟨drained, hdrain, hbroken⟩ := exec_drain_breakTies htable hopen honly.undecided hsome
    honly.callbacks (completes_of_bind hhalt)
  have hopen' : (drained.builder i).locked .order = false := by
    rw [hbroken]
    exact hopen
  have hdrained := h.unsettled_of_drain hlive hclosed hopen hunsettled hdrain (by simp) hopen'
  have hlive' := hdrained.live hlive
  rw [exec_bind_ok hdrain, exec_settleOpen, if_neg (by simp [hopen'])] at hhalt ⊢
  rcases hsettle : (settle (locks fuel) .order).exec i drained with ⟨result, w'⟩
  rw [hsettle] at hhalt
  obtain hstuck | ⟨middle, hresolve, hstuck, rfl⟩ :=
    settle_or_stuck (h.respects_stuck i .order fuel) hlive' hdrained.closed hdrained.holds hsettle
      hhalt
  · exact hdrained.trans (hstuck.imp .inl)
  · have huntied : middle.Untied i primaryKey rowAlias terms unique := by
      refine untied_of_resolve h hlive' hdrained.closed ?_ ?_ hresolve
      · rw [hbroken]
        rfl
      · rw [hbroken, ← honly.terms, ← honly.unique]
        rfl
    exact hdrained.trans ⟨.inr huntied, hstuck.closed, hstuck.grows⟩

/-- Whichever operation first locks the order, on whichever builder, the ties are broken. -/
theorem respects_tied {expected : Builder → Bool}
    (hexpected : ∀ b, expected b = true → b.OnlyTied primaryKey terms unique) (fuel : Nat) :
    (lockExpecting expected i .order fuel).Respects
      (Standing i .order (Tied i primaryKey (table, rowAlias))
        (Untied i primaryKey rowAlias terms unique)) := by
  refine (rounds_lockExpecting expected i .order).respects_standing (lasting_tied _ _)
    (lasting_untied _ _ _ _) (fun ⟨_, _, hfrozen, _⟩ => hfrozen.1) ?_ fuel
  intro fuel w _ hlive hclosed hopen hunsettled htied hhalt
  have hkept := lock_tied (rounds_lockExpecting expected i .order) hlive hclosed hopen hunsettled
    htied (hexpected _ (expected_of_lock hopen (hhalt _))) hhalt
  exact hkept.imp .inr

variable {lock : Locker} {setup : ConnectionSetup} {args : ConnectionArgs}

/-- The setup of a connection registers the tie breaker before anything else. -/
theorem setUpConnection_tied {counts : PageCounts} {cursors : PageCursors}
    (hcounts : args.counts = .ok counts) (hcursors : args.cursors = .ok cursors)
    (hkey : setup.primaryKey ≠ []) :
    setUpConnection lock setup args = (do
      beforeLock .order (.breakTies setup.primaryKey)
      setUpConnection lock { setup with primaryKey := [] } args) := by
  have hsome : (!setup.primaryKey.isEmpty) = true := by simpa using hkey
  rw [setUpConnection, setUpConnection, hcounts, hcursors, hsome]
  rfl

/-- A tie breaker that is registered waits for the order to lock. -/
theorem beforeLock_standing {R : World → Prop} (hlive : i < w.nextBuilder) (hclosed : w.Closed)
    (hsource : w.Frozen i .source (some (table, rowAlias)))
    (hopen : (w.builder i).locked .order = false) (hnone : (w.builder i).callbacks .order = [])
    (hunsettled : w.Unsettled i .order) :
    ∃ w', (beforeLock .order (.breakTies primaryKey)).exec i w = (.ok (), w') ∧
      w.Kept (Standing i .order (Tied i primaryKey (table, rowAlias)) R) w' := by
  have hbuilder := builder_setBuilder_self w i
    ((w.builder i).withCallback .order (.breakTies primaryKey))
  have hqueue : ((w.setBuilder i ((w.builder i).withCallback .order
      (.breakTies primaryKey))).builder i).callbacks .order = [.breakTies primaryKey] := by
    rw [hbuilder, Builder.withCallback, hnone]
    rfl
  refine ⟨w.setBuilder i ((w.builder i).withCallback .order (.breakTies primaryKey)),
    exec_checkLock_bind _ hopen, .inl ⟨⟨hlive, ?_, List.nil_prefix⟩, hunsettled,
      ⟨hlive, ?_, hqueue ▸ List.prefix_rfl⟩, hsource.setBuilder (fun hd => hd) fun _ => rfl⟩,
    hclosed.setBuilder i (hclosed i), Nat.le_refl _⟩
  · rw [hbuilder]
    exact hopen
  · rw [hbuilder]
    exact hopen

/-- A builder with a row source and an open order gets its tie breaker from the setup of a
connection, whatever becomes of the rest of it. -/
theorem setUpConnection_standing {expected : Builder → Bool} {set : Except Halt Unit}
    (hexpected : ∀ b, expected b = true → b.OnlyTied setup.primaryKey terms unique)
    (hkey : setup.primaryKey ≠ []) (hvalid : args.validate = .ok ()) (hlive : i < w.nextBuilder)
    (hclosed : w.Closed) (hsource : w.Frozen i .source (some (table, rowAlias)))
    (hopen : (w.builder i).locked .order = false) (hnone : (w.builder i).callbacks .order = [])
    (hunsettled : w.Unsettled i .order)
    (hrun : (setUpConnection (lockExpecting expected i .order fuel) setup args).exec i w =
      (set, w'))
    (hhalt : Completes set) :
    w.Kept (Standing i .order (Tied i setup.primaryKey (table, rowAlias))
      (Untied i setup.primaryKey rowAlias terms unique)) w' := by
  obtain ⟨counts, cursors, hcounts, hcursors, -⟩ := ConnectionArgs.validate_eq_ok hvalid
  obtain ⟨registered, hregister, hregistered⟩ :=
    beforeLock_standing hlive hclosed hsource hopen hnone hunsettled
  rw [setUpConnection_tied hcounts hcursors hkey, exec_bind_ok hregister] at hrun
  have hkept := (respects_tied hexpected fuel).setUpConnection { setup with primaryKey := [] } args
    (hregistered.live hlive) hregistered.closed hregistered.holds
  rw [hrun] at hkept
  exact hregistered.trans (hkept hhalt)

/-- Ties are broken.  Let a builder have a row source, and an open order without callbacks, and
let a connection with a primary key be set up on it.  Whatever is done next, on whichever
builder, and whichever operation first locks the order: let `terms` wait then, with no callback
but tie breakers, one or more of them, and let the uniqueness of the order be open.  (This is
said of the run by a lock that gives up where the builder is not as expected; a run that does not
give up is one under the ordinary lock.)  Once the order is settled, it is unique; its terms are
those that waited, alone if they had been declared unique, and otherwise with the primary key
behind them. -/
theorem lock_breaks_ties {expected : Builder → Bool} {fuel' : Nat} {steps : List Step}
    {set result : Except Halt Unit} {connected : World}
    (hexpected : ∀ b, expected b = true → b.OnlyTied setup.primaryKey terms unique)
    (hkey : setup.primaryKey ≠ []) (hvalid : args.validate = .ok ()) (hlive : i < w.nextBuilder)
    (hclosed : w.Closed) (hsource : w.Frozen i .source (some (table, rowAlias)))
    (hopen : (w.builder i).locked .order = false) (hnone : (w.builder i).callbacks .order = [])
    (hunsettled : w.Unsettled i .order)
    (hset : (setUpConnection (lockExpecting expected i .order fuel) setup args).exec i w =
      (set, connected))
    (hsets : Completes set) (hid : id < connected.nextBuilder)
    (hrun : (runSteps (lockExpecting expected i .order fuel') steps).exec id connected =
      (result, w'))
    (hruns : Completes result) (hsettled : .settled i .order ∈ w'.history) :
    (setUpConnection (lockWith fuel) setup args).exec i w = (set, connected) ∧
      (runSteps (lockWith fuel') steps).exec id connected = (result, w') ∧
      w'.Untied i setup.primaryKey rowAlias terms unique := by
  have hrounds := rounds_lockExpecting expected i .order
  have hconnected := setUpConnection_standing hexpected hkey hvalid hlive hclosed hsource hopen
    hnone hunsettled hset hsets
  have hkept := (respects_tied hexpected fuel').runSteps steps hid hconnected.closed
    hconnected.holds
  rw [hrun] at hkept
  exact ⟨(Program.setUpConnection setup args).exec_of_rounds hrounds hset hsets,
    (Program.runSteps (.of_named trivial steps)).exec_of_rounds hrounds hrun hruns,
    (hkept hruns).holds.of_settled hsettled⟩

/-- The world with a row source. -/
def sourcedRun : World :=
  ((World.start {} 0).step (.mk [] (.source (.text "items") none) false none)).2

/-- A setup with a primary key of two columns. -/
def pairSetup : ConnectionSetup := ⟨["id", "part"], "tag"⟩

/-- A term whose expression comes late, another setup of the same connection, and a lock of the
select list, which comes to the order through the cursor. -/
def tieSteps : List Step :=
  [.mk [] (.orderByLazy [] (.expr (.text "price")) true none) false none,
    .mk [] (.setUpConnection pairSetup {}) true none, .mk [] (.lock .select) false none]

/-- The builder whose order these steps lock. -/
def twiceTied (b : Builder) : Bool :=
  match b.pending.orderTerms, b.callbacks .order with
  | [⟨.lazy [] (.expr (.text "price")), true, none⟩],
    [.breakTies ["id", "part"], .breakTies ["id", "part"]] =>
    !b.orderIsUnique && !b.locked .uniqueness
  | _, _ => false

theorem onlyTied_of_twiceTied {b : Builder} (hexpected : twiceTied b = true) :
    b.OnlyTied ["id", "part"] [⟨.lazy [] (.expr (.text "price")), true, none⟩] false := by
  rw [twiceTied] at hexpected
  split at hexpected
  · obtain ⟨hunique, hopen⟩ := Bool.and_eq_true_iff.mp hexpected
    exact ⟨‹_›, by simpa using hunique, by simpa using hopen, by simp [*]⟩
  · cases hexpected

theorem lock_breaks_ties_tieSteps :
    ∃ connected w' settled,
      (setUpConnection (lockWith 9) pairSetup {}).exec root sourcedRun = (.ok (), connected) ∧
      (runSteps (lockWith 9) tieSteps).exec root connected = (.ok (), w') ∧
      OrderedFrom root [⟨.lazy [] (.expr (.text "price")), true, none⟩] settled ∧
      w'.Frozen root .order (settled ++ keyTerms (aliasNode ⟨0⟩) ["id", "part"]) ∧
      w'.Frozen root .uniqueness true := by
  have hsound : root < sourcedRun.nextBuilder ∧ sourcedRun.Closed :=
    ((Reached.initial {} 0).next _ (by decide +kernel)).sound
  have hset : (setUpConnection (lockExpecting twiceTied root .order 9) pairSetup {}).exec root
      sourcedRun = (.ok (), _) := exec_eq_ok (by decide +kernel)
  have hrun : (runSteps (lockExpecting twiceTied root .order 9) tieSteps).exec root
      ((setUpConnection (lockExpecting twiceTied root .order 9) pairSetup {}).exec root
        sourcedRun).2 = (.ok (), _) := exec_eq_ok (by decide +kernel)
  obtain ⟨hconnects, hruns, settled, hsettled, horder, hunique⟩ :=
    lock_breaks_ties (fun _ => onlyTied_of_twiceTied) (by decide) rfl hsound.1 hsound.2
      ⟨by decide +kernel, rfl⟩ (by decide +kernel) rfl (by decide +kernel) hset nofun
      (by decide +kernel) hrun nofun (by decide +kernel)
  exact ⟨_, _, settled, hconnects, hruns, hsettled, horder, hunique⟩

end Action

end PageQuery
