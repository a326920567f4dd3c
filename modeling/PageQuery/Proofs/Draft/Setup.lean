import PageQuery.Proofs.Draft.Questions

/-!
# How drafts come about

A draft is told by a row source, by changes with ready values, and by the connection that is
set up.  None of these locks anything but the row source and the comparator, so the builder
is that of a draft in which nothing else has begun.
-/

namespace PageQuery

open Sql

/-- Changes with ready values. -/
def Op.tells : Op → Bool
  | .select _ _ | .selectIdentifiers _ | .selectCursor _ | .join _ | .filter _ | .bound _ _
  | .orderBy _ _ _ | .setOrderUnique | .limit _ | .offset _ | .first _ | .last _
  | .setCursorTag _ => true
  | _ => false

/-- Nothing has been locked but the row source and the comparator, if they are set. -/
def Progress.begun (sourced connected : Bool) : Progress
  | .source => if sourced then .settled else .waiting
  | .comparator => if connected then .settled else .waiting
  | _ => .waiting

namespace Draft

/-- The draft of a fresh builder. -/
def blank (options : Options) : Draft where
  options := options
  table := []
  rowAlias := .raw ""
  joins := []
  lower := []
  upper := []
  unique := false
  first := none
  last := none
  tag := options.cursorTag
  identified := false
  selects := []
  wheres := []
  terms := []
  limit := none
  offsets := []
  cursor := none
  primaryKey := []
  after := none
  before := none

/-- A builder that has been told a draft, with the callbacks that it was given. -/
def told (d : Draft) (sourced connected : Bool) (callbacks : Concern → List Callback) :
    Builder where
  options := d.options
  parent := none
  source := if sourced then some (d.table, d.rowAlias) else none
  joins := d.joins
  lower := d.lower
  upper := d.upper
  orderIsUnique := d.unique
  first := d.first
  last := d.last
  cursorTag := d.tag
  identifiersSelected := d.identified
  pending := {
    selects := d.selects.map fun field => ⟨.ready field.expr, field.name⟩
    wheres := d.wheres.map .ready
    orderTerms := d.terms.map fun term => ⟨.ready term.expr, term.ascending, term.nulls⟩
    limit := d.limit.map .ready
    offsets := d.offsets.map .ready
    cursor := d.pendingCursor }
  resolved := { comparator := if connected then some (.kind .relay) else none }
  locked := fun c => (Progress.begun sourced connected c).isLocked
  callbacks := callbacks
  children := []

/-- The connection of a draft is the same. -/
structure Continues (d' d : Draft) : Prop where
  primaryKey : d'.primaryKey = d.primaryKey
  after : d'.after = d.after
  before : d'.before = d.before

theorem Continues.refl (d : Draft) : d.Continues d := ⟨rfl, rfl, rfl⟩

/-- A draft is continued by one call after another. -/
theorem Continues.trans {d d' d'' : Draft} (hsecond : d''.Continues d') (hfirst : d'.Continues d) :
    d''.Continues d :=
  ⟨hsecond.primaryKey.trans hfirst.primaryKey, hsecond.after.trans hfirst.after,
    hsecond.before.trans hfirst.before⟩

/-- Callbacks are made of the connection alone. -/
theorem Continues.queue {d d' : Draft} (hcontinues : d'.Continues d) (connected : Bool) :
    d'.queue connected = d.queue connected := by
  funext c
  cases c <;> simp [Draft.queue, conditions, hcontinues.primaryKey, hcontinues.after,
    hcontinues.before]

variable {d : Draft} {sourced connected : Bool} {callbacks : Concern → List Callback}
  {id : BuilderId} {saved : List (String × Fragment)} {c : Concern}

theorem callbacks_begun : d.callbacks (.begun sourced connected) = d.queue connected := by
  have hconnected : (Progress.begun sourced connected .comparator).isSettled = connected := by
    cases connected <;> rfl
  funext e
  rw [callbacks, hconnected]
  cases e with
  | source => cases sourced <;> rfl
  | comparator => cases connected <;> rfl
  | _ => exact List.append_nil _

/-- What has been told is a draft of which nothing else has begun. -/
theorem builder_begun :
    d.builder (.begun sourced connected) = d.told sourced connected (d.queue connected) := by
  rw [Draft.builder, callbacks_begun]
  cases sourced <;> cases connected <;> rfl

/-! Each change is a change of the draft. -/

open PageQuery.Action

/-- What is told of a draft halts, or the builder is that of a draft again. -/
def Tells (id : BuilderId) (saved : List (String × Fragment)) (sourced connected : Bool)
    (callbacks : Concern → List Callback) (d : Draft) {α : Type} (action : Action α) : Prop :=
  Ends id saved (d.told sourced connected callbacks) action False
    fun _ b => ∃ d', b = Draft.told d' sourced connected callbacks ∧ d'.Continues d

theorem ends_evaluate {b : Builder} (expr : Expr) :
    Ends id saved b (evaluate expr) False fun _ b' => b' = b := by
  cases heval : expr.eval (b.scope saved) with
  | ok f => exact Ends.of_turns (Turns.evaluate heval) rfl
  | error halt =>
      refine Ends.of_halts not_false fun w hb hsaved => ⟨halt, w, ?_⟩
      rw [exec_evaluate, hb, hsaved]
      exact congrArg (·, w) heval

theorem Tells.evaluate {α : Type} {expr : Expr} {next : Fragment → Action α}
    (hnext : ∀ f, d.Tells id saved sourced connected callbacks (next f)) :
    d.Tells id saved sourced connected callbacks (evaluate expr >>= next) := by
  apply Ends.bind (ends_evaluate expr)
  rintro f _ rfl
  exact hnext f

theorem Tells.change {change : Builder → Builder} (d' : Draft)
    (hopen : (d.told sourced connected callbacks).locked c = false)
    (hchange : change (d.told sourced connected callbacks) = d'.told sourced connected callbacks)
    (hcontinues : d'.Continues d) :
    d.Tells id saved sourced connected callbacks (checkLock c >>= fun _ => update change) := by
  apply Ends.behind (Turns.checkLock hopen)
  exact Ends.of_turns (Turns.update _) ⟨d', hchange, hcontinues⟩

/-- Calls that tell their draft tell it one after the other. -/
theorem Tells.andThen {α β : Type} {action : Action α} {next : α → Action β}
    (htells : d.Tells id saved sourced connected callbacks action)
    (hnext : ∀ (d' : Draft) (a : α), d'.Tells id saved sourced connected callbacks (next a)) :
    d.Tells id saved sourced connected callbacks (action >>= next) := by
  apply Ends.bind htells
  rintro a _ ⟨d', rfl, hcontinues⟩
  apply (hnext d' a).imp fun hfalse => hfalse
  rintro _ _ ⟨d'', rfl, hcontinues'⟩
  exact ⟨d'', rfl, hcontinues'.trans hcontinues⟩

theorem tells_pure {α : Type} (a : α) : d.Tells id saved sourced connected callbacks (pure a) :=
  Ends.of_turns (Turns.pure a) ⟨d, rfl, .refl d⟩

/-- A change that may be made once. -/
theorem tells_once {change : Builder → Builder} {taken : Builder → Bool} {e : Error}
    (d' : Draft)
    (hopen : (d.told sourced connected callbacks).locked c = false)
    (hchange : change (d.told sourced connected callbacks) = d'.told sourced connected callbacks)
    (hcontinues : d'.Continues d) :
    d.Tells id saved sourced connected callbacks (do
      checkLock c
      if taken (← self) then refuse e
      update change) := by
  apply Ends.behind (Turns.checkLock hopen)
  apply Ends.self_bind
  cases taken (d.told sourced connected callbacks) with
  | true => exact Ends.of_halts not_false (Halts.bind (Halts.refuse e))
  | false => exact Ends.of_turns (Turns.update change) ⟨d', hchange, hcontinues⟩

/-- A field is told to the draft. -/
theorem tells_select (expr : Fragment) (name : String) :
    d.Tells id saved sourced connected callbacks (select (.ready expr) name) := by
  have hname : Ends id saved (d.told sourced connected callbacks)
      (Action.ofExcept (checkName name)) False
      fun _ b => b = d.told sourced connected callbacks :=
    Ends.ofExcept (fun _ _ => not_false) fun _ _ => rfl
  apply Ends.behind (Turns.checkLock rfl)
  apply Ends.bind hname
  rintro _ _ rfl
  refine Ends.of_turns (Turns.update _)
    ⟨{ d with selects := d.selects ++ [⟨expr, name⟩] }, ?_, ⟨rfl, rfl, rfl⟩⟩
  simp only [told, List.map_append]
  rfl

theorem tells_selectIdentifiers (primaryKey : List String) :
    d.Tells id saved sourced connected callbacks (selectIdentifiers primaryKey) := by
  have htable : Ends id saved (d.told sourced connected callbacks)
      (Action.ofExcept (d.told sourced connected callbacks).tableAlias) False
      fun _ b => b = d.told sourced connected callbacks :=
    Ends.ofExcept (fun _ _ => not_false) fun _ _ => rfl
  apply Ends.behind (Turns.checkLock rfl)
  apply Ends.self_bind
  split
  · exact tells_pure ()
  · apply Ends.bind htable
    rintro table _ rfl
    apply (tells_select _ _).andThen
    intro d' _
    exact Ends.of_turns (Turns.update _) ⟨{ d' with identified := true }, rfl, ⟨rfl, rfl, rfl⟩⟩

theorem tells_filter (f : Fragment) :
    d.Tells id saved sourced connected callbacks (Action.filter (.ready f)) := by
  apply Ends.behind (Turns.checkLock rfl)
  apply Ends.behind (Turns.update _)
  refine Ends.of_turns (Turns.read_bind (Turns.remember _))
    ⟨{ d with wheres := d.wheres ++ [f] }, ?_, ⟨rfl, rfl, rfl⟩⟩
  simp only [told, List.map_append]
  rfl

theorem tells_bound (condition : Cursor.Bound) (isLower : Bool) :
    d.Tells id saved sourced connected callbacks (Action.bound condition isLower) := by
  cases isLower with
  | true =>
      exact Tells.change { d with lower := d.lower ++ [condition] } rfl rfl ⟨rfl, rfl, rfl⟩
  | false =>
      exact Tells.change { d with upper := d.upper ++ [condition] } rfl rfl ⟨rfl, rfl, rfl⟩

/-- A term of the order is told to the draft. -/
theorem tells_orderBy (f : Fragment) (ascending : Bool) (nulls : Option NullsOrder) :
    d.Tells id saved sourced connected callbacks (Action.orderBy (.ready f) ascending nulls) := by
  apply Tells.change { d with terms := d.terms ++ [⟨f, ascending, nulls⟩] } rfl
  · simp only [told, List.map_append]
    rfl
  · exact ⟨rfl, rfl, rfl⟩

theorem tells_offset (n : Nat) :
    d.Tells id saved sourced connected callbacks (Action.offset (.ready n)) := by
  apply Tells.change { d with offsets := d.offsets ++ [n] } rfl
  · simp only [told, List.map_append]
    rfl
  · exact ⟨rfl, rfl, rfl⟩

theorem tells_first (n : Nat) : d.Tells id saved sourced connected callbacks (Action.first n) :=
  tells_once { d with first := some n } rfl rfl ⟨rfl, rfl, rfl⟩

theorem tells_last (n : Nat) : d.Tells id saved sourced connected callbacks (Action.last n) :=
  tells_once { d with last := some n } rfl rfl ⟨rfl, rfl, rfl⟩

theorem tells_setCursorTag (tag : String) :
    d.Tells id saved sourced connected callbacks (Action.setCursorTag tag) :=
  Tells.change { d with tag } rfl rfl ⟨rfl, rfl, rfl⟩

/-- Every change with ready values. -/
theorem tells_perform {op : Op} (hop : op.tells = true) (lock : Locker) :
    d.Tells id saved sourced connected callbacks (perform lock op) := by
  have hanswering {action : Action Unit}
      (htells : d.Tells id saved sourced connected callbacks action) :
      d.Tells id saved sourced connected callbacks (answering action) :=
    htells.andThen fun _ _ => tells_pure _
  cases op with
  | select expr name => exact hanswering (.evaluate fun f => tells_select f name)
  | selectIdentifiers primaryKey => exact hanswering (tells_selectIdentifiers primaryKey)
  | selectCursor expr =>
      exact hanswering (.evaluate fun f => .change { d with cursor := some (some f) } rfl rfl
        ⟨rfl, rfl, rfl⟩)
  | join clause =>
      exact hanswering (.evaluate fun f => .change { d with joins := d.joins ++ [f] } rfl rfl
        ⟨rfl, rfl, rfl⟩)
  | filter expr => exact hanswering (.evaluate tells_filter)
  | bound expr isLower => exact hanswering (.evaluate fun f => tells_bound _ isLower)
  | orderBy expr ascending nulls =>
      exact hanswering (.evaluate fun f => tells_orderBy f ascending nulls)
  | setOrderUnique =>
      exact hanswering (.change { d with unique := true } rfl rfl ⟨rfl, rfl, rfl⟩)
  | limit n =>
      exact hanswering (tells_once { d with limit := some n } rfl rfl ⟨rfl, rfl, rfl⟩)
  | offset n => exact hanswering (tells_offset n)
  | first n => exact hanswering (tells_first n)
  | last n => exact hanswering (tells_last n)
  | setCursorTag tag => exact hanswering (tells_setCursorTag tag)
  | _ => simp [Op.tells] at hop

theorem tells_forM {n : Option Nat} {action : Nat → Action PUnit}
    (htells : ∀ n, d.Tells id saved sourced connected callbacks (action n)) :
    d.Tells id saved sourced connected callbacks (n.forM action) := by
  cases n with
  | none => exact tells_pure _
  | some n => exact htells n

/-- The comparator locks as soon as it is set. -/
theorem turns_setComparator (hnone : callbacks .comparator = []) (fuel : Nat) :
    Turns id saved (d.told sourced false callbacks)
      (setComparator (lockWith (fuel + 2)) (.kind .relay)) () (d.told sourced true callbacks) := by
  have hlocked : (fun c => if c = Concern.comparator then true
      else (Progress.begun sourced false c).isLocked) =
        fun c => (Progress.begun sourced true c).isLocked := by
    funext c
    cases c <;> rfl
  have hturned : { (d.told sourced false callbacks).setLocked .comparator with
      pending := { (d.told sourced false callbacks).pending with comparator := none }
      resolved := { (d.told sourced false callbacks).resolved with
        comparator := some (.kind .relay) } } = d.told sourced true callbacks := by
    simp only [told, Builder.setLocked, hlocked]
    rfl
  rw [← hturned]
  exact Turns.setComparator (.kind .relay) fuel rfl hnone

/-- The callbacks of a connection that has a tie breaker, but no cursors yet. -/
def tied (d : Draft) (c : Concern) : List Callback :=
  if c = .order then d.queue true .order else Builder.initialCallbacks c

/-- The callbacks of a connection: the tie breaker, and the cursors as conditions. -/
theorem told_withCursors :
    ((d.told sourced connected d.tied).withCursor true d.after).withCursor false d.before =
      d.told sourced connected (d.queue true) := by
  have hqueue : (((d.told sourced connected d.tied).withCursor true d.after).withCursor false
      d.before).callbacks = d.queue true := by
    funext c
    by_cases hc : c = .bounds
    · subst hc
      rw [Builder.withCursor_bounds, Builder.withCursor_bounds]
      simp [told, tied, queue, conditions, Builder.initialCallbacks]
    · rw [Builder.withCursor_callbacks hc, Builder.withCursor_callbacks hc]
      cases c <;> simp [told, tied, queue] at hc ⊢
  rw [← hqueue]
  rfl

theorem withCallback_breakTies (d₁ : Draft) (hkey : d₁.primaryKey.isEmpty = false) :
    (d.told sourced false (d.queue false)).withCallback .order (.breakTies d₁.primaryKey) =
      d.told sourced false d₁.tied := by
  have hqueue : d₁.tied = fun c => if c = .order then
      d.queue false .order ++ [.breakTies d₁.primaryKey] else d.queue false c := by
    funext c
    cases c <;> simp [tied, queue, hkey, Builder.initialCallbacks]
  rw [hqueue]
  rfl

/-- A primary key has its tie breaker registered. -/
theorem ends_breakTies {β : Type} {next : Unit → Action β} {last : β → Builder → Prop}
    (d₁ : Draft) (hnext : Ends id saved (d.told sourced false d₁.tied) (next ()) False last) :
    Ends id saved (d.told sourced false (d.queue false))
      (if (!d₁.primaryKey.isEmpty) = true then
        beforeLock .order (.breakTies d₁.primaryKey) >>= next else next ()) False last := by
  have htied : d₁.primaryKey.isEmpty = false → Ends id saved (d.told sourced false (d.queue false))
      (beforeLock .order (.breakTies d₁.primaryKey)) False
      fun _ b => b = d.told sourced false d₁.tied := by
    intro hkey
    rw [← withCallback_breakTies d₁ hkey]
    exact Ends.of_turns (Turns.beforeLock _ rfl) rfl
  apply Ends.ite_bind (fun hkey => htied (by simpa using hkey))
  · intro hkey
    have hqueue : d₁.tied = d.queue false := by
      funext c
      cases c <;> simp_all [tied, queue, Builder.initialCallbacks]
    rw [hqueue]
  rintro _ rfl
  exact hnext

/-- A connection sets the tie breaker and the cursors of a draft. -/
theorem ends_setUpConnection (setup : ConnectionSetup) (args : ConnectionArgs) (fuel : Nat) :
    Ends id saved (d.told sourced false (d.queue false))
      (setUpConnection (lockWith (fuel + 2)) setup args) False
      fun _ b => ∃ d', b = Draft.told d' sourced true (d'.queue true) ∧
        d'.primaryKey = setup.primaryKey ∧ args.cursors = .ok ⟨d'.after, d'.before⟩ := by
  have hread {α : Type} {b : Builder} (value : Except Error α) :
      Ends id saved b (Action.ofExcept value) False fun a b' => value = .ok a ∧ b' = b :=
    Ends.ofExcept (fun _ _ => not_false) fun _ ha => ⟨ha, rfl⟩
  apply Ends.bind (hread args.counts)
  rintro counts _ ⟨-, rfl⟩
  apply Ends.bind (hread args.cursors)
  rintro ⟨after, before⟩ _ ⟨hcursors, rfl⟩
  -- What is told from here on leaves the key and the cursors as they are.
  let d₁ : Draft := { d with primaryKey := setup.primaryKey, after, before, tag := setup.tag
                             cursor := some none }
  apply ends_breakTies d₁
  apply Ends.behind (Turns.setCursorTag setup.tag rfl)
  apply Ends.behind (turns_setComparator (d := { d with tag := setup.tag }) rfl fuel)
  apply Ends.behind (Turns.selectCursor _ rfl)
  have hfirst : d₁.Tells id saved sourced true d₁.tied (counts.first.forM Action.first) :=
    tells_forM tells_first
  apply Ends.bind hfirst
  rintro _ _ ⟨d₂, rfl, hcontinues₂⟩
  have hlast : d₂.Tells id saved sourced true d₁.tied (counts.last.forM Action.last) :=
    tells_forM tells_last
  apply Ends.bind hlast
  rintro _ _ ⟨d₃, rfl, hcontinues₃⟩
  have hoffset : d₃.Tells id saved sourced true d₁.tied (Action.offset (.ready counts.offset)) :=
    tells_offset counts.offset
  change Ends id saved _ (if 0 < counts.offset then _ else _) _ _
  apply Ends.ite_bind (fun _ => hoffset) (fun _ => ⟨d₃, rfl, .refl d₃⟩)
  rintro _ ⟨d₄, rfl, hcontinues₄⟩
  obtain ⟨hkey, hafter, hbefore⟩ := (hcontinues₄.trans hcontinues₃).trans hcontinues₂
  change d₄.after = after at hafter
  change d₄.before = before at hbefore
  have htied : d₁.tied = d₄.tied := by
    funext c
    simp only [tied, queue, hkey]
  rw [htied]
  subst hafter hbefore
  apply Ends.behind (Turns.addCursorCondition d₄.after true rfl)
  exact Ends.of_turns (Turns.addCursorCondition d₄.before false rfl)
    ⟨d₄, told_withCursors, hkey, hcursors⟩

theorem world_of_outcome {α : Type} {value : Except Error α} {w w' : World} {a : α}
    (houtcome : outcome value w = (.ok a, w')) : w' = w := by
  cases value with
  | error e => cases houtcome
  | ok a => exact (Prod.mk.inj houtcome).2.symm

/-- Evaluation changes nothing. -/
theorem world_of_evaluateNode? {node : Option NodeExpr} {w w' : World} {rowAlias : Option Node}
    (hrun : (evaluateNode? node).exec id w = (.ok rowAlias, w')) : w' = w := by
  cases node with
  | none =>
      cases hrun
      rfl
  | some node =>
      obtain ⟨value, w₁, hnode, hend⟩ := exec_bind_eq_ok hrun
      cases hend
      simp only [evaluateNode, scope, exec_bind, exec_self, exec_get, exec_pure,
        exec_ofExcept] at hnode
      exact world_of_outcome hnode

/-- An alias changes no builder, be it given or minted. -/
theorem builder_of_aliasOrToken {node : Option Node} {w w' : World} {rowAlias : Node}
    (hrun : (aliasOrToken node).exec id w = (.ok rowAlias, w')) :
    w'.builder id = w.builder id := by
  cases node <;> cases hrun <;> rfl

/-- The source locks with no callbacks before it. -/
theorem turns_lockSource (hnone : callbacks .source = []) (fuel : Nat) :
    Turns id saved { d.told false connected callbacks with source := some (d.table, d.rowAlias) }
      (lockWith (fuel + 2) .source) () (d.told true connected callbacks) := by
  have hlocked : (fun c => if c = Concern.source then true
      else (Progress.begun false connected c).isLocked) =
        fun c => (Progress.begun true connected c).isLocked := by
    funext c
    cases c <;> rfl
  have hturned : { d.told false connected callbacks with
      source := some (d.table, d.rowAlias) }.setLocked .source = d.told true connected callbacks := by
    simp only [told, Builder.setLocked, hlocked]
    rfl
  rw [← hturned]
  exact Turns.lock_either fuel hnone fun _ => rfl

/-- The row source locks as soon as it is set, under an alias or under a fresh token. -/
theorem exec_source {w w' : World} {table : Expr} {rowAlias : Option NodeExpr} {a : Answer}
    {fuel : Nat} (hbuilder : w.builder id = d.told false connected callbacks)
    (hnone : callbacks .source = [])
    (hrun : (perform (lockWith (fuel + 2)) (.source table rowAlias)).exec id w = (.ok a, w')) :
    ∃ table rowAlias,
      w'.builder id = Draft.told { d with table, rowAlias } true connected callbacks := by
  obtain ⟨_, w₁, hrun, hend⟩ := exec_bind_eq_ok hrun
  cases hend
  obtain ⟨f, w₂, heval, hrun⟩ := exec_bind_eq_ok hrun
  rw [exec_evaluate] at heval
  cases (Prod.mk.inj heval).2
  obtain ⟨node, w₃, hnode, hrun⟩ := exec_bind_eq_ok hrun
  rw [world_of_evaluateNode? hnode] at hrun
  obtain ⟨_, w₄, hregister, hlock⟩ := exec_bind_eq_ok hrun
  rw [registerSource, exec_checkLock_bind _ (by rw [hbuilder]; rfl)] at hregister
  obtain ⟨rowAlias, w₅, halias, hupdate⟩ := exec_bind_eq_ok hregister
  cases hupdate
  let d' : Draft := { d with table := f, rowAlias }
  have hb : (w₅.setBuilder id { w₅.builder id with source := some (f, rowAlias) }).builder id =
      { d'.told false connected callbacks with source := some (d'.table, d'.rowAlias) } := by
    rw [World.builder_setBuilder_self, builder_of_aliasOrToken halias, hbuilder]
    rfl
  obtain ⟨w₆, hlock', hb₆, -⟩ := turns_lockSource (d := d') hnone fuel _ hb rfl
  rw [hlock] at hlock'
  cases hlock'
  exact ⟨f, rowAlias, hb₆⟩

end Draft

end PageQuery
