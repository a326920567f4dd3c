import PageQuery.Proofs.Defer.Builders
import PageQuery.Proofs.Run.Follow

/-!
# Actions on deferred values

An action does in a world that defers values what it does in the other world, unless it looks
at what waits in a builder.  The ways of putting actions together and the changes of a builder
are gone through here once.
-/

namespace PageQuery

open Sql

namespace Action

/-- In a world that defers values the second action does what the first one does in the other
world. -/
def Defers {α : Type} (action action' : Action α) : Prop := Follows World.Defers action action'

namespace Defers

variable {α β γ : Type} {action action' : Action α}

theorem pure (a : α) : Defers (pure a : Action α) (pure a) := Follows.pure a

theorem refuse (e : Error) : Defers (refuse e : Action α) (refuse e) := Follows.refuse e

theorem ofExcept (value : Except Error α) : Defers (ofExcept value) (ofExcept value) :=
  Follows.ofExcept value

/-- One action behind another. -/
theorem bind {next next' : α → Action β} (hfirst : Defers action action')
    (hnext : ∀ a, Defers (next a) (next' a)) : Defers (action >>= next) (action' >>= next') :=
  Follows.bind hfirst hnext

theorem within (id : BuilderId) (hdefers : Defers action action') :
    Defers (within id action) (within id action') := Follows.within id hdefers

theorem attempt (hdefers : Defers action action') : Defers (attempt action) (attempt action') :=
  Follows.attempt hdefers

/-- A run that gives up for lack of fuel asks nothing of the other one. -/
theorem exhaust (action : Action α) : Defers Action.exhaust action :=
  fun _ _ _ _ hhalt => absurd rfl hhalt

/-- Both runs look at their builders, and the second one may hold deferred values. -/
theorem self_bind {next next' : Builder → Action α}
    (hnext : ∀ b b', b.Defers b' → Defers (next b) (next' b')) :
    Defers (self >>= next) (self >>= next') :=
  fun id _ _ hworld hhalt => hnext _ _ (hworld.builder id) hworld hhalt

/-- Of most actions it does not matter what waits in the builder. -/
theorem ask {next next' : Builder → Action α}
    (hblind : ∀ (b : Builder) (pending : Pending) (callbacks : Concern → List Callback)
      (comparator : Option Comparator),
      next' { b with pending, callbacks, resolved := { b.resolved with comparator } } = next' b)
    (hnext : ∀ b, Defers (next b) (next' b)) : Defers (self >>= next) (self >>= next') := by
  refine self_bind ?_
  rintro b _ ⟨_, _, _⟩
  rw [hblind]
  exact hnext b

theorem read_bind {next next' : BuilderId → Action α} (hnext : ∀ id, Defers (next id) (next' id)) :
    Defers (MonadReader.read >>= next) (MonadReader.read >>= next') :=
  Follows.bind Follows.read hnext

/-- Both runs look at their worlds. -/
theorem get_bind {next next' : World → Action α}
    (hnext : ∀ w w', w.Defers w' → Defers (next w) (next' w')) :
    Defers (MonadState.get >>= next) (MonadState.get >>= next') :=
  fun _ w w' hworld hhalt => hnext w w' hworld hworld hhalt

/-- The builders are changed in both runs. -/
theorem update {change change' : Builder → Builder}
    (hchange : ∀ b b', b.Defers b' → (change b).Defers (change' b')) :
    Defers (update change) (update change') :=
  fun id _ _ hworld _ => ⟨rfl, hworld.setBuilder id (hchange _ _ (hworld.builder id))⟩

/-- A change of something that the builder has apart from what waits in it. -/
theorem amend {change : Builder → Builder}
    (hblind : ∀ (b : Builder) (pending : Pending) (callbacks : Concern → List Callback)
      (comparator : Option Comparator),
      change { b with pending, callbacks, resolved := { b.resolved with comparator } } =
        { change b with pending, callbacks, resolved := { (change b).resolved with comparator } })
    (hkeeps : ∀ b : Builder, (change b).pending = b.pending ∧ (change b).callbacks = b.callbacks ∧
      (change b).resolved.comparator = b.resolved.comparator) :
    Defers (Action.update change) (Action.update change) := by
  refine update ?_
  rintro b _ @⟨pending, callbacks, comparator, hpending, hcallbacks, hcomparator⟩
  obtain ⟨hwaiting, hqueue, hset⟩ := hkeeps b
  rw [hblind b pending callbacks comparator]
  exact .mk (by rwa [hwaiting]) (by rwa [hqueue]) (by rwa [hset])

theorem log (event : Event) : Defers (log event) (log event) :=
  fun _ _ _ hworld _ => ⟨rfl, { hworld with events := congrArg (· ++ [event]) hworld.events }⟩

/-- The journals may tell of scripts that defer values. -/
theorem record {entry entry' : Entry} (hentry : entry.Defers entry') :
    Defers (record entry) (record entry') :=
  fun _ _ _ hworld _ =>
    ⟨rfl, { hworld with journal := List.rel_append hworld.journal (.cons hentry .nil) }⟩

theorem remember (moment moment' : Moment) : Defers (remember moment) (remember moment') :=
  fun _ _ _ hworld _ => ⟨rfl, { hworld with }⟩

/-- The same fragment is saved, since by then it has been evaluated. -/
theorem save (name : String) (f : Fragment) : Defers (save name f) (save name f) :=
  fun _ _ _ hworld _ => ⟨rfl, { hworld with saved := congrArg ((name, f) :: ·) hworld.saved }⟩

/-- Both runs give out the same token. -/
theorem mintToken : Defers mintToken mintToken := by
  intro _ w w' hworld _
  have htoken : (⟨w'.nextToken⟩ : AliasToken) = ⟨w.nextToken⟩ := congrArg _ hworld.nextToken
  exact ⟨congrArg Except.ok htoken,
    { hworld with nextToken := congrArg (· + 1) hworld.nextToken }⟩

/-- Both runs give the new builder the same id. -/
theorem spawn (b : Builder) : Defers (spawn b) (spawn b) :=
  fun _ _ _ hworld _ => ⟨congrArg Except.ok hworld.nextBuilder, hworld.spawned b⟩

theorem ite {p : Prop} [Decidable p] {yes yes' no no' : Action α} (hyes : Defers yes yes')
    (hno : Defers no no') : Defers (if p then yes else no) (if p then yes' else no') :=
  Follows.ite hyes hno

theorem ite_bind {p : Prop} [Decidable p] {first first' : Action Unit}
    {next next' : Unit → Action α} (hfirst : Defers first first')
    (hnext : Defers (next ()) (next' ())) :
    Defers (if p then first >>= next else next ()) (if p then first' >>= next' else next' ()) :=
  Follows.ite_bind hfirst hnext

theorem forM_option {f f' : γ → Action PUnit} (item : Option γ)
    (hf : ∀ item, Defers (f item) (f' item)) : Defers (item.forM f) (item.forM f') := by
  cases item with
  | none => exact pure _
  | some item => exact hf item

/-- Values are gone through one by one, deferred or not. -/
theorem mapM {S : γ → γ → Prop} {f f' : γ → Action α} {items items' : List γ}
    (hitems : List.Forall₂ S items items')
    (hf : ∀ item item', S item item' → Defers (f item) (f' item')) :
    Defers (items.mapM f) (items'.mapM f') := by
  induction hitems with
  | nil => exact pure _
  | cons hitem _ ih =>
      rw [List.mapM_cons, List.mapM_cons]
      exact (hf _ _ hitem).bind fun _ => ih.bind fun _ => pure _

theorem mapM_option {S : γ → γ → Prop} {f f' : γ → Action α} {item item' : Option γ}
    (hitem : Option.Rel S item item')
    (hf : ∀ item item', S item item' → Defers (f item) (f' item')) :
    Defers (item.mapM f) (item'.mapM f') := by
  cases hitem with
  | none => exact pure _
  | some hitem => exact (hf _ _ hitem).bind fun _ => pure _

/-! Expressions -/

/-- Expressions are evaluated in the same scope. -/
theorem scope : Defers scope scope := by
  refine ask (fun _ _ _ _ => rfl) fun b => ?_
  refine get_bind fun w w' hworld => ?_
  rw [hworld.saved]
  exact pure _

/-- Expressions give the same fragment in both worlds. -/
theorem evaluate (expr : Expr) : Defers (evaluate expr) (evaluate expr) :=
  scope.bind fun scope => Follows.ofHalting (expr.eval scope)

theorem evaluateNode (node : NodeExpr) : Defers (evaluateNode node) (evaluateNode node) :=
  scope.bind fun scope => .ofExcept (node.eval scope)

/-! Changes -/

theorem checkLock (c : Concern) : Defers (checkLock c) (checkLock c) := by
  refine ask (fun _ _ _ _ => rfl) fun b => ?_
  exact ite (.refuse _) (pure _)

/-- A change behind the check of its concern. -/
theorem register (c : Concern) {change change' : Builder → Builder}
    (hchange : ∀ b b', b.Defers b' → (change b).Defers (change' b')) :
    Defers (do Action.checkLock c; Action.update change)
      (do Action.checkLock c; Action.update change') :=
  (checkLock c).bind fun _ => update hchange

/-- Callbacks join the queues of the same concern. -/
theorem beforeLock (c : Concern) {callback callback' : Callback}
    (hcallback : callback.Defers callback') :
    Defers (beforeLock c callback) (beforeLock c callback') := by
  refine register c fun b b' hb => ?_
  have hqueue := List.rel_append (hb.callbacks c) (.cons hcallback .nil)
  exact hb.setCallbacks c hqueue

/-- A field is selected by its value or by a closure. -/
theorem select {expr expr' : DeferredFragment} (hexpr : FragmentDefers expr expr')
    (name : String) : Defers (select expr name) (select expr' name) := by
  refine (checkLock .select).bind fun _ => (ofExcept _).bind fun _ => update fun b b' hb => ?_
  have hfield : PendingField.Defers ⟨expr, name⟩ ⟨expr', name⟩ := ⟨hexpr, rfl⟩
  have hselects := List.rel_append hb.pending.selects (.cons hfield .nil)
  exact hb.setPending { hb.pending with selects := hselects }

theorem selectIdentifiers (primaryKey : List String) :
    Defers (selectIdentifiers primaryKey) (selectIdentifiers primaryKey) := by
  refine (checkLock .select).bind fun _ => ask (fun _ _ _ _ => rfl) fun b => ?_
  refine ite (pure _) ((ofExcept _).bind fun table => ?_)
  refine (select (.ready (identifiers table primaryKey)) identifiersAlias).bind fun _ => ?_
  exact amend (fun _ _ _ _ => rfl) fun _ => ⟨rfl, rfl, rfl⟩

theorem selectCursor {expr expr' : DeferredFragment} (hexpr : FragmentDefers expr expr') :
    Defers (selectCursor expr) (selectCursor expr') := by
  refine register .cursor fun b b' hb => ?_
  exact hb.setPending { hb.pending with cursor := .some hexpr }

theorem join (clause : Fragment) : Defers (join clause) (join clause) := by
  refine (checkLock .joins).bind fun _ => ?_
  exact amend (fun _ _ _ _ => rfl) fun _ => ⟨rfl, rfl, rfl⟩

/-- A where is registered by its value or by a closure. -/
theorem filter {expr expr' : DeferredFragment} (hexpr : FragmentDefers expr expr') :
    Defers (filter expr) (filter expr') := by
  refine (checkLock .wheres).bind fun _ => bind (update fun b b' hb => ?_) fun _ => ?_
  · have hwheres := List.rel_append hb.pending.wheres (.cons hexpr .nil)
    exact hb.setPending { hb.pending with wheres := hwheres }
  · exact read_bind fun _ => remember _ _

theorem bound (condition : Cursor.Bound) (isLower : Bool) :
    Defers (bound condition isLower) (bound condition isLower) := by
  refine (checkLock .bounds).bind fun _ => ?_
  cases isLower <;> exact amend (fun _ _ _ _ => rfl) fun _ => ⟨rfl, rfl, rfl⟩

/-- A term is registered by its value or by a closure. -/
theorem orderBy {expr expr' : DeferredFragment} (hexpr : FragmentDefers expr expr')
    (ascending : Bool) (nulls : Option NullsOrder) :
    Defers (orderBy expr ascending nulls) (orderBy expr' ascending nulls) := by
  refine register .order fun b b' hb => ?_
  have hterm : PendingTerm.Defers ⟨expr, ascending, nulls⟩ ⟨expr', ascending, nulls⟩ :=
    ⟨hexpr, rfl, rfl⟩
  have horderTerms := List.rel_append hb.pending.orderTerms (.cons hterm .nil)
  exact hb.setPending { hb.pending with orderTerms := horderTerms }

theorem setOrderUnique : Defers setOrderUnique setOrderUnique := by
  refine (checkLock .uniqueness).bind fun _ => ?_
  exact amend (fun _ _ _ _ => rfl) fun _ => ⟨rfl, rfl, rfl⟩

/-- A limit is refused where there is one already, deferred or not. -/
theorem limit {n n' : DeferredCount} (hn : CountDefers n n') : Defers (limit n) (limit n') := by
  refine (checkLock .limit).bind fun _ => self_bind fun b b' hb => ?_
  rw [isSome_of_rel hb.pending.limit]
  refine ite_bind (refuse _) (update fun b b' hb => ?_)
  exact hb.setPending { hb.pending with limit := .some hn }

/-- An offset is registered by its value or by a closure. -/
theorem offset {n n' : DeferredCount} (hn : CountDefers n n') : Defers (offset n) (offset n') := by
  refine register .offset fun b b' hb => ?_
  have hoffsets := List.rel_append hb.pending.offsets (.cons hn .nil)
  exact hb.setPending { hb.pending with offsets := hoffsets }

/-- The first rows are counted at once. -/
theorem first (n : Nat) : Defers (first n) (first n) := by
  refine (checkLock .first).bind fun _ => ask (fun _ _ _ _ => rfl) fun b => ?_
  exact ite_bind (refuse _) (amend (fun _ _ _ _ => rfl) fun _ => ⟨rfl, rfl, rfl⟩)

theorem last (n : Nat) : Defers (last n) (last n) := by
  refine (checkLock .last).bind fun _ => ask (fun _ _ _ _ => rfl) fun b => ?_
  exact ite_bind (refuse _) (amend (fun _ _ _ _ => rfl) fun _ => ⟨rfl, rfl, rfl⟩)

theorem setCursorTag (tag : String) : Defers (setCursorTag tag) (setCursorTag tag) := by
  refine (checkLock .cursorTag).bind fun _ => ?_
  exact amend (fun _ _ _ _ => rfl) fun _ => ⟨rfl, rfl, rfl⟩

/-- Row sources are never deferred. -/
theorem registerSource (table : Fragment) (rowAlias : Option Node) :
    Defers (registerSource table rowAlias) (registerSource table rowAlias) := by
  have halias : Defers (aliasOrToken rowAlias) (aliasOrToken rowAlias) := by
    cases rowAlias with
    | some rowAlias => exact pure rowAlias
    | none => exact mintToken.bind fun _ => pure _
  refine (checkLock .source).bind fun _ => halias.bind fun _ => ?_
  exact amend (fun _ _ _ _ => rfl) fun _ => ⟨rfl, rfl, rfl⟩

/-- A custom comparator may defer values in its script. -/
theorem registerComparator {comparator comparator' : Comparator}
    (h : comparator.Defers comparator') :
    Defers (registerComparator comparator) (registerComparator comparator') := by
  refine register .comparator fun b b' hb => ?_
  exact hb.setPending { hb.pending with comparator := .some h }

end Defers

end Action

end PageQuery
