import Mathlib.Logic.Relation
import PageQuery.Proofs.Run.Exec

/-!
# What operations change

Apart from locking, an operation changes a world in a few elementary ways only: it
registers something with an open concern of a builder that exists, makes a child, gives
out a token, or adds to what is reported.  `World.Change` lists them with the
conditions under which they happen, and every change that a caller can ask for is a
chain of them.
-/

namespace PageQuery

open Sql

/-- The lock that an event tells of, with the builder and the concern. -/
def Event.lock? : Event → Option (BuilderId × Concern)
  | .locked id c => some (id, c)
  | _ => none

/-- The locks that events tell of. -/
def Event.locks (events : List Event) : List (BuilderId × Concern) := events.filterMap lock?

/-- An event adds one lock at most. -/
theorem Event.locks_concat (events : List Event) (event : Event) :
    locks (events ++ [event]) = locks events ++ event.lock?.toList := by
  rw [locks, List.filterMap_append]
  cases hevent : event.lock? with
  | none => simp [hevent, locks]
  | some lock => simp [hevent, locks]

/-- One registration with an open concern, other than that of a filter. -/
inductive Builder.Edit (b : Builder) : Builder → Prop
  | select (field : PendingField) (hopen : b.locked .select = false)
      (hname : Action.checkName field.name = .ok ()) :
      Edit b { b with pending := { b.pending with selects := b.pending.selects ++ [field] } }
  | identifiersSelected (hopen : b.locked .select = false) :
      Edit b { b with identifiersSelected := true }
  | cursor (expr : DeferredFragment) (hopen : b.locked .cursor = false) :
      Edit b { b with pending := { b.pending with cursor := some expr } }
  | join (clause : Fragment) (hopen : b.locked .joins = false) :
      Edit b { b with joins := b.joins ++ [clause] }
  | lowerBound (condition : Cursor.Bound) (hopen : b.locked .bounds = false) :
      Edit b { b with lower := b.lower ++ [condition] }
  | upperBound (condition : Cursor.Bound) (hopen : b.locked .bounds = false) :
      Edit b { b with upper := b.upper ++ [condition] }
  | orderBy (term : PendingTerm) (hopen : b.locked .order = false) :
      Edit b
        { b with pending := { b.pending with orderTerms := b.pending.orderTerms ++ [term] } }
  | orderUnique (hopen : b.locked .uniqueness = false) :
      Edit b { b with orderIsUnique := true }
  | limit (n : DeferredCount) (hopen : b.locked .limit = false)
      (hunset : b.pending.limit = none) :
      Edit b { b with pending := { b.pending with limit := some n } }
  | offset (n : DeferredCount) (hopen : b.locked .offset = false) :
      Edit b { b with pending := { b.pending with offsets := b.pending.offsets ++ [n] } }
  | first (n : Nat) (hopen : b.locked .first = false) (hunset : b.first = none) :
      Edit b { b with first := some n }
  | last (n : Nat) (hopen : b.locked .last = false) (hunset : b.last = none) :
      Edit b { b with last := some n }
  | cursorTag (tag : String) (hopen : b.locked .cursorTag = false) :
      Edit b { b with cursorTag := tag }
  | source (table : Fragment) (rowAlias : Node) (hopen : b.locked .source = false) :
      Edit b { b with source := some (table, rowAlias) }
  | comparator (comparator : Comparator) (hopen : b.locked .comparator = false) :
      Edit b { b with pending := { b.pending with comparator := some comparator } }
  | callback (c : Concern) (callback : Callback) (hopen : b.locked c = false) :
      Edit b (b.setCallbacks c (b.callbacks c ++ [callback]))

namespace World

/-- Builders know only children that have been given out. -/
def Closed (w : World) : Prop :=
  ∀ id, ∀ entry ∈ (w.builder id).children, entry.2 < w.nextBuilder

/-- One elementary change of a world.  No lock is reported by one. -/
inductive Change (w : World) : World → Prop
  | report (events : List Event) (journal : List Entry)
      (hlocks : Event.locks events = Event.locks w.events) :
      Change w { w with events := events, journal := journal }
  | save (saved : List (String × Fragment)) : Change w { w with saved := saved }
  | mint : Change w { w with nextToken := w.nextToken + 1 }
  | spawn (options : Options) (parent : Option ParentRef)
      (holder : ∀ ref, parent = some ref → ref.id < w.nextBuilder) :
      Change w (w.spawned (.fresh options parent))
  | edit {id : BuilderId} {b : Builder} (hlive : id < w.nextBuilder)
      (hedit : (w.builder id).Edit b) : Change w (w.setBuilder id b)
  | filter {id : BuilderId} (expr : DeferredFragment) (hlive : id < w.nextBuilder)
      (hopen : (w.builder id).locked .wheres = false) :
      Change w
        { w.setBuilder id { w.builder id with
            pending := { (w.builder id).pending with
              wheres := (w.builder id).pending.wheres ++ [expr] } } with
          history := w.history ++ [.filterAccepted id expr] }
  | child {id : BuilderId} (name : String) (child : BuilderId)
      (hlive : id < w.nextBuilder) (hchild : child < w.nextBuilder) :
      Change w
        (w.setBuilder id { w.builder id with
          children := Builder.insertChild name child (w.builder id).children })
  | built {id : BuilderId} (statement : Statement) (hlive : id < w.nextBuilder)
      (hlocked : (w.builder id).locked .wheres = true)
      (hwheres : statement.filter.wheres = (w.builder id).resolved.wheres) :
      Change w { w with history := w.history ++ [.built id statement] }

/-- A chain of elementary changes. -/
abbrev Evolves : World → World → Prop := Relation.ReflTransGen Change

/-- One change is a run of changes. -/
theorem Evolves.of_change {w w' : World} (hchange : w.Change w') : w.Evolves w' :=
  Relation.ReflTransGen.single hchange

/-- A child that is known is the new one or one of the old ones. -/
theorem mem_insertChild {name : String} {id : BuilderId} {entry : String × BuilderId}
    {children : List (String × BuilderId)}
    (hentry : entry ∈ Builder.insertChild name id children) :
    entry.2 = id ∨ entry ∈ children := by
  induction children with
  | nil =>
      simp only [Builder.insertChild, List.mem_singleton] at hentry
      exact Or.inl (by rw [hentry])
  | cons head rest ih =>
      obtain ⟨headName, headId⟩ := head
      simp only [Builder.insertChild] at hentry
      split at hentry
      · rcases List.mem_cons.mp hentry with hhead | hrest
        · exact Or.inl (by rw [hhead])
        · exact Or.inr hrest
      · rcases List.mem_cons.mp hentry with hhead | hrest
        · exact Or.inr (by simp [hhead])
        · exact (ih hrest).imp_right (List.mem_cons_of_mem _)

/-- Ids are never given back. -/
theorem Change.nextBuilder_le {w w' : World} (hchange : w.Change w') :
    w.nextBuilder ≤ w'.nextBuilder := by
  cases hchange with
  | spawn options parent => exact Nat.le_succ _
  | _ => exact Nat.le_refl _

/-- An edit leaves the children alone. -/
theorem children_of_edit {b b' : Builder} (hedit : b.Edit b') :
    b'.children = b.children := by
  cases hedit <;> rfl

/-- An edit locks nothing and opens nothing. -/
theorem locked_of_edit {b b' : Builder} (hedit : b.Edit b') : b'.locked = b.locked := by
  cases hedit <;> rfl

theorem wheres_of_edit {b b' : Builder} (hedit : b.Edit b') :
    b'.pending.wheres = b.pending.wheres ∧ b'.resolved.wheres = b.resolved.wheres := by
  cases hedit <;> exact ⟨rfl, rfl⟩

/-- An edit may put callbacks behind those that wait. -/
theorem callbacks_of_edit {b b' : Builder} (hedit : b.Edit b') (c : Concern) :
    b.callbacks c <+: b'.callbacks c := by
  cases hedit with
  | callback registered callback hopen =>
      simp only [Builder.setCallbacks]
      split
      · rw [‹c = registered›]
        exact List.prefix_append _ _
      · exact List.prefix_rfl
  | _ => exact List.prefix_rfl

/-- What an elementary change does to a builder that exists: its locks stay as they
are, and callbacks are only added behind the others. -/
theorem Change.builder {w w' : World} (hchange : w.Change w') {id : BuilderId}
    (hlive : id < w.nextBuilder) :
    (w'.builder id).locked = (w.builder id).locked ∧
      ∀ c, (w.builder id).callbacks c <+: (w'.builder id).callbacks c := by
  have hput (changed : BuilderId) (b : Builder)
      (hlocked : b.locked = (w.builder changed).locked)
      (hcallbacks : ∀ c, (w.builder changed).callbacks c <+: b.callbacks c) :
      ((w.setBuilder changed b).builder id).locked = (w.builder id).locked ∧
        ∀ c, (w.builder id).callbacks c <+: ((w.setBuilder changed b).builder id).callbacks c := by
    refine holds_setBuilder (fun b => b.locked = (w.builder id).locked ∧
      ∀ c, (w.builder id).callbacks c <+: b.callbacks c) ?_ ⟨rfl, fun _ => List.prefix_rfl⟩
    rintro rfl -
    exact ⟨hlocked, hcallbacks⟩
  cases hchange with
  | report | save | mint | built => exact ⟨rfl, fun _ => List.prefix_rfl⟩
  | spawn options parent =>
      rw [builder_spawned, if_neg (Nat.ne_of_lt hlive)]
      exact ⟨rfl, fun _ => List.prefix_rfl⟩
  | edit _ hedit => exact hput _ _ (locked_of_edit hedit) (callbacks_of_edit hedit)
  | filter expr _ _ => exact hput _ _ rfl fun _ => List.prefix_rfl
  | child name child _ _ => exact hput _ _ rfl fun _ => List.prefix_rfl

/-- No elementary change locks or opens anything. -/
theorem Change.locked {w w' : World} (hchange : w.Change w') {id : BuilderId}
    (hlive : id < w.nextBuilder) : (w'.builder id).locked = (w.builder id).locked :=
  (hchange.builder hlive).1

/-- The history is only ever added to. -/
theorem Change.history {w w' : World} (hchange : w.Change w') : w.history <+: w'.history := by
  cases hchange with
  | filter | built => exact List.prefix_append _ _
  | _ => exact List.prefix_rfl

/-- Nothing is settled by an elementary change. -/
theorem Change.settled {w w' : World} (hchange : w.Change w') {id : BuilderId} {c : Concern}
    (hsettled : .settled id c ∈ w'.history) : .settled id c ∈ w.history := by
  cases hchange with
  | filter | built => simpa using hsettled
  | _ => exact hsettled

/-- Putting a builder whose children are given out into a closed world leaves it
closed. -/
theorem Closed.setBuilder {w : World} (hclosed : w.Closed) (id : BuilderId) {b : Builder}
    (hchildren : ∀ entry ∈ b.children, entry.2 < w.nextBuilder) :
    (w.setBuilder id b).Closed :=
  fun other => holds_setBuilder (∀ entry ∈ ·.children, entry.2 < w.nextBuilder)
    (fun _ _ => hchildren) (hclosed other)

/-- In a closed world children have ids that have been given out. -/
theorem Closed.child_lt {w : World} (hclosed : w.Closed) {id child : BuilderId}
    {name : String} (hchild : (w.builder id).child name = .ok child) :
    child < w.nextBuilder := by
  rw [Builder.child] at hchild
  split at hchild
  · cases hchild
    obtain ⟨before, behind, hsplit, _⟩ := List.lookup_eq_some_iff.mp ‹_›
    exact hclosed id (name, child) (by rw [hsplit]; simp)
  · cases hchild

/-- A change leaves a closed world closed. -/
theorem Change.closed {w w' : World} (hchange : w.Change w') (hclosed : w.Closed) :
    w'.Closed := by
  cases hchange with
  | report events journal hlocks => exact hclosed
  | save saved => exact hclosed
  | mint => exact hclosed
  | built statement hlive hlocked hwheres => exact hclosed
  | spawn options parent =>
      have hspawned : (w.setBuilder w.nextBuilder (.fresh options parent)).Closed :=
        hclosed.setBuilder _ fun entry hentry => nomatch hentry
      intro id entry hentry
      exact Nat.lt_succ_of_lt (hspawned id entry hentry)
  | @edit id b hlive hedit =>
      apply hclosed.setBuilder id
      intro entry hentry
      rw [children_of_edit hedit] at hentry
      exact hclosed id entry hentry
  | @filter id expr hlive hopen => exact hclosed.setBuilder id (hclosed id)
  | @child id name child hlive hchild =>
      apply hclosed.setBuilder id
      intro entry hentry
      rcases mem_insertChild hentry with hnew | hold
      · rw [hnew]
        exact hchild
      · exact hclosed id entry hold

theorem Evolves.nextBuilder_le {w w' : World} (hevolves : w.Evolves w') :
    w.nextBuilder ≤ w'.nextBuilder := by
  induction hevolves with
  | refl => exact Nat.le_refl _
  | tail _ hchange ih => exact Nat.le_trans ih hchange.nextBuilder_le

/-- A run of changes leaves a closed world closed. -/
theorem Evolves.closed {w w' : World} (hevolves : w.Evolves w') (hclosed : w.Closed) :
    w'.Closed := by
  induction hevolves with
  | refl => exact hclosed
  | tail _ hchange ih => exact hchange.closed ih

end World

namespace Action

variable {α β : Type} {id : BuilderId} {w : World}

open World (Evolves)

/-- Actions that change the world step by step. -/
theorem evolves_bind {action : Action α} {next : α → Action β}
    (haction : w.Evolves (action.exec id w).2)
    (hnext : ∀ a w', action.exec id w = (.ok a, w') → w'.Evolves ((next a).exec id w').2) :
    w.Evolves ((action >>= next).exec id w).2 := by
  rw [exec_bind]
  rcases hrun : action.exec id w with ⟨_ | a, w'⟩
  · rw [hrun] at haction
    exact haction
  · rw [hrun] at haction
    exact haction.trans (hnext a w' hrun)

/-- What comes behind the check of a concern may count on it to be open. -/
theorem evolves_checkLock_bind {c : Concern} {next : Unit → Action α}
    (hnext : (w.builder id).locked c = false → w.Evolves ((next ()).exec id w).2) :
    w.Evolves ((checkLock c >>= next).exec id w).2 := by
  cases hlocked : (w.builder id).locked c with
  | true => rw [exec_checkLock_bind_locked next hlocked]
  | false =>
      rw [exec_checkLock_bind next hlocked]
      exact hnext hlocked

theorem evolves_ofExcept_bind {value : Except Error α} {next : α → Action β}
    (hnext : ∀ a, value = .ok a → w.Evolves ((next a).exec id w).2) :
    w.Evolves ((ofExcept value >>= next).exec id w).2 := by
  cases value with
  | error e => exact Relation.ReflTransGen.refl
  | ok a => exact hnext a rfl

/-- What comes behind a look at the builder may count on what was seen. -/
theorem evolves_self_bind {next : Builder → Action α}
    (hnext : w.Evolves ((next (w.builder id)).exec id w).2) :
    w.Evolves ((self >>= next).exec id w).2 := hnext

/-- What comes behind a guard may count on it. -/
theorem evolves_refuse_or {p : Prop} [Decidable p] {e : Error} {next : Unit → Action α}
    (hnext : ¬p → w.Evolves ((next ()).exec id w).2) :
    w.Evolves ((if p then refuse e >>= next else next ()).exec id w).2 := by
  split
  · exact Relation.ReflTransGen.refl
  · exact hnext ‹_›

/-- A selection that is accepted leaves the select list open. -/
theorem open_of_select {expr : DeferredFragment} {name : String} {w' : World}
    (hrun : (select expr name).exec id w = (.ok (), w')) :
    (w'.builder id).locked .select = false ∧ w'.nextBuilder = w.nextBuilder := by
  cases hlocked : (w.builder id).locked .select with
  | true =>
      rw [select, exec_checkLock_bind_locked _ hlocked] at hrun
      cases hrun
  | false =>
      rw [select, exec_checkLock_bind _ hlocked, exec_bind, exec_ofExcept] at hrun
      cases hname : checkName name with
      | error e =>
          rw [hname] at hrun
          cases hrun
      | ok _ =>
          rw [hname] at hrun
          cases hrun
          exact ⟨by simpa using hlocked, rfl⟩

variable (hlive : id < w.nextBuilder)

include hlive

/-- An edit of the builder is a change of the world. -/
theorem evolves_update {change : Builder → Builder}
    (hedit : (w.builder id).Edit (change (w.builder id))) :
    w.Evolves ((update change).exec id w).2 :=
  Evolves.of_change (.edit hlive hedit)

/-- A callback is put behind those of its concern, which is open. -/
theorem evolves_beforeLock (c : Concern) (callback : Callback) :
    w.Evolves ((beforeLock c callback).exec id w).2 :=
  evolves_checkLock_bind fun hopen => evolves_update hlive (.callback c callback hopen)

/-- A field is put behind those that wait; its name is checked. -/
theorem evolves_select (expr : DeferredFragment) (name : String) :
    w.Evolves ((select expr name).exec id w).2 :=
  evolves_checkLock_bind fun hopen =>
    evolves_ofExcept_bind fun _ hname => evolves_update hlive (.select ⟨expr, name⟩ hopen hname)

theorem evolves_selectIdentifiers (primaryKey : List String) :
    w.Evolves ((selectIdentifiers primaryKey).exec id w).2 := by
  apply evolves_checkLock_bind
  intro _
  rw [exec_bind_ok exec_self, exec_ite]
  split
  · exact Relation.ReflTransGen.refl
  · refine evolves_ofExcept_bind fun table _ =>
      evolves_bind (evolves_select hlive _ _) fun _ w' hselect => ?_
    obtain ⟨hopen, hsame⟩ := open_of_select hselect
    exact evolves_update (hsame ▸ hlive) (.identifiersSelected hopen)

theorem evolves_selectCursor (expr : DeferredFragment) :
    w.Evolves ((selectCursor expr).exec id w).2 :=
  evolves_checkLock_bind fun hopen => evolves_update hlive (.cursor expr hopen)

theorem evolves_join (clause : Fragment) : w.Evolves ((join clause).exec id w).2 :=
  evolves_checkLock_bind fun hopen => evolves_update hlive (.join clause hopen)

/-- A where is the one registration that is remembered. -/
theorem evolves_filter (expr : DeferredFragment) :
    w.Evolves ((filter expr).exec id w).2 :=
  evolves_checkLock_bind fun hopen => Evolves.of_change (.filter expr hlive hopen)

theorem evolves_bound (condition : Cursor.Bound) (isLower : Bool) :
    w.Evolves ((bound condition isLower).exec id w).2 := by
  apply evolves_checkLock_bind
  intro hopen
  cases isLower with
  | true => exact evolves_update hlive (.lowerBound condition hopen)
  | false => exact evolves_update hlive (.upperBound condition hopen)

/-- A term is put behind those that wait. -/
theorem evolves_orderBy (expr : DeferredFragment) (ascending : Bool)
    (nulls : Option NullsOrder) :
    w.Evolves ((orderBy expr ascending nulls).exec id w).2 :=
  evolves_checkLock_bind fun hopen =>
    evolves_update hlive (.orderBy ⟨expr, ascending, nulls⟩ hopen)

theorem evolves_setOrderUnique : w.Evolves (setOrderUnique.exec id w).2 :=
  evolves_checkLock_bind fun hopen => evolves_update hlive (.orderUnique hopen)

/-- A limit is put where there was none. -/
theorem evolves_limit (n : DeferredCount) : w.Evolves ((limit n).exec id w).2 := by
  refine evolves_checkLock_bind fun hopen =>
    evolves_self_bind (evolves_refuse_or fun hset => ?_)
  exact evolves_update hlive (.limit n hopen (by simpa using hset))

theorem evolves_offset (n : DeferredCount) : w.Evolves ((offset n).exec id w).2 :=
  evolves_checkLock_bind fun hopen => evolves_update hlive (.offset n hopen)

theorem evolves_first (n : Nat) : w.Evolves ((first n).exec id w).2 := by
  refine evolves_checkLock_bind fun hopen =>
    evolves_self_bind (evolves_refuse_or fun hset => ?_)
  exact evolves_update hlive (.first n hopen (by simpa using hset))

theorem evolves_last (n : Nat) : w.Evolves ((last n).exec id w).2 := by
  refine evolves_checkLock_bind fun hopen =>
    evolves_self_bind (evolves_refuse_or fun hset => ?_)
  exact evolves_update hlive (.last n hopen (by simpa using hset))

theorem evolves_setCursorTag (tag : String) :
    w.Evolves ((setCursorTag tag).exec id w).2 :=
  evolves_checkLock_bind fun hopen => evolves_update hlive (.cursorTag tag hopen)

/-- A row source is put in place of any other, with a new token if it has no alias. -/
theorem evolves_registerSource (table : Fragment) (rowAlias : Option Node) :
    w.Evolves ((registerSource table rowAlias).exec id w).2 := by
  apply evolves_checkLock_bind
  intro hopen
  cases rowAlias with
  | some rowAlias =>
      exact Evolves.of_change (.edit hlive (.source table rowAlias hopen))
  | none =>
      have hedit := World.Change.edit (w := { w with nextToken := w.nextToken + 1 }) hlive
        (.source table (aliasNode ⟨w.nextToken⟩) hopen)
      exact (Evolves.of_change .mint).trans (Evolves.of_change hedit)

theorem evolves_registerComparator (comparator : Comparator) :
    w.Evolves ((registerComparator comparator).exec id w).2 :=
  evolves_checkLock_bind fun hopen => evolves_update hlive (.comparator comparator hopen)

/-- A cursor is put into the queue of the bounds. -/
theorem evolves_addCursorCondition (cursor : List Json) (isAfter : Bool) :
    w.Evolves ((addCursorCondition cursor isAfter).exec id w).2 :=
  evolves_beforeLock hlive _ _

end Action

end PageQuery
