import PageQuery.Proofs.Mirror.Actions

/-!
# Changes mirror each other

One lemma for each change: registrations of alike fragments leave alike builders alike.  A
change is given twice what may differ between two runs.
-/

namespace PageQuery

open Sql

namespace Action.Mirrors

variable {R : Json → Json → Prop} {own id : BuilderId}

/-- A change that is refused where its concern is locked. -/
theorem checked {c : Concern} {action action' : Action Unit}
    (h : Mirrors R own id action action') :
    Mirrors R own id (checkLock c >>= fun _ => action) (checkLock c >>= fun _ => action') := by
  have hcheck : Mirrors R own id (checkLock c) (checkLock c) := by
    refine self_bind fun b b' hb => ?_
    rw [hb.locked]
    exact ite (refuse _) (pure (.refl_values _))
  exact hcheck.bind_plain fun _ => h

/-- A change of what waits. -/
theorem await {p p' : Builder → Pending}
    (hp : ∀ b b', b.Alike R own id b' → (p b).Alike R own (p' b')) :
    Mirrors R own id (Action.update fun b => { b with pending := p b })
      (Action.update fun b => { b with pending := p' b }) :=
  register (fun b b' hb => hb.setPending (hp b b' hb)) fun _ => ⟨rfl, rfl, rfl⟩

/-- Alike callbacks join the queues of the same concern. -/
theorem beforeLock (c : Concern) {callback callback' : Callback}
    (h : callback.Like (.mirror R own) 0 id callback') :
    Mirrors R own id (beforeLock c callback) (beforeLock c callback') := by
  refine checked (register (fun b b' hb => ?_) fun _ => ⟨rfl, rfl, rfl⟩)
  exact hb.setCallbacks c (List.rel_append (hb.callbacks c) (.cons h .nil))

/-- Alike expressions are selected under the same name. -/
theorem select {expr expr' : DeferredFragment} (h : expr.Like (.mirror R own) 0 expr')
    (name : String) : Mirrors R own id (select expr name) (select expr' name) := by
  have hfield : PendingField.Alike R own ⟨expr, name⟩ ⟨expr', name⟩ := ⟨h, rfl⟩
  refine checked ((ofExcept (.of_plain _)).bind_plain fun _ => await fun b b' hb => ?_)
  exact { hb.pending with selects := List.rel_append hb.pending.selects (.cons hfield .nil) }

theorem selectIdentifiers (primaryKey : List String) :
    Mirrors R own id (selectIdentifiers primaryKey) (selectIdentifiers primaryKey) := by
  refine checked (self_bind fun b b' hb => ?_)
  rw [hb.identifiersSelected]
  refine ite (pure (.refl_values _)) ((ofExcept hb.tableAlias).bind fun table table' htable => ?_)
  refine (select (.ready (htable.identifiers primaryKey)) _).bind_plain fun _ => ?_
  exact register (fun _ _ hb => { hb with identifiersSelected := rfl }) fun _ => ⟨rfl, rfl, rfl⟩

/-- Alike wheres are appended. -/
theorem filter {expr expr' : DeferredFragment} (h : expr.Like (.mirror R own) 0 expr') :
    Mirrors R own id (filter expr) (filter expr') := by
  refine checked (bind_plain (await fun b b' hb => ?_) fun _ => read_bind (remember _ _))
  exact { hb.pending with wheres := List.rel_append hb.pending.wheres (.cons h .nil) }

/-- Alike bounds join those of the same side. -/
theorem bound {condition condition' : Cursor.Bound} (h : Alike (.values R) condition condition')
    (isLower : Bool) : Mirrors R own id (bound condition isLower) (bound condition' isLower) := by
  cases isLower with
  | true =>
      refine checked (register (fun b b' hb => ?_) fun _ => ⟨rfl, rfl, rfl⟩)
      exact { hb with lower := hb.lower.concat h }
  | false =>
      refine checked (register (fun b b' hb => ?_) fun _ => ⟨rfl, rfl, rfl⟩)
      exact { hb with upper := hb.upper.concat h }

/-- The uniqueness of an order can be declared only while it is open. -/
theorem setOrderUnique : Mirrors R own id setOrderUnique setOrderUnique where
  later w := by
    cases hlocked : (w.builder id).locked .uniqueness with
    | true =>
        rw [Action.setOrderUnique, exec_checkLock_bind_locked _ hlocked]
        exact .refl w
    | false =>
        rw [Action.setOrderUnique, exec_checkLock_bind _ hlocked]
        exact .setBuilder ⟨fun _ h => h, fun h => absurd h (by simp [hlocked]), fun _ => rfl⟩
  follows {w w'} hworld := by
    have hsame := congrFun (hworld.builder id).locked .uniqueness
    cases hlocked : (w.builder id).locked .uniqueness with
    | true =>
        rw [Action.setOrderUnique, exec_checkLock_bind_locked _ hlocked,
          exec_checkLock_bind_locked _ (hsame.trans hlocked)]
        exact .inr ⟨.error _, hworld⟩
    | false =>
        rw [Action.setOrderUnique, exec_checkLock_bind _ hlocked,
          exec_checkLock_bind _ (hsame.trans hlocked)]
        refine .inr ⟨.refl_values _, hworld.setBuilder ?_⟩
        exact { hworld.builder id with orderIsUnique := rfl }

/-- What is registered on both builders may be registered on both runs. -/
theorem register_like {n : Nat} {call call' : Call} (h : call.Like (.mirror R own) n id call') :
    Mirrors R own id call.action call'.action := by
  cases h with
  | select hexpr name => exact select (Frame.deferred_mirror hexpr) name
  | selectIdentifiers primaryKey => exact selectIdentifiers primaryKey
  | selectCursor hexpr =>
      refine checked (await fun b b' hb => ?_)
      exact { hb.pending with cursor := .some (Frame.deferred_mirror hexpr) }
  | join hclause =>
      refine checked (register (fun b b' hb => ?_) fun _ => ⟨rfl, rfl, rfl⟩)
      exact { hb with joins := hb.joins.concat hclause }
  | filter hexpr => exact filter (Frame.deferred_mirror hexpr)
  | bound hcondition isLower => exact bound hcondition isLower
  | @orderBy expr expr' hexpr ascending nulls =>
      have hterm : PendingTerm.Alike R own ⟨expr, ascending, nulls⟩ ⟨expr', ascending, nulls⟩ :=
        ⟨Frame.deferred_mirror hexpr, rfl, rfl⟩
      refine checked (await fun b b' hb => ?_)
      have horderTerms := List.rel_append hb.pending.orderTerms (.cons hterm .nil)
      exact { hb.pending with orderTerms := horderTerms }
  | setOrderUnique => exact setOrderUnique
  | limit hcount =>
      obtain rfl := hcount.eq Eq.symm
      refine checked (self_bind fun b b' hb => ?_)
      rw [hb.pending.limit]
      refine ite_bind (refuse _) (await fun b b' hb => ?_)
      exact { hb.pending with limit := rfl }
  | offset hcount =>
      obtain rfl := hcount.eq Eq.symm
      refine checked (await fun b b' hb => ?_)
      exact { hb.pending with offsets := congrArg (· ++ _) hb.pending.offsets }
  | first count =>
      refine checked (self_bind fun b b' hb => ?_)
      rw [hb.first]
      refine ite_bind (refuse _) (register (fun b b' hb => ?_) fun _ => ⟨rfl, rfl, rfl⟩)
      exact { hb with first := rfl }
  | last count =>
      refine checked (self_bind fun b b' hb => ?_)
      rw [hb.last]
      refine ite_bind (refuse _) (register (fun b b' hb => ?_) fun _ => ⟨rfl, rfl, rfl⟩)
      exact { hb with last := rfl }
  | setCursorTag tag =>
      refine checked (register (fun b b' hb => ?_) fun _ => ⟨rfl, rfl, rfl⟩)
      exact { hb with cursorTag := rfl }
  | beforeLock c hcallback => exact beforeLock c (Frame.callback_mirror hcallback)

/-- A comparator is the same one in both runs. -/
theorem registerComparator (comparator : Comparator) :
    Mirrors R own id (registerComparator comparator) (registerComparator comparator) := by
  refine checked (await fun b b' hb => ?_)
  exact { hb.pending with comparator := rfl }

theorem aliasOrToken {rowAlias rowAlias' : Option Node}
    (h : Alike (.values R) rowAlias rowAlias') :
    Mirrors R own id (aliasOrToken rowAlias) (aliasOrToken rowAlias') := by
  cases h with
  | some halias => exact pure halias
  | none =>
      refine mintToken.bind fun token token' htoken => ?_
      exact pure htoken.aliasNode

/-- Row sources are alike, with the same token if they have none of their own. -/
theorem registerSource {table table' : Fragment} (htable : Alike (.values R) table table')
    {rowAlias rowAlias' : Option Node} (halias : Alike (.values R) rowAlias rowAlias') :
    Mirrors R own id (registerSource table rowAlias) (registerSource table' rowAlias') := by
  refine checked ((aliasOrToken halias).bind fun _ _ halias => ?_)
  refine register (fun b b' hb => ?_) fun _ => ⟨rfl, rfl, rfl⟩
  exact { hb with source := .some ⟨htable, halias⟩ }

end Action.Mirrors

end PageQuery
