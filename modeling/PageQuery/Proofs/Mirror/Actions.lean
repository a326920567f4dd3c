import PageQuery.Proofs.Mirror.Builders
import PageQuery.Proofs.Run.Exec

/-!
# Actions that mirror each other

Two runs start from worlds that are alike, and each does what the other does.  They part only
if the cursors of the builder of interest come to be read as positions, since then the values
in a cursor decide where a page begins.  That the cursors are positions can never be undone,
so a run in which it has not come to that never parted from the other one.
-/

namespace PageQuery

open Sql

/-- What of a builder stays as it is once it has been settled. -/
structure Builder.Later (b b' : Builder) : Prop where
  locked : ∀ c, b.locked c = true → b'.locked c = true
  unique : b.locked .uniqueness = true → b'.orderIsUnique = b.orderIsUnique
  comparator : b.locked .comparator = true → b'.resolved.comparator = b.resolved.comparator

namespace Builder.Later

variable {b b' b'' : Builder}

/-- Nothing has changed. -/
theorem refl (b : Builder) : b.Later b := ⟨fun _ h => h, fun _ => rfl, fun _ => rfl⟩

theorem trans (hfirst : b.Later b') (hsecond : b'.Later b'') : b.Later b'' where
  locked c h := hsecond.locked c (hfirst.locked c h)
  unique h := (hsecond.unique (hfirst.locked _ h)).trans (hfirst.unique h)
  comparator h := (hsecond.comparator (hfirst.locked _ h)).trans (hfirst.comparator h)

/-- What matters of the builder is what it was. -/
theorem of_same (hlocked : b'.locked = b.locked) (hunique : b'.orderIsUnique = b.orderIsUnique)
    (hcomparator : b'.resolved.comparator = b.resolved.comparator) : b.Later b' :=
  ⟨fun _ h => by rw [hlocked, h], fun _ => hunique, fun _ => hcomparator⟩

end Builder.Later

namespace World

/-- A world behind another one, for the builder of interest. -/
structure Later (own : BuilderId) (w w' : World) : Prop where
  grows : w.nextBuilder ≤ w'.nextBuilder
  builder : own < w.nextBuilder → (w.builder own).Later (w'.builder own)

/-- The cursors of a builder are positions: its order is settled not to tell rows apart, or its
cursors are settled to be compared as positions. -/
def Positional (own : BuilderId) (w : World) : Prop :=
  own < w.nextBuilder ∧
    ((w.builder own).locked .uniqueness = true ∧ (w.builder own).orderIsUnique = false ∨
      (w.builder own).locked .comparator = true ∧
        (w.builder own).resolved.comparator = some (.kind .natural))

namespace Later

variable {own : BuilderId} {w w' w'' : World}

theorem refl (w : World) : w.Later own w := ⟨Nat.le_refl _, fun _ => .refl _⟩

theorem trans (hfirst : w.Later own w') (hsecond : w'.Later own w'') : w.Later own w'' where
  grows := Nat.le_trans hfirst.grows hsecond.grows
  builder hlive :=
    (hfirst.builder hlive).trans (hsecond.builder (Nat.lt_of_lt_of_le hlive hfirst.grows))

/-- That cursors are positions can never be undone. -/
theorem positional (hlater : w.Later own w') (hpositional : w.Positional own) :
    w'.Positional own := by
  obtain ⟨hlive, hcase⟩ := hpositional
  have hbuilder := hlater.builder hlive
  refine ⟨Nat.lt_of_lt_of_le hlive hlater.grows, ?_⟩
  rcases hcase with ⟨hlocked, hunique⟩ | ⟨hlocked, hnatural⟩
  · exact .inl ⟨hbuilder.locked _ hlocked, (hbuilder.unique hlocked).trans hunique⟩
  · exact .inr ⟨hbuilder.locked _ hlocked, (hbuilder.comparator hlocked).trans hnatural⟩

/-- A builder is replaced by a later one. -/
theorem setBuilder {id : BuilderId} {b : Builder} (hb : (w.builder id).Later b) :
    w.Later own (w.setBuilder id b) := by
  refine ⟨Nat.le_refl _, fun _ => holds_setBuilder (w.builder own).Later ?_ (.refl _)⟩
  rintro rfl -
  exact hb

/-- A new builder is never the one of interest. -/
theorem spawned (b : Builder) : w.Later own (w.spawned b) := by
  refine ⟨Nat.le_succ _, fun hlive => ?_⟩
  rw [builder_spawned, if_neg (Nat.ne_of_lt hlive)]
  exact .refl _

end Later

/-- Both builders have the same id and are alike. -/
def SameEntry (R : Json → Json → Prop) (own : BuilderId) (entry entry' : BuilderId × Builder) :
    Prop :=
  entry'.1 = entry.1 ∧ entry.2.Alike R own entry.1 entry'.2

/-- The builders are alike, and so are the fragments that are saved.  What is reported is not
compared, since nothing reads it. -/
structure Alike (R : Json → Json → Prop) (own : BuilderId) (w w' : World) : Prop where
  live : own < w.nextBuilder
  builders : List.Forall₂ (SameEntry R own) w.builders w'.builders
  nextBuilder : w'.nextBuilder = w.nextBuilder
  nextToken : w'.nextToken = w.nextToken
  saved : PageQuery.Alike (.values R) w.saved w'.saved

namespace Alike

variable {R : Json → Json → Prop} {own : BuilderId} {w w' : World}

/-- A world is like itself, provided that the builder of interest is there. -/
theorem refl (hlive : own < w.nextBuilder) : w.Alike R own w where
  live := hlive
  builders := List.forall₂_same.mpr fun _ _ => ⟨rfl, .refl _⟩
  nextBuilder := rfl
  nextToken := rfl
  saved := .refl_values _

/-- Under the same id alike worlds have alike builders. -/
theorem builder (h : w.Alike R own w') (id : BuilderId) :
    (w.builder id).Alike R own id (w'.builder id) :=
  builder_of_forall₂ (S := fun i b b' => b.Alike R own i b') h.builders (.refl _)

/-- Alike builders are put under the same id. -/
theorem replace {builders builders' : List (BuilderId × Builder)}
    (h : List.Forall₂ (SameEntry R own) builders builders') {id : BuilderId} {b b' : Builder}
    (hb : b.Alike R own id b') :
    List.Forall₂ (SameEntry R own) (World.replace id b builders)
      (World.replace id b' builders') :=
  forall₂_replace (S := fun i b b' => b.Alike R own i b') h hb

theorem setBuilder (h : w.Alike R own w') {id : BuilderId} {b b' : Builder}
    (hb : b.Alike R own id b') : (w.setBuilder id b).Alike R own (w'.setBuilder id b') :=
  { h with builders := replace h.builders hb }

theorem spawned (h : w.Alike R own w') {b b' : Builder}
    (hb : b.Alike R own w.nextBuilder b') : (w.spawned b).Alike R own (w'.spawned b') where
  live := Nat.lt_succ_of_lt h.live
  builders := by
    change List.Forall₂ _ (World.replace w.nextBuilder b w.builders)
      (World.replace w'.nextBuilder b' w'.builders)
    rw [h.nextBuilder]
    exact replace h.builders hb
  nextBuilder := congrArg (· + 1) h.nextBuilder
  nextToken := h.nextToken
  saved := h.saved

/-- Expressions are evaluated in alike scopes. -/
theorem scope (h : w.Alike R own w') (id : BuilderId) :
    PageQuery.Alike (.values R)
      (⟨(w.builder id).tableAlias, (w.builder id).parentAlias, w.saved⟩ : Scope)
      ⟨(w'.builder id).tableAlias, (w'.builder id).parentAlias, w'.saved⟩ :=
  (h.builder id).scope h.saved

end Alike

end World

namespace Action

/-- The first action on a builder does in a world what the second does in an alike one, unless
the cursors of the builder of interest come to be positions. -/
structure Mirrors {α : Type} [Likeness α] (R : Json → Json → Prop) (own id : BuilderId)
    (action action' : Action α) : Prop where
  later (w : World) : w.Later own (action.exec id w).2
  follows {w w' : World} (h : w.Alike R own w') :
    (action.exec id w).2.Positional own ∨
      Alike (.values R) (action.exec id w).1 (action'.exec id w').1 ∧
        (action.exec id w).2.Alike R own (action'.exec id w').2

namespace Mirrors

variable {α β γ : Type} [Likeness α] [Likeness β] {R : Json → Json → Prop} {own id : BuilderId}

/-- Both runs answer, and the answers are alike. -/
theorem pure {a a' : α} (h : Alike (.values R) a a') : Mirrors R own id (pure a) (pure a') :=
  ⟨fun w => .refl w, fun hworld => .inr ⟨.ok h, hworld⟩⟩

theorem refuse (e : Error) : Mirrors R own id (refuse e : Action α) (refuse e) :=
  ⟨fun w => .refl w, fun hworld => .inr ⟨.error _, hworld⟩⟩

theorem exhaust : Mirrors R own id (exhaust : Action α) exhaust :=
  ⟨fun w => .refl w, fun hworld => .inr ⟨.error _, hworld⟩⟩

theorem ofExcept {value value' : Except Error α} (h : Alike (.values R) value value') :
    Mirrors R own id (ofExcept value) (ofExcept value') := by
  cases h with
  | ok ha => exact pure ha
  | error e => exact refuse e

/-- What the actions change in the worlds is compared with the rest of them. -/
theorem of_changes {action action' : Action Unit} {change change' : World → World}
    (hrun : ∀ w, action.exec id w = (.ok (), change w))
    (hrun' : ∀ w, action'.exec id w = (.ok (), change' w))
    (hlater : ∀ w : World, w.Later own (change w))
    (hchange : ∀ w w' : World, w.Alike R own w' → (change w).Alike R own (change' w')) :
    Mirrors R own id action action' where
  later w := by
    rw [hrun]
    exact hlater w
  follows {w w'} hworld := by
    rw [hrun, hrun']
    exact .inr ⟨.refl_values _, hchange w w' hworld⟩

/-! Reports, which nothing reads -/

/-- Two runs may report different events. -/
theorem log (event event' : Event) : Mirrors R own id (log event) (log event') :=
  of_changes (fun _ => rfl) (fun _ => rfl) (fun _ => ⟨Nat.le_refl _, fun _ => .refl _⟩)
    fun _ _ hworld => { hworld with }

theorem record (entry entry' : Entry) : Mirrors R own id (record entry) (record entry') :=
  of_changes (fun _ => rfl) (fun _ => rfl) (fun _ => ⟨Nat.le_refl _, fun _ => .refl _⟩)
    fun _ _ hworld => { hworld with }

/-- Two runs may remember different moments. -/
theorem remember (moment moment' : Moment) :
    Mirrors R own id (remember moment) (remember moment') :=
  of_changes (fun _ => rfl) (fun _ => rfl) (fun _ => ⟨Nat.le_refl _, fun _ => .refl _⟩)
    fun _ _ hworld => { hworld with }

/-- Alike fragments are saved under the same name. -/
theorem save (name : String) {f f' : Fragment} (h : Alike (.values R) f f') :
    Mirrors R own id (save name f) (save name f') :=
  of_changes (fun _ => rfl) (fun _ => rfl) (fun _ => ⟨Nat.le_refl _, fun _ => .refl _⟩)
    fun _ _ hworld => { hworld with saved := .cons ⟨rfl, h⟩ hworld.saved }

/-- Both runs have given out the same tokens so far, so they give out the same one next. -/
theorem mintToken : Mirrors R own id mintToken mintToken where
  later _ := ⟨Nat.le_refl _, fun _ => .refl _⟩
  follows {w w'} hworld := by
    rw [exec_mintToken, exec_mintToken, hworld.nextToken]
    exact .inr ⟨.refl_values _, { hworld with nextToken := rfl }⟩

/-! Changes -/

/-- The builder is changed in both runs, and in the first one to a later builder. -/
theorem update {change change' : Builder → Builder}
    (hchange : ∀ b b', b.Alike R own id b' → (change b).Alike R own id (change' b'))
    (hlater : ∀ b : Builder, b.Later (change b)) :
    Mirrors R own id (update change) (update change') :=
  of_changes (fun _ => rfl) (fun _ => rfl) (fun w => .setBuilder (hlater (w.builder id)))
    fun _ _ hworld => hworld.setBuilder (hchange _ _ (hworld.builder id))

/-- A change of nothing that stays as it is once it has been settled. -/
theorem register {change change' : Builder → Builder}
    (hchange : ∀ b b', b.Alike R own id b' → (change b).Alike R own id (change' b'))
    (hkept : ∀ b, (change b).locked = b.locked ∧ (change b).orderIsUnique = b.orderIsUnique ∧
      (change b).resolved.comparator = b.resolved.comparator) :
    Mirrors R own id (Action.update change) (Action.update change') :=
  update hchange fun b => .of_same (hkept b).1 (hkept b).2.1 (hkept b).2.2

/-- Both runs give the new builder the same id. -/
theorem spawn {b b' : Builder} (h : ∀ id, b.Alike R own id b') :
    Mirrors R own id (spawn b) (spawn b') where
  later _ := .spawned b
  follows {w w'} hworld := by
    rw [exec_spawn, exec_spawn, hworld.nextBuilder]
    exact .inr ⟨.refl_values _, hworld.spawned (h _)⟩

/-! Actions out of others -/

/-- Of two actions, the second may make use of what the first one has brought about. -/
theorem bind_of {action action' : Action α} {next next' : α → Action β}
    (hfirst : Mirrors R own id action action')
    (hlater : ∀ a (w : World), w.Later own ((next a).exec id w).2)
    (hnext : ∀ (w w₁ : World) (a a' : α), own < w.nextBuilder →
      action.exec id w = (.ok a, w₁) → Alike (.values R) a a' →
        w₁.Positional own ∨ Mirrors R own id (next a) (next' a')) :
    Mirrors R own id (action >>= next) (action' >>= next') where
  later w := by
    have hfirst := hfirst.later w
    rw [exec_bind]
    generalize action.exec id w = result at hfirst ⊢
    rcases result with ⟨halt | a, w₁⟩
    · exact hfirst
    · exact hfirst.trans (hlater a w₁)
  follows {w w'} hworld := by
    have hresult := hfirst.follows hworld
    have hrun := hnext w
    rw [exec_bind, exec_bind]
    generalize action.exec id w = result, action'.exec id w' = result' at hresult hrun ⊢
    obtain ⟨value, w₁⟩ := result
    obtain ⟨value', w₁'⟩ := result'
    rcases hresult with hpositional | ⟨hvalue, hworld₁⟩
    · cases value with
      | error halt => exact .inl hpositional
      | ok a => exact .inl ((hlater a w₁).positional hpositional)
    · cases hvalue with
      | error halt => exact .inr ⟨.error halt, hworld₁⟩
      | ok ha =>
          rcases hrun w₁ _ _ hworld.live rfl ha with hpositional | hmirrors
          · exact .inl ((hlater _ w₁).positional hpositional)
          · exact hmirrors.follows hworld₁

/-- One action behind another. -/
theorem bind {action action' : Action α} {next next' : α → Action β}
    (hfirst : Mirrors R own id action action')
    (hnext : ∀ a a', Alike (.values R) a a' → Mirrors R own id (next a) (next' a')) :
    Mirrors R own id (action >>= next) (action' >>= next') := by
  apply hfirst.bind_of
  · exact fun a => (hnext a a (.refl_values a)).later
  · exact fun _ _ a a' _ _ ha => .inr (hnext a a' ha)

/-- The first actions give what holds no fragments. -/
theorem bind_plain [Likeness.Plain α] {action action' : Action α} {next next' : α → Action β}
    (hfirst : Mirrors R own id action action')
    (hnext : ∀ a, Mirrors R own id (next a) (next' a)) :
    Mirrors R own id (action >>= next) (action' >>= next') := by
  refine hfirst.bind fun a a' ha => ?_
  obtain rfl := ha.plain
  exact hnext a

/-- Both runs look at their own builder, and the two are alike. -/
theorem self_bind {next next' : Builder → Action α}
    (hnext : ∀ b b', b.Alike R own id b' → Mirrors R own id (next b) (next' b')) :
    Mirrors R own id (self >>= next) (self >>= next') where
  later w := (hnext _ _ (.refl (w.builder id))).later w
  follows hworld := (hnext _ _ (hworld.builder id)).follows hworld

theorem read_bind {next next' : BuilderId → Action α}
    (hnext : Mirrors R own id (next id) (next' id)) :
    Mirrors R own id (MonadReader.read >>= next) (MonadReader.read >>= next') :=
  ⟨hnext.later, hnext.follows⟩

theorem ite {p : Prop} [Decidable p] {yes yes' no no' : Action α}
    (hyes : Mirrors R own id yes yes') (hno : Mirrors R own id no no') :
    Mirrors R own id (if p then yes else no) (if p then yes' else no') := by
  split
  · exact hyes
  · exact hno

/-- An action that comes first only under a condition. -/
theorem ite_bind {p : Prop} [Decidable p] {first first' : Action Unit}
    {next next' : Unit → Action α} (hfirst : Mirrors R own id first first')
    (hnext : Mirrors R own id (next ()) (next' ())) :
    Mirrors R own id (if p then first >>= next else next ())
      (if p then first' >>= next' else next' ()) :=
  ite (hfirst.bind_plain fun _ => hnext) hnext

/-- An error that is caught is the same in both runs. -/
theorem attempt {action action' : Action α} (h : Mirrors R own id action action') :
    Mirrors R own id (attempt action) (attempt action') where
  later w := by
    have hlater := h.later w
    rw [exec_attempt]
    generalize action.exec id w = result at hlater ⊢
    rcases result with ⟨(e | _) | a, w₁⟩ <;> exact hlater
  follows {w w'} hworld := by
    have hresult := h.follows hworld
    rw [exec_attempt, exec_attempt]
    generalize action.exec id w = result, action'.exec id w' = result' at hresult ⊢
    obtain ⟨value, w₁⟩ := result
    obtain ⟨value', w₁'⟩ := result'
    rcases hresult with hpositional | ⟨hvalue, hworld₁⟩
    · rcases value with (e | _) | a <;> exact .inl hpositional
    · cases hvalue with
      | ok ha => exact .inr ⟨.ok (.ok ha), hworld₁⟩
      | error halt =>
          cases halt with
          | refused e => exact .inr ⟨.ok (.error e), hworld₁⟩
          | aborted reason => exact .inr ⟨.error _, hworld₁⟩

/-- Alike items are gone through one by one. -/
theorem mapM {S : γ → γ → Prop} {f f' : γ → Action α} {items items' : List γ}
    (h : List.Forall₂ S items items') (hitem : ∀ c c', S c c' → Mirrors R own id (f c) (f' c')) :
    Mirrors R own id (items.mapM f) (items'.mapM f') := by
  induction h with
  | nil => exact pure .nil
  | cons hfirst _ ih =>
      rw [List.mapM_cons, List.mapM_cons]
      refine (hitem _ _ hfirst).bind fun _ _ ha => ?_
      refine ih.bind fun _ _ hrest => ?_
      exact pure (.cons ha hrest)

theorem mapM_option {S : γ → γ → Prop} {f f' : γ → Action α} {item item' : Option γ}
    (h : Option.Rel S item item') (hitem : ∀ c c', S c c' → Mirrors R own id (f c) (f' c')) :
    Mirrors R own id (item.mapM f) (item'.mapM f') := by
  cases h with
  | none => exact pure .none
  | some h =>
      refine (hitem _ _ h).bind fun _ _ ha => ?_
      exact pure (.some ha)

/-- An action on another builder, which need not be the one of interest. -/
theorem within {action action' : Action α} {other : BuilderId}
    (h : Mirrors R own other action action') :
    Mirrors R own id (within other action) (within other action') :=
  ⟨h.later, h.follows⟩

/-! Expressions -/

/-- Actions that only ask part nowhere. -/
theorem of_outcome {action : Action α} {value : World → Except Halt α}
    (hrun : ∀ w, action.exec id w = (value w, w))
    (hvalue : ∀ w w' : World, w.Alike R own w' → Alike (.values R) (value w) (value w')) :
    Mirrors R own id action action where
  later w := by
    rw [hrun]
    exact .refl w
  follows {w w'} hworld := by
    rw [hrun, hrun]
    exact .inr ⟨hvalue w w' hworld, hworld⟩

/-- Expressions give alike fragments. -/
theorem evaluate (expr : Expr) : Mirrors R own id (evaluate expr) (evaluate expr) :=
  of_outcome (fun _ => exec_evaluate expr) fun _ _ hworld =>
    (hworld.scope id).eval fun _ _ => trivial

theorem evaluateNode (node : NodeExpr) :
    Mirrors R own id (evaluateNode node) (evaluateNode node) := by
  refine of_outcome (fun _ => exec_evaluateNode node) fun _ _ hworld => ?_
  have htokens : ∀ t ∈ node.tokens, (Variation.values R).token t := fun _ _ => trivial
  have hnode := (hworld.scope id).evalNode htokens
  exact hnode.mapError Halt.refused

end Mirrors

end Action

end PageQuery
