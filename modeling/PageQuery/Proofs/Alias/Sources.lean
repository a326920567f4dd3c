import PageQuery.Proofs.Run.Program
import PageQuery.Proofs.Run.Session

/-!
# The aliases of row sources

Where every alias is left to a token, each row source gets one that was never given out
before.  So builders never share an alias, and what a child knows its parent's row source by
is either still the alias of that source, or the source has been registered anew since.  The
invariant is kept by every instruction of a program, and so by everything that a run does.
-/

namespace PageQuery

open Sql

/-- The row source of the builder has the token as its alias. -/
def Builder.HasAlias (b : Builder) (t : AliasToken) : Prop :=
  ∃ table, b.source = some (table, aliasNode t)

/-- The token of an alias that is nothing but a token. -/
def Sql.Node.aliasToken? : Node → Option AliasToken
  | .identifier [.token t] => some t
  | _ => none

theorem Sql.Node.aliasToken?_eq_some_iff {node : Node} {t : AliasToken} :
    node.aliasToken? = some t ↔ node = aliasNode t := by
  fun_cases aliasToken? node with
  | case1 u => simp [aliasNode]
  | case2 node hother =>
      simp only [reduceCtorEq, false_iff]
      exact hother t

/-- Whether the source of a builder has an alias can be looked up. -/
theorem Builder.hasAlias_iff {b : Builder} {t : AliasToken} :
    b.HasAlias t ↔ (b.source.bind fun source => source.2.aliasToken?) = some t := by
  cases hsource : b.source with
  | none => simp [HasAlias, hsource]
  | some source => simp [HasAlias, hsource, Node.aliasToken?_eq_some_iff, Prod.ext_iff]

instance (b : Builder) (t : AliasToken) : Decidable (b.HasAlias t) :=
  decidable_of_iff' _ Builder.hasAlias_iff

/-- The builder with a row source that has the token as its alias. -/
def Builder.withSource (b : Builder) (table : Fragment) (t : AliasToken) : Builder :=
  { b with source := some (table, aliasNode t) }

/-- A row source brings in no scripts. -/
theorem Builder.Permits.withSource {named : Prop} {b : Builder} (h : b.Permits named)
    (table : Fragment) (t : AliasToken) : (b.withSource table t).Permits named :=
  { h with }

/-- The alias of a builder is that of its row source. -/
theorem Builder.HasAlias.of_source {b b' : Builder} {t : AliasToken} (h : b.HasAlias t)
    (hsource : b'.source = b.source) : b'.HasAlias t := by
  rwa [HasAlias, hsource]

/-- Different tokens are different aliases. -/
theorem aliasNode_injective : Function.Injective aliasNode := by
  rintro t u ⟨⟩
  rfl

/-- A builder has one alias at most. -/
theorem Builder.HasAlias.unique {b : Builder} {t u : AliasToken} (ht : b.HasAlias t)
    (hu : b.HasAlias u) : t = u := by
  obtain ⟨_, ht⟩ := ht
  obtain ⟨_, hu⟩ := hu
  rw [ht] at hu
  exact aliasNode_injective (congrArg Prod.snd (Option.some.inj hu))

namespace World

/-- What is known of a child: the token that it knows its parent's row source by is older
than its own, which is settled, and if the parent's source has another one by now, then that
is younger than the child's. -/
structure Linked (w : World) (id : BuilderId) (ref : ParentRef) : Prop where
  locked : (w.builder id).locked .source = true
  aliases : ∃ known own current, ref.tableAlias = aliasNode known ∧
    (w.builder id).HasAlias own ∧ (w.builder ref.id).HasAlias current ∧ known.id < own.id ∧
    (ref.id ≠ id → current = known ∨ own.id < current.id)

/-- All row sources have tokens for aliases, and no two builders have the same one.  Each token
has been given out, and since the world `past` if it is not the one that the builder had there. -/
structure ApartSince (w past : World) : Prop where
  permits : ∀ id, (w.builder id).Permits False
  grows : past.nextToken ≤ w.nextToken
  aliases : ∀ id source, (w.builder id).source = some source → ∃ t, (w.builder id).HasAlias t
  fresh : ∀ id t, (w.builder id).HasAlias t →
    t.id < w.nextToken ∧ ((past.builder id).HasAlias t ∨ past.nextToken ≤ t.id)
  apart : ∀ id other t, (w.builder id).HasAlias t → (w.builder other).HasAlias t → id = other
  linked : ∀ id ref, (w.builder id).parent = some ref → w.Linked id ref

variable {past w w' : World}

/-- In the beginning there are no row sources. -/
theorem apartSince_start (options : Options) (tokens : Nat) :
    (start options tokens).ApartSince (start options tokens) where
  permits id := by
    rw [builder_start]
    exact Builder.permits_fresh _ _
  grows := Nat.le_refl _
  aliases id source hsource := by
    rw [builder_start] at hsource
    cases hsource
  fresh id t ht := by
    rw [builder_start] at ht
    obtain ⟨_, hsource⟩ := ht
    cases hsource
  apart id other t ht _ := by
    rw [builder_start] at ht
    obtain ⟨_, hsource⟩ := ht
    cases hsource
  linked id ref href := by
    rw [builder_start] at href
    cases href

namespace ApartSince

variable (h : w.ApartSince past)

include h

/-- What has been true up to a world may be counted on from there. -/
theorem refl : w.ApartSince w :=
  { h with
    grows := Nat.le_refl _
    fresh := fun id t ht => ⟨(h.fresh id t ht).1, .inl ht⟩ }

/-- Nothing is lost where no row source changes, no parent does, and nothing is opened. -/
theorem of_same (hgrows : w.nextToken ≤ w'.nextToken)
    (hpermits : ∀ id, (w'.builder id).Permits False)
    (hsource : ∀ id, (w'.builder id).source = (w.builder id).source)
    (hparent : ∀ id, (w'.builder id).parent = (w.builder id).parent)
    (hlocked : ∀ id, (w.builder id).locked .source = true →
      (w'.builder id).locked .source = true) : w'.ApartSince past where
  permits := hpermits
  grows := Nat.le_trans h.grows hgrows
  aliases id source hid := by
    obtain ⟨t, ht⟩ := h.aliases id source (hsource id ▸ hid)
    exact ⟨t, ht.of_source (hsource id)⟩
  fresh id t ht := by
    obtain ⟨hlt, hsince⟩ := h.fresh id t (ht.of_source (hsource id).symm)
    exact ⟨Nat.lt_of_lt_of_le hlt hgrows, hsince⟩
  apart id other t ht hother :=
    h.apart id other t (ht.of_source (hsource id).symm) (hother.of_source (hsource other).symm)
  linked id ref href := by
    obtain ⟨hlock, known, own, current, hknown, hown, hcurrent, hages⟩ :=
      h.linked id ref (hparent id ▸ href)
    exact ⟨hlocked id hlock, known, own, current, hknown, hown.of_source (hsource id),
      hcurrent.of_source (hsource ref.id), hages⟩

/-- Nothing about aliases changes while the builders stay as they are. -/
theorem of_builder (hgrows : w.nextToken ≤ w'.nextToken)
    (hbuilder : ∀ id, w'.builder id = w.builder id) : w'.ApartSince past := by
  refine h.of_same hgrows (fun id => ?_) (fun id => ?_) (fun id => ?_) fun id hlocked => ?_
  all_goals rw [hbuilder]
  · exact h.permits id
  · exact hlocked

/-- The alias that a builder can be asked for is a token. -/
theorem tableAlias {id : BuilderId} {node : Node} (hnode : (w.builder id).tableAlias = .ok node) :
    ∃ t, node = aliasNode t ∧ (w.builder id).HasAlias t := by
  rw [Builder.tableAlias] at hnode
  split at hnode
  · rename_i table rowAlias hsource
    obtain ⟨t, table', halias⟩ := h.aliases id _ hsource
    rw [hsource] at halias
    cases halias
    cases hnode
    exact ⟨t, rfl, _, hsource⟩
  · cases hnode

/-- A change that is tame, and gives no aliases, touches no row source. -/
theorem update (id : BuilderId) {change : Builder → Builder}
    (hchange : Builder.Tame False change) :
    (w.setBuilder id (change (w.builder id))).ApartSince past := by
  obtain ⟨hsource, hparent, hlocked⟩ := hchange.keeps (w.builder id)
  refine h.of_same (Nat.le_refl _) (fun other => ?_) (fun other => ?_) (fun other => ?_)
    fun other => ?_
  · exact holds_setBuilder (·.Permits False) (fun _ => hchange.permits) (h.permits other)
  · exact part_setBuilder (·.source) fun _ => hsource
  · exact part_setBuilder (·.parent) fun _ => hparent
  · exact holds_setBuilder (·.locked .source = true) fun _ => hlocked

end ApartSince

/-- The world in which a builder with a new token is put under an id. -/
def placed (w : World) (id : BuilderId) (b : Builder) : World :=
  { w with nextToken := w.nextToken + 1 }.setBuilder id b

/-- Of all builders only the one that is placed is another one. -/
theorem builder_placed (w : World) (id other : BuilderId) (b : Builder) :
    (w.placed id b).builder other = if other = id then b else w.builder other :=
  builder_setBuilder _ _ _ _

theorem builder_placed_self (w : World) (id : BuilderId) (b : Builder) :
    (w.placed id b).builder id = b := by
  rw [builder_placed, if_pos rfl]

theorem builder_placed_of_ne {id other : BuilderId} (hne : other ≠ id) (b : Builder) :
    (w.placed id b).builder other = w.builder other := by
  rw [builder_placed, if_neg hne]

/-- A child knows the alias that its parent has when the child is placed. -/
theorem linked_placed {id : BuilderId} {b : Builder} {ref : ParentRef} {known : AliasToken}
    (hnew : b.HasAlias ⟨w.nextToken⟩) (hlocked : b.locked .source = true)
    (hknown : ref.tableAlias = aliasNode known) (hcurrent : (w.builder ref.id).HasAlias known)
    (hold : known.id < w.nextToken) : (w.placed id b).Linked id ref := by
  have hself : ((w.placed id b).builder id).HasAlias ⟨w.nextToken⟩ := by
    rwa [builder_placed_self]
  refine ⟨by rwa [builder_placed_self], ?_⟩
  by_cases hparent : ref.id = id
  · refine ⟨known, ⟨w.nextToken⟩, ⟨w.nextToken⟩, hknown, hself, ?_, hold,
      fun hne => absurd hparent hne⟩
    rwa [hparent]
  · refine ⟨known, _, known, hknown, hself, ?_, hold, fun _ => .inl rfl⟩
    rwa [builder_placed_of_ne hparent]

/-- When another builder is placed, the alias of the parent stays or becomes younger than that of
the child. -/
theorem Linked.placed {id other : BuilderId} {ref : ParentRef} (h : w.Linked other ref)
    (hne : other ≠ id) {b : Builder} (hnew : b.HasAlias ⟨w.nextToken⟩)
    (hold : ∀ t, (w.builder other).HasAlias t → t.id < w.nextToken) :
    (w.placed id b).Linked other ref := by
  obtain ⟨hlocked, known, own, current, hknown, hown, hcurrent, hage, hages⟩ := h
  have hown' : ((w.placed id b).builder other).HasAlias own := by
    rwa [builder_placed_of_ne hne]
  refine ⟨by rwa [builder_placed_of_ne hne], ?_⟩
  by_cases hparent : ref.id = id
  · refine ⟨known, own, ⟨w.nextToken⟩, hknown, hown', ?_, hage, fun _ => .inr (hold own hown)⟩
    rwa [hparent, builder_placed_self]
  · refine ⟨known, own, current, hknown, hown', ?_, hage, hages⟩
    rwa [builder_placed_of_ne hparent]

namespace ApartSince

/-- A builder may take the next token as its alias, if it has no parent or knows the alias that
its parent has now. -/
theorem placed (h : w.ApartSince past) (id : BuilderId) {b : Builder} (hpermits : b.Permits False)
    (hnew : b.HasAlias ⟨w.nextToken⟩)
    (hlinked : ∀ ref, b.parent = some ref → b.locked .source = true ∧
      ∃ known, ref.tableAlias = aliasNode known ∧ (w.builder ref.id).HasAlias known) :
    (w.placed id b).ApartSince past := by
  have hold {other : BuilderId} {t : AliasToken} (ht : (w.builder other).HasAlias t) :
      t.id < w.nextToken := (h.fresh other t ht).1
  refine ⟨fun other => ?_, Nat.le_succ_of_le h.grows, fun other source hother => ?_,
    fun other t ht => ?_, fun first second t hfirst hsecond => ?_, fun child ref href => ?_⟩
  · rw [builder_placed]
    split
    · exact hpermits
    · exact h.permits other
  · rw [builder_placed] at hother ⊢
    split at hother
    · rw [if_pos ‹_›]
      exact ⟨_, hnew⟩
    · rw [if_neg ‹_›]
      exact h.aliases other source hother
  · rw [builder_placed] at ht
    split at ht
    · obtain rfl := ht.unique hnew
      exact ⟨Nat.lt_succ_self _, .inr h.grows⟩
    · exact ⟨Nat.lt_succ_of_lt (hold ht), (h.fresh other t ht).2⟩
  · rw [builder_placed] at hfirst hsecond
    split at hfirst <;> split at hsecond
    · rw [‹first = id›, ‹second = id›]
    · obtain rfl := hfirst.unique hnew
      exact absurd (hold hsecond) (Nat.lt_irrefl _)
    · obtain rfl := hsecond.unique hnew
      exact absurd (hold hfirst) (Nat.lt_irrefl _)
    · exact h.apart first second t hfirst hsecond
  · by_cases hchild : child = id
    · subst hchild
      rw [builder_placed_self] at href
      obtain ⟨hlocked, known, hknown, hcurrent⟩ := hlinked ref href
      exact linked_placed hnew hlocked hknown hcurrent (hold hcurrent)
    · rw [builder_placed_of_ne hchild] at href
      exact (h.linked child ref href).placed hchild hnew fun _ => hold

end ApartSince

end World

/-- The lock of a row source that nothing waits for only sets the lock, and reports it. -/
def Locker.LocksAtOnce (lock : Locker) : Prop :=
  ∀ {id : BuilderId} {w : World}, (w.builder id).locked .source = false →
    (w.builder id).callbacks .source = [] → Action.Completes ((lock .source).exec id w).1 →
      ∃ events history, (lock .source).exec id w =
        (.ok (), { w.setBuilder id ((w.builder id).setLocked .source) with events, history })

namespace Action

open World

variable {α β : Type} {past : World} {id : BuilderId} {w : World}

/-- An action that does not give up keeps row sources apart. -/
def KeepsApart (past : World) (action : Action α) : Prop :=
  ∀ ⦃id : BuilderId⦄ ⦃w : World⦄, w.ApartSince past →
    Completes (action.exec id w).1 → (action.exec id w).2.ApartSince past

namespace KeepsApart

theorem of_same {action : Action α} (hsame : ∀ id w, (action.exec id w).2 = w) :
    KeepsApart past action := by
  intro id w h _
  rwa [hsame]

/-- Row sources are kept apart step by step. -/
theorem bind {action : Action α} {next : α → Action β} (haction : KeepsApart past action)
    (hnext : ∀ a, KeepsApart past (next a)) : KeepsApart past (action >>= next) := by
  intro id w h hhalt
  have hfirst := @haction id w h
  rcases hrun : action.exec id w with ⟨halt | a, middle⟩
  · rw [exec_bind_error hrun] at hhalt ⊢
    rw [hrun] at hfirst
    exact hfirst hhalt.error
  · rw [exec_bind_ok hrun] at hhalt ⊢
    rw [hrun] at hfirst
    exact hnext a (hfirst (by simp)) hhalt

/-- Row sources are kept apart also where an error is caught. -/
theorem attempt {action : Action α} (haction : KeepsApart past action) :
    KeepsApart past (attempt action) := by
  intro id w h hhalt
  have hkeeps := @haction id w h
  rw [exec_attempt] at hhalt ⊢
  rcases hrun : action.exec id w with ⟨(e | _) | a, w'⟩
  all_goals rw [hrun] at hhalt hkeeps
  · exact hkeeps (by simp)
  · exact absurd rfl (hhalt _)
  · exact hkeeps (by simp)

end KeepsApart

/-- Where no alias is given, a row source gets the next token. -/
theorem exec_registerSource (table : Fragment) (hopen : (w.builder id).locked .source = false) :
    (registerSource table none).exec id w = (.ok (),
      w.placed id ((w.builder id).withSource table ⟨w.nextToken⟩)) := by
  rw [registerSource, exec_checkLock_bind _ hopen]
  rfl

/-- A row source without an alias of its own gets the next token. -/
theorem keepsApart_registerSource (table : Fragment) :
    KeepsApart past (registerSource table none) := by
  intro id w h _
  cases hlocked : (w.builder id).locked .source with
  | true =>
      rw [registerSource, exec_checkLock_bind_locked _ hlocked]
      exact h
  | false =>
      rw [exec_registerSource table hlocked]
      refine h.placed id ((h.permits id).withSource _ _) ⟨table, rfl⟩ fun ref href => ?_
      rw [(h.linked id ref href).locked] at hlocked
      cases hlocked

/-- A child that knows the alias of its parent's row source, and whose own one is settled. -/
def child (options : Options) (parent : ParentRef) (table : Fragment) (t : AliasToken) : Builder :=
  ((Builder.fresh options (some parent)).withSource table t).setLocked .source

/-- A new builder gets its row source at once. -/
theorem exec_source_spawned {lock : Locker} (hlock : lock.LocksAtOnce) {options : Options}
    {parent : ParentRef} {table : Fragment}
    (hhalt : Completes ((source lock table none).exec w.nextBuilder
      (w.spawned (.fresh options (some parent)))).1) :
    ∃ w', (source lock table none).exec w.nextBuilder (w.spawned (.fresh options (some parent))) =
        (.ok (), w') ∧ w'.nextToken = w.nextToken + 1 ∧
      ∀ other, w'.builder other =
        (w.placed w.nextBuilder (child options parent table ⟨w.nextToken⟩)).builder other := by
  have hfresh : (w.spawned (.fresh options (some parent))).builder w.nextBuilder =
      .fresh options (some parent) := by rw [builder_spawned, if_pos rfl]
  have hregister : (registerSource table none).exec w.nextBuilder (w.spawned _) = _ :=
    exec_registerSource table (by rw [hfresh]; rfl)
  rw [hfresh] at hregister
  have hthere := builder_placed_self (w.spawned (.fresh options (some parent))) w.nextBuilder
    ((Builder.fresh options (some parent)).withSource table ⟨w.nextToken⟩)
  rw [source, exec_bind_ok hregister] at hhalt ⊢
  obtain ⟨events, history, hlocks⟩ := hlock (congrArg (Builder.locked · .source) hthere)
    (congrArg (Builder.callbacks · .source) hthere) hhalt
  refine ⟨_, hlocks, rfl, fun other => ?_⟩
  change ((World.placed _ _ _).setBuilder w.nextBuilder _).builder other = _
  rw [builder_setBuilder]
  by_cases hother : other = w.nextBuilder
  · rw [if_pos hother, hother, builder_placed_self, builder_placed_self, child]
  · rw [if_neg hother, builder_placed_of_ne hother, builder_placed_of_ne hother, builder_spawned,
      if_neg hother]

/-- Either nothing is left of a call for a child, or there is one with the next token, which
knows the alias that its parent's row source has now. -/
theorem addChild_cases {lock : Locker} (hlock : lock.LocksAtOnce) {name : String}
    {table : Fragment} (hhalt : Completes ((addChild lock name table none).exec id w).1) :
    ((addChild lock name table none).exec id w).2 = w ∨
      ∃ (rowAlias : Node) (w' : World),
        (w.builder id).tableAlias = .ok rowAlias ∧ w'.nextToken = w.nextToken + 1 ∧
        (∀ other, w'.builder other = (w.placed w.nextBuilder
          (child (w.builder id).options ⟨id, rowAlias⟩ table ⟨w.nextToken⟩)).builder other) ∧
        ((addChild lock name table none).exec id w).2 = w'.setBuilder id { w'.builder id with
          children := Builder.insertChild name w.nextBuilder (w'.builder id).children } := by
  rcases exec_addChild_cases lock name table none id w with
    ⟨e, hrun, -⟩ | ⟨rowAlias, -, halias, hrun⟩
  · rw [hrun]
    exact .inl rfl
  rw [hrun] at hhalt ⊢
  have hsource : Completes ((source lock table none).exec w.nextBuilder
      (w.spawned (.fresh (w.builder id).options (some ⟨id, rowAlias⟩)))).1 := by
    rcases hthere : (source lock table none).exec w.nextBuilder (w.spawned _) with ⟨_ | _, w'⟩
    · rw [hthere] at hhalt
      exact hhalt.error
    · exact completes_ok _
  obtain ⟨w', hthere, hnext, hbuilder⟩ := exec_source_spawned hlock hsource
  rw [hthere]
  exact .inr ⟨rowAlias, { w' with events := w'.events ++ [.childAdded id w.nextBuilder name] },
    halias, hnext, hbuilder, rfl⟩

/-- A child is made with the next token, and with the alias that its parent has then. -/
theorem keepsApart_addChild {lock : Locker} (hlock : lock.LocksAtOnce) (name : String)
    (table : Fragment) : KeepsApart past (addChild lock name table none) := by
  intro id w h hhalt
  rcases addChild_cases hlock hhalt with hsame | ⟨rowAlias, w', halias, hnext, hbuilder, hafter⟩
  · rwa [hsame]
  have hchild : (w.placed w.nextBuilder
      (child (w.builder id).options ⟨id, rowAlias⟩ table ⟨w.nextToken⟩)).ApartSince past := by
    refine h.placed _ ?_ ⟨table, rfl⟩ fun ref href => ⟨setLocked_locked _ _, ?_⟩
    · exact (Builder.Tame.setLocked _).permits ((Builder.permits_fresh _ _).withSource _ _)
    · cases href
      exact h.tableAlias halias
  have hknow : Builder.Tame False fun b =>
      { b with children := Builder.insertChild name w.nextBuilder b.children } :=
    { permits := fun hb => { hb with }, keeps := fun _ => ⟨rfl, rfl, fun hlocked => hlocked⟩ }
  rw [hafter]
  exact (hchild.of_builder (Nat.le_of_eq hnext.symm) hbuilder).update id hknow

/-- What a program does keeps row sources apart if its locks do. -/
theorem Program.keepsApart {lock : Locker} (hatOnce : lock.LocksAtOnce)
    (hlock : ∀ c, KeepsApart past (lock c)) {f : Locker → Action α} (hf : Program False f) :
    KeepsApart past (f lock) := by
  have hnone {rowAlias : Option Node} (hnamed : rowAlias.isSome = true → False) :
      rowAlias = none := Option.not_isSome_iff_eq_none.mp hnamed
  induction hf with
  | pure | refuse | read | view => exact .of_same fun _ _ => rfl
  | abort reason => exact fun _ _ _ hhalt => absurd rfl (hhalt _)
  | lock c => exact hlock c
  | inspect _ ih => exact fun id w h hhalt => ih (w.builder id) (h.permits id) h hhalt
  | update hchange => exact fun id w h _ => h.update id hchange
  | log | record | remember | save =>
      exact fun _ _ h _ => h.of_builder (Nat.le_refl _) fun _ => rfl
  | mintToken => exact fun _ _ h _ => h.of_builder (Nat.le_succ _) fun _ => rfl
  | registerSource table hnamed =>
      rw [hnone hnamed]
      exact keepsApart_registerSource table
  | addChild name table hnamed =>
      rw [hnone hnamed]
      exact keepsApart_addChild hatOnce name table
  | within other _ ih => exact fun _ _ h hhalt => @ih other _ h hhalt
  | attempt _ ih => exact ih.attempt
  | bind _ _ ih ihnext => exact ih.bind ihnext

/-! Locks -/

/-- A lock of any fuel is done at once with a row source that nothing waits for. -/
theorem locksAtOnce_lockWith (fuel : Nat) : (lockWith fuel).LocksAtOnce := by
  intro id w hopen hempty hhalt
  cases fuel with
  | zero =>
      rw [exec_lockWith_zero, if_neg (by simp [hopen])] at hhalt
      exact absurd rfl (hhalt _)
  | succ fuel =>
      rw [exec_lockWith_open fuel hopen] at hhalt ⊢
      cases fuel with
      | zero => exact absurd rfl (hhalt _)
      | succ fuel =>
          rw [exec_bind_ok (exec_drain_nil _ fuel hempty), exec_settleOpen,
            if_neg (by simp [hopen]), exec_settle]
          exact ⟨_, _, rfl⟩

/-- Every lock keeps row sources apart. -/
theorem keepsApart_lockWith (fuel : Nat) (c : Concern) : KeepsApart past (lockWith fuel c) := by
  induction fuel generalizing c with
  | zero =>
      intro id w h _
      rw [exec_lockWith_zero]
      split <;> exact h
  | succ fuel ih => exact (Program.lockRound c fuel).keepsApart (locksAtOnce_lockWith fuel) ih

/-- Every program keeps row sources apart. -/
theorem Program.keepsApart_lockWith {f : Locker → Action α} (hf : Program False f) (fuel : Nat) :
    KeepsApart past (f (lockWith fuel)) :=
  hf.keepsApart (locksAtOnce_lockWith fuel) (Action.keepsApart_lockWith fuel)

end Action

namespace World

open PageQuery.Action

variable {past : World} {w : World}

theorem ApartSince.step (h : w.ApartSince past) {s : Step} (hs : s.givesAlias = false)
    (hanswered : (w.step s).1.outcome.isOk) : (w.step s).2.ApartSince past := by
  have hquiet : w.quiet.ApartSince past := h.of_builder (Nat.le_refl _) fun _ => rfl
  have hstep : KeepsApart past (performStep (lockWith (w.budget s)) s) :=
    (Program.performStep (.of_givesNone hs)).keepsApart_lockWith _
  exact hstep hquiet (completes_perform hanswered)

/-- Steps that leave all aliases to tokens keep row sources apart. -/
theorem ApartSince.after (h : w.ApartSince past) {steps : List Step}
    (hsteps : ∀ s ∈ steps, s.givesAlias = false)
    (hanswered : ∀ report ∈ w.steps steps, report.outcome.isOk = true) :
    (w.after steps).ApartSince past := by
  induction steps generalizing w with
  | nil => exact h
  | cons s rest ih =>
      obtain ⟨hs, hrest⟩ := List.forall_mem_cons.mp hsteps
      obtain ⟨hfirst, hothers⟩ := List.forall_mem_cons.mp hanswered
      exact ih (h.step hs hfirst) hrest hothers

end World

end PageQuery
