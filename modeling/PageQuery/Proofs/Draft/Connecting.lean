import PageQuery.Proofs.Cursor.Code
import PageQuery.Proofs.Draft.Confluence
import PageQuery.Proofs.Page.Flags

/-!
# Arguments that have been checked

The arguments of a connection are checked before anything is done with them.  On a builder
that was told nothing but its rows, with a primary key to make the order unique, the check is
all there is: what passes it is set up and built, whatever cursors it holds, and what does not
pass is refused by the set-up with the same error, before anything has changed.
-/

namespace PageQuery

open Sql PageQuery.Action

/-- Changes with ready values that leave the size and the uniqueness of the page open. -/
def Op.furnishes : Op → Bool
  | .setOrderUnique | .limit _ | .offset _ | .first _ | .last _ => false
  | op => op.tells

theorem Op.tells_of_furnishes {op : Op} (hop : op.furnishes = true) : op.tells = true := by
  cases op <;> first | exact hop | cases hop

namespace Builder

/-- The same is known of the page: whether its order is declared unique, and what limits it. -/
structure SamePage (b b' : Builder) : Prop where
  unique : b'.orderIsUnique = b.orderIsUnique
  limit : b'.pending.limit = b.pending.limit
  offsets : b'.pending.offsets = b.pending.offsets
  first : b'.first = b.first
  last : b'.last = b.last

variable {b b' b'' : Builder}

theorem SamePage.refl (b : Builder) : b.SamePage b := ⟨rfl, rfl, rfl, rfl, rfl⟩

theorem SamePage.trans (hfirst : b.SamePage b') (hsecond : b'.SamePage b'') : b.SamePage b'' :=
  ⟨hsecond.unique.trans hfirst.unique, hsecond.limit.trans hfirst.limit,
    hsecond.offsets.trans hfirst.offsets, hsecond.first.trans hfirst.first,
    hsecond.last.trans hfirst.last⟩

end Builder

namespace Action

variable {b : Builder} {id : BuilderId} {saved : List (String × Fragment)} {lock : Locker}

/-- The action is refused, or leaves the page as it is. -/
def Furnishes (id : BuilderId) (saved : List (String × Fragment)) (b : Builder) {α : Type}
    (action : Action α) : Prop :=
  Ends id saved b action False fun _ b' => b.SamePage b'

namespace Furnishes

variable {α β : Type} {action : Action α} {next : α → Action β} {c : Concern}

theorem bind (hfirst : Furnishes id saved b action)
    (hnext : ∀ a b', Furnishes id saved b' (next a)) : Furnishes id saved b (action >>= next) := by
  apply Ends.bind hfirst
  intro a b' hsame
  exact (hnext a b').imp (fun hfalse => hfalse) fun _ _ hsame' => hsame.trans hsame'

theorem pure (a : α) : Furnishes id saved b (Pure.pure a) := Ends.of_turns (Turns.pure a) (.refl b)

theorem ofExcept (value : Except Error α) : Furnishes id saved b (ofExcept value) :=
  Ends.ofExcept (fun _ _ => not_false) fun _ _ => .refl b

theorem evaluate {expr : Expr} {next : Fragment → Action β}
    (hnext : ∀ f, Furnishes id saved b (next f)) :
    Furnishes id saved b (PageQuery.Action.evaluate expr >>= next) := by
  apply Ends.bind (Draft.ends_evaluate expr)
  rintro f _ rfl
  exact hnext f

theorem checkLock {next : Unit → Action α} (hnext : Furnishes id saved b (next ())) :
    Furnishes id saved b (PageQuery.Action.checkLock c >>= next) := by
  cases hlocked : b.locked c with
  | false => exact Ends.behind (Turns.checkLock hlocked) hnext
  | true =>
      refine Ends.of_halts not_false (Halts.bind fun w hb _ => ⟨.refused (.lockedMutation c), w, ?_⟩)
      rw [exec_checkLock, hb, hlocked]
      rfl

theorem update {change : Builder → Builder} (hchange : b.SamePage (change b)) :
    Furnishes id saved b (PageQuery.Action.update change) :=
  Ends.of_turns (Turns.update change) hchange

theorem select (expr : DeferredFragment) (name : String) :
    Furnishes id saved b (PageQuery.Action.select expr name) :=
  checkLock <| (ofExcept _).bind fun _ _ => update ⟨rfl, rfl, rfl, rfl, rfl⟩

theorem selectIdentifiers (primaryKey : List String) :
    Furnishes id saved b (PageQuery.Action.selectIdentifiers primaryKey) := by
  apply checkLock
  apply Ends.self_bind
  split
  · exact pure ()
  · exact (ofExcept _).bind fun _ _ =>
      (select _ _).bind fun _ _ => update ⟨rfl, rfl, rfl, rfl, rfl⟩

theorem filter (expr : DeferredFragment) :
    Furnishes id saved b (PageQuery.Action.filter expr) :=
  checkLock <| (update ⟨rfl, rfl, rfl, rfl, rfl⟩).bind fun _ b' =>
    Ends.of_turns (Turns.read_bind (Turns.remember _)) (.refl b')

theorem bound (condition : Cursor.Bound) (isLower : Bool) :
    Furnishes id saved b (PageQuery.Action.bound condition isLower) := by
  apply checkLock
  apply update
  cases isLower <;> exact ⟨rfl, rfl, rfl, rfl, rfl⟩

/-- Every change of the rows leaves the page as it is. -/
theorem perform {op : Op} (hop : op.furnishes = true) :
    Furnishes id saved b (PageQuery.Action.perform lock op) := by
  have hanswering {action : Action Unit} (haction : Furnishes id saved b action) :
      Furnishes id saved b (answering action) := haction.bind fun _ _ => pure _
  cases op with
  | select expr name => exact hanswering (evaluate fun _ => select _ name)
  | selectIdentifiers primaryKey => exact hanswering (selectIdentifiers primaryKey)
  | selectCursor expr =>
      exact hanswering (evaluate fun _ => checkLock (update ⟨rfl, rfl, rfl, rfl, rfl⟩))
  | join clause =>
      exact hanswering (evaluate fun _ => checkLock (update ⟨rfl, rfl, rfl, rfl, rfl⟩))
  | filter expr => exact hanswering (evaluate fun _ => filter _)
  | bound expr isLower => exact hanswering (evaluate fun _ => bound _ isLower)
  | orderBy expr ascending nulls =>
      exact hanswering (evaluate fun _ => checkLock (update ⟨rfl, rfl, rfl, rfl, rfl⟩))
  | setCursorTag tag => exact hanswering (checkLock (update ⟨rfl, rfl, rfl, rfl, rfl⟩))
  | _ => simp [Op.furnishes, Op.tells] at hop

end Furnishes

end Action

namespace ConnectionArgs

variable {args : ConnectionArgs}

/-- What the check lets through: readable counts and cursors, and no offset with both `first`
and `last`. -/
theorem validate_eq_ok (hvalid : args.validate = .ok ()) :
    ∃ counts cursors, args.counts = .ok counts ∧ args.cursors = .ok cursors ∧
      ¬(counts.first.isSome ∧ counts.last.isSome ∧ 0 < counts.offset) := by
  cases hcounts : args.counts with
  | error e =>
      rw [validate, hcounts] at hvalid
      cases hvalid
  | ok counts =>
      cases hcursors : args.cursors with
      | error e =>
          rw [validate, hcounts, hcursors] at hvalid
          cases hvalid
      | ok cursors =>
          refine ⟨counts, cursors, rfl, rfl, ?_⟩
          obtain ⟨first, -, hrest⟩ := ok_of_bind hcounts
          obtain ⟨last, -, hrest⟩ := ok_of_bind hrest
          obtain ⟨offset, -, hrest⟩ := ok_of_bind hrest
          change (if (first.isSome && last.isSome && decide (0 < offset.getD 0)) = true then _
            else _) = _ at hrest
          split at hrest
          · cases hrest
          · cases hrest
            rintro ⟨hfirst, hlast, hoffset⟩
            refine ‹¬(first.isSome && last.isSome && _) = true› ?_
            rw [hfirst, hlast, decide_eq_true hoffset]
            rfl

theorem exec_setUpConnection_invalid {e : Error} (hinvalid : args.validate = .error e)
    (lock : Locker) (setup : ConnectionSetup) (id : BuilderId) (w : World) :
    (setUpConnection lock setup args).exec id w = (.error (.refused e), w) := by
  cases hcounts : args.counts with
  | error e' =>
      rw [validate, hcounts] at hinvalid
      cases hinvalid
      rw [setUpConnection, hcounts]
      rfl
  | ok counts =>
      cases hcursors : args.cursors with
      | error e' =>
          rw [validate, hcounts, hcursors] at hinvalid
          cases hinvalid
          rw [setUpConnection, hcounts, hcursors]
          rfl
      | ok cursors =>
          rw [validate, hcounts, hcursors] at hinvalid
          cases hinvalid

end ConnectionArgs

namespace Draft

variable {d : Draft} {id : BuilderId} {saved : List (String × Fragment)}

/-- Nothing has been said of the page. -/
structure Unpaged (d : Draft) : Prop where
  unique : d.unique = false
  limit : d.limit = none
  offsets : d.offsets = []
  first : d.first = none
  last : d.last = none

/-- What has been told of the rows says nothing of the page. -/
theorem Unpaged.of_samePage {d' : Draft} {sourced connected : Bool}
    {callbacks : Concern → List Callback} (hunpaged : d.Unpaged)
    (hsame : (d.told sourced connected callbacks).SamePage (d'.told sourced connected callbacks)) :
    d'.Unpaged where
  unique := hsame.unique.trans hunpaged.unique
  limit := by
    have hlimit : d'.limit.map Deferred.ready = d.limit.map Deferred.ready := hsame.limit
    rwa [hunpaged.limit, Option.map_none, Option.map_eq_none_iff] at hlimit
  offsets := by
    have hoffsets : d'.offsets.map Deferred.ready = d.offsets.map Deferred.ready := hsame.offsets
    rwa [hunpaged.offsets, List.map_nil, List.map_eq_nil_iff] at hoffsets
  first := hsame.first.trans hunpaged.first
  last := hsame.last.trans hunpaged.last

/-- The draft with a connection. -/
def connect (d : Draft) (setup : ConnectionSetup) (counts : PageCounts) (cursors : PageCursors) :
    Draft :=
  { d with
    first := counts.first
    last := counts.last
    tag := setup.tag
    offsets := if 0 < counts.offset then [counts.offset] else []
    cursor := some none
    primaryKey := setup.primaryKey
    after := cursors.after
    before := cursors.before }

/-- An offset of nothing is none. -/
theorem turns_offset (n : Nat) (hnone : d.offsets = []) {callbacks : Concern → List Callback}
    {next : Unit → Action Unit} {b : Builder}
    (hnext : Turns id saved (Draft.told { d with offsets := if 0 < n then [n] else [] } true true
      callbacks) (next ()) () b) :
    Turns id saved (d.told true true callbacks)
      (if 0 < n then Action.offset (.ready n) >>= next else next ()) () b := by
  by_cases hpositive : 0 < n
  · rw [if_pos hpositive] at hnext ⊢
    have hoffsets : (d.told true true callbacks).pending.offsets ++ [.ready n] =
        [n].map .ready := by
      simp [told, hnone]
    have hturned : Draft.told { d with offsets := [n] } true true callbacks =
        { d.told true true callbacks with pending := { (d.told true true callbacks).pending with
          offsets := (d.told true true callbacks).pending.offsets ++ [.ready n] } } := by
      rw [hoffsets]
      rfl
    have hoffset : Turns id saved (d.told true true callbacks) (Action.offset (.ready n)) ()
        (Draft.told { d with offsets := [n] } true true callbacks) := by
      rw [hturned]
      exact (Turns.checkLock rfl).bind (Turns.update _)
    exact hoffset.bind hnext
  · rw [if_neg hpositive, ← hnone] at hnext
    rwa [if_neg hpositive]

/-- Readable arguments are set up on a draft of which no page is known. -/
theorem turns_setUpConnection {setup : ConnectionSetup} {args : ConnectionArgs}
    {counts : PageCounts} {cursors : PageCursors} (hunpaged : d.Unpaged)
    (hkey : setup.primaryKey ≠ []) (hcounts : args.counts = .ok counts)
    (hcursors : args.cursors = .ok cursors) (fuel : Nat) :
    Turns id saved (d.told true false (d.queue false))
      (setUpConnection (lockWith (fuel + 2)) setup args) ()
      ((d.connect setup counts cursors).told true true
        ((d.connect setup counts cursors).queue true)) := by
  let connected := d.connect setup counts cursors
  -- What is told one after the other.
  let d₁ : Draft := { d with tag := setup.tag }
  let d₂ : Draft := { d₁ with cursor := some none }
  let d₃ : Draft := { d₂ with first := counts.first }
  let d₄ : Draft := { d₃ with last := counts.last }
  have hempty : connected.primaryKey.isEmpty = false := by simpa [connected, connect] using hkey
  have hkeyed : Turns id saved (d.told true false (d.queue false))
      (beforeLock .order (.breakTies setup.primaryKey)) () (d.told true false connected.tied) := by
    rw [← withCallback_breakTies connected hempty]
    exact Turns.beforeLock _ rfl
  have htagged : Turns id saved (d.told true false connected.tied) (setCursorTag setup.tag) ()
      (d₁.told true false connected.tied) := Turns.setCursorTag setup.tag rfl
  have hcompared : Turns id saved (d₁.told true false connected.tied)
      (setComparator (lockWith (fuel + 2)) (.kind .relay)) () (d₁.told true true connected.tied) :=
    turns_setComparator rfl fuel
  have hselected : Turns id saved (d₁.told true true connected.tied)
      (selectCursor (.lazy [] .cursorExpression)) () (d₂.told true true connected.tied) :=
    Turns.selectCursor _ rfl
  have hfirst : Turns id saved (d₂.told true true connected.tied)
      (counts.first.forM Action.first) () (d₃.told true true connected.tied) :=
    Turns.first _ rfl hunpaged.first
  have hlast : Turns id saved (d₃.told true true connected.tied) (counts.last.forM Action.last) ()
      (d₄.told true true connected.tied) := Turns.last _ rfl hunpaged.last
  have hafter : Turns id saved (connected.told true true connected.tied)
      (cursors.after.forM fun cursor => addCursorCondition cursor true) ()
      ((connected.told true true connected.tied).withCursor true cursors.after) :=
    Turns.addCursorCondition _ true rfl
  have hbefore : Turns id saved
      ((connected.told true true connected.tied).withCursor true cursors.after)
      (cursors.before.forM fun cursor => addCursorCondition cursor false) ()
      (connected.told true true (connected.queue true)) := by
    rw [← told_withCursors]
    exact Turns.addCursorCondition _ false rfl
  apply (Turns.ofExcept hcounts).bind
  apply (Turns.ofExcept hcursors).bind
  change Turns id saved _ (if (!setup.primaryKey.isEmpty) = true then _ else _) () _
  rw [if_pos (by simpa [connected, connect] using hempty)]
  apply hkeyed.bind
  apply htagged.bind
  apply hcompared.bind
  apply hselected.bind
  apply hfirst.bind
  apply hlast.bind
  exact turns_offset (d := d₄) counts.offset hunpaged.offsets (hafter.bind hbefore)

/-! What comes of a connection. -/

/-- Where the order tells all rows apart, every cursor is a bound. -/
theorem effect?_of_keyed (hkeyed : d.isKeyed = true) (isAfter : Bool) (cursor : List Json) :
    ∃ condition, d.effect? isAfter cursor = some (.bounds condition) := by
  have hunique : d.isUnique = true := by simp_all [isKeyed]
  rw [effect?, if_neg (by simp [hunique]), if_pos hkeyed]
  cases Cursor.keyedBound d.tag d.order cursor isAfter with
  | error reason => exact ⟨.never, rfl⟩
  | ok condition => exact ⟨condition, rfl⟩

/-- Where the order tells all rows apart, no cursor skips rows or cuts them off. -/
theorem skipped?_of_keyed (hkeyed : d.isKeyed = true) :
    d.skipped? = none ∧ d.cut? = none := by
  constructor
  · rw [skipped?, afterEffect?]
    cases d.after with
    | none => rfl
    | some cursor =>
        obtain ⟨condition, heffect⟩ := effect?_of_keyed hkeyed true cursor
        rw [Option.bind_some, heffect]
  · rw [cut?, beforeEffect?]
    cases d.before with
    | none => rfl
    | some cursor =>
        obtain ⟨condition, heffect⟩ := effect?_of_keyed hkeyed false cursor
        rw [Option.bind_some, heffect]

/-- Nothing that the locks come across is refused where the order tells all rows apart. -/
theorem good_of_keyed (hkeyed : d.isKeyed = true) : d.Good where
  readable := by
    have hread (isAfter : Bool) (cursor : List Json) :
        (d.effect? isAfter cursor).isSome = true := by
      obtain ⟨condition, heffect⟩ := effect?_of_keyed hkeyed isAfter cursor
      rw [heffect]
      rfl
    exact ⟨fun cursor _ => hread true cursor, fun cursor _ => hread false cursor⟩
  guarded hguards := by
    refine absurd ?_ hguards
    rw [guards, (skipped?_of_keyed hkeyed).1]
    rfl
  planned _ := ⟨_, if_pos hkeyed⟩

section

variable {setup : ConnectionSetup} {counts : PageCounts} {cursors : PageCursors}

/-- The primary key makes the order one that tells all rows apart. -/
theorem isKeyed_connect (hunpaged : d.Unpaged) (hkey : setup.primaryKey ≠ []) :
    (d.connect setup counts cursors).isKeyed = true := by
  have hempty : setup.primaryKey.isEmpty = false := by simpa using hkey
  have hunique : (d.connect setup counts cursors).isUnique = true := by
    simp [isUnique, connect, hempty]
  have horder : (d.connect setup counts cursors).order ≠ [] := by
    simp [order, connect, hunpaged.unique, keyTerms, hkey]
  rw [isKeyed, hunique, Bool.and_true]
  simpa using horder

/-- What has passed the check is not in conflict. -/
theorem not_conflicting_connect (hunpaged : d.Unpaged) (hkey : setup.primaryKey ≠ [])
    (hcalm : ¬(counts.first.isSome ∧ counts.last.isSome ∧ 0 < counts.offset)) :
    ¬(d.connect setup counts cursors).finished.Conflicting := by
  obtain ⟨hskipped, hcut⟩ : (d.connect setup counts cursors).skipped? = none ∧
      (d.connect setup counts cursors).cut? = none :=
    skipped?_of_keyed (isKeyed_connect hunpaged hkey)
  have hlimit : (d.connect setup counts cursors).limitValue = none := by
    rw [limitValue, hcut]
    exact hunpaged.limit
  have hoffset : 0 < (d.connect setup counts cursors).offsetValue → 0 < counts.offset := by
    rw [offsetValue, allOffsets, hskipped]
    intro hpositive
    by_contra hzero
    simp [connect, hzero] at hpositive
  rintro ⟨hlast, hpositive, hlimited | hfirst⟩
  · change (d.connect setup counts cursors).limitValue.isSome at hlimited
    rw [hlimit] at hlimited
    cases hlimited
  · exact hcalm ⟨hfirst, hlast, hoffset hpositive⟩

end

end Draft

namespace World

variable {w : World} {s : Step} {d : Draft} {setup : ConnectionSetup} {args : ConnectionArgs}

/-- The worlds of runs that tell the first builder of its rows and their order, and nothing of
the page: whether it has its row source. -/
inductive Furnished : Bool → World → Prop
  | start (options : Options) (tokens : Nat) : Furnished false (start options tokens)
  | sourced {w : World} {s : Step} {table : Expr} {rowAlias : Option NodeExpr}
      (hfurnished : Furnished false w) (hpath : s.path = []) (hop : s.op = .source table rowAlias)
      (hsucceeds : (w.step s).1.Succeeds) : Furnished true (w.step s).2
  | told {sourced : Bool} {w : World} {s : Step} (hfurnished : Furnished sourced w)
      (hpath : s.path = []) (hop : s.op.furnishes = true) (hsucceeds : (w.step s).1.Succeeds) :
      Furnished sourced (w.step s).2

/-- The builder of such a world is that of a draft without a page. -/
theorem Furnished.exists_told {sourced : Bool} (hfurnished : Furnished sourced w) :
    ∃ d : Draft, w.builder root = d.told sourced false (d.queue false) ∧ d.Unpaged := by
  induction hfurnished with
  | start options tokens =>
      exact ⟨.blank options, told_start options tokens, ⟨rfl, rfl, rfl, rfl, rfl⟩⟩
  | @sourced w s table rowAlias _ hpath hop hsucceeds ih =>
      obtain ⟨d, hb, hunpaged⟩ := ih
      obtain ⟨fuel, hfuel⟩ := w.exists_budget s
      obtain ⟨a, w', hrun, hbuilder⟩ := exec_of_succeeds hpath hsucceeds
      rw [hfuel, hop] at hrun
      have hquiet : w.quiet.builder root = d.told false false (d.queue false) := hb
      obtain ⟨table, rowAlias, hb'⟩ := Draft.exec_source hquiet rfl hrun
      exact ⟨{ d with table, rowAlias }, hbuilder.trans hb', { hunpaged with }⟩
  | @told sourced w s _ hpath hop hsucceeds ih =>
      obtain ⟨d, hb, hunpaged⟩ := ih
      have htells : Draft.Tells root w.saved sourced false (d.queue false) d
          (Action.perform (lockWith (w.budget s)) s.op) :=
        Draft.tells_perform (Op.tells_of_furnishes hop) _
      rw [Draft.Tells, ← hb] at htells
      obtain ⟨_, d', hb', hcontinues⟩ := step_of_ends hpath htells hsucceeds
      obtain ⟨_, hsame⟩ := step_of_ends hpath (Furnishes.perform hop) hsucceeds
      rw [hb, hb'] at hsame
      exact ⟨d', by rw [hb', hcontinues.queue], hunpaged.of_samePage hsame⟩

/-- A connection is built of a draft with which nothing is wrong. -/
theorem Drafts.buildConnection {options : BuildOptions} (hdrafts : Drafts d w) (hgood : d.Good)
    (hcalm : ¬d.finished.Conflicting) (hpath : s.path = [])
    (hop : s.op = .buildConnection options) :
    (w.step s).1.Succeeds := by
  obtain ⟨X, hb, hsound, hstill⟩ := hdrafts
  obtain ⟨fuel, hfuel⟩ := w.exists_budget s
  rcases Draft.ends_lockEverything hsound hstill fuel with
    ⟨_, _, hturns, rfl, -⟩ | ⟨hbad, -⟩
  · obtain ⟨w₁, hlocks, hb₁, -⟩ := hturns w.quiet hb rfl
    have hlocked (c : Concern) : (w₁.builder root).locked c = true := by rw [hb₁]; rfl
    have hsource : (w₁.builder root).source.isSome = true := by rw [hb₁]; rfl
    rw [← hb₁] at hcalm
    obtain ⟨statement, hstatement⟩ :=
      Builder.connectionOf_ok hcalm hsource options ⟨w₁.nextToken⟩
    obtain ⟨w₂, hbuild⟩ := exec_buildConnection_finalized (idle_lockWith (fuel + 8)) hlocked options
    rw [← exec_buildConnection_locked (idle_lockWith _) hlocks hlocked, hstatement] at hbuild
    have hrun : (Action.perform (lockWith (w.budget s)) s.op).exec root w.quiet =
        (.ok (.fragment statement.fragment), w₂) := by
      rw [hop, hfuel]
      exact exec_bind_ok hbuild
    exact ⟨_, (step_of_ok (leads_root hpath) hrun).1⟩
  · exact absurd hgood hbad

/-- Let a builder be told of its rows and their order, and nothing of the page, and let a
primary key make the order unique.  Arguments that pass their check are set up, and the
connection is built, whatever cursors they hold; arguments that do not are refused with the
error of their check, and nothing has changed. -/
theorem Furnished.connection_builds (hfurnished : Furnished true w) (hpath : s.path = [])
    (hop : s.op = .setUpConnection setup args) (hkey : setup.primaryKey ≠ []) :
    (args.validate = .ok () → (w.step s).1.outcome = .ok (.ok .done) ∧
      ∀ (build : Step) (options : BuildOptions), build.path = [] →
        build.op = .buildConnection options → ((w.step s).2.step build).1.Succeeds) ∧
    ∀ e, args.validate = .error e →
      (w.step s).1.outcome = .ok (.error e) ∧ (w.step s).2 = w.quiet := by
  obtain ⟨d, hb, hunpaged⟩ := hfurnished.exists_told
  obtain ⟨fuel, hfuel⟩ := w.exists_budget s
  constructor
  · intro hvalid
    obtain ⟨counts, cursors, hcounts, hcursors, hcalm⟩ := ConnectionArgs.validate_eq_ok hvalid
    let connected := d.connect setup counts cursors
    have hgives : Gives root w.saved (w.builder root)
        (Action.perform (lockWith (w.budget s)) s.op) (.ok .done)
        (connected.told true true (connected.queue true)) := by
      rw [hop, hfuel, hb]
      exact (Draft.turns_setUpConnection hunpaged hkey hcounts hcursors (fuel + 6)).bind
        (Turns.pure _)
    obtain ⟨houtcome, hb', -⟩ := step_of_gives hpath hgives
    refine ⟨houtcome, fun build options hroot hbuild => ?_⟩
    have hdrafts : Drafts connected (w.step s).2 :=
      ⟨_, hb'.trans Draft.builder_begun.symm, connected.sound_begun, Progress.still_begun⟩
    exact hdrafts.buildConnection (Draft.good_of_keyed (Draft.isKeyed_connect hunpaged hkey))
      (Draft.not_conflicting_connect hunpaged hkey hcalm) hroot hbuild
  · intro e hinvalid
    apply step_of_error (leads_root hpath)
    rw [hop, hfuel]
    exact exec_bind_error
      (ConnectionArgs.exec_setUpConnection_invalid hinvalid _ setup root w.quiet)

/-- A run that orders the rows of a source. -/
def orderedRun : World :=
  let sourced := ((start {} 0).step (.mk [] (.source (.text "items") none) false none)).2
  (sourced.step (.mk [] (.orderBy (.text "pos") true none) false none)).2

/-- A page behind a cursor whose tag is not that of the order. -/
def strayArgs : ConnectionArgs :=
  { first := some 2, offset := some 1, after := some (Cursor.encode [.string "other", .null]) }

theorem validate_strayArgs : strayArgs.validate = .ok () := by
  have hblank : ∀ c ∈ "".toList, Text.isBlank c = true := nofun
  have hparse : Json.parse? (Json.array [.string "other", .null]).chars =
      some (.array [.string "other", .null]) := rfl
  have hdecode := Cursor.decode_blank_encode [.string "other", .null] hblank hblank
  rw [hparse, String.empty_append, String.append_empty] at hdecode
  have hcursor : ConnectionArgs.cursor strayArgs.after =
      .ok (some [.string "other", .null]) := by
    change (Cursor.decode _ >>= fun values => pure (some values)) = _
    rw [hdecode]
    rfl
  change (do
    discard (.ok ⟨some 2, none, 1⟩ : Except Error PageCounts)
    discard (ConnectionArgs.cursors strayArgs)) = _
  rw [ConnectionArgs.cursors, hcursor]
  rfl

def connectStep (args : ConnectionArgs) : Step :=
  .mk [] (.setUpConnection ⟨["id"], primaryKeyTag⟩ args) false none

/-- A page behind a stray cursor is built; one with too many counts is refused. -/
theorem connection_builds_orderedRun :
    ((orderedRun.step (connectStep strayArgs)).1.outcome = .ok (.ok .done) ∧
      ∀ (build : Step) (options : BuildOptions), build.path = [] →
        build.op = .buildConnection options →
          ((orderedRun.step (connectStep strayArgs)).2.step build).1.Succeeds) ∧
    let counts : ConnectionArgs := { first := some 2, last := some 2, offset := some 1 }
    (orderedRun.step (connectStep counts)).1.outcome =
        .ok (.error (.ambiguousPagination .firstLastOffset)) ∧
      (orderedRun.step (connectStep counts)).2 = orderedRun.quiet := by
  have hfurnished : Furnished true orderedRun := by
    apply Furnished.told _ rfl rfl (by decide +kernel)
    exact Furnished.sourced (Furnished.start {} 0) rfl rfl (by decide +kernel)
  have hkey : ["id"] ≠ [] := by decide
  exact ⟨(hfurnished.connection_builds rfl rfl hkey).1 validate_strayArgs,
    (hfurnished.connection_builds rfl rfl hkey).2 _ rfl⟩

end World

end PageQuery
