import Mathlib
import PageQuery.Proofs.Draft.Confluence

/-!
# Rows between two positions

Where the order does not tell rows apart, cursors hold positions.  A row up to the `after`
position is skipped like the rows of an offset, and a row from the `before` position on is
cut off by a limit that is computed from the offset.  The page consists of the rows whose
positions lie strictly between the two, whatever has been asked for first.
-/

namespace PageQuery

open Sql PageQuery.Action

variable {ρ : Type}

/-- The rows whose positions, counted from one, are above `lower` and below `upper`. -/
def between (lower : Nat) (upper : Option Nat) (rows : List ρ) : List ρ :=
  ((rows.zipIdx 1).filter fun row => lower < row.2 && upper.all (row.2 < ·)).map Prod.fst

/-- The first rows, if a number of them is asked for. -/
def atMost : Option Nat → List ρ → List ρ
  | none, rows => rows
  | some n, rows => rows.take n

/-- A cursor that holds a position. -/
def naturalCursor (position : Nat) : List Json := [.string naturalTag, .integer position]

theorem zipIdx_above (lower : Nat) (rows : List ρ) (start : Nat) :
    ((rows.zipIdx start).filter fun row => lower < row.2) =
      (rows.drop (lower + 1 - start)).zipIdx (max start (lower + 1)) := by
  induction rows generalizing start with
  | nil => simp
  | cons row rest ih =>
      rw [List.zipIdx_cons, List.filter_cons, ih]
      by_cases habove : lower < start
      · have hnone : lower + 1 - start = 0 := by omega
        have hnone' : lower + 1 - (start + 1) = 0 := by omega
        have hstart : max start (lower + 1) = start := by omega
        have hnext : max (start + 1) (lower + 1) = start + 1 := by omega
        rw [if_pos (by simpa using habove), hnone, hnone', hstart, hnext, List.drop_zero,
          List.drop_zero, List.zipIdx_cons]
      · have hdrop : lower + 1 - start = lower + 1 - (start + 1) + 1 := by omega
        have hnext : max (start + 1) (lower + 1) = max start (lower + 1) := by omega
        rw [if_neg (by simpa using habove), hdrop, hnext, List.drop_succ_cons]

theorem zipIdx_below (upper : Nat) (rows : List ρ) (start : Nat) :
    ((rows.zipIdx start).filter fun row => row.2 < upper) =
      (rows.take (upper - start)).zipIdx start := by
  induction rows generalizing start with
  | nil => simp
  | cons row rest ih =>
      rw [List.zipIdx_cons, List.filter_cons, ih]
      by_cases hbelow : start < upper
      · have htake : upper - start = upper - (start + 1) + 1 := by omega
        rw [if_pos (by simpa using hbelow), htake, List.take_succ_cons, List.zipIdx_cons]
      · have hnone : upper - start = 0 := by omega
        have hnone' : upper - (start + 1) = 0 := by omega
        rw [if_neg (by simpa using hbelow), hnone, hnone', List.take_zero, List.take_zero,
          List.zipIdx_nil, List.zipIdx_nil]

/-- Rows between two positions are a slice. -/
theorem between_eq_slice (lower : Nat) (upper : Option Nat) (rows : List ρ) :
    between lower upper rows = slice (upper.map fun q => q - lower - 1) lower rows := by
  have hstart : max 1 (lower + 1) = lower + 1 := by omega
  cases upper with
  | none =>
      simp only [between, Option.all_none, Bool.and_true]
      rw [zipIdx_above, List.zipIdx_map_fst]
      rfl
  | some q =>
      have htake : q - (lower + 1) = q - lower - 1 := by omega
      simp only [between, Option.all_some]
      have hfilter : (rows.zipIdx 1).filter (fun row => lower < row.2 && row.2 < q) =
          (((rows.zipIdx 1).filter fun row => lower < row.2).filter fun row => row.2 < q) := by
        rw [List.filter_filter]
        exact List.filter_congr fun row _ => Bool.and_comm _ _
      rw [hfilter, zipIdx_above, zipIdx_below, List.zipIdx_map_fst, hstart, htake]
      rfl

theorem foldl_addCounts (total : Nat) (counts : List Nat) (htotal : total ≤ maxCount) :
    counts.foldl addCounts total = min (total + counts.sum) maxCount := by
  induction counts generalizing total with
  | nil => simp [htotal]
  | cons n rest ih =>
      have hadded : addCounts total n ≤ maxCount := Nat.min_le_right _ _
      rw [List.foldl_cons, ih _ hadded, addCounts, List.sum_cons]
      omega

/-- What is asked for by a limit, an offset and `first` alone. -/
theorem referencePage_of_first (limit : Option Nat) (offset : Nat) (first : Option Nat)
    (rows : List ρ) :
    referencePage limit offset first none rows = atMost first (slice limit offset rows) := by
  cases limit with
  | none => cases first <;> rfl
  | some n =>
      cases first with
      | none => rfl
      | some m =>
          change (rows.drop offset).take (min n m) = ((rows.drop offset).take n).take m
          rw [List.take_take, Nat.min_comm]

namespace Draft

/-- A draft whose order does not tell rows apart, with cursors that hold positions and
without an explicit limit. -/
structure Positional (d : Draft) (after before : Option Nat) : Prop where
  primaryKey : d.primaryKey = []
  unique : d.unique = false
  limit : d.limit = none
  after : d.after = after.map naturalCursor
  before : d.before = before.map naturalCursor

namespace Positional

variable {d : Draft} {after before : Option Nat} (hpositional : d.Positional after before)

include hpositional

theorem isUnique : d.isUnique = false := by
  simp [Draft.isUnique, hpositional.unique, hpositional.primaryKey]

theorem effect (isAfter : Bool) (position : Nat) :
    d.effect? isAfter (naturalCursor position) =
      some (if isAfter then .skips position else .cuts position) := by
  have htag : Cursor.tag? (naturalCursor position) = some naturalTag := rfl
  have hposition : naturalPosition? (naturalCursor position) = some position := by
    simp [naturalCursor, naturalPosition?, Json.count?]
  rw [effect?, if_pos ⟨htag, hpositional.isUnique⟩, hposition, hpositional.limit]
  cases isAfter <;> rfl

theorem skipped : d.skipped? = after := by
  rw [skipped?, afterEffect?, hpositional.after]
  cases after with
  | none => rfl
  | some position =>
      rw [Option.map_some, Option.bind_some, hpositional.effect]
      rfl

theorem cut : d.cut? = before := by
  rw [cut?, beforeEffect?, hpositional.before]
  cases before with
  | none => rfl
  | some position =>
      rw [Option.map_some, Option.bind_some, hpositional.effect]
      rfl

theorem readable : d.Readable := by
  constructor
  · intro cursor hcursor
    rw [hpositional.after] at hcursor
    obtain ⟨position, _, rfl⟩ := Option.map_eq_some_iff.mp hcursor
    rw [hpositional.effect]
    rfl
  · intro cursor hcursor
    rw [hpositional.before] at hcursor
    obtain ⟨position, _, rfl⟩ := Option.map_eq_some_iff.mp hcursor
    rw [hpositional.effect]
    rfl

/-- Positions are skipped like the rows of an offset. -/
theorem offsetValue : d.offsetValue = min (d.offsets.sum + after.getD 0) maxCount := by
  rw [Draft.offsetValue, foldl_addCounts _ _ (Nat.zero_le _), allOffsets, hpositional.skipped]
  cases after <;> simp

theorem limitValue : d.limitValue = before.map fun q => q - d.offsetValue - 1 := by
  rw [Draft.limitValue, hpositional.cut, hpositional.limit]
  cases before <;> rfl

theorem good (hguarded : d.Guarded) {plan : Plan} (hplan : d.plan = .ok plan) : d.Good where
  readable := hpositional.readable
  guarded := hguarded
  planned := by
    intro _
    have hkeyed : d.isKeyed = false := by simp [isKeyed, hpositional.isUnique]
    rw [cursorExpr, if_neg (by simp [hkeyed]), position, hplan]
    cases hflip : plan.flip with
    | true => exact ⟨_, if_pos hflip⟩
    | false => exact ⟨_, if_neg (by simp [hflip])⟩

end Positional

end Draft

namespace World

variable {w : World} {s : Step} {d : Draft}

/-- None of the steps is refused, and the build behind them gives a statement that selects
the page out of whatever rows pass its where clause. -/
def Selects (w : World) (steps : List Step) (build : Step)
    (page : (ρ : Type) → List ρ → List ρ) : Prop :=
  (∀ r ∈ w.steps steps, r.Succeeds) ∧
  ∃ (built : Built) (statement : Statement),
    ((w.after steps).step build).1.outcome = .ok (.ok (.fragment built.fragment)) ∧
    built.statement? = some statement ∧
    ∀ (ρ : Type) (rows : List ρ) (count : RowSource → Filter → Nat),
      (∀ source, statement.readsFrom source → count source statement.filter = rows.length) →
        statement.page count rows = page ρ rows

theorem Selects.congr {steps : List Step} {page other : (ρ : Type) → List ρ → List ρ}
    (hselects : w.Selects steps s page) (hsame : ∀ ρ rows, page ρ rows = other ρ rows) :
    w.Selects steps s other := by
  have hpage : page = other := by
    funext ρ rows
    exact hsame ρ rows
  rwa [← hpage]

/-- If there is a plan, nothing is refused, and the build selects the page that the draft asks
for. -/
theorem Drafts.selects {steps : List Step} {options : BuildOptions} (hdrafts : Drafts d w)
    (hgood : d.Good) {plan : Plan} (hplan : d.plan = .ok plan) (hsteps : w.Admits steps)
    (hpath : s.path = []) (hop : s.op = .build options)
    (hstatement : options.onlyJsonField = false) :
    w.Selects steps s fun _ => referencePage d.limitValue d.offsetValue d.first d.last := by
  obtain ⟨⟨hend, htoken⟩, hanswered⟩ := hdrafts.answered hgood hsteps
  obtain ⟨-, houtcome⟩ := (hend.build hpath hop).resolve_right fun hbad => hbad.1 hgood
  have hsource : d.finished.source = some (d.table, d.rowAlias) := rfl
  have hplanOf : d.finished.planOf = .ok plan := hplan
  obtain ⟨statement, hpage⟩ := Builder.statementOf_ok hsource plan options
  have hpage : d.finished.pageStatement options = .ok statement := by
    rw [Builder.pageStatement, hplanOf]
    exact hpage
  rw [Draft.built, if_neg (by simp [hstatement]), hpage] at houtcome
  constructor
  · have hsucceed : List.Forall₂ (fun (r : Report) (_ : Step) => r.Succeeds ∧ True)
        (w.steps steps) steps := by
      refine (hanswered.imp fun s r hanswer => ?_).flip
      refine ⟨hanswer.resolve_right ?_, trivial⟩
      rintro ⟨-, e, hrefused, -⟩
      rw [hplan] at hrefused
      cases hrefused
    exact ((List.forall₂_and_left _ _).mp hsucceed).1
  · refine ⟨_, statement, houtcome, ?_, fun ρ rows count hcount =>
      Builder.page_of_pageStatement hpage hcount⟩
    cases options.asJsonAggregate <;> rfl

section Positional

variable {steps : List Step} {options : BuildOptions} (hdrafts : Drafts d w)
  (hsteps : w.Admits steps) (hpath : s.path = []) (hop : s.op = .build options)
  (hstatement : options.onlyJsonField = false)

include hdrafts hsteps hpath hop hstatement

/-- Without `last`, the first rows between the positions. -/
theorem Drafts.selects_first {after before : Option Nat} (hpositional : d.Positional after before)
    (hlast : d.last = none) :
    w.Selects steps s fun _ rows =>
      atMost d.first (between (min (d.offsets.sum + after.getD 0) maxCount) before rows) := by
  have hcalm : ¬Conflicting d.limitValue d.offsetValue d.first d.last := by
    simp [Conflicting, hlast]
  have hguarded : d.Guarded := fun _ htakes => by simp [hlast] at htakes
  obtain ⟨plan, hplan⟩ := Plan.make_ok_of_not_conflicting hcalm
  have hselects := hdrafts.selects (hpositional.good hguarded hplan) hplan hsteps hpath hop
    hstatement
  apply hselects.congr
  intro ρ rows
  rw [hlast, referencePage_of_first, hpositional.limitValue, ← hpositional.offsetValue,
    between_eq_slice]

/-- Without `first`, an `after` position and an offset, the last rows before the position. -/
theorem Drafts.selects_last {position last : Nat} (hpositional : d.Positional none (some position))
    (hlast : d.last = some last) (hfirst : d.first = none) (hnone : d.offsets.sum = 0) :
    w.Selects steps s fun _ rows => (between 0 (some position) rows).rtake last := by
  have hoffset : d.offsetValue = 0 := by
    rw [hpositional.offsetValue, hnone]
    rfl
  have hlimit : d.limitValue = some (position - 0 - 1) := by
    rw [hpositional.limitValue, hoffset]
    rfl
  have hcalm : ¬Conflicting d.limitValue d.offsetValue d.first d.last := by
    simp [Conflicting, hoffset]
  have hguarded : d.Guarded := by
    intro hsome
    simp [Draft.guards, hpositional.skipped] at hsome
  obtain ⟨plan, hplan⟩ := Plan.make_ok_of_not_conflicting hcalm
  have hselects := hdrafts.selects (hpositional.good hguarded hplan) hplan hsteps hpath hop
    hstatement
  apply hselects.congr
  intro ρ rows
  rw [hlast, hfirst, hlimit, hoffset, between_eq_slice]
  rfl

end Positional

/-- The page of a connection without a primary key, on a builder whose order is not declared
unique and that has no explicit limit, whatever has been asked for before the build. -/
theorem Configured.page_between {setup : ConnectionSetup} {args : ConnectionArgs}
    (hconfigured : Configured true (some (setup, args)) w) (hkey : setup.primaryKey = [])
    (hunique : (w.builder root).orderIsUnique = false)
    (hlimit : (w.builder root).pending.limit = none) {offsets : List Nat}
    (hoffsets : (w.builder root).pending.offsets = offsets.map .ready) {after before : Option Nat}
    (hcursors : args.cursors = .ok ⟨after.map naturalCursor, before.map naturalCursor⟩)
    {steps : List Step} (hsteps : w.Admits steps) {options : BuildOptions} (hpath : s.path = [])
    (hop : s.op = .build options) (hstatement : options.onlyJsonField = false) :
    ((w.builder root).last = none →
      w.Selects steps s fun _ rows => atMost (w.builder root).first
        (between (min (offsets.sum + after.getD 0) maxCount) before rows)) ∧
    ∀ last position, (w.builder root).last = some last → before = some position →
      (w.builder root).first = none → after = none → offsets.sum = 0 →
        w.Selects steps s fun _ rows => (between 0 (some position) rows).rtake last := by
  obtain ⟨d, hb, hdrafts, hkey', hcursors'⟩ := hconfigured.drafts
  rw [hb] at hunique hlimit hoffsets ⊢
  have hready : Function.Injective (Deferred.ready : Nat → DeferredCount) := fun _ _ h =>
    Deferred.ready.inj h
  obtain rfl : d.offsets = offsets := List.map_injective_iff.mpr hready hoffsets
  rw [hcursors] at hcursors'
  obtain ⟨hafter, hbefore⟩ := PageCursors.mk.inj (Except.ok.inj hcursors')
  have hpositional : d.Positional after before := {
    primaryKey := hkey'.trans hkey
    unique := hunique
    limit := Option.map_eq_none_iff.mp hlimit
    after := hafter.symm
    before := hbefore.symm }
  constructor
  · exact hdrafts.selects_first hsteps hpath hop hstatement hpositional
  · rintro last position hlast rfl hfirst rfl hnone
    exact hdrafts.selects_last hsteps hpath hop hstatement hpositional hlast hfirst hnone

/-- A run that sets up a connection without a primary key. -/
def positionalRun (args : ConnectionArgs) : World :=
  let sourced := ((start {} 0).step (.mk [] (.source (.text "items") none) false none)).2
  (sourced.step (.mk [] (.setUpConnection ⟨[], primaryKeyTag⟩ args) false none)).2

/-- The cursors of these arguments hold the positions two and seven. -/
def middleArgs : ConnectionArgs where
  first := some 2
  after := some "WyJuYXR1cmFsIiwyXQ=="
  before := some "WyJuYXR1cmFsIiw3XQ=="
  offset := some 1

def tailArgs : ConnectionArgs where
  last := some 2
  before := some "WyJuYXR1cmFsIiw3XQ=="

def statementStep : Step := .mk [] (.build {}) false none

/-- Two of the rows at the positions four, five and six, and the last two rows before the
seventh, when the plan has been asked for before the statement is built. -/
theorem page_between_positionalRun :
    ((positionalRun middleArgs).Selects [planStep] statementStep fun _ rows =>
      atMost (some 2) (between 3 (some 7) rows)) ∧
    (positionalRun tailArgs).Selects [planStep] statementStep fun _ rows =>
      (between 0 (some 7) rows).rtake 2 := by
  have hadmits (args : ConnectionArgs) : (positionalRun args).Admits [planStep] :=
    ⟨rfl, rfl, fun h => (by cases h), trivial⟩
  have hop : statementStep.op = .build {} := rfl
  constructor
  · have hconfigured : Configured true (some (⟨[], primaryKeyTag⟩, middleArgs))
        (positionalRun middleArgs) := by
      apply Configured.connected _ rfl rfl (by decide +kernel)
      exact Configured.sourced (Configured.start {} 0) rfl rfl (by decide +kernel)
    have hunique : ((positionalRun middleArgs).builder root).orderIsUnique = false := by
      decide +kernel
    have hlimit : ((positionalRun middleArgs).builder root).pending.limit = none :=
      Option.isNone_iff_eq_none.mp (by decide +kernel)
    have hoffsets : ((positionalRun middleArgs).builder root).pending.offsets =
        [1].map .ready := by cbv
    have hcursors : middleArgs.cursors =
        .ok ⟨(some 2).map naturalCursor, (some 7).map naturalCursor⟩ := by cbv
    have hfirst : ((positionalRun middleArgs).builder root).first = some 2 := by decide +kernel
    have hlast : ((positionalRun middleArgs).builder root).last = none := by decide +kernel
    have hselects := (hconfigured.page_between rfl hunique hlimit hoffsets hcursors
      (hadmits middleArgs) rfl hop rfl).1 hlast
    rw [hfirst] at hselects
    exact hselects
  · have hconfigured : Configured true (some (⟨[], primaryKeyTag⟩, tailArgs))
        (positionalRun tailArgs) := by
      apply Configured.connected _ rfl rfl (by decide +kernel)
      exact Configured.sourced (Configured.start {} 0) rfl rfl (by decide +kernel)
    have hunique : ((positionalRun tailArgs).builder root).orderIsUnique = false := by
      decide +kernel
    have hlimit : ((positionalRun tailArgs).builder root).pending.limit = none :=
      Option.isNone_iff_eq_none.mp (by decide +kernel)
    have hoffsets : ((positionalRun tailArgs).builder root).pending.offsets =
        [].map .ready :=
      List.isEmpty_iff.mp (by decide +kernel)
    have hcursors : tailArgs.cursors =
        .ok ⟨(none : Option Nat).map naturalCursor, (some 7).map naturalCursor⟩ := by cbv
    have hfirst : ((positionalRun tailArgs).builder root).first = none := by decide +kernel
    have hlast : ((positionalRun tailArgs).builder root).last = some 2 := by decide +kernel
    exact (hconfigured.page_between rfl hunique hlimit hoffsets hcursors
      (hadmits tailArgs) rfl hop rfl).2 2 7 hlast rfl hfirst rfl rfl

end World

end PageQuery
