import PageQuery.Proofs.Database.Order
import PageQuery.Proofs.Page.Flags

/-!
# The positions in cursors

Where the order does not tell rows apart, the cursor of a row is a number: the row's number
in the statement, with the rows added that the statement skips.  The database numbers the
rows that pass the where clause before it skips any of them, so the row's number alone is
its position already.  What is added, or taken off where rows are found from the end, is
the drift of the cursor, and cursors are exact if and only if there is none.
-/

namespace PageQuery

open Sql

variable {ρ V : Type}

/-- The number in a cursor that holds a position, on a row with the given row number. -/
def CursorExpr.number? (count : RowSource → Filter → Nat) (rowNumber : Nat) :
    CursorExpr → Option Int
  | .keyed _ _ => none
  | .fromStart skip => some (rowNumber + skip.amount count)
  | .fromEnd source filter offset => some (count source filter - offset - rowNumber + 1)

namespace Statement

/-- The row number of the row at a position.  Rows are numbered in the order of the
statement, before the limit and the offset. -/
def rowNumber (s : Statement) (total position : Nat) : Nat :=
  if s.flip then total + 1 - position else position

/-- The statement without the conditions that keep null rows out. -/
def unguarded (s : Statement) : Statement :=
  { s with filter := { s.filter with guards := [] } }

theorem mem_of_mem_page {count : RowSource → Filter → Nat} {s : Statement} {rows : List ρ}
    {r : ρ} (hr : r ∈ s.page count rows) : r ∈ rows := by
  have hslice {limit : Option Nat} {skipped : Nat} {rows : List ρ}
      (h : r ∈ slice limit skipped rows) : r ∈ rows := by
    cases limit with
    | none => exact List.mem_of_mem_drop h
    | some n => exact List.mem_of_mem_drop (List.mem_of_mem_take h)
  rw [page] at hr
  split at hr
  · exact List.mem_reverse.mp (hslice (List.mem_reverse.mp hr))
  · exact hslice hr

/-- The rows of a page, whether or not they come with their positions. -/
theorem page_map {σ : Type} (count : RowSource → Filter → Nat) (s : Statement) (f : ρ → σ)
    (rows : List ρ) : s.page count (rows.map f) = (s.page count rows).map f := by
  have hslice (rows : List ρ) :
      slice s.limit (s.skip.amount count) (rows.map f) =
        (slice s.limit (s.skip.amount count) rows).map f := by
    cases s.limit <;> simp [slice]
  simp only [page, ← List.map_reverse, hslice]
  split <;> rfl

end Statement

/-- By how much the number in a cursor differs from the position of its row, if `total`
rows pass the where clause of the statement, and `counted` rows pass the one that the
cursor counts by. -/
def Plan.drift (plan : Plan) (total counted : Nat) : Int :=
  if plan.flip then counted - total - plan.offset else plan.skipped counted

namespace Database

variable [LinearOrder V] (db : Database ρ V)

/-- How many rows of a source pass a filter. -/
abbrev counted (source : RowSource) (filter : Filter) : Nat := (db.passing source filter).length

/-- The rows of a page with their positions, if these are all rows in the order that was
asked for. -/
def numbered (s : Statement) (rows : List ρ) : List (ρ × Nat) :=
  s.page db.counted (rows.zipIdx 1)

/-- The number in the cursor of the row at a position. -/
def cursorNumber? (e : CursorExpr) (s : Statement) (total position : Nat) : Option Int :=
  e.number? db.counted (s.rowNumber total position)

/-- The numbers in the cursors of a page are off by `drift`, so they are the positions of
the rows if and only if there is no drift, or no row. -/
structure Drifts (e : CursorExpr) (s : Statement) (rows : List ρ) (drift : Int) : Prop where
  number : ∀ row ∈ db.numbered s rows,
    db.cursorNumber? e s rows.length row.2 = some (row.2 + drift)
  exact_iff : (∀ row ∈ db.numbered s rows,
      db.cursorNumber? e s rows.length row.2 = some (row.2 : Int)) ↔
    s.page db.counted rows = [] ∨ drift = 0

variable {db} {e : CursorExpr} {s : Statement} {rows : List ρ} {drift : Int}

theorem map_numbered : (db.numbered s rows).map Prod.fst = s.page db.counted rows := by
  rw [numbered, ← Statement.page_map, List.zipIdx_map_fst]

theorem drifts_of_number (hnumber : ∀ row ∈ db.numbered s rows,
    db.cursorNumber? e s rows.length row.2 = some (row.2 + drift)) :
    db.Drifts e s rows drift := by
  refine ⟨hnumber, fun hexact => ?_, fun hnone row hrow => ?_⟩
  · rw [← map_numbered]
    cases hrows : db.numbered s rows with
    | nil => exact Or.inl rfl
    | cons row _ =>
        have hrow : row ∈ db.numbered s rows := by simp [hrows]
        have hsame := (hnumber row hrow).symm.trans (hexact row hrow)
        rw [Option.some.injEq] at hsame
        omega
  · rcases hnone with hnone | hnone
    · rw [← map_numbered, List.map_eq_nil_iff] at hnone
      rw [hnone] at hrow
      cases hrow
    · rw [hnumber row hrow, hnone, Int.add_zero]

end Database

namespace Builder

variable [LinearOrder V] {b : Builder} {options : BuildOptions}

theorem filterOf_default {filter : Filter} (hfilter : b.filterOf true true options = .ok filter) :
    b.filterOf true true {} = .ok { filter with guards := [] } := by
  obtain ⟨guards, _, hrest⟩ := ok_of_bind hfilter
  cases hrest
  rfl

/-- The number in the cursor of the row at a position. -/
theorem number_of_positionOf {plan : Plan} {s : Statement} {e : CursorExpr}
    (hplan : b.planOf = .ok plan) (hstatement : b.statementOf plan options = .ok s)
    (hcursor : b.positionOf = .ok e) (db : Database ρ V) {position : Nat}
    (hposition : position ≤ (db.candidates s).length) :
    db.cursorNumber? e s (db.candidates s).length position =
      some (position +
        plan.drift (db.candidates s).length (db.candidates s.unguarded).length) := by
  obtain ⟨projection, _, hrest⟩ := ok_of_bind hstatement
  obtain ⟨filter, hfilter, hrest⟩ := ok_of_bind hrest
  obtain ⟨skip, _, hrest⟩ := ok_of_bind hrest
  cases hrest
  have hdefault := filterOf_default hfilter
  have hcounted (source : RowSource) (htable : b.source = some (source.table, source.rowAlias))
      (hjoins : b.joins = source.joins) :
      db.counted source { filter with guards := [] } = (db.candidates (Statement.unguarded
        ⟨projection, b.source, b.joins, filter, b.resolved.orderTerms, plan.flip, plan.limit,
          skip⟩)).length := by
    rw [Database.counted, Database.passing, Database.candidates, ← htable, ← hjoins]
    rfl
  obtain ⟨plan', hplan', hcursor⟩ := ok_of_bind hcursor
  rw [hplan] at hplan'
  cases hplan'
  rw [Database.cursorNumber?, Statement.rowNumber, Plan.drift]
  cases hflip : plan.flip with
  | true =>
      simp only [hflip, if_true] at hcursor hposition hcounted ⊢
      obtain ⟨source, hsource, hcursor⟩ := ok_of_bind hcursor
      rw [hdefault] at hcursor
      cases hcursor
      obtain ⟨htable, hjoins⟩ := source_of_rowSource hsource
      rw [CursorExpr.number?, hcounted source htable hjoins]
      congr 1
      omega
  | false =>
      simp only [hflip, Bool.false_eq_true, if_false] at hcursor hcounted ⊢
      obtain ⟨skip', hskip, hcursor⟩ := ok_of_bind hcursor
      cases hcursor
      rw [CursorExpr.number?, amount_of_skipOf hskip hdefault hcounted]

end Builder

namespace Action

variable {lock : Locker} {id : BuilderId} {w w₁ w₂ w₃ : World} {options : BuildOptions}

/-- A build of a finalized builder gives the statement of its plan, or an aggregate of it. -/
theorem pageStatement_of_build (hidle : lock.Idle)
    (hlocked : ∀ c, (w.builder id).locked c = true) (hstatement : options.onlyJsonField = false)
    {built : Built} (hbuild : (build lock options).exec id w = (.ok built, w₁)) {s : Statement}
    (hs : built.statement? = some s) : (w.builder id).pageStatement options = .ok s := by
  rw [exec_build hidle hlocked hstatement] at hbuild
  cases hpage : (w.builder id).pageStatement options with
  | error e =>
      rw [hpage] at hbuild
      cases hbuild
  | ok s' =>
      rw [hpage] at hbuild
      cases haggregate : options.asJsonAggregate with
      | true =>
          simp only [haggregate, if_true] at hbuild
          cases hbuild
          cases hs
          rfl
      | false =>
          simp only [haggregate] at hbuild
          cases hbuild
          cases hs
          rfl

/-- Where cursors hold positions, their numbers are off by the drift of the plan on every
row of a page, whatever the limits are and whatever else is built into the statement. -/
theorem cursorExpression_drifts {fuel : Nat} (hlive : id < w.nextBuilder) (hclosed : w.Closed)
    (hlocks : (lockEverything (lockWith fuel)).exec id w = (.ok (), w₁))
    (hposition : (w₁.builder id).isKeyed = false) {e : CursorExpr}
    (hcursor : (cursorExpression (lockWith fuel)).exec id w₁ = (.ok e, w₂))
    (hstatement : options.onlyJsonField = false) {built : Built} {s : Statement}
    (hbuild : (build (lockWith fuel) options).exec id w = (.ok built, w₃))
    (hs : built.statement? = some s) :
    ∃ plan, (w₁.builder id).planOf = .ok plan ∧
      ∀ (ρ V : Type) [LinearOrder V] (db : Database ρ V) (rows : List ρ),
        rows.Perm (db.candidates s) →
          db.Drifts e s rows (plan.drift rows.length (db.candidates s.unguarded).length) := by
  have hlawful := lawful_lockWith fuel
  have hlocked := (kept_lockEverything hlawful hlive hclosed hlocks).holds
  rw [exec_build_locked hlawful.idle hlocks hlocked] at hbuild
  have hpage := pageStatement_of_build hlawful.idle hlocked hstatement hbuild hs
  have hpositionOf : (w₁.builder id).positionOf = .ok e := by
    rw [exec_cursorExpression hlawful.idle hlocked, Builder.cursorOf, hposition] at hcursor
    change outcome (w₁.builder id).positionOf w₁ = (.ok e, w₂) at hcursor
    cases hposition : (w₁.builder id).positionOf with
    | error error =>
        rw [hposition] at hcursor
        cases hcursor
    | ok e' =>
        rw [hposition] at hcursor
        cases hcursor
        rfl
  obtain ⟨plan, hplan, hpage⟩ := ok_of_bind hpage
  refine ⟨plan, hplan, fun ρ V _ db rows hperm => ?_⟩
  apply Database.drifts_of_number
  intro row hrow
  have hrange := List.snd_lt_add_of_mem_zipIdx (Statement.mem_of_mem_page hrow)
  rw [hperm.length_eq] at hrange ⊢
  apply Builder.number_of_positionOf hplan hpage hpositionOf db
  omega

end Action

namespace World

open PageQuery.Action

/-- A run that asks for the second two of the items by their places. -/
def secondPageRun : World :=
  let sourced := ((start {} 0).step (.mk [] (.source (.text "items") none) false none)).2
  let ordered := (sourced.step (.mk [] (.orderBy (.text "pos") true none) false none)).2
  (ordered.step (.mk [] (.setUpConnection ⟨[], primaryKeyTag⟩
    { first := some 2, offset := some 2 }) false none)).2

def secondPageLocked : World := ((lockEverything (lockWith 20)).exec root secondPageRun).2

/-- Four items, and none of them is left out. -/
def fourItems : Database Nat Nat :=
  Reading.database
    { value := fun item _ => some item
      holds := fun _ _ => some true
      bind := fun _ _ => none
      json := fun _ _ => .null }
    (fun _ _ => [1, 2, 3, 4])
    (fun _ _ => by decide)

theorem reached_secondPageRun : secondPageRun.Reached := by
  apply Reached.next
  · apply Reached.next
    · apply Reached.next
      · exact Reached.initial {} 0
      · decide +kernel
    · decide +kernel
  · decide +kernel

theorem locks_secondPageRun :
    (lockEverything (lockWith 20)).exec root secondPageRun = (.ok (), secondPageLocked) :=
  Prod.ext rfl rfl

/-- The cursors of the second two items, and the statement that selects them. -/
def secondPageCursor : CursorExpr := .fromStart (.rows 2)

def secondPage : Statement where
  projection := .fields [⟨secondPageCursor.fragment, cursorAlias⟩]
  source := some (text "items", aliasNode ⟨0⟩)
  joins := []
  filter := ⟨[], [], [], []⟩
  order := [⟨text "pos", true, none⟩]
  flip := false
  limit := some 2
  skip := .rows 2

theorem locked_secondPageRun (c : Concern) : (secondPageLocked.builder root).locked c = true := by
  obtain ⟨hlive, hclosed⟩ := reached_secondPageRun.sound
  exact (kept_lockEverything (lawful_lockWith 20) hlive hclosed locks_secondPageRun).holds c

theorem cursorExpression_secondPageRun :
    (cursorExpression (lockWith 20)).exec root secondPageLocked =
      (.ok secondPageCursor, secondPageLocked) := by
  have hcursor : (secondPageLocked.builder root).cursorOf = .ok secondPageCursor := rfl
  rw [exec_cursorExpression (idle_lockWith 20) locked_secondPageRun, hcursor]
  rfl

theorem build_secondPageRun : ∃ w₂,
    (build (lockWith 20) {}).exec root secondPageRun = (.ok (.rows secondPage), w₂) := by
  have hpage : (secondPageLocked.builder root).pageStatement {} = .ok secondPage := rfl
  rw [exec_build_locked (idle_lockWith 20) locks_secondPageRun locked_secondPageRun,
    exec_build (idle_lockWith 20) locked_secondPageRun rfl, hpage]
  exact ⟨_, rfl⟩

/-- The cursors of the second two of four items are off by two. -/
theorem cursorExpression_drifts_secondPageRun :
    fourItems.Drifts secondPageCursor secondPage [1, 2, 3, 4] 2 := by
  obtain ⟨hlive, hclosed⟩ := reached_secondPageRun.sound
  obtain ⟨w₂, hbuild⟩ := build_secondPageRun
  have hposition : (secondPageLocked.builder root).isKeyed = false := by decide +kernel
  obtain ⟨plan, hplan, hdrifts⟩ := cursorExpression_drifts hlive hclosed locks_secondPageRun
    hposition cursorExpression_secondPageRun rfl hbuild rfl
  have hsecond : (secondPageLocked.builder root).planOf = .ok ⟨some 2, 2, false, none⟩ := rfl
  rw [hsecond] at hplan
  cases hplan
  exact hdrifts Nat Nat fourItems [1, 2, 3, 4] (by decide +kernel)

/-- The second two of four items are the third and the fourth, and their cursors say that
they are the fifth and the sixth. -/
theorem number_missed_secondPageRun :
    (∃ w₂, (build (lockWith 20) {}).exec root secondPageRun = (.ok (.rows secondPage), w₂)) ∧
      (cursorExpression (lockWith 20)).exec root secondPageLocked =
        (.ok secondPageCursor, secondPageLocked) ∧
      fourItems.candidates secondPage = [1, 2, 3, 4] ∧
      fourItems.numbered secondPage [1, 2, 3, 4] = [(3, 3), (4, 4)] ∧
      fourItems.cursorNumber? secondPageCursor secondPage 4 3 = some 5 ∧
      fourItems.cursorNumber? secondPageCursor secondPage 4 4 = some 6 := by
  refine ⟨build_secondPageRun, cursorExpression_secondPageRun, ?_, ?_, ?_, ?_⟩
  · decide +kernel
  · decide +kernel
  · decide +kernel
  · decide +kernel

end World

end PageQuery
