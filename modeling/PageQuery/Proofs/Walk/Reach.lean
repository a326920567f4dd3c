import Mathlib.Data.Int.Order.Basic
import PageQuery.Proofs.Run.Session
import PageQuery.Proofs.Walk.Request

/-!
# Rows within reach of a cursor

The bounds of a row, one to seek behind it and one to seek ahead of it, divide the other
rows of a unique order as the order itself does.  A null ends that: an order has a place
for nulls, and a bound has none.  Main statement: of the rows that no null keeps apart from
the row of a cursor, each satisfies just one of the two bounds, by its place in the order;
the others satisfy neither.
-/

namespace PageQuery

open Sql
open Cursor (Bound)

variable {ρ V : Type} [LinearOrder V]

namespace Reading

variable {d : Reading ρ V} {terms : List OrderTerm} {values : List Json} {r c : ρ}

/-- A bound keeps the rows on its side that are within reach. -/
theorem truth_ofOrder_iff (isAfter : Bool) (hne : terms ≠ []) (hvalues : d.BindsTo terms values c) :
    d.truth r (Bound.ofOrder isAfter terms values) = some true ↔
      d.inReach terms r c = true ∧ d.compare terms r c = keptSide isAfter := by
  rw [truth_ofOrder isAfter hne hvalues, boundTruth]
  cases d.inReach terms r c <;> simp

/-- Of two rows that do not tie, one is behind the other or ahead of it. -/
theorem Distinct.lt_or_gt {rows : List ρ} (hdistinct : d.Distinct terms rows) (hr : r ∈ rows)
    (hc : c ∈ rows) (hother : r ≠ c) :
    d.compare terms r c = .lt ∧ d.compare terms c r = .gt ∨
      d.compare terms r c = .gt ∧ d.compare terms c r = .lt := by
  have hswap := d.compare_swap terms r c
  cases h : d.compare terms r c with
  | eq => exact absurd (hdistinct r hr c hc h) hother
  | lt => exact .inl ⟨rfl, by rw [← hswap, h]; rfl⟩
  | gt => exact .inr ⟨rfl, by rw [← hswap, h]; rfl⟩

/-- The two bounds of a row divide the rows within its reach, and keep no other row. -/
theorem bounds_divide {rows : List ρ} (hne : terms ≠ []) (hdistinct : d.Distinct terms rows)
    (hc : c ∈ rows) (hvalues : d.BindsTo terms values c) (hr : r ∈ rows) (hother : r ≠ c) :
    if d.inReach terms r c then
      (d.truth r (Bound.ofOrder true terms values) = some true ↔ d.compare terms c r = .lt) ∧
        (d.truth r (Bound.ofOrder false terms values) = some true ↔
          d.truth r (Bound.ofOrder true terms values) ≠ some true)
    else
      d.truth r (Bound.ofOrder true terms values) ≠ some true ∧
        d.truth r (Bound.ofOrder false terms values) ≠ some true := by
  have hafter := truth_ofOrder_iff (r := r) true hne hvalues
  have hbefore := truth_ofOrder_iff (r := r) false hne hvalues
  rw [Ne, hafter, Ne, hbefore]
  cases d.inReach terms r c with
  | false => simp
  | true =>
      obtain ⟨hrc, hcr⟩ | ⟨hrc, hcr⟩ := hdistinct.lt_or_gt hr hc hother <;>
        simp [keptSide, hrc, hcr]

end Reading

namespace Action

variable {id : BuilderId} {saved : List (String × Fragment)} {b : Builder} {lock : Locker}
  {terms : List OrderTerm} {tag : String} {d : Reading ρ V} {rows : List ρ} {c : ρ}
  {values : List Json}

/-- The cursor of a row, compared both ways, gives two bounds.  A row that no null keeps
apart from the row of the cursor satisfies just one of them, the one behind the cursor if it
comes later in the order.  All other rows satisfy neither. -/
theorem compareRow_divides (hidle : lock.Idle) (hkeyed : b.KeyOrdered terms tag)
    (hopen : b.locked .bounds = false) (hdistinct : d.Distinct terms rows) (hc : c ∈ rows)
    (hvalues : d.BindsTo terms values c) :
    ∃ after before : Bound,
      Turns id saved b (compareRow lock (.string tag :: values) true) () (b.bounded true [after]) ∧
      Turns id saved b (compareRow lock (.string tag :: values) false) ()
        (b.bounded false [before]) ∧
      ∀ r ∈ rows, r ≠ c →
        if d.inReach terms r c then
          (d.truth r after = some true ↔ d.compare terms c r = .lt) ∧
            (d.truth r before = some true ↔ d.truth r after ≠ some true)
        else d.truth r after ≠ some true ∧ d.truth r before ≠ some true := by
  have hlength : values.length = terms.length := (List.Forall₂.length_eq hvalues).symm
  exact ⟨_, _, Turns.compareRow hidle hkeyed hlength true hopen,
    Turns.compareRow hidle hkeyed hlength false hopen,
    fun r hr hother => Reading.bounds_divide hkeyed.nonempty hdistinct hc hvalues hr hother⟩

end Action

namespace World

open PageQuery.Action

/-- A run that orders by position, and says that this tells all rows apart. -/
def positionRun : World :=
  let sourced := ((start {} 0).step (.mk [] (.source (.text "items") none) false none)).2
  let ordered := (sourced.step (.mk [] (.orderBy (.text "pos") true none) false none)).2
  (ordered.step (.mk [] .setOrderUnique false none)).2

/-- The run once its order and the tag of its cursors have locked. -/
def positionSettled : World :=
  ((lockWith 20 .cursorTag).exec root ((lockWith 20 .order).exec root positionRun).2).2

def positionOrder : List OrderTerm := [⟨text "pos", true, none⟩]

/-- Rows that are a position or none. -/
def positionReading : Reading (Option Int) Int where
  value position _ := position
  holds _ _ := none
  bind _ value :=
    match value with
    | .integer n => some n
    | _ => none
  json position _ := (position.map Json.integer).getD .null

theorem keyOrdered_positionSettled :
    (positionSettled.builder root).KeyOrdered positionOrder naturalTag where
  order := rfl
  uniqueness := rfl
  cursorTag := rfl
  unique := rfl
  nonempty := by decide
  terms := rfl
  tag := rfl

/-- The row behind the cursor satisfies one bound, and the row without a position neither. -/
theorem compareRow_divides_positionSettled :
    ∃ after before : Bound,
      Turns root positionSettled.saved (positionSettled.builder root)
          (compareRow (lockWith 20) [.string naturalTag, .integer 10] true) ()
          ((positionSettled.builder root).bounded true [after]) ∧
        Turns root positionSettled.saved (positionSettled.builder root)
          (compareRow (lockWith 20) [.string naturalTag, .integer 10] false) ()
          ((positionSettled.builder root).bounded false [before]) ∧
        (positionReading.truth (some 20) after = some true ∧
          positionReading.truth (some 20) before ≠ some true) ∧
        positionReading.truth none after ≠ some true ∧
        positionReading.truth none before ≠ some true := by
  have hdistinct : positionReading.Distinct positionOrder [some 10, none, some 20] := by decide
  have hvalues : positionReading.BindsTo positionOrder [.integer 10] (some 10) := by decide
  obtain ⟨after, before, hafter, hbefore, hrows⟩ :=
    @compareRow_divides _ _ _ root positionSettled.saved _ _ _ _ _ _ _ _ (idle_lockWith 20)
      keyOrdered_positionSettled (by decide +kernel) hdistinct (by decide) hvalues
  have hreached := hrows (some 20) (by decide) (by decide)
  have hlost := hrows none (by decide) (by decide)
  rw [if_pos (by decide)] at hreached
  rw [if_neg (by decide)] at hlost
  have hbehind : positionReading.truth (some 20) after = some true :=
    hreached.1.mpr (by decide)
  exact ⟨after, before, hafter, hbefore, ⟨hbehind, fun h => hreached.2.mp h hbehind⟩, hlost⟩

/-- A row without a position comes later than one with a position, and no cursor of that one
leads to it. -/
theorem null_lost_positionSettled :
    positionReading.Distinct positionOrder [some 10, none] ∧
      positionReading.BindsTo positionOrder [.integer 10] (some 10) ∧
      positionReading.compare positionOrder (some 10) none = .lt ∧
      ∃ after before : Bound,
        Turns root positionSettled.saved (positionSettled.builder root)
          (compareRow (lockWith 20) [.string naturalTag, .integer 10] true) ()
          ((positionSettled.builder root).bounded true [after]) ∧
        Turns root positionSettled.saved (positionSettled.builder root)
          (compareRow (lockWith 20) [.string naturalTag, .integer 10] false) ()
          ((positionSettled.builder root).bounded false [before]) ∧
        positionReading.truth none after ≠ some true ∧
        positionReading.truth none before ≠ some true := by
  have hopen : (positionSettled.builder root).locked .bounds = false := by decide +kernel
  have hcompare (isAfter : Bool) : Turns root positionSettled.saved (positionSettled.builder root)
      (compareRow (lockWith 20) [.string naturalTag, .integer 10] isAfter) ()
      ((positionSettled.builder root).bounded isAfter
        [Bound.ofOrder isAfter positionOrder [.integer 10]]) :=
    Turns.compareRow (idle_lockWith 20) keyOrdered_positionSettled rfl isAfter hopen
  exact ⟨by decide, by decide, by decide, _, _, hcompare true, hcompare false, by decide,
    by decide⟩

end World

end PageQuery
