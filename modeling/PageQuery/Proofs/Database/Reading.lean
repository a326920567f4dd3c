import Mathlib
import PageQuery.Connection.Basic
import PageQuery.Proofs.Page.Selection

/-!
# How a database answers

The fragments of a caller are opaque here: a database says what each of them is on each
of its rows.  What is put around them has a meaning of its own, which is spelled out:
bounds in the logic of three truth values, filters, orders with their nulls, limits, row
numbers, and the two flags of a page.
-/

namespace PageQuery

open Sql
open Cursor (Bound)

/-- A truth value of SQL; nothing is said about unknown facts. -/
abbrev Truth := Option Bool

namespace Truth

def not : Truth → Truth
  | some b => some !b
  | none => none

def and : Truth → Truth → Truth
  | some false, _ => some false
  | some true, t => t
  | none, some false => some false
  | none, _ => none

def or : Truth → Truth → Truth
  | some true, _ => some true
  | some false, t => t
  | none, some true => some true
  | none, _ => none

end Truth

/-- What the fragments of a caller are on the rows of a database. -/
structure Reading (ρ V : Type) where
  /-- The value of an expression, if it is not null. -/
  value : ρ → Fragment → Option V
  /-- The truth of a condition. -/
  holds : ρ → Fragment → Truth
  /-- The value that a bound JSON value takes beside an expression. -/
  bind : Fragment → Json → Option V
  /-- The JSON form of an expression. -/
  json : ρ → Fragment → Json

variable {ρ V : Type} [LinearOrder V]

/-- Whether a value is beyond another one. -/
def beyond (greater : Bool) : Option V → Option V → Truth
  | some x, some y => some (decide (if greater then y < x else x < y))
  | _, _ => none

/-- Whether two values are equal. -/
def tied : Option V → Option V → Truth
  | some x, some y => some (decide (x = y))
  | _, _ => none

/-- A comparison of rows ends at the first pair that is unequal or has a null. -/
def beyondRow (greater : Bool) : List (Option V) → List (Option V) → Truth
  | some x :: xs, some y :: ys =>
    if x = y then beyondRow greater xs ys else beyond greater (some x) (some y)
  | [], [] => some false
  | _, _ => none

namespace Sql.OrderTerm

/-- Where a term places nulls: behind the other values if it ascends, unless it says
something else. -/
def nullsFirst (term : OrderTerm) : Bool :=
  match term.nulls with
  | some .first => true
  | some .last => false
  | none => !term.ascending

/-- The order of two values of a term. -/
def compare (term : OrderTerm) : Option V → Option V → Ordering
  | some x, some y =>
    if term.ascending then Ord.compare x y else Ord.compare y x
  | some _, none => if term.nullsFirst then .gt else .lt
  | none, some _ => if term.nullsFirst then .lt else .gt
  | none, none => .eq

end Sql.OrderTerm

namespace Reading

variable (d : Reading ρ V)

/-- The order of two rows. -/
def compare : List OrderTerm → ρ → ρ → Ordering
  | [], _, _ => .eq
  | term :: terms, r, s =>
    (term.compare (d.value r term.expr) (d.value s term.expr)).then (compare terms r s)

/-- The truth of a bound on a row. -/
def truth (r : ρ) : Bound → Truth
  | .given condition => d.holds r condition
  | .never => some false
  | .always => some true
  | .compare expr greater value => beyond greater (d.value r expr) (d.bind expr value)
  | .compareRows exprs greater values =>
    beyondRow greater (exprs.map (d.value r)) (exprs.zipWith d.bind values)
  | .beyondOrTied expr greater value rest =>
    (beyond greater (d.value r expr) (d.bind expr value)).or
      ((tied (d.value r expr) (d.bind expr value)).and (truth r rest))

/-- The truth of one side of the bounds. -/
def sideTruth (r : ρ) (bounds : List Bound) : Truth :=
  bounds.foldr (fun bound rest => (d.truth r bound).and rest) (some true)

/-- A row passes a filter if all parts are true of it. -/
def passes (filter : Filter) (r : ρ) : Bool :=
  (filter.guards ++ filter.wheres).all (fun part => d.holds r part = some true) &&
    (filter.lower ++ filter.upper).all (fun bound => d.truth r bound = some true)

end Reading

/-- The rows of a database, and how it arranges them.  Rows that tie in an order may
come in any order. -/
structure Database (ρ V : Type) [LinearOrder V] extends Reading ρ V where
  /-- The rows of a table with joined tables. -/
  rows : Option (Fragment × Node) → List Fragment → List ρ
  nodup : ∀ source joins, (rows source joins).Nodup
  arrange : List OrderTerm → List ρ → List ρ
  perm : ∀ terms rows, (arrange terms rows).Perm rows
  sorted : ∀ terms rows,
    (arrange terms rows).Pairwise fun r s => toReading.compare terms r s ≠ .gt

/-- A page with the rows that it was made of. -/
structure Page (ρ : Type) where
  rows : List ρ
  connection : Connection

namespace Database

variable [DecidableEq ρ] (db : Database ρ V)

/-- The rows of a source that pass a filter. -/
def passing (source : RowSource) (filter : Filter) : List ρ :=
  (db.rows (some (source.table, source.rowAlias)) source.joins).filter (db.passes filter)

/-- The rows that pass the filter of a statement. -/
def candidates (s : Statement) : List ρ :=
  (db.rows s.source s.joins).filter (db.passes s.filter)

/-- The rows of a statement. -/
def select (s : Statement) : List ρ :=
  let terms := if s.flip then s.order.map OrderTerm.flipped else s.order
  slice s.limit (s.skip.amount fun source filter => (db.passing source filter).length)
    (db.arrange terms (db.candidates s))

/-- The number of a row in an order turned around. -/
def rowNumber (s : Statement) (numberedBy : List OrderTerm) (r : ρ) : Nat :=
  (db.arrange (numberedBy.map OrderTerm.flipped) (db.candidates s)).idxOf r

/-- The rows of a statement as an aggregate puts them together. -/
def aggregate (s : Statement) (numberedBy : List OrderTerm) : List ρ :=
  if Built.isNumbered s then
    (db.select s).mergeSort fun q r => db.rowNumber s numberedBy r ≤ db.rowNumber s numberedBy q
  else db.select s

/-- The value of a flag. -/
def flag : FlagExpr → Bool
  | .never => false
  | .beyond source filter skip => decide (skip < (db.passing source filter).length)
  | .outside source filter bounds =>
    (db.passing source filter).any fun r => (db.sideTruth r bounds).not = some true

/-- The page that a statement gives.  There is none if the statement has no column of
objects, or no column of the row numbers that it sorts by. -/
def page? (s : ConnectionStatement) : Option (Page ρ) :=
  match s.page with
  | .aggregate inner _ =>
    match inner.projection with
    | .object object numberedBy =>
      if Built.isNumbered inner && numberedBy.isEmpty then none
      else
        let rows := db.aggregate inner numberedBy
        match Connection.ofJson (.array (rows.map fun r => db.json r object))
            (db.flag s.next) (db.flag s.previous) with
        | .ok connection => some ⟨rows, connection⟩
        | .error _ => none
    | _ => none
  | _ => none

theorem page?_aggregate {s : ConnectionStatement} {inner : Statement} {token : AliasToken}
    {object : Fragment} {numberedBy : List OrderTerm} {edges : List Edge}
    (hpage : s.page = .aggregate inner token)
    (hprojection : inner.projection = .object object numberedBy)
    (hnumbered : Built.isNumbered inner = true → numberedBy ≠ [])
    (hedges : Edge.ofRows ((db.aggregate inner numberedBy).map fun r => db.json r object) =
      .ok edges) :
    db.page? s = some ⟨db.aggregate inner numberedBy,
      Connection.ofEdges edges (db.flag s.next) (db.flag s.previous)⟩ := by
  have hcolumns : (Built.isNumbered inner && numberedBy.isEmpty) = false := by
    cases h : Built.isNumbered inner with
    | false => rfl
    | true => simpa using hnumbered h
  rw [page?, hpage]
  simp only [hprojection, hcolumns, Connection.ofJson, Connection.rowsOf]
  change (match (do return Connection.ofEdges (← Edge.ofRows _) _ _ :
    Except Error Connection) with | .ok connection => _ | .error _ => none) = _
  rw [hedges]
  rfl

end Database

end PageQuery
