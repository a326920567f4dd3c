import PageQuery.Proofs.Database.Aggregate
import PageQuery.Proofs.Database.Seek

/-!
# Pages of a listing

A listing is what a connection pages through: rows in an order, each with its cursor.  Its
pages are taken from one of two ends.  Seen from the end that they are taken from, both
kinds are alike: the rows up to the row of the cursor are done, a page is the first few of
the others, and there is another page if there are more.
-/

namespace PageQuery

open Sql
open Cursor (Bound)

variable {ρ V : Type} [LinearOrder V]

/-- The tag of a cursor that was decoded, and the values behind it. -/
def Cursor.tagged? : Except Error (List Json) → Option (String × List Json)
  | .ok (.string tag :: values) => some (tag, values)
  | _ => none

theorem Cursor.tagged?_eq_some_iff {cursor : Except Error (List Json)}
    {p : String × List Json} : tagged? cursor = some p ↔ cursor = .ok (.string p.1 :: p.2) := by
  obtain ⟨tag, values⟩ := p
  fun_cases tagged? cursor with
  | case1 => simp
  | case2 _ hother =>
      simp only [reduceCtorEq, false_iff]
      exact hother tag values

/-- The end that pages are taken from. -/
inductive Direction
  | forward
  | backward
  deriving DecidableEq

namespace Direction

def flips : Direction → Bool
  | .forward => false
  | .backward => true

/-- The rows as they are met from the end. -/
def turn (d : Direction) (rows : List ρ) : List ρ :=
  if d.flips then rows.reverse else rows

/-- The arguments of a page. -/
def args (d : Direction) (size : Nat) (cursor : Option String) : ConnectionArgs :=
  match d with
  | .forward => { first := some size, after := cursor }
  | .backward => { last := some size, before := cursor }

/-- Whether there is another page. -/
def hasMore (d : Direction) (info : PageInfo) : Bool :=
  match d with
  | .forward => info.hasNextPage
  | .backward => info.hasPreviousPage

/-- The cursor that the next page begins at. -/
def cursor? (d : Direction) (info : PageInfo) : Option String :=
  match d with
  | .forward => info.endCursor
  | .backward => info.startCursor

/-- A page put to the rows of the pages after it. -/
def glue (d : Direction) (page others : List ρ) : List ρ :=
  match d with
  | .forward => page ++ others
  | .backward => others ++ page

theorem glue_turn (d : Direction) (page others : List ρ) :
    d.glue (d.turn page) (d.turn others) = d.turn (page ++ others) := by
  cases d with
  | forward => rfl
  | backward => exact (List.reverse_append).symm

/-- Rows that are turned twice are as they were. -/
theorem turn_turn (d : Direction) (rows : List ρ) : d.turn (d.turn rows) = rows := by
  cases d with
  | forward => rfl
  | backward => exact List.reverse_reverse rows

end Direction

/-- What a connection pages through. -/
structure Listing where
  source : RowSource
  wheres : List Fragment
  order : List OrderTerm
  tag : String
  /-- The selected fields but the cursor. -/
  selects : List Field
  supportsJsonb : Bool

namespace Listing

variable (l : Listing)

/-- The expression of a row's cursor. -/
def cursor : Fragment := (CursorExpr.keyed l.tag (l.order.map OrderTerm.expr)).fragment

/-- The expression of a row's object. -/
def object : Fragment :=
  match l.selects.filter fun field => field.name != cursorAlias with
  | [] => (RowObject.withCursor l.source.rowAlias l.cursor).fragment
  | fields => (RowObject.ofFields l.supportsJsonb (fields ++ [⟨l.cursor, cursorAlias⟩])).fragment

/-- The filter of a page whose rows are bounded on the side of its cursor. -/
def filter (d : Direction) (bounds : List Bound) : Filter :=
  match d with
  | .forward => ⟨[], l.wheres, bounds, []⟩
  | .backward => ⟨[], l.wheres, [], bounds⟩

/-- The statement of a page. -/
def statement (d : Direction) (size : Nat) (bounds : List Bound) : Statement where
  projection := .object l.object (if d.flips then l.order else [])
  source := some (l.source.table, l.source.rowAlias)
  joins := l.source.joins
  filter := l.filter d bounds
  order := l.order
  flip := d.flips
  limit := some size
  skip := .nothing

/-- The flag of the side that the walk goes to. -/
def more (d : Direction) (size : Nat) (bounds : List Bound) : FlagExpr :=
  .beyond l.source (l.filter d bounds) (addCounts 0 size)

/-- The flag of the side that the walk comes from. -/
def passed (bounds : List Bound) : FlagExpr :=
  if bounds.isEmpty then .never else .outside l.source ⟨[], l.wheres, [], []⟩ bounds

def page (d : Direction) (size : Nat) (bounds : List Bound) (token : AliasToken) :
    ConnectionStatement :=
  match d with
  | .forward => ⟨.aggregate (l.statement d size bounds) token, l.more d size bounds,
      l.passed bounds⟩
  | .backward => ⟨.aggregate (l.statement d size bounds) token, l.passed bounds,
      l.more d size bounds⟩

/-- The order as it is met from the end. -/
def turned (d : Direction) : List OrderTerm :=
  if d.flips then l.order.map OrderTerm.flipped else l.order

/-- The bounds of the values in a cursor. -/
def bounds (d : Direction) : Option (List Json) → List Bound
  | none => []
  | some values => [Bound.ofOrder (!d.flips) l.order values]

end Listing

namespace Database

variable (db : Database ρ V) (l : Listing)

/-- The rows of a listing, in no order. -/
def listed : List ρ := db.passing l.source ⟨[], l.wheres, [], []⟩

/-- The rows of a listing in the order that is asked for. -/
def inOrder : List ρ := db.arrange l.order (db.listed l)

/-- The values in the cursor of a row. -/
def cursorValues (r : ρ) : List Json :=
  .string l.tag :: l.order.map fun term => db.json r term.expr

/-- The cursor of a row as a client gets it. -/
def cursorText (r : ρ) : String := Cursor.encode (db.cursorValues l r)

/-- The values of a row, bound back from its cursor, are the row's own. -/
def BindsBack (r : ρ) : Prop :=
  ∃ values, Cursor.decode (db.cursorText l r) = .ok (.string l.tag :: values) ∧
    db.BindsTo l.order values r

theorem bindsBack_iff {r : ρ} : db.BindsBack l r ↔
    ∃ p ∈ Cursor.tagged? (Cursor.decode (db.cursorText l r)),
      p.1 = l.tag ∧ db.BindsTo l.order p.2 r := by
  constructor
  · rintro ⟨values, hcursor, hbinds⟩
    exact ⟨(l.tag, values), Cursor.tagged?_eq_some_iff.mpr hcursor, rfl, hbinds⟩
  · rintro ⟨p, hcursor, htag, hbinds⟩
    refine ⟨p.2, ?_, hbinds⟩
    rw [← htag]
    exact Cursor.tagged?_eq_some_iff.mp hcursor

instance (r : ρ) : Decidable (db.BindsBack l r) :=
  decidable_of_iff _ (db.bindsBack_iff l).symm

/-- What a database is expected to do with a listing.  Its order tells all rows apart and
has no nulls; the expressions of the cursor and of the object are arrays and objects of
their parts; and the values of a row, bound back from its cursor, are the row's own. -/
structure Serves : Prop where
  nonempty : l.order ≠ []
  complete : ∀ r ∈ db.listed l, db.Complete l.order r
  distinct : db.Distinct l.order (db.listed l)
  cursor : ∀ r ∈ db.listed l, db.json r l.cursor = .array (db.cursorValues l r)
  object : ∀ r ∈ db.listed l, ∃ fields, db.json r l.object = .object fields ∧
    Json.field? cursorAlias fields = some (db.json r l.cursor)
  bindsBack : ∀ r ∈ db.listed l, db.BindsBack l r

end Database

/-- The rows up to the row of a cursor are done. -/
inductive Position (db : Database ρ V) (l : Listing) (done : List ρ) : Option (List Json) → Prop
  | start : done = [] → Position db l done none
  | behind {r : ρ} {values : List Json} : done.getLast? = some r →
      db.BindsTo l.order values r → Position db l done (some values)

namespace Database

variable {db : Database ρ V} {l : Listing} {d : Direction} {size : Nat}
  {done others : List ρ} {anchor : Option (List Json)}

theorem compare_turned (r s : ρ) :
    db.compare (l.turned d) r s = .gt ↔ db.compare l.order r s = keptSide (!d.flips) := by
  cases d with
  | forward => rfl
  | backward =>
      change db.compare (l.order.map OrderTerm.flipped) r s = .gt ↔ db.compare l.order r s = .lt
      rw [Reading.compare_flipped, Reading.compare_eq_lt_iff]

theorem distinct_turned (hserves : db.Serves l) :
    db.Distinct (l.turned d) (db.listed l) := by
  cases d with
  | forward => exact hserves.distinct
  | backward => exact hserves.distinct.flipped

theorem nodup_listed : (db.listed l).Nodup := (db.nodup _ _).filter _

/-- In the order of a direction the rows are those of the listing, turned that way. -/
theorem arrange_turned (hserves : db.Serves l) :
    db.arrange (l.turned d) (db.listed l) = d.turn (db.inOrder l) := by
  cases d with
  | forward => rfl
  | backward => exact arrange_flipped hserves.distinct

/-- The rows of a page are the listed rows within its bounds. -/
theorem passing_filter (bounds : List Bound) :
    db.passing l.source (l.filter d bounds) =
      (db.listed l).filter fun r => bounds.all fun bound => db.truth r bound = some true := by
  rw [listed, passing, passing, List.filter_filter]
  apply List.filter_congr
  intro r _
  cases d <;> simp [Reading.passes, Listing.filter, Bool.and_comm]

/-- The rows behind a row in a strict arrangement. -/
theorem filter_behind {terms : List OrderTerm} {r : ρ}
    (hstrict : (done ++ r :: others).Pairwise fun q s => db.compare terms q s = .lt) :
    (done ++ r :: others).filter (fun s => db.compare terms s r = .gt) = others := by
  obtain ⟨_, hothers, hacross⟩ := List.pairwise_append.mp hstrict
  have hdone : done.filter (fun s => db.compare terms s r = .gt) = [] := by
    rw [List.filter_eq_nil_iff]
    intro s hs
    simp [hacross s hs r List.mem_cons_self]
  have hbehind : others.filter (fun s => db.compare terms s r = .gt) = others := by
    rw [List.filter_eq_self]
    intro s hs
    have hrs := (List.pairwise_cons.mp hothers).1 s hs
    simpa using (db.compare_eq_lt_iff terms).mp hrs
  rw [List.filter_append, List.filter_cons, hdone, hbehind]
  simp [Reading.compare_self]

/-- At every position, what passes the filter of the next page is what is not done. -/
theorem arrange_passing (hserves : db.Serves l)
    (hrows : db.arrange (l.turned d) (db.listed l) = done ++ others)
    (hposition : Position db l done anchor) :
    db.arrange (l.turned d) (db.passing l.source (l.filter d (l.bounds d anchor))) = others := by
  rw [passing_filter, arrange_filter (distinct_turned hserves), hrows]
  cases hposition with
  | start hdone =>
      rw [hdone]
      exact List.filter_true others
  | @behind r values hlast hvalues =>
      obtain ⟨before, rfl⟩ := List.getLast?_eq_some_iff.mp hlast
      rw [List.append_assoc] at hrows
      have hmem : ∀ s ∈ before ++ [r] ++ others, s ∈ db.listed l := by
        intro s hs
        rw [List.append_assoc, List.singleton_append, ← List.singleton_append, ← hrows] at hs
        exact (db.perm _ _).subset hs
      have hr : db.Complete l.order r := hserves.complete r (hmem r (by simp))
      have hbound : ∀ s ∈ before ++ [r] ++ others,
          ((l.bounds d (some values)).all fun bound => db.truth s bound = some true) =
            decide (db.compare (l.turned d) s r = .gt) := by
        intro s hs
        have htruth := Reading.truth_bound (!d.flips) hserves.nonempty
          (hserves.complete s (hmem s hs)) hr hvalues
        simp [Listing.bounds, htruth, compare_turned]
      have hstrict := arrange_strict (distinct_turned (d := d) hserves) nodup_listed
      rw [hrows] at hstrict
      calc
        (before ++ [r] ++ others).filter (fun s =>
            (l.bounds d (some values)).all fun bound => db.truth s bound = some true)
            = (before ++ [r] ++ others).filter fun s => db.compare (l.turned d) s r = .gt :=
          List.filter_congr hbound
        _ = (before ++ r :: others).filter fun s => db.compare (l.turned d) s r = .gt := by
          rw [List.append_assoc, List.singleton_append]
        _ = others := filter_behind hstrict

section

variable [DecidableEq ρ]

/-- A page holds the next rows of the listing. -/
theorem aggregate_statement (hserves : db.Serves l)
    (hrows : db.arrange (l.turned d) (db.listed l) = done ++ others)
    (hposition : Position db l done anchor) :
    db.aggregate (l.statement d size (l.bounds d anchor)) (if d.flips then l.order else []) =
      d.turn (others.take size) := by
  have harrange := arrange_passing hserves hrows hposition
  have hselect : db.select (l.statement d size (l.bounds d anchor)) = others.take size := by
    calc
      db.select (l.statement d size (l.bounds d anchor))
          = ((db.arrange (l.turned d)
            (db.passing l.source (l.filter d (l.bounds d anchor)))).drop 0).take size := rfl
      _ = others.take size := by rw [harrange, List.drop_zero]
  cases d with
  | forward => exact hselect
  | backward =>
      have hnumbered : Built.isNumbered
          (l.statement .backward size (l.bounds .backward anchor)) = true := by
        simpa [Built.isNumbered, Listing.statement, Direction.flips] using hserves.nonempty
      calc
        db.aggregate (l.statement .backward size (l.bounds .backward anchor)) l.order
            = (db.select (l.statement .backward size (l.bounds .backward anchor))).reverse :=
          (db.aggregate_order _).trans (if_pos hnumbered)
        _ = (others.take size).reverse := by rw [hselect]

omit [DecidableEq ρ] in
/-- The flag of a page says whether there are rows behind it. -/
theorem flag_more (hserves : db.Serves l)
    (hrows : db.arrange (l.turned d) (db.listed l) = done ++ others)
    (hposition : Position db l done anchor) :
    db.flag (l.more d size (l.bounds d anchor)) =
      decide (min size maxCount < others.length) := by
  have hlength := (db.perm (l.turned d)
    (db.passing l.source (l.filter d (l.bounds d anchor)))).length_eq
  rw [arrange_passing hserves hrows hposition] at hlength
  calc
    db.flag (l.more d size (l.bounds d anchor))
        = decide (addCounts 0 size <
          (db.passing l.source (l.filter d (l.bounds d anchor))).length) := rfl
    _ = decide (min size maxCount < others.length) := by
      rw [hlength, addCounts, Nat.zero_add]

end

/-- The edges of served rows have the cursors of the rows. -/
theorem ofRows_served (hserves : db.Serves l) {rows : List ρ}
    (hrows : ∀ r ∈ rows, r ∈ db.listed l) :
    ∃ edges, Edge.ofRows (rows.map fun r => db.json r l.object) = .ok edges ∧
      edges.map Edge.cursor = rows.map fun r => some (db.cursorText l r) := by
  induction rows with
  | nil => exact ⟨[], rfl, rfl⟩
  | cons r rows ih =>
      obtain ⟨edges, hedges, hcursors⟩ := ih fun s hs => hrows s (List.mem_cons_of_mem _ hs)
      have hr := hrows r List.mem_cons_self
      obtain ⟨fields, hobject, hcursor⟩ := hserves.object r hr
      rw [hserves.cursor r hr] at hcursor
      obtain ⟨edge, hedge, hown⟩ : ∃ edge, Edge.ofRow (db.json r l.object) = .ok edge ∧
          edge.cursor = some (db.cursorText l r) := by
        rw [hobject, Edge.ofRow, hcursor]
        exact ⟨_, rfl, rfl⟩
      refine ⟨edge :: edges, ?_, ?_⟩
      · rw [List.map_cons, Edge.ofRows, hedge, hedges]
        rfl
      · rw [List.map_cons, List.map_cons, hcursors, hown]

theorem cursor?_ofEdges {rows : List ρ} {edges : List Edge}
    (hcursors : edges.map Edge.cursor = (d.turn rows).map fun r => some (db.cursorText l r))
    (next previous : Bool) :
    d.cursor? (Connection.ofEdges edges next previous).pageInfo =
      rows.getLast?.map (db.cursorText l) := by
  have hjoin (row : Option ρ) (edge : Option Edge)
      (h : edge.map Edge.cursor = row.map fun r => some (db.cursorText l r)) :
      edge.bind Edge.cursor = row.map (db.cursorText l) := by
    cases row <;> cases edge <;> simp_all
  have hhead : edges.head?.bind Edge.cursor = (d.turn rows).head?.map (db.cursorText l) := by
    apply hjoin
    rw [← List.head?_map, ← List.head?_map, hcursors]
  have hlast : edges.getLast?.bind Edge.cursor = (d.turn rows).getLast?.map (db.cursorText l) := by
    apply hjoin
    rw [← List.getLast?_map, ← List.getLast?_map, hcursors]
  cases d with
  | forward => exact hlast
  | backward => exact hhead.trans (by rw [← List.head?_reverse]; rfl)

/-- A page holds the first of the rows that are not done, says whether there are more, and
gives the cursor of the last of them. -/
theorem page?_page [DecidableEq ρ] (hserves : db.Serves l)
    (hrows : db.arrange (l.turned d) (db.listed l) = done ++ others)
    (hposition : Position db l done anchor) (token : AliasToken) :
    ∃ page, db.page? (l.page d size (l.bounds d anchor) token) = some page ∧
      page.rows = d.turn (others.take size) ∧
      d.hasMore page.connection.pageInfo = decide (min size maxCount < others.length) ∧
      d.cursor? page.connection.pageInfo =
        (others.take size).getLast?.map (db.cursorText l) := by
  have haggregate : db.aggregate (l.statement d size (l.bounds d anchor))
      (if d.flips then l.order else []) = d.turn (others.take size) :=
    aggregate_statement hserves hrows hposition
  have hflag : db.flag (l.more d size (l.bounds d anchor)) =
      decide (min size maxCount < others.length) := flag_more hserves hrows hposition
  have hmem : ∀ r ∈ d.turn (others.take size), r ∈ db.listed l := by
    intro r hr
    have hothers : r ∈ others := by
      cases d with
      | forward => exact List.mem_of_mem_take hr
      | backward => exact List.mem_of_mem_take (List.mem_reverse.mp hr)
    apply (db.perm (l.turned d) (db.listed l)).subset
    rw [hrows]
    exact List.mem_append_right done hothers
  obtain ⟨edges, hedges, hcursors⟩ := ofRows_served hserves hmem
  rw [← haggregate] at hedges
  have hnumbered : Built.isNumbered (l.statement d size (l.bounds d anchor)) = true →
      (if d.flips then l.order else []) ≠ [] := by
    intro hflip
    cases d with
    | forward => cases hflip
    | backward => exact hserves.nonempty
  cases d with
  | forward | backward =>
      exact ⟨_, db.page?_aggregate rfl rfl hnumbered hedges, haggregate, hflag,
        cursor?_ofEdges hcursors _ _⟩

end Database

end PageQuery
