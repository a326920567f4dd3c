import Mathlib.Data.Int.Order.Basic
import PageQuery.Proofs.Walk.Request

/-!
# Walks from page to page

A walk asks for a page, and for the page at its cursor as long as there is said to be
another one.  What is left of the rows gets shorter with every page, and nothing of it is
lost or repeated on the way: the pages put together are all rows in their order, whichever
end the walk begins at and however many rows a page has.
-/

namespace PageQuery

open Sql

variable {ρ V : Type} [LinearOrder V] [DecidableEq ρ]

/-- The page that a request on a builder gets from a database, if it gets one. -/
def World.ask (w : World) (id : BuilderId) (fuel : Nat) (setup : ConnectionSetup)
    (db : Database ρ V) (args : ConnectionArgs) : Option (Page ρ) :=
  match ((Action.request (Action.lockWith fuel) setup args).exec id w).1 with
  | .ok s => db.page? s
  | .error _ => none

/-- The rows of a walk that begins at a cursor, in the order that was asked for. -/
inductive Walk (ask : ConnectionArgs → Option (Page ρ)) (d : Direction) (size : Nat) :
    Option String → List ρ → Prop
  | stop {cursor : Option String} {page : Page ρ} :
      ask (d.args size cursor) = some page →
      d.hasMore page.connection.pageInfo = false →
      Walk ask d size cursor page.rows
  | next {cursor : Option String} {page : Page ρ} {following : String} {rows : List ρ} :
      ask (d.args size cursor) = some page →
      d.hasMore page.connection.pageInfo = true →
      d.cursor? page.connection.pageInfo = some following →
      Walk ask d size (some following) rows →
      Walk ask d size cursor (d.glue page.rows rows)

namespace Walk

variable {ask : ConnectionArgs → Option (Page ρ)} {d : Direction} {size : Nat}
  {cursor : Option String} {page : Page ρ}

omit [DecidableEq ρ] in
/-- A walk ends with a page behind which there is nothing more. -/
theorem iff_of_last (hask : ask (d.args size cursor) = some page)
    (hlast : d.hasMore page.connection.pageInfo = false) (rows : List ρ) :
    Walk ask d size cursor rows ↔ rows = page.rows := by
  constructor
  · intro hwalk
    cases hwalk with
    | stop hask' _ =>
        cases hask.symm.trans hask'
        rfl
    | next hask' hmore _ _ =>
        cases hask.symm.trans hask'
        exact absurd (hlast.symm.trans hmore) (by decide)
  · rintro rfl
    exact .stop hask hlast

omit [DecidableEq ρ] in
/-- A walk goes on behind a page that says so, at the cursor of the page. -/
theorem iff_of_more {following : String} (hask : ask (d.args size cursor) = some page)
    (hmore : d.hasMore page.connection.pageInfo = true)
    (hcursor : d.cursor? page.connection.pageInfo = some following) (rows : List ρ) :
    Walk ask d size cursor rows ↔
      ∃ rest, Walk ask d size (some following) rest ∧ rows = d.glue page.rows rest := by
  constructor
  · intro hwalk
    cases hwalk with
    | stop hask' hlast =>
        cases hask.symm.trans hask'
        exact absurd (hlast.symm.trans hmore) (by decide)
    | next hask' _ hcursor' hwalk' =>
        cases hask.symm.trans hask'
        cases hcursor.symm.trans hcursor'
        exact ⟨_, hwalk', rfl⟩
  · rintro ⟨rest, hwalk, rfl⟩
    exact .next hask hmore hcursor hwalk

end Walk

/-- A walk stands at the cursor of the last row that is done. -/
def Database.Stands (db : Database ρ V) (l : Listing) (done : List ρ) (cursor : Option String) :
    Prop :=
  cursor = done.getLast?.map (db.cursorText l)

namespace World

open PageQuery.Action

variable {w : World} {id : BuilderId} {saved : List (String × Fragment)}
  {setup : ConnectionSetup} {l : Listing} {db : Database ρ V} {d : Direction} {size : Nat}
  {done others : List ρ} {cursor : Option String}

omit [DecidableEq ρ] in
/-- The cursor of a row is read as the values of the row. -/
theorem position_of_stands (hserves : db.Serves l)
    (hdone : ∀ r ∈ done, r ∈ db.listed l) (hstands : db.Stands l done cursor) :
    ∃ anchor, ConnectionArgs.cursor cursor = .ok (anchor.map (.string l.tag :: ·)) ∧
      (∀ values ∈ anchor, values.length = l.order.length) ∧ Position db l done anchor := by
  rw [Database.Stands] at hstands
  cases hlast : done.getLast? with
  | none =>
      rw [hlast] at hstands
      have hstart : done = [] := List.getLast?_eq_none_iff.mp hlast
      exact ⟨none, by rw [hstands]; rfl, by simp, .start hstart⟩
  | some r =>
      rw [hlast] at hstands
      obtain ⟨values, hdecode, hbinds⟩ :=
        hserves.bindsBack r (hdone r (List.mem_of_getLast? hlast))
      refine ⟨some values, ?_, ?_, .behind hlast hbinds⟩
      · rw [hstands]
        change (do return some (← Cursor.decode (db.cursorText l r))) = _
        rw [hdecode]
        rfl
      · intro other hother
        cases hother
        exact hbinds.length_eq.symm

/-- Whatever is asked for where a walk stands, the page is the next one. -/
theorem ask_of_stands (hlists : (w.builder id).Lists w.saved setup l) (hserves : db.Serves l)
    (hsize : 0 < size) (fuel : Nat)
    (hrows : db.arrange (l.turned d) (db.listed l) = done ++ others)
    (hstands : db.Stands l done cursor) :
    ∃ page, w.ask id (fuel + 3) setup db (d.args size cursor) = some page ∧
      page.rows = d.turn (others.take size) ∧
      d.hasMore page.connection.pageInfo = decide (min size maxCount < others.length) ∧
      d.cursor? page.connection.pageInfo =
        (others.take size).getLast?.map (db.cursorText l) := by
  have hdone : ∀ r ∈ done, r ∈ db.listed l := by
    intro r hr
    apply (db.perm (l.turned d) (db.listed l)).subset
    rw [hrows]
    exact List.mem_append_left others hr
  obtain ⟨anchor, hcursor, hlength, hposition⟩ := position_of_stands hserves hdone hstands
  obtain ⟨token, w', hrequest⟩ :=
    Action.exec_request hlists rfl hserves.nonempty hsize fuel hcursor hlength
  obtain ⟨page, hpage, hfacts⟩ := Database.page?_page hserves hrows hposition token
  refine ⟨page, ?_, hfacts⟩
  rw [ask, hrequest]
  exact hpage

/-- From every place of a walk on, the pages are what is not done. -/
theorem walk_from (hlists : (w.builder id).Lists w.saved setup l) (hserves : db.Serves l)
    (hsize : 0 < size) (fuel : Nat)
    (hrows : db.arrange (l.turned d) (db.listed l) = done ++ others)
    (hstands : db.Stands l done cursor) (rows : List ρ) :
    Walk (w.ask id (fuel + 3) setup db) d size cursor rows ↔ rows = d.turn others := by
  -- The induction is on the rows that are not done: a page takes at least one of them.
  induction hn : others.length using Nat.strong_induction_on
    generalizing done others cursor rows with
  | _ n ih =>
      obtain ⟨page, hask, hpage, hmore, hcursor⟩ :=
        ask_of_stands hlists hserves hsize fuel hrows hstands
      by_cases hlast : others.length ≤ min size maxCount
      · have hall : others.take size = others :=
          List.take_of_length_le (Nat.le_trans hlast (Nat.min_le_left _ _))
        have hstop : d.hasMore page.connection.pageInfo = false := by
          rw [hmore, decide_eq_false_iff_not]
          omega
        rw [hall] at hpage
        rw [Walk.iff_of_last hask hstop, hpage]
      · have hgo : d.hasMore page.connection.pageInfo = true := by
          rw [hmore, decide_eq_true_iff]
          omega
        have hne : others.take size ≠ [] := by
          intro hempty
          have hlength := congrArg List.length hempty
          rw [List.length_take, List.length_nil] at hlength
          omega
        obtain ⟨r, hr⟩ : ∃ r, (others.take size).getLast? = some r :=
          ⟨_, List.getLast?_eq_some_getLast hne⟩
        rw [hr] at hcursor
        have hrest : db.arrange (l.turned d) (db.listed l) =
            (done ++ others.take size) ++ others.drop size := calc
          db.arrange (l.turned d) (db.listed l) = done ++ others := hrows
          _ = done ++ (others.take size ++ others.drop size) := by rw [List.take_append_drop]
          _ = (done ++ others.take size) ++ others.drop size := (List.append_assoc _ _ _).symm
        have hstands' : db.Stands l (done ++ others.take size) (some (db.cursorText l r)) := by
          rw [Database.Stands, List.getLast?_append_of_ne_nil _ hne, hr]
          rfl
        have hshorter : (others.drop size).length < n := by
          rw [List.length_drop]
          omega
        have hglue : d.glue page.rows (d.turn (others.drop size)) = d.turn others := calc
          d.glue page.rows (d.turn (others.drop size))
              = d.glue (d.turn (others.take size)) (d.turn (others.drop size)) := by rw [hpage]
          _ = d.turn (others.take size ++ others.drop size) := d.glue_turn _ _
          _ = d.turn others := by rw [List.take_append_drop]
        rw [Walk.iff_of_more hask hgo hcursor, ← hglue]
        simp only [ih _ hshorter hrest hstands' _ rfl, exists_eq_left]

/-- The rows of a walk from either end are all rows of the listing in the order that is
asked for, each once.  There is such a walk, so it ends, and there is no other. -/
theorem walk_iff (hlists : (w.builder id).Lists w.saved setup l) (hserves : db.Serves l)
    (hsize : 0 < size) (fuel : Nat) (d : Direction) :
    (∀ rows, Walk (w.ask id (fuel + 3) setup db) d size none rows ↔ rows = db.inOrder l) ∧
      (db.inOrder l).Perm (db.listed l) ∧
      (db.inOrder l).Pairwise fun r s => db.compare l.order r s = .lt := by
  refine ⟨fun rows => ?_, db.perm _ _,
    Database.arrange_strict hserves.distinct Database.nodup_listed⟩
  have hrows : db.arrange (l.turned d) (db.listed l) = [] ++ d.turn (db.inOrder l) :=
    Database.arrange_turned hserves
  have hstart : db.Stands l [] none := rfl
  rw [walk_from hlists hserves hsize fuel hrows hstart, Direction.turn_turn]

/-- A run that asks for the open items, the latest positions first. -/
def itemsRun : World :=
  let sourced := ((start {} 0).step (.mk [] (.source (.text "items") none) false none)).2
  let selected := (sourced.step (.mk [] (.select (.column .tableAlias "id") "id") false none)).2
  let filtered := (selected.step (.mk [] (.filter (.text "pos < 50")) false none)).2
  (filtered.step (.mk [] (.orderBy (.column .tableAlias "pos") false none) false none)).2

def itemsListing : Listing where
  source := ⟨text "items", aliasNode ⟨0⟩, []⟩
  wheres := [text "pos < 50"]
  order := [⟨(aliasNode ⟨0⟩).column "pos", false, none⟩, ⟨(aliasNode ⟨0⟩).column "id", true, none⟩]
  tag := primaryKeyTag
  selects := [⟨(aliasNode ⟨0⟩).column "id", "id"⟩]
  supportsJsonb := ({} : Options).supportsJsonb

/-- A table of items, each a position and a key.  Their cursors are arrays of both behind
the tag, and their objects hold the cursor beside the key. -/
def items : Database (Int × Int) Int :=
  let column (item : Int × Int) : Fragment → Option Int
    | [.identifier [_, .name "pos"]] => some item.1
    | [.identifier [_, .name "id"]] => some item.2
    | _ => none
  let cursor (item : Int × Int) : Json :=
    .array [.string primaryKeyTag, .integer item.1, .integer item.2]
  Reading.database
    { value := column
      holds := fun item condition =>
        match condition with
        | [.raw "pos < 50"] => some (decide (item.1 < 50))
        | _ => none
      bind := fun _ value =>
        match value with
        | .integer n => some n
        | _ => none
      json := fun item expr =>
        match expr with
        | .raw "json_build_array(" :: _ => cursor item
        | .raw "json_build_object(" :: _ =>
          .object [("__cursor", cursor item), ("id", .integer item.2)]
        | expr => ((column item expr).map Json.integer).getD .null }
    (fun _ _ => [(10, 1), (20, 3), (60, 5), (30, 4), (20, 2)])
    (fun _ _ => by decide)

theorem lists_itemsRun :
    (itemsRun.builder root).Lists itemsRun.saved ⟨["id"], primaryKeyTag⟩ itemsListing where
  source := rfl
  joins := rfl
  opened c hsource hjoins := by
    cases c with
    | source => exact absurd rfl hsource
    | joins => exact absurd rfl hjoins
    | _ => rfl
  callbacks := rfl
  lower := rfl
  upper := rfl
  first := rfl
  last := rfl
  limit := rfl
  offsets := rfl
  wheres := .cons (.ready _) .nil
  selects := ⟨[⟨(aliasNode ⟨0⟩).column "id", "id"⟩], .cons ⟨.ready _, rfl⟩ .nil, rfl⟩
  order := ⟨[⟨(aliasNode ⟨0⟩).column "pos", false, none⟩],
    .cons ⟨.ready _, rfl, rfl⟩ .nil, rfl⟩
  primaryKey := by decide
  tag := rfl
  supportsJsonb := rfl

theorem serves_items : items.Serves itemsListing where
  nonempty := by decide
  complete r _ := by
    intro term hterm
    have hterms : itemsListing.order = [_, _] := rfl
    rw [hterms, List.mem_cons, List.mem_singleton] at hterm
    obtain rfl | rfl := hterm
    · exact ⟨r.1, rfl⟩
    · exact ⟨r.2, rfl⟩
  distinct := by decide +kernel
  cursor _ _ := rfl
  object _ _ := ⟨_, rfl, rfl⟩
  bindsBack := by decide +kernel

theorem inOrder_items :
    items.inOrder itemsListing = [(30, 4), (20, 2), (20, 3), (10, 1)] := by
  apply Database.arrange_unique serves_items.distinct
  · decide +kernel
  · decide +kernel

theorem walk_iff_itemsRun :
    (∀ rows, Walk (itemsRun.ask root 20 ⟨["id"], primaryKeyTag⟩ items) .forward 2 none rows ↔
        rows = [(30, 4), (20, 2), (20, 3), (10, 1)]) ∧
      ∀ rows, Walk (itemsRun.ask root 20 ⟨["id"], primaryKeyTag⟩ items) .backward 3 none rows ↔
        rows = [(30, 4), (20, 2), (20, 3), (10, 1)] := by
  have hforward := (walk_iff lists_itemsRun serves_items Nat.two_pos 17 .forward).1
  have hbackward := (walk_iff lists_itemsRun serves_items (Nat.succ_pos 2) 17 .backward).1
  rw [inOrder_items] at hforward hbackward
  exact ⟨hforward, hbackward⟩

end World

end PageQuery
