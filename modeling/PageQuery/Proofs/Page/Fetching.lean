import PageQuery.Proofs.Database.Aggregate
import PageQuery.Proofs.Page.Position

/-!
# Rows that are fetched

The objects of a page come as rows, or as the items of one array.  A page that is taken from
the end of its rows is turned around in either case, the rows after they have been fetched
and the array by the numbers of its rows.  Main statement: both give the same objects in the
same order, unless `last` takes the end of rows that have no order.  Then nothing was turned
around for the rows, so that they are fetched the other way round.
-/

namespace PageQuery

open Sql

/-- A plan takes the end of all rows for the sake of `last` alone. -/
theorem Plan.flip_of_make {limit : Option Nat} {offset : Nat} {first last : Option Nat}
    {plan : Plan} (hmake : make limit offset first last = .ok plan) :
    plan.flip = true ↔ last.isSome ∧ limit = none ∧ first = none := by
  unfold make at hmake
  cases last with
  | none =>
      cases hmake
      simp
  | some last =>
      cases htighter : tighter limit first with
      | none =>
          rw [htighter] at hmake
          cases hmake
          cases limit <;> cases first <;> simp_all [tighter]
      | some size =>
          have hlimited := (tighter_isSome limit first).mp (by rw [htighter]; rfl)
          rw [htighter] at hmake
          have hflip : plan.flip = false := by
            simp only at hmake
            split at hmake
            · cases hmake
            · split at hmake <;> cases hmake <;> rfl
          rw [hflip]
          cases limit <;> cases first <;> simp_all

namespace Builder

variable {b : Builder} {plan : Plan}

/-- `last` takes the end of rows that have no order. -/
def TakesUnorderedEnd (b : Builder) : Prop :=
  b.last.isSome ∧ b.resolved.limit = none ∧ b.first = none ∧ b.resolved.orderTerms = []

theorem takesUnorderedEnd_iff (hplan : b.planOf = .ok plan) :
    b.TakesUnorderedEnd ↔ plan.flip = true ∧ b.resolved.orderTerms = [] := by
  rw [TakesUnorderedEnd, Plan.flip_of_make hplan]
  tauto

/-- The statements of a page whose objects are rows or the items of one array differ in the
column of the numbers only. -/
theorem pageStatement_objects (hsource : b.source.isSome) (hplan : b.planOf = .ok plan) :
    ∃ (s : Statement) (object : Fragment),
      b.pageStatement { asJson := true } = .ok { s with projection := .object object [] } ∧
      b.pageStatement { asJsonAggregate := true } = .ok { s with
        projection := .object object (if s.flip then s.order else []) } ∧
      s.flip = plan.flip ∧ s.order = b.resolved.orderTerms := by
  obtain ⟨⟨table, rowAlias⟩, hsource⟩ := Option.isSome_iff_exists.mp hsource
  obtain ⟨object, hobject⟩ := rowObject_ok hsource { asJson := true }
  obtain ⟨filter, hfilter⟩ := filterOf_ok hsource true true { asJson := true }
  obtain ⟨skip, hskip⟩ := skipOf_ok hsource plan { asJson := true }
  let s : Statement := {
    projection := .object object [], source := b.source, joins := b.joins, filter
    order := b.resolved.orderTerms, flip := plan.flip, limit := plan.limit, skip }
  have hstatement (options : BuildOptions) (numberedBy : List OrderTerm)
      (hprojection : b.projection plan options = .ok (.object object numberedBy))
      (hsame : b.filterOf true true options = .ok filter)
      (hskipped : b.skipOf plan options = .ok skip) :
      b.pageStatement options = .ok { s with projection := .object object numberedBy } := by
    rw [pageStatement, hplan]
    change b.statementOf plan options = _
    rw [statementOf, hprojection, hsame, hskipped]
    rfl
  refine ⟨s, object, hstatement _ [] ?_ hfilter hskip, hstatement _ _ ?_ hfilter hskip, rfl, rfl⟩
  · rw [projection, hobject, Bool.and_false]
    rfl
  · have hsame : b.rowObject { asJsonAggregate := true } = .ok object := hobject
    rw [projection, hsame, Bool.and_true]
    rfl

end Builder

namespace Action

variable {lock : Locker} {id : BuilderId} {w w₁ : World} {options : BuildOptions}
  {client : Client} {plan : Plan} {compiled : Compiled} {rows : List (List Cell)}

/-- To fetch rows goes on from the world in which everything is locked. -/
theorem exec_fetchRows_locked (hidle : lock.Idle)
    (hrun : (lockEverything lock).exec id w = (.ok (), w₁))
    (hlocked : ∀ c, (w₁.builder id).locked c = true) (options : BuildOptions) (client : Client) :
    (fetchRows lock options client).exec id w = (fetchRows lock options client).exec id w₁ := by
  have hcompile : (compile lock options).exec id w = (compile lock options).exec id w₁ := by
    rw [compile, exec_bind, exec_build_locked hidle hrun hlocked, exec_bind]
  rw [fetchRows, exec_bind, hcompile, exec_bind]

/-- The rows of a statement come back as the client gives them, or turned around. -/
theorem exec_fetchRows (hidle : lock.Idle) (hlocked : ∀ c, (w.builder id).locked c = true)
    (hstatement : options.onlyJsonField = false) (hrows : options.asJsonAggregate = false)
    (hplan : (w.builder id).planOf = .ok plan) {s : Statement}
    (hpage : (w.builder id).pageStatement options = .ok s)
    (hcompile : Sql.compile s.fragment = .ok compiled) (hquery : client.query compiled = .ok rows) :
    ∃ w', (fetchRows lock options client).exec id w =
      (.ok (compiled, if plan.flip then rows.reverse else rows), w') := by
  let w₁ : World := { w with history := w.history ++ [.built id s] }
  have hbuild : (build lock options).exec id w = (.ok (.rows s), w₁) := by
    rw [exec_build hidle hlocked hstatement, hpage, hrows]
    rfl
  obtain ⟨w₂, hcompiled, hsame⟩ : ∃ w₂, (compile lock options).exec id w = (.ok compiled, w₂) ∧
      w₂.builder id = w.builder id := by
    have hfragment : (Built.rows s).fragment = s.fragment := rfl
    rw [compile, exec_bind_ok hbuild, compileFragment, hfragment, hcompile]
    exact ⟨_, rfl, rfl⟩
  have hplan₂ : (PageQuery.Action.plan lock).exec id w₂ = (.ok plan, w₂) := by
    rw [exec_plan hidle (by rwa [hsame]), hsame, hplan]
    rfl
  refine ⟨w₂, ?_⟩
  rw [fetchRows, exec_bind_ok hcompiled, exec_bind_ok hplan₂, hquery]
  change (if _ then _ else _ : Action _).exec id w₂ = _
  rw [hstatement, hrows]
  cases plan.flip <;> rfl

/-- The objects that are fetched as rows are the items of the array of the same page in the
same order, unless `last` takes the end of rows that have no order: then they are fetched the
other way round. -/
theorem fetchRows_objects {fuel : Nat} (hlive : id < w.nextBuilder) (hclosed : w.Closed)
    (hlocks : (lockEverything (lockWith fuel)).exec id w = (.ok (), w₁))
    (hcalm : ¬(w₁.builder id).Conflicting) (hsource : (w₁.builder id).source.isSome) :
    ∃ s s' token w₂ w₃,
      (build (lockWith fuel) { asJson := true }).exec id w = (.ok (.rows s), w₂) ∧
      (build (lockWith fuel) { asJsonAggregate := true }).exec id w =
        (.ok (.aggregate s' token), w₃) ∧
      ∀ (ρ V : Type) [LinearOrder V] [DecidableEq ρ] (db : Database ρ V),
        ∃ objects items, db.objects? (.rows s) = some objects ∧
          db.objects? (.aggregate s' token) = some items ∧
          ∀ (client : Client) (compiled : Compiled) (cells : Json → List Cell),
            Sql.compile s.fragment = .ok compiled →
            client.query compiled = .ok (objects.map cells) →
            ∃ fetched w₄, (fetchRows (lockWith fuel) { asJson := true } client).exec id w =
                (.ok (compiled, fetched), w₄) ∧
              ((w₁.builder id).TakesUnorderedEnd → fetched = items.reverse.map cells) ∧
              (¬(w₁.builder id).TakesUnorderedEnd → fetched = items.map cells) := by
  have hlawful := lawful_lockWith fuel
  have hlocked := (kept_lockEverything hlawful hlive hclosed hlocks).holds
  obtain ⟨plan, hplan⟩ := Plan.make_ok_of_not_conflicting hcalm
  change (w₁.builder id).planOf = .ok plan at hplan
  obtain ⟨s, object, hrows, haggregate, hflip, horder⟩ :=
    Builder.pageStatement_objects hsource hplan
  let plain : Statement := { s with projection := .object object [] }
  let numbered : Statement := { s with
    projection := .object object (if s.flip then s.order else []) }
  obtain ⟨w₂, hplain⟩ : ∃ w₂, (build (lockWith fuel) { asJson := true }).exec id w =
      (.ok (.rows plain), w₂) := by
    rw [exec_build_locked hlawful.idle hlocks hlocked, exec_build hlawful.idle hlocked rfl, hrows]
    exact ⟨_, rfl⟩
  obtain ⟨w₃, hnumbered⟩ : ∃ w₃, (build (lockWith fuel) { asJsonAggregate := true }).exec id w =
      (.ok (.aggregate numbered ⟨w₁.nextToken⟩), w₃) := by
    rw [exec_build_locked hlawful.idle hlocks hlocked, exec_build hlawful.idle hlocked rfl,
      haggregate]
    exact ⟨_, rfl⟩
  refine ⟨plain, numbered, _, w₂, w₃, hplain, hnumbered, fun ρ V _ _ db => ?_⟩
  obtain ⟨objects, hobjects, hitems⟩ := db.objects?_aggregate s object ⟨w₁.nextToken⟩
  refine ⟨objects, _, hobjects, hitems, fun client compiled cells hcompile hquery => ?_⟩
  obtain ⟨w₄, hfetch⟩ := exec_fetchRows hlawful.idle hlocked rfl rfl hplan hrows hcompile hquery
  rw [exec_fetchRows_locked hlawful.idle hlocks hlocked]
  refine ⟨_, w₄, hfetch, ?_⟩
  rw [Builder.takesUnorderedEnd_iff hplan, Built.isNumbered, hflip, horder]
  cases plan.flip with
  | false => simp
  | true => cases (w₁.builder id).resolved.orderTerms <;> simp

end Action

namespace World

open PageQuery.Action

/-- A run that asks for the last two items, in no order. -/
def lastRun : World :=
  let sourced := ((start {} 0).step (.mk [] (.source (.text "items") none) false none)).2
  (sourced.step (.mk [] (.last 2) false none)).2

/-- A run that asks for the last two items by their position. -/
def lastByPositionRun : World :=
  (lastRun.step (.mk [] (.orderBy (.text "pos") true none) false none)).2

def lastByPositionLocked : World :=
  ((lockEverything (lockWith 20)).exec root lastByPositionRun).2

theorem reached_lastByPositionRun : lastByPositionRun.Reached := by
  apply Reached.next
  · apply Reached.next
    · apply Reached.next
      · exact Reached.initial {} 0
      · decide +kernel
    · decide +kernel
  · decide +kernel

theorem fetchRows_objects_lastByPositionRun :
    ∃ s s' token w₂ w₃,
      (build (lockWith 20) { asJson := true }).exec root lastByPositionRun =
        (.ok (.rows s), w₂) ∧
      (build (lockWith 20) { asJsonAggregate := true }).exec root lastByPositionRun =
        (.ok (.aggregate s' token), w₃) ∧
      ∀ (ρ V : Type) [LinearOrder V] [DecidableEq ρ] (db : Database ρ V),
        ∃ objects items, db.objects? (.rows s) = some objects ∧
          db.objects? (.aggregate s' token) = some items ∧
          ∀ (client : Client) (compiled : Compiled) (cells : Json → List Cell),
            Sql.compile s.fragment = .ok compiled →
            client.query compiled = .ok (objects.map cells) →
            ∃ w₄, (fetchRows (lockWith 20) { asJson := true } client).exec root
              lastByPositionRun = (.ok (compiled, items.map cells), w₄) := by
  obtain ⟨hlive, hclosed⟩ := reached_lastByPositionRun.sound
  have hlocks : (lockEverything (lockWith 20)).exec root lastByPositionRun =
      (.ok (), lastByPositionLocked) := Prod.ext rfl rfl
  have hcalm : ¬(lastByPositionLocked.builder root).Conflicting := by
    intro hconflict
    exact absurd hconflict.2.1 (by decide +kernel)
  have hordered : ¬(lastByPositionLocked.builder root).TakesUnorderedEnd := by
    rintro ⟨-, -, -, hnone⟩
    exact absurd (congrArg List.length hnone) (by decide +kernel)
  obtain ⟨s, s', token, w₂, w₃, hrows, hitems, hdb⟩ :=
    fetchRows_objects hlive hclosed hlocks hcalm (by decide +kernel)
  refine ⟨s, s', token, w₂, w₃, hrows, hitems, fun ρ V _ _ db => ?_⟩
  obtain ⟨objects, items, hobjects, hitems, hfetch⟩ := hdb ρ V db
  refine ⟨objects, items, hobjects, hitems, fun client compiled cells hcompile hquery => ?_⟩
  obtain ⟨fetched, w₄, hrun, -, hsame⟩ := hfetch client compiled cells hcompile hquery
  rw [hsame hordered] at hrun
  exact ⟨w₄, hrun⟩

/-- Items whose objects are numbers, and that have no other values. -/
def numberReading : Reading Nat Nat where
  value _ _ := none
  holds _ _ := some true
  bind _ _ := none
  json item _ := .integer item

theorem compare_numberReading (terms : List OrderTerm) (q r : Nat) :
    numberReading.compare terms q r = .eq := by
  induction terms with
  | nil => rfl
  | cons term terms ih => exact ih

/-- Three items, which come in the order in which they are stored. -/
def numberedItems : Database Nat Nat where
  toReading := numberReading
  rows _ _ := [1, 2, 3]
  nodup _ _ := by decide
  arrange _ rows := rows
  perm _ _ := .refl _
  sorted terms _ := List.pairwise_of_forall fun q r => by simp [compare_numberReading terms q r]

/-- The cell of an object. -/
def objectCell (object : Json) : List Cell := [.json (String.ofList object.chars)]

/-- A client that gives the first two items. -/
def firstTwo : Client where
  columns := [⟨"object", .json⟩]
  rows := [.integer 1, .integer 2].map objectCell
  failure := none

/-- Of the last two items in no order, the rows that the client gives are the items of the
array, in their order, and they are fetched the other way round. -/
theorem fetchRows_reversed_lastRun :
    (((build (lockWith 20) { asJson := true }).exec root lastRun).1.toOption.bind
        numberedItems.objects?).map (List.map objectCell) = some firstTwo.rows ∧
      (((build (lockWith 20) { asJsonAggregate := true }).exec root lastRun).1.toOption.bind
        numberedItems.objects?).map (List.map objectCell) = some firstTwo.rows ∧
      ((fetchRows (lockWith 20) { asJson := true } firstTwo).exec root lastRun).1.toOption.map
        Prod.snd = some firstTwo.rows.reverse ∧
      firstTwo.rows.reverse ≠ firstTwo.rows := by
  refine ⟨?_, ?_, ?_, ?_⟩
  · decide +kernel
  · decide +kernel
  · decide +kernel
  · decide +kernel

end World

end PageQuery
