import PageQuery.Proofs.Cursor.Spelling
import PageQuery.Proofs.Database.Seek
import PageQuery.Proofs.Lock.Frozen
import PageQuery.Proofs.Walk.Request

/-!
# The bound of a cursor

A comparator of rows registers one bound for a cursor, on the side that the cursor is for.
Main statement: what the text of this bound says, read as SQL reads it, is that a row comes
strictly behind the values of the cursor, or strictly ahead of them, in the lexicographic
order of the terms, each in its own direction.  Where all directions are the same, the
expansion of the bound says the same of every row as the comparison of rows does.
-/

namespace PageQuery

open Sql
open Cursor (Bound)

variable {ρ V : Type} [LinearOrder V]

namespace Reading

variable (d : Reading ρ V)

/-- The truth of a condition as it is read. -/
def meets (r : ρ) : Condition → Truth
  | .given f => d.holds r f
  | .literal value => some value
  | .beyond greater expr value => beyond greater (d.value r expr) (d.bind expr value)
  | .beyondRow greater exprs values =>
    beyondRow greater (exprs.map (d.value r)) (exprs.zipWith d.bind values)
  | .equal expr value => tied (d.value r expr) (d.bind expr value)
  | .and left right => (meets r left).and (meets r right)
  | .or left right => (meets r left).or (meets r right)

/-- How a row compares with the values of a cursor: as the first term says in which they do
not tie. -/
def compareValues : List OrderTerm → ρ → List Json → Ordering
  | term :: terms, r, value :: values =>
    (term.compare (d.value r term.expr) (d.bind term.expr value)).then
      (compareValues terms r values)
  | _, _, _ => .eq

/-- There is a value for each term, and none of them is null. -/
def BindsAll (terms : List OrderTerm) (values : List Json) : Prop :=
  List.Forall₂ (fun term value => ∃ y, d.bind term.expr value = some y) terms values

variable {d} {terms : List OrderTerm} {values : List Json} {r : ρ}

theorem meets_condition (r : ρ) (bound : Bound) : d.meets r bound.condition = d.truth r bound := by
  induction bound with
  | beyondOrTied expr greater value rest ih =>
      simp only [Bound.condition, meets, ih]
      rfl
  | given | never | always | compare | compareRows => rfl

/-- Without nulls, the truth of a bound is the side that the row is on. -/
theorem seekTruth_of_complete (isAfter : Bool) (hr : d.Complete terms r)
    (hvalues : d.BindsAll terms values) :
    d.seekTruth isAfter terms values r =
      some (decide (d.compareValues terms r values = keptSide isAfter)) := by
  induction hvalues with
  | nil => cases isAfter <;> rfl
  | @cons term value terms values hvalue _ ih =>
      obtain ⟨x, hx⟩ := hr.head
      obtain ⟨y, hy⟩ := hvalue
      rw [seekTruth, compareValues]
      simp only [hx, hy, then_eq_keptSide_iff]
      by_cases hsame : x = y
      · have htie : term.compare (some x) (some y) = .eq :=
          (compare_some_eq_iff term x y).mpr hsame
        rw [if_pos hsame, ih hr.tail, htie]
        cases isAfter <;> simp [keptSide]
      · have htie : term.compare (some x) (some y) ≠ .eq :=
          mt (compare_some_eq_iff term x y).mp hsame
        simp [hsame, beyond_some, htie]

end Reading

namespace Action

variable {id : BuilderId} {w w' : World} {cursor : List Json} {isAfter : Bool}

theorem bounded_of_bound {bound : Bound}
    (hrun : (Action.bound bound isAfter).exec id w = (.ok (), w')) :
    w'.builder id = (w.builder id).bounded isAfter [bound] := by
  cases hlocked : (w.builder id).locked .bounds with
  | true =>
      rw [Action.bound, exec_checkLock_bind_locked _ hlocked] at hrun
      cases hrun
  | false =>
      obtain ⟨middle, hrun', hbuilder, _⟩ := Turns.bound bound isAfter hlocked w rfl rfl
      rw [hrun'] at hrun
      cases hrun
      exact hbuilder

/-- The bound that a comparator of rows makes of a cursor. -/
def rowBound (b : Builder) (cursor : List Json) (isAfter : Bool) : Bound :=
  match Cursor.keyedBound b.cursorTag b.resolved.orderTerms cursor isAfter with
  | .ok bound => bound
  | .error _ => .never

theorem bounded_of_rowBound {b : Builder}
    (hrun : (match Cursor.keyedBound b.cursorTag b.resolved.orderTerms cursor isAfter with
      | .error reason => rejectCursor isAfter reason
      | .ok condition => Action.bound condition isAfter : Action Unit).exec id w = (.ok (), w')) :
    w'.builder id = (w.builder id).bounded isAfter [rowBound b cursor isAfter] := by
  rw [rowBound]
  cases hbound : Cursor.keyedBound b.cursorTag b.resolved.orderTerms cursor isAfter with
  | ok bound =>
      rw [hbound] at hrun
      exact bounded_of_bound hrun
  | error reason =>
      rw [hbound] at hrun
      obtain ⟨_, _, hread, hrun⟩ := exec_bind_eq_ok hrun
      cases hread
      obtain ⟨_, _, hlog, hrun⟩ := exec_bind_eq_ok hrun
      cases hlog
      have hbounded := bounded_of_bound hrun
      exact hbounded

/-- Whenever a comparator of rows is not refused, it registers this one bound. -/
theorem compareRow_registers {fuel : Nat} (hlive : id < w.nextBuilder) (hclosed : w.Closed)
    (hrun : (compareRow (lockWith fuel) cursor isAfter).exec id w = (.ok (), w')) :
    (w'.builder id).resolved.orderTerms ≠ [] ∧
      ∃ b : Builder, w'.builder id =
        b.bounded isAfter [rowBound (w'.builder id) cursor isAfter] := by
  obtain ⟨terms, w₁, hterms, hrun⟩ := exec_bind_eq_ok hrun
  obtain ⟨_, _, hlock, hself⟩ := exec_bind_eq_ok hterms
  cases hself
  have hkept := (lawful_lockWith fuel).locks hlive hclosed hlock
  have hlive₁ := hkept.live hlive
  -- The order is locked now, so it is still the same when the bound is registered.
  generalize horder : (w₁.builder id).resolved.orderTerms = terms at hrun
  have hfrozen : w₁.Frozen id .order terms := ⟨hkept.holds, horder⟩
  have hrespects : (lockWith fuel).Respects (World.Frozen id .order terms) := respects_frozen fuel
  change ((if terms.isEmpty then _ else _ : Action Unit).exec id w₁) = _ at hrun
  rw [exec_ite] at hrun
  split at hrun
  · cases hrun
  obtain ⟨unique, w₂, hunique, hrun⟩ := exec_bind_eq_ok hrun
  have hkept₂ :=
    (hrespects.logic.isOrderUnique (n := 0) true).kept hlive₁ hkept.closed hfrozen hunique
  have hlive₂ := hkept₂.live hlive₁
  cases unique with
  | false => cases hrun
  | true =>
      obtain ⟨tag, w₃, htag, hrun⟩ := exec_bind_eq_ok hrun
      have hkept₃ :=
        (hrespects.logic.cursorTag (n := 0)).kept hlive₂ hkept₂.closed hkept₂.holds htag
      obtain ⟨_, _, _, hself⟩ := exec_bind_eq_ok htag
      cases hself
      have horder₃ : (w₃.builder id).resolved.orderTerms = terms := hkept₃.holds.2
      rw [← horder₃] at hrun
      have hregisters := bounded_of_rowBound hrun
      refine ⟨?_, w₃.builder id, ?_⟩
      · rw [hregisters]
        change (w₃.builder id).resolved.orderTerms ≠ []
        rw [horder₃]
        simpa using ‹¬terms.isEmpty = true›
      · rw [hregisters]
        rfl

/-- The bound that a comparator of rows registers for the values of a cursor is on the lower
side exactly if the cursor is one to start behind.  Its text, with no fragment of a caller in
it but the expressions of the order, says that a row is strictly on the wanted side of the
values, in the lexicographic order in which each term has its own direction.  If all directions are
the same it is the comparison of rows, and the expansion always says the same of every row.
The bound is registered wherever the order and the tag are settled and the bounds are open. -/
theorem compareRow_seeks (d : Reading ρ V) {fuel : Nat} {tag : String} {values : List Json}
    {terms : List OrderTerm} (hlive : id < w.nextBuilder) (hclosed : w.Closed)
    (hrun : (compareRow (lockWith fuel) (.string tag :: values) isAfter).exec id w = (.ok (), w'))
    (htag : (w'.builder id).cursorTag = tag)
    (hterms : (w'.builder id).resolved.orderTerms = terms)
    (hlength : values.length = terms.length) :
    ∃ (bound : Bound) (pieces : List Piece) (condition : Condition),
      (∃ b : Builder, w'.builder id = b.bounded isAfter [bound]) ∧
      Spells bound.fragment (terms.map OrderTerm.expr) pieces condition ∧
      (d.BindsAll terms values → ∀ r, d.Complete terms r →
        d.meets r condition =
          some (decide (d.compareValues terms r values = if isAfter then .gt else .lt))) ∧
      (∀ ascending, (∀ term ∈ terms, term.ascending = ascending) →
        bound = .uniform ascending isAfter terms values) ∧
      (∃ (pieces' : List Piece) (expansion : Condition),
        Spells (Bound.spelledOut isAfter terms values).fragment (terms.map OrderTerm.expr)
          pieces' expansion ∧
        ∀ r, d.meets r expansion = d.meets r condition) ∧
      ∀ (saved : List (String × Fragment)) (b : Builder), b.KeyOrdered terms tag →
        b.locked .bounds = false →
        Turns id saved b (compareRow (lockWith fuel) (.string tag :: values) isAfter) ()
          (b.bounded isAfter [bound]) := by
  obtain ⟨hne, b, hregisters⟩ := compareRow_registers hlive hclosed hrun
  rw [hterms] at hne
  have hbound : rowBound (w'.builder id) (.string tag :: values) isAfter =
      Bound.ofOrder isAfter terms values := by
    simp [rowBound, htag, hterms, Cursor.keyedBound, Cursor.tag?, hlength]
  rw [hbound] at hregisters
  have htruth (r : ρ) := Reading.truth_ofOrder_eq_seekTruth (d := d) (r := r) isAfter hne hlength
  refine ⟨_, _, _, ⟨b, hregisters⟩, Bound.spells_ofOrder isAfter hne hlength,
    fun hvalues r hr => ?_, fun ascending huniform => Bound.ofOrder_uniform hne huniform,
    ⟨_, _, Bound.spells_spelledOut isAfter terms values, fun r => ?_⟩,
    fun saved b hkeyed hopen =>
      Turns.compareRow (idle_lockWith fuel) hkeyed hlength isAfter hopen⟩
  · rw [Reading.meets_condition, htruth, Reading.seekTruth_of_complete isAfter hr hvalues]
    rfl
  · rw [Reading.meets_condition, Reading.meets_condition, htruth,
      Reading.truth_spelledOut isAfter hne hlength]

end Action

namespace World

open PageQuery.Action

def twoWaySteps : List Step :=
  [.mk [] (.source (.text "items") none) false none,
    .mk [] (.orderBy (.text "a") false none) false none,
    .mk [] (.orderBy (.text "b") true none) false none,
    .mk [] .setOrderUnique false none,
    .mk [] (.setCursorTag "t") false none]

/-- A run that orders by two columns, down and up, and says that this tells all rows apart. -/
def twoWayRun : World := (start {} 0).after twoWaySteps

/-- The run behind the comparison of a cursor. -/
def twoWayCompared : World :=
  ((compareRow (lockWith 20) [.string "t", .integer 3, .integer 5] true).exec root twoWayRun).2

def twoWayOrder : List OrderTerm := [⟨text "a", false, none⟩, ⟨text "b", true, none⟩]

/-- Rows of two numbers. -/
def pairReading : Reading (Nat × Nat) Nat where
  value row expr :=
    match expr with
    | [.raw "a"] => some row.1
    | _ => some row.2
  holds _ _ := none
  bind _ value := value.count?
  json _ _ := .null

/-- Behind the cursor at three and five come the rows with a lower first number, and of those
with the same one those with a higher second number. -/
theorem compareRow_seeks_twoWayRun :
    ∃ (bound : Bound) (pieces : List Piece) (condition : Condition),
      (∃ b : Builder, twoWayCompared.builder root = b.bounded true [bound]) ∧
      Spells bound.fragment [text "a", text "b"] pieces condition ∧
      pairReading.meets (2, 0) condition = some true ∧
      pairReading.meets (3, 6) condition = some true ∧
      pairReading.meets (3, 5) condition = some false ∧
      pairReading.meets (4, 9) condition = some false := by
  have hsound := ((Reached.initial {} 0).after twoWaySteps (by decide +kernel)).sound
  have hrun : (compareRow (lockWith 20) [.string "t", .integer 3, .integer 5] true).exec root
      twoWayRun = (.ok (), twoWayCompared) := exec_eq_ok (by decide +kernel)
  have hterms : (twoWayCompared.builder root).resolved.orderTerms = twoWayOrder := by cbv
  have hvalues : pairReading.BindsAll twoWayOrder [.integer 3, .integer 5] :=
    .cons ⟨3, rfl⟩ (.cons ⟨5, rfl⟩ .nil)
  have hcomplete (r : Nat × Nat) : pairReading.Complete twoWayOrder r :=
    List.forall_mem_cons.mpr ⟨⟨r.1, rfl⟩, List.forall_mem_singleton.mpr ⟨r.2, rfl⟩⟩
  obtain ⟨bound, pieces, condition, hregisters, hspells, htruth, _⟩ :=
    compareRow_seeks pairReading hsound.1 hsound.2 hrun (by decide +kernel) hterms rfl
  have hmeets (r : Nat × Nat) := htruth hvalues r (hcomplete r)
  exact ⟨bound, pieces, condition, hregisters, hspells, (hmeets _).trans (by decide),
    (hmeets _).trans (by decide), (hmeets _).trans (by decide), (hmeets _).trans (by decide)⟩

end World

end PageQuery
