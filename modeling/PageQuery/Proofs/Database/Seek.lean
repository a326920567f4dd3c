import PageQuery.Proofs.Database.Order

/-!
# Bounds by values

A bound holds the values of one row of an order, the row of its cursor.  It is true of
exactly the rows strictly behind that row, or strictly ahead of it, in both of its forms:
as one comparison of rows and spelled out term by term.  Only a null makes it unknown: one
in the first term that does not find the two rows equal.
-/

namespace PageQuery

open Sql
open Cursor (Bound)

variable {ρ V : Type} [LinearOrder V]

/-- How the rows that a bound keeps compare with the row of its cursor. -/
def keptSide (isAfter : Bool) : Ordering := if isAfter then .gt else .lt

theorem then_eq_keptSide_iff {o p : Ordering} (isAfter : Bool) :
    o.then p = keptSide isAfter ↔ o = keptSide isAfter ∨ o = .eq ∧ p = keptSide isAfter := by
  cases o <;> cases isAfter <;> simp [keptSide]

/-- A comparison with the operator of a term tells the kept side of that term. -/
theorem beyond_some (term : OrderTerm) (isAfter : Bool) (x y : V) :
    beyond (Bound.seeksGreater term.ascending isAfter) (some x) (some y) =
      some (decide (term.compare (some x) (some y) = keptSide isAfter)) := by
  obtain ⟨expr, ascending, nulls⟩ := term
  cases ascending <;> cases isAfter <;>
    simp [beyond, Bound.seeksGreater, OrderTerm.compare, keptSide, compare_lt_iff_lt,
      compare_gt_iff_gt]

theorem compare_some_eq_iff (term : OrderTerm) (x y : V) :
    term.compare (some x) (some y) = .eq ↔ x = y := by
  obtain ⟨expr, ascending, nulls⟩ := term
  cases ascending with
  | false => exact compare_eq_iff_eq.trans eq_comm
  | true => exact compare_eq_iff_eq

namespace Truth

/-- Nothing comes of two alternatives that both need an unknown fact. -/
theorem or_and_unknown (t : Truth) : Truth.or none (Truth.and none t) = none := by
  rcases t with _ | _ | _ <;> rfl

theorem or_and_false (t u : Truth) : Truth.or t (Truth.and (some false) u) = t := by
  rcases t with _ | _ | _ <;> rfl

end Truth

namespace Reading

variable (d : Reading ρ V)

/-- A row without nulls in an order. -/
def Complete (terms : List OrderTerm) (r : ρ) : Prop :=
  ∀ term ∈ terms, ∃ x, d.value r term.expr = some x

/-- Whether no null keeps two rows apart: the first term in which they do not have the same
value finds a value in both. -/
def inReach : List OrderTerm → ρ → ρ → Bool
  | [], _, _ => true
  | term :: terms, r, s =>
    match d.value r term.expr, d.value s term.expr with
    | some x, some y => x ≠ y || inReach terms r s
    | _, _ => false

/-- JSON values that bind to the values of a row. -/
def BindsTo (terms : List OrderTerm) (values : List Json) (r : ρ) : Prop :=
  List.Forall₂ (fun term value => d.bind term.expr value = d.value r term.expr) terms values

instance (terms : List OrderTerm) (values : List Json) (r : ρ) :
    Decidable (d.BindsTo terms values r) :=
  inferInstanceAs (Decidable (List.Forall₂ _ _ _))

variable {d} {terms : List OrderTerm} {values : List Json} {r c : ρ} (isAfter : Bool)

omit [LinearOrder V] in
theorem Complete.head {term : OrderTerm} (hr : d.Complete (term :: terms) r) :
    ∃ x, d.value r term.expr = some x :=
  hr term List.mem_cons_self

omit [LinearOrder V] in
theorem Complete.tail {term : OrderTerm} (hr : d.Complete (term :: terms) r) :
    d.Complete terms r :=
  fun other hother => hr other (List.mem_cons_of_mem _ hother)

/-- One term decides, or the others do where it ties. -/
theorem compare_cons_eq_iff (term : OrderTerm) :
    d.compare (term :: terms) r c = keptSide isAfter ↔
      term.compare (d.value r term.expr) (d.value c term.expr) = keptSide isAfter ∨
        term.compare (d.value r term.expr) (d.value c term.expr) = .eq ∧
          d.compare terms r c = keptSide isAfter :=
  then_eq_keptSide_iff isAfter

theorem inReach_of_complete (hr : d.Complete terms r) (hc : d.Complete terms c) :
    d.inReach terms r c = true := by
  induction terms with
  | nil => rfl
  | cons term terms ih =>
      obtain ⟨x, hx⟩ := hr.head
      obtain ⟨y, hy⟩ := hc.head
      simp [inReach, hx, hy, ih hr.tail hc.tail]

/-- The truth of a bound: it is unknown where a null keeps the rows apart. -/
def boundTruth (d : Reading ρ V) (isAfter : Bool) (terms : List OrderTerm) (r c : ρ) : Truth :=
  if d.inReach terms r c then some (decide (d.compare terms r c = keptSide isAfter)) else none

theorem boundTruth_nil : d.boundTruth isAfter [] r c = some false := by
  cases isAfter <;> rfl

/-- The first term decides where it finds two values that are not equal. -/
theorem boundTruth_cons (term : OrderTerm) :
    d.boundTruth isAfter (term :: terms) r c =
      match d.value r term.expr, d.value c term.expr with
      | some x, some y =>
        if x = y then d.boundTruth isAfter terms r c
        else beyond (Bound.seeksGreater term.ascending isAfter) (some x) (some y)
      | _, _ => none := by
  rcases hx : d.value r term.expr with _ | x
  · simp [boundTruth, inReach, hx]
  rcases hy : d.value c term.expr with _ | y
  · simp [boundTruth, inReach, hx, hy]
  by_cases hsame : x = y
  · have htie : term.compare (some x) (some y) = .eq := (compare_some_eq_iff term x y).mpr hsame
    simp only [boundTruth, inReach, hx, hy, compare, htie, Ordering.then]
    simp [hsame]
  · have htie : term.compare (some x) (some y) ≠ .eq := mt (compare_some_eq_iff term x y).mp hsame
    simp only [boundTruth, inReach, hx, hy, beyond_some, compare_cons_eq_iff]
    simp [hsame, htie]

/-- The truth of a bound by any values, term by term: the first value that is not the one of
the row decides, and a null before that leaves it open. -/
def seekTruth (d : Reading ρ V) (isAfter : Bool) : List OrderTerm → List Json → ρ → Truth
  | term :: terms, value :: values, r =>
    match d.value r term.expr, d.bind term.expr value with
    | some x, some y =>
      if x = y then seekTruth d isAfter terms values r
      else beyond (Bound.seeksGreater term.ascending isAfter) (some x) (some y)
    | _, _ => none
  | _, _, _ => some false

/-- A comparison of rows has this truth. -/
theorem truth_uniform {ascending : Bool} (huniform : ∀ term ∈ terms, term.ascending = ascending)
    (hlength : values.length = terms.length) :
    beyondRow (Bound.seeksGreater ascending isAfter)
        ((terms.map OrderTerm.expr).map (d.value r))
        ((terms.map OrderTerm.expr).zipWith d.bind values) =
      d.seekTruth isAfter terms values r := by
  induction terms generalizing values with
  | nil =>
      obtain rfl := List.length_eq_zero_iff.mp hlength
      rfl
  | cons term terms ih =>
      obtain ⟨value, values, rfl⟩ := List.exists_cons_of_length_eq_add_one hlength
      have hterm := huniform term List.mem_cons_self
      have hrest := ih (fun other hother => huniform other (List.mem_cons_of_mem _ hother))
        (Nat.succ_inj.mp hlength)
      rw [seekTruth, hterm, ← hrest]
      simp only [List.map_cons, List.zipWith_cons_cons]
      cases d.value r term.expr <;> cases d.bind term.expr value <;> rfl

/-- And so does the expansion of one, term by term. -/
theorem truth_spelledOut (hne : terms ≠ []) (hlength : values.length = terms.length) :
    d.truth r (Bound.spelledOut isAfter terms values) = d.seekTruth isAfter terms values r := by
  induction terms generalizing values with
  | nil => exact absurd rfl hne
  | cons term terms ih =>
      obtain ⟨value, values, rfl⟩ := List.exists_cons_of_length_eq_add_one hlength
      have hself (x : V) : beyond (Bound.seeksGreater term.ascending isAfter) (some x) (some x) =
          some false := by
        simp [beyond]
      cases terms with
      | nil =>
          obtain rfl := List.length_eq_zero_iff.mp (Nat.succ_inj.mp hlength)
          simp only [Bound.spelledOut, truth, seekTruth]
          rcases d.value r term.expr with _ | x
          · rfl
          rcases d.bind term.expr value with _ | y
          · rfl
          by_cases hsame : x = y <;> simp [hsame, hself]
      | cons term' terms' =>
          have hrest := ih (by simp) (Nat.succ_inj.mp hlength)
          simp only [Bound.spelledOut, truth, hrest]
          rw [seekTruth]
          rcases d.value r term.expr with _ | x
          · exact Truth.or_and_unknown _
          rcases d.bind term.expr value with _ | y
          · exact Truth.or_and_unknown _
          by_cases hsame : x = y
          · simp [hsame, hself, tied, Truth.or, Truth.and]
          · simp only [tied, if_neg hsame, decide_eq_false hsame, Truth.or_and_false]

theorem truth_ofOrder_eq_seekTruth (hne : terms ≠ []) (hlength : values.length = terms.length) :
    d.truth r (Bound.ofOrder isAfter terms values) = d.seekTruth isAfter terms values r := by
  obtain ⟨first, rest, rfl⟩ := List.exists_cons_of_ne_nil hne
  rw [Bound.ofOrder]
  split
  · rename_i huniform
    have hall : ∀ term ∈ first :: rest, term.ascending = first.ascending := by
      simpa using huniform
    cases rest with
    | nil =>
        obtain ⟨value, rfl⟩ := List.length_eq_one_iff.mp hlength
        exact truth_spelledOut isAfter hne hlength
    | cons _ _ => exact truth_uniform isAfter hall hlength
  · exact truth_spelledOut isAfter hne hlength

/-- The values of a row tell how other rows compare with it. -/
theorem seekTruth_eq_boundTruth (hvalues : d.BindsTo terms values c) :
    d.seekTruth isAfter terms values r = d.boundTruth isAfter terms r c := by
  induction hvalues with
  | nil => exact (boundTruth_nil isAfter).symm
  | cons hvalue _ ih => rw [seekTruth, boundTruth_cons, hvalue, ih]

/-- A bound is true of the rows on its side of the cursor's row and false of all others,
unless a null leaves that open. -/
theorem truth_ofOrder (hne : terms ≠ []) (hvalues : d.BindsTo terms values c) :
    d.truth r (Bound.ofOrder isAfter terms values) = d.boundTruth isAfter terms r c := by
  have hlength : values.length = terms.length := (List.Forall₂.length_eq hvalues).symm
  rw [truth_ofOrder_eq_seekTruth isAfter hne hlength, seekTruth_eq_boundTruth isAfter hvalues]

/-- A bound of an order without nulls is never unknown. -/
theorem truth_bound (hne : terms ≠ []) (hr : d.Complete terms r) (hc : d.Complete terms c)
    (hvalues : d.BindsTo terms values c) :
    d.truth r (Bound.ofOrder isAfter terms values) =
      some (decide (d.compare terms r c = keptSide isAfter)) := by
  rw [truth_ofOrder isAfter hne hvalues, boundTruth, if_pos (inReach_of_complete hr hc)]

end Reading

end PageQuery
