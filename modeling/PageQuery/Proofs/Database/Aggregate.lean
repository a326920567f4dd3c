import PageQuery.Proofs.Database.Order

/-!
# Rows and arrays of rows

A build gives its objects as rows or as the items of one array.  When the order of a page
is turned around, the array is sorted by the numbers that its rows have in the turned order,
the largest first.  That turns the page around again, for numbers stand for places: it does
not matter which rows of them the page holds.
-/

namespace PageQuery

open Sql

variable {ρ V : Type} [LinearOrder V] [DecidableEq ρ]

/-- Some rows of an arrangement, sorted by their places downwards. -/
theorem mergeSort_idxOf {rows some : List ρ} (hnodup : rows.Nodup) (hsome : some.Sublist rows) :
    (some.mergeSort fun q r => rows.idxOf r ≤ rows.idxOf q) = some.reverse := by
  let down (q r : ρ) : Bool := rows.idxOf r ≤ rows.idxOf q
  have hperm : (some.mergeSort down).Perm some := List.mergeSort_perm _ _
  have hsorted : (some.mergeSort down).Pairwise fun q r => down q r := by
    apply List.pairwise_mergeSort
    · intro q r s hqr hrs
      simp only [down, decide_eq_true_eq] at hqr hrs ⊢
      exact Nat.le_trans hrs hqr
    · intro q r
      simpa [down] using Nat.le_total _ _
  have hincreasing : rows.Pairwise fun q r => rows.idxOf q ≤ rows.idxOf r := by
    rw [List.pairwise_iff_getElem]
    intro i j hi hj hij
    rw [hnodup.idxOf_getElem i hi, hnodup.idxOf_getElem j hj]
    exact Nat.le_of_lt hij
  refine List.Perm.eq_of_pairwise ?_ hsorted ?_ (hperm.trans (List.reverse_perm _).symm)
  · intro q r hq _ hqr hrq
    have hmem : q ∈ rows := hsome.subset (hperm.subset hq)
    simp only [down, decide_eq_true_eq] at hqr hrq
    exact (List.idxOf_inj hmem).mp (Nat.le_antisymm hrq hqr)
  · rw [List.pairwise_reverse]
    apply (hincreasing.sublist hsome).imp
    intro q r hqr
    simpa [down] using hqr

omit [DecidableEq ρ] in
theorem slice_sublist (limit : Option Nat) (offset : Nat) (rows : List ρ) :
    (slice limit offset rows).Sublist rows := by
  cases limit with
  | none => exact List.drop_sublist _ _
  | some n => exact (List.take_sublist _ _).trans (List.drop_sublist _ _)

namespace Database

variable (db : Database ρ V)

omit [DecidableEq ρ] in
theorem nodup_candidates (s : Statement) : (db.candidates s).Nodup :=
  (db.nodup _ _).filter _

/-- An array that is sorted by numbers holds the rows of its page turned around. -/
theorem aggregate_order (s : Statement) :
    db.aggregate s s.order =
      if Built.isNumbered s then (db.select s).reverse else db.select s := by
  rw [aggregate]
  split
  · have hflip : s.flip = true := by simp_all [Built.isNumbered]
    let arranged := db.arrange (s.order.map OrderTerm.flipped) (db.candidates s)
    have hnodup : arranged.Nodup :=
      (db.perm _ _).nodup_iff.mpr (db.nodup_candidates s)
    have hselect : (db.select s).Sublist arranged := by
      rw [select, if_pos hflip]
      exact slice_sublist _ _ _
    exact mergeSort_idxOf hnodup hselect
  · rfl

/-- The objects that a build gives, if it has a column of objects and the numbers that it
sorts them by. -/
def objects? : Built → Option (List Json)
  | .object _ => none
  | .rows s =>
    match s.projection with
    | .object object _ => some ((db.select s).map fun r => db.json r object)
    | _ => none
  | .aggregate s _ =>
    match s.projection with
    | .object object numberedBy =>
      if Built.isNumbered s && numberedBy.isEmpty then none
      else some ((db.aggregate s numberedBy).map fun r => db.json r object)
    | _ => none

/-- The items of an array are the objects of its rows, turned around if the array is sorted
by numbers. -/
theorem objects?_aggregate (s : Statement) (object : Fragment) (token : AliasToken) :
    ∃ objects,
      db.objects? (.rows { s with projection := .object object [] }) = some objects ∧
      db.objects? (.aggregate
          { s with projection := .object object (if s.flip then s.order else []) } token) =
        some (if Built.isNumbered s then objects.reverse else objects) := by
  refine ⟨(db.select s).map fun r => db.json r object, rfl, ?_⟩
  let sorted : Statement :=
    { s with projection := .object object (if s.flip then s.order else []) }
  change (if Built.isNumbered s && (if s.flip then s.order else []).isEmpty then none
    else some ((db.aggregate sorted (if s.flip then s.order else [])).map fun r =>
      db.json r object)) = _
  cases hnumbered : Built.isNumbered s with
  | false =>
      have hsorted : Built.isNumbered sorted = false := hnumbered
      have hplain : db.aggregate sorted (if s.flip then s.order else []) = db.select s :=
        if_neg (by simp [hsorted])
      simp [hplain]
  | true =>
      obtain ⟨hflip, hne⟩ : s.flip = true ∧ s.order ≠ [] := by
        simpa [Built.isNumbered] using hnumbered
      have hturned : db.aggregate sorted s.order = (db.select s).reverse :=
        (db.aggregate_order sorted).trans (if_pos hnumbered)
      simp [hflip, hne, hturned]

end Database

end PageQuery
