import PageQuery.Proofs.Database.Reading

/-!
# Orders and arrangements

An order turned around is the opposite order, with nulls at the other end.  Where no two
rows tie, a database has no choice: there is one arrangement.  So to filter rows and to
arrange them may be done one after the other in any order, and an arrangement turned
around is the arrangement by the order turned around.
-/

namespace PageQuery

open Sql

variable {ρ V : Type} [LinearOrder V]

namespace Sql.OrderTerm

variable (term : OrderTerm)

theorem nullsFirst_flipped : term.flipped.nullsFirst = !term.nullsFirst := by
  obtain ⟨expr, ascending, nulls⟩ := term
  cases nulls with
  | none => rfl
  | some place => cases place <;> rfl

/-- A flipped term compares the other way round. -/
theorem compare_flipped (x y : Option V) : term.flipped.compare x y = term.compare y x := by
  cases x with
  | none =>
      cases y with
      | none => rfl
      | some y =>
          simp only [compare, nullsFirst_flipped]
          cases term.nullsFirst <;> rfl
  | some x =>
      cases y with
      | none =>
          simp only [compare, nullsFirst_flipped]
          cases term.nullsFirst <;> rfl
      | some y =>
          obtain ⟨expr, ascending, nulls⟩ := term
          cases ascending <;> rfl

theorem compare_swap (x y : Option V) : (term.compare x y).swap = term.compare y x := by
  cases x with
  | none =>
      cases y with
      | none => rfl
      | some y =>
          simp only [compare]
          cases term.nullsFirst <;> rfl
  | some x =>
      cases y with
      | none =>
          simp only [compare]
          cases term.nullsFirst <;> rfl
      | some y =>
          have hswap (x y : V) : (Ord.compare x y).swap = Ord.compare y x :=
            Std.OrientedCmp.eq_swap.symm
          obtain ⟨expr, ascending, nulls⟩ := term
          cases ascending with
          | false => exact hswap y x
          | true => exact hswap x y

/-- The values of a term are ordered, nulls and all. -/
instance transCmp : Std.TransCmp (term.compare : Option V → Option V → Ordering) where
  eq_swap {x y} := (term.compare_swap y x).symm
  isLE_trans {x y z} := by
    have htrans {a b c : V} : (Ord.compare a b).isLE → (Ord.compare b c).isLE →
        (Ord.compare a c).isLE := Std.TransCmp.isLE_trans
    cases x <;> cases y <;> cases z <;> simp only [compare] <;> intro hxy hyz
    case some.some.some =>
      cases hascending : term.ascending with
      | false =>
          simp only [hascending] at hxy hyz ⊢
          exact htrans hyz hxy
      | true =>
          simp only [hascending] at hxy hyz ⊢
          exact htrans hxy hyz
    -- With a null among them, the place of nulls decides.
    all_goals cases hfirst : term.nullsFirst <;> simp_all

end Sql.OrderTerm

namespace Reading

variable (d : Reading ρ V) (terms : List OrderTerm)

/-- A flipped order compares the other way round. -/
theorem compare_flipped (r s : ρ) :
    d.compare (terms.map OrderTerm.flipped) r s = d.compare terms s r := by
  induction terms with
  | nil => rfl
  | cons term terms ih =>
      change (term.flipped.compare (d.value r term.expr) (d.value s term.expr)).then
        (d.compare (terms.map OrderTerm.flipped) r s) = _
      rw [OrderTerm.compare_flipped, ih]
      rfl

theorem compare_swap (r s : ρ) : (d.compare terms r s).swap = d.compare terms s r := by
  induction terms with
  | nil => rfl
  | cons term terms ih =>
      change ((term.compare (d.value r term.expr) (d.value s term.expr)).then
        (d.compare terms r s)).swap = _
      rw [Ordering.swap_then, OrderTerm.compare_swap, ih]
      rfl

/-- A row is ahead of another one if that one is behind it. -/
theorem compare_eq_lt_iff {r s : ρ} : d.compare terms r s = .lt ↔ d.compare terms s r = .gt := by
  rw [← compare_swap d terms s r]
  cases d.compare terms s r <;> simp

theorem compare_self (r : ρ) : d.compare terms r r = .eq := by
  have hswap := d.compare_swap terms r r
  cases h : d.compare terms r r with
  | eq => rfl
  | lt => rw [h] at hswap; cases hswap
  | gt => rw [h] at hswap; cases hswap

/-- Rows are ordered by the first term that tells them apart. -/
instance transCmp : Std.TransCmp (d.compare terms) := by
  induction terms with
  | nil => exact { eq_swap := rfl, isLE_trans := fun _ _ => rfl }
  | cons term terms ih =>
      have hfirst : Std.TransCmp fun r s : ρ =>
          term.compare (d.value r term.expr) (d.value s term.expr) :=
        { eq_swap := Std.OrientedCmp.eq_swap, isLE_trans := Std.TransCmp.isLE_trans }
      exact inferInstanceAs (Std.TransCmp (compareLex _ (d.compare terms)))

/-- No two of the rows tie. -/
def Distinct (rows : List ρ) : Prop :=
  ∀ r ∈ rows, ∀ s ∈ rows, d.compare terms r s = .eq → r = s

instance [DecidableEq ρ] (rows : List ρ) : Decidable (d.Distinct terms rows) :=
  inferInstanceAs (Decidable (∀ r ∈ rows, ∀ s ∈ rows, d.compare terms r s = .eq → r = s))

variable {d terms}

theorem Distinct.sublist {rows some : List ρ} (hdistinct : d.Distinct terms rows)
    (hsome : some.Sublist rows) : d.Distinct terms some :=
  fun r hr s hs => hdistinct r (hsome.subset hr) s (hsome.subset hs)

theorem Distinct.flipped {rows : List ρ} (hdistinct : d.Distinct terms rows) :
    d.Distinct (terms.map OrderTerm.flipped) rows := by
  intro r hr s hs htie
  rw [compare_flipped] at htie
  exact (hdistinct s hs r hr htie).symm

end Reading

/-- The database that reads as `d` and sorts its rows where it has to arrange them. -/
def Reading.database (d : Reading ρ V) (rows : Option (Fragment × Node) → List Fragment → List ρ)
    (nodup : ∀ source joins, (rows source joins).Nodup) : Database ρ V where
  toReading := d
  rows := rows
  nodup := nodup
  arrange terms rows := rows.mergeSort fun r s => (d.compare terms r s).isLE
  perm _ _ := List.mergeSort_perm _ _
  sorted terms rows := by
    let ahead (r s : ρ) : Bool := (d.compare terms r s).isLE
    have hsorted : (rows.mergeSort ahead).Pairwise fun r s => ahead r s := by
      apply List.pairwise_mergeSort
      · intro q r s
        exact Std.TransCmp.isLE_trans
      · intro r s
        simp only [ahead, ← d.compare_swap terms r s]
        cases d.compare terms r s <;> rfl
    exact hsorted.imp Ordering.ne_gt_iff_isLE.mpr

/-- Rows that do not tie can be arranged in one way only. -/
theorem Reading.arrangement_unique {d : Reading ρ V} {terms : List OrderTerm} {rows : List ρ}
    (hdistinct : d.Distinct terms rows) {arranged others : List ρ}
    (hperm : arranged.Perm rows) (hperm' : others.Perm rows)
    (hsorted : arranged.Pairwise fun r s => d.compare terms r s ≠ .gt)
    (hsorted' : others.Pairwise fun r s => d.compare terms r s ≠ .gt) : arranged = others := by
  refine List.Perm.eq_of_pairwise ?_ hsorted hsorted' (hperm.trans hperm'.symm)
  intro r s hr hs hrs hsr
  apply hdistinct r (hperm.subset hr) s (hperm'.subset hs)
  cases h : d.compare terms r s with
  | eq => rfl
  | lt => exact absurd ((d.compare_eq_lt_iff terms).mp h) hsr
  | gt => exact absurd h hrs

theorem Reading.reverse_sorted_flipped {d : Reading ρ V} {terms : List OrderTerm}
    {arranged : List ρ} (hsorted : arranged.Pairwise fun r s => d.compare terms r s ≠ .gt) :
    arranged.reverse.Pairwise fun r s =>
      d.compare (terms.map OrderTerm.flipped) r s ≠ .gt := by
  rw [List.pairwise_reverse]
  apply hsorted.imp
  intro r s hrs
  rwa [compare_flipped]

namespace Database

variable {db : Database ρ V} {terms : List OrderTerm} {rows : List ρ}

/-- Where an order tells all rows apart there is one way to arrange them. -/
theorem arrange_unique (hdistinct : db.Distinct terms rows) {arranged : List ρ}
    (hperm : arranged.Perm rows)
    (hsorted : arranged.Pairwise fun r s => db.compare terms r s ≠ .gt) :
    db.arrange terms rows = arranged :=
  Reading.arrangement_unique hdistinct (db.perm terms rows) hperm (db.sorted terms rows) hsorted

/-- It does not matter whether rows are filtered before or after they are arranged. -/
theorem arrange_filter (hdistinct : db.Distinct terms rows) (p : ρ → Bool) :
    db.arrange terms (rows.filter p) = (db.arrange terms rows).filter p := by
  apply arrange_unique (hdistinct.sublist List.filter_sublist)
  · exact (db.perm terms rows).filter p
  · exact (db.sorted terms rows).sublist List.filter_sublist

/-- The flipped order arranges rows in reverse. -/
theorem arrange_flipped (hdistinct : db.Distinct terms rows) :
    db.arrange (terms.map OrderTerm.flipped) rows = (db.arrange terms rows).reverse := by
  apply arrange_unique hdistinct.flipped
  · exact (List.reverse_perm _).trans (db.perm terms rows)
  · exact Reading.reverse_sorted_flipped (db.sorted terms rows)

/-- Rows that do not tie are arranged one strictly ahead of the other. -/
theorem arrange_strict (hdistinct : db.Distinct terms rows) (hnodup : rows.Nodup) :
    (db.arrange terms rows).Pairwise fun r s => db.compare terms r s = .lt := by
  have hnodup' : (db.arrange terms rows).Nodup := (db.perm terms rows).nodup_iff.mpr hnodup
  apply ((db.sorted terms rows).and hnodup').imp_of_mem
  rintro r s hr hs ⟨hrs, hne⟩
  cases h : db.compare terms r s with
  | lt => rfl
  | gt => exact absurd h hrs
  | eq =>
      have hmem := fun q hq => (db.perm terms rows).subset (a := q) hq
      exact absurd (hdistinct r (hmem r hr) s (hmem s hs) h) hne

end Database

end PageQuery
