import PageQuery.Proofs.Database.Order

/-!
# Orders as a database reads them

The terms of an order reach a database as the keys of an `order by`: an expression, a
direction, and maybe a place for nulls.  A database reads a key from the back, and what a
key leaves out has a default that depends on the rest of it.  Main statement: under the
keys of the terms turned around, rows compare as they do the other way round under the
keys of the terms themselves; so rows that do not tie come in the opposite order.
-/

namespace PageQuery

open Sql

variable {ρ V : Type} [LinearOrder V]

/-- A key of an `order by`. -/
structure SortKey where
  expr : Fragment
  ascending : Bool
  nullsFirst : Bool

namespace SortKey

/-- The place for nulls at the end of a key, and what stands in front of it.  The nodes are
those of the key from the back. -/
def readNulls : List Node → Option NullsOrder × List Node
  | .raw " NULLS FIRST" :: front => (some .first, front)
  | .raw " NULLS LAST" :: front => (some .last, front)
  | nodes => (none, nodes)

/-- Whether a key ascends, as it does if nothing is said, and what stands in front of that. -/
def readDirection : List Node → Bool × List Node
  | .raw " ASC" :: front => (true, front)
  | .raw " DESC" :: front => (false, front)
  | nodes => (true, nodes)

/-- The key that a fragment spells.  If nothing is said about nulls, they come last in a key
that ascends and first in one that descends. -/
def read (f : Fragment) : SortKey :=
  let (nulls, front) := readNulls f.reverse
  let (ascending, expr) := readDirection front
  { expr := expr.reverse
    ascending
    nullsFirst := match nulls with
      | some .first => true
      | some .last => false
      | none => !ascending }

/-- How two values compare under a key, where a null is no value. -/
def compare (key : SortKey) : Option V → Option V → Ordering
  | some x, some y => if key.ascending then Ord.compare x y else Ord.compare y x
  | some _, none => if key.nullsFirst then .gt else .lt
  | none, some _ => if key.nullsFirst then .lt else .gt
  | none, none => .eq

theorem readNulls_nullsPlace (term : OrderTerm) :
    readNulls (term.expr ++ term.direction ++ term.nullsPlace).reverse =
      (term.nulls, (term.expr ++ term.direction).reverse) := by
  obtain ⟨expr, ascending, nulls⟩ := term
  rw [List.reverse_append]
  cases nulls with
  | none =>
      rw [List.reverse_append]
      cases ascending <;> rfl
  | some place => cases place <;> rfl

theorem readDirection_direction (term : OrderTerm) :
    readDirection (term.expr ++ term.direction).reverse =
      (term.ascending, term.expr.reverse) := by
  obtain ⟨expr, ascending, nulls⟩ := term
  rw [List.reverse_append]
  cases ascending <;> rfl

/-- What a term puts into a clause is read as the term. -/
theorem read_fragment (term : OrderTerm) (flip : Bool) :
    read (term.fragment flip) =
      let term := if flip then term.flipped else term
      ⟨term.expr, term.ascending, term.nullsFirst⟩ := by
  rw [read, OrderTerm.fragment, readNulls_nullsPlace]
  simp only [readDirection_direction, List.reverse_reverse]
  rfl

theorem compare_eq_term (term : OrderTerm) :
    (SortKey.mk term.expr term.ascending term.nullsFirst).compare (V := V) = term.compare := by
  funext x y
  cases x <;> cases y <;> rfl

end SortKey

namespace Reading

variable (d : Reading ρ V)

/-- The order of two rows under the keys of a clause: that of the first key under which they
do not tie. -/
def compareUnder : List Fragment → ρ → ρ → Ordering
  | [], _, _ => .eq
  | f :: clause, r, s =>
    let key := SortKey.read f
    (key.compare (d.value r key.expr) (d.value s key.expr)).then (compareUnder clause r s)

/-- The keys of some terms, as they are or turned around. -/
def keys (terms : List OrderTerm) (flip : Bool) : List Fragment :=
  terms.map fun term => term.fragment flip

theorem compareUnder_keys (terms : List OrderTerm) (flip : Bool) :
    d.compareUnder (keys terms flip) =
      d.compare (if flip then terms.map OrderTerm.flipped else terms) := by
  induction terms with
  | nil => cases flip <;> rfl
  | cons term terms ih =>
      have ih (r s : ρ) := congrFun (congrFun ih r) s
      funext r s
      rw [keys, List.map_cons, compareUnder, SortKey.read_fragment]
      simp only [SortKey.compare_eq_term]
      rw [← keys, ih]
      cases flip <;> rfl

/-- Rows compare under the keys of terms turned around as they do the other way round under
the keys of the terms.  If no two rows tie, then however a database sorts them, to sort by
the keys turned around and to reverse the result is to sort by the keys. -/
theorem compareUnder_flipped (terms : List OrderTerm) :
    (∀ r s, d.compareUnder (keys terms true) r s = d.compareUnder (keys terms false) s r) ∧
      ∀ rows : List ρ,
        (∀ r ∈ rows, ∀ s ∈ rows, d.compareUnder (keys terms false) r s = .eq → r = s) →
        ∀ arranged turned : List ρ, arranged.Perm rows → turned.Perm rows →
          (arranged.Pairwise fun r s => d.compareUnder (keys terms false) r s ≠ .gt) →
          (turned.Pairwise fun r s => d.compareUnder (keys terms true) r s ≠ .gt) →
          turned.reverse = arranged := by
  simp only [compareUnder_keys, if_true, Bool.false_eq_true, if_false]
  refine ⟨d.compare_flipped terms, fun rows hdistinct arranged turned hperm hperm' hsorted
    hsorted' => ?_⟩
  have hreverse := arrangement_unique (Distinct.flipped hdistinct)
    ((List.reverse_perm _).trans hperm) hperm' (reverse_sorted_flipped hsorted) hsorted'
  rw [← hreverse, List.reverse_reverse]

/-- Rows of one column with numbers and nulls. -/
def column : Reading (Option Nat) Nat where
  value r _ := r
  holds _ _ := none
  bind _ _ := none
  json _ _ := .null

theorem compareUnder_flipped_nulls :
    let terms : List OrderTerm := [⟨[ident "n"], false, none⟩, ⟨[ident "n"], true, some .first⟩]
    (∀ r ∈ [some 1, none, some 2], ∀ s ∈ [some 1, none, some 2],
        column.compareUnder (keys terms false) r s = .eq → r = s) ∧
      column.compareUnder (keys terms true) none (some 1) =
        column.compareUnder (keys terms false) (some 1) none ∧
      [some 1, some 2, none].reverse = [none, some 2, some 1] := by
  intro terms
  have hdistinct : ∀ r ∈ [some 1, none, some 2], ∀ s ∈ [some 1, none, some 2],
      column.compareUnder (keys terms false) r s = .eq → r = s := by decide
  have hflipped := column.compareUnder_flipped terms
  exact ⟨hdistinct, hflipped.1 none (some 1),
    hflipped.2 [some 1, none, some 2] hdistinct [none, some 2, some 1] [some 1, some 2, none]
      (by decide) (by decide) (by decide) (by decide)⟩

end Reading

end PageQuery
