import PageQuery.Binary64.Basic

/-!
# Shortest decimals

The shortest decimal of a double is the decimal with the fewest digits among
those that read back as it, and of these the nearest.  A decimal reads back
exactly when it lies in the interval of numbers that round to the double; its
ends belong to it when the significand is even.  The coarsest decimal grid with a
point in that interval is the one with the fewest digits, and if a grid has such
a point at all, then one of the two grid points beside the double is one.
-/

namespace PageQuery

/-- The number `digits · 10 ^ exponent`. -/
structure Decimal where
  digits : Nat
  exponent : Int
  deriving DecidableEq, Repr

namespace Binary64

/-- The choice between two decimals that are equally near. -/
inductive Tie
  | toEven
  | up
  deriving DecidableEq, Repr

/-- Half the way down to the next smaller double, in quarters of a unit.  It is
shorter below a power of two, where the doubles lie closer. -/
def stepDown (x : Binary64) : Nat :=
  if x.fraction = 0 ∧ 1 < x.biased then 1 else 2

/-- The point of the grid of `10 ^ exponent` that stands for `x`: of the two
points beside `x`, the nearer of those that read back as `x`. -/
def onGrid? (tie : Tie) (x : Binary64) (exponent : Int) : Option Nat :=
  let quarter := x.power - 2
  let grid := Nat.pow 10 exponent.toNat * Nat.pow 2 (-quarter).toNat
  let unit := Nat.pow 10 (-exponent).toNat * Nat.pow 2 quarter.toNat
  let value := 4 * x.significand * unit
  let low := (4 * x.significand - x.stepDown) * unit
  let high := (4 * x.significand + 2) * unit
  let readsBack (n : Nat) : Bool :=
    if x.significand % 2 = 0 then low ≤ n * grid && n * grid ≤ high
    else low < n * grid && n * grid < high
  let below := value / grid
  let above := below + 1
  let upper : Bool :=
    let down := value - below * grid
    let up := above * grid - value
    if up < down then true
    else if down < up then false
    else match tie with
      | .up => true
      | .toEven => below % 2 = 1
  match readsBack below, readsBack above with
  | true, true => some (if upper then above else below)
  | true, false => some below
  | false, true => some above
  | false, false => none

/-- The decimal exponents that doubles can need, the coarsest grid first. -/
def gridExponents : List Int := (List.range 633).map fun (i : Nat) => 308 - (i : Int)

/-- The shortest decimal of a finite number other than zero, without its sign. -/
def shortest (tie : Tie) (x : Binary64) : Decimal :=
  (gridExponents.findSome? fun exponent =>
    (x.onGrid? tie exponent).map fun n => ⟨n, exponent⟩).getD ⟨0, 0⟩

end Binary64

end PageQuery
