/-!
# Binary64 numbers

A double is its 64 bits.  A finite one is `± significand · 2 ^ power`, and every
operation here computes with that pair of integers and rounds the exact result
once, to the nearest double, a tie to the even one.
-/

namespace PageQuery

/-- An IEEE 754 double, by its bits. -/
structure Binary64 where
  bits : UInt64
  deriving DecidableEq, Repr, Inhabited

namespace Binary64

/-- The bit of the sign. -/
def signBit : Nat := 0x8000000000000000

/-- The leading bit of a significand, one above the fraction. -/
def leadingBit : Nat := 0x10000000000000

def isNegative (x : Binary64) : Bool := x.bits.toNat / signBit = 1

/-- The exponent field. -/
def biased (x : Binary64) : Nat := x.bits.toNat / leadingBit % 0x800

/-- The fraction field. -/
def fraction (x : Binary64) : Nat := x.bits.toNat % leadingBit

def isFinite (x : Binary64) : Bool := x.biased ≠ 2047

/-- Zero of either sign. -/
def isZero (x : Binary64) : Bool := x.bits.toNat % signBit = 0

/-- The integer significand of a finite number; subnormal numbers lack the
leading bit. -/
def significand (x : Binary64) : Nat :=
  if x.biased = 0 then x.fraction else leadingBit + x.fraction

/-- The power of two that the significand of a finite number counts. -/
def power (x : Binary64) : Int :=
  if x.biased = 0 then -1074 else (x.biased : Int) - 1075

/-- The double with the given sign and the bits below it. -/
def ofMagnitude (negative : Bool) (magnitude : Nat) : Binary64 :=
  ⟨UInt64.ofNat ((if negative then signBit else 0) + magnitude)⟩

def zero (negative : Bool) : Binary64 := ofMagnitude negative 0

/-- The bits of infinity below the sign. -/
def infinity : Nat := 2047 * leadingBit

def neg (x : Binary64) : Binary64 := ⟨x.bits ^^^ 0x8000000000000000⟩

/-- The largest power of two that is at most `num / den`. -/
def floorLog (num den : Nat) : Int :=
  let guess := (num.log2 : Int) - den.log2
  if num * Nat.pow 2 (-guess).toNat < den * Nat.pow 2 guess.toNat then guess - 1 else guess

/-- `num / den` to the nearest integer, a tie to the even one. -/
def divEven (num den : Nat) : Nat :=
  let quotient := num / den
  let rest := 2 * (num % den)
  if den < rest || rest = den && quotient % 2 = 1 then quotient + 1 else quotient

/-- The double nearest to `± num / den`, a tie to the even one.  Results past the
largest double are infinite. -/
def ofRatio (negative : Bool) (num den : Nat) : Binary64 :=
  if num = 0 then zero negative else
    let unit := max (floorLog num den) (-1022) - 52
    let rounded := divEven (num * Nat.pow 2 (-unit).toNat) (den * Nat.pow 2 unit.toNat)
    ofMagnitude negative (min infinity ((unit + 1074).toNat * leadingBit + rounded))

def ofNat (n : Nat) : Binary64 := ofRatio false n 1

/-- The rounded product of two finite numbers. -/
def mul (x y : Binary64) : Binary64 :=
  let power := x.power + y.power
  ofRatio (x.isNegative != y.isNegative)
    (x.significand * y.significand * Nat.pow 2 power.toNat) (Nat.pow 2 (-power).toNat)

/-- The rounded quotient of two finite numbers, the second not zero. -/
def div (x y : Binary64) : Binary64 :=
  let power := x.power - y.power
  ofRatio (x.isNegative != y.isNegative)
    (x.significand * Nat.pow 2 power.toNat) (y.significand * Nat.pow 2 (-power).toNat)

end Binary64

end PageQuery
