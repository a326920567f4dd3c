import PageQuery.Json.Basic

/-!
# Reading JSON numbers

Digits are collected into a 64-bit significand.  Once one does not fit, the digits
after it only move the decimal point.  A number with a fraction or an exponent,
or a whole number that is out of range, becomes the significand as a double,
multiplied or divided by a rounded power of ten; each of these steps rounds, so
the last bit can differ from that of the nearest double.
-/

namespace PageQuery.Json

abbrev Reader (α : Type) := List Char → Option (α × List Char)

/-- The decimal digits at the start. -/
def digits (cs : List Char) : List Nat × List Char :=
  ((cs.takeWhile Char.isDigit).map fun c => c.toNat - '0'.toNat,
    cs.dropWhile Char.isDigit)

/-- Appends digits to a significand until one does not fit into `limit`.  The
answer is the significand and the number of digits that it took in. -/
def collect (limit : Nat) : (significand : Nat) → List Nat → Nat × Nat
  | significand, [] => (significand, 0)
  | significand, d :: rest =>
    if limit < 10 * significand + d then (significand, 0)
    else
      let (total, taken) := collect limit (10 * significand + d) rest
      (total, taken + 1)

/-- The double `± significand · 10 ^ exponent` by way of the largest power of ten
that is a double.  There is no answer when it is too large. -/
def scale (negative : Bool) (x : Binary64) (exponent : Int) : Option Binary64 :=
  if 0 ≤ exponent then
    if exponent ≤ 308 then
      let product := x.mul (Binary64.ofNat (Nat.pow 10 exponent.toNat))
      if product.isFinite then some (if negative then product.neg else product) else none
    else if x.isZero then some (Binary64.zero negative)
    else none
  else if -308 ≤ exponent then
    let quotient := x.div (Binary64.ofNat (Nat.pow 10 (-exponent).toNat))
    some (if negative then quotient.neg else quotient)
  else if x.isZero then some (Binary64.zero negative)
  else scale negative (x.div (Binary64.ofNat (Nat.pow 10 308))) (exponent + 308)
termination_by (-exponent).toNat
decreasing_by omega

/-- The double of a significand and a decimal exponent. -/
def ofParts (negative : Bool) (significand : Nat) (exponent : Int) : Option Json :=
  (scale negative (Binary64.ofNat significand) exponent).map .real

/-- The largest exponent that is written out. -/
def maxExponent : Nat := 0x7FFFFFFF

/-- The exponent after its mark.  One that is too large to write out is an error
when it makes the number too large, and makes it zero otherwise. -/
def exponentPart (negative : Bool) (significand : Nat) (start : Int) : Reader Json :=
  fun cs =>
    let (down, cs) := match cs with
      | '+' :: rest => (false, rest)
      | '-' :: rest => (true, rest)
      | _ => (false, cs)
    let (ds, rest) := digits cs
    if ds.isEmpty then none
    else
      let (size, taken) := collect maxExponent 0 ds
      let value : Option Json :=
        if taken < ds.length then
          if significand ≠ 0 ∧ down = false then none
          else some (.real (Binary64.zero negative))
        else ofParts negative significand (start + if down then -(size : Int) else size)
      value.map fun v => (v, rest)

/-- The rest of a number that is not an integer: the exponent, if there is one. -/
def realEnd (negative : Bool) (significand : Nat) (exponent : Int) : Reader Json
  | 'e' :: rest => exponentPart negative significand exponent rest
  | 'E' :: rest => exponentPart negative significand exponent rest
  | rest => (ofParts negative significand exponent).map fun v => (v, rest)

/-- The digits after the decimal point, of which there is at least one. -/
def decimalPart (negative : Bool) (significand : Nat) (exponent : Int) : Reader Json :=
  fun cs =>
    let (ds, rest) := digits cs
    if ds.isEmpty then none
    else
      let (significand, taken) := collect maxInteger significand ds
      realEnd negative significand (exponent - taken) rest

/-- The value of a whole number in range. -/
def ofWhole (negative : Bool) (n : Nat) : Json :=
  if negative then
    if n = 0 ∨ 0x8000000000000000 < n then .real (Binary64.ofNat n).neg else .integer (-n)
  else .integer n

/-- A number without its sign. -/
def unsigned (negative : Bool) : Reader Json := fun cs =>
  let (ds, rest) := digits cs
  if ds.isEmpty ∨ (ds.head? = some 0 ∧ 1 < ds.length) then none
  else
    let (significand, taken) := collect maxInteger 0 ds
    let dropped := ds.length - taken
    match rest with
    | '.' :: rest => decimalPart negative significand dropped rest
    | rest =>
      if dropped = 0 ∧ rest.head? ≠ some 'e' ∧ rest.head? ≠ some 'E' then
        some (ofWhole negative significand, rest)
      else realEnd negative significand dropped rest

def number : Reader Json
  | '-' :: rest => unsigned true rest
  | rest => unsigned false rest

end PageQuery.Json
